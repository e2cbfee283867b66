/-!
# Binary numbers of 64 bits

A finite number is a sign, up to 53 binary digits and a power of two. An operation results in the
number nearest to the exact result; of two nearest ones, in the even one. All arithmetic is exact.
-/

namespace Sagas

/-- The number `numerator / denominator`; the denominator is not zero. -/
structure Quotient where
  numerator : Nat
  denominator : Nat

namespace Quotient

/-- `n * base ^ exponent`, for a base above zero. -/
def scaled (n base : Nat) (exponent : Int) : Quotient :=
  ⟨n * base.pow exponent.toNat, base.pow (-exponent).toNat⟩

def mul (q r : Quotient) : Quotient :=
  ⟨q.numerator * r.numerator, q.denominator * r.denominator⟩

/-- Division by a number other than zero. -/
def div (q r : Quotient) : Quotient :=
  ⟨q.numerator * r.denominator, q.denominator * r.numerator⟩

def floor (q : Quotient) : Nat :=
  q.numerator / q.denominator

def compare (q r : Quotient) : Ordering :=
  Ord.compare (q.numerator * r.denominator) (r.numerator * q.denominator)

/-- The nearest integer; a half goes to the even neighbour. -/
def round (q : Quotient) : Nat :=
  let low := q.floor
  match q.compare ⟨2 * low + 1, 2⟩ with
  | .lt => low
  | .gt => low + 1
  | .eq => low + low % 2

end Quotient

/-- The number `mantissa * 2 ^ exponent` behind a sign, which zero has too. -/
structure Binary64 where
  negative : Bool
  mantissa : Nat
  exponent : Int
  deriving DecidableEq, Repr, Inhabited

namespace Binary64

/-- The least mantissa of 53 binary digits. -/
def fullMantissa : Nat := 0x10000000000000

def leastExponent : Int := -1074

def greatestExponent : Int := 971

def zero (negative : Bool) : Binary64 := ⟨negative, 0, leastExponent⟩

/-- The number without its sign. -/
def size (b : Binary64) : Quotient :=
  .scaled b.mantissa 2 b.exponent

/-! ## Rounding -/

/-- The number nearest to a positive one; its exponent is unbounded above. -/
def nearestPositive (negative : Bool) (q : Quotient) : Binary64 :=
  let guess : Int := (Nat.log2 q.numerator : Int) - Nat.log2 q.denominator - 52
  let large := (q.mul (.scaled 1 2 (-guess))).compare ⟨fullMantissa, 1⟩ != .lt
  let exponent := max leastExponent (if large then guess else guess - 1)
  let mantissa := (q.mul (.scaled 1 2 (-exponent))).round
  if mantissa = 2 * fullMantissa then ⟨negative, fullMantissa, exponent + 1⟩
  else ⟨negative, mantissa, exponent⟩

def nearest (negative : Bool) (q : Quotient) : Binary64 :=
  if q.numerator = 0 then zero negative else nearestPositive negative q

def ofNat (negative : Bool) (n : Nat) : Binary64 :=
  nearest negative ⟨n, 1⟩

def isFinite (b : Binary64) : Bool :=
  b.exponent ≤ greatestExponent

def mul (a b : Binary64) : Binary64 :=
  nearest (a.negative != b.negative) (a.size.mul b.size)

/-- Division by a number other than zero. -/
def div (a b : Binary64) : Binary64 :=
  nearest (a.negative != b.negative) (a.size.div b.size)

end Binary64

end Sagas
