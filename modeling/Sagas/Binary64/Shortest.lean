import Sagas.Binary64

/-!
# The shortest text of a binary number

A binary number is shown by the fewest digits that only that number is nearest to: positionally from
`10 ^ -5` up to `10 ^ 16`, otherwise with an exponent, which always has a sign.
-/

namespace Sagas.Binary64

/-! ## The numbers around -/

/-- Halfway to the next number below, which is nearer below a power of two. -/
def lowerEnd (b : Binary64) : Quotient :=
  let quarters := if b.mantissa = fullMantissa ∧ leastExponent < b.exponent then 1 else 2
  .scaled (4 * b.mantissa - quarters) 2 (b.exponent - 2)

/-- Halfway to the next number above. -/
def upperEnd (b : Binary64) : Quotient :=
  .scaled (4 * b.mantissa + 2) 2 (b.exponent - 2)

/-- Whether `b` is the binary number nearest to `q`; the even one of two is. -/
def isNearestTo (b : Binary64) (q : Quotient) : Bool :=
  let ends := b.mantissa % 2 == 0
  let above := q.compare b.lowerEnd
  let below := q.compare b.upperEnd
  (above == .gt || ends && above == .eq) && (below == .lt || ends && below == .eq)

/-! ## Digits -/

/-- `digits * 10 ^ exponent`. -/
structure Digits where
  digits : Nat
  exponent : Int
  deriving DecidableEq, Repr

namespace Digits

def toQuotient (d : Digits) : Quotient :=
  .scaled d.digits 10 d.exponent

/-- How many digits stand before the point of a positive number; negative for zeros behind it. -/
def pointOf (q : Quotient) : Int :=
  if q.floor = 0 then
    let least := (q.denominator + q.numerator - 1) / q.numerator
    1 - (if least = 1 then 0 else ((Nat.toDigits 10 (least - 1)).length : Int))
  else (Nat.toDigits 10 q.floor).length

/-- The one of the two neighbours of `b` on the grid `10 ^ exponent` that reads back as `b`, and of
both the nearer. -/
def onGrid? (b : Binary64) (exponent : Int) : Option Digits :=
  let steps := b.size.mul (.scaled 1 10 (-exponent))
  let low : Digits := ⟨steps.floor, exponent⟩
  let high : Digits := ⟨steps.floor + 1, exponent⟩
  match b.isNearestTo low.toQuotient, b.isNearestTo high.toQuotient with
  | true, true => some ⟨steps.round, exponent⟩
  | true, false => some low
  | false, true => some high
  | false, false => none

/-- The digits of a number other than zero. Seventeen of them always read back. -/
def shortest (b : Binary64) : Digits :=
  let point := pointOf b.size
  let found := (List.range 17).findSome? fun n => onGrid? b (point - (n + 1 : Nat))
  found.getD ⟨(b.size.mul (.scaled 1 10 (17 - point))).round, point - 17⟩

/-- Moves the zeros at the end of the digits into the exponent. -/
def trimmed (d : Digits) : Digits :=
  let digits := Nat.toDigits 10 d.digits
  let zeros := (digits.reverse.takeWhile (· = '0')).length
  ⟨d.digits / Nat.pow 10 zeros, d.exponent + zeros⟩

/-! ## Notation -/

/-- A power of ten behind its mark. -/
def exponentText (power : Int) : List Char :=
  'e' :: (if power < 0 then '-' else '+') :: Nat.toDigits 10 power.natAbs

def text (d : Digits) : String :=
  let digits := Nat.toDigits 10 d.digits
  let count : Int := digits.length
  let point := count + d.exponent
  let zeros (n : Int) := List.replicate n.toNat '0'
  let exponent := exponentText (point - 1)
  String.ofList <|
    if 0 ≤ d.exponent ∧ point ≤ 16 then digits ++ zeros d.exponent ++ ['.', '0']
    else if 0 < point ∧ point ≤ 16 then digits.take point.toNat ++ '.' :: digits.drop point.toNat
    else if -5 < point ∧ point ≤ 0 then '0' :: '.' :: zeros (-point) ++ digits
    else if count = 1 then digits ++ exponent
    else digits.take 1 ++ '.' :: digits.drop 1 ++ exponent

end Digits

def text (b : Binary64) : String :=
  (if b.negative then "-" else "")
    ++ if b.mantissa = 0 then "0.0" else (Digits.shortest b).trimmed.text

end Sagas.Binary64
