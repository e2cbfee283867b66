import Sagas.Text.Numeral

/-!
# Signed machine words

Integers of 16, 32 and 64 bits in two's complement, kept as an integer with its bounds.
-/

namespace Sagas

inductive Width where
  | w16
  | w32
  | w64
  deriving DecidableEq, Repr, Ord

namespace Width

/-- Words of this width run from `-bound` to `bound - 1`. -/
def bound : Width → Nat
  | .w16 => 32768
  | .w32 => 2147483648
  | .w64 => 9223372036854775808

theorem bound_pos (w : Width) : 0 < w.bound := by
  cases w <;> decide

end Width

structure Word (w : Width) where
  val : Int
  le_val : -(w.bound : Int) ≤ val
  val_lt : val < w.bound
  deriving DecidableEq

namespace Word

variable {w : Width}

theorem ext {a b : Word w} (same : a.val = b.val) : a = b := by
  cases a; cases b; simp_all

def zero : Word w :=
  ⟨0, by have := w.bound_pos; omega, by have := w.bound_pos; omega⟩

instance : Inhabited (Word w) := ⟨zero⟩

/-- The word with this value, if it is in range. -/
def ofInt? (w : Width) (n : Int) : Option (Word w) :=
  if h : -(w.bound : Int) ≤ n ∧ n < w.bound then some ⟨n, h.1, h.2⟩ else none

/-- The word that agrees with `n` in the low bits. -/
def wrap (w : Width) (n : Int) : Word w :=
  ⟨n.bmod (2 * w.bound), by
    have := Int.le_bmod (x := n) (m := 2 * w.bound) (by have := w.bound_pos; omega)
    omega, by
    have := Int.bmod_lt (x := n) (m := 2 * w.bound) (by have := w.bound_pos; omega)
    omega⟩

/-- Addition, wrapping around at the bounds. -/
def add (a b : Word w) : Word w :=
  wrap w (a.val + b.val)

def max (a b : Word w) : Word w :=
  if a.val ≤ b.val then b else a

def text (a : Word w) : String :=
  toString a.val

def ofText? (w : Width) (s : String) : Option (Word w) :=
  match Numeral.read (-(w.bound : Int)) (w.bound - 1) s with
  | .ok n => ofInt? w n
  | .error _ => none

theorem ofInt?_val (a : Word w) : ofInt? w a.val = some a := by
  simp [ofInt?, a.le_val, a.val_lt]

theorem ofInt?_eq_some_iff {n : Int} {a : Word w} : ofInt? w n = some a ↔ a.val = n := by
  constructor
  · intro found
    unfold ofInt? at found
    split at found
    · cases found; rfl
    · cases found
  · rintro rfl
    exact a.ofInt?_val

theorem ofInt?_isSome_iff {n : Int} :
    (ofInt? w n).isSome ↔ -(w.bound : Int) ≤ n ∧ n < w.bound := by
  unfold ofInt?
  split <;> simp_all

end Word

end Sagas
