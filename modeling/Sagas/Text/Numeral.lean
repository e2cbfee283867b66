/-!
# Integers in text

A numeral is an optional sign and one or more decimal digits; leading zeros are allowed and
nothing else is. It is read from the left, so the first character that is no digit, or whose digit
leaves the wanted range, decides why the text is refused.
-/

namespace Sagas.Numeral

/-- Why a text is not an integer of the wanted range. -/
inductive Fault where
  | empty
  | invalidDigit
  | tooLarge
  | tooSmall
  deriving DecidableEq, Repr

def Fault.message : Fault → String
  | .empty => "cannot parse integer from empty string"
  | .invalidDigit => "invalid digit found in string"
  | .tooLarge => "number too large to fit in target type"
  | .tooSmall => "number too small to fit in target type"

/-- The value of an ASCII digit. -/
def digit? (c : Char) : Option Nat :=
  if '0' ≤ c ∧ c ≤ '9' then some (c.toNat - '0'.toNat) else none

/-- Continues a numeral whose digits so far denote `value`; a value above `limit` is `excess`. -/
def readDigits (limit : Nat) (excess : Fault) : List Char → Nat → Except Fault Nat
  | [], value => .ok value
  | c :: rest, value =>
    match digit? c with
    | none => .error .invalidDigit
    | some d =>
      if value * 10 + d ≤ limit then readDigits limit excess rest (value * 10 + d)
      else .error excess

/-- Reads an integer from `least` to `greatest`; a minus sign is no digit where no negative is. -/
def read (least greatest : Int) (s : String) : Except Fault Int :=
  match s.toList with
  | [] => .error .empty
  | ['+'] | ['-'] => .error .invalidDigit
  | '+' :: digits => (readDigits greatest.toNat .tooLarge digits 0).map Int.ofNat
  | '-' :: digits =>
    if least < 0 then (readDigits (-least).toNat .tooSmall digits 0).map fun n => -(n : Int)
    else .error .invalidDigit
  | digits => (readDigits greatest.toNat .tooLarge digits 0).map Int.ofNat

example : read (-32768) 32767 "-032768" = .ok (-32768) := by rfl
example : read 0 255 "256x" = .error .tooLarge := by rfl
example : read 0 255 "25x6" = .error .invalidDigit := by rfl

end Sagas.Numeral
