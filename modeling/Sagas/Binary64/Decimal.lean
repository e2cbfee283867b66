import Sagas.Binary64.Shortest

/-!
# Reading decimal numbers

The number that a significand and a power of ten denote is not always the nearest one: each of them
is rounded, and so is their product or quotient. Powers below the least are taken in two steps.
-/

namespace Sagas.Binary64

/-- The greatest power of ten that is a number. -/
def greatestPower : Nat := 308

def powerOfTen (n : Nat) : Binary64 :=
  ofNat false (Nat.pow 10 n)

/-- Reads `significand * 10 ^ exponent`, for a significand of 64 bits, unless it is too large. -/
def ofDecimal? (negative : Bool) (significand : Nat) (exponent : Int) : Option Binary64 :=
  let rounded := ofNat negative significand
  let power := exponent.natAbs
  if significand = 0 then some rounded
  else if 0 ≤ exponent then
    if greatestPower < power then none
    else
      let product := rounded.mul (powerOfTen power)
      if product.isFinite then some product else none
  else if power ≤ greatestPower then some (rounded.div (powerOfTen power))
  else if power ≤ 2 * greatestPower then
    some ((rounded.div (powerOfTen greatestPower)).div (powerOfTen (power - greatestPower)))
  else some (zero negative)

example : (ofDecimal? true 0 (-1)).map text = some "-0.0" := by decide +kernel
example : (ofDecimal? false 10 15).map text = some "1e+16" := by decide +kernel
example : (ofDecimal? false 10 14).map text = some "1000000000000000.0" := by decide +kernel
example : (ofDecimal? false 1234 (-8)).map text = some "0.00001234" := by decide +kernel
example : (ofDecimal? false 1234 (-9)).map text = some "1.234e-6" := by decide +kernel
example : (ofDecimal? false 7 57).map text = some "7.000000000000001e+57" := by decide +kernel
example : ofDecimal? false 1 309 = none := by decide +kernel

end Sagas.Binary64
