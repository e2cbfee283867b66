import Sagas.Property

/-!
# The order of index keys

Keys compare by name and then by value. Only equal keys compare as equal, so sorting a list of keys
and dropping repetitions loses none.
-/

namespace Sagas

instance : Std.LawfulEqOrd Uuid where
  compare_self := Std.ReflOrd.compare_self (α := Nat)
  eq_of_compare same := Uuid.ext (Std.LawfulEqOrd.eq_of_compare (α := Nat) same)

instance : Std.LawfulEqOrd Width where
  compare_self {w} := by cases w <;> rfl
  eq_of_compare {v w} same := by cases v <;> cases w <;> first | rfl | cases same

namespace Scalar

theorem compare_self (v : Scalar) : compare v v = .eq := by
  cases v with
  | bool b => exact Std.ReflOrd.compare_self
  | int w n => simp [compare, Std.ReflOrd.compare_self]
  | uuid u => exact Std.ReflOrd.compare_self
  | string s => exact Std.ReflOrd.compare_self

/-- Values of different kinds compare as their kinds do, which is never equal. -/
theorem eq_of_compare {u v : Scalar} (same : compare u v = .eq) : u = v := by
  cases u <;> cases v
  case bool.bool => exact congrArg _ (Std.LawfulEqOrd.eq_of_compare same)
  case int.int v a w b =>
    obtain ⟨widths, values⟩ := Ordering.then_eq_eq.1 same
    obtain rfl := Std.LawfulEqOrd.eq_of_compare widths
    exact congrArg _ (Word.ext (Std.LawfulEqOrd.eq_of_compare values))
  case uuid.uuid => exact congrArg _ (Std.LawfulEqOrd.eq_of_compare same)
  case string.string => exact congrArg _ (Std.LawfulEqOrd.eq_of_compare same)
  all_goals cases same

instance : Std.LawfulEqOrd Scalar where
  compare_self := compare_self _
  eq_of_compare := eq_of_compare

end Scalar

instance : Std.LawfulEqOrd PropertyValue where
  compare_self := Ordering.then_eq_eq.2 ⟨Std.ReflOrd.compare_self, Std.ReflOrd.compare_self⟩
  eq_of_compare {p q} same := by
    obtain ⟨names, values⟩ := Ordering.then_eq_eq.1 same
    obtain ⟨name, value⟩ := p
    obtain ⟨otherName, otherValue⟩ := q
    simp only [PropertyValue.mk.injEq]
    exact ⟨Std.LawfulEqOrd.eq_of_compare names, Std.LawfulEqOrd.eq_of_compare values⟩

end Sagas
