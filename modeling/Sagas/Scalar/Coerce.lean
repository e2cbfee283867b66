import Sagas.Scalar
import Sagas.Text.Blank

/-!
# Coercion between kinds

Every value has a text; a text is read, after dropping the blanks around it, as any other kind;
words change width where the number fits. Nothing else converts.
-/

namespace Sagas

namespace Kind

def isInteger : Kind → Bool
  | .int _ => true
  | _ => false

/-- Whether some value of kind `source` converts to kind `target`. -/
def canCoerce (source target : Kind) : Bool :=
  source = target || source = .string || target = .string
    || (source.isInteger && target.isInteger)

/-- Reads a text without blanks around it as a value of kind `k`. -/
def read? : (k : Kind) → String → Option k.Carrier
  | .bool, s => if s = "true" then some true else if s = "false" then some false else none
  | .int w, s => Word.ofText? w s
  | .uuid, s => Uuid.ofText? s
  | .string, s => some s

end Kind

namespace Scalar

/-- The value of kind `k` that `v` converts to; a text stays as it is, blanks included. -/
def coerceTo (v : Scalar) (k : Kind) : Option k.Carrier :=
  match v, k with
  | v, .string => some v.text
  | .string s, k => k.read? (Text.trim s)
  | .bool b, .bool => some b
  | .int _ n, .int w => Word.ofInt? w n.val
  | .uuid u, .uuid => some u
  | _, _ => none

def coerce (v : Scalar) (k : Kind) : Option Scalar :=
  (v.coerceTo k).map (of k)

theorem kind_of_coerce {v u : Scalar} {k : Kind} (coerced : v.coerce k = some u) :
    u.kind = k := by
  obtain ⟨a, -, rfl⟩ := Option.map_eq_some_iff.1 coerced
  exact kind_of k a

theorem coerceTo_kind (v : Scalar) : v.coerceTo v.kind = some v.val := by
  cases v with
  | int w n => simp [coerceTo, val, Word.ofInt?_val]
  | _ => rfl

theorem coerce_kind (v : Scalar) : v.coerce v.kind = some v := by
  simp [coerce, coerceTo_kind]

end Scalar

end Sagas
