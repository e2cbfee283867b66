import Sagas.Uuid
import Sagas.Word

/-!
# Scalars

The values that messages and saga data are matched by: truth values, signed words, identifiers
and texts. Each kind has a default, which stands for "not set" and is never looked up.
-/

namespace Sagas

inductive Kind where
  | bool
  | int (w : Width)
  | uuid
  | string
  deriving DecidableEq, Repr, Ord

namespace Kind

def all : List Kind :=
  [.bool, .int .w16, .int .w32, .int .w64, .uuid, .string]

def name : Kind → String
  | .bool => "bool"
  | .int .w16 => "i16"
  | .int .w32 => "i32"
  | .int .w64 => "i64"
  | .uuid => "uuid"
  | .string => "string"

def ofName? (s : String) : Option Kind :=
  all.find? (·.name = s)

/-- The values of one kind. -/
@[reducible] def Carrier : Kind → Type
  | .bool => Bool
  | .int w => Word w
  | .uuid => Uuid
  | .string => String

def unset : (k : Kind) → k.Carrier
  | .bool => false
  | .int _ => Word.zero
  | .uuid => Uuid.nil
  | .string => ""

end Kind

inductive Scalar where
  | bool (b : Bool)
  | int (w : Width) (n : Word w)
  | uuid (u : Uuid)
  | string (s : String)
  deriving DecidableEq

namespace Scalar

@[reducible] def kind : Scalar → Kind
  | .bool _ => .bool
  | .int w _ => .int w
  | .uuid _ => .uuid
  | .string _ => .string

def of : (k : Kind) → k.Carrier → Scalar
  | .bool, b => .bool b
  | .int w, n => .int w n
  | .uuid, u => .uuid u
  | .string, s => .string s

def val : (v : Scalar) → v.kind.Carrier
  | .bool b => b
  | .int _ n => n
  | .uuid u => u
  | .string s => s

/-- Whether this is the default of its kind. -/
def isUnset : Scalar → Bool
  | .bool b => !b
  | .int _ n => n.val == 0
  | .uuid u => u.val == 0
  | .string s => s.isEmpty

def text : Scalar → String
  | .bool b => if b then "true" else "false"
  | .int _ n => n.text
  | .uuid u => u.text
  | .string s => s

/-- By kind, then by value; texts by their characters, which is also the order of their bytes. -/
def compare : Scalar → Scalar → Ordering
  | .bool a, .bool b => Ord.compare a b
  | .int v a, .int w b => (Ord.compare v w).then (Ord.compare a.val b.val)
  | .uuid a, .uuid b => Ord.compare a b
  | .string a, .string b => Ord.compare a b
  | a, b => Ord.compare a.kind b.kind

instance : Ord Scalar := ⟨compare⟩

def sort (values : List Scalar) : List Scalar :=
  values.mergeSort fun a b => (compare a b).isLE

@[simp] theorem kind_of (k : Kind) (a : k.Carrier) : (of k a).kind = k := by
  cases k <;> rfl

@[simp] theorem of_val (v : Scalar) : of v.kind v.val = v := by
  cases v <;> rfl

theorem isUnset_iff (v : Scalar) : v.isUnset = true ↔ v = of v.kind v.kind.unset := by
  cases v with
  | bool b => cases b <;> simp [isUnset, of, Kind.unset]
  | int w n =>
    simp only [isUnset, beq_iff_eq, of, Kind.unset, Scalar.int.injEq, heq_eq_eq, true_and]
    exact ⟨fun zero => Word.ext zero, fun zero => zero ▸ rfl⟩
  | uuid u =>
    simp only [isUnset, beq_iff_eq, of, Kind.unset, Scalar.uuid.injEq]
    exact ⟨fun zero => Uuid.ext zero, fun zero => zero ▸ rfl⟩
  | string s => simp [isUnset, of, Kind.unset]

end Scalar

end Sagas
