import Sagas.Error
import Sagas.Lens
import Sagas.Scalar.Codec
import Sagas.Scalar.Coerce

/-!
# Correlatable properties

A saga's data exposes the fields that messages may be matched against under dotted paths. A table
lists the paths in the order of their last registration; registering a path again replaces the
accessor it had.
-/

namespace Sagas

/-- A property path with a value. -/
structure PropertyValue where
  name : String
  value : Scalar
  deriving DecidableEq

namespace PropertyValue

/-- By name, then by value. -/
instance : Ord PropertyValue :=
  ⟨fun a b => (compare a.name b.name).then (compare a.value b.value)⟩

def ofJson? (j : Json) : Option PropertyValue :=
  match j.columns? ["name", "value"] with
  | some [some name, some value] => do
    return ⟨← name.str?, ← Scalar.ofJson? value⟩
  | _ => none

end PropertyValue

/-- The typed field behind one path. -/
structure Accessor (D : Type) where
  path : String
  kind : Kind
  field : Lens D kind.Carrier

namespace Accessor

variable {C D : Type}

def value (a : Accessor D) (d : D) : Scalar :=
  .of a.kind (a.field.get d)

/-- Replaces the field by `v` coerced to its kind; `none` if `v` does not convert. -/
def assign? (a : Accessor D) (v : Scalar) (d : D) : Option D :=
  (v.coerceTo a.kind).map (a.field.set d)

/-- The same field seen from a record that holds `C` under `name`. -/
def under (name : String) (outer : Lens D C) (a : Accessor C) : Accessor D :=
  ⟨name ++ "." ++ a.path, a.kind, outer.comp a.field⟩

theorem value_of_assign? {a : Accessor D} {v : Scalar} {d e : D}
    (assigned : a.assign? v d = some e) : v.coerce a.kind = some (a.value e) := by
  obtain ⟨x, coerced, rfl⟩ := Option.map_eq_some_iff.1 assigned
  simp [Scalar.coerce, coerced, value]

theorem assign?_isSome (a : Accessor D) (v : Scalar) (d : D) :
    (a.assign? v d).isSome = (v.coerce a.kind).isSome := by
  simp [assign?, Scalar.coerce]

end Accessor

structure PropertyTable (D : Type) where
  accessors : List (Accessor D)

namespace PropertyTable

variable {C D : Type}

def empty : PropertyTable D := ⟨[]⟩

/-- Puts an accessor last, in place of the one its path had. -/
def register (t : PropertyTable D) (a : Accessor D) : PropertyTable D :=
  ⟨t.accessors.filter (fun b => b.path ≠ a.path) ++ [a]⟩

def field (t : PropertyTable D) (path : String) (kind : Kind) (lens : Lens D kind.Carrier) :
    PropertyTable D :=
  t.register ⟨path, kind, lens⟩

/-- Registers every path of `inner` under `name`. -/
def nested (t : PropertyTable D) (name : String) (outer : Lens D C) (inner : PropertyTable C) :
    PropertyTable D :=
  (inner.accessors.map (Accessor.under name outer)).foldl register t

def get? (t : PropertyTable D) (path : String) : Option (Accessor D) :=
  t.accessors.find? (·.path = path)

def paths (t : PropertyTable D) : List String :=
  t.accessors.map (·.path)

/-- Looks a path up for the data type named `dataType`. -/
def require (t : PropertyTable D) (dataType path : String) :
    Except ConfigError (Accessor D) :=
  match t.get? path with
  | some a => .ok a
  | none => .error (.unknownProperty dataType path)

theorem path_of_get? {t : PropertyTable D} {path : String} {a : Accessor D}
    (found : t.get? path = some a) : a.path = path := by
  simpa using List.find?_some found

theorem get?_register (t : PropertyTable D) (a : Accessor D) (path : String) :
    (t.register a).get? path = if path = a.path then some a else t.get? path := by
  unfold get? register
  rw [List.find?_append]
  split
  next same =>
    subst same
    rw [List.find?_eq_none.2 (by simp)]
    simp
  next other =>
    rw [List.find?_filter]
    have kept : (fun b : Accessor D => decide (decide (b.path ≠ a.path) = true ∧
        decide (b.path = path) = true)) = fun b => decide (b.path = path) := by
      funext b
      by_cases same : b.path = path
      · simp [same, other]
      · simp [same]
    rw [kept]
    simp [Ne.symm other]

end PropertyTable

end Sagas
