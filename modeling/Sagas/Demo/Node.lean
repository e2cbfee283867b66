import Sagas.Document

/-!
# Nested demonstration data

A record that holds, down to a fixed depth, a record of the same shape, and tables over it built
from a description.
-/

namespace Sagas.Demo

structure Fields where
  id : Uuid
  flag : Bool
  small : Word .w16
  int : Word .w32
  big : Word .w64
  uid : Uuid
  text : String
  deriving DecidableEq

def Fields.blank : Fields :=
  ⟨.nil, false, .zero, .zero, .zero, .nil, ""⟩

/-- Fields with `depth` more of the same below them. -/
def Node : Nat → Type
  | 0 => Fields
  | depth + 1 => Fields × Node depth

namespace Node

def blank : (depth : Nat) → Node depth
  | 0 => Fields.blank
  | depth + 1 => (Fields.blank, blank depth)

def top : (depth : Nat) → Lens (Node depth) Fields
  | 0 => { get := id, set := fun _ fields => fields }
  | _ + 1 => Lens.first

end Node

/-- A field of a node. -/
inductive FieldName where
  | id
  | flag
  | small
  | int
  | big
  | uid
  | text
  deriving DecidableEq

namespace FieldName

def ofName? : String → Option FieldName
  | "id" => some .id
  | "flag" => some .flag
  | "small" => some .small
  | "int" => some .int
  | "big" => some .big
  | "uid" => some .uid
  | "text" => some .text
  | _ => none

def kind : FieldName → Kind
  | .id | .uid => .uuid
  | .flag => .bool
  | .small => .int .w16
  | .int => .int .w32
  | .big => .int .w64
  | .text => .string

def lens : (f : FieldName) → Lens Fields f.kind.Carrier
  | .id => { get := Fields.id, set := fun d id => { d with id } }
  | .flag => { get := Fields.flag, set := fun d flag => { d with flag } }
  | .small => { get := Fields.small, set := fun d small => { d with small } }
  | .int => { get := Fields.int, set := fun d int => { d with int } }
  | .big => { get := Fields.big, set := fun d big => { d with big } }
  | .uid => { get := Fields.uid, set := fun d uid => { d with uid } }
  | .text => { get := Fields.text, set := fun d text => { d with text } }

end FieldName

/-- One registration in the description of a table. -/
inductive Registering where
  | field (which : FieldName) (name : String)
  | nested (entries : List Registering) (name : String)

namespace Registering

/-- Applies registrations in order; below the last depth there is nothing to nest. -/
def apply : (depth : Nat) → PropertyTable (Node depth) → List Registering →
    PropertyTable (Node depth)
  | _, t, [] => t
  | depth, t, .field which name :: rest =>
    apply depth (t.field name which.kind ((Node.top depth).comp which.lens)) rest
  | 0, t, .nested _ _ :: rest => apply 0 t rest
  | depth + 1, t, .nested entries name :: rest =>
    apply (depth + 1) (t.nested name Lens.second (apply depth .empty entries)) rest

end Registering

/-- The identity of the outermost node. -/
def nodeIdentity (depth : Nat) : PropertyTable (Node depth) :=
  PropertyTable.empty.field identityPath .uuid ((Node.top depth).comp (FieldName.lens .id))

end Sagas.Demo
