import Sagas.Document
import Sagas.Message

/-!
# Correlation rules

A rule says which value of a message is matched against which property of a saga's data. What a
message yields for a rule is nothing, a value that does not convert to the property's kind, or a
value of exactly that kind.
-/

namespace Sagas

/-- How a value is taken from a message in its context. -/
abbrev Extractor (B : Type) := Context → Message B → Option Scalar

/-- A rule as a saga declares it, before it is checked against the saga's data. -/
structure RuleDraft (B : Type) where
  messageType : String
  property : String
  /-- The kind of the values that `extract` yields. -/
  kind : Kind
  extract : Extractor B

namespace RuleDraft

variable {B : Type}

/-- By a value of the body; a message of another type yields nothing. -/
def body (messageType property : String) (kind : Kind) (value : B → Option Scalar) :
    RuleDraft B :=
  ⟨messageType, property, kind, fun _ m => if m.type = messageType then value m.body else none⟩

/-- By the value of one header. -/
def header (messageType property name : String) : RuleDraft B :=
  ⟨messageType, property, .string, fun c _ => (c.header? name).map .string⟩

/-- By a value of the whole context. -/
def context (messageType property : String) (kind : Kind) (value : Context → Option Scalar) :
    RuleDraft B :=
  ⟨messageType, property, kind, fun c _ => value c⟩

/-- By a value of every message that counts as `family`. -/
def family (family property : String) (kind : Kind) (value : Message B → Option Scalar) :
    RuleDraft B :=
  ⟨family, property, kind, fun _ m => value m⟩

end RuleDraft

/-- An accepted rule; `kind` is the kind of the property. -/
structure Rule (B : Type) where
  messageType : String
  dataType : String
  property : String
  sagaType : String
  kind : Kind
  extract : Extractor B

/-- What a message yields for a rule. -/
inductive Reading where
  | absent
  | unusable (raw : Scalar)
  | usable (value : Scalar)
  deriving DecidableEq

def Reading.value? : Reading → Option Scalar
  | .usable value => some value
  | _ => none

namespace Rule

variable {B : Type}

def isIdentity (r : Rule B) : Bool :=
  r.property = identityPath

def reading (r : Rule B) (c : Context) (m : Message B) : Reading :=
  match r.extract c m with
  | none => .absent
  | some raw =>
    match raw.coerce r.kind with
    | none => .unusable raw
    | some value => .usable value

/-- The value to look up, already of the property's kind. -/
def value? (r : Rule B) (c : Context) (m : Message B) : Option Scalar :=
  (r.reading c m).value?

theorem value?_eq (r : Rule B) (c : Context) (m : Message B) :
    r.value? c m = (r.extract c m).bind (·.coerce r.kind) := by
  unfold value? reading
  cases r.extract c m with
  | none => rfl
  | some raw =>
    simp only [Option.bind_some]
    cases raw.coerce r.kind <;> rfl

theorem kind_of_value? {r : Rule B} {c : Context} {m : Message B} {v : Scalar}
    (yields : r.value? c m = some v) : v.kind = r.kind := by
  rw [value?_eq] at yields
  obtain ⟨raw, -, coerced⟩ := Option.bind_eq_some_iff.1 yields
  exact Scalar.kind_of_coerce coerced

end Rule

end Sagas
