import Sagas.Saga

/-!
# Invocations

One handler bound to the message at hand. The invocation of a saga carries the instance that was
found or created for it; everything that can be asked of it in terms of documents fails while no
instance is bound, and always fails for a plain handler.
-/

namespace Sagas

structure Invocation (D B : Type) where
  handler : Handler D B
  message : Message B
  bound : Option (Instance D)
  skipped : Bool
  /-- Whether what happens to the instance is noted in the journal. -/
  journaled : Bool

namespace Invocation

variable {D B : Type}

def start (handler : Handler D B) (message : Message B) (journaled : Bool) : Invocation D B :=
  ⟨handler, message, none, false, journaled⟩

def name (i : Invocation D B) : String :=
  i.handler.name

def saga? (i : Invocation D B) : Option (Saga D B) :=
  i.handler.saga?

def noSagaData (i : Invocation D B) : InvokeError :=
  .noSagaData i.name

/-- The saga together with the instance bound to it. -/
def instance? (i : Invocation D B) : Option (Saga D B × Instance D) :=
  match i.handler, i.bound with
  | .saga s, some inst => some (s, inst)
  | _, _ => none

def id? (i : Invocation D B) : Option Uuid :=
  i.instance?.map fun (s, inst) => s.dataType.id inst.data

def document? (i : Invocation D B) : Option Document :=
  i.instance?.map fun (s, inst) => s.dataType.toDocument inst.data

def isNew (i : Invocation D B) : Bool :=
  i.bound.any (·.isNew)

def isCompleted (i : Invocation D B) : Bool :=
  i.bound.any (·.completed)

def isUnchanged (i : Invocation D B) : Bool :=
  i.bound.any (·.unchanged)

def resolvesConflicts (i : Invocation D B) : Bool :=
  i.saga?.any (·.resolvesConflicts)

def isInitiatedBy (i : Invocation D B) (messageType : String) : Bool :=
  i.saga?.any (·.isInitiatedBy messageType)

def note (i : Invocation D B) (entry : Entry) : Program B Unit :=
  if i.journaled then Program.note entry else pure ()

/-- Keeps the handler from running for this message. -/
def skip (i : Invocation D B) : Program B (Invocation D B) := do
  i.note (.skipped i.name)
  return { i with skipped := true }

/-! ## Binding an instance -/

/-- Puts values into data one after the other, passing over unknown paths and unfit values. -/
def assignAll (table : PropertyTable D) (sagaType : String) :
    List PropertyValue → D → Program B D
  | [], d => return d
  | p :: rest, d =>
    match table.get? p.name with
    | none => assignAll table sagaType rest d
    | some accessor =>
      match accessor.assign? p.value d with
      | some assigned => assignAll table sagaType rest assigned
      | none => do
        Program.log (.notAssignable sagaType p.name p.value)
        assignAll table sagaType rest d

/-- Binds a new instance with a fresh identifier and the given values. -/
def create (i : Invocation D B) (initial : List PropertyValue) :
    Program B (Invocation D B × Except InvokeError Uuid) :=
  match i.handler with
  | .plain .. => return (i, .error i.noSagaData)
  | .saga s => do
    let fresh ← Program.call .freshId
    let blank := s.dataType.metadata.set s.dataType.blank ⟨fresh, .initial⟩
    let data ← assignAll s.dataType.table s.name initial blank
    let id := s.dataType.id data
    i.note (.created i.name id initial)
    return ({ i with bound := some (.ofData data true) }, .ok id)

/-- The data that a document of the saga's own data type holds. -/
def read (s : Saga D B) (document : Document) : Except InvokeError D :=
  if document.dataType = s.dataType.name then
    (s.dataType.ofDocument document).mapError .serialization
  else .error (.wrongDataType s.dataType.name document.dataType)

/-- Binds the instance that a document holds. -/
def bind (i : Invocation D B) (document : Document) (isNew : Bool) :
    Except InvokeError (Invocation D B) :=
  match i.handler with
  | .plain .. => .error i.noSagaData
  | .saga s => (read s document).map fun data => { i with bound := some (.ofData data isNew) }

/-- Binds a stored instance, leaving the invocation as it is if that fails. -/
def load (i : Invocation D B) (document : Document) (isNew : Bool) :
    Program B (Invocation D B × Except InvokeError Unit) := do
  match i.bind document isNew with
  | .ok bound =>
    i.note (.loaded i.name document.id document.revision (.ok ()))
    return (bound, .ok ())
  | .error e =>
    i.note (.loaded i.name document.id document.revision (.error e))
    return (i, .error e)

/-- Records the identity and the revision that storage gave; the instance is no longer new. -/
def adopt (i : Invocation D B) (m : Metadata) : Invocation D B :=
  match i.handler, i.bound with
  | .saga s, some inst =>
    { i with
      bound := some { inst with data := s.dataType.metadata.set inst.data m, isNew := false } }
  | _, _ => i

/-! ## Current values -/

/-- The current value of every path that the rules name for this data type, each path once. -/
def valuesOf (s : Saga D B) (data : D) (rules : List (Rule B)) : List PropertyValue :=
  (RuleSet.distinctPaths [] (rules.filter (·.dataType = s.dataType.name))).filterMap fun r =>
    (s.dataType.table.get? r.property).map fun accessor => ⟨accessor.path, accessor.value data⟩

def values (i : Invocation D B) (rules : List (Rule B)) : Except InvokeError (List PropertyValue) :=
  match i.instance? with
  | some (s, inst) => .ok (valuesOf s inst.data rules)
  | none => .error i.noSagaData

/-! ## Running application code -/

/-- Runs the handler unless it is skipped. -/
def invoke (send : Send B) (context : Context) (i : Invocation D B) :
    Program B (Invocation D B × Except InvokeError Unit) :=
  if i.skipped then return (i, .ok ())
  else
    match i.handler with
    | .plain name run => do
      let outcome ← (run i.message context).program send
      return (i, outcome.mapError (.handler name))
    | .saga s =>
      match i.bound with
      | none => return (i, .error i.noSagaData)
      | some inst => do
        let verdict ← (s.handle i.message context inst).program send
        let inst : Instance D := ⟨verdict.data, inst.isNew, inst.completed || verdict.completes,
          inst.unchanged || verdict.keeps⟩
        return ({ i with bound := some inst }, verdict.outcome.mapError (.handler s.name))

/-- Merges the stored state into the instance and adopts its identity and revision. -/
def merge (send : Send B) (i : Invocation D B) (fresh : Document) :
    Program B (Invocation D B × Except InvokeError Unit) :=
  match i.handler with
  | .plain .. => return (i, .error i.noSagaData)
  | .saga s =>
    match read s fresh with
    | .error e => return (i, .error e)
    | .ok stored =>
      match i.bound with
      | none => return (i, .error i.noSagaData)
      | some inst => do
        let (data, outcome) ← (s.resolve i.message inst.data stored).program send
        let merged := { i with bound := some { inst with data } }
        match outcome with
        | .ok () => return (merged.adopt fresh.metadata, .ok ())
        | .error reason => return (merged, .error (.handler s.name reason))

/-- Resolves a conflict with the stored state. -/
def resolve (send : Send B) (i : Invocation D B) (fresh : Document) :
    Program B (Invocation D B × Except InvokeError Unit) := do
  let (merged, answer) ← i.merge send fresh
  i.note (.resolved i.name fresh.id fresh.revision answer)
  return (merged, answer)

end Invocation

end Sagas
