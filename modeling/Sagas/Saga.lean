import Sagas.Program

/-!
# Sagas and handlers

A saga is a long-lived handler whose data survives across messages. Its author says what the data
is, which messages may start an instance, how messages correlate to instances, how a message is
handled, and possibly how an instance that lost a write is merged with the stored one.
-/

namespace Sagas

/-- An instance as its handler sees it. -/
structure Instance (D : Type) where
  data : D
  /-- Whether it was created for the message at hand. -/
  isNew : Bool
  completed : Bool
  unchanged : Bool

def Instance.ofData {D : Type} (data : D) (isNew : Bool) : Instance D :=
  ⟨data, isNew, false, false⟩

/-- What a handler leaves of its instance, whether it succeeds or not. -/
structure Verdict (D : Type) where
  data : D
  /-- The instance is to be deleted. -/
  completes : Bool
  /-- The instance is not to be written, whatever was changed. -/
  keeps : Bool
  outcome : Except String Unit

structure Saga (D B : Type) where
  name : String
  dataType : DataType D
  /-- The message types that may start an instance. -/
  initiators : List String
  /-- Without it a write conflict fails the message at once. -/
  resolvesConflicts : Bool
  rules : List (RuleDraft B)
  handle : Message B → Context → Instance D → Act B (Verdict D)
  /-- Merges the stored data, given last, into the data that lost a write. -/
  resolve : Message B → D → D → Act B (D × Except String Unit)

namespace Saga

variable {D B : Type}

def type (s : Saga D B) : SagaType B :=
  ⟨s.name, s.dataType.name, s.initiators, (Correlator.start s.name s.dataType).declare s.rules⟩

def isInitiatedBy (s : Saga D B) (messageType : String) : Bool :=
  s.initiators.contains messageType

/-- Whether a message or one of its families may start an instance. -/
def isStartedBy (s : Saga D B) (m : Message B) : Bool :=
  m.hierarchy.any s.isInitiatedBy

/-- How conflicts are resolved where the author does not say. -/
def refuseToResolve (name : String) : Message B → D → D → Act B (D × Except String Unit) :=
  fun _ own _ => .done (own, .error ("saga '" ++ name ++ "' does not resolve conflicts"))

end Saga

/-- What messages are routed to. -/
inductive Handler (D B : Type) where
  | saga (s : Saga D B)
  | plain (name : String) (run : Message B → Context → Act B (Except String Unit))

namespace Handler

variable {D B : Type}

def name : Handler D B → String
  | .saga s => s.name
  | .plain name _ => name

def saga? : Handler D B → Option (Saga D B)
  | .saga s => some s
  | .plain .. => none

end Handler

end Sagas
