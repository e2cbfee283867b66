import Sagas.Invocation

/-!
# Routing

Which handlers see which message: those registered for exactly its type, in the order of their
registration. Families do not count here.
-/

namespace Sagas

structure Registration (D B : Type) where
  messageType : String
  handler : Handler D B

structure Registry (D B : Type) where
  registrations : List (Registration D B)

namespace Registry

variable {D B : Type}

def empty : Registry D B := ⟨[]⟩

def add (r : Registry D B) (messageType : String) (handler : Handler D B) : Registry D B :=
  ⟨r.registrations ++ [⟨messageType, handler⟩]⟩

/-- The first saga of every name, in the order of registration. -/
def sagaTypes (r : Registry D B) : List (SagaType B) :=
  (r.registrations.filterMap (·.handler.saga?)).foldl
    (fun types s => if types.any (·.name = s.name) then types else types ++ [s.type]) []

/-- Fresh invocations of the handlers for a message. -/
def invocations (r : Registry D B) (m : Message B) (journaled : Bool) : List (Invocation D B) :=
  (r.registrations.filter (·.messageType = m.type)).map fun registration =>
    .start registration.handler m journaled

/-- Builds the rules of every saga, up to the first that fails. -/
def buildAll : List (SagaType B) → Program B (Except ConfigError Unit)
  | [] => return .ok ()
  | type :: rest => do
    match ← Program.call (.rules type) with
    | .error e => return .error e
    | .ok _ => buildAll rest

def registerAll (r : Registry D B) : Program B (Except ConfigError Unit) :=
  buildAll r.sagaTypes

end Registry

end Sagas
