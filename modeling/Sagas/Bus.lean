import Sagas.Coordinator
import Sagas.Registry

/-!
# The message bus

A message goes through stages, each of which wraps those behind it; as a rule, coordination comes
first and dispatch to the handlers second. Handlers may send further messages, which are then
processed completely before the handler goes on.
-/

namespace Sagas

/-- One stage of processing, given how handlers send and what comes after it. -/
abbrev Stage (D B : Type) := Send B → Continuation D B → Continuation D B

namespace Stage

variable {D B : Type}

/-- Runs handlers in order, up to the first that fails. -/
def dispatchAll (send : Send B) (context : Context) :
    List (Invocation D B) → Program B (List (Invocation D B) × Except SagaError Unit)
  | [] => return ([], .ok ())
  | i :: rest =>
    if i.skipped then do
      Program.log (.handlerSkipped i.name)
      let (rest, answer) ← dispatchAll send context rest
      return (i :: rest, answer)
    else do
      let (i, answer) ← i.invoke send context
      match answer with
      | .error e => return (i :: rest, .error (.handler e))
      | .ok () =>
        let (rest, answer) ← dispatchAll send context rest
        return (i :: rest, answer)

/-- Runs every handler that was not skipped, then what comes after. -/
def dispatch : Stage D B := fun send next m => do
  let (invocations, answer) ← dispatchAll send m.context m.invocations
  let m := { m with invocations }
  match answer with
  | .error e => return (m, .error e)
  | .ok () => next m

/-- Finds, creates and writes the saga instances of a message. -/
def coordinator (settings : Settings) (locking : Bool) (onMiss : MissHandler D B) : Stage D B :=
  fun send next m => m.coordinate settings locking onMiss send next

/-- Runs stages, each around the rest. -/
def chain : List (Stage D B) → Send B → Continuation D B
  | [], _ => fun m => return (m, .ok ())
  | stage :: rest, send => stage send (chain rest send)

end Stage

structure Bus (D B : Type) where
  stages : List (Stage D B)
  registry : Registry D B
  /-- How deep messages sent by handlers may nest. -/
  nesting : Nat

namespace Bus

variable {D B : Type}

/-- Coordination, then dispatch. -/
def standard (settings : Settings) (locking : Bool) (onMiss : MissHandler D B)
    (registry : Registry D B) (nesting : Nat) : Bus D B :=
  ⟨[Stage.coordinator settings locking onMiss, Stage.dispatch], registry, nesting⟩

/-- A message under a token of its own, with fresh invocations. -/
def incoming (bus : Bus D B) (delivery : Delivery B) : Incoming D B :=
  ⟨delivery.message, delivery.context, .fixed delivery.cancelled,
    bus.registry.invocations delivery.message true⟩

/-- A message under the pool's token; what happens to its instances is not noted. -/
def incomingPooled (bus : Bus D B) (delivery : Delivery B) : Incoming D B :=
  ⟨delivery.message, delivery.context, .pool, bus.registry.invocations delivery.message false⟩

/-- Runs the stages on a message; the messages that its handlers send are left as requests. -/
def runStages (bus : Bus D B) (m : Incoming D B) : Program B (Processed D B) := do
  let (m, answer) ← Stage.chain bus.stages .request m
  match answer with
  | .error e => Program.log (.processingFailed m.context.id m.message.type e)
  | .ok () => pure ()
  return (m, answer)

/-- How a handler sends if sending may nest `depth` more times; too deep, the task dies. -/
def sendAt (bus : Bus D B) : Nat → Send B
  | 0 => fun _ => .panic
  | depth + 1 => fun delivery => do
    let (_, answer) ← (bus.sendAt depth).inline (bus.runStages (bus.incoming delivery))
    return answer

/-- Processes a message completely. -/
def process (bus : Bus D B) (delivery : Delivery B) : Program B (Processed D B) :=
  (bus.sendAt bus.nesting).inline (bus.runStages (bus.incoming delivery))

/-- Processes a message of a worker pool. -/
def processPooled (bus : Bus D B) (delivery : Delivery B) : Program B (Except SagaError Unit) := do
  let (_, answer) ← (bus.sendAt bus.nesting).inline (bus.runStages (bus.incomingPooled delivery))
  return answer

end Bus

end Sagas
