import Sagas.Demo.Rig
import Sagas.Demo.Slot
import Sagas.Pool

/-!
# Scenarios

A whole bus over the demonstration sagas in a rig: stages that wrap the rest in some way, messages
sent one by one, and batches given to a worker pool.
-/

namespace Sagas.Demo

/-- The stages of a scenario. -/
inductive StageName where
  | coordinator
  | dispatch
  | custom (name : String)
  deriving DecidableEq

def StageName.ofName : String → StageName
  | "coordinator" => .coordinator
  | "dispatch" => .dispatch
  | name => .custom name

def missHandlerOfName? : String → Option (MissHandler Record Script)
  | "skip" => some .logAndSkip
  | "fail" => some .failOnMissing
  | "create" => some (.always (.create []))
  | "ignore" => some (.always .goOn)
  | _ => none

structure Config where
  settings : Settings
  locking : Bool
  onMiss : MissHandler Record Script
  stages : List StageName
  registry : Registry Record Script

namespace Config

def skipAll : List (Invocation Record Script) → Program Script (List (Invocation Record Script))
  | [] => return []
  | i :: rest => do
    let i ← i.skip
    return i :: (← skipAll rest)

/-- What a custom stage does around the rest, by its name. -/
def act (name : String) (next : Continuation Record Script) : Continuation Record Script :=
  fun m =>
    match name with
    | "stop" => return (m, .ok ())
    | "fail" => return (m, .error .shutdown)
    | "skip_all" => do
      let invocations ← skipAll m.invocations
      next { m with invocations }
    | "twice" => Incoming.inTurn [next, next] m
    | "swallow" => do
      let (m, _) ← next m
      return (m, .ok ())
    | _ => next m

/-- A custom stage notes when it is entered and when it is left. -/
def custom (name : String) : Stage Record Script := fun _ next m => do
  Program.note (.stage name true)
  let processed ← act name next m
  Program.note (.stage name false)
  return processed

def stage (c : Config) : StageName → Stage Record Script
  | .coordinator => Stage.coordinator c.settings c.locking c.onMiss
  | .dispatch => Stage.dispatch
  | .custom name => custom name

/-- Scripts nest no deeper than the text they are written in. -/
def nestingLimit : Nat := 128

def bus (c : Config) : Bus Record Script :=
  ⟨c.stages.map c.stage, c.registry, nestingLimit⟩

/-- Sends a message, whose resolutions are its own. -/
def send (c : Config) (d : Delivery Script) (r : Rig) :
    Option (Processed Record Script) × Rig :=
  let (scope, world) := r.world.draw scopeSequence
  { r with world }.run (c.bus.process (inScope d scope))

/-- The resolutions of all messages of a batch, saga by saga. -/
def batchResolving (batch : List (Delivery Script)) : List (String × List Actions) :=
  let all := batch.flatMap (·.message.body.resolving)
  (all.map (·.1)).eraseDups.map fun slot =>
    (slot, (all.filter (·.1 = slot)).flatMap (·.2))

/-- Gives a batch to the worker pool; its messages share their resolutions. -/
def processAll (c : Config) (batch : List (Delivery Script)) (r : Rig) :
    List (Except SagaError Unit) × Rig :=
  let (scope, world) := r.world.draw scopeSequence
  let resolving := batchResolving batch
  let batch := batch.map fun d =>
    withScript d (d.message.body.withResolving scope resolving)
  let pool := (Pool.submit c.bus c.settings.maxParallelism batch { r with world }).runInOrder
    Rig.answer (·.world.closed)
  let results := pool.results.filterMap id
  let world := results.foldl (fun world result =>
    match result with
    | .error (.worker reason) => world.record (.log (.taskFailed reason))
    | _ => world) pool.state.world
  (results, { pool.state with world })

end Config

end Sagas.Demo
