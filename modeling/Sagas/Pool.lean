import Sagas.Bus

/-!
# The worker pool

A pool processes a batch of messages, at most a given number of them at once. Every message is a
task that waits for a permit, runs, and finishes with a result. A task that finds the pool shut
down while it waits finishes with `shutdown`; one that dies gives its permit back and finishes with
`worker`. Tasks advance request by request, in any order.
-/

namespace Sagas

inductive Task (D B : Type) where
  | waiting (delivery : Delivery B)
  | running (program : Program B (Except SagaError Unit))
  | finished (result : Except SagaError Unit)

namespace Task

variable {D B : Type}

def isRunning : Task D B → Bool
  | .running _ => true
  | _ => false

def result? : Task D B → Option (Except SagaError Unit)
  | .finished result => some result
  | _ => none

/-- A task whose program has come to its end is finished. -/
def settle : Program B (Except SagaError Unit) → Task D B
  | .done result => .finished result
  | .panic => .finished (.error (.worker "task panicked"))
  | p => .running p

end Task

/-- The tasks of one batch over the state `σ` of their surroundings. -/
structure Pool (D B σ : Type) where
  bus : Bus D B
  /-- How many tasks may run at once. -/
  limit : Nat
  tasks : List (Task D B)
  state : σ

namespace Pool

variable {D B σ : Type}

def submit (bus : Bus D B) (maxParallelism : Nat) (batch : List (Delivery B)) (state : σ) :
    Pool D B σ :=
  ⟨bus, max 1 maxParallelism, batch.map .waiting, state⟩

def running (p : Pool D B σ) : Nat :=
  p.tasks.countP Task.isRunning

def setTask (p : Pool D B σ) (index : Nat) (task : Task D B) : Pool D B σ :=
  { p with tasks := p.tasks.set index task }

/-- Gives a waiting task a permit, if there is one and the pool is not shut down. -/
def grant (closed : σ → Bool) (index : Nat) (p : Pool D B σ) : Pool D B σ :=
  match p.tasks[index]? with
  | some (.waiting delivery) =>
    if closed p.state then p.setTask index (.finished (.error .shutdown))
    else if p.running < p.limit then
      p.setTask index (.settle (p.bus.processPooled delivery))
    else p
  | _ => p

/-- Answers the next request of a running task. -/
def advance (answer : Program.Answering B σ) (index : Nat) (p : Pool D B σ) : Pool D B σ :=
  match p.tasks[index]? with
  | some (.running program) =>
    let (program, state) := program.step answer p.state
    { p.setTask index (.settle program) with state }
  | _ => p

/-- Runs a running task to its end. -/
def finish (answer : Program.Answering B σ) (index : Nat) (p : Pool D B σ) : Pool D B σ :=
  match p.tasks[index]? with
  | some (.running program) =>
    let (result, state) := program.run answer p.state
    { p.setTask index (.finished (result.getD (.error (.worker "task panicked")))) with state }
  | _ => p

/-- Grants permits to and finishes the tasks one after the other. -/
def runInOrder (answer : Program.Answering B σ) (closed : σ → Bool) (p : Pool D B σ) :
    Pool D B σ :=
  (List.range p.tasks.length).foldl (fun p index => (p.grant closed index).finish answer index) p

/-- The results in the order of submission; `none` while a task is not finished. -/
def results (p : Pool D B σ) : List (Option (Except SagaError Unit)) :=
  p.tasks.map Task.result?

end Pool

end Sagas
