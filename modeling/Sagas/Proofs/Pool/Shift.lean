import Mathlib.Logic.Hydra
import Sagas.Proofs.Course
import Sagas.Proofs.Pool.Steps

/-!
# A pool at work

Messages are submitted to a pool one by one, tasks take permits, have their requests answered and
give their permits back, and the pool may be shut down at any moment, all in any order. A pool is
shut down in two steps: its token fires, upon which a waiting task may give up, and then no permits
are given out any more. In between, a waiting task may do either. A task gives its permit back
when it ends, also when it dies.

Results:
1. `Turn.moved`: all that a turn of one message changes.
2. `Moved.balanced`: permits are neither lost nor made.
3. `Balanced.begins`, `Balanced.grant`: the pool grants what the permits allow.
4. `Account.moves`: how the account of a message goes on.
5. `moves_wellFounded`: a task moves finitely often.
-/

namespace Sagas

variable {D B σ : Type}

/-! ## Shutting down -/

/-- What of the surroundings tells whether a pool is shut down: whether its token has fired, and
whether it gives out no permits any more. -/
structure Gate (σ : Type) where
  cancelled : σ → Bool
  closed : σ → Bool
  cancelled_of_closed : ∀ s, closed s = true → cancelled s = true

namespace Gate

/-- From `s` to `t` no shutdown is undone. -/
structure Keeps (gate : Gate σ) (s t : σ) : Prop where
  cancelled : gate.cancelled s = true → gate.cancelled t = true
  closed : gate.closed s = true → gate.closed t = true

/-- An answer leads from `s` to `t`; if it is the answer to a shutdown, the pool is shut down. -/
structure Answers (gate : Gate σ) (request : Request B) (s t : σ) : Prop where
  keeps : gate.Keeps s t
  shuts : request = .shutdown → gate.closed t = true

def Serves (gate : Gate σ) (answer : Program.Answering B σ) : Prop :=
  ∀ request s, gate.Answers request s (answer request s).2

end Gate

/-! ## Happenings -/

namespace Shift

/-- What happens to one message. -/
inductive Event (B : Type) where
  /-- It learns that the pool is shut down. -/
  | refused
  /-- It takes a permit. -/
  | began
  /-- A request of its task is answered. -/
  | asked (exchange : Exchange B)

/-- What happens to a pool. Messages are numbered in the order of their submission. -/
inductive Happening (B : Type) where
  | submitted (delivery : Delivery B)
  | message (index : Nat) (event : Event B)
  /-- A shutdown from outside has returned. -/
  | shut
  /-- The surroundings change for another reason. -/
  | elsewhere

/-- A shutdown of the pool has returned, to a handler or outside. -/
inductive Happening.Shuts : Happening B → Prop
  | handler (index : Nat) (reply : Unit) : Shuts (.message index (.asked ⟨.shutdown, reply⟩))
  | outside : Shuts .shut

/-- What has happened to the message at an index, the latest first. -/
def story (index : Nat) (log : List (Happening B)) : List (Event B) :=
  log.filterMap fun
    | .message j event => if j = index then some event else none
    | _ => none

/-- The messages that were submitted, in order. -/
def submissions (log : List (Happening B)) : List (Delivery B) :=
  (log.filterMap fun
    | .submitted delivery => some delivery
    | _ => none).reverse

end Shift

/-! ## Turns -/

/-- A pool, and how many permits nobody holds. -/
structure Shift (D B σ : Type) where
  pool : Pool D B σ
  free : Nat

/-- One more message, which waits for a permit. -/
def Pool.enqueue (p : Pool D B σ) (delivery : Delivery B) : Pool D B σ :=
  { p with tasks := p.tasks ++ [.waiting delivery] }

namespace Task

/-- How many permits a task holds. -/
def permits (t : Task D B) : Nat := if t.isRunning then 1 else 0

/-- How many permits a task that had one has given back. -/
def returned (t : Task D B) : Nat := if t.isRunning then 0 else 1

theorem add_returned_add_permits (t : Task D B) (free : Nat) :
    free + t.returned + t.permits = free + 1 := by
  cases t <;> rfl

end Task

namespace Shift

/-- A pool before anything has happened; all permits are free. -/
def start (bus : Bus D B) (maxParallelism : Nat) (batch : List (Delivery B)) (state : σ) :
    Shift D B σ :=
  ⟨.submit bus maxParallelism batch state, max 1 maxParallelism⟩

/-- One thing happens. -/
inductive Turn (gate : Gate σ) : Shift D B σ → Happening B → Shift D B σ → Prop
  | submit (p : Pool D B σ) (free : Nat) (delivery : Delivery B) :
      Turn gate ⟨p, free⟩ (.submitted delivery) ⟨p.enqueue delivery, free⟩
  /-- A task that waits learns that the token has fired. -/
  | refuse {p : Pool D B σ} {free index : Nat} {delivery : Delivery B} :
      p.tasks[index]? = some (.waiting delivery) → gate.cancelled p.state = true →
      Turn gate ⟨p, free⟩ (.message index .refused) ⟨p.grant gate.cancelled index, free⟩
  /-- A task that waits takes a free permit, and gives it back if it comes to its end at once. -/
  | permit {p : Pool D B σ} {free index : Nat} {delivery : Delivery B} :
      p.tasks[index]? = some (.waiting delivery) → gate.closed p.state = false →
      Turn gate ⟨p, free + 1⟩ (.message index .began) ⟨p.grant gate.closed index,
        free + (Task.settle (p.bus.processPooled delivery) : Task D B).returned⟩
  /-- A task that runs is answered, and gives its permit back if it comes to its end or dies. -/
  | ask {p : Pool D B σ} {free index : Nat} {request : Request B}
      {rest : Reply request → Program B (Except SagaError Unit)}
      (answer : Program.Answering B σ) :
      p.tasks[index]? = some (.running (.ask request rest)) →
      gate.Answers request p.state (answer request p.state).2 →
      Turn gate ⟨p, free⟩ (.message index (.asked ⟨request, (answer request p.state).1⟩))
        ⟨p.advance answer index,
          free + (Task.settle (rest (answer request p.state).1) : Task D B).returned⟩
  | shut (p : Pool D B σ) (free : Nat) {state : σ} :
      gate.Keeps p.state state → gate.closed state = true →
      Turn gate ⟨p, free⟩ .shut ⟨{ p with state }, free⟩
  | elsewhere (p : Pool D B σ) (free : Nat) {state : σ} :
      gate.Keeps p.state state → Turn gate ⟨p, free⟩ .elsewhere ⟨{ p with state }, free⟩

/-- The states of a pool with the log of what has happened, the latest first. -/
inductive Run (gate : Gate σ) (first : Shift D B σ) : Shift D B σ → List (Happening B) → Prop
  | start : Run gate first first []
  | turn {s t : Shift D B σ} {log : List (Happening B)} {happening : Happening B} :
      Run gate first s log → Turn gate s happening t → Run gate first t (happening :: log)

end Shift

/-! ## Moves of one task -/

namespace Task

/-- A task becomes another one by an event. -/
inductive Moves (bus : Bus D B) : Task D B → Shift.Event B → Task D B → Prop
  | refused (delivery : Delivery B) :
      Moves bus (.waiting delivery) .refused (.finished (.error .shutdown))
  | began (delivery : Delivery B) :
      Moves bus (.waiting delivery) .began (.settle (bus.processPooled delivery))
  | asked {request : Request B} (rest : Reply request → Program B (Except SagaError Unit))
      (reply : Reply request) :
      Moves bus (.running (.ask request rest)) (.asked ⟨request, reply⟩) (.settle (rest reply))

/-- A task moves finitely often. -/
theorem moves_wellFounded (bus : Bus D B) :
    WellFounded fun new old : Task D B => ∃ event, old.Moves bus event new := by
  have finished (result) : Acc (fun new old => ∃ event, old.Moves bus event new)
      (.finished result : Task D B) := by
    refine ⟨_, ?_⟩
    rintro new ⟨event, moves⟩
    cases moves
  have settled (program) : Acc (fun new old => ∃ event, old.Moves bus event new)
      (.settle program : Task D B) := by
    induction program with
    | done result => exact finished _
    | panic => exact finished _
    | ask request rest ih =>
      refine ⟨_, ?_⟩
      rintro new ⟨event, moves⟩
      cases moves with
      | asked rest reply => exact ih reply
  refine ⟨fun task => ⟨_, ?_⟩⟩
  rintro new ⟨event, moves⟩
  cases moves with
  | refused delivery => exact finished _
  | began delivery => exact settled _
  | asked rest reply => exact settled _

end Task

/-! ## What a turn changes -/

namespace Pool

variable {p : Pool D B σ} {index : Nat} {old : Task D B}

theorem running_setTask (place : p.tasks[index]? = some old) (new : Task D B) :
    (p.setTask index new).running + old.permits = p.running + new.permits := by
  obtain ⟨inRange, rfl⟩ := List.getElem?_eq_some_iff.1 place
  have counted := List.boole_getElem_le_countP (p := Task.isRunning) (l := p.tasks) inRange
  simp only [running, setTask, List.countP_set inRange, Task.permits] at counted ⊢
  omega

end Pool

namespace Shift

variable {gate : Gate σ} {s t : Shift D B σ} {index : Nat} {event : Event B}
  {old new : Task D B}

/-- Every permit is free or held by a task that runs. -/
def Balanced (s : Shift D B σ) : Prop := s.free + s.pool.running = s.pool.limit

/-- From `s` to `t` one task moves by an event, and no other. -/
structure Moved (s : Shift D B σ) (index : Nat) (event : Event B) (old new : Task D B)
    (t : Shift D B σ) : Prop where
  place : s.pool.tasks[index]? = some old
  moves : old.Moves s.pool.bus event new
  pool : t.pool = { s.pool.setTask index new with state := t.pool.state }
  permits : t.free + new.permits = s.free + old.permits

/-- If no permits are lost, a free permit lets a task begin. -/
theorem Turn.moved (turn : Turn gate s (.message index event) t) (balanced : s.Balanced) :
    ∃ old new, Moved s index event old new t := by
  cases turn with
  | refuse waiting cancelled =>
    refine ⟨_, _, waiting, .refused _, ?_, rfl⟩
    rw [Pool.grant_of_closed waiting cancelled]
  | @permit p free _ delivery waiting working =>
    -- The pool counts tasks that run, not permits; where a permit is free, it finds room.
    have balance : free + 1 + p.running = p.limit := balanced
    have room : p.running < p.limit := by omega
    refine ⟨_, _, waiting, .began delivery, ?_, ?_⟩
    · rw [Pool.grant_of_room waiting working room]
    · exact Task.add_returned_add_permits _ free
  | @ask p free _ request rest answer asks =>
    refine ⟨_, _, asks, .asked rest _, ?_, ?_⟩
    · rw [Pool.advance_of_ask asks]
    · exact Task.add_returned_add_permits _ free

namespace Moved

variable (moved : Moved s index event old new t)

include moved

theorem getElem?_tasks (j : Nat) :
    t.pool.tasks[j]? = if j = index then some new else s.pool.tasks[j]? := by
  rw [moved.pool]
  exact Pool.getElem?_setTask (by simp [moved.place])

/-- Permits are neither lost nor made, also not when a task dies. -/
theorem balanced (balanced : s.Balanced) : t.Balanced := by
  have running : t.pool.running + old.permits = s.pool.running + new.permits := by
    rw [moved.pool]
    exact Pool.running_setTask moved.place new
  have limit : t.pool.limit = s.pool.limit := by rw [moved.pool]; rfl
  have permits := moved.permits
  unfold Balanced at *
  omega

end Moved

theorem Balanced.submit (balanced : s.Balanced) (delivery : Delivery B) :
    Balanced ⟨s.pool.enqueue delivery, s.free⟩ := by
  simpa [Balanced, Pool.enqueue, Pool.running, Task.isRunning] using balanced

/-- Where the pool has room, a permit is free. -/
theorem Balanced.begins {delivery : Delivery B} (balanced : s.Balanced)
    (waiting : s.pool.tasks[index]? = some (.waiting delivery))
    (working : gate.closed s.pool.state = false) (room : s.pool.running < s.pool.limit) :
    ∃ free, Turn gate s (.message index .began) ⟨s.pool.grant gate.closed index, free⟩ := by
  obtain ⟨p, free⟩ := s
  have balance : free + p.running = p.limit := balanced
  have room : p.running < p.limit := room
  obtain ⟨more, rfl⟩ : ∃ more, free = more + 1 := ⟨free - 1, by omega⟩
  exact ⟨_, .permit waiting working⟩

/-- Whatever the pool does with a message that waits is a turn, or nothing. -/
theorem Balanced.grant (balanced : s.Balanced) (gate : Gate σ) (index : Nat) :
    s.pool.grant gate.closed index = s.pool ∨ ∃ event free,
      Turn gate s (.message index event) ⟨s.pool.grant gate.closed index, free⟩ := by
  by_cases waits : ∃ delivery, s.pool.tasks[index]? = some (.waiting delivery)
  · obtain ⟨delivery, waiting⟩ := waits
    cases closed : gate.closed s.pool.state with
    | true =>
      have cancelled := gate.cancelled_of_closed _ closed
      rw [Pool.grant_of_closed waiting closed, ← Pool.grant_of_closed waiting cancelled]
      exact .inr ⟨_, _, .refuse waiting cancelled⟩
    | false =>
      by_cases room : s.pool.running < s.pool.limit
      · obtain ⟨free, turn⟩ := balanced.begins waiting closed room
        exact .inr ⟨_, free, turn⟩
      · exact .inl (Pool.grant_of_full waiting closed room)
  · exact .inl (Pool.grant_of_begun (not_exists.1 waits))

/-! ## The account of a message -/

/-- How far a message has come, with all that has happened to it, the latest first. -/
inductive Account (bus : Bus D B) (delivery : Delivery B) : Task D B → List (Event B) → Prop
  | waiting : Account bus delivery (.waiting delivery) []
  | refused : Account bus delivery (.finished (.error .shutdown)) [.refused]
  | running {past : List (Exchange B)} {request : Request B}
      {rest : Reply request → Program B (Except SagaError Unit)} :
      Party.Reached (bus.processPooled delivery) ⟨past, .ask request rest⟩ →
      Account bus delivery (.running (.ask request rest)) (past.map .asked ++ [.began])
  | returned {past : List (Exchange B)} {result : Except SagaError Unit} :
      (bus.processPooled delivery).Returns past result →
      Account bus delivery (.finished result) (past.map .asked ++ [.began])
  | died {past : List (Exchange B)} :
      Party.Reached (bus.processPooled delivery) ⟨past, .panic⟩ →
      Account bus delivery (.finished Task.died) (past.map .asked ++ [.began])

variable {bus : Bus D B} {delivery : Delivery B}

theorem Account.settle {past : List (Exchange B)} {program : Program B (Except SagaError Unit)}
    (reached : Party.Reached (bus.processPooled delivery) ⟨past, program⟩) :
    Account bus delivery (.settle program) (past.map .asked ++ [.began]) := by
  cases program with
  | done result =>
    have returns : (bus.processPooled delivery).Returns ([] ++ past) result :=
      Program.Returns.whole (.done result) reached
    exact .returned returns
  | ask request rest => exact .running reached
  | panic => exact .died reached

theorem Account.moves {events : List (Event B)} (account : Account bus delivery old events)
    (moves : old.Moves bus event new) : Account bus delivery new (event :: events) := by
  cases moves with
  | refused => cases account; exact .refused
  | began => cases account; exact .settle .start
  | asked rest reply =>
    cases account with
    | running reached => exact .settle (reached.step reply)

/-! ## The log -/

variable {log : List (Happening B)} {happening : Happening B}

theorem story_message (j : Nat) : story j (.message index event :: log) =
    if index = j then event :: story j log else story j log := by
  simp only [story, List.filterMap_cons]
  split <;> simp_all

theorem story_other (j : Nat) (other : ∀ index event, happening ≠ .message index event) :
    story j (happening :: log) = story j log := by
  cases happening with
  | message index event => exact absurd rfl (other index event)
  | _ => rfl

theorem submissions_submitted :
    submissions (.submitted delivery :: log) = submissions log ++ [delivery] := by
  simp [submissions]

theorem submissions_other (other : ∀ delivery, happening ≠ .submitted delivery) :
    submissions (happening :: log) = submissions log := by
  cases happening with
  | submitted delivery => exact absurd rfl (other delivery)
  | _ => rfl

end Shift

end Sagas
