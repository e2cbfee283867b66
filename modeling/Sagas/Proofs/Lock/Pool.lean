import Sagas.Demo.Tally
import Sagas.Proofs.Lock.Keyring
import Sagas.Proofs.Pool.Steps

/-!
# The locks of a worker pool

The tasks of a pool advance request by request in any order, some of them wait for a permit, and the
pool may be shut down on the way. A task gives back what it takes, together with the messages that
it sends, unless it dies in between: what it holds at that moment nobody gives back.

Results:
1. `Bus.keeps_processPooled`: a message of the pool, with all that it sends in place.
2. `Runs.sound`: every task on the way of its contract, in every run.
3. `runInOrder_runs`: tasks that are run to their end one after the other.
4. `only_dead_tasks_keep_keys`: what is still held once all tasks have finished.
-/

namespace Sagas

variable {D B σ : Type}

/-! ## Messages in place -/

namespace Bus

variable {settings : Settings} {locking : Bool} {onMiss : MissHandler D B} {registry : Registry D B}
  {nesting : Nat}

/-- However deep messages nest, the keys that are held below stay as they are. -/
theorem keeps_sendAt (depth : Nat) (delivery : Delivery B) (base : List String) :
    ((standard settings locking onMiss registry nesting).sendAt depth delivery).Keeps
      (keyring false) base fun _ own => own = base := by
  induction depth generalizing delivery base with
  | zero => exact rfl
  | succ depth ih =>
    have alone := Job.keeps_keyring ⟨settings, locking, onMiss, registry, delivery, false⟩ base
    refine (Program.Keeps.inline (fun inner own _ => ?_) alone).bind fun r own same => same
    exact (ih inner own).imp fun reply _ same => ⟨trivial, same⟩

theorem keeps_processPooled (delivery : Delivery B) :
    ((standard settings locking onMiss registry nesting).processPooled delivery).Keeps
      (keyring false) [] fun _ own => own = [] := by
  have alone := Job.keeps_keyring ⟨settings, locking, onMiss, registry, delivery, true⟩ []
  refine (Program.Keeps.inline (fun inner own _ => ?_) alone).bind fun r own same => same
  exact (keeps_sendAt nesting inner own).imp fun reply _ same => ⟨trivial, same⟩

end Bus

/-! ## Runs -/

namespace Task

/-- A task that holds these keys, on the way of its contract. If it has finished, it holds none or
has died. -/
def Kept (own : List String) : Task D B → Prop
  | .waiting _ => own = []
  | .running program => (∃ request rest, program = .ask request rest) ∧
      program.Keeps (keyring false) own fun _ own => own = []
  | .finished result => own = [] ∨ result = died

theorem kept_settle {own : List String} {program : Program B (Except SagaError Unit)}
    (keeps : program.Keeps (keyring false) own fun _ own => own = []) :
    (settle program : Task D B).Kept own := by
  cases program with
  | done result => exact .inl keeps
  | ask request rest => exact ⟨⟨request, rest, rfl⟩, keeps⟩
  | panic => exact .inr rfl

end Task

namespace Pool

/-- The states of a pool, with what each task has asked so far. Permits are granted and tasks
advance in any order; in between the surroundings may change, but for the keys that are held. -/
inductive Runs (closed : σ → Bool) (held : σ → List String) (first : Pool D B σ) :
    (Nat → List (Exchange B)) → Pool D B σ → Prop
  | start : Runs closed held first (fun _ => []) first
  | grant {past : Nat → List (Exchange B)} {p : Pool D B σ} (index : Nat) :
      Runs closed held first past p → Runs closed held first past (p.grant closed index)
  | advance {past : Nat → List (Exchange B)} {p : Pool D B σ} {index : Nat} {request : Request B}
      {rest : Reply request → Program B (Except SagaError Unit)}
      (answer : Program.Answering B σ) :
      Runs closed held first past p → p.tasks[index]? = some (.running (.ask request rest)) →
      Lock.Answers (held p.state) request (answer request p.state).1
        (held (answer request p.state).2) →
      Runs closed held first
        (fun j => if j = index then ⟨request, (answer request p.state).1⟩ :: past index
          else past j) (p.advance answer index)
  | elsewhere {past : Nat → List (Exchange B)} {p : Pool D B σ} (state : σ) :
      Runs closed held first past p → held state = held p.state →
      Runs closed held first past { p with state }

variable {closed : σ → Bool} {held : σ → List String} {first p : Pool D B σ}
  {past : Nat → List (Exchange B)}

/-- The keys of every task, and those that were held before. -/
def owners (held : σ → List String) (first : Pool D B σ) (past : Nat → List (Exchange B)) :
    Option Nat → List String
  | none => held first.state
  | some index => Lock.holding (past index)

/-- Every task is on the way of its contract, and every key that is held belongs to one of them or
was held before. -/
structure Sound (held : σ → List String) (first : Pool D B σ) (past : Nat → List (Exchange B))
    (p : Pool D B σ) : Prop where
  bus : p.bus = first.bus
  owned : Lock.Owned (held p.state) (owners held first past)
  kept : ∀ (index : Nat) (task : Task D B), p.tasks[index]? = some task →
    task.Kept (Lock.holding (past index))
  /-- There are no other tasks. -/
  unasked : ∀ index, p.tasks[index]? = none → past index = []

/-- One task becomes another one, by an answer of the lock or without. -/
theorem Sound.turn (sound : Sound held first past p) {index : Nat} {task : Task D B}
    {past' : Nat → List (Exchange B)} {state : σ} (there : p.tasks[index]? ≠ none)
    (owned : Lock.Owned (held state) (owners held first past'))
    (kept : task.Kept (Lock.holding (past' index)))
    (others : ∀ j, j ≠ index → past' j = past j) :
    Sound held first past' { p.setTask index task with state } := by
  refine ⟨sound.bus, owned, fun j other place => ?_, fun j gone => ?_⟩
  · have here : (p.setTask index task).tasks[j]? = some other := place
    rw [getElem?_setTask there] at here
    split at here
    next same =>
      cases here
      exact same ▸ kept
    next differs =>
      rw [others j differs]
      exact sound.kept j other here
  · have here : (p.setTask index task).tasks[j]? = none := gone
    rw [getElem?_setTask there] at here
    split at here
    next => cases here
    next differs =>
      rw [others j differs]
      exact sound.unasked j here

variable {settings : Settings} {locking : Bool} {onMiss : MissHandler D B} {registry : Registry D B}
  {nesting limit : Nat} {batch : List (Delivery B)} {state : σ}

theorem sound_submit (nodup : (held state).Nodup) :
    Sound held (submit (.standard settings locking onMiss registry nesting) limit batch state)
      (fun _ => []) (submit (.standard settings locking onMiss registry nesting) limit batch
        state) where
  bus := rfl
  owned := by
    refine ⟨nodup, fun k => ?_, fun j k differs key mine others => ?_, fun key => ?_⟩
    · cases k with
      | none => exact nodup
      | some index => exact .nil
    · cases j with
      | some index => cases mine
      | none =>
        cases k with
        | some index => cases others
        | none => exact differs rfl
    · refine ⟨fun before => ⟨none, before⟩, ?_⟩
      rintro ⟨_ | index, mine⟩
      · exact mine
      · cases mine
  kept index task place := by
    obtain ⟨delivery, -, rfl⟩ := List.mem_map.1 (List.mem_of_getElem? place)
    exact rfl
  unasked _ _ := rfl

theorem Sound.grant (sound : Sound held
      (submit (.standard settings locking onMiss registry nesting) limit batch state) past p)
    (index : Nat) :
    Sound held (submit (.standard settings locking onMiss registry nesting) limit batch state)
      past (p.grant closed index) := by
  unfold Pool.grant
  split
  next delivery waiting =>
    have there : p.tasks[index]? ≠ none := by simp [waiting]
    have unasked : Lock.holding (past index) = [] := sound.kept index _ waiting
    split
    next => exact sound.turn there sound.owned (.inl unasked) fun _ _ => rfl
    next =>
      split
      next =>
        refine sound.turn there sound.owned (Task.kept_settle ?_) fun _ _ => rfl
        rw [unasked, sound.bus]
        exact Bus.keeps_processPooled delivery
      next => exact sound
  next => exact sound

theorem Sound.advance (sound : Sound held first past p) {index : Nat} {request : Request B}
    {rest : Reply request → Program B (Except SagaError Unit)} (answer : Program.Answering B σ)
    (running : p.tasks[index]? = some (.running (.ask request rest)))
    (answers : Lock.Answers (held p.state) request (answer request p.state).1
      (held (answer request p.state).2)) :
    Sound held first
      (fun j => if j = index then ⟨request, (answer request p.state).1⟩ :: past index else past j)
      (p.advance answer index) := by
  have there : p.tasks[index]? ≠ none := by simp [running]
  obtain ⟨-, keeps⟩ := sound.kept index _ running
  have within : Lock.holding (past index) ⊆ held p.state := fun key mine =>
    (sound.owned.held_iff key).2 ⟨some index, mine⟩
  have latest : ∀ key, request = .release key → key ∈ Lock.holding (past index) := by
    rintro key rfl
    exact List.mem_of_mem_head? keeps.1
  unfold Pool.advance
  rw [running]
  refine sound.turn there ?_ (Task.kept_settle ?_) fun j other => if_neg other
  · refine sound.owned.turn (k := some index) answers latest ?_ fun j other => ?_
    · simp [owners, Lock.holding]
    · cases j with
      | none => rfl
      | some j =>
        have differs : j ≠ index := fun same => other (congrArg some same)
        simp [owners, differs]
  · simp only [if_pos]
    exact keeps.2 _ (expects_of_answers within answers)

theorem Runs.sound (nodup : (held state).Nodup)
    (run : Runs closed held
      (submit (.standard settings locking onMiss registry nesting) limit batch state) past p) :
    Sound held (submit (.standard settings locking onMiss registry nesting) limit batch state)
      past p := by
  induction run with
  | start => exact sound_submit nodup
  | grant index _ ih => exact ih.grant index
  | advance answer _ running answers ih => exact ih.advance answer running answers
  | elsewhere state _ same ih => exact ⟨ih.bus, same ▸ ih.owned, ih.kept, ih.unasked⟩

end Pool

/-! ## Tasks one after the other -/

namespace Pool

variable {closed : σ → Bool} {held : σ → List String} {first p : Pool D B σ}
  {past : Nat → List (Exchange B)} {answer : Program.Answering B σ} {lawful : σ → Prop}

/-- What the surroundings of a lock keep to. -/
def Serving (held : σ → List String) (lawful : σ → Prop) (answer : Program.Answering B σ) : Prop :=
  ∀ request s, lawful s → Lock.Answers (held s) request (answer request s).1
    (held (answer request s).2) ∧ lawful (answer request s).2

variable {settings : Settings} {locking : Bool} {onMiss : MissHandler D B} {registry : Registry D B}
  {nesting limit : Nat} {batch : List (Delivery B)} {state : σ}

/-- A batch that is worked off in order is one of the runs. -/
theorem runInOrder_runs (serves : Serving held lawful answer) (nodup : (held state).Nodup)
    (start : lawful state) : ∃ past, Runs closed held
      (submit (.standard settings locking onMiss registry nesting) limit batch state) past
      ((submit (.standard settings locking onMiss registry nesting) limit batch state).runInOrder
        answer closed) := by
  let first := submit (.standard settings locking onMiss registry nesting) limit batch state
  let holds (p : Pool D B σ) : Prop := lawful p.state ∧ ∃ past, Runs closed held first past p
  have whole : holds (first.runInOrder answer closed) := by
    refine runInOrder_induction ?_ ?_ ?_ ⟨start, _, .start⟩
    · intro p index ⟨kept, past, run⟩
      exact ⟨(state_grant index).symm ▸ kept, past, run.grant index⟩
    · intro p index request rest ⟨kept, past, run⟩ asks
      obtain ⟨answers, after⟩ := serves request p.state kept
      exact ⟨(state_advance asks).symm ▸ after, _, run.advance answer asks answers⟩
    · intro p index program ⟨_, past, run⟩ running
      exact ((run.sound nodup).kept index _ running).1
  exact whole.2

end Pool

/-- Once all tasks of a batch have finished, the keys that are held are those that were held before
and those of the tasks that have died, which they had acquired and not given back. In particular, a
message that was not the end of its task leaves nothing behind, whatever it ended in. -/
theorem only_dead_tasks_keep_keys {closed : σ → Bool} {held : σ → List String} {p : Pool D B σ}
    {past : Nat → List (Exchange B)} {settings : Settings} {locking : Bool}
    {onMiss : MissHandler D B} {registry : Registry D B} {nesting limit : Nat}
    {batch : List (Delivery B)} {state : σ}
    (run : Pool.Runs closed held
      (Pool.submit (.standard settings locking onMiss registry nesting) limit batch state) past p)
    (nodup : (held state).Nodup)
    (finished : ∀ r ∈ p.results, r ≠ none) (key : String) :
    key ∈ held p.state ↔ key ∈ held state ∨
      ∃ index, p.results[index]? = some (some Task.died) ∧ key ∈ Lock.holding (past index) := by
  have sound := run.sound nodup
  rw [sound.owned.held_iff]
  constructor
  · rintro ⟨_ | index, mine⟩
    · exact .inl mine
    · have own : key ∈ Lock.holding (past index) := mine
      refine .inr ⟨index, ?_, own⟩
      cases place : p.tasks[index]? with
      | none =>
        rw [sound.unasked index place] at own
        cases own
      | some task =>
        have kept := sound.kept index task place
        have result : p.results[index]? = some task.result? := by
          rw [Pool.results, List.getElem?_map, place]
          rfl
        rw [result]
        cases task with
        | finished result =>
          rcases kept with none | rfl
          · rw [none] at own
            cases own
          · rfl
        | _ => exact absurd rfl (finished none (List.mem_of_getElem? result))
  · rintro (before | ⟨index, -, own⟩)
    · exact ⟨none, before⟩
    · exact ⟨some index, own⟩

/-! ## A posting that dies -/

section Tally

open Demo

/-- Posts to a tally, but dies of a posting of nothing. -/
def fragile : Saga Tally Posting :=
  { Tally.saga false with
    handle := fun m context inst =>
      if m.body.amount = 0 then .panic else (Tally.saga false).handle m context inst }

/-- Settings under which nobody waits long for a key. -/
def impatient : Settings :=
  { Settings.default with lockTimeout := .ofMillis 10 }

def fragileBus : Bus Tally Posting :=
  .standard impatient true .logAndSkip (Registry.empty.add "demo.post" (.saga fragile)) 0

/-- What a pool leaves of the surroundings that works off postings of these amounts to one name. -/
def postedInPool (amounts : List Nat) : Pool Tally Posting (World Posting) :=
  (Pool.submit fragileBus 1 (amounts.map (Tally.post "rent")) (World.start impatient)).runInOrder
    World.answer (·.closed)

/-- The posting that died has left its key behind, for which the next one waits in vain. -/
theorem dead_posting_keeps_key : (postedInPool [0]).results = [some Task.died] ∧
    (postedInPool [0]).state.locks.held = ["demo.tally:Name:rent"] ∧
    ∃ m w, (fragileBus.process (Tally.post "rent" 1)).run World.answer (postedInPool [0]).state =
      (some (m, .error (.lockTimeout "demo.tally:Name:rent")), w) :=
  ⟨rfl, by decide +kernel, _, _, rfl⟩

/-- Of two postings to one name, the one that died holds the key. -/
theorem key_kept_by_dead_posting : ∃ past,
    Pool.Runs (·.closed) (·.locks.held) (Pool.submit fragileBus 1
      ([2, 0].map (Tally.post "rent")) (World.start impatient)) past (postedInPool [2, 0]) ∧
    "demo.tally:Name:rent" ∈ Lock.holding (past 1) := by
  have serves : Pool.Serving (fun w : World Posting => w.locks.held) (fun w => w.locks.due = [])
      World.answer := fun request w undue => World.lock_answers undue request
  have nodup : ((fun w : World Posting => w.locks.held) (World.start impatient)).Nodup := .nil
  obtain ⟨past, run⟩ : ∃ past, Pool.Runs (·.closed) (·.locks.held) (Pool.submit fragileBus 1
      ([2, 0].map (Tally.post "rent")) (World.start impatient)) past (postedInPool [2, 0]) :=
    Pool.runInOrder_runs serves nodup rfl
  have succeeded : (postedInPool [2, 0]).results.map (Option.map Except.isOk) =
      [some true, some false] := by decide +kernel
  have finished : ∀ r ∈ (postedInPool [2, 0]).results, r ≠ none := by
    rintro r member rfl
    have unfinished := List.mem_map_of_mem (f := Option.map Except.isOk) member
    rw [succeeded] at unfinished
    simp at unfinished
  have held : "demo.tally:Name:rent" ∈ (postedInPool [2, 0]).state.locks.held := by decide +kernel
  have left := only_dead_tasks_keep_keys run nodup finished "demo.tally:Name:rent"
  obtain before | ⟨index, died, own⟩ := left.1 held
  · cases before
  · have failed : [some true, some false][index]? = some (some false) := by
      rw [← succeeded, List.getElem?_map, died]
      rfl
    have second : index = 1 := by
      clear died own
      match index with
      | 0 => cases failed
      | 1 => rfl
      | index + 2 => cases failed
    exact ⟨past, run, second ▸ own⟩

end Tally

end Sagas
