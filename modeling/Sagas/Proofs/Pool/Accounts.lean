import Sagas.Demo.Tally
import Sagas.Proofs.Pool.Shift
import Sagas.Proofs.World

/-!
# The accounts of a pool

Every message that is submitted to a pool comes to one result, in the place of its submission. It
is refused, which touches nothing, or processed once from its beginning to its end or to its death.
There are never more permits than at the beginning and never fewer, so a death costs the pool
nothing, and once a shutdown has returned nobody gets one.

Results:
1. `Turn.kept`, `Run.kept`, `Turn.result`: the books of a pool, turn by turn.
2. `Run.nothing_begins`: after a shutdown.
3. `Kept.goes_on`, `acc_works`: a pool works until all messages have their results, and not longer.
4. `pool_accounts`: all of it.
5. `runInOrder_run`: a batch that is worked off in order is one of the runs.
-/

namespace Sagas

variable {D B σ : Type}

namespace Shift

variable {gate : Gate σ} {bus : Bus D B} {maxParallelism : Nat} {batch : List (Delivery B)}
  {state : σ} {s t : Shift D B σ} {log : List (Happening B)} {happening : Happening B}

/-! ## The books -/

/-- What is true of a pool and its log at every moment. -/
structure Kept (bus : Bus D B) (maxParallelism : Nat) (batch : List (Delivery B))
    (s : Shift D B σ) (log : List (Happening B)) : Prop where
  sameBus : s.pool.bus = bus
  limit : s.pool.limit = max 1 maxParallelism
  balanced : s.Balanced
  length : s.pool.tasks.length = (batch ++ submissions log).length
  account : ∀ {index : Nat} {delivery : Delivery B},
    (batch ++ submissions log)[index]? = some delivery →
    ∃ task, s.pool.tasks[index]? = some task ∧ Account bus delivery task (story index log)
  /-- Nothing has happened to messages that are yet to come. -/
  unheard : ∀ index, s.pool.tasks.length ≤ index → story index log = []

theorem kept_start : Kept bus maxParallelism batch (start bus maxParallelism batch state) [] where
  sameBus := rfl
  limit := rfl
  balanced := by
    have idle : (start bus maxParallelism batch state).pool.running = 0 := by
      simp [start, Pool.submit, Pool.running, Task.isRunning, List.countP_map]
    rw [Balanced, idle]
    rfl
  length := by simp [start, Pool.submit, submissions]
  account {index delivery} sent := by
    refine ⟨.waiting delivery, ?_, .waiting⟩
    have there : batch[index]? = some delivery := by simpa [submissions] using sent
    simp [start, Pool.submit, there]
  unheard _ _ := rfl

/-- A message is submitted. -/
theorem Kept.submit (kept : Kept bus maxParallelism batch s log) (delivery : Delivery B) :
    Kept bus maxParallelism batch ⟨s.pool.enqueue delivery, s.free⟩
      (.submitted delivery :: log) where
  sameBus := kept.sameBus
  limit := kept.limit
  balanced := kept.balanced.submit delivery
  length := by
    rw [submissions_submitted, ← List.append_assoc, List.length_append, ← kept.length]
    simp [Pool.enqueue]
  account {index d} sent := by
    rw [submissions_submitted, ← List.append_assoc, List.getElem?_append] at sent
    rw [story_other index (by simp)]
    split at sent
    next early =>
      obtain ⟨task, place, account⟩ := kept.account sent
      have inRange : index < s.pool.tasks.length := kept.length ▸ early
      exact ⟨task, (List.getElem?_append_left inRange).trans place, account⟩
    next late =>
      obtain ⟨last, rfl⟩ : index - (batch ++ submissions log).length = 0 ∧ delivery = d := by
        simpa [List.getElem?_singleton] using sent
      have latest : index = s.pool.tasks.length := by
        rw [kept.length]
        omega
      refine ⟨.waiting delivery, ?_, ?_⟩
      · simp [Pool.enqueue, latest]
      · rw [kept.unheard index (Nat.le_of_eq latest.symm)]
        exact .waiting
  unheard index late := by
    rw [story_other index (by simp)]
    refine kept.unheard index ?_
    have longer : s.pool.tasks.length + 1 ≤ index := by simpa [Pool.enqueue] using late
    omega

/-- A message moves. -/
theorem Kept.move {index : Nat} {event : Event B} {old new : Task D B}
    (kept : Kept bus maxParallelism batch s log) (moved : Moved s index event old new t) :
    Kept bus maxParallelism batch t (.message index event :: log) where
  sameBus := by
    rw [moved.pool]
    exact kept.sameBus
  limit := by
    rw [moved.pool]
    exact kept.limit
  balanced := moved.balanced kept.balanced
  length := by
    rw [submissions_other (by simp), ← kept.length, moved.pool]
    simp [Pool.setTask]
  account {j delivery} sent := by
    rw [submissions_other (by simp)] at sent
    obtain ⟨task, place, account⟩ := kept.account sent
    rw [moved.getElem?_tasks, story_message]
    by_cases same : j = index
    · obtain rfl : task = old := by
        rw [same, moved.place] at place
        exact (Option.some.inj place).symm
      rw [if_pos same, if_pos same.symm]
      exact ⟨new, rfl, account.moves (kept.sameBus ▸ moved.moves)⟩
    · rw [if_neg same, if_neg (Ne.symm same)]
      exact ⟨task, place, account⟩
  unheard j late := by
    have length : t.pool.tasks.length = s.pool.tasks.length := by
      rw [moved.pool]
      simp [Pool.setTask]
    rw [length] at late
    have inRange : index < s.pool.tasks.length := (List.getElem?_eq_some_iff.1 moved.place).1
    rw [story_message, if_neg (by omega)]
    exact kept.unheard j late

/-- The surroundings change. -/
theorem Kept.elsewhere (kept : Kept bus maxParallelism batch s log) (state : σ)
    (quiet : ∀ index event, happening ≠ .message index event)
    (unsent : ∀ delivery, happening ≠ .submitted delivery) :
    Kept bus maxParallelism batch ⟨{ s.pool with state }, s.free⟩ (happening :: log) where
  sameBus := kept.sameBus
  limit := kept.limit
  balanced := kept.balanced
  length := by
    rw [submissions_other unsent]
    exact kept.length
  account {index delivery} sent := by
    rw [submissions_other unsent] at sent
    rw [story_other index quiet]
    exact kept.account sent
  unheard index late := by
    rw [story_other index quiet]
    exact kept.unheard index late

theorem Turn.kept (turn : Turn gate s happening t) (kept : Kept bus maxParallelism batch s log) :
    Kept bus maxParallelism batch t (happening :: log) := by
  cases happening with
  | message index event =>
    obtain ⟨old, new, moved⟩ := turn.moved kept.balanced
    exact kept.move moved
  | submitted delivery =>
    cases turn
    exact kept.submit delivery
  | shut =>
    cases turn
    exact kept.elsewhere _ (by simp) (by simp)
  | elsewhere =>
    cases turn
    exact kept.elsewhere _ (by simp) (by simp)

theorem Run.kept (run : Run gate (Shift.start bus maxParallelism batch state) s log) :
    Kept bus maxParallelism batch s log := by
  induction run with
  | start => exact kept_start
  | turn _ turn ih => exact turn.kept ih

/-- A result that is there stays. -/
theorem Turn.result {index : Nat} {result : Except SagaError Unit} (turn : Turn gate s happening t)
    (balanced : s.Balanced) (there : s.pool.results[index]? = some (some result)) :
    t.pool.results[index]? = some (some result) := by
  obtain ⟨task, place, finished⟩ : ∃ task, s.pool.tasks[index]? = some task ∧
      task.result? = some result := by
    simpa [Pool.results] using there
  have stays : t.pool.tasks[index]? = some task := by
    cases happening with
    | message j event =>
      obtain ⟨old, new, moved⟩ := turn.moved balanced
      have other : index ≠ j := by
        rintro rfl
        obtain rfl : task = old := Option.some.inj (place.symm.trans moved.place)
        -- A task that has finished does not move.
        cases moved.moves <;> cases finished
      rw [moved.getElem?_tasks, if_neg other]
      exact place
    | submitted delivery =>
      cases turn
      exact (List.getElem?_append_left (List.getElem?_eq_some_iff.1 place).1).trans place
    | shut | elsewhere =>
      cases turn
      exact place
  simpa [Pool.results, stays] using finished

/-! ## After a shutdown -/

theorem Turn.keeps (turn : Turn gate s happening t) : gate.Keeps s.pool.state t.pool.state := by
  cases turn with
  | submit => exact ⟨id, id⟩
  | refuse | permit =>
    rw [Pool.state_grant]
    exact ⟨id, id⟩
  | ask answer asks answers =>
    rw [Pool.state_advance asks]
    exact answers.keeps
  | shut _ _ keeps | elsewhere _ _ keeps => exact keeps

theorem Turn.closed (turn : Turn gate s happening t) (shuts : happening.Shuts) :
    gate.closed t.pool.state = true := by
  cases shuts with
  | handler index reply =>
    cases turn with
    | ask answer asks answers =>
      rw [Pool.state_advance asks]
      exact answers.shuts rfl
  | outside =>
    cases turn with
    | shut _ _ _ closed => exact closed

theorem Turn.open_of_began {index : Nat} (turn : Turn gate s (.message index .began) t) :
    gate.closed s.pool.state = false := by
  cases turn with
  | permit _ working => exact working

variable {first : Shift D B σ}

theorem Run.closed (run : Run gate first s log) (shut : ∃ early ∈ log, early.Shuts) :
    gate.closed s.pool.state = true := by
  induction run with
  | start => simp at shut
  | turn _ turn ih =>
    obtain ⟨early, member, shuts⟩ := shut
    cases List.mem_cons.1 member with
    | inl latest => exact turn.closed (latest ▸ shuts)
    | inr before => exact turn.keeps.closed (ih ⟨early, before, shuts⟩)

/-- Once a shutdown has returned, no message begins. -/
theorem Run.nothing_begins (run : Run gate first s log) :
    log.Pairwise fun late early => early.Shuts → ∀ index, late ≠ .message index .began := by
  induction run with
  | start => exact .nil
  | turn run turn ih =>
    refine List.pairwise_cons.2 ⟨fun early member shuts index began => ?_, ih⟩
    subst began
    have closed := run.closed ⟨early, member, shuts⟩
    rw [turn.open_of_began] at closed
    cases closed

/-! ## Working to the end -/

/-- A task that runs has something to ask. -/
theorem Kept.asking {index : Nat} {program : Program B (Except SagaError Unit)}
    (kept : Kept bus maxParallelism batch s log)
    (running : s.pool.tasks[index]? = some (.running program)) :
    ∃ request rest, program = .ask request rest := by
  obtain ⟨inRange, -⟩ := List.getElem?_eq_some_iff.1 running
  obtain ⟨task, there, account⟩ :=
    kept.account (List.getElem?_eq_getElem (kept.length ▸ inRange))
  obtain rfl : .running program = task := Option.some.inj (running.symm.trans there)
  generalize story index log = events at account
  cases account with
  | running => exact ⟨_, _, rfl⟩

/-- If no task runs, a task that waits is refused or gets a permit. -/
theorem Kept.turn_of_waiting {index : Nat} {delivery : Delivery B}
    (kept : Kept bus maxParallelism batch s log) (idle : s.pool.running = 0)
    (waiting : s.pool.tasks[index]? = some (.waiting delivery)) :
    ∃ event t, Turn gate s (.message index event) t := by
  cases closed : gate.closed s.pool.state with
  | true => exact ⟨_, _, .refuse waiting (gate.cancelled_of_closed _ closed)⟩
  | false =>
    have room : s.pool.running < s.pool.limit := by
      rw [idle, kept.limit]
      omega
    obtain ⟨free, turn⟩ := kept.balanced.begins waiting closed room
    exact ⟨_, _, turn⟩

/-- As long as a message has no result, there is something to do. -/
theorem Kept.goes_on {answer : Program.Answering B σ} (serves : gate.Serves answer)
    (kept : Kept bus maxParallelism batch s log) (unfinished : none ∈ s.pool.results) :
    ∃ index event t, Turn gate s (.message index event) t := by
  by_cases running : ∃ task ∈ s.pool.tasks, task.isRunning
  · obtain ⟨task, member, runs⟩ := running
    obtain ⟨index, place⟩ := List.mem_iff_getElem?.1 member
    cases task with
    | running program =>
      obtain ⟨request, rest, rfl⟩ := kept.asking place
      exact ⟨index, _, _, .ask answer place (serves _ _)⟩
    | _ => cases runs
  · have idle : s.pool.running = 0 :=
      List.countP_eq_zero.2 fun task member runs => running ⟨task, member, runs⟩
    obtain ⟨task, member, without⟩ := List.mem_map.1 unfinished
    obtain ⟨index, place⟩ := List.mem_iff_getElem?.1 member
    cases task with
    | waiting delivery => exact ⟨index, kept.turn_of_waiting idle place⟩
    | running program => exact absurd ⟨_, member, rfl⟩ running
    | finished result => cases without

/-- After the surroundings have done what they like, one message moves. -/
def Works (gate : Gate σ) (s t : Shift D B σ) : Prop :=
  ∃ ready index event, Turn gate s .elsewhere ready ∧ Turn gate ready (.message index event) t

/-- Of the tasks, one is taken out and what it moves to is put in. -/
theorem Moved.cutExpand {index : Nat} {event : Event B} {old new : Task D B}
    (moved : Moved s index event old new t) :
    Relation.CutExpand (fun new old => ∃ event, old.Moves s.pool.bus event new)
      (t.pool.tasks : Multiset (Task D B)) s.pool.tasks := by
  obtain ⟨inRange, here⟩ := List.getElem?_eq_some_iff.1 moved.place
  refine ⟨{new}, old, ?_, ?_⟩
  · intro task member
    rw [Multiset.mem_singleton.1 member]
    exact ⟨event, moved.moves⟩
  · have before : (s.pool.tasks : Multiset (Task D B)) =
        old ::ₘ (s.pool.tasks.eraseIdx index : Multiset (Task D B)) := by
      rw [← here]
      exact Multiset.coe_eq_coe.2 (List.getElem_cons_eraseIdx_perm inRange).symm
    have after : (t.pool.tasks : Multiset (Task D B)) =
        new ::ₘ (s.pool.tasks.eraseIdx index : Multiset (Task D B)) := by
      rw [moved.pool]
      exact Multiset.coe_eq_coe.2 (List.set_perm_cons_eraseIdx inRange new)
    rw [before, after, ← Multiset.singleton_add, ← Multiset.singleton_add]
    ac_rfl

/-- A pool does not work for ever, whatever the surroundings do in between. -/
theorem acc_works (sameBus : s.pool.bus = bus) (balanced : s.Balanced) :
    Acc (fun t s : Shift D B σ => Works gate s t) s := by
  have smaller := InvImage.wf (fun r : Shift D B σ => (r.pool.tasks : Multiset (Task D B)))
    (Task.moves_wellFounded bus).cutExpand
  induction s using smaller.induction with
  | h s ih =>
    refine ⟨_, fun t works => ?_⟩
    obtain ⟨ready, index, event, idle, turn⟩ := works
    cases idle with
    | elsewhere p free =>
      obtain ⟨old, new, moved⟩ := turn.moved balanced
      subst sameBus
      refine ih t moved.cutExpand ?_ (moved.balanced balanced)
      rw [moved.pool]
      rfl

/-! ## The whole -/

/-- The accounts of a pool: what it owes to every message, and how many it lets run. -/
structure Accounts (gate : Gate σ) (bus : Bus D B) (maxParallelism : Nat)
    (batch : List (Delivery B)) (s : Shift D B σ) (log : List (Happening B)) : Prop where
  /-- There is one place for a result for every message. -/
  results : s.pool.results.length = (batch ++ submissions log).length
  /-- In the order of submission, each has what comes of its own message. -/
  account : ∀ {index : Nat} {delivery : Delivery B},
    (batch ++ submissions log)[index]? = some delivery →
    ∃ task, s.pool.tasks[index]? = some task ∧ s.pool.results[index]? = some task.result? ∧
      Account bus delivery task (story index log)
  /-- A result that is there stays. -/
  final : ∀ (index : Nat) (result : Except SagaError Unit) (happening : Happening B) t,
    s.pool.results[index]? = some (some result) → Turn gate s happening t →
    t.pool.results[index]? = some (some result)
  /-- To refuse a message leaves the surroundings as they are. -/
  untouched : ∀ (index : Nat) t, Turn gate s (.message index .refused) t →
    t.pool.state = s.pool.state
  bounded : s.pool.running ≤ max 1 maxParallelism
  /-- Whoever has died, no permit is lost. -/
  permits : s.free + s.pool.running = max 1 maxParallelism
  /-- So a message that waits can begin unless the pool is full or shut down. -/
  begins : ∀ (index : Nat) (delivery : Delivery B),
    s.pool.tasks[index]? = some (.waiting delivery) → gate.closed s.pool.state = false →
    s.pool.running < max 1 maxParallelism → ∃ t, Turn gate s (.message index .began) t
  /-- The pool goes by the tasks that run. What it grants is nothing, or one of these turns. -/
  granted : ∀ index, s.pool.grant gate.closed index = s.pool ∨ ∃ event free,
    Turn gate s (.message index event) ⟨s.pool.grant gate.closed index, free⟩
  /-- Once a shutdown has returned, no message begins. -/
  shut : log.Pairwise fun late early => early.Shuts → ∀ index, late ≠ .message index .began
  /-- As long as a result is missing, some message can move. -/
  goes_on : none ∈ s.pool.results → ∃ t, Works gate s t
  /-- As long as no further message is submitted, that comes to an end. -/
  ends : Acc (fun t s : Shift D B σ => Works gate s t) s

/-- A batch that is worked off in order is one of the runs. -/
theorem runInOrder_run {answer : Program.Answering B σ} (serves : gate.Serves answer) :
    ∃ free log, Run gate (start bus maxParallelism batch state)
      ⟨(Pool.submit bus maxParallelism batch state).runInOrder answer gate.closed, free⟩ log := by
  let first := Pool.submit bus maxParallelism batch state
  let holds (p : Pool D B σ) : Prop :=
    ∃ free log, Run gate (start bus maxParallelism batch state) ⟨p, free⟩ log
  have whole : holds (first.runInOrder answer gate.closed) := by
    refine Pool.runInOrder_induction ?_ ?_ ?_ ⟨_, [], .start⟩
    · intro p index ⟨free, log, run⟩
      obtain same | ⟨event, left, turn⟩ := run.kept.balanced.grant gate index
      · rw [same]
        exact ⟨free, log, run⟩
      · exact ⟨left, _, run.turn turn⟩
    · intro p index request rest ⟨free, log, run⟩ asks
      exact ⟨_, _, run.turn (.ask answer asks (serves _ _))⟩
    · intro p index program ⟨free, log, run⟩ running
      exact run.kept.asking running
  exact whole

end Shift

open Shift in
/-- What a pool owes to its messages, whatever order things happen in, whoever dies and whenever it
is shut down. -/
theorem pool_accounts {gate : Gate σ} {answer : Program.Answering B σ} {bus : Bus D B}
    {maxParallelism : Nat} {batch : List (Delivery B)} {state : σ} {s : Shift D B σ}
    {log : List (Happening B)} (serves : gate.Serves answer)
    (run : Run gate (.start bus maxParallelism batch state) s log) :
    Accounts gate bus maxParallelism batch s log := by
  have kept := run.kept
  have permits : s.free + s.pool.running = max 1 maxParallelism := kept.limit ▸ kept.balanced
  exact {
    results := by simpa [Pool.results] using kept.length
    account := fun sent => by
      obtain ⟨task, place, account⟩ := kept.account sent
      exact ⟨task, place, by simp [Pool.results, place], account⟩
    final := fun index result happening t there turn => turn.result kept.balanced there
    untouched := fun index t turn => by
      cases turn
      exact Pool.state_grant index
    bounded := by omega
    permits := permits
    begins := fun index delivery waiting working room => by
      obtain ⟨free, turn⟩ := kept.balanced.begins waiting working (kept.limit.symm ▸ room)
      exact ⟨_, turn⟩
    granted := kept.balanced.grant gate
    shut := run.nothing_begins
    goes_on := fun unfinished => by
      obtain ⟨index, event, t, turn⟩ := kept.goes_on serves unfinished
      exact ⟨t, s, index, event, .elsewhere s.pool s.free ⟨id, id⟩, turn⟩
    ends := acc_works kept.sameBus kept.balanced }

/-! ## A day at a pool -/

namespace World

/-- A world shuts a pool down in one step. -/
def gate : Gate (World B) := ⟨(·.closed), (·.closed), fun _ closed => closed⟩

theorem serves_gate : gate.Serves (World.answer (B := B)) := by
  intro request w
  by_cases shuts : request = .shutdown
  · subst shuts
    have closed : (World.answer .shutdown w).2.closed = true := by
      simp only [answer, perform, shutDown, enter, entryOf?]
      split
      next closed => exact closed
      next => rfl
    exact ⟨⟨fun _ => closed, fun _ => closed⟩, fun _ => closed⟩
  · have same : (World.answer request w).2.closed = w.closed := closed_answer w request shuts
    exact ⟨⟨same.trans, same.trans⟩, fun shutdown => absurd shutdown shuts⟩

end World

section Tally

open Demo

/-- Dies of a posting of nothing, and shuts the pool down upon a posting of one. -/
def doorkeeper : Handler Tally Posting :=
  .plain "doorkeeper" fun m _ =>
    match m.body.amount with
    | 0 => .panic
    | 1 => .shutdown (.done (.ok ()))
    | _ => .done (.ok ())

def doorkeeperBus : Bus Tally Posting :=
  ⟨[Stage.dispatch], Registry.empty.add "demo.post" doorkeeper, 0⟩

def lastPostings : List (Delivery Posting) := [0, 1, 2].map (Tally.post "rent")

/-- The pool after the last postings, which it has worked off one at a time. -/
def closedPool : Pool Tally Posting (World Posting) :=
  (Pool.submit doorkeeperBus 0 lastPostings (World.start .default)).runInOrder World.answer
    World.gate.closed

/-- The first posting dies, which does not keep the second one from shutting the pool down, and the
third one is refused. -/
theorem closedPool_accounts : ∃ free log,
    Shift.Run World.gate (.start doorkeeperBus 0 lastPostings (World.start .default))
      ⟨closedPool, free⟩ log ∧
    Shift.Accounts World.gate doorkeeperBus 0 lastPostings ⟨closedPool, free⟩ log ∧
    closedPool.results = [some Task.died, some (.ok ()), some (.error .shutdown)] := by
  obtain ⟨free, log, run⟩ : ∃ free log, Shift.Run World.gate
      (.start doorkeeperBus 0 lastPostings (World.start .default)) ⟨closedPool, free⟩ log :=
    Shift.runInOrder_run World.serves_gate
  exact ⟨free, log, run, pool_accounts World.serves_gate run, rfl⟩

end Tally

end Sagas
