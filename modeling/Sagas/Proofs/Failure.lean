import Sagas.Demo.Tally
import Sagas.Proofs.Tasks

/-!
# What a failed message leaves behind

A message can fail at each of its stages, and there at any of their steps. A failure is defined by
what has been gone through before it: the stages and the steps that have succeeded, and the one that
has not. Whatever has failed, nothing is left but to give the locks back and to report the error.

Up to its handlers a message has asked for nothing that application code could ask for. Up to its
writes it has written nothing. A write that fails has changed nothing, those planned before it have
taken effect once each, in their order, and none planned after it has been tried.

Results:
1. `failsAt_of_returns`: a message that ends in an error has failed at one of these points.
2. `FailsAt.reached`, `finish_ends`: what fails there, ends in that error.
3. `FailsAt.leaves`: what it leaves behind.
-/

namespace Sagas

variable {D B : Type}

/-! ## Handlers in order -/

namespace Stage

open Program

variable {context : Context} {i : Invocation D B} {rest invocations : List (Invocation D B)}
  {ran : List (Invocation D B)} {past : List (Exchange B)} {e : SagaError}

/-- What dispatch does with one invocation. -/
def dispatchOne (context : Context) (i : Invocation D B) :
    Program B (Invocation D B × Except InvokeError Unit) :=
  if i.skipped then do
    Program.log (.handlerSkipped i.name)
    return (i, .ok ())
  else i.invoke .request context

theorem dispatchAll_cons : dispatchAll .request context (i :: rest) =
    (dispatchOne context i >>= fun r =>
      match r.2 with
      | .error e => return (r.1 :: rest, .error (.handler e))
      | .ok () => dispatchAll .request context rest >>= fun others =>
        return (r.1 :: others.1, others.2)) := by
  rw [dispatchAll, dispatchOne]
  split <;> rfl

theorem returns_dispatchAll_cons {answer : Except SagaError Unit} :
    (dispatchAll .request context (i :: rest)).Returns past (ran, answer) ↔
      (∃ j cause, (dispatchOne context i).Returns past (j, .error cause) ∧ ran = j :: rest ∧
        answer = .error (.handler cause)) ∨
      ∃ j others early late, (dispatchOne context i).Returns early (j, .ok ()) ∧
        (dispatchAll .request context rest).Returns late (others, answer) ∧ ran = j :: others ∧
        past = late ++ early := by
  rw [dispatchAll_cons, returns_bind]
  constructor
  · rintro ⟨⟨j, first⟩, early, late, returns, follows, rfl⟩
    cases first with
    | error cause =>
      obtain ⟨rfl, same⟩ := returns_done.1 follows
      cases same
      exact .inl ⟨j, cause, returns, rfl, rfl⟩
    | ok =>
      obtain ⟨⟨others, answer⟩, middle, late, further, ends, rfl⟩ := returns_bind.1 follows
      obtain ⟨rfl, same⟩ := returns_done.1 ends
      cases same
      exact .inr ⟨j, others, early, middle, returns, further, rfl, rfl⟩
  · rintro (⟨j, cause, returns, rfl, rfl⟩ | ⟨j, others, early, late, returns, further, rfl, rfl⟩)
    · exact ⟨_, past, [], returns, .done _, rfl⟩
    · exact ⟨_, early, late, returns, returns_bind.2 ⟨_, late, [], further, .done _, rfl⟩, rfl⟩

/-- Handlers that fail, fail at one of them: those before it have succeeded, and those after it have
not run. -/
theorem returns_dispatchAll_error :
    (dispatchAll .request context invocations).Returns past (ran, .error e) ↔
      ∃ place i before j cause early late, invocations[place]? = some i ∧
        (dispatchAll .request context (invocations.take place)).Returns early (before, .ok ()) ∧
        (dispatchOne context i).Returns late (j, .error cause) ∧
        ran = before ++ j :: invocations.drop (place + 1) ∧ e = .handler cause ∧
        past = late ++ early := by
  induction invocations generalizing past ran with
  | nil => simp [dispatchAll]
  | cons first rest ih =>
    rw [returns_dispatchAll_cons]
    constructor
    · rintro (⟨j, cause, fails, rfl, same⟩ | ⟨j, others, early, late, returns, further, rfl, rfl⟩)
      · cases same
        exact ⟨0, first, [], j, cause, [], past, rfl, .done _, fails, rfl, rfl,
          (List.append_nil past).symm⟩
      · obtain ⟨place, i, before, k, cause, middle, late, here, succeed, fails, rfl, rfl, rfl⟩ :=
          ih.1 further
        refine ⟨place + 1, i, j :: before, k, cause, middle ++ early, late, here, ?_, fails, rfl,
          rfl, by rw [List.append_assoc]⟩
        exact returns_dispatchAll_cons.2
          (.inr ⟨j, before, early, middle, returns, succeed, rfl, rfl⟩)
    · rintro ⟨place, i, before, j, cause, early, late, here, succeed, fails, rfl, rfl, rfl⟩
      cases place with
      | zero =>
        obtain ⟨rfl, same⟩ := returns_done.1 succeed
        cases same
        cases here
        exact .inl ⟨j, cause, (List.append_nil late).symm ▸ fails, rfl, rfl⟩
      | succ place =>
        rw [List.take_succ_cons, returns_dispatchAll_cons] at succeed
        rcases succeed with
          ⟨_, _, _, _, same⟩ | ⟨k, others, first', middle, returns, succeed, rfl, rfl⟩
        · cases same
        · refine .inr ⟨k, others ++ j :: rest.drop (place + 1), first', late ++ middle, returns, ?_,
            rfl, by rw [List.append_assoc]⟩
          exact ih.2 ⟨place, i, others, j, cause, middle, late, here, succeed, fails, rfl, rfl, rfl⟩

end Stage

/-! ## Points of failure -/

/-- What has failed of a message. -/
inductive Stop where
  | rules
  | locks
  /-- An instance could not be found or created. -/
  | binding
  /-- The handler at this place. -/
  | handler (place : Nat)
  /-- The item of this number in the plan. -/
  | write (number : Nat)

namespace Job

/-- The message has failed at this point, holding these locks, after these exchanges; this is what
it has come to, and the error. -/
inductive FailsAt (job : Job D B) :
    Stop → List String → List (Exchange B) → Incoming D B → SagaError → Prop
  | rules {past : List (Exchange B)} {e : SagaError} :
      job.incoming.bindings.Returns past (.error e) →
      FailsAt job .rules [] past job.incoming e
  /-- Locks that were taken have been given back. -/
  | locks {bindings : List (Binding B)} {early late : List (Exchange B)} {e : SagaError} :
      job.incoming.bindings.Returns early (.ok bindings) →
      (job.takeLocks bindings).Returns late (.error e) →
      FailsAt job .locks [] (late ++ early) job.incoming e
  | binding {bindings : List (Binding B)} {held : List String} {early late : List (Exchange B)}
      {m : Incoming D B} {e : SagaError} :
      job.Prepared bindings held early →
      (job.bind bindings job.incoming).Returns late (m, .error e) →
      FailsAt job .binding held (late ++ early) m e
  | handler {bindings : List (Binding B)} {held : List String}
      {early middle late : List (Exchange B)} {m : Incoming D B} {place : Nat}
      {i j : Invocation D B} {ran : List (Invocation D B)} {cause : InvokeError} :
      job.Bound bindings held m early → m.invocations[place]? = some i →
      (Stage.dispatchAll .request m.context (m.invocations.take place)).Returns middle
        (ran, .ok ()) →
      (Stage.dispatchOne m.context i).Returns late (j, .error cause) →
      FailsAt job (.handler place) held (late ++ middle ++ early)
        { m with invocations := ran ++ j :: m.invocations.drop (place + 1) } (.handler cause)
  | write {bindings : List (Binding B)} {held : List String}
      {early middle late : List (Exchange B)} {parts : List (List (Exchange B))}
      {m m₁ : Incoming D B} {number : Nat} {item : Planned B} {i j : Invocation D B}
      {e : SagaError} :
      job.Handled bindings held m early →
      ((Touched.groups m.invocations bindings).forM Touched.announce).Returns middle () →
      (m.plan bindings).items[number]? = some item →
      m.Wrote (((m.plan bindings).items.take number).map
        (·.task .request job.settings.maxConflictAttempts)) parts m₁ →
      m₁.invocations[item.place]? = some i →
      ((item.task .request job.settings.maxConflictAttempts).2 i).Returns late (j, .error e) →
      FailsAt job (.write number) held (late ++ parts.reverse.flatten ++ (middle ++ early))
        (m₁.put item.place j) e

variable {job : Job D B} {bindings : List (Binding B)} {held : List String} {m m' : Incoming D B}
  {early late past : List (Exchange B)} {e : SagaError} {stop : Stop}

open Program

theorem returns_handle_error : (Incoming.handle m).Returns past (m', .error e) ↔
    ∃ ran, (Stage.dispatchAll .request m.context m.invocations).Returns past (ran, .error e) ∧
      m' = { m with invocations := ran } := by
  unfold Incoming.handle Stage.dispatch
  rw [returns_bind]
  constructor
  · rintro ⟨⟨ran, answer⟩, early, late, returns, follows, rfl⟩
    cases answer with
    | error e =>
      obtain ⟨rfl, same⟩ := returns_done.1 follows
      cases same
      exact ⟨ran, returns, rfl⟩
    | ok =>
      obtain ⟨-, same⟩ := returns_done.1 follows
      cases same
  · rintro ⟨ran, returns, rfl⟩
    exact ⟨_, past, [], returns, .done _, rfl⟩

theorem returns_write_error : (job.write bindings m).Returns past (m', .error e) ↔
    ∃ early late, ((Touched.groups m.invocations bindings).forM Touched.announce).Returns early () ∧
      (Incoming.inTurn (WritePlan.inOrder ((m.plan bindings).items.map
        (·.task .request job.settings.maxConflictAttempts))) m).Returns late (m', .error e) ∧
      past = late ++ early := by
  unfold write Incoming.persist
  rw [returns_bind, ← WritePlan.tasks_eq, ← WritePlan.writes_eq]
  exact ⟨fun ⟨_, early, late, announced, writes, same⟩ => ⟨early, late, announced, writes, same⟩,
    fun ⟨early, late, announced, writes, same⟩ => ⟨(), early, late, announced, writes, same⟩⟩

/-! ## Ending -/

theorem returns_finish {r r' : Processed D B} (returns : (finish held r).Returns past r') :
    r' = r ∧ ∀ x ∈ past, x.request.Prepares :=
  returns.recalled ((keeps_finish preparing_locks held r ()).imp fun _ _ ended => ended.1)
    (List.Subset.refl past)

/-- The end of a message cannot die, whatever the answers. -/
theorem run_finish {τ : Type} (answer : Answering B τ) (held : List String) (r : Processed D B)
    (w : τ) : ((finish held r).run answer w).1 = some r := by
  induction held generalizing w with
  | nil =>
    obtain ⟨m, answer⟩ := r
    cases answer <;> rfl
  | cons key earlier ih =>
    unfold finish
    rw [Incoming.releaseAll, bind_assoc, call_bind, run]
    obtain ⟨reply, later⟩ := answer (.release key) w
    rcases reply with e | _ | _
    · exact ih _
    · exact ih _
    · exact ih _

/-- What is left of a message whose work is done ends in what it has come to, and asks for nothing
that application code or a write would ask for. -/
theorem finish_ends {τ : Type} (answer : Answering B τ) (held : List String) (r : Processed D B)
    (w : τ) : ∃ v late, (finish held r).run (traced answer) (w, []) = (some r, v, late) ∧
      ∀ x ∈ late, x.request.Prepares := by
  have ended := run_finish (traced answer) held r (w, [])
  generalize ran : (finish held r).run (traced answer) (w, []) = result at ended
  obtain ⟨_, v, late⟩ := result
  obtain rfl := ended
  exact ⟨v, late, rfl, (returns_finish (returns_of_run ran)).2⟩

/-! ## Failing -/

/-- What has failed there, ends in that error. -/
theorem FailsAt.reached (fails : job.FailsAt stop held past m e) :
    Party.Reached job.program ⟨past, finish held (m, .error e)⟩ := by
  cases fails with
  | rules fails => exact fails.leaves_of_eq job.program_stages
  | locks served fails =>
    exact (served.leaves_of_eq job.program_stages).trans (fails.leaves _)
  | binding prepared fails =>
    have left := prepared.leaves
    rw [Incoming.inTurn_cons_bind] at left
    exact left.trans (fails.leaves _)
  | @handler _ _ early middle late m place i j ran cause bound here succeed fails =>
    have left := bound.leaves
    rw [Incoming.inTurn_cons_bind] at left
    have fails : (Incoming.handle m).Returns (late ++ middle)
        ({ m with invocations := ran ++ j :: m.invocations.drop (place + 1) },
          .error (.handler cause)) :=
      returns_handle_error.2 ⟨_, Stage.returns_dispatchAll_error.2
        ⟨place, i, ran, j, cause, middle, late, here, succeed, fails, rfl, rfl, rfl⟩, rfl⟩
    exact left.trans (fails.leaves _)
  | @write bindings _ early middle late parts m₀ m₁ number item i j _ handled announced planned
      wrote here fails =>
    have known : ((m₀.plan bindings).items.map
        (Planned.task (D := D) .request job.settings.maxConflictAttempts))[number]? =
          some (item.place, (item.task .request job.settings.maxConflictAttempts).2) := by
      rw [List.getElem?_map, planned, ← item.place_task]
      rfl
    have fails : (job.write bindings m₀).Returns (late ++ parts.reverse.flatten ++ middle)
        (m₁.put item.place j, .error e) := by
      refine returns_write_error.2 ⟨middle, _, announced, ?_, rfl⟩
      rw [List.map_take] at wrote
      exact Incoming.returns_inOrder_error.2
        ⟨number, item.place, _, m₁, i, j, parts, late, known, wrote, here, fails, rfl, rfl⟩
    rw [← List.append_assoc]
    exact handled.leaves.trans (fails.leaves _)

theorem Bound.failsAt (bound : job.Bound bindings held m early)
    (fails : (Incoming.handle m).Returns late (m', .error e)) :
    ∃ place, job.FailsAt (.handler place) held (late ++ early) m' e := by
  obtain ⟨ran, dispatched, rfl⟩ := returns_handle_error.1 fails
  obtain ⟨place, i, before, j, cause, first, last, here, succeed, one, rfl, rfl, rfl⟩ :=
    Stage.returns_dispatchAll_error.1 dispatched
  exact ⟨place, .handler bound here succeed one⟩

theorem Handled.failsAt (handled : job.Handled bindings held m early)
    (fails : (job.write bindings m).Returns late (m', .error e)) :
    ∃ number, job.FailsAt (.write number) held (late ++ early) m' e := by
  obtain ⟨announces, writes, announced, ordered, rfl⟩ := returns_write_error.1 fails
  obtain ⟨number, place, task, m₁, i, j, parts, last, known, wrote, here, one, rfl, rfl⟩ :=
    Incoming.returns_inOrder_error.1 ordered
  rw [List.getElem?_map] at known
  obtain ⟨item, planned, same⟩ := Option.map_eq_some_iff.1 known
  obtain rfl : item.place = place := item.place_task.symm.trans (congrArg Prod.fst same)
  obtain rfl := congrArg Prod.snd same
  rw [← List.map_take] at wrote
  rw [List.append_assoc _ announces]
  exact ⟨number, .write handled announced planned wrote here one⟩

/-- Stages that fail, fail at one of them. -/
theorem Prepared.failsAt (prepared : job.Prepared bindings held early)
    (fails : (Incoming.inTurn [job.bind bindings, Incoming.handle, job.write bindings]
      job.incoming).Returns late (m', .error e)) :
    ∃ stop, job.FailsAt stop held (late ++ early) m' e := by
  rcases Incoming.returns_inTurn_cons.1 fails with ⟨_, same, first⟩ |
    ⟨m₀, binds, rest, binding, further, rfl⟩
  · cases same
    exact ⟨.binding, .binding prepared first⟩
  have bound : job.Bound bindings held m₀ (binds ++ early) := ⟨_, binds, prepared, binding, rfl⟩
  rw [List.append_assoc]
  rcases Incoming.returns_inTurn_cons.1 further with ⟨_, same, second⟩ |
    ⟨m₁, handles, writes, handling, last, rfl⟩
  · cases same
    obtain ⟨place, failed⟩ := bound.failsAt second
    exact ⟨.handler place, failed⟩
  have handled : job.Handled bindings held m₁ (handles ++ (binds ++ early)) :=
    ⟨m₀, _, handles, bound, handling, rfl⟩
  rw [List.append_assoc]
  rw [Incoming.inTurn_single] at last
  obtain ⟨number, failed⟩ := handled.failsAt last
  exact ⟨.write number, failed⟩

/-- A message that ends in an error has failed somewhere. -/
theorem failsAt_of_returns (returns : job.program.Returns past (m, .error e)) :
    ∃ stop held early late, job.FailsAt stop held early m e ∧
      (finish held (m, .error e)).Returns late (m, .error e) ∧ past = late ++ early := by
  rw [job.program_stages] at returns
  obtain ⟨served, early, late, serves, follows, rfl⟩ := returns_bind.1 returns
  cases served with
  | error cause =>
    have ended : (finish [] (job.incoming, .error cause)).Returns late (m, .error e) := follows
    cases (returns_finish ended).1
    exact ⟨.rules, [], early, late, .rules serves, ended, rfl⟩
  | ok bindings =>
    obtain ⟨taken, middle, late, takes, follows, rfl⟩ := returns_bind.1 follows
    rw [List.append_assoc]
    cases taken with
    | error cause =>
      have ended : (finish [] (job.incoming, .error cause)).Returns late (m, .error e) := follows
      cases (returns_finish ended).1
      exact ⟨.locks, [], middle ++ early, late, .locks serves takes, ended, rfl⟩
    | ok held =>
      have prepared : job.Prepared bindings held (middle ++ early) :=
        ⟨early, middle, serves, takes, rfl⟩
      obtain ⟨⟨m', answer⟩, works, late, worked, ended, rfl⟩ := returns_bind.1 follows
      cases (returns_finish ended).1
      obtain ⟨stop, fails⟩ := prepared.failsAt worked
      exact ⟨stop, held, _, late, fails, ended, by rw [List.append_assoc]⟩

/-! ## What is left behind -/

/-- What a message has done that has failed at an item of its plan: the items before have succeeded,
each with its calls, the item has failed, and that is all. -/
structure StoppedAt (m : Incoming D B) (items : List (Planned B)) (number : Nat)
    (past : List (Exchange B)) : Prop where
  calls : ∃ item done missed, items[number]? = some item ∧
    calls past = missed ++ done.reverse.flatten ∧
    List.Forall₂ (Planned.Carried m) (items.take number) done ∧ item.Missed m missed
  effects : List.Forall₂ (fun item x => ∃ i earlier, m.invocations[item.place]? = some i ∧
    item.Tried i (x :: earlier)) (items.take number) (past.filter (·.takesEffect)).reverse

/-- What a message leaves behind that has failed at a point. -/
def LeavesBehind (job : Job D B) (stop : Stop) (past : List (Exchange B)) (m : Incoming D B) :
    Prop :=
  match stop with
  | .rules | .locks => m = job.incoming ∧ ∀ x ∈ past, x.request.Prepares
  | .binding =>
    (∃ bindings left, job.incoming.HalfBound past job.onMiss bindings left m) ∧
      ∀ x ∈ past, x.request.Prepares
  | .handler place =>
    (∀ x ∈ past, x.request.isWrite = false) ∧ ∃ bindings m₀,
      job.incoming.HalfBound past job.onMiss bindings [] m₀ ∧
      List.Forall₂ Invocation.Ran (m₀.invocations.take place) (m.invocations.take place) ∧
      m.invocations.drop (place + 1) = m₀.invocations.drop (place + 1)
  | .write number => ∃ bindings held m₀ early, job.Handled bindings held m₀ early ∧ early <:+ past ∧
    StoppedAt m₀ (m₀.plan bindings).items number past

theorem not_mem_take {α : Type} {l : List α} {k : Nat} {a : α} (nodup : l.Nodup)
    (here : l[k]? = some a) : a ∉ l.take k := by
  intro member
  obtain ⟨inRange, rfl⟩ := List.getElem?_eq_some_iff.1 here
  obtain ⟨n, before, same⟩ := List.mem_take_iff_getElem.1 member
  have : n = k := nodup.getElem_inj_iff.1 same
  omega

/-- The place of an item is none of those before it in the plan, so it is as it was. -/
theorem untouched_of_wrote {items : List (Planned B)} {parts : List (List (Exchange B))}
    {m₁ : Incoming D B} {number maxAttempts : Nat} {item : Planned B}
    (nodup : (items.map (·.place)).Nodup) (planned : items[number]? = some item)
    (wrote : m.Wrote ((items.take number).map (·.task .request maxAttempts)) parts m₁) :
    m₁.invocations[item.place]? = m.invocations[item.place]? := by
  have isPlace : (items.map (·.place))[number]? = some item.place := by
    rw [List.getElem?_map, planned]
    rfl
  have others : ((items.take number).map
      (Planned.task (D := D) .request maxAttempts)).map (·.1) =
        (items.map (·.place)).take number := by
    rw [List.map_map, ← List.map_take]
    exact List.map_congr_left fun item _ => item.place_task
  exact wrote.elsewhere (others ▸ not_mem_take nodup isPlace)

theorem FailsAt.leaves_handler {middle : List (Exchange B)} {place : Nat}
    {i j : Invocation D B} {ran : List (Invocation D B)} {cause : InvokeError}
    (bound : job.Bound bindings held m early) (here : m.invocations[place]? = some i)
    (succeed : (Stage.dispatchAll .request m.context (m.invocations.take place)).Returns middle
      (ran, .ok ()))
    (fails : (Stage.dispatchOne m.context i).Returns late (j, .error cause)) :
    job.LeavesBehind (.handler place) (late ++ middle ++ early)
      { m with invocations := ran ++ j :: m.invocations.drop (place + 1) } := by
  have dispatched := Stage.returns_dispatchAll_error.2
    ⟨place, i, ran, j, cause, middle, late, here, succeed, fails, rfl, rfl, rfl⟩
  have within : early ⊆ late ++ middle ++ early := List.subset_append_right _ _
  obtain ⟨-, half, asked⟩ := bound.bound within
  obtain ⟨-, handling⟩ := dispatched.recalled (Stage.keeps_allRan m.invocations)
    (List.subset_append_left (late ++ middle) early)
  obtain ⟨pairs, -⟩ := succeed.recalled (Stage.keeps_allRan (m.invocations.take place))
    (List.Subset.refl middle)
  have pairs := pairs rfl
  have length : ran.length = place := by
    rw [← pairs.length_eq, List.length_take]
    exact min_eq_left (Nat.le_of_lt (List.getElem?_eq_some_iff.1 here).1)
  refine ⟨fun x member => ?_, bindings, m, half, ?_, ?_⟩
  · rcases List.mem_append.1 member with handled | prepared
    · exact (handling x handled).not_write
    · exact (asked x prepared).not_write
  · rwa [List.take_left' length]
  · subst length
    simp

theorem FailsAt.leaves_write {middle : List (Exchange B)} {parts : List (List (Exchange B))}
    {m₁ : Incoming D B} {number : Nat} {item : Planned B} {i j : Invocation D B}
    (handled : job.Handled bindings held m early)
    (announced : ((Touched.groups m.invocations bindings).forM Touched.announce).Returns middle ())
    (planned : (m.plan bindings).items[number]? = some item)
    (wrote : m.Wrote (((m.plan bindings).items.take number).map
      (·.task .request job.settings.maxConflictAttempts)) parts m₁)
    (here : m₁.invocations[item.place]? = some i)
    (fails : ((item.task .request job.settings.maxConflictAttempts).2 i).Returns late
      (j, .error e)) :
    job.LeavesBehind (.write number) (late ++ parts.reverse.flatten ++ (middle ++ early)) m' := by
  obtain ⟨served, -, quiet⟩ := handled.ran (List.Subset.refl early)
  obtain ⟨-, announcing⟩ := announced.recalled (Touched.keeps_announced _ middle)
    (List.Subset.refl middle)
  have silent : calls (middle ++ early) = [] := calls_eq_nil fun x member =>
    (List.mem_append.1 member).elim (fun announces => (announcing x announces).not_write) (quiet x)
  have nodup : ((m.plan bindings).items.map (·.place)).Nodup := by
    rw [WritePlan.places_items]
    exact plan_nodup served.nodup
  have held : ∀ item ∈ (m.plan bindings).items, ∀ i, m.invocations[item.place]? = some i →
      i.id? ≠ none := by
    intro item among i place
    obtain ⟨j, place', -, holds⟩ := planned_holds among
    exact Option.some.inj (place'.symm.trans place) ▸ holds
  have carried := wrote.carried (nodup.sublist ((List.take_sublist _ _).map _))
    fun item among => held item (List.mem_of_mem_take among)
  have first : m.invocations[item.place]? = some i :=
    (untouched_of_wrote nodup planned wrote).symm.trans here
  have missed := Planned.missed_of_returns first
    (held item (List.mem_of_getElem? planned) i first) fails
  have all : calls (late ++ parts.reverse.flatten ++ (middle ++ early)) =
      calls late ++ (parts.map calls).reverse.flatten := by
    rw [calls_append, calls_append, silent, List.append_nil, ← List.map_reverse]
    exact congrArg (calls late ++ ·) List.filter_flatten
  refine ⟨bindings, _, m, early, handled, ?_, ⟨item, _, _, planned, all, carried, missed⟩, ?_⟩
  · rw [← List.append_assoc]
    exact List.suffix_append _ _
  · have nothing : (calls late).filter (·.takesEffect) = [] := by
      obtain ⟨-, -, -, lost⟩ := missed
      exact List.filter_eq_nil_iff.2 fun x member => by simp [lost x member]
    rw [← filter_takesEffect_calls, all, List.filter_append, nothing]
    exact effects_of_carried carried

theorem FailsAt.leaves (fails : job.FailsAt stop held past m e) : job.LeavesBehind stop past m := by
  cases fails with
  | rules fails =>
    exact ⟨rfl, (fails.recalled (Incoming.keeps_served _ past) (List.Subset.refl past)).2⟩
  | @locks bindings early late e served fails =>
    obtain ⟨-, asked⟩ := served.recalled (Incoming.keeps_served _ early) (List.Subset.refl early)
    obtain ⟨-, asked'⟩ := fails.recalled (keeps_takeLocks job bindings late)
      (List.Subset.refl late)
    exact ⟨rfl, fun x member => (List.mem_append.1 member).elim (asked' x) (asked x)⟩
  | @binding _ _ early late _ _ prepared fails =>
    obtain ⟨served, asked⟩ := prepared.served (List.subset_append_right late early)
    obtain ⟨half, asked'⟩ := fails.recalled (Incoming.keeps_bindAll served.nodup)
      (List.subset_append_left _ _)
    obtain ⟨left, half⟩ := half
    exact ⟨⟨_, left, half⟩, fun x member => (List.mem_append.1 member).elim (asked' x) (asked x)⟩
  | handler bound here succeed fails => exact FailsAt.leaves_handler bound here succeed fails
  | write handled announced planned wrote here fails =>
    exact FailsAt.leaves_write handled announced planned wrote here fails

end Job

/-- A message that ends in an error has failed at one of its stages. Whatever has failed, what is
left gives the locks back, reports the error and returns it, and asks for nothing that application
code or a write would ask for. Up to its handlers the message has asked for no such thing, and
before its writes for no write. Handlers after one that fails have not run. With a write that fails,
those planned before it have taken effect, once each and in their order, and no later one has been
tried. -/
theorem failure_stops (job : Job D B) :
    (∀ past m e, job.program.Returns past (m, .error e) → ∃ stop held early late,
      job.FailsAt stop held early m e ∧
        (finish held (m, .error e)).Returns late (m, .error e) ∧ past = late ++ early) ∧
    ∀ stop held past m e, job.FailsAt stop held past m e →
      Party.Reached job.program ⟨past, finish held (m, .error e)⟩ ∧
      (∀ {τ : Type} (answer : Program.Answering B τ) w, ∃ v late,
        (finish held (m, .error e)).run (Program.traced answer) (w, []) =
          (some (m, .error e), v, late) ∧ ∀ x ∈ late, x.request.Prepares) ∧
      job.LeavesBehind stop past m :=
  ⟨fun _ _ _ returns => Job.failsAt_of_returns returns, fun _ held _ _ _ fails =>
    ⟨fails.reached, fun answer w => Job.finish_ends answer held _ w, fails.leaves⟩⟩

/-! ## A tally and its audit -/

section Tally

open Demo

/-- Adds what is posted to the same tally a second time, and does not resolve conflicts. -/
def auditing : Saga Tally Posting :=
  { Tally.saga false with name := "saga.audit" }

/-- Five are posted to a tally of ten, by both sagas. -/
def audited : Job Tally Posting :=
  ⟨.default, false, .logAndSkip,
    (Registry.empty.add "demo.post" (.saga (Tally.saga false))).add "demo.post" (.saga auditing),
    Tally.post "rent" 5, false⟩

def auditedFrom : Store :=
  (Store.empty.insert (Tally.dataType.toDocument ⟨⟨Tally.number 1, .initial⟩, "rent", 10⟩)
    [⟨"Name", .string "rent"⟩]).2

def auditedRun : Option (Processed Tally Posting) × Store × List (Exchange Posting) :=
  audited.program.run (Program.traced fun request s => s.serve (obliging .nil) request)
    (auditedFrom, [])

/-- The first of the two sagas has written its five, and the second one fails: it has tried to write
once, in vain. -/
theorem audit_stops_after_posting : ∃ m past e, auditedRun.1 = some (m, .error e) ∧
    auditedRun.2.2 = past ∧ (calls past).map (·.takesEffect) = [false, true] ∧
    ∃ held early, audited.FailsAt (.write 1) held early m e ∧
      audited.LeavesBehind (.write 1) early m := by
  have ran : ∃ m e, auditedRun = (some (m, .error e), auditedRun.2.1, auditedRun.2.2) ∧
      (calls auditedRun.2.2).map (·.takesEffect) = [false, true] := ⟨_, _, rfl, rfl⟩
  obtain ⟨m, e, ran, called⟩ := ran
  have returns := Program.returns_of_run ran
  obtain ⟨stop, held, early, late, fails, ended, same⟩ := (failure_stops audited).1 _ _ _ returns
  have leaves := ((failure_stops audited).2 _ _ _ _ _ fails).2.2
  refine ⟨m, _, e, congrArg Prod.fst ran, rfl, called, held, early, ?_⟩
  have silent : calls late = [] :=
    calls_eq_nil fun x member => ((Job.returns_finish ended).2 x member).not_write
  rw [same, calls_append, silent, List.nil_append] at called
  have called_something : ¬ ∀ x ∈ early, x.request.isWrite = false := fun quiet => by
    simp [calls_eq_nil quiet] at called
  suffices stop = .write 1 by
    subst this
    exact ⟨fails, leaves⟩
  cases stop with
  | rules => exact absurd (fun x member => (leaves.2 x member).not_write) called_something
  | locks => exact absurd (fun x member => (leaves.2 x member).not_write) called_something
  | binding => exact absurd (fun x member => (leaves.2 x member).not_write) called_something
  | handler place => exact absurd leaves.1 called_something
  | write number =>
    -- One call has taken effect, so one item comes before the one that has failed.
    obtain ⟨bindings, _, m₀, _, -, -, ⟨⟨item, _, _, planned, -⟩, effects⟩⟩ := leaves
    have one : (early.filter (·.takesEffect)).length = 1 := by
      have counted := congrArg (List.filter id) called
      rw [List.filter_map] at counted
      rw [← filter_takesEffect_calls]
      simpa using congrArg List.length counted
    have before := effects.length_eq
    rw [List.length_reverse, one, List.length_take,
      min_eq_left (Nat.le_of_lt (List.getElem?_eq_some_iff.1 planned).1)] at before
    rw [before]

end Tally

end Sagas
