import Sagas.Proofs.Causes

/-!
# Counting the calls of storage

A call of storage that is granted is counted before the next one is made, and so is one that has
lost. A conflict that has been counted is resolved, which is counted too, or it ends the message:
nothing is written while one is left.

Results:
1. `keeps_task_counting`: one item of a plan, with all its rounds.
2. `Job.keeps_counting`: a message counts whatever it calls.
3. `Job.contested_iff`: a message that has ended has a conflict left if it has failed on one.
-/

namespace Sagas

variable {D B : Type}

/-! ## Phases -/

/-- How far a message has counted its calls. -/
inductive CallPhase where
  | settled
  /-- A call has been granted that is yet to be counted here. -/
  | granted (counter : Counter)
  /-- A call has lost that is yet to be counted. -/
  | lost
  /-- A conflict has been counted, and not been resolved. -/
  | contested
  deriving DecidableEq

namespace CallPhase

/-- A count goes with the phase that it ends. -/
def admits (phase : CallPhase) : Request B → Prop
  | .insert .. | .update .. | .delete _ => phase = .settled
  | .count .inserted => phase = .granted .inserted
  | .count .updated => phase = .granted .updated
  | .count .deleted => phase = .granted .deleted
  | .count .conflict => phase = .lost
  | .count .conflictResolved => phase = .contested
  | _ => True

def next (phase : CallPhase) : (request : Request B) → Reply request → CallPhase
  | .insert .., .ok _ => .granted .inserted
  | .update .., .ok _ => .granted .updated
  | .delete _, .ok _ => .granted .deleted
  | .insert .., .error (.conflict _) => .lost
  | .update .., .error (.conflict _) => .lost
  | .delete _, .error (.conflict _) => .lost
  | .count .inserted, _ | .count .updated, _ | .count .deleted, _ => .settled
  | .count .conflict, _ => if phase = .lost then .contested else phase
  | .count .conflictResolved, _ => .settled
  | _, _ => phase

end CallPhase

/-- The contract of messages that count their calls, over a store whose lookups do not fail. -/
def counting : Contract B CallPhase where
  owes := CallPhase.admits
  expects _ request reply :=
    match request, reply with
    | .find .., .error _ => False
    | _, _ => True
  next := CallPhase.next

theorem counting_locks : (counting (B := B)).IgnoresLocks where
  note _ := ⟨fun _ => trivial, fun _ _ => rfl⟩
  acquire _ _ := ⟨fun _ => trivial, fun _ _ => rfl⟩
  release _ := ⟨fun _ => trivial, fun _ _ => rfl⟩

theorem counting_preparing : (counting (B := B)).IgnoresPreparing where
  toIgnoresLocks := counting_locks
  rules _ := ⟨fun _ => trivial, fun _ _ => rfl⟩
  find _ _ _ := ⟨fun _ => trivial, fun _ _ => rfl⟩
  freshId := ⟨fun _ => trivial, fun _ _ => rfl⟩
  loaded := ⟨fun _ => trivial, fun _ _ => rfl⟩
  created := ⟨fun _ => trivial, fun _ _ => rfl⟩
  missed := ⟨fun _ => trivial, fun _ _ => rfl⟩

theorem counting_acts : (counting (B := B)).IgnoresActs Send.request where
  send _ _ := ⟨trivial, fun _ _ => rfl⟩
  draw _ := ⟨fun _ => trivial, fun _ _ => rfl⟩
  note _ := ⟨fun _ => trivial, fun _ _ => rfl⟩
  shutdown := ⟨fun _ => trivial, fun _ _ => rfl⟩

/-- Without a call there is nothing to count. -/
theorem settled_of_quiet {past : List (Exchange B)}
    (quiet : ∀ x ∈ past, x.request.isWrite = false) :
    counting.after .settled past = .settled := by
  induction past with
  | nil => rfl
  | cons x earlier ih =>
    obtain ⟨first, others⟩ := List.forall_mem_cons.1 quiet
    show CallPhase.next (counting.after .settled earlier) x.request x.reply = _
    rw [ih others]
    obtain ⟨request, reply⟩ := x
    cases request with
    | insert | update | delete => cases first
    | count counter => cases counter <;> rfl
    | _ => rfl

/-! ## Commits and deletions -/

namespace Commit

/-- Where a commit or a deletion of a bound instance leaves its message. -/
def phaseOf : Except SagaError Unit → CallPhase
  | .ok () | .error (.storage _) => .settled
  | .error _ => .contested

variable {rules : List (Rule B)} {attempt : Nat} {mode : Mode} {i : Invocation D B}
  {saga : Saga D B} {inst : Instance D} {document : Document} {values : List PropertyValue}
  {phase : CallPhase}

theorem keeps_findFirst_counting (dataType : String) (values : List PropertyValue) :
    (findFirst (B := B) dataType values).Keeps counting phase fun found t =>
      found.isOk = true ∧ t = phase := by
  induction values with
  | nil => exact ⟨rfl, rfl⟩
  | cons p rest ih =>
    refine ⟨trivial, fun reply expected => ?_⟩
    rcases reply with e | _ | winner
    · exact expected.elim
    · exact ih
    · exact ⟨rfl, rfl⟩

theorem keeps_fetchFresh_counting :
    (fetchFresh (B := B) document values mode).Keeps counting phase fun found t =>
      found.isOk = true ∧ t = phase := by
  refine ⟨trivial, fun reply expected => ?_⟩
  rcases reply with e | _ | fresh
  · exact expected.elim
  · cases mode with
    | update => exact ⟨rfl, rfl⟩
    | insert => exact keeps_findFirst_counting _ _
  · exact ⟨rfl, rfl⟩

theorem keeps_write_counting :
    (write (B := B) mode document values).Keeps counting .settled fun reply t =>
      match reply with
      | .ok _ => t = .granted mode.counter
      | .error (.conflict _) => t = .lost
      | .error _ => t = .settled := by
  cases mode with
  | insert =>
    refine ⟨rfl, fun reply _ => ?_⟩
    rcases reply with (_ | _ | _) | _ <;> rfl
  | update =>
    refine ⟨rfl, fun reply _ => ?_⟩
    rcases reply with (_ | _ | _) | _ <;> rfl

/-- The count of a write that is granted. -/
theorem keeps_count_counting :
    (Program.count (B := B) mode.counter).Keeps counting (.granted mode.counter) fun _ t =>
      t = .settled := by
  cases mode <;> exact ⟨rfl, fun _ _ => rfl⟩

/-- A conflict that is resolved is counted as such, and the commit goes on with nothing left. -/
theorem keeps_resolveConflict_counting {again : Invocation D B → Program B (Outcome D B)}
    (isSaga : i.handler = .saga saga) (isBound : i.bound = some inst)
    (further : ∀ j, j.handler = .saga saga → j.bound ≠ none →
      (again j).Keeps counting .settled fun r t => t = phaseOf r.2) :
    (resolveConflict .request attempt mode document values again i).Keeps counting .contested
      fun r t => t = phaseOf r.2 := by
  refine keeps_resolveConflict counting_locks.note (keeps_fetchFresh_counting.imp ?_)
  rintro found t ⟨isOk, rfl⟩
  rcases found with e | _ | fresh
  · cases isOk
  · rfl
  · refine (Invocation.keeps_resolve trivial isSaga isBound counting_acts).imp ?_
    rintro ⟨merged, answer⟩ t ⟨rfl, same, merges⟩
    cases answer with
    | error e => rfl
    | ok =>
      refine ⟨rfl, fun _ _ => further merged (same.trans isSaga) ?_⟩
      obtain ⟨data, rfl⟩ := merges rfl
      exact nofun

theorem keeps_round_counting {again : Option (Invocation D B → Program B (Outcome D B))}
    (isSaga : i.handler = .saga saga) (isBound : i.bound ≠ none)
    (further : ∀ more ∈ again, ∀ j, j.handler = .saga saga → j.bound ≠ none →
      (more j).Keeps counting .settled fun r t => t = phaseOf r.2) :
    (round .request rules attempt mode again i).Keeps counting .settled
      fun r t => t = phaseOf r.2 := by
  obtain ⟨inst, isBound⟩ := Option.ne_none_iff_exists'.1 isBound
  have held : i.instance? = some (saga, inst) := by
    simp [Invocation.instance?, isSaga, isBound]
  unfold round Invocation.document? Invocation.values
  rw [held]
  refine keeps_write_counting.bind fun reply t called => ?_
  rcases reply with (reason | reason | e) | stored
  · -- Lost, which is counted first.
    obtain rfl : t = .lost := called
    refine ⟨rfl, fun _ _ => Program.keeps_ignored_bind (counting_locks.note _) fun _ => ?_⟩
    split
    next =>
      cases again with
      | none => exact Program.keeps_ignored_bind (counting_locks.note _) fun _ => rfl
      | some again => exact keeps_resolveConflict_counting isSaga isBound (further again rfl)
    next => rfl
  · exact called
  · exact called
  · obtain rfl : t = .granted mode.counter := called
    exact keeps_count_counting.bind fun _ _ same => same

theorem keeps_persist_counting (isSaga : i.handler = .saga saga) (isBound : i.bound ≠ none)
    (maxAttempts : Nat) :
    (persist .request maxAttempts rules mode i).Keeps counting .settled
      fun r t => t = phaseOf r.2 := by
  refine keeps_rounds (fun _ _ j t => (j.handler = .saga saga ∧ j.bound ≠ none) ∧ t = .settled)
    ?_ ?_ ⟨⟨isSaga, isBound⟩, rfl⟩
  · rintro attempt mode j _ ⟨⟨isSaga, isBound⟩, rfl⟩
    exact keeps_round_counting isSaga isBound nofun
  · rintro more attempt mode again j _ ⟨⟨isSaga, isBound⟩, rfl⟩ further
    refine keeps_round_counting isSaga isBound fun again' same k isSaga isBound => ?_
    obtain rfl := Option.some.inj same
    exact further k .settled ⟨⟨isSaga, isBound⟩, rfl⟩

theorem keeps_delete_counting (isSaga : i.handler = .saga saga) (isBound : i.bound ≠ none) :
    (delete i).Keeps counting .settled fun answer t => t = phaseOf answer := by
  obtain ⟨inst, isBound⟩ := Option.ne_none_iff_exists'.1 isBound
  have held : i.document? = some (saga.dataType.toDocument inst.data) := by
    simp [Invocation.document?, Invocation.instance?, isSaga, isBound]
  unfold delete
  rw [held]
  refine ⟨rfl, fun reply _ => ?_⟩
  rcases reply with (reason | reason | e) | _
  · refine ⟨rfl, fun _ _ => ?_⟩
    exact Program.keeps_ignored_bind (counting_locks.note _) fun _ => rfl
  · rfl
  · rfl
  · exact ⟨rfl, fun _ _ => rfl⟩

/-- One item of a plan. What is not bound is not called for. -/
theorem keeps_task_counting (item : Planned B) (i : Invocation D B) (maxAttempts : Nat) :
    ((item.task .request maxAttempts).2 i).Keeps counting .settled fun r t =>
      t = phaseOf r.2 ∨ i.id? = none ∧ (∃ e, r.2 = .error e) ∧ t = .settled := by
  cases held : i.instance? with
  | none =>
    have none : i.id? = none := by simp [Invocation.id?, held]
    refine Program.Keeps.imp ?_ fun _ _ ended => Or.inr ⟨none, ended⟩
    cases item with
    | write mode place rules =>
      show (persist .request maxAttempts rules mode i).Keeps _ _ _
      rw [persist_of_unbound held]
      exact ⟨⟨_, rfl⟩, rfl⟩
    | delete place =>
      show (delete i >>= _).Keeps _ _ _
      unfold delete Invocation.document?
      rw [held]
      exact ⟨⟨_, rfl⟩, rfl⟩
  | some inst =>
    obtain ⟨saga, inst⟩ := inst
    obtain ⟨isSaga, isBound⟩ := Invocation.of_instance? held
    refine Program.Keeps.imp ?_ fun _ _ ended => Or.inl ended
    cases item with
    | write mode place rules => exact keeps_persist_counting isSaga (by simp [isBound]) maxAttempts
    | delete place =>
      exact (keeps_delete_counting isSaga (by simp [isBound])).bind fun _ _ ended => ended

end Commit

/-! ## Messages -/

/-- A message that has succeeded has counted everything and has no conflict left. -/
def CallPhase.Rests (answer : Except SagaError Unit) (phase : CallPhase) : Prop :=
  phase = .settled ∨ phase = .contested ∧ answer ≠ .ok ()

namespace Job

variable {job : Job D B} {bindings : List (Binding B)} {held : List String} {m : Incoming D B}
  {past : List (Exchange B)} {answer : Except SagaError Unit} {stop : Stop} {e : SagaError}

theorem keeps_write_stage_counting (job : Job D B) (bindings : List (Binding B))
    (m : Incoming D B) :
    (job.write bindings m).Keeps counting .settled fun r t => t.Rests r.2 := by
  refine Incoming.keeps_persist counting_locks.note ⟨fun _ => trivial, fun _ _ => rfl⟩ ?_
  rw [WritePlan.writes_eq, WritePlan.tasks_eq, WritePlan.inOrder, List.map_map]
  refine (Incoming.keeps_each (fun _ _ t => t = .settled)
    (fun _ e t => t.Rests (.error e)) ?_ rfl).imp ?_
  · rintro item _ m _ rfl
    refine Incoming.keeps_onInvocation (fun _ => trivial) fun i _ => ?_
    refine (Commit.keeps_task_counting item i _).imp ?_
    rintro ⟨j, answer⟩ t ended
    cases answer with
    | ok => exact ended.elim id fun unbound => unbound.2.2
    | error e =>
      rcases ended with rfl | ⟨-, -, rfl⟩
      · cases e <;> first | exact .inl rfl | exact .inr ⟨rfl, by simp⟩
      · exact .inl rfl
  · rintro ⟨m, answer⟩ t ended
    cases answer with
    | ok => exact .inl ended
    | error e => exact ended

theorem keeps_counting (job : Job D B) :
    job.program.Keeps counting .settled fun r t => t.Rests r.2 := by
  have finishes : ∀ held (r : Processed D B) (t : CallPhase), t.Rests r.2 →
      (finish held r).Keeps counting t fun r t => t.Rests r.2 := fun held r t rests =>
    (keeps_finish counting_locks held r t).imp fun _ _ ended => ended.1 ▸ ended.2 ▸ rests
  rw [program_stages]
  refine (Incoming.keeps_bindings_causes counting_preparing .settled job.onMiss _).bind ?_
  rintro served t ⟨-, rfl⟩
  cases served with
  | error e => exact finishes [] (job.incoming, .error e) _ (.inl rfl)
  | ok bindings =>
    refine (Incoming.keeps_takeLocks_causes counting_preparing .settled job bindings).bind ?_
    rintro taken t ⟨-, rfl⟩
    cases taken with
    | error e => exact finishes [] (job.incoming, .error e) _ (.inl rfl)
    | ok held =>
      have stages : (Incoming.inTurn [job.bind bindings, Incoming.handle, job.write bindings]
          job.incoming).Keeps counting .settled fun r t => t.Rests r.2 := by
        refine Incoming.keeps_inTurn_cons ((Incoming.keeps_bindAll_causes counting_preparing
          .settled trivial job.onMiss bindings job.incoming).imp ?_)
        rintro ⟨m, answer⟩ t ⟨-, rfl⟩
        cases answer with
        | error e => exact .inl rfl
        | ok =>
          have handles := Incoming.keeps_handle_ignored counting_acts trivial m .settled
          refine Incoming.keeps_inTurn_cons (handles.imp ?_)
          rintro ⟨m, answer⟩ t rfl
          cases answer with
          | error e => exact .inl rfl
          | ok =>
            rw [Incoming.inTurn_single]
            exact keeps_write_stage_counting job bindings m
      exact stages.bind fun r t => finishes held r t

end Job

/-! ## Conflicts that are left -/

/-- The commit or the deletion that ends in this error, after these exchanges, leaves a conflict:
nobody resolves it, there are no attempts left, nothing is stored any more, or the stored state
could not be fetched or merged. -/
def SagaError.LeavesConflict (past : List (Exchange B)) : SagaError → Prop
  | .concurrency .. | .conflictRetriesExhausted .. | .sagaVanished .. | .handler _ => True
  | .storage cause => ∃ dataType property value earlier,
      past = ⟨.find dataType property value, .error cause⟩ :: earlier
  | _ => False

/-- A write of the message has failed, and left a conflict. -/
def Job.Unresolved (job : Job D B) (past : List (Exchange B)) : Prop :=
  ∃ number held early m e, job.FailsAt (.write number) held early m e ∧
    e.LeavesConflict early ∧ early <:+ past

/-- Writes that have succeeded have left nothing. -/
theorem Incoming.Wrote.settled {m m' : Incoming D B} {tasks : List (PlannedWrite D B)}
    {parts : List (List (Exchange B))} {maxAttempts : Nat} (wrote : m.Wrote tasks parts m')
    (planned : ∀ task ∈ tasks, ∃ item : Planned B, task = item.task .request maxAttempts)
    (met : counting.Met .settled parts.reverse.flatten) :
    counting.after .settled parts.reverse.flatten = .settled := by
  induction wrote with
  | nil => rfl
  | @cons m m' place i j task tasks part parts _ returns _ ih =>
    obtain ⟨⟨item, isTask⟩, others⟩ := List.forall_mem_cons.1 planned
    obtain rfl : task = (item.task .request maxAttempts).2 := congrArg Prod.snd isTask
    rw [List.reverse_cons, List.flatten_append, List.flatten_singleton] at met ⊢
    obtain ⟨first, later⟩ := Contract.met_append.1 met
    have here : counting.after .settled part = .settled :=
      (returns.keeps (Commit.keeps_task_counting item i _) first).elim id fun unbound =>
        unbound.2.2
    rw [here] at later
    rw [Contract.after_append, here, ih others later]

namespace Job

variable {job : Job D B} {bindings : List (Binding B)} {held : List String} {m : Incoming D B}
  {early past : List (Exchange B)} {answer : Except SagaError Unit} {stop : Stop} {e : SagaError}

/-- What is planned stays bound until its turn comes. -/
theorem Handled.holds {m m₁ : Incoming D B} {number : Nat} {item : Planned B} {i : Invocation D B}
    {parts : List (List (Exchange B))} {maxAttempts : Nat}
    (handled : job.Handled bindings held m early)
    (planned : (m.plan bindings).items[number]? = some item)
    (wrote : m.Wrote (((m.plan bindings).items.take number).map (·.task .request maxAttempts))
      parts m₁)
    (here : m₁.invocations[item.place]? = some i) : i.id? ≠ none := by
  obtain ⟨served, -, -⟩ := handled.ran (List.Subset.refl early)
  have nodup : ((m.plan bindings).items.map (·.place)).Nodup := by
    rw [WritePlan.places_items]
    exact plan_nodup served.nodup
  obtain ⟨j, place, -, holds⟩ := planned_holds (List.mem_of_getElem? planned)
  rw [untouched_of_wrote nodup planned wrote] at here
  exact Option.some.inj (place.symm.trans here) ▸ holds

theorem FailsAt.write_phase (fails : job.FailsAt stop held past m e) {number : Nat}
    (isWrite : stop = .write number) (met : counting.Met .settled past) :
    counting.after .settled past = Commit.phaseOf (.error e) := by
  cases fails with
  | @write bindings _ early middle late parts m₀ m₁ number item i j _ handled announced planned
      wrote here fails =>
    obtain ⟨-, -, quiet⟩ := handled.ran (List.Subset.refl early)
    obtain ⟨-, announcing⟩ := announced.recalled (Touched.keeps_announced _ middle)
      (List.Subset.refl middle)
    have before : counting.after .settled (middle ++ early) = .settled :=
      settled_of_quiet fun x member => (List.mem_append.1 member).elim
        (fun announces => (announcing x announces).not_write) (quiet x)
    rw [List.append_assoc] at met ⊢
    obtain ⟨met, called⟩ := Contract.met_append.1 met
    obtain ⟨-, written⟩ := Contract.met_append.1 met
    rw [before] at written
    have settled := wrote.settled (fun task member => by
      obtain ⟨item, -, rfl⟩ := List.mem_map.1 member
      exact ⟨item, rfl⟩) written
    rw [Contract.after_append, before, settled] at called
    rw [Contract.after_append, Contract.after_append, before, settled]
    refine (fails.keeps (Commit.keeps_task_counting item i _) called).elim id fun unbound => ?_
    exact absurd unbound.1 (handled.holds planned wrote here)
  | _ => cases isWrite

theorem FailsAt.contested_iff (fails : job.FailsAt stop held past m e)
    (met : counting.Met .settled past) : counting.after .settled past = .contested ↔
      (∃ number, stop = .write number) ∧ e.LeavesConflict past := by
  have settled : (∀ x ∈ past, x.request.isWrite = false) → (∀ number, stop ≠ .write number) →
      (counting.after .settled past = .contested ↔
        (∃ number, stop = .write number) ∧ e.LeavesConflict past) := by
    intro quiet other
    rw [settled_of_quiet quiet]
    exact iff_of_false nofun fun ended => ended.1.elim other
  have leaves := fails.leaves
  cases stop with
  | rules | locks | binding => exact settled (fun x member => (leaves.2 x member).not_write) nofun
  | handler place => exact settled leaves.1 nofun
  | write number =>
    have raised := fails.raises
    rw [fails.write_phase rfl met, and_iff_right ⟨number, rfl⟩]
    cases e with
    | storage cause =>
      refine iff_of_false nofun ?_
      rintro ⟨dataType, property, value, earlier, rfl⟩
      exact met.2
    | handler | concurrency | conflictRetriesExhausted | sagaVanished =>
      exact iff_of_true rfl trivial
    | _ => exact raised.elim

/-- A message that has ended has a conflict left if a write of it has failed on one. -/
theorem contested_iff (returns : job.program.Returns past (m, answer))
    (met : counting.Met .settled past) :
    counting.after .settled past = .contested ↔ job.Unresolved past := by
  -- Nothing is counted, and no conflict is met, once a message has failed.
  have stays : ∀ {stop held early m' e late r}, job.FailsAt stop held early m' e →
      (finish held (m', .error e)).Returns late r → past = late ++ early →
        counting.Met .settled early ∧
          counting.after .settled past = counting.after .settled early := by
    rintro stop held early m' e late r fails ended rfl
    obtain ⟨met, later⟩ := Contract.met_append.1 met
    rw [Contract.after_append]
    exact ⟨met, (ended.keeps (keeps_finish counting_locks held _ _) later).2⟩
  constructor
  · intro contested
    cases answer with
    | ok =>
      rcases returns.keeps job.keeps_counting met with settled | ⟨-, failed⟩
      · exact nomatch settled.symm.trans contested
      · exact absurd rfl failed
    | error e =>
      obtain ⟨stop, held, early, late, fails, ended, same⟩ := failsAt_of_returns returns
      obtain ⟨met, stayed⟩ := stays fails ended same
      obtain ⟨⟨number, rfl⟩, leaves⟩ := (fails.contested_iff met).1 (stayed ▸ contested)
      exact ⟨number, held, early, m, e, fails, leaves, same ▸ List.suffix_append _ _⟩
  · rintro ⟨number, held, early, m', e, fails, leaves, suffix⟩
    obtain ⟨late, ended, same⟩ := returns.rest fails.reached suffix
    obtain ⟨met, stayed⟩ := stays fails ended same
    exact stayed.trans ((fails.contested_iff met).2 ⟨⟨number, rfl⟩, leaves⟩)

end Job

end Sagas
