import Sagas.Proofs.Committing
import Sagas.Proofs.Plan

/-!
# A message that one handler sees

If a single saga sees a message, every stage of the message is a step on one invocation. The rules
below reduce what a stage keeps to what that step keeps.

Results:
1. `Job.invocations_of_alone`: the message before anything is bound.
2. `keeps_bindings_alone`, `keeps_bindAll_alone`: its one binding, and binding its one instance.
3. `keeps_dispatch_alone`, `keeps_persist_alone`: its one handler, and writing its one instance.
4. `keeps_dispatch_skipped`, `keeps_persist_unheld`: a handler that is skipped, or has no instance.
-/

namespace Sagas

variable {D B σ : Type} {c : Contract B σ}

theorem Job.invocations_of_alone {job : Job D B} {handler : Handler D B}
    (alone : job.incoming.invocations.map (·.handler) = [handler]) :
    job.incoming.invocations = [.start handler job.delivery.message (!job.pooled)] := by
  rw [Job.invocations_incoming] at alone ⊢
  unfold Registry.invocations at alone ⊢
  rw [List.map_map] at alone
  obtain ⟨registration, routed, rfl⟩ := List.map_eq_singleton_iff.1 alone
  rw [routed]
  rfl

namespace Incoming

variable {m : Incoming D B} {i : Invocation D B} {saga : Saga D B} {s : σ} {send : Send B}
  {post : Processed D B → σ → Prop}

theorem keeps_bindings_alone {rules : RuleSet B} {chosen : List (Rule B)}
    (alone : m.invocations = [i]) (isSaga : i.handler = .saga saga)
    (owed : c.owes s (.rules saga.type))
    (answered : ∀ reply, c.expects s (.rules saga.type) reply →
      reply = .ok rules ∧ c.next s (.rules saga.type) reply = s)
    (accepted : rules.forMessage m.message = .ok chosen) :
    m.bindings.Keeps c s fun r t => t = s ∧ r = .ok [⟨0, chosen, rules.indexed⟩] := by
  have saga? : i.saga? = some saga := by simp [Invocation.saga?, isSaga, Handler.saga?]
  unfold bindings
  rw [alone, bindingsFrom, saga?]
  refine Program.keeps_call_bind owed fun reply expected => ?_
  obtain ⟨rfl, same⟩ := answered reply expected
  simp only [accepted]
  exact ⟨same, rfl⟩

/-- The one binding of a message, if its saga is answered rules that are for the message. -/
theorem keeps_bindings_answered (alone : m.invocations = [i]) (isSaga : i.handler = .saga saga)
    (owed : c.owes s (.rules saga.type)) :
    m.bindings.Keeps c s fun r t => ∃ reply, c.expects s (.rules saga.type) reply ∧
      t = c.next s (.rules saga.type) reply ∧
      match r with
      | .error e => ∃ cause, e = .configuration cause
      | .ok bindings => ∃ rules chosen, reply = .ok rules ∧
        rules.forMessage m.message = .ok chosen ∧ bindings = [⟨0, chosen, rules.indexed⟩] := by
  have saga? : i.saga? = some saga := by simp [Invocation.saga?, isSaga, Handler.saga?]
  unfold bindings
  rw [alone, bindingsFrom, saga?]
  refine Program.keeps_call_bind owed fun reply expected => ?_
  cases reply with
  | error e => exact ⟨_, expected, rfl, e, rfl⟩
  | ok rules =>
    cases accepted : rules.forMessage m.message with
    | error e =>
      simp only [accepted]
      exact ⟨_, expected, rfl, e, rfl⟩
    | ok chosen =>
      simp only [accepted]
      exact ⟨_, expected, rfl, rules, chosen, rfl, accepted, rfl⟩

theorem put_alone (alone : m.invocations = [i]) (j : Invocation D B) :
    m.put 0 j = { m with invocations := [j] } := by
  simp [put, alone]

theorem keeps_onInvocation_alone (alone : m.invocations = [i])
    {step : Invocation D B → Program B (Invocation D B × Except SagaError Unit)}
    (keeps : (step i).Keeps c s fun r t => post ({ m with invocations := [r.1] }, r.2) t) :
    (onInvocation 0 step m).Keeps c s post := by
  refine keeps_onInvocation (by simp [alone]) fun j place => ?_
  obtain rfl : i = j := by simpa [alone] using place
  exact keeps.imp fun r t ended => put_alone alone r.1 ▸ ended

/-- The only step of a stage. -/
theorem keeps_inTurn_single {step : Continuation D B} (keeps : (step m).Keeps c s post) :
    (inTurn [step] m).Keeps c s post := by
  refine keeps_inTurn_cons (keeps.imp ?_)
  rintro ⟨m, answer⟩ t ended
  cases answer with
  | ok => exact ended
  | error e => exact ended

theorem keeps_bindAll_alone {onMiss : MissHandler D B} {chosen indexed : List (Rule B)}
    (alone : m.invocations = [i])
    (binds : (bindOne onMiss m.message m.context chosen i).Keeps c s fun r t =>
      post ({ m with invocations := [r.1] }, r.2) t) :
    (bindAll onMiss [⟨0, chosen, indexed⟩] m).Keeps c s post :=
  keeps_inTurn_single (keeps_onInvocation_alone alone binds)

theorem keeps_dispatch_alone {next : Continuation D B} (alone : m.invocations = [i])
    (runs : i.skipped = false)
    (invokes : (i.invoke send m.context).Keeps c s fun r t =>
      match r.2 with
      | .ok () => (next { m with invocations := [r.1] }).Keeps c t post
      | .error e => post ({ m with invocations := [r.1] }, .error (.handler e)) t) :
    (Stage.dispatch send next m).Keeps c s post := by
  unfold Stage.dispatch
  rw [alone, Stage.dispatchAll, if_neg (by simp [runs]), Program.bind_assoc]
  refine invokes.bind ?_
  rintro ⟨j, answer⟩ t follows
  cases answer with
  | ok => exact follows
  | error e => exact follows

/-- A handler that is skipped leaves everything as it is. -/
theorem keeps_dispatch_skipped {next : Continuation D B} (alone : m.invocations = [i])
    (skipped : i.skipped = true) (notes : ∀ entry, c.Ignores (.note entry))
    (follows : (next m).Keeps c s post) : (Stage.dispatch send next m).Keeps c s post := by
  unfold Stage.dispatch
  rw [alone, Stage.dispatchAll, if_pos skipped]
  refine Program.keeps_ignored_bind (notes _) fun _ => ?_
  have same : { m with invocations := [i] } = m := by rw [← alone]
  show (next { m with invocations := [i] }).Keeps c s post
  rwa [same]

/-- Of the one instance, what its handler left is written. -/
theorem keeps_persist_alone {inst : Instance D} {maxAttempts : Nat} {chosen indexed : List (Rule B)}
    (alone : m.invocations = [i]) (runs : i.skipped = false) (isSaga : i.handler = .saga saga)
    (isBound : i.bound = some inst) (notes : ∀ entry, c.Ignores (.note entry))
    (unchanged : c.Ignores (.count .unchanged))
    (writes : (inTurn (
      if inst.completed then
        if inst.isNew then [] else [onInvocation 0 fun i => do return (i, ← Commit.delete i)]
      else if inst.unchanged then []
      else [onInvocation 0 (Commit.persist send maxAttempts (RuleSet.distinctPaths [] indexed)
        (if inst.isNew then .insert else .update))]) m).Keeps c s post) :
    (persist send maxAttempts [⟨0, chosen, indexed⟩] m).Keeps c s post := by
  have only : Touched.holders m.invocations [⟨0, chosen, indexed⟩] =
      [(saga.dataType.id inst.data, (0, i), indexed)] := by
    rw [alone]
    simp [Touched.holders, runs, Touched.id?_of_bound isSaga isBound]
  have flags : i.isCompleted = inst.completed ∧ i.isUnchanged = inst.unchanged ∧
      i.isNew = inst.isNew := by
    simp [Invocation.isCompleted, Invocation.isUnchanged, Invocation.isNew, isBound]
  refine keeps_persist notes unchanged ?_
  rw [writes_of_single only, flags.1, flags.2.1, flags.2.2]
  exact writes

/-- A new instance is inserted, unless its handler has completed it or marked it as unchanged. -/
theorem keeps_persist_new {inst : Instance D} {maxAttempts : Nat} {chosen indexed : List (Rule B)}
    (alone : m.invocations = [i]) (runs : i.skipped = false) (isSaga : i.handler = .saga saga)
    (isBound : i.bound = some inst) (isNew : inst.isNew = true)
    (notes : ∀ entry, c.Ignores (.note entry)) (unchanged : c.Ignores (.count .unchanged))
    (unwritten : post (m, .ok ()) s)
    (inserts : (Commit.persist send maxAttempts (RuleSet.distinctPaths [] indexed) .insert i).Keeps
      c s fun r t => post ({ m with invocations := [r.1] }, r.2) t) :
    (persist send maxAttempts [⟨0, chosen, indexed⟩] m).Keeps c s post := by
  refine keeps_persist_alone alone runs isSaga isBound notes unchanged ?_
  simp only [isNew, if_true]
  split
  next => exact unwritten
  next =>
    split
    next => exact unwritten
    next => exact keeps_inTurn_single (keeps_onInvocation_alone alone inserts)

/-- If no instance is held, nothing is written. -/
theorem keeps_persist_unheld {maxAttempts : Nat} {chosen indexed : List (Rule B)}
    (alone : m.invocations = [i]) (unheld : i.skipped = true ∨ i.bound = none)
    (notes : ∀ entry, c.Ignores (.note entry)) (unchanged : c.Ignores (.count .unchanged))
    (ended : post (m, .ok ()) s) :
    (persist send maxAttempts [⟨0, chosen, indexed⟩] m).Keeps c s post := by
  have none : Touched.holders m.invocations [⟨0, chosen, indexed⟩] = [] := by
    refine List.eq_nil_iff_forall_not_mem.2 ?_
    rintro ⟨id, ⟨index, j⟩, rules⟩ member
    obtain ⟨b, known, rfl, -, place, runs, holds⟩ := Touched.mem_holders.1 member
    obtain rfl := List.mem_singleton.1 known
    obtain rfl : i = j := by simpa [alone] using place
    rcases unheld with skipped | unbound
    · exact nomatch runs.symm.trans skipped
    · exact Touched.bound_of_id? holds unbound
  refine keeps_persist notes unchanged ?_
  rw [Touched.groups_eq, none]
  exact ended

end Incoming

end Sagas
