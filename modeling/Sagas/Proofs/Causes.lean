import Sagas.Proofs.Failure

/-!
# What goes wrong where

Every point at which a message can fail raises errors of its own kinds. So an error tells how far
the message has come: a configuration error comes before anything else, a lost write after
everything else.

Results:
1. `keeps_bindings_causes` to `keeps_task_causes`: the errors of each stage.
2. `FailsAt.raises`: what fails at a point, raises an error of that point.
3. `not_fails_logAndSkip`, `eq_of_fails_failOnMissing`: the errors of the error handlers at hand.
-/

namespace Sagas

variable {D B : Type} {onMiss : MissHandler D B}

/-- The error handler can fail a message with this. -/
def MissHandler.Fails (onMiss : MissHandler D B) (e : SagaError) : Prop :=
  ∃ rules i message, (onMiss.react rules i message).EndsIn (.fail e)

theorem MissHandler.not_fails_logAndSkip (e : SagaError) :
    ¬ (logAndSkip : MissHandler D B).Fails e := by
  rintro ⟨rules, i, message, ⟨⟩⟩

theorem MissHandler.eq_of_fails_failOnMissing {e : SagaError}
    (fails : (failOnMissing : MissHandler D B).Fails e) :
    ∃ name type, e = .correlationFailed name type := by
  obtain ⟨rules, i, message, ⟨⟩⟩ := fails
  exact ⟨_, _, rfl⟩

/-- The kinds of errors that are raised at a point, given who is asked about missing instances. -/
def Stop.Raises (onMiss : MissHandler D B) : Stop → SagaError → Prop
  | .rules, .configuration _ => True
  | .locks, .lockTimeout _ | .locks, .lock _ => True
  | .binding, .storage _ | .binding, .handler _ => True
  | .binding, e => onMiss.Fails e
  | .handler _, .handler _ => True
  | .write _, .storage _ | .write _, .handler _ | .write _, .concurrency ..
  | .write _, .conflictRetriesExhausted .. | .write _, .sagaVanished .. => True
  | _, _ => False

theorem MissHandler.Fails.raises {e : SagaError} (fails : onMiss.Fails e) :
    Stop.binding.Raises onMiss e := by
  cases e with
  | storage | handler => trivial
  | _ => exact fails

/-- The contract says nothing of what a message asks for before its handlers run. -/
structure Contract.IgnoresPreparing {σ : Type} (c : Contract B σ) : Prop extends
    c.IgnoresLocks where
  rules : ∀ saga, c.Ignores (.rules saga)
  find : ∀ dataType property value, c.Ignores (.find dataType property value)
  freshId : c.Ignores .freshId
  loaded : c.Ignores (.count .loaded)
  created : c.Ignores (.count .created)
  missed : c.Ignores (.count .correlationMiss)

/-- The contract of programs that may ask for anything and get any answer. -/
abbrev anything : Contract B Unit :=
  Program.asking fun _ => True

theorem anything_ignores (request : Request B) : anything.Ignores request :=
  ⟨fun _ => trivial, fun _ _ => rfl⟩

theorem anything_preparing : (anything (B := B)).IgnoresPreparing where
  note _ := anything_ignores _
  acquire _ _ := anything_ignores _
  release _ := anything_ignores _
  rules _ := anything_ignores _
  find _ _ _ := anything_ignores _
  freshId := anything_ignores _
  loaded := anything_ignores _
  created := anything_ignores _
  missed := anything_ignores _

theorem anything_acts : (anything (B := B)).IgnoresActs Send.request where
  send _ _ := ⟨trivial, fun _ _ => rfl⟩
  draw _ := anything_ignores _
  note _ := anything_ignores _
  shutdown := anything_ignores _

/-- Whatever a program returns, by whatever answers. -/
theorem Program.Returns.anyhow {α : Type} {p : Program B α} {past : List (Exchange B)} {a : α}
    {post : α → Prop} (returns : p.Returns past a) (keeps : p.Keeps anything () fun a _ => post a) :
    post a := by
  have met : ∀ past : List (Exchange B), anything.Met () past := by
    intro past
    induction past with
    | nil => trivial
    | cons x earlier ih => exact ⟨ih, trivial⟩
  exact returns.keeps keeps (met past)

/-- If it fails, the error satisfies `raised`. -/
def Raising {α : Type} (raised : SagaError → Prop) (answer : Except SagaError α) : Prop :=
  ∀ e, answer = .error e → raised e

theorem raising_ok {α : Type} {raised : SagaError → Prop} (a : α) :
    Raising raised (.ok a : Except SagaError α) :=
  nofun

theorem raising_error {α : Type} {raised : SagaError → Prop} {e : SagaError} (isRaised : raised e) :
    Raising raised (.error e : Except SagaError α) := by
  intro e' same
  exact Except.error.inj same ▸ isRaised

namespace Incoming

variable {σ : Type} {c : Contract B σ} (ignores : c.IgnoresPreparing) (s : σ)

/-! ## Before the handlers -/

include ignores

theorem keeps_bindings_causes (onMiss : MissHandler D B) (m : Incoming D B) :
    m.bindings.Keeps c s fun r t => Raising (Stop.rules.Raises onMiss) r ∧ t = s := by
  unfold Incoming.bindings
  generalize 0 = index, m.invocations = invocations
  induction invocations generalizing index with
  | nil => exact ⟨raising_ok _, rfl⟩
  | cons i rest ih =>
    rw [bindingsFrom]
    split
    next => exact ih _
    next saga _ =>
      refine Program.keeps_ignored_bind (ignores.rules _) fun reply => ?_
      cases reply with
      | error e => exact ⟨raising_error trivial, rfl⟩
      | ok rules =>
        cases chosen : rules.forMessage m.message with
        | error e =>
          simp only [chosen]
          exact ⟨raising_error trivial, rfl⟩
        | ok forMessage =>
          simp only [chosen]
          refine (ih _).bind ?_
          rintro r t ⟨raised, rfl⟩
          cases r with
          | error e => exact ⟨raised, rfl⟩
          | ok bindings => exact ⟨raising_ok _, rfl⟩

theorem keeps_acquireAll_causes (token : CancelToken) (keys held : List String) :
    (acquireAll (B := B) token held keys).Keeps c s fun r t =>
      Raising (Stop.locks.Raises onMiss) r ∧ t = s := by
  have releases := keeps_releaseAll ignores.toIgnoresLocks
  induction keys generalizing held with
  | nil => exact ⟨raising_ok _, rfl⟩
  | cons key rest ih =>
    refine Program.keeps_ignored_bind (ignores.acquire key token) fun reply => ?_
    rcases reply with e | _ | _
    · exact (releases held s).bind fun _ _ same => ⟨raising_error trivial, same⟩
    · refine Program.keeps_ignored_bind (ignores.note _) fun _ => ?_
      exact (releases held s).bind fun _ _ same => ⟨raising_error trivial, same⟩
    · exact ih (key :: held)

theorem keeps_takeLocks_causes (job : Job D B) (bindings : List (Binding B)) :
    (job.takeLocks bindings).Keeps c s fun r t =>
      Raising (Stop.locks.Raises job.onMiss) r ∧ t = s := by
  unfold Job.takeLocks
  cases job.locking with
  | false => exact ⟨raising_ok _, rfl⟩
  | true =>
    refine (keeps_lockKeys ignores.note _ _ _ s).bind ?_
    rintro keys t ⟨rfl, -⟩
    exact keeps_acquireAll_causes ignores t _ keys []

theorem keeps_create_ignored (i : Invocation D B) (values : List PropertyValue) :
    (i.create values).Keeps c s fun _ t => t = s := by
  cases handler : i.handler with
  | plain name run =>
    unfold Invocation.create
    rw [handler]
    rfl
  | saga saga =>
    exact Invocation.keeps_create ignores.note handler (ignores.freshId.owes s)
      fun fresh _ => ignores.freshId.next s fresh

theorem keeps_bindOne_causes (message : Message B) (context : Context)
    (rules : List (Rule B)) (i : Invocation D B) :
    (bindOne onMiss message context rules i).Keeps c s fun r t =>
      Raising (Stop.binding.Raises onMiss) r.2 ∧ t = s := by
  -- A lookup leaves the contract where it is, whatever it comes to.
  have looks : (lookUp message context [] rules).Keeps c s fun _ t => t = s := by
    refine (keeps_lookUp ignores.note (fun _ _ _ => (ignores.find _ _ _).next _ _)
      (fun _ _ _ _ => (ignores.find _ _ _).owes _) []).imp fun result t looked => ?_
    rcases result with e | ⟨r, d⟩ | values
    · obtain ⟨-, -, -, -, -, rfl⟩ := looked
      exact (ignores.find _ _ _).next _ _
    · obtain ⟨-, -, -, -, rfl⟩ := looked
      exact (ignores.find _ _ _).next _ _
    · exact looked.1
  refine looks.bind ?_
  rintro result t rfl
  rcases result with e | ⟨r, d⟩ | values
  · exact ⟨raising_error trivial, rfl⟩
  · refine (Invocation.keeps_load ignores.note i d false t).bind ?_
    rintro ⟨j, answer⟩ t ⟨rfl, -⟩
    cases answer with
    | error e => exact ⟨raising_error trivial, rfl⟩
    | ok =>
      refine Program.keeps_ignored_bind ignores.loaded fun _ => ?_
      exact Program.keeps_ignored_bind (ignores.note _) fun _ => ⟨raising_ok _, rfl⟩
  · show (ite _ _ _ : Program B _).Keeps _ _ _
    split
    next =>
      refine (keeps_create_ignored ignores t i values).bind ?_
      rintro ⟨j, answer⟩ t rfl
      cases answer with
      | error e => exact ⟨raising_error trivial, rfl⟩
      | ok id =>
        refine Program.keeps_ignored_bind ignores.created fun _ => ?_
        exact Program.keeps_ignored_bind (ignores.note _) fun _ => ⟨raising_ok _, rfl⟩
    next =>
      refine keeps_bindNone ignores.note (ignores.missed.owes t) (ignores.missed.next t ())
        (fun _ => ⟨raising_ok _, rfl⟩) (fun values _ => ?_) (fun _ => ⟨raising_ok _, rfl⟩)
        (fun e decided => ⟨raising_error (MissHandler.Fails.raises ⟨_, _, _, decided⟩), rfl⟩)
      refine (keeps_create_ignored ignores t i values).imp ?_
      rintro ⟨j, answer⟩ t rfl
      cases answer with
      | error e => exact ⟨raising_error trivial, rfl⟩
      | ok id => exact ⟨raising_ok _, rfl⟩

theorem keeps_bindAll_causes (dies : c.dies) (onMiss : MissHandler D B)
    (bindings : List (Binding B)) (m : Incoming D B) :
    (bindAll onMiss bindings m).Keeps c s fun r t =>
      Raising (Stop.binding.Raises onMiss) r.2 ∧ t = s := by
  refine (keeps_each (fun _ _ t => t = s) (fun _ e t => Stop.binding.Raises onMiss e ∧ t = s) ?_
    rfl).imp ?_
  · rintro b left now t rfl
    refine keeps_onInvocation (fun _ => dies) fun i _ => ?_
    refine (keeps_bindOne_causes ignores t m.message m.context b.rules i).imp ?_
    rintro ⟨j, answer⟩ t ⟨raised, rfl⟩
    cases answer with
    | error e => exact ⟨raised e rfl, rfl⟩
    | ok => rfl
  · rintro ⟨now, answer⟩ t ended
    cases answer with
    | error e => exact ⟨raising_error ended.1, ended.2⟩
    | ok => exact ⟨raising_ok _, ended⟩

end Incoming

/-- Handlers change nothing that a contract says nothing of. -/
theorem Incoming.keeps_handle_ignored {σ : Type} {c : Contract B σ}
    (acts : c.IgnoresActs Send.request) (dies : c.dies) (m : Incoming D B) (s : σ) :
    (Incoming.handle m).Keeps c s fun _ t => t = s := by
  refine Stage.keeps_dispatch (fun _ _ => True) True acts.note (fun _ => trivial) ?_
    (fun _ _ _ _ => rfl) (fun _ _ => rfl)
  intro i _ _
  refine (Invocation.keeps_invoke (fun _ _ _ => True) dies acts
    fun _ _ _ _ => Act.ends_of_forall (fun _ => trivial) _).imp ?_
  exact fun _ _ ended => ⟨ended.1, trivial, fun _ _ => trivial⟩

/-! ## Writes -/

namespace Commit

variable {rules : List (Rule B)} {attempt maxAttempts number : Nat} {mode : Mode}
  {i : Invocation D B}

/-- A resolution changes nothing that a contract says nothing of. -/
theorem keeps_resolve_ignored {σ : Type} {c : Contract B σ} (acts : c.IgnoresActs Send.request)
    (dies : c.dies) (i : Invocation D B) (fresh : Document) (s : σ) :
    (i.resolve .request fresh).Keeps c s fun _ t => t = s := by
  refine Invocation.keeps_resolve_of_merge acts.note ?_
  unfold Invocation.merge
  split
  next => rfl
  next saga _ =>
    split
    next => rfl
    next stored _ =>
      split
      next => rfl
      next inst _ =>
        refine ((Act.ends_of_forall (fun _ => trivial) _).keeps (.inl dies) acts s).bind ?_
        rintro ⟨data, outcome⟩ t ⟨-, rfl⟩
        cases outcome <;> rfl

theorem keeps_write_anyhow {post : Except StorageError Document → Unit → Prop}
    (document : Document) (values : List PropertyValue) (all : ∀ reply, post reply ()) :
    (write (B := B) mode document values).Keeps anything () post := by
  cases mode <;> exact ⟨trivial, fun reply _ => all reply⟩

theorem keeps_resolveConflict_causes {document : Document} {values : List PropertyValue}
    {again : Invocation D B → Program B (Outcome D B)}
    (further : ∀ j, (again j).Keeps anything () fun r _ =>
      Raising ((Stop.write number).Raises onMiss) r.2) :
    (resolveConflict .request attempt mode document values again i).Keeps anything () fun r _ =>
      Raising ((Stop.write number).Raises onMiss) r.2 := by
  have fetches := (asks_fetchFresh (B := B) document values mode).keeps
    (fun request _ => anything_ignores request) ()
  refine keeps_resolveConflict anything_preparing.note (fetches.imp fun found _ _ => ?_)
  rcases found with e | _ | fresh
  · exact raising_error trivial
  · exact raising_error trivial
  · refine (keeps_resolve_ignored anything_acts trivial i fresh ()).imp ?_
    rintro ⟨merged, answer⟩ _ -
    cases answer with
    | error e => exact raising_error trivial
    | ok => exact Program.keeps_ignored_bind (anything_ignores _) fun _ => further merged

theorem keeps_round_causes {again : Option (Invocation D B → Program B (Outcome D B))}
    (further : ∀ more ∈ again, ∀ j, (more j).Keeps anything () fun r _ =>
      Raising ((Stop.write number).Raises onMiss) r.2) :
    (round .request rules attempt mode again i).Keeps anything () fun r _ =>
      Raising ((Stop.write number).Raises onMiss) r.2 := by
  cases held : i.instance? with
  | none =>
    rw [round_of_unbound held]
    exact raising_error trivial
  | some inst =>
    obtain ⟨saga, inst⟩ := inst
    obtain ⟨isSaga, isBound⟩ := Invocation.of_instance? held
    refine keeps_round isSaga isBound anything_preparing.note (anything_ignores _)
      (anything_ignores _) (keeps_write_anyhow _ _ fun reply => ?_)
    cases reply with
    | ok stored => exact raising_ok _
    | error e =>
      cases e with
      | backend reason => exact raising_error trivial
      | serialization e => exact raising_error trivial
      | conflict reason =>
        show ite _ _ _
        split
        next =>
          cases again with
          | none => exact raising_error trivial
          | some again => exact keeps_resolveConflict_causes (further again rfl)
        next => exact raising_error trivial

theorem keeps_persist_causes :
    (persist .request maxAttempts rules mode i).Keeps anything () fun r _ =>
      Raising ((Stop.write number).Raises onMiss) r.2 := by
  refine keeps_rounds (fun _ _ _ _ => True) ?_ ?_ trivial
  · intro attempt mode i _ _
    exact keeps_round_causes nofun
  · intro more attempt mode again i _ _ further
    refine keeps_round_causes fun _ same j => ?_
    exact Option.some.inj same ▸ further j () trivial

theorem keeps_delete_causes (i : Invocation D B) :
    (delete i).Keeps anything () fun answer _ =>
      Raising ((Stop.write number).Raises onMiss) answer := by
  unfold delete
  split
  next => exact raising_error trivial
  next document _ =>
    refine Program.keeps_ignored_bind (anything_ignores _) fun reply => ?_
    cases reply with
    | ok => exact Program.keeps_ignored_bind (anything_ignores _) fun _ => raising_ok _
    | error e =>
      cases e with
      | backend reason => exact raising_error trivial
      | serialization e => exact raising_error trivial
      | conflict reason =>
        refine Program.keeps_ignored_bind (anything_ignores _) fun _ => ?_
        exact Program.keeps_ignored_bind (anything_ignores _) fun _ => raising_error trivial

theorem keeps_task_causes (item : Planned B) (i : Invocation D B) :
    ((item.task .request maxAttempts).2 i).Keeps anything () fun r _ =>
      Raising ((Stop.write number).Raises onMiss) r.2 := by
  cases item with
  | write mode place rules => exact keeps_persist_causes
  | delete place => exact (keeps_delete_causes i).bind fun answer _ raised => raised

end Commit

/-- What fails at a point, raises an error of that point. -/
theorem Job.FailsAt.raises {job : Job D B} {stop : Stop} {held : List String}
    {past : List (Exchange B)} {m : Incoming D B} {e : SagaError}
    (fails : job.FailsAt stop held past m e) : stop.Raises job.onMiss e := by
  cases fails with
  | rules fails =>
    have raising := Incoming.keeps_bindings_causes anything_preparing () job.onMiss job.incoming
    exact fails.anyhow (raising.imp fun _ _ ended => ended.1) e rfl
  | @locks bindings _ _ _ _ fails =>
    have raising := Incoming.keeps_takeLocks_causes anything_preparing () job bindings
    exact fails.anyhow (raising.imp fun _ _ ended => ended.1) e rfl
  | @binding bindings _ _ _ _ _ _ fails =>
    have raising := Incoming.keeps_bindAll_causes anything_preparing () trivial job.onMiss
      bindings job.incoming
    exact fails.anyhow (raising.imp fun _ _ ended => ended.1) e rfl
  | handler => trivial
  | write _ _ _ _ _ fails => exact fails.anyhow (Commit.keeps_task_causes _ _) e rfl

end Sagas
