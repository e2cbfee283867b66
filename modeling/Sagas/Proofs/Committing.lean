import Sagas.Proofs.Processing

/-!
# The retry loop under a contract

What a commit keeps comes from what one round keeps, and a round is a write with what its answer
leads to. The rules below name the endings of a round one by one; counts and log entries in between
do not appear in them.

Results:
1. `keeps_round`: one write, and what follows it.
2. `keeps_resolveConflict`: fetching the state that won, and merging it.
3. `keeps_rounds`: the loop, given an invariant of its rounds.
4. `keeps_persist_granted`, `keeps_delete_granted`: commits that cannot conflict.
5. `Permits.keeps_persist`, `keeps_delete`: whole commits under a contract without a state.
-/

namespace Sagas.Commit

variable {D B σ : Type} {c : Contract B σ} {send : Send B} {rules : List (Rule B)}
  {attempt : Nat} {mode : Mode} {i : Invocation D B} {s : σ} {post : Outcome D B → σ → Prop}

theorem keeps_round {saga : Saga D B} {inst : Instance D}
    {again : Option (Invocation D B → Program B (Outcome D B))}
    (isSaga : i.handler = .saga saga) (isBound : i.bound = some inst)
    (notes : ∀ entry, c.Ignores (.note entry)) (counts : c.Ignores (.count mode.counter))
    (conflicts : c.Ignores (.count .conflict))
    (writes : (write mode (saga.dataType.toDocument inst.data)
      (Invocation.valuesOf saga inst.data rules)).Keeps c s fun reply t =>
        match reply with
        | .ok stored => post (i.adopt stored.metadata, .ok ()) t
        | .error (.conflict reason) =>
          if saga.resolvesConflicts then
            match again with
            | none => post (i, .error (.conflictRetriesExhausted i.name
                (saga.dataType.id inst.data) attempt reason)) t
            | some again => (resolveConflict send attempt mode (saga.dataType.toDocument inst.data)
                (Invocation.valuesOf saga inst.data rules) again i).Keeps c t post
          else post (i, .error (.concurrency i.name (saga.dataType.id inst.data) reason)) t
        | .error e => post (i, .error (.storage e)) t) :
    (round send rules attempt mode again i).Keeps c s post := by
  have held : i.instance? = some (saga, inst) := by simp [Invocation.instance?, isSaga, isBound]
  have resolves : i.resolvesConflicts = saga.resolvesConflicts := by
    simp [Invocation.resolvesConflicts, Invocation.saga?, Handler.saga?, isSaga]
  unfold round Invocation.document? Invocation.values
  rw [held]
  refine writes.bind fun reply t follows => ?_
  cases reply with
  | ok stored => exact Program.keeps_ignored_bind counts fun _ => follows
  | error e =>
    cases e with
    | conflict reason =>
      refine Program.keeps_ignored_bind conflicts fun _ => ?_
      refine Program.keeps_ignored_bind (notes _) fun _ => ?_
      rw [resolves]
      dsimp only at follows
      cases resolving : saga.resolvesConflicts with
      | false =>
        rw [resolving] at follows
        exact follows
      | true =>
        rw [resolving] at follows
        cases again with
        | none => exact Program.keeps_ignored_bind (notes _) fun _ => follows
        | some again => exact follows
    | backend reason => exact follows
    | serialization e => exact follows

/-- Without an instance there is nothing to write. -/
theorem round_of_unbound (unbound : i.instance? = none)
    (again : Option (Invocation D B → Program B (Outcome D B))) :
    round send rules attempt mode again i = .done (i, .error (.handler i.noSagaData)) := by
  unfold round Invocation.document?
  rw [unbound]
  rfl

theorem persist_of_unbound (unbound : i.instance? = none) {maxAttempts : Nat} :
    persist send maxAttempts rules mode i = .done (i, .error (.handler i.noSagaData)) := by
  unfold persist
  cases maxAttempts - 1 with
  | zero => exact round_of_unbound unbound _
  | succ more => exact round_of_unbound unbound _

theorem keeps_resolveConflict {document : Document} {values : List PropertyValue}
    {again : Invocation D B → Program B (Outcome D B)} (notes : ∀ entry, c.Ignores (.note entry))
    (fetches : (fetchFresh document values mode).Keeps c s fun r t =>
      match r with
      | .error e => post (i, .error (.storage e)) t
      | .ok none => post (i, .error (.sagaVanished i.name document.id)) t
      | .ok (some fresh) => (i.resolve send fresh).Keeps c t fun r u =>
        match r.2 with
        | .error e => post (r.1, .error (.handler e)) u
        | .ok () => (Program.count .conflictResolved).Keeps c u fun _ v =>
          (again r.1).Keeps c v post) :
    (resolveConflict send attempt mode document values again i).Keeps c s post := by
  refine fetches.bind fun r t follows => ?_
  rcases r with e | _ | fresh
  · exact follows
  · exact Program.keeps_ignored_bind (notes _) fun _ => follows
  · refine Program.Keeps.bind follows ?_
    rintro ⟨merged, answer⟩ u follows
    cases answer with
    | error e => exact follows
    | ok =>
      refine Program.Keeps.bind follows fun _ v follows => ?_
      exact Program.keeps_ignored_bind (notes _) fun _ => follows

/-- The rounds of a commit, of which `more` may follow the first. Every round but the first is an
update. -/
theorem keeps_rounds (inv : Nat → Mode → Invocation D B → σ → Prop)
    (last : ∀ attempt mode i s, inv 0 mode i s →
      (round send rules attempt mode none i).Keeps c s post)
    (each : ∀ more attempt mode again i s, inv (more + 1) mode i s →
      (∀ j t, inv more .update j t → (again j).Keeps c t post) →
      (round send rules attempt mode (some again) i).Keeps c s post)
    {more : Nat} (start : inv more mode i s) :
    (rounds send rules more attempt mode i).Keeps c s post := by
  -- Over the rounds that may follow; the invariant holds wherever one of them starts.
  induction more generalizing attempt mode i s with
  | zero => exact last attempt mode i s start
  | succ more ih => exact each more attempt mode _ i s start fun j t inv => ih inv

/-- A deletion, where only its answer counts. -/
theorem keeps_deletion {left : σ → Prop} (notes : ∀ entry, c.Ignores (.note entry))
    (counts : c.Ignores (.count .deleted)) (conflicts : c.Ignores (.count .conflict))
    (unbound : left s) (deletes : ∀ document, i.document? = some document →
      c.owes s (.delete document) ∧ ∀ reply, c.expects s (.delete document) reply →
        left (c.next s (.delete document) reply)) :
    (delete i).Keeps c s fun _ t => left t := by
  unfold delete
  split
  next => exact unbound
  next document held =>
    obtain ⟨owed, answered⟩ := deletes document held
    refine ⟨owed, fun reply expected => ?_⟩
    have ended := answered reply expected
    cases reply with
    | ok => exact Program.keeps_ignored_bind counts fun _ => ended
    | error e =>
      cases e with
      | conflict reason =>
        refine Program.keeps_ignored_bind conflicts fun _ => ?_
        exact Program.keeps_ignored_bind (notes _) fun _ => ended
      | backend reason => exact ended
      | serialization e => exact ended

/-! ## Writes that are granted -/

/-- A write that is sure to be granted needs no second round. -/
theorem keeps_persist_granted {saga : Saga D B} {inst : Instance D} {maxAttempts : Nat}
    (isSaga : i.handler = .saga saga) (isBound : i.bound = some inst)
    (counts : c.Ignores (.count mode.counter))
    (writes : (write mode (saga.dataType.toDocument inst.data)
      (Invocation.valuesOf saga inst.data rules)).Keeps c s fun reply t =>
        ∃ stored, reply = .ok stored ∧ post (i.adopt stored.metadata, .ok ()) t) :
    (persist send maxAttempts rules mode i).Keeps c s post := by
  have held : i.instance? = some (saga, inst) := by simp [Invocation.instance?, isSaga, isBound]
  have once : ∀ again, (round send rules 1 mode again i).Keeps c s post := by
    intro again
    unfold round Invocation.document? Invocation.values
    rw [held]
    refine writes.bind ?_
    rintro _ t ⟨stored, rfl, ended⟩
    exact Program.keeps_ignored_bind counts fun _ => ended
  unfold persist
  cases maxAttempts - 1 with
  | zero => exact once none
  | succ more => exact once _

theorem keeps_delete_granted {saga : Saga D B} {inst : Instance D}
    {ends : Except SagaError Unit → σ → Prop} (isSaga : i.handler = .saga saga)
    (isBound : i.bound = some inst) (counts : c.Ignores (.count .deleted))
    (deletes : (Program.call (.delete (saga.dataType.toDocument inst.data))).Keeps c s
      fun reply t => reply = .ok () ∧ ends (.ok ()) t) :
    (delete i).Keeps c s ends := by
  have held : i.document? = some (saga.dataType.toDocument inst.data) := by
    simp [Invocation.document?, Invocation.instance?, isSaga, isBound]
  unfold delete
  rw [held]
  refine deletes.bind ?_
  rintro _ t ⟨rfl, ended⟩
  exact Program.keeps_ignored_bind counts fun _ => ended

/-! ## Lookups only -/

/-- Fetching the state that won asks for nothing but lookups. -/
theorem asks_fetchFresh (document : Document) (values : List PropertyValue) (mode : Mode) :
    (fetchFresh (B := B) document values mode).Asks
      fun request => ∃ property value, request = .find document.dataType property value := by
  have findFirst_asks : ∀ values, (findFirst (B := B) document.dataType values).Asks
      fun request => ∃ property value, request = .find document.dataType property value := by
    intro values
    induction values with
    | nil => trivial
    | cons p rest ih =>
      refine ⟨⟨p.name, p.value, rfl⟩, fun reply => ?_⟩
      rcases reply with e | _ | winner
      · trivial
      · exact ih
      · trivial
  refine ⟨⟨identityPath, _, rfl⟩, fun reply => ?_⟩
  rcases reply with e | _ | fresh
  · trivial
  · cases mode with
    | update => trivial
    | insert => exact findFirst_asks _
  · trivial

/-! ## Contracts without a state -/

section Stateless

variable {c : Contract B Unit} {saga : Saga D B}

/-- A step leaves the handler of its invocation in place. -/
abbrev SameHandler (i : Invocation D B) {α : Type} (r : Invocation D B × α) (_ : Unit) : Prop :=
  r.1.handler = i.handler

/-- The contract lets a saga look its instances up, and write them with the values of these rules:
first in this mode, then by updates. -/
structure Permits (c : Contract B Unit) (saga : Saga D B) (rules : List (Rule B)) (mode : Mode) :
    Prop extends c.IgnoresActs Send.request where
  dies : c.dies
  count : ∀ counter, counter ≠ .loaded → c.Ignores (.count counter)
  find : ∀ property value, c.owes () (.find saga.dataType.name property value)
  write : ∀ mode', mode' = mode ∨ mode' = .update → ∀ data,
    (write mode' (saga.dataType.toDocument data) (Invocation.valuesOf saga data rules)).Keeps c ()
      fun _ _ => True

theorem Permits.updates (permits : Permits c saga rules mode) : Permits c saga rules .update :=
  { permits with write := fun mode' updates => permits.write mode' (.inr (or_self_iff.1 updates)) }

/-- After a lost write: the state that won is looked up, and the saga resolves the conflict. -/
theorem Permits.keeps_resolved {again : Invocation D B → Program B (Outcome D B)}
    {inst : Instance D} {document : Document} {values : List PropertyValue}
    (permits : Permits c saga rules .update) (isSaga : i.handler = .saga saga)
    (isBound : i.bound = some inst) (typed : document.dataType = saga.dataType.name)
    (further : ∀ j, j.handler = i.handler → (again j).Keeps c () (SameHandler i)) :
    (resolveConflict .request attempt mode document values again i).Keeps c () (SameHandler i) := by
  have ignored : ∀ request : Request B,
      (∃ property value, request = .find document.dataType property value) → c.Ignores request := by
    rintro request ⟨property, value, rfl⟩
    rw [typed]
    exact ⟨fun _ => permits.find property value, fun _ _ => rfl⟩
  refine keeps_resolveConflict permits.note
    (((asks_fetchFresh document values mode).keeps ignored ()).imp fun result _ _ => ?_)
  rcases result with e | _ | fresh
  · rfl
  · rfl
  · refine (Invocation.keeps_resolve permits.dies isSaga isBound permits.toIgnoresActs).imp ?_
    rintro ⟨j, answer⟩ _ ⟨-, same, -⟩
    cases answer with
    | error e => exact same
    | ok => exact Program.keeps_ignored_bind (permits.count _ nofun) fun _ => further j same

theorem Permits.keeps_round {again : Option (Invocation D B → Program B (Outcome D B))}
    (permits : Permits c saga rules mode) (isSaga : i.handler = .saga saga)
    (further : ∀ more ∈ again, ∀ j, j.handler = i.handler →
      (more j).Keeps c () (SameHandler i)) :
    (round .request rules attempt mode again i).Keeps c () (SameHandler i) := by
  cases isBound : i.bound with
  | none =>
    have unbound : i.document? = none := by
      simp [Invocation.document?, Invocation.instance?, isSaga, isBound]
    unfold round
    rw [unbound]
    rfl
  | some inst =>
    have counts : c.Ignores (.count mode.counter) := permits.count _ (by cases mode <;> nofun)
    refine Commit.keeps_round isSaga isBound permits.note counts (permits.count _ nofun)
      ((permits.write mode (.inl rfl) inst.data).imp ?_)
    intro reply _ _
    cases reply with
    | ok stored => simp [SameHandler, Invocation.adopt, isSaga, isBound]
    | error e =>
      cases e with
      | backend reason => rfl
      | serialization e => rfl
      | conflict reason =>
        show ite _ _ _
        split
        next =>
          cases again with
          | none => rfl
          | some again =>
            exact permits.updates.keeps_resolved isSaga isBound rfl (further again rfl)
        next => rfl

theorem Permits.keeps_rounds {more : Nat} (permits : Permits c saga rules mode)
    (isSaga : i.handler = .saga saga) :
    (rounds .request rules more attempt mode i).Keeps c () (SameHandler i) := by
  -- The first round is in the given mode, every other one is an update.
  have permitted : ∀ {mode' : Mode}, mode' = mode ∨ mode' = .update →
      Permits c saga rules mode' := by
    rintro mode' (rfl | rfl)
    · exact permits
    · exact permits.updates
  refine Commit.keeps_rounds (fun _ mode' j _ => j.handler = i.handler ∧
    (mode' = mode ∨ mode' = .update)) ?_ ?_ ⟨rfl, .inl rfl⟩
  · rintro attempt mode' j _ ⟨same, first⟩
    rw [← same] at isSaga
    refine ((permitted first).keeps_round isSaga (by simp)).imp fun r _ kept => ?_
    exact kept.trans same
  · rintro more attempt mode' again j _ ⟨same, first⟩ further
    have isSaga' : j.handler = .saga saga := same.trans isSaga
    refine ((permitted first).keeps_round isSaga' fun _ member k kept => ?_).imp fun r _ kept => ?_
    · obtain rfl := Option.some.inj member
      refine (further k () ⟨kept.trans same, .inr rfl⟩).imp fun r _ later => ?_
      exact later.trans same.symm
    · exact kept.trans same

theorem Permits.keeps_persist (permits : Permits c saga rules mode)
    (isSaga : i.handler = .saga saga) (maxAttempts : Nat) :
    (persist .request maxAttempts rules mode i).Keeps c () (SameHandler i) :=
  permits.keeps_rounds isSaga

theorem keeps_delete (notes : ∀ entry, c.Ignores (.note entry))
    (counts : ∀ counter, c.Ignores (.count counter))
    (owed : ∀ document, i.document? = some document → c.owes () (.delete document)) :
    (delete i).Keeps c () fun _ _ => True :=
  keeps_deletion notes (counts _) (counts _) trivial fun document held =>
    ⟨owed document held, fun _ _ => trivial⟩

end Stateless

end Sagas.Commit
