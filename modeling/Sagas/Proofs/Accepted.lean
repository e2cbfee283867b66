import Sagas.Demo.Tally
import Sagas.Proofs.Copies

/-!
# What a message writes

Once its handlers have succeeded, a message writes what it has planned: inserts first, then updates,
then deletions. As long as its calls are accepted it makes one call for each item of the plan and no
other, and it ends without an error.

Results:
1. `Planned.keeps_accepted`, `keeps_items`: the calls of items that are accepted.
2. `writes_as_planned`: the plan of a message, and its calls.
-/

namespace Sagas

variable {D B : Type}

/-! ## Accepted calls -/

/-- The contract of a storage that accepts all calls. -/
def accepting : Contract B (List (Exchange B)) :=
  { ledger with
    expects := fun _ request reply =>
      request.isWrite = true → (⟨request, reply⟩ : Exchange B).takesEffect = true
    dies := False }

theorem after_accepting (past : List (Exchange B)) : accepting.after [] past = calls past := by
  rw [← after_ledger]
  induction past with
  | nil => rfl
  | cons x earlier ih =>
    show accepting.next (accepting.after [] earlier) x.request x.reply = _
    rw [ih]
    rfl

theorem met_accepting {past : List (Exchange B)}
    (accepted : ∀ x ∈ calls past, x.takesEffect = true) : accepting.Met [] past := by
  induction past with
  | nil => trivial
  | cons x earlier ih =>
    refine ⟨ih fun y member => accepted y ?_, fun isWrite => accepted x ?_⟩
    · exact List.mem_filter.2 ⟨List.mem_cons_of_mem _ (List.mem_filter.1 member).1,
        (List.mem_filter.1 member).2⟩
    · exact List.mem_filter.2 ⟨List.mem_cons_self, isWrite⟩

theorem accepting_ignores {request : Request B} (quiet : request.isWrite = false) :
    (accepting (B := B)).Ignores request where
  owes _ := trivial
  next _ _ := if_neg (by simp [quiet])

theorem accepting_locks : (accepting (B := B)).IgnoresLocks where
  note _ := accepting_ignores rfl
  acquire _ _ := accepting_ignores rfl
  release _ := accepting_ignores rfl

/-- The call for an item, with the instance at its place as it is. -/
def Planned.Made (m : Incoming D B) (item : Planned B) (x : Exchange B) : Prop :=
  ∃ i s inst, m.invocations[item.place]? = some i ∧ i.instance? = some (s, inst) ∧
    x.request = item.request s inst.data

variable {m now : Incoming D B} {done : List (Exchange B)}

/-- A write that is accepted, whatever would come after it if it were not. -/
theorem Commit.keeps_round_accepted {i : Invocation D B} {s : Saga D B} {inst : Instance D}
    {rules : List (Rule B)} {mode : Commit.Mode}
    {again : Option (Invocation D B → Program B (Commit.Outcome D B))}
    (isSaga : i.handler = .saga s) (isBound : i.bound = some inst) (place : Nat) :
    (Commit.round .request rules 1 mode again i).Keeps accepting done fun r t => r.2 = .ok () ∧
      ∃ x, t = x :: done ∧
        x.request = (Planned.write mode place rules).request s inst.data := by
  refine Commit.keeps_round isSaga isBound accepting_locks.note (accepting_ignores rfl)
    (accepting_ignores rfl) ?_
  let d := s.dataType.toDocument inst.data
  let values := Invocation.valuesOf s inst.data rules
  cases mode with
  | insert =>
    refine ⟨trivial, fun reply accepted => ?_⟩
    cases reply with
    | ok stored => exact ⟨rfl, ⟨.insert d values, .ok stored⟩, rfl, rfl⟩
    | error e => exact nomatch accepted rfl
  | update =>
    refine ⟨trivial, fun reply accepted => ?_⟩
    cases reply with
    | ok stored => exact ⟨rfl, ⟨.update d values, .ok stored⟩, rfl, rfl⟩
    | error e => exact nomatch accepted rfl

theorem Planned.keeps_accepted {item : Planned B} {i : Invocation D B} {s : Saga D B}
    {inst : Instance D} (isInstance : i.instance? = some (s, inst)) (maxAttempts : Nat) :
    ((item.task .request maxAttempts).2 i).Keeps accepting done fun r t =>
      r.2 = .ok () ∧ ∃ x, t = x :: done ∧ x.request = item.request s inst.data := by
  obtain ⟨isSaga, isBound⟩ := Invocation.of_instance? isInstance
  cases item with
  | write mode place rules =>
    show (Commit.rounds .request rules (maxAttempts - 1) 1 mode i).Keeps accepting done _
    cases maxAttempts - 1 with
    | zero => exact Commit.keeps_round_accepted isSaga isBound place
    | succ more => exact Commit.keeps_round_accepted isSaga isBound place
  | delete place =>
    have held : i.document? = some (s.dataType.toDocument inst.data) := by
      simp [Invocation.document?, isInstance]
    show ((do return (i, ← Commit.delete i) : Program B (Commit.Outcome D B))).Keeps _ _ _
    unfold Commit.delete
    rw [held]
    refine ⟨trivial, fun reply accepted => ?_⟩
    cases reply with
    | ok =>
      refine Program.keeps_ignored_bind (accepting_ignores rfl) fun _ => ?_
      exact ⟨rfl, ⟨.delete (s.dataType.toDocument inst.data), .ok ()⟩, rfl, rfl⟩
    | error e => cases accepted rfl

/-- Items at places of their own, each of which holds an instance. -/
theorem keeps_items {items : List (Planned B)} {maxAttempts : Nat}
    (distinct : (items.map (·.place)).Nodup)
    (held : ∀ item ∈ items, ∃ i, m.invocations[item.place]? = some i ∧ i.id? ≠ none)
    (agree : ∀ item ∈ items, now.invocations[item.place]? = m.invocations[item.place]?) :
    (Incoming.inTurn (WritePlan.inOrder (items.map (·.task .request maxAttempts))) now).Keeps
      accepting done fun r t => r.2 = .ok () ∧
        ∃ made, t = made.reverse ++ done ∧ List.Forall₂ (Planned.Made m) items made := by
  induction items generalizing now done with
  | nil => exact ⟨rfl, [], rfl, .nil⟩
  | cons item rest ih =>
    obtain ⟨apart, distinct⟩ := List.nodup_cons.1 distinct
    obtain ⟨i, here, holds⟩ := held item List.mem_cons_self
    obtain ⟨⟨s, inst⟩, isInstance⟩ : ∃ x, i.instance? = some x := by
      rw [← Option.ne_none_iff_exists']
      exact fun none => holds (by simp [Invocation.id?, none])
    refine Incoming.keeps_inTurn_cons (Incoming.keeps_onInvocation ?_ ?_)
    · intro missing
      rw [item.place_task, agree item List.mem_cons_self, here] at missing
      cases missing
    intro j found
    rw [item.place_task, agree item List.mem_cons_self, here] at found
    cases found
    refine (item.keeps_accepted isInstance maxAttempts).imp ?_
    rintro ⟨j, answer⟩ _ ⟨rfl, x, rfl, made⟩
    refine (ih distinct (fun other member => held other (List.mem_cons_of_mem _ member)) ?_).imp ?_
    · intro other member
      have differ : item.place ≠ other.place := fun same =>
        apart (List.mem_map.2 ⟨other, member, same.symm⟩)
      rw [← agree other (List.mem_cons_of_mem _ member), item.place_task]
      simp [Incoming.put, differ]
    · rintro r _ ⟨succeeds, later, rfl, all⟩
      exact ⟨succeeds, x :: later, by simp, .cons ⟨i, s, inst, here, isInstance, made⟩ all⟩

/-! ## The writes of a message -/

namespace Job

variable {job : Job D B} {bindings : List (Binding B)} {held : List String}
  {past : List (Exchange B)}

/-- What is left of a message whose handlers have succeeded makes its calls, if these are
accepted. -/
theorem keeps_accepted (distinct : (bindings.map (·.index)).Nodup) :
    (job.write bindings m >>= finish held).Keeps accepting [] fun r t => r.2 = .ok () ∧
      List.Forall₂ (Planned.Made m) (m.plan bindings).items t.reverse := by
  have places : ((m.plan bindings).items.map (·.place)).Nodup := by
    rw [WritePlan.places_items]
    exact plan_nodup distinct
  have instances : ∀ item ∈ (m.plan bindings).items,
      ∃ i, m.invocations[item.place]? = some i ∧ i.id? ≠ none := by
    intro item planned
    obtain ⟨i, here, -, holds⟩ := planned_holds planned
    exact ⟨i, here, holds⟩
  have writes : (job.write bindings m).Keeps accepting [] fun r t => r.2 = .ok () ∧
      List.Forall₂ (Planned.Made m) (m.plan bindings).items t.reverse := by
    refine Incoming.keeps_persist accepting_locks.note (accepting_ignores rfl) ?_
    rw [WritePlan.writes_eq, WritePlan.tasks_eq]
    refine (keeps_items places instances fun _ _ => rfl).imp ?_
    rintro r _ ⟨succeeds, made, rfl, all⟩
    exact ⟨succeeds, by simpa using all⟩
  refine writes.bind fun r t written => (keeps_finish accepting_locks held r t).imp ?_
  rintro _ _ ⟨rfl, rfl⟩
  exact written

end Job

/-- What a message writes whose handlers have succeeded. -/
structure Job.WritesAsPlanned (job : Job D B) (bindings : List (Binding B)) (held : List String)
    (m : Incoming D B) (past : List (Exchange B)) : Prop where
  /-- Nothing is left but the writes, and nothing has been written so far. -/
  left : Party.Reached job.program ⟨past, job.write bindings m >>= finish held⟩ ∧ calls past = []
  /-- Whatever is planned is planned for a copy of some instance, once. -/
  copies : (m.plan bindings).places.Nodup ∧
    ∀ place ∈ (m.plan bindings).places, ∃ id, m.holds id place = true
  instances : ∀ id, m.PlannedFor bindings id
  values : ∀ place rules, (place, rules) ∈ (m.plan bindings).inserts ++ (m.plan bindings).updates →
    ∀ id i s inst, (place, i) ∈ m.copiesOf id → i.instance? = some (s, inst) →
      m.Carries id s inst.data (Invocation.valuesOf s inst.data rules)
  /-- As long as its calls are accepted, it makes those of its plan, and succeeds. -/
  called : ∀ {τ : Type} (answer : Program.Answering B τ) w,
    let run := (job.write bindings m >>= finish held).run (Program.traced answer) (w, [])
    (∀ x ∈ calls run.2.2, x.takesEffect = true) → (∃ m', run.1 = some (m', .ok ())) ∧
      List.Forall₂ (Planned.Made m) (m.plan bindings).items (calls run.2.2).reverse

/-- Once its handlers have succeeded, a message writes what the flags of the copies of its instances
say: inserts, then updates, then deletions, with one call each as long as they are accepted. -/
theorem writes_as_planned {job : Job D B} {bindings : List (Binding B)} {held : List String}
    {m : Incoming D B} {past : List (Exchange B)} (handled : job.Handled bindings held m past)
    (declared : RulesDeclared past) (oneType : m.OneType) :
    job.WritesAsPlanned bindings held m past := by
  obtain ⟨served, -, quiet⟩ := handled.ran (List.Subset.refl past)
  refine ⟨⟨handled.leaves, calls_eq_nil quiet⟩,
    ⟨plan_nodup served.nodup, fun _ planned => holds_of_planned planned⟩,
    plannedFor served handled.like, fun place rules planned id i s inst copy isInstance => ?_, ?_⟩
  · exact carries_of_planned served handled.like declared oneType planned copy
      (Invocation.of_instance? isInstance).1
  · intro τ answer w run accepted
    obtain ⟨r, ended, succeeds, all⟩ := (Job.keeps_accepted served.nodup).of_trace
      (c := accepting) (fun dies => dies) answer (met_accepting accepted)
    rw [after_accepting] at all
    obtain ⟨m', rfl⟩ : ∃ m', r = (m', .ok ()) := ⟨r.1, Prod.ext rfl succeeds⟩
    exact ⟨⟨m', ended⟩, all⟩

/-! ## A tally that is watched -/

section Tally

open Demo

/-- Sees what is posted to a tally, and leaves the tally alone. -/
def watching : Saga Tally Posting :=
  { Tally.saga false with
    name := "saga.watch"
    handle := fun _ _ inst => .done ⟨inst.data, false, true, .ok ()⟩ }

/-- Posts to a tally by two sagas, between which it is watched. -/
def watched : Job Tally Posting :=
  let adding (name : String) : Handler Tally Posting := .saga { Tally.saga false with name }
  ⟨.default, false, .logAndSkip,
    ((Registry.empty.add "demo.post" (adding "saga.tally")).add "demo.post"
      (.saga watching)).add "demo.post" (adding "saga.audit"),
    Tally.post "rent" 5, false⟩

/-- A storage that holds a tally of ten, whatever is looked up, and accepts all calls. -/
def acceptAll : Program.Answering Posting Unit
  | .find .., _ =>
    (.ok (some (Tally.dataType.toDocument ⟨⟨Tally.number 1, .initial⟩, "rent", 10⟩)), ())
  | request, _ => (obliging .nil request, ())

/-- The handlers succeed, and the two sagas that post are to be written. -/
theorem watched_handled : ∃ bindings m past, watched.Handled bindings [] m past ∧
    RulesDeclared past ∧ (m.plan bindings).places = [0, 2] := by
  have stages : ∃ bindings m₀ m rules locks binds handles,
      watched.incoming.bindings.run (Program.traced acceptAll) ((), []) =
        (some (.ok bindings), (), rules) ∧
      (watched.takeLocks bindings).run (Program.traced acceptAll) ((), []) =
        (some (.ok []), (), locks) ∧
      (watched.bind bindings watched.incoming).run (Program.traced acceptAll) ((), []) =
        (some (m₀, .ok ()), (), binds) ∧
      (Incoming.handle m₀).run (Program.traced acceptAll) ((), []) =
        (some (m, .ok ()), (), handles) ∧ (m.plan bindings).places = [0, 2] :=
    ⟨_, _, _, _, _, _, _, rfl, rfl, rfl, rfl, rfl⟩
  obtain ⟨bindings, m₀, m, rules, locks, binds, handles, served, taken, bound, handling, places⟩ :=
    stages
  have declared : ∀ {α : Type} {p : Program Posting α} {a : Option α}
      {past : List (Exchange Posting)},
      p.run (Program.traced acceptAll) ((), []) = (a, (), past) → RulesDeclared past := by
    intro α p a past ran type rules member
    have remembered : (⟨.rules type, .ok rules⟩ : Exchange Posting) ∈
        (p.run (Program.traced acceptAll) ((), [])).2.2 := by rwa [ran]
    obtain ⟨_, reply⟩ := Program.reply_of_trace acceptAll remembered
    exact reply.symm
  have declares : RulesDeclared (handles ++ (binds ++ (locks ++ rules))) :=
    (declared handling).append ((declared bound).append ((declared taken).append (declared served)))
  exact ⟨bindings, m, _, Job.handled_of_runs served taken bound handling, declares, places⟩

/-- All sagas of the message have one data type. -/
theorem watched_oneType {bindings : List (Binding Posting)} {held : List String}
    {m : Incoming Tally Posting} {past : List (Exchange Posting)}
    (handled : watched.Handled bindings held m past) : m.OneType := by
  have ofTally : ∀ id, ∀ c ∈ m.copiesOf id, ∀ s, c.2.handler = .saga s →
      s.dataType = Tally.dataType := by
    intro id c copy s isSaga
    have member := List.mem_map_of_mem (f := Invocation.handler)
      (List.mem_of_getElem? (Incoming.mem_copiesOf.1 copy).1)
    rw [handled.like.handlers, isSaga] at member
    have handlers : watched.incoming.invocations.map (·.handler) =
        [.saga { Tally.saga false with name := "saga.tally" }, .saga watching,
          .saga { Tally.saga false with name := "saga.audit" }] := rfl
    rw [handlers] at member
    simp only [List.mem_cons, Handler.saga.injEq, List.not_mem_nil, or_false] at member
    rcases member with rfl | rfl | rfl <;> rfl
  intro id c copy c' copy' s s' isSaga isSaga'
  exact (ofTally id c copy s isSaga).trans (ofTally id c' copy' s' isSaga').symm

/-- The two sagas that post update their copies one after the other. -/
theorem watched_written_twice : ∃ bindings m past, watched.Handled bindings [] m past ∧
    watched.WritesAsPlanned bindings [] m past ∧ (m.plan bindings).places = [0, 2] := by
  obtain ⟨bindings, m, past, handled, declares, places⟩ := watched_handled
  exact ⟨bindings, m, past, handled,
    writes_as_planned handled declares (watched_oneType handled), places⟩

end Tally

end Sagas
