import Sagas.Demo.Tally
import Sagas.Proofs.Isolation.Partition
import Sagas.Proofs.Isolation.Plan
import Sagas.Proofs.Tasks

/-!
# Data types within one message

A message may concern sagas of several data types at once. What it writes for one of them should be
what it would write if the sagas of this data type were the only ones. Every write keeps to the data
type of its saga, so this depends on the plan alone, and the plan is that of each data type as long
as no two bound instances of different data types have the same identity.

Results:
1. `confined_tasks`: every write of a plan keeps to the data type of its saga.
2. `Reaches.alone`: the writes for one data type among others, and the same ones alone.
3. `isolated_iff_apart`: the exact condition, and what it means for every run.
-/

namespace Sagas

variable {D B : Type}

/-! ## The writes of a plan -/

namespace WritePlan

variable {send : Send B} {maxAttempts : Nat} {p : WritePlan B}

theorem tasks_only (chosen : Nat → Bool) : (p.only chosen).tasks (D := D) send maxAttempts =
    (p.tasks send maxAttempts).filter (chosen ·.1) := by
  simp only [tasks, only, List.filter_append, List.filter_map]
  rfl

end WritePlan

theorem Invocation.dataType?_of_document? {i : Invocation D B} {d : Document}
    (holds : i.document? = some d) : i.dataType? = some d.dataType := by
  cases handler : i.handler with
  | plain name run => simp [document?, instance?, handler] at holds
  | saga saga =>
    cases bound : i.bound with
    | none => simp [document?, instance?, handler, bound] at holds
    | some inst =>
      simp only [document?, instance?, handler, bound, Option.map_some, Option.some.injEq] at holds
      simp [dataType?, saga?, Handler.saga?, handler, ← holds, DataType.toDocument]

/-- A write makes calls for the data type of its saga only. -/
def Confined (task : PlannedWrite D B) : Prop :=
  ∀ (allowed : String → Prop) (i : Invocation D B),
    (∀ dataType, i.dataType? = some dataType → allowed dataType) →
    (task.2 i).Keeps (keepingTo allowed) () (Commit.SameHandler i)

theorem permits_keepingTo {allowed : String → Prop} {saga : Saga D B}
    (isAllowed : allowed saga.dataType.name) (rules : List (Rule B)) (mode : Commit.Mode) :
    Commit.Permits (keepingTo (B := B) allowed) saga rules mode where
  toIgnoresActs := keepingTo_ignores.toIgnoresActs
  dies := trivial
  count counter _ := keepingTo_ignores_count counter
  find _ _ := isAllowed
  write mode' _ data := by
    cases mode' with
    | insert => exact ⟨isAllowed, fun _ _ => trivial⟩
    | update => exact ⟨isAllowed, fun _ _ => trivial⟩

theorem confined_persist (index maxAttempts : Nat) (rules : List (Rule B)) (mode : Commit.Mode) :
    Confined (D := D) (index, Commit.persist .request maxAttempts rules mode) := by
  intro allowed i isAllowed
  cases handler : i.handler with
  | saga saga =>
    have typed : i.dataType? = some saga.dataType.name := by
      simp [Invocation.dataType?, Invocation.saga?, Handler.saga?, handler]
    exact (permits_keepingTo (isAllowed _ typed) rules mode).keeps_persist handler maxAttempts
  | plain name run =>
    have unbound : i.instance? = none := by simp [Invocation.instance?, handler]
    show (Commit.persist .request maxAttempts rules mode i).Keeps _ _ _
    rw [Commit.persist_of_unbound unbound]
    rfl

theorem confined_delete (index : Nat) :
    Confined (D := D) (B := B) (index, fun i => do return (i, ← Commit.delete i)) := by
  intro allowed i isAllowed
  refine (Commit.keeps_delete keepingTo_ignores.note keepingTo_ignores_count ?_).bind
    fun _ _ _ => rfl
  exact fun d holds => isAllowed _ (Invocation.dataType?_of_document? holds)

theorem confined_tasks {maxAttempts : Nat} {p : WritePlan B} :
    ∀ task ∈ p.tasks (D := D) .request maxAttempts, Confined task := by
  intro task member
  rcases List.mem_append.1 member with changed | deleted
  · rcases List.mem_append.1 changed with inserted | updated
    · obtain ⟨⟨index, rules⟩, -, rfl⟩ := List.mem_map.1 inserted
      exact confined_persist index maxAttempts rules .insert
    · obtain ⟨⟨index, rules⟩, -, rfl⟩ := List.mem_map.1 updated
      exact confined_persist index maxAttempts rules .update
  · obtain ⟨index, -, rfl⟩ := List.mem_map.1 deleted
    exact confined_delete index

/-! ## Among others and alone -/

namespace Incoming

variable {m₀ m m' : Incoming D B} {dataType : String} {index : Nat} {i j : Invocation D B}

theorem Like.isOf (like : Like m₀ m) (dataType : String) (index : Nat) :
    m.isOf dataType index = m₀.isOf dataType index := by
  have places := congrArg (·[index]?) like.handlers
  have fromHandler : ∀ {m : Incoming D B}, m.isOf dataType index =
      (m.invocations.map (·.handler))[index]?.any fun h =>
        h.saga?.map (·.dataType.name) = some dataType := by
    intro m
    rw [List.getElem?_map, Option.any_map]
    rfl
  rw [fromHandler, fromHandler, show (m.invocations.map (·.handler))[index]? = _ from places]

/-- The message of a run and that of a run without other data types. -/
structure Twins (dataType : String) (m₀ m m' : Incoming D B) : Prop where
  like : Like m₀ m
  agree : ∀ index, m₀.isOf dataType index = true → m'.invocations[index]? = m.invocations[index]?

/-- Both runs take a step on an invocation of the data type. -/
theorem Twins.put (twins : Twins dataType m₀ m m') (place : m.invocations[index]? = some i)
    (inside : m₀.isOf dataType index = true) (same : j.handler = i.handler) :
    Twins dataType m₀ (m.put index j) (m'.put index j) where
  like := twins.like.put place same
  agree k isOf := by
    have place' : m'.invocations[index]? = some i := (twins.agree index inside).trans place
    by_cases here : index = k
    · subst here
      have inRange := (List.getElem?_eq_some_iff.1 place).1
      have inRange' := (List.getElem?_eq_some_iff.1 place').1
      simp [Incoming.put, inRange, inRange']
    · simpa [Incoming.put, here] using twins.agree k isOf

/-- Only the first of the runs takes a step, on an invocation of another data type. -/
theorem Twins.put_left (twins : Twins dataType m₀ m m') (place : m.invocations[index]? = some i)
    (outside : m₀.isOf dataType index = false) (same : j.handler = i.handler) :
    Twins dataType m₀ (m.put index j) m' where
  like := twins.like.put place same
  agree k isOf := by
    have apart : index ≠ k := fun here => by simp [here, isOf] at outside
    simpa [Incoming.put, apart] using twins.agree k isOf

theorem inTurn_missing {step : Invocation D B → Program B (Commit.Outcome D B)}
    {rest : List (Continuation D B)} (missing : m.invocations[index]? = none) :
    inTurn (onInvocation index step :: rest) m = .panic := by
  rw [inTurn, onInvocation, missing]
  rfl

theorem inTurn_onInvocation {step : Invocation D B → Program B (Commit.Outcome D B)}
    {rest : List (Continuation D B)} (place : m.invocations[index]? = some i) :
    inTurn (onInvocation index step :: rest) m = (step i >>= fun r =>
      match r.2 with
      | .ok () => inTurn rest (m.put index r.1)
      | .error e => .done (m.put index r.1, .error e)) := by
  rw [inTurn, onInvocation, place]
  show (step i >>= _) >>= _ = _
  rw [Program.bind_assoc]
  refine congrArg (step i >>= ·) (funext fun r => ?_)
  obtain ⟨j, answer⟩ := r
  cases answer <;> rfl

end Incoming

namespace Program

open Incoming WritePlan

variable {m₀ m m' m₁ : Incoming D B} {dataType : String} {index : Nat} {i : Invocation D B}
  {s s' t : Store} {past : List (Exchange B)} {p q : Program B (Processed D B)}

/-- Whether `p`, over `s`, can come as far as another program that has come to `q` and `t` after
`past`: to a point with the same partition of the data type after the same calls for it, and to a
successful end if that is one. -/
def KeepsUp (dataType : String) (p : Program B (Processed D B)) (s : Store)
    (past : List (Exchange B)) (q : Program B (Processed D B)) (t : Store) : Prop :=
  ∃ past' q' t', p.Reaches s past' q' t' ∧ t'.partition dataType = t.partition dataType ∧
    callsFor dataType past' = callsFor dataType past ∧
    ∀ m, q = .done (m, .ok ()) → ∃ m', q' = .done (m', .ok ())

/-- It has not yet moved, and the other one has made no call for the data type. -/
theorem keepsUp_start (agree : s.partition dataType = t.partition dataType)
    (calls : callsFor dataType past = []) (unfinished : ∀ m, q ≠ .done (m, .ok ())) :
    p.KeepsUp dataType s past q t :=
  ⟨[], p, s, .start, agree, calls.symm, fun m ended => absurd ended (unfinished m)⟩

theorem KeepsUp.after {early : List (Exchange B)} {p₀ : Program B (Processed D B)} {s₀ : Store}
    (first : p₀.Reaches s₀ early p s) (later : p.KeepsUp dataType s past q t)
    {earlier : List (Exchange B)}
    (calls : callsFor dataType early = callsFor dataType earlier) :
    p₀.KeepsUp dataType s₀ (past ++ earlier) q t := by
  obtain ⟨past', q', t', second, agree, calls', ended⟩ := later
  refine ⟨past' ++ early, q', t', first.trans second, agree, ?_, ended⟩
  unfold callsFor at calls calls' ⊢
  rw [List.filter_append, List.filter_append, calls, calls']

/-- Both runs take the first write. -/
theorem Reaches.alone_inside {write : Invocation D B → Program B (Commit.Outcome D B)}
    {rest rest' : List (PlannedWrite D B)}
    (keeps : (write i).Keeps (keepingTo (· = dataType)) () (Commit.SameHandler i))
    (place : m.invocations[index]? = some i) (place' : m'.invocations[index]? = some i)
    (reaches : (inTurn (inOrder ((index, write) :: rest)) m).Reaches s past q t)
    (same : s'.partition dataType = s.partition dataType)
    (later : ∀ j u u' late, j.handler = i.handler →
      (inTurn (inOrder rest) (m.put index j)).Reaches u late q t →
      u'.partition dataType = u.partition dataType →
      (inTurn (inOrder rest') (m'.put index j)).KeepsUp dataType u' late q t) :
    (inTurn (inOrder ((index, write) :: rest')) m').KeepsUp dataType s' past q t := by
  rw [inOrder, List.map_cons, inTurn_onInvocation place] at reaches
  rw [inOrder, List.map_cons, inTurn_onInvocation place']
  rcases reaches.bind_cases with ⟨p, first, rfl, unfinished⟩ |
    ⟨⟨j, answer⟩, early, u, late, first, second, rfl⟩
  · obtain ⟨t', first', agree⟩ := first.transfer keeps same
    refine ⟨past, _, t', first'.bind _, agree, rfl, fun m₁ ended => ?_⟩
    exact absurd ended (unfinished _)
  · obtain ⟨u', first', agree⟩ := first.transfer keeps same
    have handler : j.handler = i.handler := first.keeps keeps
    refine .after (first'.bind _) ?_ rfl
    cases answer with
    | error e =>
      obtain ⟨rfl, rfl, rfl⟩ := reaches_done second
      exact keepsUp_start agree rfl (by simp)
    | ok => exact later j u u' late handler second agree

/-- Only the run with the other data types takes the first write, which is not for this one. -/
theorem Reaches.alone_outside {write : Invocation D B → Program B (Commit.Outcome D B)}
    {rest rest' : List (PlannedWrite D B)}
    (keeps : (write i).Keeps (keepingTo (· ≠ dataType)) () (Commit.SameHandler i))
    (place : m.invocations[index]? = some i)
    (reaches : (inTurn (inOrder ((index, write) :: rest)) m).Reaches s past q t)
    (same : s'.partition dataType = s.partition dataType)
    (later : ∀ j u late, j.handler = i.handler →
      (inTurn (inOrder rest) (m.put index j)).Reaches u late q t →
      s'.partition dataType = u.partition dataType →
      (inTurn (inOrder rest') m').KeepsUp dataType s' late q t) :
    (inTurn (inOrder rest') m').KeepsUp dataType s' past q t := by
  rw [inOrder, List.map_cons, inTurn_onInvocation place] at reaches
  rcases reaches.bind_cases with ⟨p, first, rfl, unfinished⟩ |
    ⟨⟨j, answer⟩, early, u, late, first, second, rfl⟩
  · obtain ⟨agree, calls⟩ := first.elsewhere keeps (not_not_intro rfl)
    exact keepsUp_start (same.trans agree.symm) calls fun m => unfinished _
  · obtain ⟨agree, calls⟩ := first.elsewhere keeps (not_not_intro rfl)
    have handler : j.handler = i.handler := first.keeps keeps
    refine .after .start ?_ calls.symm
    cases answer with
    | error e =>
      obtain ⟨rfl, rfl, rfl⟩ := reaches_done second
      exact keepsUp_start (same.trans agree.symm) rfl (by simp)
    | ok => exact later j u late handler second (same.trans agree.symm)

/-- The writes for one data type are the same alone as among others. -/
theorem Reaches.alone {tasks : List (PlannedWrite D B)} (confined : ∀ task ∈ tasks, Confined task)
    (reaches : (inTurn (inOrder tasks) m).Reaches s past q t) (twins : Twins dataType m₀ m m')
    (same : s'.partition dataType = s.partition dataType) :
    (inTurn (inOrder (tasks.filter (m₀.isOf dataType ·.1))) m').KeepsUp dataType s' past q t := by
  -- Over the writes: both runs take one for the data type, one run takes one for another.
  induction tasks generalizing m m' s s' past with
  | nil =>
    obtain ⟨rfl, rfl, rfl⟩ := reaches_done reaches
    exact ⟨[], _, s', .start, same, rfl, fun m₁ ended => ⟨m', rfl⟩⟩
  | cons task rest ih =>
    obtain ⟨index, write⟩ := task
    have here := confined _ List.mem_cons_self
    have later := fun task member => confined task (List.mem_cons_of_mem _ member)
    cases place : m.invocations[index]? with
    | none =>
      rw [inOrder, List.map_cons, inTurn_missing place] at reaches
      obtain ⟨rfl, rfl, rfl⟩ := reaches_panic reaches
      exact keepsUp_start same rfl (by simp)
    | some i =>
      have isOf : m₀.isOf dataType index = decide (i.dataType? = some dataType) := by
        rw [← twins.like.isOf]
        simp [Incoming.isOf, place]
      cases inside : m₀.isOf dataType index with
      | true =>
        rw [List.filter_cons_of_pos (by exact inside)]
        have typed : i.dataType? = some dataType := of_decide_eq_true (isOf.symm.trans inside)
        refine alone_inside (here (· = dataType) i ?_) place
          ((twins.agree index inside).trans place) reaches same ?_
        · exact fun other isOther => Option.some.inj (isOther.symm.trans typed)
        · exact fun j u u' late handler second agree =>
            ih later second (twins.put place inside handler) agree
      | false =>
        rw [List.filter_cons_of_neg (by simp [inside])]
        have untyped : i.dataType? ≠ some dataType := of_decide_eq_false (isOf.symm.trans inside)
        refine alone_outside (here (· ≠ dataType) i ?_) place reaches same ?_
        · exact fun other isOther isSame => untyped (isSame ▸ isOther)
        · exact fun j u late handler second agree =>
            ih later second (twins.put_left place inside handler) agree

/-! ## A whole message -/

/-- Announcing what is planned needs no store and comes to its end. -/
theorem asks_announceAll (groups : List (Touched D B)) :
    (groups.forM Touched.announce).Asks (B := B) fun request =>
      (∃ entry, request = .note entry) ∨ request = .count .unchanged := by
  induction groups with
  | nil => trivial
  | cons group rest ih =>
    refine Asks.bind (p := group.announce) ?_ fun _ => ih
    unfold Touched.announce
    split
    next => exact ⟨.inl ⟨_, rfl⟩, fun _ => trivial⟩
    next => trivial
    next => exact ⟨.inr rfl, fun _ => ⟨.inl ⟨_, rfl⟩, fun _ => trivial⟩⟩
    next =>
      dsimp only
      split
      next => exact ⟨.inl ⟨_, rfl⟩, fun _ => trivial⟩
      next => trivial

theorem announced (groups : List (Touched D B)) (s : Store) :
    ∃ past, (groups.forM Touched.announce).Reaches (B := B) s past (.done ()) s := by
  obtain ⟨past, ⟨⟩, reaches⟩ := (asks_announceAll groups).completes (fun request known => by
    rcases known with ⟨entry, rfl⟩ | rfl
    · exact ⟨(), fun _ => rfl⟩
    · exact ⟨(), fun _ => rfl⟩) s
  exact ⟨past, reaches⟩

/-- Announcing concerns no data type. -/
theorem Reaches.announce_elsewhere {groups : List (Touched D B)} {q : Program B PUnit}
    (reaches : (groups.forM Touched.announce).Reaches s past q t) (dataType : String) :
    t.partition dataType = s.partition dataType ∧ callsFor dataType past = [] := by
  have keeps : (groups.forM Touched.announce).Keeps (keepingTo (B := B) fun _ => False) ()
      fun _ _ => True :=
    (Touched.keeps_announceAll keepingTo_ignores.note (keepingTo_ignores_count _) groups ()).imp
      fun _ _ _ => trivial
  exact reaches.elsewhere keeps id

theorem Reaches.persist_alone {maxAttempts : Nat} {bindings : List (Binding B)}
    (isolated : (m.plan bindings).only (m₀.isOf dataType) =
      m.plan (m₀.bindingsOf dataType bindings)) (like : Like m₀ m)
    (reaches : (persist .request maxAttempts bindings m).Reaches s past q t) :
    (persist .request maxAttempts (m₀.bindingsOf dataType bindings) m).KeepsUp dataType s
      past q t := by
  rcases Reaches.bind_cases reaches with ⟨p, first, rfl, unfinished⟩ |
    ⟨⟨⟩, early, u, late, first, second, rfl⟩
  · obtain ⟨agree, calls⟩ := first.announce_elsewhere dataType
    exact keepsUp_start agree.symm calls fun m => unfinished _
  · obtain ⟨agree, calls⟩ := first.announce_elsewhere dataType
    obtain ⟨before, announced⟩ := announced
      (Touched.groups m.invocations (m₀.bindingsOf dataType bindings)) s
    have silent := (announced.announce_elsewhere dataType).2
    refine .after (announced.bind _) ?_ (silent.trans calls.symm)
    rw [WritePlan.writes_eq] at second
    have alone := second.alone confined_tasks ⟨like, fun _ _ => rfl⟩ agree.symm
    rw [← WritePlan.tasks_only, ← WritePlan.writes_eq] at alone
    show (inTurn (writes .request maxAttempts (m.plan (m₀.bindingsOf dataType bindings))) m).KeepsUp
      dataType s late q t
    rw [← isolated]
    exact alone

end Program

/-- A message isolates its data types exactly if no two bound instances of different data types have
the same identity: then, whatever flags the handlers set, it plans for each data type what it would
plan for the sagas of this one alone, and every run of its writes does the same to the partition,
index and all, after the same calls. -/
theorem isolated_iff_apart {m : Incoming D B} {bindings : List (Binding B)} :
    (m.Apart bindings ↔ ∀ marks dataType,
        ((m.marked marks).plan bindings).only (m.isOf dataType) =
          (m.marked marks).plan (m.bindingsOf dataType bindings)) ∧
      (m.Apart bindings → ∀ marks dataType maxAttempts s past q t,
        (Incoming.persist .request maxAttempts bindings (m.marked marks)).Reaches s past q t →
        (Incoming.persist .request maxAttempts (m.bindingsOf dataType bindings)
          (m.marked marks)).KeepsUp dataType s past q t) := by
  refine ⟨apart_iff, fun apart marks dataType maxAttempts s past q t reaches => ?_⟩
  have like : m.Like (m.marked marks) := by
    refine ⟨rfl, List.ext_getElem? fun k => ?_⟩
    simp [Incoming.marked, Invocation.marked, Function.comp_def]
  exact reaches.persist_alone (apart_iff.1 apart marks dataType) like

/-! ## A tally and a budget -/

section Tally

open Demo

def rentId : Uuid := Tally.number 1

def foodId : Uuid := Tally.number 2

/-- Closes the tally that is identified by the message. -/
def closing : Saga Tally Posting :=
  { Tally.clearing with
    name := "saga.closing"
    handle := fun _ _ inst => .done ⟨inst.data, true, false, .ok ()⟩ }

/-- Clears the budget that is identified by the message. Budgets are like tallies. -/
def budgeting : Saga Tally Posting :=
  { Tally.clearing with
    name := "saga.budget"
    dataType := { Tally.dataType with name := "demo.budget" } }

/-- The sagas bound to instances of these identities, before their handlers run. -/
def closingBeside (closed cleared : Uuid) : Incoming Tally Posting :=
  let bound (s : Saga Tally Posting) (id : Uuid) : Invocation Tally Posting :=
    { Invocation.start (.saga s) (Tally.clear closed).message false with
      bound := some (.ofData ⟨⟨id, .initial⟩, "rent", 10⟩ false) }
  ⟨(Tally.clear closed).message, .ofId closed, .fixed false,
    [bound closing closed, bound budgeting cleared]⟩

/-- A tally that is closed does not concern a budget of another identity. -/
theorem budget_of_food_cleared :
    let m := closingBeside rentId foodId
    let bindings : List (Binding Posting) := [⟨0, [], []⟩, ⟨1, [], []⟩]
    m.Apart bindings ∧
      ((m.marked fun k => (k = 0, false)).plan bindings).only (m.isOf "demo.budget") =
        (m.marked fun k => (k = 0, false)).plan (m.bindingsOf "demo.budget" bindings) := by
  intro m bindings
  have apart : m.Apart bindings := by
    have holders : Touched.holders m.invocations bindings =
        [(rentId, (0, m.invocations[0]), []), (foodId, (1, m.invocations[1]), [])] := rfl
    have other : rentId ≠ foodId := by decide
    intro h isHolder h' isHolder' same
    rw [holders] at isHolder isHolder'
    simp only [List.mem_cons, List.not_mem_nil, or_false] at isHolder isHolder'
    rcases isHolder with rfl | rfl <;> rcases isHolder' with rfl | rfl
    · rfl
    · exact absurd same other
    · exact absurd same.symm other
    · rfl
  exact ⟨apart, isolated_iff_apart.1.1 apart _ _⟩

/-- A tally and a budget of ten, of the same identity. -/
def rentBooks : Store :=
  let tally := Tally.dataType.toDocument ⟨⟨rentId, .initial⟩, "rent", 10⟩
  ((Store.empty.insert tally []).2.insert { tally with dataType := "demo.budget" } []).2

/-- What is stored after these sagas, and no others, have handled the message. -/
def rentAfter (sagas : List (Saga Tally Posting)) : Store :=
  let registry := sagas.foldl (fun registry saga => registry.add "demo.clear" (.saga saga)) .empty
  let job : Job Tally Posting := ⟨.default, false, .logAndSkip, registry, Tally.clear rentId, false⟩
  (job.program.run (fun request s => s.serve (obliging .nil) request) rentBooks).2

/-- A tally that is closed keeps the budget of the same identity from being cleared. -/
theorem closed_tally_keeps_budget :
    ((rentAfter [closing, budgeting]).row? "demo.budget" rentId).map (·.document) =
        some ⟨rentId, ⟨0⟩, "demo.budget", .arr [.str "rent", .int 10]⟩ ∧
      ((rentAfter [budgeting]).row? "demo.budget" rentId).map (·.document) =
        some ⟨rentId, ⟨1⟩, "demo.budget", .arr [.str "rent", .int 0]⟩ :=
  ⟨rfl, rfl⟩

end Tally

end Sagas
