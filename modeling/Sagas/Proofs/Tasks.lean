import Sagas.Proofs.Committing
import Sagas.Proofs.Stages

/-!
# The writes of a message, one by one

A plan is a list of tasks, each for the invocation at one place, and no place has two of them. The
tasks are done in order, up to the first that fails. A task makes one call, and another one each
time that it has lost to somebody else and has merged what is stored; only its last call can take
effect.

Results:
1. `plan_nodup`: no place is planned twice.
2. `returns_inOrder`, `Wrote.apart`: tasks one after the other, each on what was at its place.
3. `Planned.keeps_task`: the calls for one item, of which at most the last succeeds.
4. `Wrote.carried`, `effects_of_carried`: what items have changed that have succeeded.
-/

namespace Sagas

variable {D B : Type}

/-! ## The tasks of a plan -/

/-- A write with the place of its invocation. -/
abbrev PlannedWrite (D B : Type) := Nat × (Invocation D B → Program B (Commit.Outcome D B))

namespace WritePlan

def tasks (send : Send B) (maxAttempts : Nat) (p : WritePlan B) : List (PlannedWrite D B) :=
  p.inserts.map (fun (index, rules) => (index, Commit.persist send maxAttempts rules .insert))
    ++ p.updates.map (fun (index, rules) => (index, Commit.persist send maxAttempts rules .update))
    ++ p.deletes.map fun index => (index, fun i => do return (i, ← Commit.delete i))

/-- Each write on its invocation. -/
def inOrder (tasks : List (PlannedWrite D B)) : List (Continuation D B) :=
  tasks.map fun task => Incoming.onInvocation task.1 task.2

/-- The places of a plan, in the order of their writes. -/
def places (p : WritePlan B) : List Nat :=
  p.inserts.map (·.1) ++ p.updates.map (·.1) ++ p.deletes

variable {send : Send B} {maxAttempts : Nat} {p : WritePlan B}

theorem writes_eq : Incoming.writes (D := D) send maxAttempts p =
    inOrder (p.tasks send maxAttempts) := by
  simp only [Incoming.writes, inOrder, tasks, List.map_append, List.map_map]
  rfl

end WritePlan

/-! ## No place twice -/

theorem nodup_eraseDups {α : Type} [DecidableEq α] (l : List α) : l.eraseDups.Nodup := by
  -- By the length: what is left of the list is filtered before it is gone through.
  match l with
  | [] => exact List.nodup_nil
  | a :: rest =>
    have shorter : (rest.filter fun b => !b == a).length < (a :: rest).length :=
      Nat.lt_succ_of_le (List.length_filter_le _ _)
    rw [List.eraseDups_cons, List.nodup_cons]
    exact ⟨by simp, nodup_eraseDups (rest.filter fun b => !b == a)⟩
termination_by l.length
decreasing_by exact shorter

namespace Fate

def places (f : Fate) : List Nat :=
  f.inserts ++ f.updates ++ f.deletes

end Fate

namespace Touched

variable {t : Touched D B} {invocations : List (Invocation D B)} {bindings : List (Binding B)}

theorem mem_places {place : Nat} (planned : place ∈ t.fate.places) :
    ∃ i, (place, i) ∈ t.copies :=
  copy_of_fate (by simpa [Fate.places, or_assoc] using planned)

theorem nodup_fate (distinct : (t.copies.map (·.1)).Nodup) : t.fate.places.Nodup := by
  unfold fate
  split
  next place i first => split <;> simp [Fate.places, Fate.inserts, Fate.updates, Fate.deletes]
  next none =>
    dsimp only
    split
    next => simp [Fate.places, Fate.inserts, Fate.updates, Fate.deletes]
    next =>
      have writers : ((t.copies.filter fun copy => !copy.2.isUnchanged).map (·.1)).Nodup :=
        distinct.sublist (List.filter_sublist.map _)
      simp only [Fate.places, Fate.inserts, Fate.updates, Fate.deletes, List.append_nil,
        List.partition_eq_filter_filter, ← List.map_append]
      exact ((List.filter_append_perm _ _).map _).nodup_iff.2 writers

theorem nodup_copies (distinct : (bindings.map (·.index)).Nodup) (id : Uuid) :
    ((gather (holders invocations bindings) id).copies.map (·.1)).Nodup := by
  have all : ((holders invocations bindings).map (·.2.1.1)).Nodup :=
    distinct.sublist (holders_sublist invocations bindings)
  refine all.sublist ?_
  rw [gather, List.map_map]
  exact List.filter_sublist.map _

/-- What is planned for different identities is at different places. -/
theorem disjoint_fates {id id' : Uuid} (other : id ≠ id') :
    List.Disjoint (gather (holders invocations bindings) id).fate.places
      (gather (holders invocations bindings) id').fate.places := by
  intro place planned planned'
  obtain ⟨i, copy⟩ := mem_places planned
  obtain ⟨j, copy'⟩ := mem_places planned'
  obtain ⟨rules, isHolder⟩ := mem_copies.1 copy
  obtain ⟨rules', isHolder'⟩ := mem_copies.1 copy'
  obtain ⟨-, -, -, -, here, -, holds⟩ := mem_holders.1 isHolder
  obtain ⟨-, -, -, -, here', -, holds'⟩ := mem_holders.1 isHolder'
  cases here.symm.trans here'
  exact other (Option.some.inj (holds.symm.trans holds'))

end Touched

/-- A plan has no place twice. -/
theorem plan_nodup {m : Incoming D B} {bindings : List (Binding B)}
    (distinct : (bindings.map (·.index)).Nodup) : (m.plan bindings).places.Nodup := by
  have perm : ∀ groups : List (Touched D B),
      ((WritePlan.ofGroups groups).places).Perm (groups.flatMap fun t => t.fate.places) := by
    intro groups
    rw [WritePlan.ofGroups_eq]
    simp only [WritePlan.places, List.map_flatMap, List.map_map, Function.comp_def, List.map_id']
    refine (((List.flatMap_append_perm groups _ _).append_right _).trans ?_)
    exact List.flatMap_append_perm groups _ _
  unfold Incoming.plan
  rw [(perm _).nodup_iff, List.nodup_flatMap, Touched.groups_eq]
  constructor
  · intro t group
    obtain ⟨id, -, rfl⟩ := List.mem_map.1 group
    exact Touched.nodup_fate (Touched.nodup_copies distinct id)
  · rw [List.pairwise_map]
    exact (nodup_eraseDups _).imp fun other => Touched.disjoint_fates other

/-! ## Tasks in order -/

namespace Incoming

variable {m m' : Incoming D B} {past : List (Exchange B)} {e : SagaError}

theorem returns_onInvocation {index : Nat}
    {step : Invocation D B → Program B (Invocation D B × Except SagaError Unit)}
    {answer : Except SagaError Unit} :
    (onInvocation index step m).Returns past (m', answer) ↔
      ∃ i j, m.invocations[index]? = some i ∧ (step i).Returns past (j, answer) ∧
        m' = m.put index j := by
  unfold onInvocation
  split
  next missing => simp [missing]
  next i found =>
    rw [Program.returns_bind]
    constructor
    · rintro ⟨⟨j, answer⟩, early, late, returns, follows, rfl⟩
      obtain ⟨rfl, same⟩ := Program.returns_done.1 follows
      cases same
      exact ⟨i, j, found, returns, rfl⟩
    · rintro ⟨i', j, place, returns, rfl⟩
      cases found.symm.trans place
      exact ⟨_, past, [], returns, .done _, rfl⟩

/-- These tasks have succeeded, one after the other, with these exchanges each. -/
inductive Wrote : Incoming D B → List (PlannedWrite D B) → List (List (Exchange B)) →
    Incoming D B → Prop
  | nil {m : Incoming D B} : Wrote m [] [] m
  | cons {m m' : Incoming D B} {place : Nat} {i j : Invocation D B}
      {task : Invocation D B → Program B (Commit.Outcome D B)} {tasks : List (PlannedWrite D B)}
      {part : List (Exchange B)} {parts : List (List (Exchange B))} :
      m.invocations[place]? = some i → (task i).Returns part (j, .ok ()) →
      Wrote (m.put place j) tasks parts m' →
      Wrote m ((place, task) :: tasks) (part :: parts) m'

variable {tasks : List (PlannedWrite D B)} {parts : List (List (Exchange B))}

theorem returns_inOrder : (inTurn (WritePlan.inOrder tasks) m).Returns past (m', .ok ()) ↔
    ∃ parts, m.Wrote tasks parts m' ∧ past = parts.reverse.flatten := by
  induction tasks generalizing m past with
  | nil =>
    rw [WritePlan.inOrder, List.map_nil, inTurn, Program.pure_eq, Program.returns_done]
    constructor
    · rintro ⟨rfl, same⟩
      cases same
      exact ⟨[], .nil, rfl⟩
    · rintro ⟨parts, ⟨⟩, rfl⟩
      exact ⟨rfl, rfl⟩
  | cons task rest ih =>
    obtain ⟨place, task⟩ := task
    rw [WritePlan.inOrder, List.map_cons, returns_inTurn_cons]
    constructor
    · rintro (⟨e, same, -⟩ | ⟨m₁, early, late, first, follows, rfl⟩)
      · cases same
      · obtain ⟨i, j, here, returns, rfl⟩ := returns_onInvocation.1 first
        obtain ⟨parts, wrote, rfl⟩ := ih.1 follows
        exact ⟨early :: parts, .cons here returns wrote, by simp⟩
    · rintro ⟨parts, wrote, rfl⟩
      cases wrote with
      | @cons _ _ _ i j _ _ part parts here returns later =>
        refine .inr ⟨m.put place j, part, parts.reverse.flatten, ?_, ?_, by simp⟩
        · exact returns_onInvocation.2 ⟨i, j, here, returns, rfl⟩
        · exact ih.2 ⟨parts, later, rfl⟩

/-- Tasks that fail, fail at one of them: those before it have succeeded. -/
theorem returns_inOrder_error : (inTurn (WritePlan.inOrder tasks) m).Returns past (m', .error e) ↔
    ∃ k place task m₁ i j parts late, tasks[k]? = some (place, task) ∧
      m.Wrote (tasks.take k) parts m₁ ∧ m₁.invocations[place]? = some i ∧
      (task i).Returns late (j, .error e) ∧ m' = m₁.put place j ∧
      past = late ++ parts.reverse.flatten := by
  rw [returns_inTurn_error]
  unfold WritePlan.inOrder
  constructor
  · rintro ⟨k, step, m₁, early, late, known, before, fails, rfl⟩
    rw [List.getElem?_map] at known
    obtain ⟨⟨place, task⟩, isTask, rfl⟩ := Option.map_eq_some_iff.1 known
    rw [← List.map_take] at before
    obtain ⟨parts, wrote, rfl⟩ := returns_inOrder.1 before
    obtain ⟨i, j, here, returns, rfl⟩ := returns_onInvocation.1 fails
    exact ⟨k, place, task, m₁, i, j, parts, late, isTask, wrote, here, returns, rfl, rfl⟩
  · rintro ⟨k, place, task, m₁, i, j, parts, late, known, wrote, here, returns, rfl, rfl⟩
    refine ⟨k, onInvocation place task, m₁, parts.reverse.flatten, late, ?_, ?_, ?_, rfl⟩
    · rw [List.getElem?_map, known]
      rfl
    · rw [← List.map_take]
      exact returns_inOrder.2 ⟨parts, wrote, rfl⟩
    · exact returns_onInvocation.2 ⟨i, j, here, returns, rfl⟩

/-- Tasks leave the invocations at other places alone. -/
theorem Wrote.elsewhere (wrote : m.Wrote tasks parts m') {place : Nat}
    (other : place ∉ tasks.map (·.1)) : m'.invocations[place]? = m.invocations[place]? := by
  induction wrote with
  | nil => rfl
  | @cons m m' first i j task tasks part parts _ _ _ ih =>
    obtain ⟨differ, later⟩ := not_or.1 (mt List.mem_cons.2 other)
    rw [ih later]
    simp [Incoming.put, Ne.symm differ]

/-- If no place has two tasks, each finds the invocation that was there before the first. -/
theorem Wrote.apart {m₀ : Incoming D B} (wrote : m.Wrote tasks parts m')
    (distinct : (tasks.map (·.1)).Nodup)
    (agree : ∀ task ∈ tasks, m.invocations[task.1]? = m₀.invocations[task.1]?) :
    List.Forall₂ (fun task part => ∃ i j, m₀.invocations[task.1]? = some i ∧
      (task.2 i).Returns part (j, .ok ())) tasks parts := by
  induction wrote with
  | nil => exact .nil
  | @cons m m' place i j task tasks part parts here returns _ ih =>
    obtain ⟨apart, distinct⟩ := List.nodup_cons.1 distinct
    have first := agree _ List.mem_cons_self
    refine .cons ⟨i, j, first.symm.trans here, returns⟩ (ih distinct fun other member => ?_)
    have differ : place ≠ other.1 := fun same =>
      apart (List.mem_map.2 ⟨other, member, same.symm⟩)
    rw [← agree other (List.mem_cons_of_mem _ member)]
    simp [Incoming.put, differ]

end Incoming

/-! ## Calls of storage -/

/-- A write or a deletion that succeeds. -/
def Exchange.takesEffect (x : Exchange B) : Bool :=
  x.commits || x.deletes

theorem Exchange.isWrite_of_takesEffect {x : Exchange B} (takesEffect : x.takesEffect = true) :
    x.request.isWrite = true := by
  obtain ⟨request, reply⟩ := x
  cases request <;> first | rfl | cases takesEffect

/-- The writes and deletions among these exchanges, the latest first. -/
def calls (past : List (Exchange B)) : List (Exchange B) :=
  past.filter (·.request.isWrite)

@[simp] theorem calls_append (late early : List (Exchange B)) :
    calls (late ++ early) = calls late ++ calls early :=
  List.filter_append ..

theorem calls_eq_nil {past : List (Exchange B)}
    (quiet : ∀ x ∈ past, x.request.isWrite = false) : calls past = [] :=
  List.filter_eq_nil_iff.2 fun x member => by simp [quiet x member]

theorem filter_takesEffect_calls (past : List (Exchange B)) :
    (calls past).filter (·.takesEffect) = past.filter (·.takesEffect) := by
  rw [calls, List.filter_filter]
  refine List.filter_congr fun x _ => ?_
  rw [Bool.and_eq_left_iff_imp]
  exact Exchange.isWrite_of_takesEffect

/-- The contract that keeps the calls. -/
def ledger : Contract B (List (Exchange B)) where
  owes _ _ := True
  expects _ _ _ := True
  next s request reply := if request.isWrite then ⟨request, reply⟩ :: s else s

theorem after_ledger (past : List (Exchange B)) : ledger.after [] past = calls past := by
  induction past with
  | nil => rfl
  | cons x earlier ih =>
    show ledger.next (ledger.after [] earlier) x.request x.reply = _
    rw [ih, calls, calls, List.filter_cons]
    rfl

theorem met_ledger (past : List (Exchange B)) : ledger.Met [] past := by
  induction past with
  | nil => trivial
  | cons x earlier ih => exact ⟨ih, trivial⟩

theorem Program.Returns.calls {α : Type} {p : Program B α} {past : List (Exchange B)} {a : α}
    {post : α → List (Exchange B) → Prop} (returns : p.Returns past a)
    (keeps : p.Keeps ledger [] post) : post a (calls past) :=
  after_ledger past ▸ returns.keeps keeps (met_ledger past)

theorem ledger_ignores {request : Request B} (quiet : request.isWrite = false) :
    (ledger (B := B)).Ignores request where
  owes _ := trivial
  next _ _ := if_neg (by simp [quiet])

theorem ledger_acts : (ledger (B := B)).IgnoresActs Send.request where
  send _ _ := ⟨trivial, fun _ _ => rfl⟩
  draw _ := ledger_ignores rfl
  note _ := ledger_ignores rfl
  shutdown := ledger_ignores rfl

/-! ## Items of a plan -/

/-- The call for a write in this mode. -/
def Commit.Mode.request (mode : Commit.Mode) (document : Document) (values : List PropertyValue) :
    Request B :=
  match mode with
  | .insert => .insert document values
  | .update => .update document values

/-- What a plan says to do with the instance at one place. -/
inductive Planned (B : Type) where
  | write (mode : Commit.Mode) (place : Nat) (rules : List (Rule B))
  | delete (place : Nat)

namespace Planned

def place : Planned B → Nat
  | .write _ place _ | .delete place => place

/-- The call that it comes to for this data. -/
def request (item : Planned B) (s : Saga D B) (data : D) : Request B :=
  match item with
  | .write mode _ rules =>
    mode.request (s.dataType.toDocument data) (Invocation.valuesOf s data rules)
  | .delete _ => .delete (s.dataType.toDocument data)

def task (send : Send B) (maxAttempts : Nat) : Planned B → PlannedWrite D B
  | .write mode place rules => (place, Commit.persist send maxAttempts rules mode)
  | .delete place => (place, fun i => do return (i, ← Commit.delete i))

theorem place_task {send : Send B} {maxAttempts : Nat} (item : Planned B) :
    (item.task (D := D) send maxAttempts).1 = item.place := by
  cases item <;> rfl

/-- The calls for an item, the latest first. The first is for the instance as it was planned; each
further one is an update, after a lost call, of what the instance was merged into. -/
inductive Tried (item : Planned B) (i : Invocation D B) : List (Exchange B) → Prop
  | planned {s : Saga D B} {inst : Instance D} {x : Exchange B} :
      i.handler = .saga s → i.bound = some inst → x.request = item.request s inst.data →
      Tried item i [x]
  | merged {s : Saga D B} {mode : Commit.Mode} {place : Nat} {rules : List (Rule B)} {data : D}
      {x lost : Exchange B} {earlier : List (Exchange B)} :
      item = .write mode place rules → i.handler = .saga s → Tried item i (lost :: earlier) →
      lost.takesEffect = false →
      x.request = .update (s.dataType.toDocument data) (Invocation.valuesOf s data rules) →
      Tried item i (x :: lost :: earlier)

variable {item : Planned B} {i : Invocation D B} {x : Exchange B} {earlier : List (Exchange B)}

/-- All calls but the latest were lost. -/
theorem Tried.lost (tried : item.Tried i (x :: earlier)) :
    ∀ y ∈ earlier, y.takesEffect = false := by
  generalize all : x :: earlier = whole at tried
  induction tried generalizing x earlier with
  | planned =>
    cases all
    exact fun y member => nomatch member
  | @merged _ _ _ _ _ _ lost rest _ _ _ missed _ ih =>
    cases all
    exact List.forall_mem_cons.2 ⟨missed, ih rfl⟩

end Planned

namespace WritePlan

/-- Inserts come first, deletions last. -/
def items (p : WritePlan B) : List (Planned B) :=
  p.inserts.map (fun (place, rules) => .write .insert place rules)
    ++ p.updates.map (fun (place, rules) => .write .update place rules)
    ++ p.deletes.map .delete

variable {send : Send B} {maxAttempts : Nat} {p : WritePlan B}

theorem tasks_eq : p.tasks (D := D) send maxAttempts =
    p.items.map (·.task send maxAttempts) := by
  simp [tasks, items, Function.comp_def, Planned.task]

theorem places_items : p.items.map (·.place) = p.places := by
  simp [items, places, Function.comp_def, Planned.place]

end WritePlan

/-- With these calls an item has come to its end: the latest has succeeded if the item has. -/
def Planned.Leaves (item : Planned B) (i : Invocation D B) (r : Commit.Outcome D B)
    (done : List (Exchange B)) : Prop :=
  ∃ x earlier, done = x :: earlier ∧ item.Tried i done ∧ (x.takesEffect = true ↔ r.2 = .ok ())

/-- An item fails whose latest call was lost. -/
theorem Planned.Tried.leaves_lost {item : Planned B} {i : Invocation D B} {x : Exchange B}
    {earlier : List (Exchange B)} (tried : item.Tried i (x :: earlier))
    (missed : x.takesEffect = false) (j : Invocation D B) (e : SagaError) :
    item.Leaves i (j, .error e) (x :: earlier) :=
  ⟨x, earlier, rfl, tried, iff_of_false (by simp [missed]) nofun⟩

namespace Commit

variable {rules : List (Rule B)} {attempt : Nat} {mode : Mode}
  {i j : Invocation D B} {saga : Saga D B} {inst : Instance D} {place : Nat}
  {done : List (Exchange B)}

theorem keeps_write (mode : Mode) (document : Document) (values : List PropertyValue) :
    (write mode document values).Keeps ledger done fun reply t =>
      ∃ x : Exchange B, x.request = mode.request document values ∧ t = x :: done ∧
        x.takesEffect = reply.isOk := by
  cases mode with
  | insert =>
    refine ⟨trivial, fun reply _ => ⟨⟨.insert document values, reply⟩, rfl, rfl, ?_⟩⟩
    cases reply <;> rfl
  | update =>
    refine ⟨trivial, fun reply _ => ⟨⟨.update document values, reply⟩, rfl, rfl, ?_⟩⟩
    cases reply <;> rfl

/-- A round of a commit after these calls, all of which were lost: its invocation is the one that
was planned, or the instance was merged and is updated. -/
structure Pending (item : Planned B) (mode₀ : Mode) (i : Invocation D B) (saga : Saga D B)
    (mode : Mode) (j : Invocation D B) (done : List (Exchange B)) : Prop where
  handler : j.handler = .saga saga
  bound : j.bound ≠ none
  calls : (mode = mode₀ ∧ j = i ∧ done = []) ∨ (mode = .update ∧ ∃ lost earlier,
    done = lost :: earlier ∧ item.Tried i done ∧ lost.takesEffect = false)

theorem Pending.tried {mode₀ : Mode} {x : Exchange B} (isSaga : i.handler = .saga saga)
    (pending : Pending (.write mode₀ place rules) mode₀ i saga mode j done)
    (isBound : j.bound = some inst)
    (writes : x.request = mode.request (saga.dataType.toDocument inst.data)
      (Invocation.valuesOf saga inst.data rules)) :
    (Planned.write mode₀ place rules).Tried i (x :: done) := by
  rcases pending.calls with ⟨rfl, rfl, rfl⟩ | ⟨rfl, lost, earlier, rfl, tried, missed⟩
  · exact .planned isSaga isBound writes
  · exact .merged rfl isSaga tried missed writes

/-- After a lost call, the item ends there or goes on as an update. -/
theorem keeps_resolveConflict_ledger {mode₀ : Mode} {document : Document}
    {values : List PropertyValue} {x : Exchange B}
    {again : Invocation D B → Program B (Outcome D B)} (isSaga : j.handler = .saga saga)
    (isBound : j.bound = some inst) (tried : (Planned.write mode₀ place rules).Tried i (x :: done))
    (missed : x.takesEffect = false)
    (further : ∀ k done, Pending (.write mode₀ place rules) mode₀ i saga .update k done →
      (again k).Keeps ledger done ((Planned.write mode₀ place rules).Leaves i)) :
    (resolveConflict .request attempt mode document values again j).Keeps ledger (x :: done)
      ((Planned.write mode₀ place rules).Leaves i) := by
  have lookups : ∀ request : Request B, (∃ property value,
      request = .find document.dataType property value) → ledger.Ignores request := by
    rintro request ⟨property, value, rfl⟩
    exact ledger_ignores rfl
  refine keeps_resolveConflict ledger_acts.note
    (((asks_fetchFresh _ _ mode).keeps lookups _).imp fun result _ same => ?_)
  subst same
  rcases result with e | _ | fresh
  · exact tried.leaves_lost missed ..
  · exact tried.leaves_lost missed ..
  · refine (Invocation.keeps_resolve trivial isSaga isBound ledger_acts).imp ?_
    rintro ⟨k, answer⟩ _ ⟨rfl, same, merges⟩
    cases answer with
    | error e => exact tried.leaves_lost missed ..
    | ok =>
      refine Program.keeps_ignored_bind (ledger_ignores rfl) fun _ => ?_
      obtain ⟨data, rfl⟩ := merges rfl
      exact further _ _ ⟨isSaga, nofun, .inr ⟨rfl, x, done, rfl, tried, missed⟩⟩

theorem keeps_round_ledger {mode₀ : Mode}
    {again : Option (Invocation D B → Program B (Outcome D B))} (isSaga : i.handler = .saga saga)
    (pending : Pending (.write mode₀ place rules) mode₀ i saga mode j done)
    (further : ∀ more ∈ again, ∀ k done,
      Pending (.write mode₀ place rules) mode₀ i saga .update k done →
        (more k).Keeps ledger done ((Planned.write mode₀ place rules).Leaves i)) :
    (round .request rules attempt mode again j).Keeps ledger done
      ((Planned.write mode₀ place rules).Leaves i) := by
  obtain ⟨inst, isBound⟩ := Option.ne_none_iff_exists'.1 pending.bound
  refine keeps_round pending.handler isBound ledger_acts.note (ledger_ignores rfl)
    (ledger_ignores rfl) ((keeps_write mode _ _).imp ?_)
  rintro reply _ ⟨x, writes, rfl, succeeds⟩
  have tried := pending.tried isSaga isBound writes
  cases reply with
  | ok stored => exact ⟨x, done, rfl, tried, iff_of_true succeeds rfl⟩
  | error e =>
    have missed : x.takesEffect = false := succeeds
    cases e with
    | backend reason => exact tried.leaves_lost missed ..
    | serialization e => exact tried.leaves_lost missed ..
    | conflict reason =>
      show ite _ _ _
      split
      next =>
        cases again with
        | none => exact tried.leaves_lost missed ..
        | some again =>
          exact keeps_resolveConflict_ledger pending.handler isBound tried missed
            (further again rfl)
      next => exact tried.leaves_lost missed ..

theorem keeps_persist_ledger (isSaga : i.handler = .saga saga) (isBound : i.bound ≠ none)
    (maxAttempts : Nat) :
    (persist .request maxAttempts rules mode i).Keeps ledger []
      ((Planned.write mode place rules).Leaves i) := by
  refine keeps_rounds
    (fun _ mode' j done => Pending (.write mode place rules) mode i saga mode' j done) ?_ ?_
    ⟨isSaga, isBound, .inl ⟨rfl, rfl, rfl⟩⟩
  · intro attempt mode' j done pending
    exact keeps_round_ledger isSaga pending (by simp)
  · intro more attempt mode' again j done pending further
    refine keeps_round_ledger isSaga pending fun again' same k done pending' => ?_
    obtain rfl := Option.some.inj same
    exact further k done pending'

theorem keeps_delete_ledger (isSaga : i.handler = .saga saga) (isBound : i.bound = some inst) :
    ((do return (i, ← delete i) : Program B (Outcome D B))).Keeps ledger []
      ((Planned.delete place).Leaves i) := by
  have held : i.document? = some (saga.dataType.toDocument inst.data) := by
    simp [Invocation.document?, Invocation.instance?, isSaga, isBound]
  unfold delete
  rw [held]
  refine ⟨trivial, fun reply _ => ?_⟩
  let x : Exchange B := ⟨.delete (saga.dataType.toDocument inst.data), reply⟩
  have tried : (Planned.delete place).Tried i [x] := .planned isSaga isBound rfl
  cases reply with
  | ok =>
    refine Program.keeps_ignored_bind (ledger_ignores rfl) fun _ => ?_
    exact ⟨x, [], rfl, tried, iff_of_true rfl rfl⟩
  | error e =>
    cases e with
    | backend reason => exact tried.leaves_lost rfl ..
    | serialization e => exact tried.leaves_lost rfl ..
    | conflict reason =>
      refine Program.keeps_ignored_bind (ledger_ignores rfl) fun _ => ?_
      exact Program.keeps_ignored_bind (ledger_ignores rfl) fun _ => tried.leaves_lost rfl ..

end Commit

/-- The calls for an item whose place holds an instance. -/
theorem Planned.keeps_task {item : Planned B} {i : Invocation D B} (held : i.id? ≠ none)
    (maxAttempts : Nat) :
    ((item.task .request maxAttempts).2 i).Keeps ledger [] (item.Leaves i) := by
  obtain ⟨⟨saga, inst⟩, isInstance⟩ : ∃ x, i.instance? = some x := by
    rw [← Option.ne_none_iff_exists']
    exact fun none => held (by simp [Invocation.id?, none])
  obtain ⟨isSaga, isBound⟩ := Invocation.of_instance? isInstance
  cases item with
  | write mode place rules =>
    exact Commit.keeps_persist_ledger isSaga (by simp [isBound]) maxAttempts
  | delete place => exact Commit.keeps_delete_ledger isSaga isBound

/-! ## What is planned -/

/-- What is planned is planned for an invocation that holds an instance and is not skipped. -/
theorem planned_holds {m : Incoming D B} {bindings : List (Binding B)} {item : Planned B}
    (planned : item ∈ (m.plan bindings).items) :
    ∃ i, m.invocations[item.place]? = some i ∧ i.skipped = false ∧ i.id? ≠ none := by
  have held : ∀ {t : Touched D B} {place : Nat} {i : Invocation D B},
      t ∈ Touched.groups m.invocations bindings → (place, i) ∈ t.copies →
        m.invocations[place]? = some i ∧ i.skipped = false ∧ i.id? ≠ none := by
    intro t place i group copy
    obtain ⟨first, -, rfl⟩ := Touched.mem_groups.1 group
    obtain ⟨rules, isHolder⟩ := Touched.mem_copies.1 copy
    obtain ⟨b, -, rfl, -, here, runs, holds⟩ := Touched.mem_holders.1 isHolder
    exact ⟨here, runs, by simp [holds]⟩
  unfold Incoming.plan WritePlan.items at planned
  rw [WritePlan.ofGroups_eq] at planned
  simp only [List.mem_append, List.mem_map, List.mem_flatMap] at planned
  rcases planned with (⟨-, ⟨t, group, place, among, rfl⟩, rfl⟩ |
    ⟨-, ⟨t, group, place, among, rfl⟩, rfl⟩) | ⟨place, ⟨t, group, among⟩, rfl⟩
  · obtain ⟨i, copy⟩ := Touched.copy_of_fate (.inl among)
    exact ⟨i, held group copy⟩
  · obtain ⟨i, copy⟩ := Touched.copy_of_fate (.inr (.inl among))
    exact ⟨i, held group copy⟩
  · obtain ⟨i, copy⟩ := Touched.copy_of_fate (.inr (.inr among))
    exact ⟨i, held group copy⟩

/-- With these calls an item has succeeded, on what is at its place. -/
def Planned.Carried (m : Incoming D B) (item : Planned B) (done : List (Exchange B)) : Prop :=
  ∃ i x earlier, m.invocations[item.place]? = some i ∧ done = x :: earlier ∧ item.Tried i done ∧
    x.takesEffect = true

/-- With these calls an item has failed, on what is at its place. -/
def Planned.Missed (m : Incoming D B) (item : Planned B) (done : List (Exchange B)) : Prop :=
  ∃ i, m.invocations[item.place]? = some i ∧ item.Tried i done ∧
    ∀ x ∈ done, x.takesEffect = false

section Items

variable {m m' : Incoming D B} {maxAttempts : Nat} {items : List (Planned B)}
  {parts done : List (List (Exchange B))}

/-- Items that have succeeded, at places of their own. -/
theorem Incoming.Wrote.carried
    (wrote : m.Wrote (items.map (·.task .request maxAttempts)) parts m')
    (distinct : (items.map (·.place)).Nodup)
    (held : ∀ item ∈ items, ∀ i, m.invocations[item.place]? = some i → i.id? ≠ none) :
    List.Forall₂ (Planned.Carried m) items (parts.map calls) := by
  have places : (items.map (Planned.task (D := D) .request maxAttempts)).map (·.1) =
      items.map (·.place) := by
    rw [List.map_map]
    exact List.map_congr_left fun item _ => item.place_task
  have each := wrote.apart (places ▸ distinct) fun _ _ => rfl
  rw [List.forall₂_map_left_iff] at each
  rw [List.forall₂_map_right_iff]
  refine ((List.forall₂_and_left _ _).2 ⟨held, each⟩).imp ?_
  rintro item part ⟨held, i, j, place, returns⟩
  rw [Planned.place_task] at place
  obtain ⟨x, earlier, same, tried, succeeds⟩ :=
    returns.calls (Planned.keeps_task (held i place) maxAttempts)
  exact ⟨i, x, earlier, place, same, tried, succeeds.2 rfl⟩

/-- An item that has failed. -/
theorem Planned.missed_of_returns {item : Planned B} {i j : Invocation D B} {e : SagaError}
    {part : List (Exchange B)} (place : m.invocations[item.place]? = some i) (held : i.id? ≠ none)
    (returns : ((item.task .request maxAttempts).2 i).Returns part (j, .error e)) :
    item.Missed m (calls part) := by
  obtain ⟨x, earlier, same, tried, succeeds⟩ := returns.calls (Planned.keeps_task held maxAttempts)
  have missed : x.takesEffect = false := Bool.eq_false_iff.2 fun takes => nomatch succeeds.1 takes
  refine ⟨i, place, tried, ?_⟩
  rw [same] at tried ⊢
  exact List.forall_mem_cons.2 ⟨missed, tried.lost⟩

/-- Items that have succeeded have changed one thing each, in their order. -/
theorem effects_of_carried (carried : List.Forall₂ (Planned.Carried m) items done) :
    List.Forall₂ (fun item x => ∃ i earlier, m.invocations[item.place]? = some i ∧
      item.Tried i (x :: earlier)) items (done.reverse.flatten.filter (·.takesEffect)).reverse := by
  induction carried with
  | nil => exact .nil
  | @cons item part items done first _ ih =>
    obtain ⟨i, x, earlier, place, rfl, tried, takes⟩ := first
    have without : earlier.filter (·.takesEffect) = [] :=
      List.filter_eq_nil_iff.2 fun y member => by simp [tried.lost y member]
    have here : (((x :: earlier) :: done).reverse.flatten.filter (·.takesEffect)).reverse =
        x :: (done.reverse.flatten.filter (·.takesEffect)).reverse := by
      rw [List.reverse_cons, List.flatten_append, List.filter_append, List.reverse_append]
      simp [takes, without]
    rw [here]
    exact .cons ⟨i, earlier, place, tried⟩ ih

end Items

end Sagas
