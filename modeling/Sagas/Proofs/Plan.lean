import Sagas.Proofs.Processing

/-!
# What a plan consists of

The plan of a message is read off the holders of its instances: the invocations that are bound and
not skipped. Holders of one identity form a group, and every group has a fate of its own.

Results:
1. `mem_holders`, `groups_eq`, `ofGroups_eq`: holders, groups and the plan in terms of one another.
2. `mem_inserts`, `mem_updates`, `mem_deletes`: what has to hold of an invocation that is written.
3. `keeps_persist`: the writes of a message under a contract, one rule for each kind.
-/

namespace Sagas

variable {D B : Type}

/-! ## Fates -/

namespace Fate

def inserts : Fate → List Nat
  | .written inserts _ => inserts
  | _ => []

def updates : Fate → List Nat
  | .written _ updates => updates
  | _ => []

def deletes : Fate → List Nat
  | .deleted index => [index]
  | _ => []

end Fate

namespace WritePlan

theorem ofGroups_eq (groups : List (Touched D B)) :
    ofGroups groups =
      ⟨groups.flatMap fun t => t.fate.inserts.map (·, t.rules),
        groups.flatMap fun t => t.fate.updates.map (·, t.rules),
        groups.flatMap fun t => t.fate.deletes⟩ := by
  -- The plan so far goes in front of what the remaining groups add.
  have further : ∀ p : WritePlan B, groups.foldl add p =
      ⟨p.inserts ++ groups.flatMap fun t => t.fate.inserts.map (·, t.rules),
        p.updates ++ groups.flatMap fun t => t.fate.updates.map (·, t.rules),
        p.deletes ++ groups.flatMap fun t => t.fate.deletes⟩ := by
    induction groups with
    | nil => simp
    | cons t rest ih =>
      intro p
      rw [List.foldl_cons, ih]
      cases fate : t.fate <;> simp [add, fate, Fate.inserts, Fate.updates, Fate.deletes]
  exact (further empty).trans (by simp [empty])

end WritePlan

/-! ## The plan of a message -/

/-- What is to be written after the handlers of a message have run. -/
def Incoming.plan (m : Incoming D B) (bindings : List (Binding B)) : WritePlan B :=
  .ofGroups (Touched.groups m.invocations bindings)

/-- The part of a plan for the chosen places. -/
def WritePlan.only (p : WritePlan B) (chosen : Nat → Bool) : WritePlan B :=
  ⟨p.inserts.filter (chosen ·.1), p.updates.filter (chosen ·.1), p.deletes.filter chosen⟩

/-- The instance at a place is to be inserted or updated. -/
def WritePlan.Writes (p : WritePlan B) (index : Nat) : Prop :=
  ∃ rules, (index, rules) ∈ p.inserts ∨ (index, rules) ∈ p.updates

namespace Touched

/-! ## Holders and groups -/

/-- One invocation that holds an instance, with its identity, its place and its rules. -/
abbrev Holder (D B : Type) := Uuid × (Nat × Invocation D B) × List (Rule B)

theorem mem_holders {invocations : List (Invocation D B)} {bindings : List (Binding B)}
    {id : Uuid} {index : Nat} {i : Invocation D B} {rules : List (Rule B)} :
    (id, (index, i), rules) ∈ holders invocations bindings ↔
      ∃ b ∈ bindings, b.index = index ∧ b.indexed = rules ∧ invocations[index]? = some i ∧
        i.skipped = false ∧ i.id? = some id := by
  induction bindings with
  | nil => simp [holders]
  | cons b rest ih =>
    rw [holders]
    cases found : invocations[b.index]? with
    | none =>
      simp only [ih, List.mem_cons, exists_eq_or_imp]
      refine (or_iff_right ?_).symm
      rintro ⟨rfl, -, present, -⟩
      exact nomatch found.symm.trans present
    | some j =>
      simp only
      split
      next skipped =>
        simp only [ih, List.mem_cons, exists_eq_or_imp]
        refine (or_iff_right ?_).symm
        rintro ⟨rfl, -, present, runs, -⟩
        cases found.symm.trans present
        simp [skipped] at runs
      next runs =>
        cases held : j.id? with
        | none =>
          simp only [ih, List.mem_cons, exists_eq_or_imp]
          refine (or_iff_right ?_).symm
          rintro ⟨rfl, -, present, -, holds⟩
          cases found.symm.trans present
          exact nomatch held.symm.trans holds
        | some own =>
          simp only [ih, List.mem_cons, exists_eq_or_imp]
          refine or_congr ⟨?_, ?_⟩ Iff.rfl
          · intro same
            cases same
            exact ⟨rfl, rfl, found, by simpa using runs, held⟩
          · rintro ⟨rfl, rfl, present, -, holds⟩
            cases found.symm.trans present
            cases held.symm.trans holds
            rfl

theorem bound_of_id? {i : Invocation D B} {id : Uuid} (holds : i.id? = some id) :
    i.bound ≠ none := by
  intro unbound
  cases handler : i.handler <;>
    simp [Invocation.id?, Invocation.instance?, unbound, handler] at holds

theorem id?_of_bound {i : Invocation D B} {saga : Saga D B} {inst : Instance D}
    (isSaga : i.handler = .saga saga) (isBound : i.bound = some inst) :
    i.id? = some (saga.dataType.id inst.data) := by
  simp [Invocation.id?, Invocation.instance?, isSaga, isBound]

theorem holders_sublist (invocations : List (Invocation D B)) (bindings : List (Binding B)) :
    ((holders invocations bindings).map (·.2.1.1)).Sublist (bindings.map (·.index)) := by
  induction bindings with
  | nil => exact .slnil
  | cons b rest ih =>
    rw [holders]
    split
    next => exact ih.cons _
    next i found =>
      split
      next => exact ih.cons _
      next =>
        split
        next => exact ih.cons _
        next => exact ih.cons_cons _

/-- The group of the holders of one identity. -/
def gather (all : List (Holder D B)) (id : Uuid) : Touched D B :=
  let own := all.filter (·.1 = id)
  ⟨id, own.map (·.2.1), RuleSet.distinctPaths [] (own.flatMap (·.2.2))⟩

theorem groups_eq (invocations : List (Invocation D B)) (bindings : List (Binding B)) :
    groups invocations bindings =
      ((holders invocations bindings).map (·.1)).eraseDups.map
        (gather (holders invocations bindings)) := rfl

theorem mem_groups {invocations : List (Invocation D B)} {bindings : List (Binding B)}
    {t : Touched D B} : t ∈ groups invocations bindings ↔
      ∃ h ∈ holders invocations bindings, t = gather (holders invocations bindings) h.1 := by
  rw [groups_eq]
  simp only [List.mem_map, List.mem_eraseDups]
  constructor
  · rintro ⟨id, ⟨h, member, rfl⟩, rfl⟩
    exact ⟨h, member, rfl⟩
  · rintro ⟨h, member, rfl⟩
    exact ⟨h.1, ⟨h, member, rfl⟩, rfl⟩

theorem mem_copies {all : List (Holder D B)} {id : Uuid} {copy : Nat × Invocation D B} :
    copy ∈ (gather all id).copies ↔ ∃ rules, (id, copy, rules) ∈ all := by
  simp only [gather, List.mem_map, List.mem_filter, decide_eq_true_eq]
  constructor
  · rintro ⟨⟨own, copy, rules⟩, ⟨member, rfl⟩, rfl⟩
    exact ⟨rules, member⟩
  · rintro ⟨rules, member⟩
    exact ⟨(id, copy, rules), ⟨member, rfl⟩, rfl⟩

/-! ## What is written -/

variable {t : Touched D B} {index : Nat}

/-- No copy is complete, so every copy may be written. -/
def Open (t : Touched D B) : Prop :=
  ∀ copy ∈ t.copies, copy.2.isCompleted = false

theorem find?_eq_none_iff_open :
    t.copies.find? (·.2.isCompleted) = none ↔ t.Open := by
  simp [Open, List.find?_eq_none]

theorem not_open_of_find? {copy : Nat × Invocation D B}
    (first : t.copies.find? (·.2.isCompleted) = some copy) : ¬ t.Open := fun isOpen =>
  nomatch first.symm.trans (find?_eq_none_iff_open.2 isOpen)

theorem mem_inserts : index ∈ t.fate.inserts ↔
    t.Open ∧ ∃ i, (index, i) ∈ t.copies ∧ i.isUnchanged = false ∧ i.isNew = true := by
  unfold fate
  split
  next place i first =>
    have closed := not_open_of_find? first
    split <;> simp [Fate.inserts, closed]
  next none =>
    have isOpen := find?_eq_none_iff_open.1 none
    simp only [isOpen, true_and]
    split
    next empty =>
      simp only [List.isEmpty_iff, List.filter_eq_nil_iff] at empty
      simp only [Fate.inserts, List.not_mem_nil, false_iff]
      rintro ⟨i, member, changed, -⟩
      simpa [changed] using empty _ member
    next =>
      simp only [Fate.inserts, List.partition_eq_filter_filter, List.mem_map, List.mem_filter,
        Prod.exists, exists_and_right, exists_eq_right, Bool.not_eq_true']
      exact exists_congr fun i => and_assoc

theorem mem_updates : index ∈ t.fate.updates ↔
    t.Open ∧ ∃ i, (index, i) ∈ t.copies ∧ i.isUnchanged = false ∧ i.isNew = false := by
  unfold fate
  split
  next place i first =>
    have closed := not_open_of_find? first
    split <;> simp [Fate.updates, closed]
  next none =>
    have isOpen := find?_eq_none_iff_open.1 none
    simp only [isOpen, true_and]
    split
    next empty =>
      simp only [List.isEmpty_iff, List.filter_eq_nil_iff] at empty
      simp only [Fate.updates, List.not_mem_nil, false_iff]
      rintro ⟨i, member, changed, -⟩
      simpa [changed] using empty _ member
    next =>
      simp only [Fate.updates, List.partition_eq_filter_filter, List.mem_map, List.mem_filter,
        Prod.exists, exists_and_right, exists_eq_right, Bool.not_eq_true', Function.comp_apply]
      exact exists_congr fun i => and_assoc

theorem mem_deletes : index ∈ t.fate.deletes ↔
    ∃ i, t.copies.find? (·.2.isCompleted) = some (index, i) ∧ i.isNew = false := by
  unfold fate
  split
  next place i first =>
    cases fresh : i.isNew with
    | false =>
      simp only [Bool.false_eq_true, if_false, Fate.deletes, List.mem_singleton]
      constructor
      · rintro rfl
        exact ⟨i, first, fresh⟩
      · rintro ⟨j, same, -⟩
        cases first.symm.trans same
        rfl
    | true =>
      simp only [if_true, Fate.deletes, List.not_mem_nil, false_iff]
      rintro ⟨j, same, old⟩
      cases first.symm.trans same
      exact nomatch fresh.symm.trans old
  next none =>
    simp only [none, reduceCtorEq, false_and, exists_false, iff_false]
    split <;> simp [Fate.deletes]

/-- Whatever is done with a place, it is one of the copies of its group. -/
theorem copy_of_fate
    (planned : index ∈ t.fate.inserts ∨ index ∈ t.fate.updates ∨ index ∈ t.fate.deletes) :
    ∃ i, (index, i) ∈ t.copies := by
  rcases planned with inserted | updated | deleted
  · obtain ⟨-, i, copy, -⟩ := mem_inserts.1 inserted
    exact ⟨i, copy⟩
  · obtain ⟨-, i, copy, -⟩ := mem_updates.1 updated
    exact ⟨i, copy⟩
  · obtain ⟨i, first, -⟩ := mem_deletes.1 deleted
    exact ⟨i, List.mem_of_find?_eq_some first⟩

/-! ## A single holder -/

theorem groups_of_single {invocations : List (Invocation D B)} {bindings : List (Binding B)}
    {id : Uuid} {copy : Nat × Invocation D B} {rules : List (Rule B)}
    (only : holders invocations bindings = [(id, copy, rules)]) :
    groups invocations bindings = [⟨id, [copy], RuleSet.distinctPaths [] rules⟩] := by
  rw [groups_eq, only]
  simp [gather, List.eraseDups_cons]

theorem fate_of_single {i : Invocation D B} (only : t.copies = [(index, i)]) :
    t.fate =
      if i.isCompleted then if i.isNew then .discarded else .deleted index
      else if i.isUnchanged then .notWritten
      else if i.isNew then .written [index] [] else .written [] [index] := by
  unfold fate
  rw [only]
  cases completed : i.isCompleted <;> cases unchanged : i.isUnchanged <;>
    cases fresh : i.isNew <;> simp [completed, unchanged, fresh, List.partition_eq_filter_filter]

/-! ## Announcing -/

theorem keeps_announce {σ : Type} {c : Contract B σ} (notes : ∀ entry, c.Ignores (.note entry))
    (unchanged : c.Ignores (.count .unchanged)) (t : Touched D B) (s : σ) :
    t.announce.Keeps c s fun _ u => u = s := by
  unfold announce
  split
  next => exact Program.keeps_ignored_bind (notes _) fun _ => rfl
  next => rfl
  next =>
    refine Program.keeps_ignored_bind unchanged fun _ => ?_
    exact Program.keeps_ignored_bind (notes _) fun _ => rfl
  next =>
    dsimp only
    split
    next => exact Program.keeps_ignored_bind (notes _) fun _ => rfl
    next => rfl

theorem keeps_announceAll {σ : Type} {c : Contract B σ}
    (notes : ∀ entry, c.Ignores (.note entry)) (unchanged : c.Ignores (.count .unchanged))
    (groups : List (Touched D B)) (s : σ) :
    (groups.forM announce).Keeps c s fun _ u => u = s := by
  induction groups with
  | nil => rfl
  | cons t rest ih =>
    show (t.announce >>= fun _ => rest.forM announce).Keeps c s _
    refine (keeps_announce notes unchanged t s).bind fun _ u same => ?_
    exact same ▸ ih

end Touched

namespace Incoming

variable {σ : Type} {c : Contract B σ} {send : Send B}

theorem keeps_persist {maxAttempts : Nat} {bindings : List (Binding B)} {m : Incoming D B} {s : σ}
    {post : Processed D B → σ → Prop} (notes : ∀ entry, c.Ignores (.note entry))
    (unchanged : c.Ignores (.count .unchanged))
    (writes : (inTurn (writes send maxAttempts
      (WritePlan.ofGroups (Touched.groups m.invocations bindings))) m).Keeps c s post) :
    (persist send maxAttempts bindings m).Keeps c s post := by
  refine (Touched.keeps_announceAll notes unchanged _ s).bind fun _ t same => ?_
  exact same ▸ writes

/-- What the plan of a message writes, it writes for an invocation that holds an instance: a new
instance is inserted, another one is updated or deleted. -/
theorem write_cases {maxAttempts : Nat} {bindings : List (Binding B)} {m : Incoming D B}
    {step : Continuation D B} (member : step ∈ writes send maxAttempts
      (WritePlan.ofGroups (Touched.groups m.invocations bindings))) :
    ∃ index i, m.invocations[index]? = some i ∧
      ((i.isNew = true ∧ ∃ rules,
          step = onInvocation index (Commit.persist send maxAttempts rules .insert)) ∨
        (i.isNew = false ∧ ∃ rules,
          step = onInvocation index (Commit.persist send maxAttempts rules .update)) ∨
        (i.isNew = false ∧
          step = onInvocation index fun i => do return (i, ← Commit.delete i))) := by
  have place : ∀ {t : Touched D B} {index : Nat} {i : Invocation D B},
      t ∈ Touched.groups m.invocations bindings → (index, i) ∈ t.copies →
        m.invocations[index]? = some i := by
    intro t index i group copy
    obtain ⟨first, -, rfl⟩ := Touched.mem_groups.1 group
    obtain ⟨rules, holder⟩ := Touched.mem_copies.1 copy
    obtain ⟨b, -, rfl, -, here, -⟩ := Touched.mem_holders.1 holder
    exact here
  rw [WritePlan.ofGroups_eq] at member
  rcases List.mem_append.1 member with changed | deleted
  · rcases List.mem_append.1 changed with inserted | updated
    · obtain ⟨⟨index, rules⟩, planned, rfl⟩ := List.mem_map.1 inserted
      obtain ⟨t, group, planned⟩ := List.mem_flatMap.1 planned
      obtain ⟨index, among, same⟩ := List.mem_map.1 planned
      cases same
      obtain ⟨-, i, copy, -, isNew⟩ := Touched.mem_inserts.1 among
      exact ⟨index, i, place group copy, .inl ⟨isNew, _, rfl⟩⟩
    · obtain ⟨⟨index, rules⟩, planned, rfl⟩ := List.mem_map.1 updated
      obtain ⟨t, group, planned⟩ := List.mem_flatMap.1 planned
      obtain ⟨index, among, same⟩ := List.mem_map.1 planned
      cases same
      obtain ⟨-, i, copy, -, isOld⟩ := Touched.mem_updates.1 among
      exact ⟨index, i, place group copy, .inr (.inl ⟨isOld, _, rfl⟩)⟩
  · obtain ⟨index, planned, rfl⟩ := List.mem_map.1 deleted
    obtain ⟨t, group, among⟩ := List.mem_flatMap.1 planned
    obtain ⟨i, first, isOld⟩ := Touched.mem_deletes.1 among
    exact ⟨index, i, place group (List.mem_of_find?_eq_some first), .inr (.inr ⟨isOld, rfl⟩)⟩

/-- The writes of a message with one holder: those of its one invocation. -/
theorem writes_of_single {maxAttempts : Nat} {bindings : List (Binding B)} {m : Incoming D B}
    {id : Uuid} {index : Nat} {i : Invocation D B} {rules : List (Rule B)}
    (only : Touched.holders m.invocations bindings = [(id, (index, i), rules)]) :
    writes (D := D) send maxAttempts
        (WritePlan.ofGroups (Touched.groups m.invocations bindings)) =
      if i.isCompleted then
        if i.isNew then []
        else [onInvocation index fun i => do return (i, ← Commit.delete i)]
      else if i.isUnchanged then []
      else [onInvocation index (Commit.persist send maxAttempts (RuleSet.distinctPaths [] rules)
        (if i.isNew then .insert else .update))] := by
  have fate := Touched.fate_of_single
    (t := ⟨id, [(index, i)], RuleSet.distinctPaths [] rules⟩) rfl
  rw [Touched.groups_of_single only, WritePlan.ofGroups_eq]
  simp only [List.flatMap_cons, List.flatMap_nil, List.append_nil, writes]
  rw [fate]
  cases i.isCompleted <;> cases i.isUnchanged <;> cases i.isNew <;> rfl

end Incoming

end Sagas
