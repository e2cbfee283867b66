import Sagas.Proofs.Plan

/-!
# Plans by data type

An instance is identified by its data type and its identity, but holders are grouped by identity
alone. So the plan of a message is the plans of its data types side by side as long as no two
holders of different data types have the same identity (`Apart`). If two have, a flag that one of
them sets concerns the other as well.

Results:
1. `plan_only`: the part of a plan for some of the places, if they share no identity with others.
2. `written_iff`: which places are inserted or updated.
3. `apart_iff`: holders are apart exactly if no flags make the data types depend on one another.
-/

namespace Sagas

variable {D B α β : Type}

/-! ## Lists -/

theorem eraseDups_filter [DecidableEq α] (keep : α → Bool) (l : List α) :
    (l.filter keep).eraseDups = l.eraseDups.filter keep := by
  -- By the length: what is left of the list is filtered before it is gone through.
  match l with
  | [] => rfl
  | a :: rest =>
    have shorter : (rest.filter fun b => !b == a).length < (a :: rest).length :=
      Nat.lt_succ_of_le (List.length_filter_le _ _)
    have further := eraseDups_filter keep (rest.filter fun b => !b == a)
    rw [List.eraseDups_cons, List.filter_cons, List.filter_cons, ← further]
    split
    next kept =>
      rw [List.eraseDups_cons, List.filter_filter, List.filter_filter]
      simp only [Bool.and_comm]
    next dropped =>
      rw [List.filter_filter]
      refine congrArg _ (List.filter_congr fun b _ => ?_)
      by_cases same : b = a
      · simp [same, dropped]
      · simp [same]
termination_by l.length
decreasing_by exact shorter

theorem filter_flatMap_of_agree {l : List α} {f : α → List β} {keep : α → Bool} {keep' : β → Bool}
    (agree : ∀ a ∈ l, ∀ b ∈ f a, keep' b = keep a) :
    (l.flatMap f).filter keep' = (l.filter keep).flatMap f := by
  induction l with
  | nil => rfl
  | cons a rest ih =>
    have later := ih fun a member => agree a (List.mem_cons_of_mem _ member)
    rw [List.flatMap_cons, List.filter_append, later, List.filter_cons]
    have here := agree a List.mem_cons_self
    split
    next kept =>
      rw [List.flatMap_cons, List.filter_eq_self.2 fun b member => (here b member).trans kept]
    next dropped =>
      have none : (f a).filter keep' = [] :=
        List.filter_eq_nil_iff.2 fun b member => by simp [here b member, dropped]
      rw [none, List.nil_append]

/-! ## Chosen places -/

namespace Touched

variable {invocations : List (Invocation D B)} {bindings : List (Binding B)} {chosen : Nat → Bool}

theorem holders_filter : holders invocations (bindings.filter (chosen ·.index)) =
    (holders invocations bindings).filter (chosen ·.2.1.1) := by
  induction bindings with
  | nil => rfl
  | cons b rest ih =>
    rw [List.filter_cons]
    conv => rhs; rw [holders]
    split
    next isChosen =>
      rw [holders]
      split
      next => exact ih
      next i found =>
        split
        next => exact ih
        next =>
          split
          next => exact ih
          next id held => simp [isChosen, ih]
    next other =>
      split
      next => exact ih
      next i found =>
        split
        next => exact ih
        next =>
          split
          next => exact ih
          next id held => simp [other, ih]

/-- Holders that share an identity with a chosen place are themselves at chosen places. -/
def Closed (invocations : List (Invocation D B)) (bindings : List (Binding B))
    (chosen : Nat → Bool) : Prop :=
  ∀ h ∈ holders invocations bindings, ∀ h' ∈ holders invocations bindings, h.1 = h'.1 →
    chosen h.2.1.1 = chosen h'.2.1.1

/-- The identities at chosen places. -/
def owned (invocations : List (Invocation D B)) (bindings : List (Binding B))
    (chosen : Nat → Bool) (id : Uuid) : Bool :=
  (holders invocations bindings).any fun h => h.1 = id && chosen h.2.1.1

theorem Closed.owned (closed : Closed invocations bindings chosen) {h : Holder D B}
    (isHolder : h ∈ holders invocations bindings) :
    owned invocations bindings chosen h.1 = chosen h.2.1.1 := by
  rw [Bool.eq_iff_iff, Touched.owned, List.any_eq_true]
  constructor
  · rintro ⟨other, isOther, same⟩
    obtain ⟨same, isChosen⟩ : other.1 = h.1 ∧ chosen other.2.1.1 = true := by simpa using same
    exact closed other isOther h isHolder same ▸ isChosen
  · exact fun isChosen => ⟨h, isHolder, by simp [isChosen]⟩

theorem Closed.groups (closed : Closed invocations bindings chosen) :
    Touched.groups invocations (bindings.filter (chosen ·.index)) =
      (Touched.groups invocations bindings).filter
        fun t => Touched.owned invocations bindings chosen t.id := by
  have own : (holders invocations bindings).filter (chosen ·.2.1.1) =
      (holders invocations bindings).filter
        ((Touched.owned invocations bindings chosen) ∘ (·.1)) :=
    List.filter_congr fun h isHolder => (closed.owned isHolder).symm
  rw [groups_eq, groups_eq, holders_filter, own, ← List.filter_map, eraseDups_filter,
    List.filter_map]
  -- The group of an owned identity has all of its holders.
  refine List.map_congr_left fun id isOwned => ?_
  have kept := (List.mem_filter.1 isOwned).2
  have all : ((holders invocations bindings).filter
      ((Touched.owned invocations bindings chosen) ∘ (·.1))).filter (·.1 = id) =
        (holders invocations bindings).filter (·.1 = id) := by
    rw [List.filter_filter]
    refine List.filter_congr fun h _ => ?_
    by_cases same : h.1 = id
    · simpa [same] using kept
    · simp [same]
  unfold gather
  rw [all]

end Touched

open Touched

variable {m : Incoming D B} {bindings : List (Binding B)}

/-- The plan of the chosen places is the part of the plan for them. -/
theorem plan_only {chosen : Nat → Bool} (closed : Closed m.invocations bindings chosen) :
    (m.plan bindings).only chosen = m.plan (bindings.filter (chosen ·.index)) := by
  have agree : ∀ t ∈ groups m.invocations bindings, ∀ index,
      (index ∈ t.fate.inserts ∨ index ∈ t.fate.updates ∨ index ∈ t.fate.deletes) →
        chosen index = owned m.invocations bindings chosen t.id := by
    intro t group index planned
    obtain ⟨first, -, rfl⟩ := mem_groups.1 group
    obtain ⟨i, copy⟩ := copy_of_fate planned
    obtain ⟨rules, isHolder⟩ := mem_copies.1 copy
    exact (closed.owned isHolder).symm
  unfold Incoming.plan
  rw [closed.groups, WritePlan.ofGroups_eq, WritePlan.ofGroups_eq, WritePlan.only]
  simp only [WritePlan.mk.injEq]
  refine ⟨filter_flatMap_of_agree fun t group => ?_, filter_flatMap_of_agree fun t group => ?_,
    filter_flatMap_of_agree fun t group index deleted => ?_⟩
  · rintro ⟨index, rules⟩ planned
    obtain ⟨index, inserted, same⟩ := List.mem_map.1 planned
    cases same
    exact agree t group index (.inl inserted)
  · rintro ⟨index, rules⟩ planned
    obtain ⟨index, updated, same⟩ := List.mem_map.1 planned
    cases same
    exact agree t group index (.inr (.inl updated))
  · exact agree t group index (.inr (.inr deleted))

/-- A place is to be written exactly if its invocation holds an instance, without having marked it
as unchanged, and no holder of the same identity is complete. -/
theorem written_iff {index : Nat} :
    (m.plan bindings).Writes index ↔
      ∃ h ∈ holders m.invocations bindings, h.2.1.1 = index ∧ h.2.1.2.isUnchanged = false ∧
        ∀ h' ∈ holders m.invocations bindings, h'.1 = h.1 → h'.2.1.2.isCompleted = false := by
  unfold WritePlan.Writes Incoming.plan
  rw [WritePlan.ofGroups_eq]
  simp only [List.mem_flatMap, List.mem_map, Prod.mk.injEq]
  constructor
  · rintro ⟨rules, ⟨t, group, place, planned, rfl, -⟩ | ⟨t, group, place, planned, rfl, -⟩⟩
    all_goals
      obtain ⟨first, -, rfl⟩ := mem_groups.1 group
    · obtain ⟨isOpen, i, copy, changed, -⟩ := mem_inserts.1 planned
      obtain ⟨own, isHolder⟩ := mem_copies.1 copy
      exact ⟨_, isHolder, rfl, changed, fun h' isHolder' same =>
        isOpen h'.2.1 (mem_copies.2 ⟨h'.2.2, same ▸ isHolder'⟩)⟩
    · obtain ⟨isOpen, i, copy, changed, -⟩ := mem_updates.1 planned
      obtain ⟨own, isHolder⟩ := mem_copies.1 copy
      exact ⟨_, isHolder, rfl, changed, fun h' isHolder' same =>
        isOpen h'.2.1 (mem_copies.2 ⟨h'.2.2, same ▸ isHolder'⟩)⟩
  · rintro ⟨⟨id, ⟨place, i⟩, own⟩, isHolder, rfl, changed, open'⟩
    have group : gather (holders m.invocations bindings) id ∈ groups m.invocations bindings :=
      mem_groups.2 ⟨_, isHolder, rfl⟩
    have copy : (place, i) ∈ (gather (holders m.invocations bindings) id).copies :=
      mem_copies.2 ⟨own, isHolder⟩
    have isOpen : (gather (holders m.invocations bindings) id).Open := by
      rintro ⟨place', i'⟩ copy'
      obtain ⟨own', isHolder'⟩ := mem_copies.1 copy'
      exact open' _ isHolder' rfl
    refine ⟨(gather (holders m.invocations bindings) id).rules, ?_⟩
    cases isNew : i.isNew with
    | true =>
      exact .inl ⟨_, group, place, mem_inserts.2 ⟨isOpen, i, copy, changed, isNew⟩, rfl, rfl⟩
    | false =>
      exact .inr ⟨_, group, place, mem_updates.2 ⟨isOpen, i, copy, changed, isNew⟩, rfl, rfl⟩

/-! ## Data types -/

/-- The data type of the instance that an invocation may hold. -/
def Invocation.dataType? (i : Invocation D B) : Option String :=
  i.saga?.map (·.dataType.name)

/-- The invocation with other flags set by its handler. -/
def Invocation.marked (i : Invocation D B) (completed unchanged : Bool) : Invocation D B :=
  { i with bound := i.bound.map fun inst => { inst with completed, unchanged } }

namespace Incoming

/-- Whether the saga at a place is of this data type. -/
def isOf (m : Incoming D B) (dataType : String) (index : Nat) : Bool :=
  m.invocations[index]?.any (·.dataType? = some dataType)

/-- The bindings of the sagas of one data type. -/
def bindingsOf (m : Incoming D B) (dataType : String) (bindings : List (Binding B)) :
    List (Binding B) :=
  bindings.filter (m.isOf dataType ·.index)

/-- The message after handlers that set these flags, the one for complete instances first. -/
def marked (m : Incoming D B) (marks : Nat → Bool × Bool) : Incoming D B :=
  { m with invocations := m.invocations.mapIdx fun k i => i.marked (marks k).1 (marks k).2 }

/-- No two bound instances of different data types have the same identity. -/
def Apart (m : Incoming D B) (bindings : List (Binding B)) : Prop :=
  ∀ h ∈ Touched.holders m.invocations bindings, ∀ h' ∈ Touched.holders m.invocations bindings,
    h.1 = h'.1 → h.2.1.2.dataType? = h'.2.1.2.dataType?

end Incoming

/-! ## Flags -/

section Flags

variable {marks : Nat → Bool × Bool}
  {id : Uuid} {index : Nat} {i : Invocation D B} {rules : List (Rule B)}

theorem Invocation.id?_marked (i : Invocation D B) (completed unchanged : Bool) :
    (i.marked completed unchanged).id? = i.id? := by
  cases handler : i.handler <;> cases bound : i.bound <;>
    simp [marked, id?, instance?, handler, bound]

theorem Invocation.isCompleted_marked (isBound : i.bound ≠ none) (completed unchanged : Bool) :
    (i.marked completed unchanged).isCompleted = completed := by
  cases bound : i.bound with
  | none => exact absurd bound isBound
  | some inst => simp [marked, isCompleted, bound]

theorem Invocation.isUnchanged_marked (isBound : i.bound ≠ none) (completed unchanged : Bool) :
    (i.marked completed unchanged).isUnchanged = unchanged := by
  cases bound : i.bound with
  | none => exact absurd bound isBound
  | some inst => simp [marked, isUnchanged, bound]

/-- Flags change nothing about who holds what. -/
theorem mem_holders_marked :
    (id, (index, i), rules) ∈ holders (m.marked marks).invocations bindings ↔
      ∃ j, (id, (index, j), rules) ∈ holders m.invocations bindings ∧
        i = j.marked (marks index).1 (marks index).2 := by
  have places : (m.marked marks).invocations[index]? =
      (m.invocations[index]?).map fun j => j.marked (marks index).1 (marks index).2 := by
    simp [Incoming.marked]
  simp only [mem_holders, places, Option.map_eq_some_iff]
  constructor
  · rintro ⟨b, known, at', own, ⟨j, place, rfl⟩, runs, holds⟩
    exact ⟨j, ⟨b, known, at', own, place, runs, j.id?_marked _ _ ▸ holds⟩, rfl⟩
  · rintro ⟨j, ⟨b, known, at', own, place, runs, holds⟩, rfl⟩
    exact ⟨b, known, at', own, ⟨j, place, rfl⟩, runs, (j.id?_marked _ _).trans holds⟩

theorem isOf_of_holder {dataType : String}
    (isHolder : (id, (index, i), rules) ∈ holders m.invocations bindings) :
    m.isOf dataType index = decide (i.dataType? = some dataType) := by
  obtain ⟨-, -, -, -, place, -⟩ := mem_holders.1 isHolder
  simp [Incoming.isOf, place]

theorem Incoming.Apart.closed (apart : m.Apart bindings) (marks : Nat → Bool × Bool)
    (dataType : String) :
    Closed (m.marked marks).invocations bindings (m.isOf dataType) := by
  rintro ⟨id, ⟨k, i⟩, rules⟩ isHolder ⟨id', ⟨k', i'⟩, rules'⟩ isHolder' same
  obtain ⟨j, isHolder, -⟩ := mem_holders_marked.1 isHolder
  obtain ⟨j', isHolder', -⟩ := mem_holders_marked.1 isHolder'
  show m.isOf dataType k = m.isOf dataType k'
  rw [isOf_of_holder isHolder, isOf_of_holder isHolder', apart _ isHolder _ isHolder' same]

/-- The flags of handlers of which one completes its instance and the others set none. -/
def completing (k : Nat) : Nat → Bool × Bool :=
  fun index => (index = k, false)

variable {k : Nat} {j : Invocation D B} {dataType : String}

theorem mem_holders_bindingsOf {h : Holder D B} :
    h ∈ holders (m.marked marks).invocations (m.bindingsOf dataType bindings) ↔
      h ∈ holders (m.marked marks).invocations bindings ∧ m.isOf dataType h.2.1.1 = true := by
  unfold Incoming.bindingsOf
  rw [holders_filter, List.mem_filter]

/-- A completed instance of another data type does not matter for the sagas of one data type. -/
theorem written_alone (isHolder : (id, (index, i), rules) ∈ holders m.invocations bindings)
    (inside : m.isOf dataType index = true) (outside : m.isOf dataType k = false) :
    ((m.marked (completing k)).plan (m.bindingsOf dataType bindings)).Writes index := by
  obtain ⟨-, -, -, -, -, -, holds⟩ := mem_holders.1 isHolder
  have marked : (id, (index, i.marked (completing k index).1 (completing k index).2), rules) ∈
      holders (m.marked (completing k)).invocations bindings :=
    mem_holders_marked.2 ⟨i, isHolder, rfl⟩
  refine written_iff.2 ⟨_, mem_holders_bindingsOf.2 ⟨marked, inside⟩, rfl,
    Invocation.isUnchanged_marked (bound_of_id? holds) _ _, ?_⟩
  rintro ⟨id', ⟨index', i'⟩, rules'⟩ isHolder' -
  obtain ⟨marked', chosen⟩ := mem_holders_bindingsOf.1 isHolder'
  obtain ⟨j, held, rfl⟩ := mem_holders_marked.1 marked'
  obtain ⟨-, -, -, -, -, -, holds'⟩ := mem_holders.1 held
  rw [Invocation.isCompleted_marked (bound_of_id? holds')]
  exact decide_eq_false fun same => by simp [same, outside] at chosen

/-- A completed instance of the same identity keeps an instance from being written. -/
theorem not_written_among (completed : (id, (k, j), rules) ∈ holders m.invocations bindings)
    {own : List (Rule B)} (isHolder : (id, (index, i), own) ∈ holders m.invocations bindings) :
    ¬ ((m.marked (completing k)).plan bindings).Writes index := by
  intro written
  obtain ⟨-, -, -, -, place, -, holds⟩ := mem_holders.1 isHolder
  obtain ⟨-, -, -, -, -, -, isBound⟩ := mem_holders.1 completed
  obtain ⟨⟨id', ⟨index', i'⟩, rules'⟩, isHolder', here, -, isOpen⟩ := written_iff.1 written
  obtain rfl : index' = index := here
  obtain ⟨j', held, rfl⟩ := mem_holders_marked.1 isHolder'
  obtain ⟨-, -, -, -, place', -, holds'⟩ := mem_holders.1 held
  cases place.symm.trans place'
  obtain rfl : id = id' := Option.some.inj (holds.symm.trans holds')
  have incomplete := isOpen _ (mem_holders_marked.2 ⟨j, completed, rfl⟩) rfl
  rw [Invocation.isCompleted_marked (bound_of_id? isBound)] at incomplete
  simp [completing] at incomplete

theorem dataType?_of_id? (holds : i.id? = some id) : ∃ dataType, i.dataType? = some dataType := by
  cases handler : i.handler with
  | plain name run => simp [Invocation.id?, Invocation.instance?, handler] at holds
  | saga saga =>
    exact ⟨saga.dataType.name, by
      simp [Invocation.dataType?, Invocation.saga?, Handler.saga?, handler]⟩

/-- Holders are apart exactly if, whatever flags the handlers set, what is planned for each data
type is what would be planned if its sagas were the only ones. -/
theorem apart_iff : m.Apart bindings ↔ ∀ marks dataType,
    ((m.marked marks).plan bindings).only (m.isOf dataType) =
      (m.marked marks).plan (m.bindingsOf dataType bindings) := by
  refine ⟨fun apart marks dataType => plan_only (apart.closed marks dataType), fun isolated => ?_⟩
  rintro ⟨id, ⟨k, i⟩, rules⟩ isHolder ⟨id', ⟨k', i'⟩, rules'⟩ isHolder' same
  obtain rfl : id = id' := same
  show i.dataType? = i'.dataType?
  by_contra differ
  obtain ⟨-, -, -, -, -, -, holds'⟩ := mem_holders.1 isHolder'
  obtain ⟨dataType, typed⟩ := dataType?_of_id? holds'
  have outside : m.isOf dataType k = false := by
    rw [isOf_of_holder isHolder]
    exact decide_eq_false fun same => differ (same.trans typed.symm)
  have inside : m.isOf dataType k' = true := by
    rw [isOf_of_holder isHolder']
    exact decide_eq_true typed
  -- The second one is written if its data type is alone, but not along with the first.
  obtain ⟨own, planned⟩ := written_alone isHolder' inside outside
  rw [← isolated (completing k) dataType] at planned
  refine not_written_among isHolder isHolder' ⟨own, planned.imp ?_ ?_⟩
  · exact fun kept => (List.mem_filter.1 kept).1
  · exact fun kept => (List.mem_filter.1 kept).1

end Flags

end Sagas
