import Sagas.Proofs.Index.Message
import Sagas.Proofs.Isolation.Plan
import Sagas.Proofs.Tasks

/-!
# The copies of one instance

A message may bind one instance to several of its handlers, each of which gets a copy of its own.
What becomes of the instance depends on all of its copies: one that is complete decides for the
instance, and otherwise every copy counts that its handler has changed.

Results:
1. `copies_gather`: the holders of an identity are its copies, in the order of their handlers.
2. `plan_only_holds`: the part of a plan that is about one instance.
3. `plannedFor`: this part in terms of the flags of the copies.
4. `carries_of_planned`: the values that go with a write.
-/

namespace Sagas

variable {D B : Type}

/-! ## Copies -/

namespace Incoming

variable {m m₀ : Incoming D B} {id : Uuid} {place : Nat} {bindings : List (Binding B)}
  {whole : List (Exchange B)}

/-- The invocation at a place with its place, if it holds the instance and is not skipped. -/
def copyAt? (m : Incoming D B) (id : Uuid) (place : Nat) : Option (Nat × Invocation D B) :=
  (m.invocations[place]?.filter fun i => !i.skipped && i.id? = some id).map (place, ·)

/-- The copies of an instance with their places, in the order of their handlers. -/
def copiesOf (m : Incoming D B) (id : Uuid) : List (Nat × Invocation D B) :=
  (List.range m.invocations.length).filterMap (m.copyAt? id)

/-- Whether there is a copy of the instance at a place. -/
def holds (m : Incoming D B) (id : Uuid) (place : Nat) : Bool :=
  (m.copyAt? id place).isSome

theorem copyAt?_eq_some {c : Nat × Invocation D B} : m.copyAt? id place = some c ↔
    c.1 = place ∧ m.invocations[place]? = some c.2 ∧ c.2.skipped = false ∧ c.2.id? = some id := by
  obtain ⟨k, i⟩ := c
  simp only [copyAt?, Option.map_eq_some_iff, Option.filter_eq_some_iff, Prod.mk.injEq,
    Bool.and_eq_true, Bool.not_eq_true', decide_eq_true_eq]
  constructor
  · rintro ⟨j, ⟨found, runs, same⟩, rfl, rfl⟩
    exact ⟨rfl, found, runs, same⟩
  · rintro ⟨rfl, found, runs, same⟩
    exact ⟨i, ⟨found, runs, same⟩, rfl, rfl⟩

theorem mem_copiesOf {c : Nat × Invocation D B} : c ∈ m.copiesOf id ↔
    m.invocations[c.1]? = some c.2 ∧ c.2.skipped = false ∧ c.2.id? = some id := by
  simp only [copiesOf, List.mem_filterMap, copyAt?_eq_some, List.mem_range]
  constructor
  · rintro ⟨place, -, rfl, copy⟩
    exact copy
  · intro copy
    exact ⟨c.1, (List.getElem?_eq_some_iff.1 copy.1).1, rfl, copy⟩

theorem holds_iff : m.holds id place = true ↔ ∃ i, (place, i) ∈ m.copiesOf id := by
  simp only [holds, Option.isSome_iff_exists, copyAt?_eq_some, mem_copiesOf]
  constructor
  · rintro ⟨⟨k, i⟩, rfl, copy⟩
    exact ⟨i, copy⟩
  · rintro ⟨i, copy⟩
    exact ⟨(place, i), rfl, copy⟩

/-- There is a saga at the place of a copy. -/
theorem hasSaga_of_copyAt? {c : Nat × Invocation D B} (copy : m.copyAt? id place = some c) :
    m.hasSaga place = true := by
  obtain ⟨-, found, -, holds⟩ := copyAt?_eq_some.1 copy
  obtain ⟨⟨s, inst⟩, isInstance, -⟩ := Option.map_eq_some_iff.1 holds
  obtain ⟨isSaga, -⟩ := Invocation.of_instance? isInstance
  simp [hasSaga, found, Invocation.saga?, isSaga, Handler.saga?]

theorem Like.hasSaga (like : Like m₀ m) : m.hasSaga = m₀.hasSaga := by
  have saga : ∀ (m : Incoming D B) place,
      m.hasSaga place = (m.invocations.map (·.handler))[place]?.any (·.saga?.isSome) := by
    intro m place
    rw [List.getElem?_map, Incoming.hasSaga]
    cases m.invocations[place]? <;> rfl
  funext place
  rw [saga, saga, like.handlers]

theorem Like.length (like : Like m₀ m) : m.invocations.length = m₀.invocations.length := by
  simpa using congrArg List.length like.handlers

end Incoming

namespace Touched

open Incoming (Like)

variable {m m₀ : Incoming D B} {id : Uuid} {bindings : List (Binding B)} {whole : List (Exchange B)}

theorem holders_of_id : ((holders m.invocations bindings).filter (·.1 = id)).map (·.2.1) =
    (bindings.map (·.index)).filterMap (m.copyAt? id) := by
  induction bindings with
  | nil => rfl
  | cons b rest ih =>
    rw [List.map_cons, List.filterMap_cons, ← ih, holders]
    cases found : m.invocations[b.index]? with
    | none => simp [Incoming.copyAt?, found]
    | some i =>
      cases skipped : i.skipped with
      | true => simp [Incoming.copyAt?, Option.filter, found, skipped]
      | false =>
        cases held : i.id? with
        | none => simp [Incoming.copyAt?, Option.filter, found, skipped, held]
        | some own =>
          by_cases same : own = id
          · simp [Incoming.copyAt?, Option.filter, found, skipped, held, same]
          · simp [Incoming.copyAt?, Option.filter, found, skipped, held, same]

/-- If all sagas of a message have bindings, the holders of an identity are its copies. -/
theorem copies_gather (served : m₀.Served whole bindings) (like : Like m₀ m) :
    (gather (holders m.invocations bindings) id).copies = m.copiesOf id := by
  show ((holders m.invocations bindings).filter (·.1 = id)).map (·.2.1) = _
  rw [holders_of_id, served.places, List.filterMap_filter, Incoming.copiesOf, like.length,
    like.hasSaga.symm]
  refine List.filterMap_congr fun place _ => ?_
  split
  next => rfl
  next without =>
    refine (Option.eq_none_iff_forall_ne_some.2 fun c copy => ?_).symm
    exact without (Incoming.hasSaga_of_copyAt? copy)

/-- A holder is at the place of a copy exactly if it holds the identity. -/
theorem holds_of_holder {h : Holder D B} (isHolder : h ∈ holders m.invocations bindings) :
    m.holds id h.2.1.1 = decide (h.1 = id) := by
  obtain ⟨own, ⟨place, i⟩, rules⟩ := h
  obtain ⟨-, -, -, -, found, runs, holds⟩ := mem_holders.1 isHolder
  rw [Bool.eq_iff_iff, Incoming.holds_iff, decide_eq_true_eq]
  simp only [Incoming.mem_copiesOf, found, Option.some.injEq]
  constructor
  · rintro ⟨j, rfl, -, holds'⟩
    exact Option.some.inj (holds.symm.trans holds')
  · rintro rfl
    exact ⟨i, rfl, runs, holds⟩

theorem closed_holds : Closed m.invocations bindings (m.holds id) := by
  intro h isHolder h' isHolder' same
  rw [holds_of_holder isHolder, holds_of_holder isHolder', same]

/-- The groups with an identity at the places of the copies: the group of these copies, if any. -/
theorem groups_only : (groups m.invocations bindings).filter
      (fun t => owned m.invocations bindings (m.holds id) t.id) =
    if id ∈ (holders m.invocations bindings).map (·.1) then
      [gather (holders m.invocations bindings) id] else [] := by
  have owns : ∀ own ∈ ((holders m.invocations bindings).map (·.1)).eraseDups,
      owned m.invocations bindings (m.holds id) own = (own == id) := by
    intro own among
    obtain ⟨h, isHolder, rfl⟩ := List.mem_map.1 (List.mem_eraseDups.1 among)
    rw [closed_holds.owned isHolder, holds_of_holder isHolder, beq_eq_decide]
  have once := nodup_eraseDups ((holders m.invocations bindings).map (·.1))
  rw [groups_eq, List.filter_map]
  show (List.filter (owned m.invocations bindings (m.holds id)) _).map _ = _
  rw [List.filter_congr owns, List.filter_beq]
  split
  next among =>
    rw [List.count_eq_one_of_mem once (List.mem_eraseDups.2 among)]
    rfl
  next absent =>
    rw [List.count_eq_zero_of_not_mem (mt List.mem_eraseDups.1 absent)]
    rfl

end Touched

open Touched

variable {m m₀ : Incoming D B} {id : Uuid} {bindings : List (Binding B)} {whole : List (Exchange B)}

/-- The part of a plan for the places of one instance is the fate of its group. -/
theorem plan_only_holds : (m.plan bindings).only (m.holds id) =
    WritePlan.ofGroups [gather (holders m.invocations bindings) id] := by
  rw [plan_only closed_holds, Incoming.plan, closed_holds.groups, groups_only]
  split
  next => rfl
  next absent =>
    have none : (holders m.invocations bindings).filter (·.1 = id) = [] :=
      List.filter_eq_nil_iff.2 fun h isHolder same =>
        absent (List.mem_map.2 ⟨h, isHolder, by simpa using same⟩)
    have untouched : (gather (holders m.invocations bindings) id).fate = .notWritten := by
      simp [gather, fate, none]
    simp [WritePlan.ofGroups, WritePlan.add, untouched]

/-- What is planned is planned for a copy of some instance. -/
theorem holds_of_planned {place : Nat} (planned : place ∈ (m.plan bindings).places) :
    ∃ id, m.holds id place = true := by
  rw [← WritePlan.places_items] at planned
  obtain ⟨item, isItem, rfl⟩ := List.mem_map.1 planned
  obtain ⟨i, here, runs, holds⟩ := planned_holds isItem
  obtain ⟨id, holds⟩ := Option.ne_none_iff_exists'.1 holds
  exact ⟨id, Incoming.holds_iff.2 ⟨i, Incoming.mem_copiesOf.2 ⟨here, runs, holds⟩⟩⟩

theorem WritePlan.only_eq_self {p : WritePlan B} {chosen : Nat → Bool}
    (all : ∀ place ∈ p.places, chosen place = true) : p.only chosen = p := by
  have listed : ∀ place, place ∈ p.inserts.map (·.1) ∨ place ∈ p.updates.map (·.1) ∨
      place ∈ p.deletes → chosen place = true := fun place among =>
    all place (by simpa [places, or_assoc] using among)
  have inserts : p.inserts.filter (chosen ·.1) = p.inserts := List.filter_eq_self.2 fun w member =>
    listed w.1 (.inl (List.mem_map_of_mem (f := Prod.fst) member))
  have updates : p.updates.filter (chosen ·.1) = p.updates := List.filter_eq_self.2 fun w member =>
    listed w.1 (.inr (.inl (List.mem_map_of_mem (f := Prod.fst) member)))
  have deletes : p.deletes.filter chosen = p.deletes := List.filter_eq_self.2 fun place member =>
    listed place (.inr (.inr member))
  rw [only, inserts, updates, deletes]

/-- What a message plans for one instance. -/
structure Incoming.PlannedFor (m : Incoming D B) (bindings : List (Binding B)) (id : Uuid) :
    Prop where
  /-- A loaded instance is deleted once if one of its copies is complete. -/
  deleted : (∀ c ∈ m.copiesOf id, c.2.isNew = false) → ∀ c ∈ m.copiesOf id, c.2.isCompleted = true →
    ∃ first ∈ m.copiesOf id, first.2.isCompleted = true ∧
      (m.plan bindings).only (m.holds id) = ⟨[], [], [first.1]⟩
  /-- A new one is dropped. -/
  discarded : (∀ c ∈ m.copiesOf id, c.2.isNew = true) → ∀ c ∈ m.copiesOf id,
    c.2.isCompleted = true → (m.plan bindings).only (m.holds id) = .empty
  kept : (∀ c ∈ m.copiesOf id, c.2.isCompleted = false) →
    (∀ c ∈ m.copiesOf id, c.2.isUnchanged = true) → (m.plan bindings).only (m.holds id) = .empty
  /-- Otherwise every copy is written that is not marked as unchanged. -/
  inserted : (∀ c ∈ m.copiesOf id, c.2.isNew = true) →
    (∀ c ∈ m.copiesOf id, c.2.isCompleted = false) → ∃ rules,
      (m.plan bindings).only (m.holds id) =
        ⟨((m.copiesOf id).filter (!·.2.isUnchanged)).map fun c => (c.1, rules), [], []⟩
  updated : (∀ c ∈ m.copiesOf id, c.2.isNew = false) →
    (∀ c ∈ m.copiesOf id, c.2.isCompleted = false) → ∃ rules,
      (m.plan bindings).only (m.holds id) =
        ⟨[], ((m.copiesOf id).filter (!·.2.isUnchanged)).map fun c => (c.1, rules), []⟩

namespace Touched

variable {t : Touched D B}

theorem fate_of_complete {c : Nat × Invocation D B} (among : c ∈ t.copies)
    (complete : c.2.isCompleted = true) : ∃ first ∈ t.copies, first.2.isCompleted = true ∧
      t.fate = if first.2.isNew then .discarded else .deleted first.1 := by
  cases found : t.copies.find? (·.2.isCompleted) with
  | none => exact absurd complete (by simpa using List.find?_eq_none.1 found c among)
  | some first =>
    refine ⟨first, List.mem_of_find?_eq_some found, by simpa using List.find?_some found, ?_⟩
    unfold fate
    rw [found]

/-- Without a complete copy, the changed ones are written, the new ones as inserts. -/
theorem fate_of_open (isOpen : t.Open) :
    t.fate.deletes = [] ∧
      t.fate.inserts = ((t.copies.filter (!·.2.isUnchanged)).filter (·.2.isNew)).map (·.1) ∧
      t.fate.updates = ((t.copies.filter (!·.2.isUnchanged)).filter (!·.2.isNew)).map (·.1) := by
  unfold fate
  rw [find?_eq_none_iff_open.2 isOpen]
  dsimp only
  split
  next none => simp [List.isEmpty_iff.1 none, Fate.deletes, Fate.inserts, Fate.updates]
  next => simp [List.partition_eq_filter_filter, Fate.deletes, Fate.inserts, Fate.updates]

end Touched

/-- Every instance of a message is planned for, by the flags of its copies. -/
theorem plannedFor (served : m₀.Served whole bindings) (like : Incoming.Like m₀ m) (id : Uuid) :
    m.PlannedFor bindings id := by
  have copies : (gather (holders m.invocations bindings) id).copies = m.copiesOf id :=
    copies_gather served like
  have planned : (m.plan bindings).only (m.holds id) =
      WritePlan.ofGroups [gather (holders m.invocations bindings) id] := plan_only_holds
  generalize gather (holders m.invocations bindings) id = t at copies planned
  rw [WritePlan.ofGroups_eq] at planned
  simp only [List.flatMap_cons, List.flatMap_nil, List.append_nil] at planned
  constructor <;> rw [← copies]
  · intro loaded c among complete
    obtain ⟨first, isCopy, isComplete, fate⟩ := fate_of_complete among complete
    refine ⟨first, isCopy, isComplete, ?_⟩
    rw [planned, fate, loaded first isCopy]
    rfl
  · intro new c among complete
    obtain ⟨first, isCopy, -, fate⟩ := fate_of_complete among complete
    rw [planned, fate, new first isCopy]
    rfl
  · intro isOpen unchanged
    obtain ⟨deletes, inserts, updates⟩ := fate_of_open isOpen
    have none : t.copies.filter (!·.2.isUnchanged) = [] :=
      List.filter_eq_nil_iff.2 fun c among => by simp [unchanged c among]
    rw [planned, deletes, inserts, updates, none]
    rfl
  · intro new isOpen
    obtain ⟨deletes, inserts, updates⟩ := fate_of_open isOpen
    have all : (t.copies.filter (!·.2.isUnchanged)).filter (·.2.isNew) =
        t.copies.filter (!·.2.isUnchanged) :=
      List.filter_eq_self.2 fun c among => new c (List.mem_of_mem_filter among)
    have none : (t.copies.filter (!·.2.isUnchanged)).filter (!·.2.isNew) = [] :=
      List.filter_eq_nil_iff.2 fun c among => by simp [new c (List.mem_of_mem_filter among)]
    refine ⟨t.rules, ?_⟩
    rw [planned, deletes, inserts, updates, all, none, List.map_map]
    rfl
  · intro loaded isOpen
    obtain ⟨deletes, inserts, updates⟩ := fate_of_open isOpen
    have all : (t.copies.filter (!·.2.isUnchanged)).filter (!·.2.isNew) =
        t.copies.filter (!·.2.isUnchanged) :=
      List.filter_eq_self.2 fun c among => by simp [loaded c (List.mem_of_mem_filter among)]
    have none : (t.copies.filter (!·.2.isUnchanged)).filter (·.2.isNew) = [] :=
      List.filter_eq_nil_iff.2 fun c among => by simp [loaded c (List.mem_of_mem_filter among)]
    refine ⟨t.rules, ?_⟩
    rw [planned, deletes, inserts, updates, all, none, List.map_nil, List.map_nil, List.map_map]
    rfl

/-! ## The values of a write -/

/-- The sagas of all copies of an instance have one data type. -/
def Incoming.OneType (m : Incoming D B) : Prop :=
  ∀ id, ∀ c ∈ m.copiesOf id, ∀ c' ∈ m.copiesOf id, ∀ s s', c.2.handler = .saga s →
    c'.2.handler = .saga s' → s.dataType = s'.dataType

/-- The rules that were served are those that the sagas declare. -/
def RulesDeclared (past : List (Exchange B)) : Prop :=
  ∀ type rules, (⟨.rules type, .ok rules⟩ : Exchange B) ∈ past → type.declaration = .ok rules

theorem RulesDeclared.append {late early : List (Exchange B)} (later : RulesDeclared late)
    (earlier : RulesDeclared early) : RulesDeclared (late ++ early) := fun type rules member =>
  (List.mem_append.1 member).elim (later type rules) (earlier type rules)

/-- The values are the current ones of every path that a saga declares which is bound to the
instance, each path once. -/
structure Incoming.Carries (m : Incoming D B) (id : Uuid) (s : Saga D B) (data : D)
    (values : List PropertyValue) : Prop where
  once : (values.map (·.name)).Nodup
  paths : ∀ path, path ∈ values.map (·.name) ↔
    ∃ c ∈ m.copiesOf id, ∃ s', c.2.handler = .saga s' ∧ s'.Declares path
  current : ∀ p ∈ values, ∃ accessor, s.dataType.table.get? p.name = some accessor ∧
    p.value = accessor.value data

/-- What is planned to be written goes with the rules of all copies of its instance. -/
theorem rules_of_planned {place : Nat} {rules : List (Rule B)}
    (planned : (place, rules) ∈ (m.plan bindings).inserts ++ (m.plan bindings).updates)
    (copy : m.holds id place = true) :
    rules = (gather (holders m.invocations bindings) id).rules := by
  have only : (place, rules) ∈ ((m.plan bindings).only (m.holds id)).inserts ++
      ((m.plan bindings).only (m.holds id)).updates := by
    rw [WritePlan.only, ← List.filter_append]
    exact List.mem_filter.2 ⟨planned, copy⟩
  rw [plan_only_holds, WritePlan.ofGroups_eq] at only
  simp only [List.flatMap_cons, List.flatMap_nil, List.append_nil, ← List.map_append] at only
  obtain ⟨_, _, same⟩ := List.mem_map.1 only
  exact (congrArg Prod.snd same).symm

/-- What a copy brings to its group: the indexed rules that its saga declares. -/
theorem declared_of_holder (served : m₀.Served whole bindings) (like : Incoming.Like m₀ m)
    (declared : RulesDeclared whole) {c : Nat × Invocation D B} {rules : List (Rule B)}
    (isHolder : (id, c, rules) ∈ holders m.invocations bindings) :
    ∃ s own, c.2.handler = .saga s ∧ s.type.declaration = .ok own ∧ rules = own.indexed := by
  obtain ⟨place, i⟩ := c
  obtain ⟨b, known, rfl, rfl, found, -, -⟩ := mem_holders.1 isHolder
  obtain ⟨j, s, own, found', isSaga, answered, -, indexed⟩ := like.served (served.serves b known)
  cases found.symm.trans found'
  exact ⟨s, own, Invocation.handler_of_saga? isSaga, declared _ _ answered, indexed⟩

/-- Each rule of a group comes from the declaration of one of its sagas. -/
theorem declared_of_rule (served : m₀.Served whole bindings) (like : Incoming.Like m₀ m)
    (declared : RulesDeclared whole) {r : Rule B}
    (among : r ∈ (gather (holders m.invocations bindings) id).rules) :
    ∃ c ∈ m.copiesOf id, ∃ s own, c.2.handler = .saga s ∧ s.type.declaration = .ok own ∧
      r ∈ own.rules := by
  have listed := (RuleSet.mem_distinctPaths among).resolve_left List.not_mem_nil
  obtain ⟨⟨own, c, rules⟩, isOwn, isTheirs⟩ := List.mem_flatMap.1 listed
  obtain ⟨isHolder, same⟩ := List.mem_filter.1 isOwn
  obtain rfl : own = id := by simpa using same
  obtain ⟨s, own, handler, declares, rfl⟩ := declared_of_holder served like declared isHolder
  have isCopy : c ∈ m.copiesOf _ := copies_gather served like ▸ mem_copies.2 ⟨_, isHolder⟩
  exact ⟨c, isCopy, s, own, handler, declares, RuleSet.mem_indexed isTheirs⟩

/-- For each path that a saga of a group declares, there is a rule in the group. -/
theorem rule_of_declared (served : m₀.Served whole bindings) (like : Incoming.Like m₀ m)
    (declared : RulesDeclared whole) {c : Nat × Invocation D B} (isCopy : c ∈ m.copiesOf id)
    {s : Saga D B} (handler : c.2.handler = .saga s) {path : String} (declares : s.Declares path) :
    ∃ r ∈ (gather (holders m.invocations bindings) id).rules, r.property = path := by
  obtain ⟨own, declares, r, isRule, rfl⟩ := declares
  rw [← copies_gather served like] at isCopy
  obtain ⟨rules, isHolder⟩ := mem_copies.1 isCopy
  obtain ⟨s', own', handler', declares', rfl⟩ := declared_of_holder served like declared isHolder
  cases handler.symm.trans handler'
  cases declares.symm.trans declares'
  obtain ⟨chosen, isIndexed, names⟩ := RuleSet.indexed_covers isRule
  have listed : chosen ∈ ((holders m.invocations bindings).filter (·.1 = id)).flatMap (·.2.2) :=
    List.mem_flatMap.2 ⟨_, List.mem_filter.2 ⟨isHolder, by simp⟩, isIndexed⟩
  obtain ⟨rule, among, names'⟩ := RuleSet.distinctPaths_covers (.inr listed)
  exact ⟨rule, among, names'.trans names⟩

/-- A write carries the values of all paths that the sagas of its instance declare. -/
theorem carries_of_planned (served : m₀.Served whole bindings) (like : Incoming.Like m₀ m)
    (declared : RulesDeclared whole) (oneType : m.OneType) {place : Nat} {rules : List (Rule B)}
    (planned : (place, rules) ∈ (m.plan bindings).inserts ++ (m.plan bindings).updates)
    {i : Invocation D B} (copy : (place, i) ∈ m.copiesOf id) {s : Saga D B} {data : D}
    (isSaga : i.handler = .saga s) :
    m.Carries id s data (Invocation.valuesOf s data rules) := by
  obtain rfl := rules_of_planned planned (Incoming.holds_iff.2 ⟨i, copy⟩)
  refine ⟨Invocation.nodup_valuesOf s data _, fun path => ⟨fun named => ?_, ?_⟩, fun p member => ?_⟩
  · obtain ⟨p, member, rfl⟩ := List.mem_map.1 named
    obtain ⟨r, among, -, names, -⟩ := Invocation.mem_valuesOf member
    obtain ⟨c, isCopy, s', own, handler, declares, isRule⟩ :=
      declared_of_rule served like declared among
    exact ⟨c, isCopy, s', handler, own, declares, r, isRule, names⟩
  · rintro ⟨c, isCopy, s', handler, declares⟩
    obtain ⟨r, among, rfl⟩ := rule_of_declared served like declared isCopy handler declares
    -- The rule may come from another saga than the one that declares the path.
    obtain ⟨c', isCopy', s', own, handler', declares', isRule⟩ :=
      declared_of_rule served like declared among
    obtain ⟨typed, accessor, found, -⟩ := Correlator.declare_eq_ok declares' r isRule
    have same : s.dataType = s'.dataType := oneType id _ copy _ isCopy' s s' isSaga handler'
    rw [← same] at typed found
    exact List.mem_map.2 ⟨_, Invocation.valuesOf_covers among typed found, rfl⟩
  · obtain ⟨-, -, -, -, accessor, found, value⟩ := Invocation.mem_valuesOf member
    exact ⟨accessor, found, value⟩

end Sagas
