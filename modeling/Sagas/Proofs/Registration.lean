import Sagas.Dictionary
import Sagas.Proofs.Rules

/-!
# Registering rules and reading them back

A rule is accepted or refused by its own draft and the paths of the data alone, whatever was tried
before it. The accepted rules, in the order of their declaration, are grouped by message type and
read back twice: type by type for one message, and path by path for the index. Neither depends on
the order in which the groups are held.

Results:
1. `Correlator.register_eq`, `Correlator.registerEach_eq`: each draft has its own fate.
2. `RuleSet.chosen_of_mem_indexed`, `RuleSet.nodup_indexed`: the index has one rule for every path,
   of the least message type, the first declared of that type.
3. `Groups.get?_ofRules`, `Groups.indexed_eq`: the same through groups that are held in any order.
4. `Correlator.registered_rules`: all of it for the drafts of a declaration.
-/

namespace Sagas

variable {D B : Type}

/-! ## Acceptance -/

/-- The rule that a draft becomes: its path is known, and its kind converts to the property's. -/
def DataType.accept? (t : DataType D) (sagaType : String) (draft : RuleDraft B) :
    Option (Rule B) :=
  (t.table.get? draft.property).bind fun accessor =>
    if draft.kind.canCoerce accessor.kind then
      some ⟨draft.messageType, t.name, draft.property, sagaType, accessor.kind, draft.extract⟩
    else none

theorem PropertyTable.get?_eq_none_iff {table : PropertyTable D} {path : String} :
    table.get? path = none ↔ path ∉ table.paths := by
  simp only [get?, List.find?_eq_none, decide_eq_true_eq, paths, List.mem_map, not_exists, not_and]

namespace Correlator

variable (c : Correlator D B)

theorem register_unknown {draft : RuleDraft B} (unknown : draft.property ∉ c.dataType.table.paths) :
    c.register draft = .error (.unknownProperty c.dataType.name draft.property) := by
  simp [register, PropertyTable.require, PropertyTable.get?_eq_none_iff.2 unknown]

theorem register_known {draft : RuleDraft B} {accessor : Accessor D}
    (known : c.dataType.table.get? draft.property = some accessor) :
    c.register draft =
      match c.dataType.accept? c.sagaType draft with
      | some r => .ok { c with rules := c.rules ++ [r] }
      | none => .error (.disallowedType c.dataType.name draft.property draft.kind.name) := by
  by_cases converts : draft.kind.canCoerce accessor.kind = true
  · simp [register, PropertyTable.require, DataType.accept?, known, converts]
  · simp [register, PropertyTable.require, DataType.accept?, known, converts]

/-- A draft either becomes a rule behind the others or changes nothing. -/
theorem registerEach_cons (draft : RuleDraft B) (rest : List (RuleDraft B)) :
    c.registerEach (draft :: rest) =
      registerEach { c with rules := c.rules ++ (c.dataType.accept? c.sagaType draft).toList }
        rest := by
  cases known : c.dataType.table.get? draft.property with
  | none =>
    have refused := c.register_unknown (PropertyTable.get?_eq_none_iff.1 known)
    simp [registerEach, refused, DataType.accept?, known]
  | some accessor =>
    rw [registerEach, c.register_known known]
    cases c.dataType.accept? c.sagaType draft <;> simp

theorem registerEach_eq (drafts : List (RuleDraft B)) :
    c.registerEach drafts =
      { c with rules := c.rules ++ drafts.filterMap (c.dataType.accept? c.sagaType) } := by
  induction drafts generalizing c with
  | nil => simp [registerEach]
  | cons draft rest ih =>
    rw [registerEach_cons, ih]
    cases accepted : c.dataType.accept? c.sagaType draft <;> simp [accepted]

end Correlator

/-! ## One rule for every path -/

namespace RuleSet

/-- Of the rules for its path, `r` has the least message type, and it is the first of that type. -/
def Chosen (rules : List (Rule B)) (r : Rule B) : Prop :=
  ∃ before after, rules = before ++ r :: after ∧
    (∀ q ∈ before, q.property = r.property → compare r.messageType q.messageType = .lt) ∧
    ∀ q ∈ after, q.property = r.property → (compare r.messageType q.messageType).isLE = true

/-- A rule that is added to the kept ones is the first for its path. -/
theorem first_of_mem_distinctPaths {kept rules : List (Rule B)} {r : Rule B}
    (member : r ∈ distinctPaths kept rules) :
    r ∈ kept ∨ (∀ q ∈ kept, q.property ≠ r.property) ∧
      ∃ before after, rules = before ++ r :: after ∧ ∀ q ∈ before, q.property ≠ r.property := by
  induction rules generalizing kept with
  | nil => exact .inl member
  | cons first rest ih =>
    rw [distinctPaths] at member
    split at member
    next known =>
      obtain ⟨earlier, isKept, same⟩ := List.any_eq_true.1 known
      rcases ih member with old | ⟨fresh, before, after, rfl, apart⟩
      · exact .inl old
      · have other : first.property ≠ r.property := by
          rw [← of_decide_eq_true same]
          exact fresh earlier isKept
        exact .inr ⟨fresh, first :: before, after, rfl, List.forall_mem_cons.2 ⟨other, apart⟩⟩
    next new =>
      simp only [List.any_eq_true, decide_eq_true_eq, not_exists, not_and] at new
      rcases ih member with held | ⟨fresh, before, after, rfl, apart⟩
      · rcases List.mem_append.1 held with old | added
        · exact .inl old
        · obtain rfl := List.mem_singleton.1 added
          exact .inr ⟨new, [], rest, rfl, by simp⟩
      · obtain ⟨freshKept, other⟩ := List.forall_mem_append.1 fresh
        exact .inr ⟨freshKept, first :: before, after, rfl,
          List.forall_mem_cons.2 ⟨other first (by simp), apart⟩⟩

variable {s : RuleSet B}

theorem nodup_indexed (s : RuleSet B) : (s.indexed.map (·.property)).Nodup :=
  nodup_distinctPaths List.nodup_nil

theorem mem_paths_indexed {path : String} :
    path ∈ s.indexed.map (·.property) ↔ path ∈ s.rules.map (·.property) := by
  constructor
  · intro listed
    obtain ⟨r, member, rfl⟩ := List.mem_map.1 listed
    exact List.mem_map_of_mem (mem_indexed member)
  · intro declared
    obtain ⟨r, member, rfl⟩ := List.mem_map.1 declared
    obtain ⟨chosen, listed, same⟩ := indexed_covers member
    exact same ▸ List.mem_map_of_mem listed

theorem mem_messageTypes {r : Rule B} (declared : r ∈ s.rules) : r.messageType ∈ s.messageTypes :=
  Sorted.mem_ofList.2 (List.mem_map_of_mem declared)

theorem mem_forType {messageType : String} {r : Rule B} :
    r ∈ s.forType messageType ↔ r ∈ s.rules ∧ r.messageType = messageType := by
  simp [forType]

/-- An element of two lists that are joined is in the second one, or in the first. -/
theorem split_append {α : Type} {xs ys before after : List α} {a : α}
    (split : xs ++ ys = before ++ a :: after) :
    (∃ later, before = xs ++ later ∧ ys = later ++ a :: after) ∨
      ∃ rest, xs = before ++ a :: rest := by
  rcases List.append_eq_append_iff.1 split with ⟨later, inSecond⟩ | ⟨rest, first, second⟩
  · exact .inl ⟨later, inSecond⟩
  · cases rest with
    | nil => exact .inl ⟨[], by simpa using first.symm, second.symm⟩
    | cons b rest =>
      obtain ⟨rfl, -⟩ := List.cons.inj second
      exact .inr ⟨rest, first⟩

/-- Type by type, a rule comes after those that were declared before it of its own type, and after
all rules of lesser types. -/
theorem split_types {types : List String}
    (increasing : types.Pairwise fun a b => compare a b = .lt) {r : Rule B}
    {before after : List (Rule B)} (split : types.flatMap s.forType = before ++ r :: after) :
    (∃ own rest, s.forType r.messageType = own ++ r :: rest ∧ ∀ q ∈ own, q ∈ before) ∧
      ∀ q ∈ s.rules, q.messageType ∈ types → compare q.messageType r.messageType = .lt →
        q ∈ before := by
  induction types generalizing before with
  | nil => simp at split
  | cons least types ih =>
    obtain ⟨below, increasing⟩ := List.pairwise_cons.1 increasing
    rw [List.flatMap_cons] at split
    rcases split_append split with ⟨later, rfl, splitLater⟩ | ⟨rest, ofLeast⟩
    · obtain ⟨⟨own, rest, ofType, ownLater⟩, lesserLater⟩ := ih increasing splitLater
      refine ⟨⟨own, rest, ofType, fun q member => List.mem_append_right _ (ownLater q member)⟩, ?_⟩
      intro q isRule among lesser
      rcases List.mem_cons.1 among with isLeast | higher
      · exact List.mem_append_left _ (mem_forType.2 ⟨isRule, isLeast⟩)
      · exact List.mem_append_right _ (lesserLater q isRule higher lesser)
    · obtain ⟨-, rfl⟩ : r ∈ s.rules ∧ r.messageType = least :=
        mem_forType.1 (by simp [ofLeast])
      refine ⟨⟨before, rest, ofLeast, fun _ member => member⟩, ?_⟩
      -- no type is below the least one
      intro q isRule among lesser
      rcases List.mem_cons.1 among with isLeast | higher
      · exact absurd (isLeast ▸ lesser) (Sorted.not_lt_self _)
      · cases (Std.OrientedCmp.not_lt_of_lt lesser) (below _ higher)

theorem chosen_of_mem_indexed {r : Rule B} (member : r ∈ s.indexed) : Chosen s.rules r := by
  rcases first_of_mem_distinctPaths member with none | ⟨-, before, after, listed, apart⟩
  · cases none
  obtain ⟨⟨own, rest, ofType, ownBefore⟩, lesserBefore⟩ :=
    split_types (Sorted.pairwise_ofList _) listed
  obtain ⟨early, others, declared, rfl, ofOthers⟩ := List.filter_eq_append_iff.1 ofType
  obtain ⟨between, late, rfl, foreign, -, -⟩ := List.filter_eq_cons_iff.1 ofOthers
  have notLesser : ∀ q ∈ s.rules, q.property = r.property →
      compare q.messageType r.messageType ≠ .lt := fun q isRule same lesser =>
    apart q (lesserBefore q isRule (mem_messageTypes isRule) lesser) same
  refine ⟨early ++ between, late, by rw [declared, List.append_assoc], ?_, ?_⟩
  · intro q member same
    have isRule : q ∈ s.rules := by
      rw [declared]
      rcases List.mem_append.1 member with first | second
      · exact List.mem_append_left _ first
      · exact List.mem_append_right _ (List.mem_append_left _ second)
    have otherType : q.messageType ≠ r.messageType := by
      intro sameType
      rcases List.mem_append.1 member with first | second
      · exact apart q (ownBefore q (List.mem_filter.2 ⟨first, by simpa using sameType⟩)) same
      · exact foreign q second (by simpa using sameType)
    cases order : compare q.messageType r.messageType with
    | lt => exact absurd order (notLesser q isRule same)
    | eq => exact absurd (Std.LawfulEqOrd.eq_of_compare order) otherType
    | gt => exact Std.OrientedCmp.lt_of_gt order
  · intro q member same
    have isRule : q ∈ s.rules := by
      rw [declared]
      simp [member]
    rw [← Std.OrientedCmp.isGE_eq_isLE]
    cases order : compare q.messageType r.messageType with
    | lt => exact absurd order (notLesser q isRule same)
    | eq => rfl
    | gt => rfl

end RuleSet

/-! ## Groups -/

/-- An order in which the keys are gone through, each once. -/
structure Dictionary.Listing {κ ν : Type} [DecidableEq κ] (d : Dictionary κ ν)
    (order : List κ) : Prop where
  distinct : order.Nodup
  complete : ∀ k, k ∈ order ↔ d.contains k = true

/-- Rules by message type. -/
abbrev Groups (B : Type) := Dictionary String (List (Rule B))

namespace Groups

/-- Puts a rule behind those of its type. -/
def push (g : Groups B) (r : Rule B) : Groups B :=
  g.insert r.messageType ((g.get? r.messageType).getD [] ++ [r])

def ofRules (rules : List (Rule B)) : Groups B :=
  rules.foldl push .empty

/-- The groups of the given types, one after the other. -/
def collect (g : Groups B) (types : List String) : List (Rule B) :=
  (types.filterMap g.get?).flatten

/-- One rule for every path, from groups that are gone through by their types. -/
def indexed (g : Groups B) (order : List String) : List (Rule B) :=
  RuleSet.distinctPaths [] (g.collect (order.mergeSort fun a b => (compare a b).isLE))

theorem get?_push (g : Groups B) (r : Rule B) (type : String) :
    (g.push r).get? type =
      if r.messageType = type then some ((g.get? type).getD [] ++ [r]) else g.get? type := by
  rw [push, Dictionary.get?_insert]
  by_cases same : r.messageType = type
  · simp [same]
  · simp [same, Ne.symm same]

theorem get?_foldl (g : Groups B) (rules : List (Rule B)) (type : String) :
    (rules.foldl push g).get? type =
      match rules.filter (·.messageType = type) with
      | [] => g.get? type
      | ofType => some ((g.get? type).getD [] ++ ofType) := by
  induction rules generalizing g with
  | nil => rfl
  | cons r rest ih =>
    rw [List.foldl_cons, ih, get?_push]
    by_cases same : r.messageType = type
    · cases others : rest.filter (·.messageType = type) <;> simp [same, others]
    · simp [same]

/-- A type has a group if it has a rule, and the group is all of its rules as they were declared. -/
theorem get?_ofRules (rules : List (Rule B)) (type : String) :
    (ofRules rules).get? type =
      match rules.filter (·.messageType = type) with
      | [] => none
      | ofType => some ofType := by
  rw [ofRules, get?_foldl]
  cases rules.filter (·.messageType = type) <;> simp

variable (s : RuleSet B)

theorem collect_ofRules (types : List String) :
    (ofRules s.rules).collect types = types.flatMap s.forType := by
  induction types with
  | nil => rfl
  | cons type rest ih =>
    rw [collect] at ih
    rw [collect, List.filterMap_cons, get?_ofRules, List.flatMap_cons, ← ih, RuleSet.forType]
    cases s.rules.filter (·.messageType = type) <;> simp

theorem contains_ofRules (type : String) :
    (ofRules s.rules).contains type = true ↔ type ∈ s.messageTypes := by
  have declared : type ∈ s.messageTypes ↔ ∃ r, r ∈ s.rules.filter (·.messageType = type) := by
    simp [RuleSet.messageTypes, Sorted.mem_ofList]
  rw [declared, Dictionary.contains, get?_ofRules]
  cases s.rules.filter (·.messageType = type) with
  | nil => simp
  | cons r rest => exact ⟨fun _ => ⟨r, List.mem_cons_self⟩, fun _ => rfl⟩

theorem isLE_total (a b : String) : ((compare a b).isLE || (compare b a).isLE) = true := by
  rw [← Std.OrientedCmp.isGE_eq_isLE (a := a)]
  cases compare a b <;> rfl

/-- Sorting undoes any order of the groups. -/
theorem sort_listing {order : List String} (listing : (ofRules s.rules).Listing order) :
    (order.mergeSort fun a b => (compare a b).isLE) = s.messageTypes := by
  have increasing : s.messageTypes.Pairwise fun a b => compare a b = .lt :=
    Sorted.pairwise_ofList _
  have permuted : order.Perm s.messageTypes :=
    (List.perm_ext_iff_of_nodup listing.distinct (Sorted.nodup_ofList _)).2 fun type =>
      (listing.complete type).trans (contains_ofRules s type)
  have sorted : (order.mergeSort fun a b => (compare a b).isLE).Pairwise fun a b =>
      (compare a b).isLE = true :=
    List.pairwise_mergeSort (fun _ _ _ => Std.TransCmp.isLE_trans) isLE_total order
  refine ((List.mergeSort_perm order _).trans permuted).eq_of_pairwise ?_ sorted
    (increasing.imp fun less => by rw [less]; rfl)
  intro a b _ _ forth back
  exact Std.LawfulEqOrd.eq_of_compare (Std.OrientedCmp.isLE_antisymm forth back)

/-- The index does not depend on the order in which the groups are gone through. -/
theorem indexed_eq {order : List String} (listing : (ofRules s.rules).Listing order) :
    (ofRules s.rules).indexed order = s.indexed := by
  rw [indexed, sort_listing s listing, collect_ofRules, RuleSet.indexed]

end Groups

theorem RuleSet.forMessage_eq_error_iff {s : RuleSet B} {m : Message B} :
    s.forMessage m = .error (.noCorrelation s.sagaType m.type) ↔
      m.hierarchy.flatMap s.forType = [] := by
  rw [forMessage]
  cases m.hierarchy.flatMap s.forType <;> simp

theorem RuleSet.forMessage_eq_ok_iff {s : RuleSet B} {m : Message B} {rules : List (Rule B)} :
    s.forMessage m = .ok rules ↔ rules ≠ [] ∧ rules = m.hierarchy.flatMap s.forType := by
  rw [forMessage]
  cases m.hierarchy.flatMap s.forType with
  | nil => simp
  | cons r rest =>
    simp only [Except.ok.injEq]
    exact ⟨fun same => ⟨same ▸ List.cons_ne_nil r rest, same.symm⟩, fun found => found.2.symm⟩

/-! ## Declarations -/

namespace Correlator

theorem register_eq_error_iff (c : Correlator D B) (draft : RuleDraft B) :
    (∃ e, c.register draft = .error e) ↔ c.dataType.accept? c.sagaType draft = none := by
  cases known : c.dataType.table.get? draft.property with
  | none =>
    have refused := c.register_unknown (PropertyTable.get?_eq_none_iff.1 known)
    simp [refused, DataType.accept?, known]
  | some accessor =>
    rw [c.register_known known]
    cases c.dataType.accept? c.sagaType draft <;> simp

theorem register_unknown_iff (c : Correlator D B) (draft : RuleDraft B) :
    c.register draft = .error (.unknownProperty c.dataType.name draft.property) ↔
      draft.property ∉ c.dataType.table.paths := by
  refine ⟨fun refused => ?_, c.register_unknown⟩
  cases known : c.dataType.table.get? draft.property with
  | none => exact PropertyTable.get?_eq_none_iff.1 known
  | some accessor =>
    rw [c.register_known known] at refused
    split at refused <;> cases refused

theorem register_disallowed_iff (c : Correlator D B) (draft : RuleDraft B) :
    c.register draft =
        .error (.disallowedType c.dataType.name draft.property draft.kind.name) ↔
      ∃ accessor, c.dataType.table.get? draft.property = some accessor ∧
        draft.kind.canCoerce accessor.kind = false := by
  cases known : c.dataType.table.get? draft.property with
  | none =>
    have refused := c.register_unknown (PropertyTable.get?_eq_none_iff.1 known)
    simp [refused]
  | some accessor =>
    rw [c.register_known known]
    cases converts : draft.kind.canCoerce accessor.kind <;>
      simp [DataType.accept?, known, converts]

/-- Registering a sequence of drafts, whatever becomes of each. A draft is refused for an unknown
path, or else for a kind that does not convert, and then it is as if it had not been tried. The
rules for a message are those of its own type, then those of its families, as they were declared,
and it is an error if there are none. The index has one rule for each declared path, the first of
the least message type, however the groups are gone through. -/
theorem registered_rules (sagaType : String) (t : DataType D) (drafts : List (RuleDraft B)) :
    let c := (start sagaType t).registerEach drafts
    let groups := Groups.ofRules c.rules
    c.rules = drafts.filterMap (t.accept? sagaType) ∧
    (∀ draft : RuleDraft B,
      (c.register draft = .error (.unknownProperty t.name draft.property) ↔
        draft.property ∉ t.table.paths) ∧
      (c.register draft = .error (.disallowedType t.name draft.property draft.kind.name) ↔
        ∃ accessor, t.table.get? draft.property = some accessor ∧
          draft.kind.canCoerce accessor.kind = false) ∧
      ((∃ e, c.register draft = .error e) ↔ t.accept? sagaType draft = none) ∧
      ∀ e later, c.register draft = .error e →
        (start sagaType t).registerEach (drafts ++ draft :: later) =
          (start sagaType t).registerEach (drafts ++ later)) ∧
    (∀ m : Message B,
      let found := (m.type :: m.supertypes).flatMap fun type =>
        c.rules.filter (·.messageType = type)
      groups.collect (m.type :: m.supertypes) = found ∧
      (c.build.forMessage m = .error (.noCorrelation sagaType m.type) ↔ found = []) ∧
      ∀ rules, c.build.forMessage m = .ok rules ↔ rules ≠ [] ∧ rules = found) ∧
    (c.build.indexed.map (·.property)).Nodup ∧
    (∀ path, path ∈ c.build.indexed.map (·.property) ↔ path ∈ c.rules.map (·.property)) ∧
    (∀ r ∈ c.build.indexed, RuleSet.Chosen c.rules r) ∧
    ∀ order, groups.Listing order → groups.indexed order = c.build.indexed := by
  intro c groups
  have result : c = ⟨sagaType, t, drafts.filterMap (t.accept? sagaType)⟩ :=
    registerEach_eq (start sagaType t) drafts
  have type : c.dataType = t := by rw [result]
  have saga : c.sagaType = sagaType := by rw [result]
  refine ⟨by rw [result], ?_, ?_, ?_, ?_, ?_, ?_⟩
  · intro draft
    have unknown := c.register_unknown_iff draft
    have disallowed := c.register_disallowed_iff draft
    have refused := c.register_eq_error_iff draft
    rw [type] at unknown disallowed refused
    rw [saga] at refused
    refine ⟨unknown, disallowed, refused, ?_⟩
    intro e later failed
    have rejected := refused.1 ⟨e, failed⟩
    simp [registerEach_eq, start, rejected]
  · intro m found
    refine ⟨Groups.collect_ofRules c.build _, ?_, ?_⟩
    · rw [← saga]
      exact RuleSet.forMessage_eq_error_iff
    · intro rules
      exact RuleSet.forMessage_eq_ok_iff
  · exact RuleSet.nodup_indexed c.build
  · intro path
    exact RuleSet.mem_paths_indexed
  · intro r member
    exact RuleSet.chosen_of_mem_indexed member
  · intro order listing
    exact Groups.indexed_eq c.build listing

end Correlator

end Sagas
