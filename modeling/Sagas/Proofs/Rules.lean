import Sagas.Invocation

/-!
# Paths that rules declare

The index of storage gets one value for every path that the sagas bound to an instance declare. A
rule set hands out one rule for every path (`indexed`), and the values of an instance are those of
its own data type among the rules it is given (`valuesOf`).

Results:
1. `distinctPaths_covers`, `nodup_distinctPaths`: one rule is kept for every path.
2. `indexed_covers`: no declared path is missing from the indexed ones.
3. `declare_forall`, `declare_eq_ok`: what holds of drafts holds of accepted rules, which name paths
   of the data type.
4. `mem_valuesOf`, `nodup_valuesOf`, `mem_valuesOf_iff`: the values of an instance, path by path.
-/

namespace Sagas

variable {D B : Type}

namespace RuleSet

theorem mem_distinctPaths {kept rules : List (Rule B)} {r : Rule B}
    (member : r ∈ distinctPaths kept rules) : r ∈ kept ∨ r ∈ rules := by
  induction rules generalizing kept with
  | nil => exact .inl member
  | cons first rest ih =>
    rw [distinctPaths] at member
    split at member
    next => exact (ih member).imp_right (List.mem_cons_of_mem _)
    next =>
      rcases ih member with old | later
      · rcases List.mem_append.1 old with kept | new
        · exact .inl kept
        · exact .inr (List.mem_singleton.1 new ▸ List.mem_cons_self)
      · exact .inr (List.mem_cons_of_mem _ later)

theorem distinctPaths_covers {kept rules : List (Rule B)} {r : Rule B}
    (member : r ∈ kept ∨ r ∈ rules) :
    ∃ chosen ∈ distinctPaths kept rules, chosen.property = r.property := by
  induction rules generalizing kept r with
  | nil => exact ⟨r, member.resolve_right List.not_mem_nil, rfl⟩
  | cons first rest ih =>
    rw [distinctPaths]
    split
    next known =>
      rcases member with old | member
      · exact ih (.inl old)
      · rcases List.mem_cons.1 member with rfl | later
        · obtain ⟨earlier, isKept, same⟩ := List.any_eq_true.1 known
          obtain ⟨chosen, among, covers⟩ := ih (.inl isKept)
          exact ⟨chosen, among, covers.trans (by simpa using same)⟩
        · exact ih (.inr later)
    next =>
      rcases member with old | member
      · exact ih (.inl (List.mem_append_left _ old))
      · rcases List.mem_cons.1 member with rfl | later
        · exact ih (.inl (by simp))
        · exact ih (.inr later)

theorem nodup_distinctPaths {kept rules : List (Rule B)}
    (distinct : (kept.map (·.property)).Nodup) :
    ((distinctPaths kept rules).map (·.property)).Nodup := by
  induction rules generalizing kept with
  | nil => exact distinct
  | cons r rest ih =>
    rw [distinctPaths]
    split
    next => exact ih distinct
    next new =>
      refine ih ?_
      rw [List.map_append, List.nodup_append]
      refine ⟨distinct, by simp, fun path known path' last same => ?_⟩
      obtain ⟨earlier, isKept, rfl⟩ := List.mem_map.1 known
      obtain rfl : path' = r.property := List.mem_singleton.1 last
      exact new (List.any_eq_true.2 ⟨earlier, isKept, by simpa using same⟩)

theorem mem_indexed {s : RuleSet B} {r : Rule B} (member : r ∈ s.indexed) : r ∈ s.rules := by
  rcases mem_distinctPaths member with kept | listed
  · exact nomatch kept
  · obtain ⟨type, -, ofType⟩ := List.mem_flatMap.1 listed
    exact (List.mem_filter.1 ofType).1

/-- Every path that a rule names is among the indexed ones. -/
theorem indexed_covers {s : RuleSet B} {r : Rule B} (member : r ∈ s.rules) :
    ∃ chosen ∈ s.indexed, chosen.property = r.property := by
  refine distinctPaths_covers (.inr (List.mem_flatMap.2 ⟨r.messageType, ?_, ?_⟩))
  · exact Sorted.mem_ofList.2 (List.mem_map_of_mem member)
  · exact List.mem_filter.2 ⟨member, by simp⟩

theorem mem_of_forMessage {s : RuleSet B} {m : Message B} {chosen : List (Rule B)}
    (accepted : s.forMessage m = .ok chosen) {r : Rule B} (member : r ∈ chosen) : r ∈ s.rules := by
  unfold forMessage at accepted
  split at accepted
  next => cases accepted
  next =>
    obtain rfl := Except.ok.inj accepted
    obtain ⟨type, -, ofType⟩ := List.mem_flatMap.1 member
    exact (List.mem_filter.1 ofType).1

theorem forMessage_ne_nil {s : RuleSet B} {m : Message B} {chosen : List (Rule B)}
    (accepted : s.forMessage m = .ok chosen) : chosen ≠ [] := by
  unfold forMessage at accepted
  split at accepted
  next => cases accepted
  next matched => exact Except.ok.inj accepted ▸ matched

end RuleSet

/-- The rule names a path of the data type, at its kind. -/
def DataType.Fits (t : DataType D) (r : Rule B) : Prop :=
  r.dataType = t.name ∧ ∃ accessor, t.table.get? r.property = some accessor ∧ r.kind = accessor.kind

namespace Correlator

variable {c final : Correlator D B}

theorem register_eq_ok {draft : RuleDraft B} {extended : Correlator D B}
    (accepted : c.register draft = .ok extended) :
    ∃ accessor, c.dataType.table.get? draft.property = some accessor ∧
      extended = { c with rules := c.rules ++ [⟨draft.messageType, c.dataType.name, draft.property,
        c.sagaType, accessor.kind, draft.extract⟩] } := by
  unfold register PropertyTable.require at accepted
  cases known : c.dataType.table.get? draft.property with
  | none => simp [known] at accepted
  | some accessor =>
    rw [known] at accepted
    dsimp only at accepted
    split at accepted
    next => exact ⟨accessor, rfl, (Except.ok.inj accepted).symm⟩
    next => cases accepted

/-- What holds of the rule of every draft that is accepted holds of all rules. -/
theorem foldlM_register {t : DataType D} {drafts : List (RuleDraft B)} {holds : Rule B → Prop}
    (typed : c.dataType = t) (old : ∀ r ∈ c.rules, holds r)
    (new : ∀ draft ∈ drafts, ∀ sagaType accessor, t.table.get? draft.property = some accessor →
      holds ⟨draft.messageType, t.name, draft.property, sagaType, accessor.kind, draft.extract⟩)
    (accepted : drafts.foldlM register c = .ok final) : ∀ r ∈ final.rules, holds r := by
  induction drafts generalizing c with
  | nil =>
    obtain rfl : c = final := Except.ok.inj accepted
    exact old
  | cons draft rest ih =>
    obtain ⟨first, later⟩ := List.forall_mem_cons.1 new
    rw [List.foldlM_cons] at accepted
    cases registered : c.register draft with
    | error e => simp [registered, bind, Except.bind] at accepted
    | ok extended =>
      rw [registered] at accepted
      obtain ⟨accessor, known, rfl⟩ := register_eq_ok registered
      subst typed
      change rest.foldlM register _ = .ok final at accepted
      refine ih ?_ (fun r member => ?_) later accepted
      · rfl
      rcases List.mem_append.1 member with earlier | now
      · exact old r earlier
      · exact List.mem_singleton.1 now ▸ first _ accessor known

theorem declare_forall {sagaType : String} {t : DataType D} {drafts : List (RuleDraft B)}
    {rules : RuleSet B} {holds : Rule B → Prop}
    (new : ∀ draft ∈ drafts, ∀ sagaType accessor, t.table.get? draft.property = some accessor →
      holds ⟨draft.messageType, t.name, draft.property, sagaType, accessor.kind, draft.extract⟩)
    (accepted : (start sagaType t).declare drafts = .ok rules) : ∀ r ∈ rules.rules, holds r := by
  unfold declare at accepted
  cases folded : drafts.foldlM register (start sagaType t) with
  | error e => simp [folded, Except.map] at accepted
  | ok final =>
    rw [folded] at accepted
    obtain rfl : final.build = rules := Except.ok.inj accepted
    exact foldlM_register rfl (by simp [start]) new folded

theorem declare_eq_ok {sagaType : String} {t : DataType D} {drafts : List (RuleDraft B)}
    {rules : RuleSet B} (accepted : (start sagaType t).declare drafts = .ok rules) :
    ∀ r ∈ rules.rules, t.Fits r :=
  declare_forall (fun _ _ _ accessor known => ⟨rfl, accessor, known, rfl⟩) accepted

end Correlator

namespace Invocation

variable {s : Saga D B} {data : D} {rules : List (Rule B)} {path : String}

theorem mem_valuesOf {p : PropertyValue} (member : p ∈ valuesOf s data rules) :
    ∃ r ∈ rules, r.dataType = s.dataType.name ∧ r.property = p.name ∧
      ∃ accessor, s.dataType.table.get? p.name = some accessor ∧ p.value = accessor.value data := by
  obtain ⟨r, chosen, reads⟩ := List.mem_filterMap.1 member
  obtain ⟨accessor, known, rfl⟩ := Option.map_eq_some_iff.1 reads
  have listed := (RuleSet.mem_distinctPaths chosen).resolve_left List.not_mem_nil
  obtain ⟨among, typed⟩ := List.mem_filter.1 listed
  have same : accessor.path = r.property := PropertyTable.path_of_get? known
  exact ⟨r, among, by simpa using typed, same.symm, accessor, same.symm ▸ known, rfl⟩

theorem valuesOf_covers {r : Rule B} (among : r ∈ rules) (typed : r.dataType = s.dataType.name)
    {accessor : Accessor D} (known : s.dataType.table.get? r.property = some accessor) :
    ⟨r.property, accessor.value data⟩ ∈ valuesOf s data rules := by
  have listed : r ∈ rules.filter (·.dataType = s.dataType.name) :=
    List.mem_filter.2 ⟨among, by simpa using typed⟩
  obtain ⟨chosen, isChosen, same⟩ := RuleSet.distinctPaths_covers (.inr listed)
  refine List.mem_filterMap.2 ⟨chosen, isChosen, ?_⟩
  rw [same, known]
  simp [PropertyTable.path_of_get? known]

theorem nodup_valuesOf (s : Saga D B) (data : D) (rules : List (Rule B)) :
    ((valuesOf s data rules).map (·.name)).Nodup := by
  have names : ((valuesOf s data rules).map (·.name)).Sublist
      ((RuleSet.distinctPaths [] (rules.filter (·.dataType = s.dataType.name))).map
        (·.property)) := by
    unfold valuesOf
    induction RuleSet.distinctPaths [] (rules.filter (·.dataType = s.dataType.name)) with
    | nil => exact .slnil
    | cons r rest ih =>
      rw [List.filterMap_cons]
      cases known : s.dataType.table.get? r.property with
      | none => exact ih.cons _
      | some accessor =>
        simp only [Option.map_some, List.map_cons, PropertyTable.path_of_get? known]
        exact ih.cons_cons _
  refine (RuleSet.nodup_distinctPaths ?_).sublist names
  exact List.nodup_nil

/-- If all rules are for one path, an instance has one value. -/
theorem mem_valuesOf_iff {accessor : Accessor D}
    (known : s.dataType.table.get? path = some accessor)
    (only : ∀ r ∈ rules, r.property = path) {r : Rule B} (among : r ∈ rules)
    (typed : r.dataType = s.dataType.name) (key : PropertyValue) :
    key ∈ valuesOf s data rules ↔ key = ⟨path, accessor.value data⟩ := by
  constructor
  · intro member
    obtain ⟨r', listed, -, named, accessor', known', same⟩ := mem_valuesOf member
    obtain ⟨name, v⟩ := key
    obtain rfl : path = name := (only r' listed).symm.trans named
    cases known.symm.trans known'
    exact congrArg _ same
  · rintro rfl
    have covers : ⟨r.property, accessor.value data⟩ ∈ valuesOf s data rules :=
      valuesOf_covers among typed ((only r among).symm ▸ known)
    rwa [only r among] at covers

end Invocation

end Sagas
