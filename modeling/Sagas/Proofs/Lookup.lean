import Sagas.Proofs.Coercion.Coherence
import Sagas.Proofs.Data
import Sagas.Proofs.Registration

/-!
# What is looked up and what is stored

An instance is found by comparing a value that a message yields with a value that the instance had
when it was stored. Both are of the kind of one property: a rule is accepted only if values of its
kind can be used for its property at all, what it yields is converted to the kind of the property,
and whatever is of this kind can be assigned to the property and is read back from it.

Results:
1. `Scalar.canCoerce_eq_false_iff`, `Correlator.register_useless_iff`: a rule is refused for its
   kind if no value of this kind is of use for its property.
2. `Correlator.fits_of_registerEach`: an accepted rule has the kind of its property.
3. `Invocation.filter_valuesOf`: an instance has one value for the path of a rule.
4. `Correlator.stored_as_looked_up`: what a rule yields can be stored, and is stored as it is.
-/

namespace Sagas

variable {D B : Type}

/-! ## Refused rules -/

namespace Scalar

theorem canCoerce_eq_false_iff {source target : Kind} :
    source.canCoerce target = false ↔ ∀ v : Scalar, v.kind = source → v.coerce target = none := by
  rw [← Bool.not_eq_true, canCoerce_iff]
  simp only [not_exists, not_and, Option.not_isSome_iff_eq_none]

end Scalar

namespace Correlator

theorem register_useless_iff (c : Correlator D B) (draft : RuleDraft B) :
    c.register draft =
        .error (.disallowedType c.dataType.name draft.property draft.kind.name) ↔
      ∃ a, c.dataType.table.get? draft.property = some a ∧
        ∀ v : Scalar, v.kind = draft.kind → v.coerce a.kind = none := by
  rw [register_disallowed_iff]
  exact exists_congr fun a => and_congr_right fun _ => Scalar.canCoerce_eq_false_iff

end Correlator

/-! ## Accepted rules -/

theorem DataType.fits_of_accept? {t : DataType D} {sagaType : String} {draft : RuleDraft B}
    {r : Rule B} (accepted : t.accept? sagaType draft = some r) : t.Fits r := by
  obtain ⟨a, known, made⟩ := Option.bind_eq_some_iff.1 accepted
  split at made
  next =>
    cases made
    exact ⟨rfl, a, known, rfl⟩
  next => cases made

theorem Correlator.fits_of_registerEach {sagaType : String} {t : DataType D}
    {drafts : List (RuleDraft B)} {r : Rule B}
    (accepted : r ∈ ((start sagaType t).registerEach drafts).rules) : t.Fits r := by
  rw [registerEach_eq] at accepted
  obtain ⟨draft, -, becomes⟩ := List.mem_filterMap.1 accepted
  exact DataType.fits_of_accept? becomes

/-! ## Stored values -/

namespace Invocation

variable {s : Saga D B} {rules : List (Rule B)} {r : Rule B} {a : Accessor D}

theorem filter_valuesOf (typed : r.dataType = s.dataType.name)
    (known : s.dataType.table.get? r.property = some a) (among : r ∈ rules) (data : D) :
    (valuesOf s data rules).filter (·.name = r.property) = [⟨r.property, a.value data⟩] :=
  filter_eq_singleton_of_nodup (nodup_valuesOf s data rules) (valuesOf_covers among typed known)

theorem valuesOf_singleton (typed : r.dataType = s.dataType.name)
    (known : s.dataType.table.get? r.property = some a) (data : D) :
    valuesOf s data [r] = [⟨r.property, a.value data⟩] := by
  have named : a.path = r.property := PropertyTable.path_of_get? known
  simp [valuesOf, RuleSet.distinctPaths, typed, known, named]

/-- Whatever is assigned through the accessor is the one value for its path from then on. -/
theorem values_assigned {i : Invocation D B} {inst : Instance D} (isSaga : i.handler = .saga s)
    (isBound : i.bound = some inst) (typed : r.dataType = s.dataType.name)
    (known : s.dataType.table.get? r.property = some a) {v : Scalar}
    (holds : a.value inst.data = v) :
    i.values [r] = .ok [⟨r.property, v⟩] ∧
      ∀ rules, r ∈ rules →
        ∃ values, i.values rules = .ok values ∧
          values.filter (·.name = r.property) = [⟨r.property, v⟩] := by
  have current : ∀ rules, i.values rules = .ok (valuesOf s inst.data rules) := fun rules => by
    simp [values, instance?, isSaga, isBound]
  refine ⟨?_, fun rules among => ⟨_, current rules, ?_⟩⟩
  · rw [current, valuesOf_singleton typed known, holds]
  · rw [filter_valuesOf typed known among, holds]

end Invocation

/-- A kind is allowed for another one exactly if some value of it converts, so a rule is refused for
its kind exactly if no value of this kind could ever be used. Of the rules that are accepted, among
whatever others were tried, each yields nothing or a value of exactly the kind of its property. This
value can be assigned through the accessor of the property to any data, and from then on it is what
the instance reports for the rule, alone or among other rules, under the path of the property. -/
theorem Correlator.stored_as_looked_up (s : Saga D B) (drafts : List (RuleDraft B)) :
    let c := (start s.name s.dataType).registerEach drafts
    (∀ source target : Kind, source.canCoerce target = true ↔
      ∃ v : Scalar, v.kind = source ∧ (v.coerce target).isSome = true) ∧
    (∀ draft : RuleDraft B,
      c.register draft =
          .error (.disallowedType s.dataType.name draft.property draft.kind.name) ↔
        ∃ a, s.dataType.table.get? draft.property = some a ∧
          ∀ v : Scalar, v.kind = draft.kind → v.coerce a.kind = none) ∧
    ∀ r ∈ c.rules, ∃ a, s.dataType.table.get? r.property = some a ∧
      ∀ (context : Context) (m : Message B), r.value? context m = none ∨
        ∃ v, r.value? context m = some v ∧ v.kind = a.kind ∧
          ∀ d, ∃ e, a.assign? v d = some e ∧
            ∀ (i : Invocation D B) (inst : Instance D), i.handler = .saga s → i.bound = some inst →
              inst.data = e →
                i.values [r] = .ok [⟨r.property, v⟩] ∧
                ∀ rules, r ∈ rules →
                  ∃ values, i.values rules = .ok values ∧
                    values.filter (·.name = r.property) = [⟨r.property, v⟩] := by
  intro c
  have type : c.dataType = s.dataType := by
    simp only [c, registerEach_eq, start]
  refine ⟨fun _ _ => Scalar.canCoerce_iff, fun draft => ?_, fun r accepted => ?_⟩
  · have useless := c.register_useless_iff draft
    rwa [type] at useless
  · obtain ⟨typed, a, known, sameKind⟩ := fits_of_registerEach accepted
    refine ⟨a, known, fun context m => ?_⟩
    cases yields : r.value? context m with
    | none => exact .inl rfl
    | some v =>
      have ofKind : v.kind = a.kind := (Rule.kind_of_value? yields).trans sameKind
      refine .inr ⟨v, rfl, ofKind, fun d => ?_⟩
      obtain ⟨e, assigned, reads⟩ := a.assign?_of_kind ofKind d
      refine ⟨e, assigned, fun i inst isSaga isBound holds => ?_⟩
      exact Invocation.values_assigned isSaga isBound typed known (holds ▸ reads)

end Sagas
