import Sagas.Proofs.Data
import Sagas.Proofs.Processing
import Sagas.Proofs.Rules

/-!
# The values of a new instance

A new instance is given every value that its message yields, rule by rule. Each of them fits its
path, so of several values for one path the last one stays, as long as no path reaches into the
field of another.

Results:
1. `Distinct.value_assigned`: a path holds the last value that was put there.
2. `yields_fit`: what a message yields for accepted rules fits the paths that they name.
3. `newData_holds`: a new instance holds the last value for every path.
-/

namespace Sagas

variable {D B : Type}

namespace PropertyValue

/-- The last value of a name. -/
def last? (name : String) (values : List PropertyValue) : Option Scalar :=
  (values.reverse.find? (·.name = name)).map (·.value)

/-- Whether a lookup can find an instance that holds this value: it is set, or an identity. -/
def Sought (p : PropertyValue) : Prop :=
  p.name = identityPath ∨ p.value.isUnset = false

theorem last?_cons (name : String) (p : PropertyValue) (rest : List PropertyValue) :
    last? name (p :: rest) =
      (last? name rest).or (if p.name = name then some p.value else none) := by
  unfold last?
  rw [List.reverse_cons, List.find?_append]
  cases rest.reverse.find? (·.name = name) with
  | some q => rfl
  | none => by_cases same : p.name = name <;> simp [same]

theorem last?_of_mem {p : PropertyValue} {values : List PropertyValue} (member : p ∈ values) :
    ∃ v, last? p.name values = some v := by
  have found : (values.reverse.find? (·.name = p.name)).isSome := by
    rw [List.find?_isSome]
    exact ⟨p, List.mem_reverse.2 member, by simp⟩
  obtain ⟨q, found⟩ := Option.isSome_iff_exists.1 found
  exact ⟨q.value, by rw [last?, found]; rfl⟩

theorem mem_of_last? {name : String} {v : Scalar} {values : List PropertyValue}
    (last : last? name values = some v) : ⟨name, v⟩ ∈ values := by
  obtain ⟨q, found, rfl⟩ := Option.map_eq_some_iff.1 last
  obtain rfl : q.name = name := by simpa using List.find?_some found
  exact List.mem_reverse.1 (List.mem_of_find?_eq_some found)

end PropertyValue

namespace DataType

/-- The value is of the kind of the path that it is for. -/
def Suits (t : DataType D) (p : PropertyValue) : Prop :=
  ∃ a, t.table.get? p.name = some a ∧ p.value.kind = a.kind

variable {t : DataType D}

theorem Distinct.value_assigned (distinct : t.Distinct) {values : List PropertyValue}
    (suit : ∀ p ∈ values, t.Suits p) {path : String} {a : Accessor D}
    (known : t.table.get? path = some a) (d : D) :
    a.value (Invocation.assigned t.table values d) =
      (PropertyValue.last? path values).getD (a.value d) := by
  -- Over the values, of which each one either is for the path or leaves its field alone.
  induction values generalizing d with
  | nil => rfl
  | cons p rest ih =>
    obtain ⟨b, known', kind⟩ := suit p List.mem_cons_self
    obtain ⟨e, assigned, value⟩ := b.assign?_of_kind kind d
    rw [Invocation.assigned, known', Option.bind_some, assigned, Option.getD_some,
      ih (fun q member => suit q (List.mem_cons_of_mem _ member)), PropertyValue.last?_cons]
    by_cases same : p.name = path
    · subst same
      cases known.symm.trans known'
      rw [value, if_pos rfl]
      cases PropertyValue.last? p.name rest <;> rfl
    · rw [distinct.value_assign known' known same assigned, if_neg same, Option.or_none]

end DataType

namespace Incoming

variable {message : Message B} {context : Context} {chosen : List (Rule B)} {p : PropertyValue}

theorem mem_yields : p ∈ yields message context chosen ↔
    ∃ r ∈ chosen, r.value? context message = some p.value ∧ r.property = p.name := by
  unfold yields
  rw [List.mem_filterMap]
  refine exists_congr fun r => and_congr_right fun _ => ?_
  obtain ⟨name, value⟩ := p
  simp

/-- What a message yields for the rules that a saga declares fits its data. -/
theorem yields_fit {s : Saga D B} {rules : RuleSet B} (declared : s.type.declaration = .ok rules)
    (accepted : rules.forMessage message = .ok chosen)
    (yielded : p ∈ yields message context chosen) : s.dataType.Suits p := by
  obtain ⟨r, among, reads, named⟩ := mem_yields.1 yielded
  obtain ⟨-, a, known, kind⟩ :=
    Correlator.declare_eq_ok declared r (RuleSet.mem_of_forMessage accepted among)
  exact ⟨a, named ▸ known, (Rule.kind_of_value? reads).trans kind⟩

end Incoming

/-- A new instance holds the last value for every path that it was given one for. -/
theorem Invocation.newData_holds {s : Saga D B} (distinct : s.dataType.Distinct)
    {values : List PropertyValue} (suit : ∀ p ∈ values, s.dataType.Suits p) {path : String}
    {v : Scalar} (last : PropertyValue.last? path values = some v) (fresh : Uuid) :
    s.dataType.valueAt path (newData s values fresh) = some v := by
  obtain ⟨a, known, -⟩ := suit _ (PropertyValue.mem_of_last? last)
  unfold DataType.valueAt newData
  rw [known, Option.map_some, distinct.value_assigned suit known, last]
  rfl

end Sagas
