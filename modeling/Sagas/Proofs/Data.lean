import Sagas.Demo.Tally

/-!
# What authors promise of their data

The runtime manages the identity and the revision of an instance; all other fields are the
author's. So a path other than the identity can be read and assigned without regard to them, what
was written can be read back, and no path reaches into the field of another.

Results:
1. `Owns.value_set`, `Owns.metadata_assign`: a path and the metadata are independent.
2. `Lossless.read`: a stored document reads back as the data it was made of.
3. `Distinct.value_assign`: assigning to a path leaves the others alone.
4. `Tally.lossless`, `Tally.owns`, `Tally.distinct`: tallies keep these promises.
-/

namespace Sagas

variable {D B : Type}

/-- Of elements that are told apart by `f`, one alone has its own image. -/
theorem filter_eq_singleton_of_nodup {α β : Type} [DecidableEq β] {f : α → β} {l : List α} {a : α}
    (distinct : (l.map f).Nodup) (member : a ∈ l) : l.filter (f · = f a) = [a] := by
  induction l with
  | nil => cases member
  | cons b rest ih =>
    obtain ⟨new, distinct⟩ := List.nodup_cons.1 distinct
    rcases List.mem_cons.1 member with rfl | later
    · have others : rest.filter (f · = f a) = [] :=
        List.filter_eq_nil_iff.2 fun c among same =>
          new (of_decide_eq_true same ▸ List.mem_map_of_mem among)
      rw [List.filter_cons_of_pos (by simp), others]
    · have other : f b ≠ f a := fun same => new (same ▸ List.mem_map_of_mem later)
      rw [List.filter_cons_of_neg (by simp [other]), ih distinct later]

/-- A value of the accessor's own kind can be assigned, and is read back as it is. -/
theorem Accessor.assign?_of_kind (accessor : Accessor D) {v : Scalar}
    (kind : v.kind = accessor.kind) (d : D) :
    ∃ e, accessor.assign? v d = some e ∧ accessor.value e = v := by
  have coerced : v.coerce accessor.kind = some v := kind ▸ v.coerce_kind
  obtain ⟨e, assigned⟩ : ∃ e, accessor.assign? v d = some e := by
    rw [← Option.isSome_iff_exists, accessor.assign?_isSome, coerced]
    rfl
  refine ⟨e, assigned, ?_⟩
  exact Option.some.inj ((Accessor.value_of_assign? assigned).symm.trans coerced)

namespace DataType

/-- The current value of a path, if the data type has it. -/
def valueAt (t : DataType D) (path : String) (d : D) : Option Scalar :=
  (t.table.get? path).map (·.value d)

/-- The field of this path is none of those that the runtime manages. -/
def Owns (t : DataType D) (path : String) : Prop :=
  ∀ a, t.table.get? path = some a → ∀ d m x,
    t.metadata.set (a.field.set d x) m = a.field.set (t.metadata.set d m) x

/-- Reading gives back what was written, up to the identity and the revision, which come from the
document. -/
def Lossless (t : DataType D) : Prop :=
  ∀ d m, (t.decode (t.encode d)).map (t.metadata.set · m) = .ok (t.metadata.set d m)

/-- Every path reaches a field of its own, and `Id` reaches the identity. -/
structure Distinct (t : DataType D) : Prop where
  identity : t.table.get? identityPath =
    some ⟨identityPath, .uuid, t.metadata.comp Metadata.idLens⟩
  apart : ∀ {path other : String} {a b : Accessor D}, t.table.get? path = some a →
    t.table.get? other = some b → path ≠ other →
      ∀ d x, b.field.get (a.field.set d x) = b.field.get d

variable {t : DataType D} {path : String} {a : Accessor D}

theorem Owns.value_set (owns : t.Owns path) (known : t.table.get? path = some a) (d : D)
    (m : Metadata) : a.value (t.metadata.set d m) = a.value d := by
  have commutes := owns a known d m (a.field.get d)
  rw [a.field.set_get] at commutes
  unfold Accessor.value
  rw [commutes, a.field.get_set]

theorem Owns.valueAt_set (owns : t.Owns path) (d : D) (m : Metadata) :
    t.valueAt path (t.metadata.set d m) = t.valueAt path d := by
  unfold valueAt
  cases known : t.table.get? path with
  | none => rfl
  | some accessor => rw [Option.map_some, Option.map_some, owns.value_set known]

theorem Owns.metadata_assign (owns : t.Owns path) (known : t.table.get? path = some a) {d e : D}
    {v : Scalar} (assigned : a.assign? v d = some e) : t.metadata.get e = t.metadata.get d := by
  obtain ⟨x, -, rfl⟩ := Option.map_eq_some_iff.1 assigned
  have commutes := owns a known d (t.metadata.get d) x
  rw [t.metadata.set_get] at commutes
  rw [← commutes, t.metadata.get_set]

theorem Distinct.value_assign (distinct : t.Distinct) {other : String} {b : Accessor D}
    (known : t.table.get? path = some a) (known' : t.table.get? other = some b)
    (differ : path ≠ other) {v : Scalar} {d e : D} (assigned : a.assign? v d = some e) :
    b.value e = b.value d := by
  obtain ⟨x, -, rfl⟩ := Option.map_eq_some_iff.1 assigned
  unfold Accessor.value
  rw [distinct.apart known known' differ]

theorem Distinct.valueAt_identity (distinct : t.Distinct) (d : D) :
    t.valueAt identityPath d = some (.uuid (t.id d)) := by
  unfold valueAt
  rw [distinct.identity]
  rfl

/-- A document that was made of `d`, at whatever revision it is stored. -/
theorem Lossless.read {s : Saga D B} (lossless : s.dataType.Lossless) (d : D) {document : Document}
    (typed : document.dataType = s.dataType.name) (body : document.body = s.dataType.encode d) :
    Invocation.read s document = .ok (s.dataType.metadata.set d document.metadata) := by
  unfold Invocation.read ofDocument
  rw [if_pos typed, body, lossless]
  rfl

end DataType

namespace Demo.Tally

theorem lossless : dataType.Lossless := fun d m => by
  show Except.ok { blank with name := d.name, total := (d.total : Int).toNat, metadata := m } = _
  rw [Int.toNat_natCast]
  rfl

/-- A tally has two paths. -/
theorem path_cases {path : String} {a : Accessor Tally}
    (known : dataType.table.get? path = some a) :
    path = "Name" ∧
        a = ⟨"Name", .string, { get := Tally.name, set := fun d name => { d with name } }⟩ ∨
      path = identityPath ∧ a = ⟨identityPath, .uuid, metadataLens.comp Metadata.idLens⟩ := by
  change ((PropertyTable.empty.register _).register _).get? path = _ at known
  rw [PropertyTable.get?_register, PropertyTable.get?_register] at known
  split at known
  next named => exact .inl ⟨named, (Option.some.inj known).symm⟩
  next =>
    split at known
    next named => exact .inr ⟨named, (Option.some.inj known).symm⟩
    next => cases known

theorem owns {path : String} (other : path ≠ identityPath) : dataType.Owns path := by
  intro a known d m x
  obtain ⟨rfl, rfl⟩ := (path_cases known).resolve_right fun identity => other identity.1
  rfl

theorem distinct : dataType.Distinct where
  identity := by rfl
  apart known known' differ d x := by
    rcases path_cases known with ⟨rfl, rfl⟩ | ⟨rfl, rfl⟩ <;>
      rcases path_cases known' with ⟨rfl, rfl⟩ | ⟨rfl, rfl⟩
    · exact absurd rfl differ
    · rfl
    · rfl
    · exact absurd rfl differ

/-- The rules of the saga that adds postings, as they are accepted. -/
def rules : RuleSet Posting :=
  ⟨"saga.tally", "demo.tally", [⟨"demo.post", "demo.tally", "Name", "saga.tally", .string,
    fun _ m => if m.type = "demo.post" then some (.string m.body.name) else none⟩]⟩

end Demo.Tally

end Sagas
