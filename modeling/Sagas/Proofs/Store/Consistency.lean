import Sagas.Proofs.Store.Writes

/-!
# The index agrees with the rows

In every store that calls can lead to, a row is kept under its own document's identity and data
type, and a key has an owner exactly if that owner's row was last written with the key.

Results:
1. `Consistent.replaces`: replacing a row and its keys keeps the agreement.
2. `Inserts.replaces`, `Updates.replaces`, `Deletes.replaces`: which is what each write does.
3. `Reachable.consistent`: it holds in every reachable store.
4. `find_identity`, `find_property`, `Consistent.find_some`: lookups by way of rows and owners.
5. `Inserts.find_cases`, `Inserts.find_value`: lookups after an insert.
-/

namespace Sagas

namespace Store

/-- The stores that calls lead to, successful or not. -/
inductive Reachable : Store → Prop
  | empty : Reachable empty
  | insert {s : Store} (d : Document) (values : List PropertyValue) :
      Reachable s → Reachable (s.insert d values).2
  | update {s : Store} (d : Document) (values : List PropertyValue) :
      Reachable s → Reachable (s.update d values).2
  | delete {s : Store} (d : Document) : Reachable s → Reachable (s.delete d).2

structure Consistent (s : Store) : Prop where
  id : ∀ {dataType id row}, s.row? dataType id = some row → row.document.id = id
  dataType : ∀ {dataType id row}, s.row? dataType id = some row → row.document.dataType = dataType
  indexed : ∀ {dataType id row key}, s.row? dataType id = some row → key ∈ row.keys →
    key.name ≠ identityPath ∧ key.value.isUnset = false
  owner : ∀ {dataType key id}, s.owner? dataType key = some id ↔
    ∃ row, s.row? dataType id = some row ∧ key ∈ row.keys

variable {s t : Store} {d : Document} {values : List PropertyValue}

theorem consistent_empty : empty.Consistent where
  id := nofun
  dataType := nofun
  indexed := nofun
  owner := ⟨nofun, nofun⟩

theorem keysOf_indexed {key : PropertyValue} (member : key ∈ Partition.keysOf values) :
    key.name ≠ identityPath ∧ key.value.isUnset = false :=
  (Partition.mem_keysOf.1 member).2

/-- An identity owns a key only by its row. -/
theorem Consistent.owned_of (kept : s.Consistent) {dataType : String} {id : Uuid} {row : Row}
    {key : PropertyValue} (present : s.row? dataType id = some row)
    (owned : s.owner? dataType key = some id) : key ∈ row.keys := by
  obtain ⟨row', present', member⟩ := kept.owner.1 owned
  cases present.symm.trans present'
  exact member

/-- The row of `d` is now this one, or none, and `d` owns the keys of this row and no others. -/
structure Replaces (s : Store) (d : Document) (now : Option Row) (t : Store) : Prop where
  row : ∀ dataType id, t.row? dataType id =
    if dataType = d.dataType ∧ id = d.id then now else s.row? dataType id
  fits : ∀ row ∈ now, row.document.id = d.id ∧ row.document.dataType = d.dataType ∧
    ∀ key ∈ row.keys, key.name ≠ identityPath ∧ key.value.isUnset = false
  own : ∀ key, t.owner? d.dataType key = some d.id ↔ ∃ row, now = some row ∧ key ∈ row.keys
  others : ∀ key id, id ≠ d.id →
    (t.owner? d.dataType key = some id ↔ s.owner? d.dataType key = some id)
  elsewhere : ∀ dataType key, dataType ≠ d.dataType → t.owner? dataType key = s.owner? dataType key

theorem Consistent.replaces (kept : s.Consistent) {now : Option Row}
    (replaces : s.Replaces d now t) : t.Consistent where
  id {dataType id row} present := by
    rw [replaces.row] at present
    split at present
    next here => exact (replaces.fits row present).1.trans here.2.symm
    next => exact kept.id present
  dataType {dataType id row} present := by
    rw [replaces.row] at present
    split at present
    next here => exact (replaces.fits row present).2.1.trans here.1.symm
    next => exact kept.dataType present
  indexed {dataType id row key} present member := by
    rw [replaces.row] at present
    split at present
    next => exact (replaces.fits row present).2.2 key member
    next => exact kept.indexed present member
  owner {dataType key id} := by
    rw [replaces.row]
    -- The identity of `d`, another one of its data type, or one of another data type.
    by_cases here : dataType = d.dataType
    · subst here
      by_cases own : id = d.id
      · subst own
        rw [if_pos ⟨rfl, rfl⟩]
        exact replaces.own key
      · rw [if_neg fun same => own same.2, replaces.others key id own]
        exact kept.owner
    · rw [if_neg fun same => here same.1, replaces.elsewhere dataType key here]
      exact kept.owner

theorem Inserts.replaces (kept : s.Consistent) (inserts : s.Inserts d values t) :
    s.Replaces d (some ⟨d, Partition.keysOf values⟩) t where
  row := inserts.row
  fits row same := by
    cases same
    exact ⟨rfl, rfl, fun key => keysOf_indexed⟩
  own key := by
    have unowned : s.owner? d.dataType key ≠ some d.id := fun owned => by
      obtain ⟨row, present, -⟩ := kept.owner.1 owned
      exact nomatch inserts.absent.symm.trans present
    rw [inserts.owner]
    by_cases member : key ∈ Partition.keysOf values <;> simp [member, unowned]
  others key id other := by
    rw [inserts.owner]
    split
    next taken =>
      have unowned : s.owner? d.dataType key ≠ some id := fun owned =>
        other (inserts.free key taken.2 id owned)
      simp [unowned, Ne.symm other]
    next => rfl
  elsewhere dataType key other := by rw [inserts.owner, if_neg fun same => other same.1]

theorem Updates.replaces (kept : s.Consistent) {old : Row} (updates : s.Updates d values old t) :
    s.Replaces d (some ⟨{ d with revision := d.revision.next }, Partition.keysOf values⟩) t where
  row := updates.row
  fits row same := by
    cases same
    exact ⟨rfl, rfl, fun key => keysOf_indexed⟩
  own key := by
    have dropped : s.owner? d.dataType key = some d.id → key ∈ old.keys :=
      kept.owned_of updates.present
    rw [updates.owner]
    -- A key is taken over, given up, or none of the old row and the new one.
    by_cases member : key ∈ Partition.keysOf values
    · simp [member]
    · by_cases owned : s.owner? d.dataType key = some d.id
      · simp [member, dropped owned, owned]
      · simp [member, owned]
  others key id other := by
    rw [updates.owner]
    split
    next taken =>
      have unowned : s.owner? d.dataType key ≠ some id := fun owned =>
        other (updates.free key taken.2 id owned)
      simp [unowned, Ne.symm other]
    next =>
      split
      next dropped => simp [dropped.2.2, Ne.symm other]
      next => rfl
  elsewhere dataType key other := by
    rw [updates.owner, if_neg fun same => other same.1, if_neg fun same => other same.1]

theorem Deletes.replaces (kept : s.Consistent) {old : Row} (deletes : s.Deletes d old t) :
    s.Replaces d none t where
  row := deletes.row
  fits row same := nomatch same
  own key := by
    have dropped : s.owner? d.dataType key = some d.id → key ∈ old.keys :=
      kept.owned_of deletes.present
    rw [deletes.owner]
    by_cases owned : s.owner? d.dataType key = some d.id
    · simp [dropped owned, owned]
    · simp [owned]
  others key id other := by
    rw [deletes.owner]
    split
    next dropped => simp [dropped.2.2, Ne.symm other]
    next => rfl
  elsewhere dataType key other := by rw [deletes.owner, if_neg fun same => other same.1]

theorem Consistent.insert (kept : s.Consistent) (d : Document) (values : List PropertyValue) :
    (s.insert d values).2.Consistent := by
  rcases s.insert_cases d values with ⟨e, failed⟩ | ⟨-, inserts⟩
  · rw [failed]
    exact kept
  · exact kept.replaces (inserts.replaces kept)

theorem Consistent.update (kept : s.Consistent) (d : Document) (values : List PropertyValue) :
    (s.update d values).2.Consistent := by
  rcases s.update_cases d values with ⟨reason, failed⟩ | ⟨old, -, updates⟩
  · rw [failed]
    exact kept
  · exact kept.replaces (updates.replaces kept)

theorem Consistent.delete (kept : s.Consistent) (d : Document) : (s.delete d).2.Consistent := by
  rcases s.delete_cases d with ⟨reason, failed⟩ | ⟨old, -, deletes⟩
  · rw [failed]
    exact kept
  · exact kept.replaces (deletes.replaces kept)

theorem Reachable.consistent (reachable : s.Reachable) : s.Consistent := by
  induction reachable with
  | empty => exact consistent_empty
  | insert d values _ kept => exact kept.insert d values
  | update d values _ kept => exact kept.update d values
  | delete d _ kept => exact kept.delete d

/-! ## Lookups -/

theorem find_identity (s : Store) (dataType : String) (id : Uuid) :
    s.find dataType identityPath (.uuid id) = (s.row? dataType id).map (·.document) := by
  simp [find, Partition.find, Scalar.coerceTo, row?]

theorem find_property {property : String} (other : property ≠ identityPath) (s : Store)
    (dataType : String) (value : Scalar) :
    s.find dataType property value =
      ((s.owner? dataType ⟨property, value⟩).bind (s.row? dataType)).map (·.document) := by
  simp only [find, Partition.find, other, if_false]
  rfl

/-- What a lookup finds is a row of the data type, kept under its own identity. -/
theorem Consistent.find_some (kept : s.Consistent) {dataType property : String} {value : Scalar}
    (found : s.find dataType property value = some d) :
    d.dataType = dataType ∧ ∃ row, s.row? dataType d.id = some row ∧ row.document = d := by
  obtain ⟨row, named, rfl⟩ := Option.map_eq_some_iff.1 found
  obtain ⟨id, -, present⟩ := Option.bind_eq_some_iff.1 named
  have same : row.document.id = id := kept.id present
  exact ⟨kept.dataType present, row, same.symm ▸ present, rfl⟩

/-- After an insert, a lookup finds the new instance or what it found before. -/
theorem Inserts.find_cases (inserts : s.Inserts d values t) (dataType property : String)
    (value : Scalar) : t.find dataType property value = some d ∨
      t.find dataType property value = s.find dataType property value := by
  have rows : ∀ id, (t.row? dataType id).map (·.document) = some d ∨
      t.row? dataType id = s.row? dataType id := by
    intro id
    rw [inserts.row]
    split
    next => exact .inl rfl
    next => exact .inr rfl
  by_cases identity : property = identityPath
  · have named : ∀ r : Store, r.find dataType property value =
        ((value.coerceTo .uuid).bind (r.row? dataType)).map (·.document) := by
      intro r
      simp only [find, Partition.find, identity, if_true]
      rfl
    rw [named, named]
    cases value.coerceTo .uuid with
    | none => exact .inr rfl
    | some id => exact (rows id).imp_right fun same => congrArg (Option.map _) same
  · rw [find_property identity, find_property identity, inserts.owner]
    split
    next taken =>
      left
      rw [Option.bind_some, inserts.row, if_pos ⟨taken.1, rfl⟩]
      rfl
    next =>
      cases s.owner? dataType ⟨property, value⟩ with
      | none => exact .inr rfl
      | some id => exact (rows id).imp_right fun same => congrArg (Option.map _) same

theorem Inserts.find_identity (inserts : s.Inserts d values t) :
    t.find d.dataType identityPath (.uuid d.id) = some d := by
  rw [Store.find_identity, inserts.row, if_pos ⟨rfl, rfl⟩]
  rfl

/-- An instance is found by the values that it was inserted with. -/
theorem Inserts.find_value (inserts : s.Inserts d values t) {p : PropertyValue}
    (carried : p ∈ values) (other : p.name ≠ identityPath) (set : p.value.isUnset = false) :
    t.find d.dataType p.name p.value = some d := by
  have key : p ∈ Partition.keysOf values := Partition.mem_keysOf.2 ⟨carried, other, set⟩
  rw [find_property other, inserts.owner, if_pos ⟨rfl, key⟩, Option.bind_some, inserts.row,
    if_pos ⟨rfl, rfl⟩]
  rfl

end Store

end Sagas
