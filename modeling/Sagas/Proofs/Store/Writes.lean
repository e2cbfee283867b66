import Sagas.Proofs.Store.Order
import Sagas.Store

/-!
# What the calls of a store do

A store is seen through its rows (`row?`) and through the owners of index keys (`owner?`). Each
write either fails and leaves the store as it is, or does exactly what its structure below says:
`Inserts`, `Updates` or `Deletes`.
-/

namespace Sagas

namespace Partition

variable {p : Partition} {id : Uuid} {key : PropertyValue} {keys values : List PropertyValue}

theorem mem_keysOf : key ∈ keysOf values ↔
    key ∈ values ∧ key.name ≠ identityPath ∧ key.value.isUnset = false := by
  simp [keysOf, Sorted.mem_ofList]

/-- Every one of the keys is unowned or owned by `id`. -/
def Free (p : Partition) (id : Uuid) (keys : List PropertyValue) : Prop :=
  ∀ key ∈ keys, ∀ owner, p.index.get? key = some owner → owner = id

theorem rival_eq_none_iff : p.rival id keys = none ↔ p.Free id keys := by
  induction keys with
  | nil => simp [rival, Free]
  | cons key rest ih =>
    simp only [Free, List.forall_mem_cons] at ih ⊢
    rw [rival]
    split
    next owner found =>
      split
      next same => simp [ih, same, found]
      next other => simp [found, other]
    next absent => simp [ih, absent]

theorem get?_dropKeys (index : Dictionary PropertyValue Uuid) :
    (dropKeys id keys index).get? key =
      if key ∈ keys ∧ index.get? key = some id then none else index.get? key := by
  induction keys generalizing index with
  | nil => simp [dropKeys]
  | cons first rest ih =>
    rw [dropKeys, ih]
    by_cases owned : index.get? first = some id
    · rw [if_pos owned, Dictionary.get?_erase]
      by_cases same : key = first
      · subst same
        simp [owned]
      · simp [same]
    · rw [if_neg owned]
      by_cases same : key = first
      · subst same
        simp [owned]
      · simp [same]

theorem get?_foldl_insert (index : Dictionary PropertyValue Uuid) :
    (keys.foldl (fun index key => index.insert key id) index).get? key =
      if key ∈ keys then some id else index.get? key := by
  induction keys generalizing index with
  | nil => simp
  | cons first rest ih =>
    rw [List.foldl_cons, ih, Dictionary.get?_insert]
    by_cases later : key ∈ rest
    · simp [later]
    · by_cases same : key = first
      · simp [same]
      · simp [later, same]

theorem rows_unindex : (p.unindex id).rows = p.rows := by
  unfold unindex
  split <;> rfl

theorem get?_index_unindex {row : Row} (present : p.rows.get? id = some row) :
    (p.unindex id).index.get? key =
      if key ∈ row.keys ∧ p.index.get? key = some id then none else p.index.get? key := by
  unfold unindex
  rw [present]
  exact get?_dropKeys p.index

/-- A write finds the row that it expects. -/
def Current (p : Partition) (id : Uuid) (revision : Revision) (row : Row) : Prop :=
  p.rows.get? id = some row ∧ revision = row.document.revision

theorem expected_of_current {revision : Revision} {row : Row}
    (current : p.Current id revision row) : p.expected id revision = .ok row := by
  obtain ⟨present, agrees⟩ := current
  simp [expected, present, agrees, Revision.agreesWith]

theorem expected_conflict {revision : Revision} (stale : ∀ row, ¬ p.Current id revision row) :
    ∃ reason, p.expected id revision = .error (.conflict reason) := by
  unfold expected
  split
  next => exact ⟨_, rfl⟩
  next row present =>
    have differs : revision ≠ row.document.revision := fun agrees => stale row ⟨present, agrees⟩
    simp [Revision.agreesWith, differs]

variable {d : Document}

theorem insert_of_free (absent : p.rows.get? d.id = none) (free : p.Free d.id (keysOf values)) :
    p.insert d values = (d, .ok (p.put d (keysOf values))) := by
  simp [insert, Dictionary.contains, absent, rival_eq_none_iff.2 free]

theorem insert_conflict
    (taken : ¬ (p.rows.get? d.id = none ∧ p.Free d.id (keysOf values))) :
    ∃ reason, p.insert d values = (d, .error (.conflict reason)) := by
  unfold insert
  split
  next => exact ⟨_, rfl⟩
  next missing =>
    have absent : p.rows.get? d.id = none := by simpa [Dictionary.contains] using missing
    split
    next reason _ => exact ⟨reason, rfl⟩
    next clear => exact absurd ⟨absent, rival_eq_none_iff.1 clear⟩ taken

/-- An insert that is refused has left the document of its caller alone. -/
theorem left_of_insert {left : Document} {e : StorageError}
    (refused : p.insert d values = (left, .error e)) : left = d := by
  unfold insert at refused
  split at refused
  next =>
    cases refused
    rfl
  next =>
    split at refused
    next =>
      cases refused
      rfl
    next => cases refused

theorem update_of_current {row : Row} (current : p.Current d.id d.revision row)
    (free : p.Free d.id (keysOf values)) :
    p.update d values = ({ d with revision := d.revision.next },
      .ok ((p.unindex d.id).put { d with revision := d.revision.next } (keysOf values))) := by
  simp [update, expected_of_current current, rival_eq_none_iff.2 free]

theorem update_conflict
    (stale : ¬ ((∃ row, p.Current d.id d.revision row) ∧ p.Free d.id (keysOf values))) :
    ∃ reason, p.update d values = (d, .error (.conflict reason)) := by
  by_cases current : ∃ row, p.Current d.id d.revision row
  · obtain ⟨row, current⟩ := current
    obtain ⟨reason, rival⟩ := Option.ne_none_iff_exists'.1 fun clear =>
      stale ⟨⟨row, current⟩, rival_eq_none_iff.1 clear⟩
    exact ⟨reason, by simp [update, expected_of_current current, rival]⟩
  · obtain ⟨reason, failed⟩ := expected_conflict fun row here => current ⟨row, here⟩
    exact ⟨reason, by simp [update, failed]⟩

theorem left_of_update {left : Document} {e : StorageError}
    (refused : p.update d values = (left, .error e)) : left = d := by
  unfold update at refused
  split at refused
  next =>
    cases refused
    rfl
  next =>
    split at refused
    next =>
      cases refused
      rfl
    next => cases refused

theorem delete_of_current {row : Row} (current : p.Current d.id d.revision row) :
    p.delete d = .ok { p.unindex d.id with rows := p.rows.erase d.id } := by
  simp [delete, expected_of_current current, rows_unindex]

theorem delete_conflict (stale : ∀ row, ¬ p.Current d.id d.revision row) :
    ∃ reason, p.delete d = .error (.conflict reason) := by
  obtain ⟨reason, failed⟩ := expected_conflict stale
  exact ⟨reason, by simp [delete, failed]⟩

end Partition

namespace Store

/-- The instance that owns an index key. -/
def owner? (s : Store) (dataType : String) (key : PropertyValue) : Option Uuid :=
  (s.partition dataType).index.get? key

theorem partition_setPartition (s : Store) (dataType other : String) (p : Partition) :
    (s.setPartition dataType p).partition other =
      if other = dataType then p else s.partition other := by
  unfold setPartition partition
  rw [Dictionary.get?_insert]
  split <;> rfl

/-! ## Inserting -/

/-- What a successful insert does. -/
structure Inserts (s : Store) (d : Document) (values : List PropertyValue) (t : Store) :
    Prop where
  initial : d.revision = .initial
  absent : s.row? d.dataType d.id = none
  free : (s.partition d.dataType).Free d.id (Partition.keysOf values)
  row : ∀ dataType id, t.row? dataType id =
    if dataType = d.dataType ∧ id = d.id then some ⟨d, Partition.keysOf values⟩
    else s.row? dataType id
  owner : ∀ dataType key, t.owner? dataType key =
    if dataType = d.dataType ∧ key ∈ Partition.keysOf values then some d.id
    else s.owner? dataType key

variable {s : Store} {d : Document} {values : List PropertyValue}

theorem row?_setPartition {p : Partition} {dataType other : String} {id : Uuid} :
    (s.setPartition dataType p).row? other id =
      if other = dataType then p.rows.get? id else s.row? other id := by
  unfold row?
  rw [partition_setPartition]
  split <;> rfl

theorem owner?_setPartition {p : Partition} {dataType other : String} {key : PropertyValue} :
    (s.setPartition dataType p).owner? other key =
      if other = dataType then p.index.get? key else s.owner? other key := by
  unfold owner?
  rw [partition_setPartition]
  split <;> rfl

theorem inserts_of_free (initial : d.revision = .initial) (absent : s.row? d.dataType d.id = none)
    (free : (s.partition d.dataType).Free d.id (Partition.keysOf values)) :
    (s.insert d values).1 = .ok d ∧ s.Inserts d values (s.insert d values).2 := by
  have done := Partition.insert_of_free absent free
  simp only [insert_eq, initial, ne_eq, not_true_eq_false, if_false, done, true_and]
  refine ⟨initial, absent, free, fun dataType id => ?_, fun dataType key => ?_⟩
  · rw [row?_setPartition]
    by_cases here : dataType = d.dataType
    · subst here
      simp [Partition.put, Dictionary.get?_insert, row?]
    · simp [here]
  · rw [owner?_setPartition]
    by_cases here : dataType = d.dataType
    · subst here
      simp [Partition.put, Partition.get?_foldl_insert, owner?]
    · simp [here]

theorem insert_conflict (initial : d.revision = .initial)
    (taken : ¬ (s.row? d.dataType d.id = none ∧
      (s.partition d.dataType).Free d.id (Partition.keysOf values))) :
    ∃ reason, s.insert d values = (.error (.conflict reason), s) := by
  obtain ⟨reason, failed⟩ := Partition.insert_conflict taken
  exact ⟨reason, by simp [insert_eq, initial, failed]⟩

/-- An insert fails and changes nothing, or succeeds. -/
theorem insert_cases (s : Store) (d : Document) (values : List PropertyValue) :
    (∃ e, s.insert d values = (.error e, s)) ∨
      ((s.insert d values).1 = .ok d ∧ s.Inserts d values (s.insert d values).2) := by
  by_cases initial : d.revision = .initial
  · by_cases possible : s.row? d.dataType d.id = none ∧
        (s.partition d.dataType).Free d.id (Partition.keysOf values)
    · exact .inr (inserts_of_free initial possible.1 possible.2)
    · obtain ⟨reason, failed⟩ := insert_conflict initial possible
      exact .inl ⟨_, failed⟩
  · exact .inl ⟨_, (s.insert_eq d values).trans (if_pos initial)⟩

/-! ## Updating -/

/-- What a successful update does to the row `old`. -/
structure Updates (s : Store) (d : Document) (values : List PropertyValue) (old : Row)
    (t : Store) : Prop where
  present : s.row? d.dataType d.id = some old
  agrees : d.revision = old.document.revision
  free : (s.partition d.dataType).Free d.id (Partition.keysOf values)
  row : ∀ dataType id, t.row? dataType id =
    if dataType = d.dataType ∧ id = d.id then
      some ⟨{ d with revision := d.revision.next }, Partition.keysOf values⟩
    else s.row? dataType id
  owner : ∀ dataType key, t.owner? dataType key =
    if dataType = d.dataType ∧ key ∈ Partition.keysOf values then some d.id
    else if dataType = d.dataType ∧ key ∈ old.keys ∧ s.owner? dataType key = some d.id then none
    else s.owner? dataType key

theorem updates_of_current {old : Row}
    (current : (s.partition d.dataType).Current d.id d.revision old)
    (free : (s.partition d.dataType).Free d.id (Partition.keysOf values)) :
    (s.update d values).1 = .ok { d with revision := d.revision.next } ∧
      s.Updates d values old (s.update d values).2 := by
  have done := Partition.update_of_current current free
  simp only [update_eq, done, true_and]
  refine ⟨current.1, current.2, free, fun dataType id => ?_, fun dataType key => ?_⟩
  · rw [row?_setPartition]
    by_cases here : dataType = d.dataType
    · subst here
      simp [Partition.put, Dictionary.get?_insert, Partition.rows_unindex, row?]
    · simp [here]
  · rw [owner?_setPartition]
    by_cases here : dataType = d.dataType
    · subst here
      simp [Partition.put, Partition.get?_foldl_insert, Partition.get?_index_unindex current.1,
        owner?]
    · simp [here]

theorem update_conflict
    (stale : ¬ ((∃ row, (s.partition d.dataType).Current d.id d.revision row) ∧
      (s.partition d.dataType).Free d.id (Partition.keysOf values))) :
    ∃ reason, s.update d values = (.error (.conflict reason), s) := by
  obtain ⟨reason, failed⟩ := Partition.update_conflict stale
  exact ⟨reason, by simp [update_eq, failed]⟩

/-- An update meets a conflict and changes nothing, or succeeds. -/
theorem update_cases (s : Store) (d : Document) (values : List PropertyValue) :
    (∃ reason, s.update d values = (.error (.conflict reason), s)) ∨
      ∃ old, (s.update d values).1 = .ok { d with revision := d.revision.next } ∧
        s.Updates d values old (s.update d values).2 := by
  by_cases possible : (∃ row, (s.partition d.dataType).Current d.id d.revision row) ∧
      (s.partition d.dataType).Free d.id (Partition.keysOf values)
  · obtain ⟨⟨old, current⟩, free⟩ := possible
    exact .inr ⟨old, updates_of_current current free⟩
  · exact .inl (update_conflict possible)

/-! ## Deleting -/

/-- What a successful deletion of the row `old` does. -/
structure Deletes (s : Store) (d : Document) (old : Row) (t : Store) : Prop where
  present : s.row? d.dataType d.id = some old
  agrees : d.revision = old.document.revision
  row : ∀ dataType id, t.row? dataType id =
    if dataType = d.dataType ∧ id = d.id then none else s.row? dataType id
  owner : ∀ dataType key, t.owner? dataType key =
    if dataType = d.dataType ∧ key ∈ old.keys ∧ s.owner? dataType key = some d.id then none
    else s.owner? dataType key

theorem deletes_of_current {old : Row}
    (current : (s.partition d.dataType).Current d.id d.revision old) :
    (s.delete d).1 = .ok () ∧ s.Deletes d old (s.delete d).2 := by
  have done := Partition.delete_of_current current
  refine ⟨by simp only [delete, done], current.1, current.2, ?_, ?_⟩
  · intro dataType id
    simp only [delete, done]
    rw [row?_setPartition]
    by_cases here : dataType = d.dataType
    · subst here
      simp [Dictionary.get?_erase, row?]
    · simp [here]
  · intro dataType key
    simp only [delete, done]
    rw [owner?_setPartition]
    by_cases here : dataType = d.dataType
    · subst here
      simp [Partition.get?_index_unindex current.1, owner?]
    · simp [here]

/-- A deletion meets a conflict and changes nothing, or succeeds. -/
theorem delete_cases (s : Store) (d : Document) :
    (∃ reason, s.delete d = (.error (.conflict reason), s)) ∨
      ∃ old, (s.delete d).1 = .ok () ∧ s.Deletes d old (s.delete d).2 := by
  by_cases possible : ∃ row, (s.partition d.dataType).Current d.id d.revision row
  · obtain ⟨old, current⟩ := possible
    exact .inr ⟨old, deletes_of_current current⟩
  · obtain ⟨reason, failed⟩ := Partition.delete_conflict fun row here => possible ⟨row, here⟩
    exact .inl ⟨reason, by simp [delete, failed]⟩

/-- A row that is left by a deletion was there before. -/
theorem row?_of_delete {d : Document} {dataType : String} {id : Uuid} {row : Row}
    (present : (s.delete d).2.row? dataType id = some row) : s.row? dataType id = some row := by
  rcases s.delete_cases d with ⟨reason, failed⟩ | ⟨old, -, deletes⟩
  · rwa [failed] at present
  · rw [deletes.row] at present
    split at present
    next => cases present
    next => exact present

end Store

end Sagas
