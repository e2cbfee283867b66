import Mathlib.Data.List.Nodup
import Sagas.Proofs.Store.Consistency

/-!
# All stored instances

The documents of all data types as one list, each once. A granted insert adds one document to it, an
update replaces one and a deletion takes one out, so what is summed over the instances changes by
the summand of one document.

Results:
1. `Reachable.unique`: no dictionary of a reachable store holds a key twice.
2. `mem_instances`, `nodup_instances`: the list holds the documents of the rows.
3. `Inserts.instances`, `Updates.instances`, `Deletes.instances`: what the calls make of it.
-/

namespace Sagas

namespace Dictionary

variable {κ ν : Type} [DecidableEq κ] {d : Dictionary κ ν} {k : κ} {v : ν}

/-- No key occurs twice. -/
def Unique (d : Dictionary κ ν) : Prop :=
  (d.entries.map (·.1)).Nodup

omit [DecidableEq κ] in
theorem unique_empty : (empty : Dictionary κ ν).Unique :=
  List.nodup_nil

theorem Unique.erase (unique : d.Unique) (k : κ) : (d.erase k).Unique :=
  unique.sublist (List.filter_sublist.map _)

theorem Unique.insert (unique : d.Unique) (k : κ) (v : ν) : (d.insert k v).Unique := by
  refine List.nodup_cons.2 ⟨fun member => ?_, unique.erase k⟩
  obtain ⟨entry, kept, same⟩ := List.mem_map.1 member
  exact absurd same (by simpa using (List.mem_filter.1 kept).2)

theorem mem_entries (unique : d.Unique) : (k, v) ∈ d.entries ↔ d.get? k = some v := by
  obtain ⟨entries⟩ := d
  simp only [Unique, get?] at unique ⊢
  induction entries with
  | nil => simp [lookup]
  | cons entry rest ih =>
    obtain ⟨key, value⟩ := entry
    obtain ⟨fresh, unique⟩ := List.nodup_cons.1 unique
    rw [List.mem_cons, lookup, ih unique]
    by_cases same : key = k
    · subst same
      have absent : (key, v) ∉ rest := fun member =>
        fresh (List.mem_map.2 ⟨(key, v), member, rfl⟩)
      rw [ih unique] at absent
      simp [absent, eq_comm]
    · simp [same, Ne.symm same]

end Dictionary

namespace Partition

variable {p q : Partition} {d stored : Document} {values : List PropertyValue}

theorem unique_insert (unique : p.rows.Unique) (done : p.insert d values = (stored, .ok q)) :
    q.rows.Unique := by
  unfold insert at done
  split at done
  next => cases done
  next =>
    split at done
    next => cases done
    next =>
      cases done
      exact unique.insert _ _

theorem unique_update (unique : p.rows.Unique) (done : p.update d values = (stored, .ok q)) :
    q.rows.Unique := by
  unfold update at done
  split at done
  next => cases done
  next =>
    split at done
    next => cases done
    next =>
      cases done
      have kept : (p.unindex d.id).rows.Unique := by rwa [rows_unindex]
      exact kept.insert _ _

theorem unique_delete (unique : p.rows.Unique) (done : p.delete d = .ok q) : q.rows.Unique := by
  unfold delete at done
  split at done
  next => cases done
  next =>
    cases done
    have kept : (p.unindex d.id).rows.Unique := by rwa [rows_unindex]
    exact kept.erase d.id

end Partition

namespace Store

/-- Every stored document, of every data type. -/
def instances (s : Store) : List Document :=
  s.partitions.values.flatMap fun p => p.rows.values.map (·.document)

/-- No data type and, within one, no identity is kept twice. -/
structure Unique (s : Store) : Prop where
  partitions : s.partitions.Unique
  rows : ∀ dataType, (s.partition dataType).rows.Unique

variable {s t : Store} {d : Document} {values : List PropertyValue}

theorem unique_empty : empty.Unique :=
  ⟨Dictionary.unique_empty, fun _ => Dictionary.unique_empty⟩

theorem Unique.setPartition (unique : s.Unique) {p : Partition} (rows : p.rows.Unique)
    (dataType : String) : (s.setPartition dataType p).Unique where
  partitions := unique.partitions.insert dataType p
  rows other := by
    rw [partition_setPartition]
    split
    next => exact rows
    next => exact unique.rows other

theorem Unique.insert (unique : s.Unique) (d : Document) (values : List PropertyValue) :
    (s.insert d values).2.Unique := by
  rw [insert_eq]
  split
  next => exact unique
  next =>
    split
    next => exact unique
    next stored p done =>
      exact unique.setPartition (Partition.unique_insert (unique.rows _) done) _

theorem Unique.update (unique : s.Unique) (d : Document) (values : List PropertyValue) :
    (s.update d values).2.Unique := by
  rw [update_eq]
  split
  next => exact unique
  next stored p done =>
    exact unique.setPartition (Partition.unique_update (unique.rows _) done) _

theorem Unique.delete (unique : s.Unique) (d : Document) : (s.delete d).2.Unique := by
  unfold Store.delete
  split
  next => exact unique
  next p done => exact unique.setPartition (Partition.unique_delete (unique.rows _) done) _

theorem Reachable.unique (reachable : s.Reachable) : s.Unique := by
  induction reachable with
  | empty => exact unique_empty
  | insert d values _ ih => exact ih.insert d values
  | update d values _ ih => exact ih.update d values
  | delete d _ ih => exact ih.delete d

/-! ## The list and the rows -/

theorem row?_of_entries (unique : s.Unique) {dataType : String} {p : Partition} {id : Uuid}
    {row : Row} (entry : (dataType, p) ∈ s.partitions.entries)
    (present : (id, row) ∈ p.rows.entries) : s.row? dataType id = some row := by
  have isPartition : s.partition dataType = p := by
    simp [partition, (Dictionary.mem_entries unique.partitions).1 entry]
  have rows : p.rows.Unique := isPartition ▸ unique.rows dataType
  rw [row?, isPartition, (Dictionary.mem_entries rows).1 present]

theorem entries_of_row? (unique : s.Unique) {dataType : String} {id : Uuid} {row : Row}
    (present : s.row? dataType id = some row) :
    (dataType, s.partition dataType) ∈ s.partitions.entries ∧
      (id, row) ∈ (s.partition dataType).rows.entries := by
  refine ⟨(Dictionary.mem_entries unique.partitions).2 ?_,
    (Dictionary.mem_entries (unique.rows dataType)).2 present⟩
  cases known : s.partitions.get? dataType with
  | none => simp [row?, partition, known, Partition.empty] at present
  | some p => simp [partition, known]

theorem mem_instances (reachable : s.Reachable) :
    d ∈ s.instances ↔ ∃ row, s.row? d.dataType d.id = some row ∧ row.document = d := by
  have kept := reachable.consistent
  simp only [instances, Dictionary.values, List.flatMap_map, List.map_map, List.mem_flatMap,
    List.mem_map, Function.comp_apply]
  constructor
  · rintro ⟨⟨dataType, p⟩, entry, ⟨id, row⟩, held, rfl⟩
    have present := row?_of_entries reachable.unique entry held
    exact ⟨row, by rw [kept.dataType present, kept.id present, present], rfl⟩
  · rintro ⟨row, present, same⟩
    obtain ⟨entry, held⟩ := entries_of_row? reachable.unique present
    exact ⟨_, entry, _, held, same⟩

theorem nodup_instances (reachable : s.Reachable) : s.instances.Nodup := by
  have unique := reachable.unique
  have kept := reachable.consistent
  unfold instances Dictionary.values
  rw [List.flatMap_map, List.nodup_flatMap]
  constructor
  · intro entry listed
    have rows : entry.2.rows.Unique := by
      have isPartition : s.partition entry.1 = entry.2 := by
        simp [partition, (Dictionary.mem_entries unique.partitions).1 listed]
      exact isPartition ▸ unique.rows entry.1
    refine List.Nodup.of_map Document.id ?_
    rw [List.map_map, List.map_map]
    refine (List.map_congr_left fun x held => ?_ : _ = entry.2.rows.entries.map (·.1)) ▸ rows
    exact kept.id (row?_of_entries unique listed held)
  · refine (List.pairwise_map.1 unique.partitions).imp_of_mem fun {x y} first second differ => ?_
    intro d inFirst inSecond
    obtain ⟨_, listed, rfl⟩ := List.mem_map.1 inFirst
    obtain ⟨row, held, rfl⟩ := List.mem_map.1 listed
    obtain ⟨_, listed', same⟩ := List.mem_map.1 inSecond
    obtain ⟨row', held', rfl⟩ := List.mem_map.1 listed'
    have typed := kept.dataType (row?_of_entries unique first held)
    have typed' := kept.dataType (row?_of_entries unique second held')
    exact differ (typed.symm.trans (same ▸ typed'))

/-! ## What calls make of the list -/

/-- What is stored under an identity: one document or none. -/
def stored (s : Store) (dataType : String) (id : Uuid) : List Document :=
  ((s.row? dataType id).map (·.document)).toList

/-- The instances but the one of this identity. -/
def others (s : Store) (dataType : String) (id : Uuid) : List Document :=
  s.instances.filter fun a => ¬ (a.dataType = dataType ∧ a.id = id)

theorem mem_stored (reachable : s.Reachable) {dataType : String} {id : Uuid} :
    d ∈ s.stored dataType id ↔ (d.dataType = dataType ∧ d.id = id) ∧ d ∈ s.instances := by
  have kept := reachable.consistent
  simp only [stored, Option.mem_toList, Option.map_eq_some_iff]
  constructor
  · rintro ⟨row, present, rfl⟩
    have here : row.document.dataType = dataType ∧ row.document.id = id :=
      ⟨kept.dataType present, kept.id present⟩
    exact ⟨here, (mem_instances reachable).2 ⟨row, by rw [here.1, here.2, present], rfl⟩⟩
  · rintro ⟨⟨rfl, rfl⟩, listed⟩
    exact (mem_instances reachable).1 listed

theorem instances_perm (reachable : s.Reachable) (dataType : String) (id : Uuid) :
    s.instances.Perm (s.stored dataType id ++ s.others dataType id) := by
  have nodup := nodup_instances reachable
  have single : (s.stored dataType id).Nodup := by
    unfold stored
    cases s.row? dataType id <;> simp
  refine (List.perm_ext_iff_of_nodup nodup (List.nodup_append'.2
    ⟨single, nodup.filter _, fun a here other => ?_⟩)).2 fun a => ?_
  · have elsewhere := (List.mem_filter.1 other).2
    simp [((mem_stored reachable).1 here).1] at elsewhere
  · rw [List.mem_append, mem_stored reachable, List.mem_filter]
    by_cases here : a.dataType = dataType ∧ a.id = id <;> simp [here]

/-- A call that changes the row of one identity exchanges its document for another, if there is one
before and after. -/
theorem instances_exchanged (reachable : s.Reachable) (reachable' : t.Reachable) {now : Option Row}
    (row : ∀ dataType id, t.row? dataType id =
      if dataType = d.dataType ∧ id = d.id then now else s.row? dataType id) :
    (s.stored d.dataType d.id ++ t.instances).Perm
      ((now.map (·.document)).toList ++ s.instances) := by
  have here : t.stored d.dataType d.id = (now.map (·.document)).toList := by
    unfold stored
    rw [row, if_pos ⟨rfl, rfl⟩]
  have same : (t.others d.dataType d.id).Perm (s.others d.dataType d.id) := by
    refine (List.perm_ext_iff_of_nodup ((nodup_instances reachable').filter _)
      ((nodup_instances reachable).filter _)).2 fun a => ?_
    rw [List.mem_filter, List.mem_filter, mem_instances reachable', mem_instances reachable, row]
    by_cases here : a.dataType = d.dataType ∧ a.id = d.id <;> simp [here]
  have after := (instances_perm reachable' d.dataType d.id).trans (same.append_left _)
  rw [here] at after
  calc List.Perm (s.stored d.dataType d.id ++ t.instances)
        (s.stored d.dataType d.id ++
          ((now.map (·.document)).toList ++ s.others d.dataType d.id)) := after.append_left _
    List.Perm _ ((now.map (·.document)).toList ++
        (s.stored d.dataType d.id ++ s.others d.dataType d.id)) := by
      rw [← List.append_assoc, ← List.append_assoc]
      exact List.perm_append_comm.append_right _
    List.Perm _ ((now.map (·.document)).toList ++ s.instances) :=
      (instances_perm reachable d.dataType d.id).symm.append_left _

theorem Inserts.instances (inserts : s.Inserts d values t) (reachable : s.Reachable)
    (reachable' : t.Reachable) : t.instances.Perm (d :: s.instances) := by
  have exchanged := instances_exchanged reachable reachable' inserts.row
  rwa [stored, inserts.absent] at exchanged

theorem Updates.instances {old : Row} (updates : s.Updates d values old t)
    (reachable : s.Reachable) (reachable' : t.Reachable) :
    (old.document :: t.instances).Perm
      ({ d with revision := d.revision.next } :: s.instances) := by
  have exchanged := instances_exchanged reachable reachable' updates.row
  rwa [stored, updates.present] at exchanged

theorem Deletes.instances {old : Row} (deletes : s.Deletes d old t) (reachable : s.Reachable)
    (reachable' : t.Reachable) : (old.document :: t.instances).Perm s.instances := by
  have exchanged := instances_exchanged reachable reachable' deletes.row
  rwa [stored, deletes.present] at exchanged

end Store

end Sagas
