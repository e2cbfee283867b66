import Sagas.Proofs.Store.Calls

/-!
# Writes are atomic and local

A write that is refused leaves nothing behind that could be found out: whatever is called afterwards
is answered as if it had not been tried. Why it is refused can be told beforehand by lookups alone.
A write that is granted changes the row of its own identity and the index entries of that row.

Results:
1. `Alike.indistinguishable`: stores with the same partitions answer all calls alike.
2. `Write.current_iff`, `Write.clashes_iff`: what a write depends on, by way of lookups.
3. `Write.callerHas_of_error`: a write that is refused leaves the document of its caller alone.
4. `Write.run_ends`: a write is refused for one of these reasons, or replaces one row.
5. `writes_atomic_and_local`: every write of every reachable store.
-/

namespace Sagas

namespace Store

/-! ## Stores that cannot be told apart -/

/-- No calls are answered differently, nor do the stores ever list different documents. -/
structure Indistinguishable (s t : Store) : Prop where
  answers : ∀ calls, (Call.play call calls s).1 = (Call.play call calls t).1
  documents : ∀ calls dataType, (Call.play call calls s).2.documents dataType =
    (Call.play call calls t).2.documents dataType

/-- The same partitions, where no partition is as good as an empty one. -/
def Alike (s t : Store) : Prop :=
  ∀ dataType, s.partition dataType = t.partition dataType

/-- The store once a data type has been entered, with an empty partition if it had none. -/
def entered (s : Store) (dataType : String) : Store :=
  s.setPartition dataType (s.partition dataType)

variable {s t : Store}

theorem alike_entered (s : Store) (dataType : String) : (s.entered dataType).Alike s := by
  intro other
  unfold entered
  rw [partition_setPartition]
  split
  next same => rw [same]
  next => rfl

theorem Alike.setPartition (alike : s.Alike t) (dataType : String) (p : Partition) :
    (s.setPartition dataType p).Alike (t.setPartition dataType p) := by
  intro other
  rw [partition_setPartition, partition_setPartition, alike other]

theorem Alike.insert (alike : s.Alike t) (d : Document) (values : List PropertyValue) :
    (s.insert d values).1 = (t.insert d values).1 ∧
      (s.insert d values).2.Alike (t.insert d values).2 := by
  rw [insert_eq, insert_eq, alike d.dataType]
  split
  next => exact ⟨rfl, alike⟩
  next =>
    split
    next => exact ⟨rfl, alike⟩
    next => exact ⟨rfl, alike.setPartition _ _⟩

theorem Alike.update (alike : s.Alike t) (d : Document) (values : List PropertyValue) :
    (s.update d values).1 = (t.update d values).1 ∧
      (s.update d values).2.Alike (t.update d values).2 := by
  rw [update_eq, update_eq, alike d.dataType]
  split
  next => exact ⟨rfl, alike⟩
  next => exact ⟨rfl, alike.setPartition _ _⟩

theorem Alike.delete (alike : s.Alike t) (d : Document) :
    (s.delete d).1 = (t.delete d).1 ∧ (s.delete d).2.Alike (t.delete d).2 := by
  unfold Store.delete
  rw [alike d.dataType]
  split
  next => exact ⟨rfl, alike⟩
  next => exact ⟨rfl, alike.setPartition _ _⟩

theorem Alike.call (alike : s.Alike t) (c : Call) :
    (Store.call c s).1 = (Store.call c t).1 ∧ (Store.call c s).2.Alike (Store.call c t).2 := by
  cases c with
  | find dataType property value =>
    refine ⟨congrArg Result.found ?_, alike⟩
    unfold find
    rw [alike dataType]
  | insert d values =>
    obtain ⟨same, alike⟩ := alike.insert d values
    exact ⟨congrArg Result.ofStored same, alike⟩
  | update d values =>
    obtain ⟨same, alike⟩ := alike.update d values
    exact ⟨congrArg Result.ofStored same, alike⟩
  | delete d =>
    obtain ⟨same, alike⟩ := alike.delete d
    exact ⟨congrArg Result.ofDeleted same, alike⟩

theorem Alike.play (alike : s.Alike t) (calls : List Call) :
    (Call.play Store.call calls s).1 = (Call.play Store.call calls t).1 ∧
      (Call.play Store.call calls s).2.Alike (Call.play Store.call calls t).2 := by
  induction calls generalizing s t with
  | nil => exact ⟨rfl, alike⟩
  | cons c rest ih =>
    obtain ⟨same, alike⟩ := alike.call c
    obtain ⟨log, alike⟩ := ih alike
    refine ⟨?_, alike⟩
    simp only [Call.play, same, log]

theorem Alike.indistinguishable (alike : s.Alike t) : s.Indistinguishable t where
  answers calls := (alike.play calls).1
  documents calls dataType := by
    unfold documents
    rw [(alike.play calls).2 dataType]

/-! ## Writes -/

/-- A call that may change the store, with the document that its caller has. -/
inductive Write where
  | insert (d : Document) (values : List PropertyValue)
  | update (d : Document) (values : List PropertyValue)
  | delete (d : Document)

namespace Write

def document : Write → Document
  | .insert d _ | .update d _ | .delete d => d

/-- The values that the instance is to be found by. -/
def values : Write → List PropertyValue
  | .insert _ values | .update _ values => values
  | .delete _ => []

/-- What the write leaves its caller with, and the store afterwards. A deletion only reads the
document. -/
def call : Write → Store → Handed × Store
  | .insert d values, s => s.insertFrom d values
  | .update d values, s => s.updateFrom d values
  | .delete d, s => (⟨d, (s.delete d).1⟩, (s.delete d).2)

/-- The answer and the store afterwards. -/
def run (w : Write) (s : Store) : Except StorageError Document × Store :=
  ((w.call s).1.stored, (w.call s).2)

/-- The document of the caller after the write. -/
def callerHas (w : Write) (s : Store) : Document :=
  (w.call s).1.document

/-- The row that a granted write leaves under its identity. -/
def leaves : Write → Option Row
  | .insert d values => some ⟨d, Partition.keysOf values⟩
  | .update d values => some ⟨{ d with revision := d.revision.next }, Partition.keysOf values⟩
  | .delete _ => none

/-- The write inserts a document that is not at the initial revision. -/
def InsertsRevised (w : Write) : Prop :=
  ∃ d values, w = .insert d values ∧ d.revision ≠ .initial

/-- What is stored under the identity is what the write expects: nothing for an insert, and else a
document at the revision of the caller's. -/
def Meets : Write → Store → Prop
  | .insert d _, s => s.find d.dataType identityPath (.uuid d.id) = none
  | .update d _, s | .delete d, s =>
    ∃ stored, s.find d.dataType identityPath (.uuid d.id) = some stored ∧
      stored.revision = d.revision

/-- One of the values, which is set and no identity, leads to another instance. -/
def Clashes (w : Write) (s : Store) : Prop :=
  ∃ p ∈ w.values, p.name ≠ identityPath ∧ p.value.isUnset = false ∧
    ∃ other, s.find w.document.dataType p.name p.value = some other ∧ other.id ≠ w.document.id

variable {w : Write} {d : Document} {values : List PropertyValue}

theorem callerHas_of_error {e : StorageError} (refused : (w.run s).1 = .error e) :
    w.callerHas s = w.document := by
  have failed : (w.call s).1.answer = .error e := by
    unfold run Handed.stored at refused
    cases answer : (w.call s).1.answer with
    | ok => simp [answer, Except.map] at refused
    | error e' => simpa [answer, Except.map] using refused
  unfold callerHas
  cases w with
  | delete d => rfl
  | insert d values =>
    simp only [call, insertFrom] at failed ⊢
    split at failed
    next revised => rw [if_pos revised]; rfl
    next initial =>
      rw [if_neg initial]
      cases result : (s.partition d.dataType).insert d values with
      | mk left granted =>
        cases granted with
        | ok p => simp [result] at failed
        | error e => exact Partition.left_of_insert result
  | update d values =>
    simp only [call, updateFrom] at failed ⊢
    cases result : (s.partition d.dataType).update d values with
    | mk left granted =>
      cases granted with
      | ok p => simp [result] at failed
      | error e => exact Partition.left_of_update result

theorem callerHas_of_ok {stored : Document} (granted : (w.run s).1 = .ok stored) :
    w.callerHas s = stored := by
  unfold run Handed.stored at granted
  unfold callerHas
  cases answer : (w.call s).1.answer with
  | ok => simpa [answer, Except.map] using granted
  | error e => simp [answer, Except.map] at granted

theorem meets_insert_iff : (insert d values).Meets s ↔ s.row? d.dataType d.id = none := by
  rw [Meets, find_identity, Option.map_eq_none_iff]

theorem current_iff : (∃ row, (s.partition d.dataType).Current d.id d.revision row) ↔
    ∃ stored, s.find d.dataType identityPath (.uuid d.id) = some stored ∧
      stored.revision = d.revision := by
  rw [find_identity]
  constructor
  · rintro ⟨row, present, agrees⟩
    have present : s.row? d.dataType d.id = some row := present
    exact ⟨row.document, by simp [present], agrees.symm⟩
  · rintro ⟨stored, found, agrees⟩
    obtain ⟨row, present, rfl⟩ := Option.map_eq_some_iff.1 found
    exact ⟨row, present, agrees.symm⟩

/-- In a consistent store, a key has another owner exactly if it leads to another instance. -/
theorem clashes_iff (kept : s.Consistent) : w.Clashes s ↔
    ¬ (s.partition w.document.dataType).Free w.document.id (Partition.keysOf w.values) := by
  constructor
  · rintro ⟨p, member, other, set, stranger, found, differs⟩ free
    rw [find_property other] at found
    obtain ⟨row, owned, rfl⟩ := Option.map_eq_some_iff.1 found
    obtain ⟨id, owned, present⟩ := Option.bind_eq_some_iff.1 owned
    have mine := free p (Partition.mem_keysOf.2 ⟨member, other, set⟩) id owned
    exact differs ((kept.id present).trans mine)
  · intro taken
    simp only [Partition.Free, Classical.not_forall] at taken
    obtain ⟨p, key, owner, owned, differs⟩ := taken
    obtain ⟨member, other, set⟩ := Partition.mem_keysOf.1 key
    obtain ⟨row, present, -⟩ := kept.owner.1 owned
    refine ⟨p, member, other, set, row.document, ?_, ?_⟩
    · have owned : s.owner? w.document.dataType ⟨p.name, p.value⟩ = some owner := owned
      rw [find_property other, owned, Option.bind_some, present]
      rfl
    · rwa [kept.id present]

/-- How a write ends: refused at once, refused for what is stored, or granted. -/
inductive Ends (w : Write) (s : Store) : Except StorageError Document × Store → Prop
  | revised {reason : String} : w.InsertsRevised → Ends w s (.error (.backend reason), s)
  | conflict {reason : String} : ¬ w.InsertsRevised → ¬ w.Meets s ∨ w.Clashes s →
      Ends w s (.error (.conflict reason), s)
  | granted {stored : Document} {t : Store} : ¬ w.InsertsRevised → w.Meets s → ¬ w.Clashes s →
      s.Replaces w.document w.leaves t → (∀ row ∈ w.leaves, row.document = stored) →
      Ends w s (.ok stored, t)

/-- Whether a write that is entitled to it finds what it needs. -/
theorem possible_iff (kept : s.Consistent) :
    ¬ (w.Meets s ∧ (s.partition w.document.dataType).Free w.document.id
      (Partition.keysOf w.values)) ↔ ¬ w.Meets s ∨ w.Clashes s := by
  rw [clashes_iff kept, Classical.not_and_iff_not_or_not]

theorem insert_ends (kept : s.Consistent) (d : Document) (values : List PropertyValue) :
    (insert d values).Ends s (s.insert d values) := by
  by_cases initial : d.revision = .initial
  · have entitled : ¬ (insert d values).InsertsRevised := by
      rintro ⟨_, _, ⟨⟩, revised⟩
      exact revised initial
    by_cases possible : (insert d values).Meets s ∧
        (s.partition d.dataType).Free d.id (Partition.keysOf values)
    · obtain ⟨meets, free⟩ := possible
      obtain ⟨done, inserts⟩ := inserts_of_free initial (meets_insert_iff.1 meets) free
      rw [show s.insert d values = (.ok d, (s.insert d values).2) from Prod.ext done rfl]
      refine .granted entitled meets (fun clash => ?_) (inserts.replaces kept) (by simp [leaves])
      exact (clashes_iff kept).1 clash free
    · have failing : ∃ reason, s.insert d values = (.error (.conflict reason), s) :=
        insert_conflict initial fun able => possible (able.imp_left meets_insert_iff.2)
      obtain ⟨reason, failed⟩ := failing
      rw [failed]
      exact .conflict entitled ((possible_iff kept).1 possible)
  · rw [insert_eq, if_pos initial]
    exact .revised ⟨d, values, rfl, initial⟩

theorem update_ends (kept : s.Consistent) (d : Document) (values : List PropertyValue) :
    (update d values).Ends s (s.update d values) := by
  have entitled : ¬ (update d values).InsertsRevised := nofun
  by_cases possible : (update d values).Meets s ∧
      (s.partition d.dataType).Free d.id (Partition.keysOf values)
  · obtain ⟨meets, free⟩ := possible
    obtain ⟨old, current⟩ := current_iff.2 meets
    obtain ⟨done, updates⟩ := updates_of_current current free
    rw [show s.update d values = (.ok _, (s.update d values).2) from Prod.ext done rfl]
    refine .granted entitled meets (fun clash => ?_) (updates.replaces kept) (by simp [leaves])
    exact (clashes_iff kept).1 clash free
  · have failing : ∃ reason, s.update d values = (.error (.conflict reason), s) :=
      update_conflict fun able => possible (able.imp_left current_iff.1)
    obtain ⟨reason, failed⟩ := failing
    rw [failed]
    exact .conflict entitled ((possible_iff kept).1 possible)

theorem delete_ends (kept : s.Consistent) (d : Document) :
    (delete d).Ends s ((delete d).run s) := by
  have entitled : ¬ (delete d).InsertsRevised := nofun
  have clear : ¬ (delete d).Clashes s := by
    rintro ⟨p, member, -⟩
    cases member
  show (delete d).Ends s ((s.delete d).1.map fun () => d, (s.delete d).2)
  rcases s.delete_cases d with ⟨reason, failed⟩ | ⟨old, done, deletes⟩
  · rw [failed]
    refine .conflict entitled (.inl fun meets => ?_)
    obtain ⟨old, current⟩ := current_iff.2 meets
    have done := (deletes_of_current current).1
    rw [failed] at done
    cases done
  · rw [done]
    refine .granted entitled (current_iff.1 ⟨old, deletes.present, deletes.agrees⟩) clear
      (deletes.replaces kept) (by simp [leaves])

theorem run_ends (kept : s.Consistent) (w : Write) : w.Ends s (w.run s) := by
  cases w with
  | insert d values => exact insert_ends kept d values
  | update d values => exact update_ends kept d values
  | delete d => exact delete_ends kept d

end Write

/-- Any write, after any calls, successful or not. It is refused as faulty exactly if it inserts a
document that is not at the initial revision, and else for a conflict exactly if what is stored
under its identity is not what it expects, or one of its values leads to another instance. A refused
write leaves the document of its caller as it was, and no later calls can tell the store from the
one before, whether or not it now has an empty partition for the data type. A granted write leaves
its own row, which is what its caller has, and changes no other row and no index entry of another
row. -/
theorem writes_atomic_and_local (calls : List Call) (w : Write) :
    let s := (Call.play call calls empty).2
    let r := w.run s
    ((∃ reason, r.1 = .error (.backend reason)) ↔ w.InsertsRevised) ∧
      ((∃ reason, r.1 = .error (.conflict reason)) ↔
        ¬ w.InsertsRevised ∧ (¬ w.Meets s ∨ w.Clashes s)) ∧
      (∀ e, r.1 = .error e → (∃ reason, e = .backend reason ∨ e = .conflict reason) ∧
        w.callerHas s = w.document ∧ r.2.Indistinguishable s ∧
        (r.2.entered w.document.dataType).Indistinguishable s) ∧
      ∀ stored, r.1 = .ok stored → w.callerHas s = stored ∧
        r.2.row? w.document.dataType w.document.id = w.leaves ∧
        (∀ row ∈ w.leaves, row.document = stored) ∧
        ∀ dataType id, ¬ (dataType = w.document.dataType ∧ id = w.document.id) →
          r.2.row? dataType id = s.row? dataType id ∧
          ∀ key, r.2.owner? dataType key = some id ↔ s.owner? dataType key = some id := by
  intro s r
  have kept : s.Consistent := (Reachable.empty.play calls).consistent
  have ends : w.Ends s r := w.run_ends kept
  have refused : ∀ e, r.1 = .error e → w.callerHas s = w.document :=
    fun _ failed => Write.callerHas_of_error failed
  have granted : ∀ stored, r.1 = .ok stored → w.callerHas s = stored :=
    fun _ done => Write.callerHas_of_ok done
  clear_value r
  have same : s.Indistinguishable s ∧
      (s.entered w.document.dataType).Indistinguishable s :=
    ⟨⟨fun _ => rfl, fun _ _ => rfl⟩, (alike_entered s _).indistinguishable⟩
  cases ends with
  | @revised reason revised =>
    refine ⟨by simp [revised], by simp [revised], fun e failed => ?_, nofun⟩
    cases failed
    exact ⟨⟨reason, .inl rfl⟩, refused _ rfl, same⟩
  | @conflict reason entitled blocked =>
    refine ⟨by simp [entitled], by simp [entitled, blocked], fun e failed => ?_, nofun⟩
    cases failed
    exact ⟨⟨reason, .inr rfl⟩, refused _ rfl, same⟩
  | @granted stored t entitled meets clear replaces left =>
    refine ⟨by simp [entitled], by simp [meets, clear], nofun, fun stored' done => ?_⟩
    cases done
    refine ⟨granted _ rfl, ?_, left, fun dataType id other => ⟨?_, fun key => ?_⟩⟩
    · rw [replaces.row, if_pos ⟨rfl, rfl⟩]
    · rw [replaces.row, if_neg other]
    · by_cases here : dataType = w.document.dataType
      · subst here
        exact replaces.others key id fun mine => other ⟨rfl, mine⟩
      · rw [replaces.elsewhere dataType key here]

end Store

end Sagas
