import Sagas.Proofs.Store.Consistency

/-!
# Calls of a store, one after the other

The four calls as data, what they come to, and what a sequence of them leaves behind. Only the
reason of a refusal is left out of what a call comes to.

Results:
1. `call_cases`: all that one call can do to the row of an identity.
2. `Reachable.play`: a sequence of calls leads from a reachable store to a reachable one.
-/

namespace Sagas

namespace Store

inductive Call where
  | find (dataType property : String) (value : Scalar)
  | insert (d : Document) (values : List PropertyValue)
  | update (d : Document) (values : List PropertyValue)
  | delete (d : Document)

/-- What a call comes to. -/
inductive Result where
  | found (d : Option Document)
  | stored (d : Document)
  | deleted
  | refused

namespace Result

def ofStored : Except StorageError Document → Result
  | .ok d => .stored d
  | .error _ => .refused

def ofDeleted : Except StorageError Unit → Result
  | .ok () => .deleted
  | .error _ => .refused

end Result

def call (c : Call) (s : Store) : Result × Store :=
  match c with
  | .find dataType property value => (.found (s.find dataType property value), s)
  | .insert d values => (.ofStored (s.insert d values).1, (s.insert d values).2)
  | .update d values => (.ofStored (s.update d values).1, (s.update d values).2)
  | .delete d => (.ofDeleted (s.delete d).1, (s.delete d).2)

/-- Calls one after the other, each with what it came to. -/
def Call.play {σ : Type} (step : Call → σ → Result × σ) :
    List Call → σ → List (Call × Result) × σ
  | [], s => ([], s)
  | c :: rest, s =>
    let (result, s) := step c s
    let (log, s) := play step rest s
    ((c, result) :: log, s)

variable {s : Store} {dataType : String} {id : Uuid}

/-- A call leaves the row of an identity alone, or it is the insert, the update or the deletion that
changes this row. -/
theorem call_cases (c : Call) (s : Store) (dataType : String) (id : Uuid) :
    (call c s).2.row? dataType id = s.row? dataType id ∨
      (∃ d values, c = .insert d values ∧ d.dataType = dataType ∧ d.id = id ∧
        (call c s).1 = .stored d ∧ s.row? dataType id = none ∧
        (call c s).2.row? dataType id = some ⟨d, Partition.keysOf values⟩) ∨
      (∃ d values old, c = .update d values ∧ d.dataType = dataType ∧ d.id = id ∧
        s.row? dataType id = some old ∧ d.revision = old.document.revision ∧
        (call c s).2.row? dataType id =
          some ⟨{ d with revision := d.revision.next }, Partition.keysOf values⟩) ∨
      ∃ d old, c = .delete d ∧ d.dataType = dataType ∧ d.id = id ∧ (call c s).1 = .deleted ∧
        s.row? dataType id = some old ∧ d.revision = old.document.revision ∧
        (call c s).2.row? dataType id = none := by
  cases c with
  | find type property value => exact .inl rfl
  | insert d values =>
    rcases s.insert_cases d values with ⟨e, failed⟩ | ⟨done, inserts⟩
    · exact .inl (by simp [call, failed])
    · by_cases here : dataType = d.dataType ∧ id = d.id
      · obtain ⟨rfl, rfl⟩ := here
        refine .inr (.inl ⟨d, values, rfl, rfl, rfl, ?_, inserts.absent, ?_⟩)
        · simp [call, done, Result.ofStored]
        · exact (inserts.row _ _).trans (if_pos ⟨rfl, rfl⟩)
      · exact .inl ((inserts.row _ _).trans (if_neg here))
  | update d values =>
    rcases s.update_cases d values with ⟨reason, failed⟩ | ⟨old, -, updates⟩
    · exact .inl (by simp [call, failed])
    · by_cases here : dataType = d.dataType ∧ id = d.id
      · obtain ⟨rfl, rfl⟩ := here
        refine .inr (.inr (.inl ⟨d, values, old, rfl, rfl, rfl, updates.present,
          updates.agrees, ?_⟩))
        exact (updates.row _ _).trans (if_pos ⟨rfl, rfl⟩)
      · exact .inl ((updates.row _ _).trans (if_neg here))
  | delete d =>
    rcases s.delete_cases d with ⟨reason, failed⟩ | ⟨old, done, deletes⟩
    · exact .inl (by simp [call, failed])
    · by_cases here : dataType = d.dataType ∧ id = d.id
      · obtain ⟨rfl, rfl⟩ := here
        refine .inr (.inr (.inr ⟨d, old, rfl, rfl, rfl, ?_, deletes.present, deletes.agrees, ?_⟩))
        · simp [call, done, Result.ofDeleted]
        · exact (deletes.row _ _).trans (if_pos ⟨rfl, rfl⟩)
      · exact .inl ((deletes.row _ _).trans (if_neg here))

theorem Reachable.call (reachable : s.Reachable) (c : Call) : (call c s).2.Reachable := by
  cases c with
  | find type property value => exact reachable
  | insert d values => exact .insert d values reachable
  | update d values => exact .update d values reachable
  | delete d => exact .delete d reachable

theorem Reachable.play (reachable : s.Reachable) (calls : List Call) :
    (Call.play Store.call calls s).2.Reachable := by
  induction calls generalizing s with
  | nil => exact reachable
  | cons c rest ih => exact ih (reachable.call c)

end Store

end Sagas
