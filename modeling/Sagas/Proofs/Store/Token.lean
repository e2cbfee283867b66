import Sagas.Proofs.Store.Calls

/-!
# What a revision says about the instance it was read with

An update or a deletion is granted exactly if it carries the revision of the row. Revisions grow
while an instance stays in the store, so a granted write meets the very document that was read with
the revision. They start over when an identity leaves the store and comes back: a reader from
before cannot tell the new instance from the one it has read.

Results:
1. `row_of_granted`: a granted write meets a row at its revision.
2. `Since.play`: an instance stays as it was read, or moves on, or leaves the store.
3. `granted_meets_read`: a granted write meets what was read, or an instance that was inserted
   after the one that was read had been deleted.
-/

namespace Sagas

namespace Store

/-- An update or a deletion with the identity, the data type and the revision of `d`. -/
def Call.Carries : Call → Document → Prop
  | .update e _, d | .delete e, d =>
    e.dataType = d.dataType ∧ e.id = d.id ∧ e.revision = d.revision
  | .find .., _ | .insert .., _ => False

/-- The instance was deleted, and later one of its identity was inserted. -/
def Reborn (log : List (Call × Result)) (d : Document) : Prop :=
  ∃ gone new values, gone.dataType = d.dataType ∧ gone.id = d.id ∧
    new.dataType = d.dataType ∧ new.id = d.id ∧
    [(.delete gone, .deleted), (.insert new values, .stored new)].Sublist log

/-- What is stored is the document itself or has been written over it. -/
def Since (d now : Document) : Prop :=
  now = d ∨ d.revision.number < now.revision.number

variable {s t : Store} {d now : Document} {dataType property : String} {id : Uuid} {c : Call}

theorem row_of_granted (carries : c.Carries d) (granted : (call c t).1 ≠ .refused) :
    ∃ old, t.row? d.dataType d.id = some old ∧ d.revision = old.document.revision := by
  cases c with
  | find type property value => exact carries.elim
  | insert e values => exact carries.elim
  | update e values =>
    obtain ⟨typed, named, token⟩ := carries
    rcases t.update_cases e values with ⟨reason, failed⟩ | ⟨old, -, updates⟩
    · exact absurd (by simp [call, failed, Result.ofStored]) granted
    · exact ⟨old, typed ▸ named ▸ updates.present, token ▸ updates.agrees⟩
  | delete e =>
    obtain ⟨typed, named, token⟩ := carries
    rcases t.delete_cases e with ⟨reason, failed⟩ | ⟨old, -, deletes⟩
    · exact absurd (by simp [call, failed, Result.ofDeleted]) granted
    · exact ⟨old, typed ▸ named ▸ deletes.present, token ▸ deletes.agrees⟩

/-- The revision that was read leads back to what was read. -/
theorem Since.eq_of_revision (since : Since d now) (same : d.revision = now.revision) :
    now = d := by
  rcases since with eq | later
  · exact eq
  · rw [same] at later
    exact absurd later (Nat.lt_irrefl _)

/-- An identity comes into the store by an insert only. -/
theorem inserted_of_absent (calls : List Call) (absent : s.row? dataType id = none) :
    (Call.play call calls s).2.row? dataType id = none ∨
      ∃ new values, new.dataType = dataType ∧ new.id = id ∧
        (.insert new values, .stored new) ∈ (Call.play call calls s).1 := by
  induction calls generalizing s with
  | nil => exact .inl absent
  | cons c rest ih =>
    rcases call_cases c s dataType id with same | ⟨new, values, rfl, typed, named, stored, -⟩ |
      ⟨e, values, old, -, -, -, present, -⟩ | ⟨e, old, -, -, -, -, present, -⟩
    · refine (ih (same.trans absent)).imp_right ?_
      rintro ⟨new, values, typed, named, member⟩
      exact ⟨new, values, typed, named, List.mem_cons_of_mem _ member⟩
    · refine .inr ⟨new, values, typed, named, ?_⟩
      rw [Call.play, ← stored]
      exact List.mem_cons_self
    · exact nomatch absent.symm.trans present
    · exact nomatch absent.symm.trans present

theorem Reborn.cons {log : List (Call × Result)} (entry : Call × Result) (reborn : Reborn log d) :
    Reborn (entry :: log) d := by
  obtain ⟨gone, new, values, typed, named, typed', named', listed⟩ := reborn
  exact ⟨gone, new, values, typed, named, typed', named', listed.cons entry⟩

/-- What calls make of an instance that was read: it is still there, as it was or at a later
revision, or it has left the store, and only an insert brings its identity back. -/
theorem Since.play (calls : List Call) {row : Row} (present : s.row? d.dataType d.id = some row)
    (since : Since d row.document) :
    (∃ now, (Call.play call calls s).2.row? d.dataType d.id = some now ∧ Since d now.document) ∨
      (Call.play call calls s).2.row? d.dataType d.id = none ∨
      Reborn (Call.play call calls s).1 d := by
  induction calls generalizing s row with
  | nil => exact .inl ⟨row, present, since⟩
  | cons c rest ih =>
    -- The rest of the calls finds the instance in place, unless this one deletes it.
    have stays {now : Row} (here : (call c s).2.row? d.dataType d.id = some now)
        (since : Since d now.document) :
        (∃ now, (Call.play call (c :: rest) s).2.row? d.dataType d.id = some now ∧
          Since d now.document) ∨
          (Call.play call (c :: rest) s).2.row? d.dataType d.id = none ∨
          Reborn (Call.play call (c :: rest) s).1 d :=
      (ih here since).imp_right (Or.imp_right (Reborn.cons _))
    rcases call_cases c s d.dataType d.id with same | ⟨new, values, -, -, -, -, absent, -⟩ |
      ⟨e, values, old, -, -, -, held, agrees, written⟩ |
      ⟨gone, old, rfl, typed, named, deleted, -, -, left⟩
    · exact stays (same.trans present) since
    · exact nomatch absent.symm.trans present
    · cases present.symm.trans held
      refine stays written (.inr ?_)
      rcases since with eq | later
      · rw [← eq, ← agrees]
        exact Nat.lt_succ_self _
      · rw [← agrees] at later
        exact Nat.lt_succ_of_lt later
    · refine .inr ((inserted_of_absent rest left).imp_right ?_)
      rintro ⟨new, values, typed', named', member⟩
      refine ⟨gone, new, values, typed, named, typed', named', ?_⟩
      rw [Call.play, ← deleted]
      exact (List.singleton_sublist.2 member).cons_cons _

/-- The token of a document that a lookup has found, used after any calls of other writers: if a
write that carries it is granted, then the row it replaces or removes holds the document that was
found, unless in between that instance was deleted and one with its identity inserted again. -/
theorem granted_meets_read (reachable : s.Reachable) {value : Scalar}
    (found : s.find dataType property value = some d) (calls : List Call) :
    let ran := Call.play call calls s
    ∀ c : Call, c.Carries d → (call c ran.2).1 ≠ .refused →
      ∃ old, ran.2.row? d.dataType d.id = some old ∧ (old.document = d ∨ Reborn ran.1 d) := by
  intro ran c carries granted
  obtain ⟨rfl, row, present, rfl⟩ := reachable.consistent.find_some found
  obtain ⟨old, met, token⟩ := row_of_granted carries granted
  refine ⟨old, met, ?_⟩
  rcases Since.play calls present (.inl rfl) with ⟨now, held, since⟩ | left | reborn
  · cases held.symm.trans met
    exact .inl (since.eq_of_revision token)
  · exact nomatch left.symm.trans met
  · exact .inr reborn

/-! ## An instance under a used identity -/

/-- A tally of this amount, at the initial revision. -/
def tallyOf (amount : Int) : Document :=
  ⟨.nil, .initial, "demo.tally", .arr [.str "rent", .int amount]⟩

/-- A tally is read. Meanwhile an instance of another data type is inserted, and another tally of
the same identity is refused: an update meets what was read. -/
theorem tally_met_again :
    let s := (empty.insert (tallyOf 5) []).2
    let others : List Call :=
      [.insert { tallyOf 7 with dataType := "demo.other" } [], .insert (tallyOf 8) []]
    s.Reachable ∧ s.find "demo.tally" identityPath (.uuid .nil) = some (tallyOf 5) ∧
      (Call.update (tallyOf 6) []).Carries (tallyOf 5) ∧
      (call (.update (tallyOf 6) []) (Call.play call others s).2).1 ≠ .refused ∧
      ∃ old, (Call.play call others s).2.row? "demo.tally" .nil = some old ∧
        (old.document = tallyOf 5 ∨ Reborn (Call.play call others s).1 (tallyOf 5)) := by
  intro s others
  have reachable : s.Reachable := .insert (tallyOf 5) [] .empty
  have found : s.find "demo.tally" identityPath (.uuid .nil) = some (tallyOf 5) := rfl
  have carries : (Call.update (tallyOf 6) []).Carries (tallyOf 5) := ⟨rfl, rfl, rfl⟩
  have granted : (call (.update (tallyOf 6) []) (Call.play call others s).2).1 ≠ .refused :=
    Result.noConfusion
  exact ⟨reachable, found, carries, granted,
    granted_meets_read reachable found others _ carries granted⟩

/-- A tally is read, deleted, and inserted anew under its identity with another amount. An update
of what was read is granted still, and the new amount is lost. -/
theorem reborn_tally_lost :
    let s := (empty.insert (tallyOf 5) []).2
    let t := (Call.play call [.delete (tallyOf 5), .insert (tallyOf 7) []] s).2
    s.Reachable ∧ s.find "demo.tally" identityPath (.uuid .nil) = some (tallyOf 5) ∧
      (Call.update (tallyOf 6) []).Carries (tallyOf 5) ∧
      (call (.update (tallyOf 6) []) t).1 = .stored { tallyOf 6 with revision := ⟨1⟩ } ∧
      (∃ old, t.row? "demo.tally" .nil = some old ∧ old.document = tallyOf 7) ∧
      tallyOf 7 ≠ tallyOf 5 :=
  ⟨.insert (tallyOf 5) [] .empty, rfl, ⟨rfl, rfl, rfl⟩, rfl, ⟨_, rfl, rfl⟩, by simp [tallyOf]⟩

end Store

end Sagas
