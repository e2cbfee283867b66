import Sagas.Demo.Tally
import Sagas.Proofs.Crew
import Sagas.Proofs.Ownership.Message
import Sagas.Proofs.Store.Calls

/-!
# Which rows a message changes

Of the rows that are there when its turn comes, a message changes or deletes only those that it has
received, by being bound to them or by merging them after a lost write, as long as its handlers
leave identities alone. A handler that gives its instance the identity of another one turns the
write of the message against that one, which was neither read nor is written at its own revision.

Results:
1. `Answers.row_cases`: only updates and deletions change a row that is there.
2. `Run.met`: what a consistent store answers is what a message may expect.
3. `changes_only_received`: the rows that a message changes, in every run among other messages.
-/

namespace Sagas

variable {D B ι α σ : Type}

/-- What a party has received, by its exchanges. -/
def receipts : List (Exchange B) → Receipts
  | [] => .none
  | x :: earlier => (receipts earlier).next x.request x.reply

theorem after_writing (allowed : Receipts → Document → Prop) (inserts : Prop)
    (past : List (Exchange B)) : (writing allowed inserts).after .none past = receipts past := by
  induction past with
  | nil => rfl
  | cons x earlier ih =>
    show Receipts.next _ x.request x.reply = _
    rw [ih]
    rfl

namespace Store

variable {s t : Store} {request : Request B} {reply : Reply request}

/-- The request that asks for a call. -/
def Call.toRequest : Call → Request B
  | .find dataType property value => .find dataType property value
  | .insert d values => .insert d values
  | .update d values => .update d values
  | .delete d => .delete d

/-- A request is one for a call, or leaves the store as it is. -/
theorem Answers.called (answers : s.Answers request reply t) :
    t = s ∨ ∃ c : Call, request = c.toRequest ∧ t = (call c s).2 := by
  cases request with
  | find dataType property value => exact .inl answers.2
  | insert d values => exact .inr ⟨.insert d values, rfl, (congrArg Prod.snd answers).symm⟩
  | update d values => exact .inr ⟨.update d values, rfl, (congrArg Prod.snd answers).symm⟩
  | delete d => exact .inr ⟨.delete d, rfl, (congrArg Prod.snd answers).symm⟩
  | _ => exact .inl answers

/-- A row that is there stays as it is, unless the request updates or deletes it. -/
theorem Answers.row_cases (answers : s.Answers request reply t) (dataType : String) (id : Uuid) :
    t.row? dataType id = s.row? dataType id ∨ s.row? dataType id = none ∨
      ∃ d, ((∃ values, request = .update d values) ∨ request = .delete d) ∧
        d.dataType = dataType ∧ d.id = id := by
  rcases answers.called with rfl | ⟨c, rfl, rfl⟩
  · exact .inl rfl
  · rcases call_cases c s dataType id with same | ⟨d, values, -, -, -, -, absent, -⟩ |
      ⟨d, values, old, rfl, typed, named, -⟩ | ⟨d, old, rfl, typed, named, -⟩
    · exact .inl same
    · exact .inr (.inl absent)
    · exact .inr (.inr ⟨d, .inl ⟨values, rfl⟩, typed, named⟩)
    · exact .inr (.inr ⟨d, .inr rfl, typed, named⟩)

/-- A lookup finds an instance of the data type, and by an identity the one that has it. -/
theorem Consistent.writing_expects (kept : s.Consistent) (answers : s.Answers request reply t)
    (allowed : Receipts → Document → Prop) (inserts : Prop) (a : Receipts) :
    (writing allowed inserts).expects a request reply := by
  cases request with
  | find dataType property value =>
    obtain ⟨rfl, -⟩ := answers
    cases found : s.find dataType property value with
    | none => trivial
    | some d =>
      refine ⟨(kept.find_some found).1, ?_⟩
      rintro id rfl rfl
      rw [find_identity] at found
      obtain ⟨row, present, rfl⟩ := Option.map_eq_some_iff.1 found
      exact kept.id present
  | update d values =>
    cases reply with
    | error e => trivial
    | ok stored =>
      rcases s.update_cases d values with ⟨reason, failed⟩ | ⟨old, done, -⟩
      · exact nomatch failed.symm.trans answers
      · obtain rfl : _ = stored :=
          Except.ok.inj (done.symm.trans (congrArg Prod.fst answers))
        rfl
  | count counter => cases counter <;> trivial
  | _ => trivial

end Store

namespace Crew

/-- Answers that a consistent store may give are what parties expect of theirs. -/
theorem Run.met {store : Store} {programs : ι → Program B α} {crew : Crew ι B α}
    {c : Contract B σ} {first : σ}
    (expected : ∀ {s t : Store} {request : Request B} {reply : Reply request} (a : σ),
      s.Consistent → s.Answers request reply t → c.expects a request reply)
    (kept : store.Consistent) (run : (Crew.start store programs).Run crew) (k : ι) :
    c.Met first (crew.parties k).past := by
  induction run with
  | start => trivial
  | @turn before after mover x run turn ih =>
    by_cases moves : k = mover
    · subst moves
      rw [turn.past]
      exact ⟨ih, expected _ (run.consistent kept) turn.store⟩
    · rw [turn.others k moves]
      exact ih

end Crew

open Ownership in
/-- In every run of messages whose handlers move instances to no identities but the goals: a message
that changes or deletes a row has received its instance, or the identity is one of the goals; and
an instance that a message has loaded is written back, whatever its handler has made of it, under
the identity it was loaded with or one of the goals. -/
theorem changes_only_received {store : Store} (reachable : store.Reachable) {jobs : ι → Job D B}
    {goals : ι → Uuid → Prop} (moves : ∀ k, ∀ saga ∈ (jobs k).sagas,
      saga.MovesTo (jobs k).delivery.message (jobs k).delivery.context (goals k)) :
    (∀ crew after k x, (Crew.start store fun k => (jobs k).program).Run crew →
      crew.Turn after k x → ∀ dataType id row, crew.store.row? dataType id = some row →
        after.store.row? dataType id ≠ some row →
          (receipts (crew.parties k).past).Holds dataType id ∨ goals k id) ∧
      ∀ k, ∀ saga ∈ (jobs k).sagas, ∀ (i j : Invocation D B) (home : Document),
        i.handler = .saga saga → i.message = (jobs k).delivery.message →
        i.bind home false = .ok j → ∀ (maxAttempts : Nat) (rules : List (Rule B)) (a : Receipts),
          let onlyAtHome := writing (atHome home (goals k)) False
          (j.invoke .request (jobs k).delivery.context).Keeps onlyAtHome a fun r b =>
            (Commit.persist .request maxAttempts rules .update r.1).Keeps onlyAtHome b
              (fun _ _ => True) ∧
            (Commit.delete r.1).Keeps onlyAtHome b fun _ _ => True := by
  have consistent := reachable.consistent
  constructor
  · intro crew after k x run turn dataType id row present changed
    have met : (owning (goals k)).Met .none (crew.parties k).past :=
      run.met (fun a kept answers => kept.writing_expects answers _ _ a) consistent k
    have keeps := (run.reached k).keeps (Job.keeps_owning (moves k)) met
    obtain ⟨rest, asks, -⟩ := turn.program
    rw [asks, after_writing] at keeps
    rcases turn.store.row_cases dataType id with same | absent | ⟨d, written, rfl, rfl⟩
    · exact absurd (same.trans present) changed
    · exact nomatch present.symm.trans absent
    · obtain ⟨request, reply⟩ := x
      rcases written with ⟨values, rfl⟩ | rfl
      · exact keeps.1
      · exact keeps.1
  · intro k saga known i j home isSaga message loads maxAttempts rules a
    refine keeps_home loads (fun saga' isSaga' => ?_) maxAttempts rules
    cases isSaga.symm.trans isSaga'
    rw [message]
    exact moves k saga known

namespace Ownership

open Demo

/-- Two tallies, number 1 of rent and number 2 of food. -/
def books : Store :=
  let rent := Tally.dataType.toDocument ⟨⟨Tally.number 1, .initial⟩, "rent", 5⟩
  let food := Tally.dataType.toDocument ⟨⟨Tally.number 2, .initial⟩, "food", 7⟩
  ((Store.empty.insert rent []).2.insert food []).2

theorem books_reachable : books.Reachable :=
  .insert _ _ (.insert _ _ .empty)

/-- A message about tally number 1, for this saga. -/
def about (saga : Saga Tally Posting) : Job Tally Posting :=
  ⟨.default, false, .logAndSkip, Registry.empty.add "demo.clear" (.saga saga),
    Tally.clear (Tally.number 1), false⟩

/-- What is asked on behalf of a message, while nothing else goes on. -/
def alone (job : Job Tally Posting) (turns : Nat) :
    Crew Unit Posting (Processed Tally Posting) :=
  (Crew.start books fun _ => job.program).play (fun _ => obliging .nil) (List.replicate turns ())

theorem turn_of_alone {job : Job Tally Posting} {turns : Nat}
    (changed : alone job (turns + 1) ≠ alone job turns) :
    ∃ x, (alone job turns).Turn (alone job (turns + 1)) () x := by
  have next : alone job (turns + 1) = (alone job turns).move (fun _ => obliging .nil) () := by
    simp [alone, Crew.play, List.replicate_succ', List.foldl_append]
  rw [next] at changed ⊢
  cases now : ((alone job turns).parties ()).program with
  | ask request rest => exact ⟨_, Crew.turn_of_ask _ now⟩
  | _ =>
    refine absurd ?_ changed
    unfold Crew.move
    rw [now]

/-- A tally that is cleared has been loaded by the message that clears it. -/
theorem cleared_tally_received :
    let job := about Tally.clearing
    books.Reachable ∧
      (∀ saga ∈ job.sagas, saga.MovesTo job.delivery.message job.delivery.context fun _ => False) ∧
      (∃ row, (alone job 5).store.row? "demo.tally" (Tally.number 1) = some row ∧
        (alone job 6).store.row? "demo.tally" (Tally.number 1) ≠ some row) ∧
      ((receipts ((alone job 5).parties ()).past).Holds "demo.tally" (Tally.number 1) ∨ False) := by
  intro job
  have moves : ∀ _ : Unit, ∀ saga ∈ job.sagas,
      saga.MovesTo job.delivery.message job.delivery.context fun _ => False := by
    intro _ saga member
    obtain rfl : saga = Tally.clearing := List.mem_singleton.1 member
    exact fun inst => .inl rfl
  have run : (Crew.start books fun _ : Unit => job.program).Run (alone job 5) := .play .start _ _
  obtain ⟨row, present⟩ :
      ∃ row, (alone job 5).store.row? "demo.tally" (Tally.number 1) = some row :=
    Option.isSome_iff_exists.1 (by decide +kernel)
  have revised :
      ((alone job 6).store.row? "demo.tally" (Tally.number 1)).map (·.document.revision) ≠
        ((alone job 5).store.row? "demo.tally" (Tally.number 1)).map (·.document.revision) := by
    decide +kernel
  obtain ⟨x, turn⟩ : ∃ x, (alone job 5).Turn (alone job 6) () x :=
    turn_of_alone fun same => revised (by rw [same])
  have changed : (alone job 6).store.row? "demo.tally" (Tally.number 1) ≠ some row := fun same =>
    revised (congrArg _ (same.trans present.symm))
  exact ⟨books_reachable, moves (), ⟨row, present, changed⟩,
    (changes_only_received books_reachable moves).1 _ _ () x run turn _ _ row present changed⟩

/-- Gives the tally that is identified by the message the identity of another one. -/
def moving (other : Uuid) : Saga Tally Posting :=
  { Tally.clearing with
    name := "saga.moving"
    handle := fun _ _ inst =>
      let accessor := Tally.dataType.table.get? identityPath
      let moved := accessor.bind (·.assign? (.uuid other) inst.data)
      .done ⟨moved.getD inst.data, false, false, .ok ()⟩ }

/-- A handler gives the tally of rent the identity of that of food: the message, which has received
nothing but the tally of rent, overwrites the tally of food and succeeds, and the tally of rent
stays as it is. -/
theorem moved_tally_overwrites :
    let crew := alone (about (moving (Tally.number 2))) 7
    let left := receipts (crew.parties ()).past
    left.loaded = [Tally.dataType.toDocument ⟨⟨Tally.number 1, .initial⟩, "rent", 5⟩] ∧
      left.merged = [] ∧
      (∃ m, (crew.parties ()).program = .done (m, .ok ())) ∧
      crew.store.row? "demo.tally" (Tally.number 1) = books.row? "demo.tally" (Tally.number 1) ∧
      (books.row? "demo.tally" (Tally.number 2)).map (·.document) =
        some ⟨Tally.number 2, ⟨0⟩, "demo.tally", .arr [.str "food", .int 7]⟩ ∧
      (crew.store.row? "demo.tally" (Tally.number 2)).map (·.document) =
        some ⟨Tally.number 2, ⟨1⟩, "demo.tally", .arr [.str "rent", .int 5]⟩ :=
  ⟨rfl, rfl, ⟨_, rfl⟩, rfl, rfl, rfl⟩

end Ownership

end Sagas
