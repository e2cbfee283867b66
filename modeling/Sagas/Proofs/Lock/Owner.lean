import Mathlib.Data.List.Basic
import Sagas.Proofs.World

/-!
# Who holds which key

A lock knows which keys are held, but not by whom. Whose they are is read off the calls: a caller
holds the keys that it has acquired and not given back since. As long as every caller gives back
nothing but its own keys, the lock holds exactly the keys of its callers, and no two callers have
one in common.

Results:
1. `Table.acquire_cases`, `World.lock_answers`: what a lock answers that nobody else uses.
2. `Owned.turn`: a call of one caller keeps the keys of all callers apart.
-/

namespace Sagas

variable {B : Type}

namespace Lock

/-! ## Answers -/

/-- Whether a lock may answer so while these keys are held, and which ones are held then. Whoever
wants a key may run out of time or be called off, be the key free or not. -/
def Answers (held : List String) : (request : Request B) → Reply request → List String → Prop
  | .acquire key _, reply, after =>
    reply = .ok true ∧ key ∉ held ∧ after = key :: held ∨ reply = .ok false ∧ after = held
  | .release key, reply, after =>
    reply = .ok (held.contains key) ∧ after = held.filter (· ≠ key)
  | _, _, after => after = held

/-- Answers calls of the lock, refusing a key that is held, and the rest as the surroundings say. -/
def serve (others : (request : Request B) → Reply request) (held : List String) :
    (request : Request B) → Reply request × List String
  | .acquire key _ => if key ∈ held then (.ok false, held) else (.ok true, key :: held)
  | .release key => (.ok (held.contains key), held.filter (· ≠ key))
  | request => (others request, held)

theorem answers_serve (others : (request : Request B) → Reply request) (held : List String)
    (request : Request B) :
    Answers held request (serve others held request).1 (serve others held request).2 := by
  cases request with
  | acquire key token =>
    by_cases free : key ∈ held
    · exact .inr (by simp [serve, free])
    · exact .inl (by simp [serve, free])
  | release key => exact ⟨rfl, rfl⟩
  | _ => rfl

theorem waitWithin_taken {tie : Tie} {free : Nat → Bool} {interval deadline attempts now time : Nat}
    {cancelAt : Option Nat}
    (taken : waitWithin tie free interval deadline cancelAt attempts now = .taken time) :
    free time = true := by
  induction attempts generalizing now with
  | zero => cases taken
  | succ attempts ih =>
    unfold waitWithin at taken
    split at taken
    next => cases taken
    next =>
      split at taken
      next isFree =>
        cases taken
        exact isFree
      next =>
        split at taken
        next => cases taken
        next =>
          split at taken
          next => cases taken
          next => exact ih taken

namespace Table

variable {t : Table}

theorem settle_of_undue (undue : t.due = []) (time : Nat) : t.settle time = t := by
  obtain ⟨held, now, due⟩ := t
  obtain rfl : due = [] := undue
  simp [settle]

/-- The key was free and is taken now, or nothing is. -/
theorem acquire_cases (undue : t.due = []) (tie : Tie) (timeout interval : Nat)
    (cancellation : Cancellation) (key : String) :
    (t.acquire tie timeout interval cancellation key).2.due = [] ∧
      (((t.acquire tie timeout interval cancellation key).1 = true ∧ key ∉ t.held ∧
          (t.acquire tie timeout interval cancellation key).2.held = key :: t.held) ∨
        ((t.acquire tie timeout interval cancellation key).1 = false ∧
          (t.acquire tie timeout interval cancellation key).2.held = t.held)) := by
  have settled := settle_of_undue undue
  have same : ∀ cancelAt, t.forWaiting timeout interval cancelAt key = t := fun cancelAt => by
    simp [forWaiting, settled]
  unfold acquire
  cases cancellation with
  | already => exact ⟨undue, .inr ⟨rfl, rfl⟩⟩
  | _ =>
    simp only [same, atAttempt, brokenOff, settled, take]
    split
    next time taken =>
      have free := waitWithin_taken taken
      exact ⟨undue, .inl ⟨rfl, by simpa [isHeld] using free, rfl⟩⟩
    next => exact ⟨undue, .inr ⟨rfl, rfl⟩⟩
    next => exact ⟨undue, .inr ⟨rfl, rfl⟩⟩

end Table

/-! ## Callers -/

/-- The keys of a caller after a call. -/
def keysAfter (own : List String) : (request : Request B) → Reply request → List String
  | .acquire key _, .ok true => key :: own
  | .release key, _ => own.erase key
  | _, _ => own

/-- What is held below stays as it is. -/
theorem keysAfter_append {own below : List String} {request : Request B} {reply : Reply request}
    (mine : ∀ key, request = .release key → key ∈ own) :
    keysAfter (own ++ below) request reply = keysAfter own request reply ++ below := by
  cases request with
  | acquire key token => rcases reply with e | _ | _ <;> rfl
  | release key => exact List.erase_append_left below (mine key rfl)
  | _ => rfl

/-- The keys that were acquired and not given back since, the latest first. -/
def holding : List (Exchange B) → List String
  | [] => []
  | x :: earlier => keysAfter (holding earlier) x.request x.reply

/-- The keys that are held are those of the callers, which have none in common. -/
structure Owned {ι : Type} (held : List String) (own : ι → List String) : Prop where
  nodup : held.Nodup
  each : ∀ k, (own k).Nodup
  apart : ∀ j k, j ≠ k → (own j).Disjoint (own k)
  held_iff : ∀ key, key ∈ held ↔ ∃ k, key ∈ own k

namespace Owned

variable {ι : Type} {held after : List String} {own own' : ι → List String} {k : ι}

theorem start : Owned [] fun _ : ι => [] where
  nodup := .nil
  each _ := .nil
  apart _ _ _ := List.disjoint_nil_left _
  held_iff _ := by simp

/-- No caller has a key twice, nor one that another caller has. -/
theorem unique (owned : Owned held own) {j : ι} {key : String} (here : key ∈ own j)
    (there : key ∈ own k) : j = k :=
  Classical.byContradiction fun other => owned.apart j k other here there

theorem take (owned : Owned held own) {key : String} (free : key ∉ held)
    (mover : own' k = key :: own k) (others : ∀ j, j ≠ k → own' j = own j) :
    Owned (key :: held) own' := by
  have unowned : ∀ j, key ∉ own j := fun j member => free ((owned.held_iff key).2 ⟨j, member⟩)
  refine ⟨List.nodup_cons.2 ⟨free, owned.nodup⟩, fun j => ?_, fun i j differs => ?_,
    fun other => ?_⟩
  · by_cases moves : j = k
    · rw [moves, mover]
      exact List.nodup_cons.2 ⟨unowned k, owned.each k⟩
    · rw [others j moves]
      exact owned.each j
  · by_cases first : i = k
    · have second : j ≠ k := fun same => differs (first.trans same.symm)
      rw [first, mover, others j second]
      exact List.disjoint_cons_left.2 ⟨unowned j, owned.apart k j second.symm⟩
    · rw [others i first]
      by_cases second : j = k
      · rw [second, mover]
        exact List.disjoint_cons_right.2 ⟨unowned i, owned.apart i k first⟩
      · rw [others j second]
        exact owned.apart i j differs
  · rw [List.mem_cons, owned.held_iff]
    constructor
    · rintro (rfl | ⟨j, member⟩)
      · exact ⟨k, mover ▸ List.mem_cons_self⟩
      · by_cases moves : j = k
        · exact ⟨k, mover ▸ List.mem_cons_of_mem _ (moves ▸ member)⟩
        · exact ⟨j, (others j moves).symm ▸ member⟩
    · rintro ⟨j, member⟩
      by_cases moves : j = k
      · rw [moves, mover] at member
        exact (List.mem_cons.1 member).imp_right fun member => ⟨k, member⟩
      · exact .inr ⟨j, others j moves ▸ member⟩

theorem giveBack (owned : Owned held own) {key : String} (mine : key ∈ own k)
    (mover : own' k = (own k).erase key) (others : ∀ j, j ≠ k → own' j = own j) :
    Owned (held.filter (· ≠ key)) own' := by
  have within : ∀ j, own' j ⊆ own j := fun j => by
    by_cases moves : j = k
    · rw [moves, mover]
      exact List.erase_subset
    · rw [others j moves]
      exact List.Subset.refl _
  refine ⟨owned.nodup.filter _, fun j => ?_, fun i j differs => ?_, fun other => ?_⟩
  · by_cases moves : j = k
    · rw [moves, mover]
      exact (owned.each k).erase key
    · rw [others j moves]
      exact owned.each j
  · exact fun _ first second => owned.apart i j differs (within i first) (within j second)
  · rw [List.mem_filter, owned.held_iff, decide_eq_true_eq]
    constructor
    · rintro ⟨⟨j, member⟩, remains⟩
      by_cases moves : j = k
      · refine ⟨k, ?_⟩
        rw [mover]
        exact (List.mem_erase_of_ne remains).2 (moves ▸ member)
      · exact ⟨j, (others j moves).symm ▸ member⟩
    · rintro ⟨j, member⟩
      refine ⟨⟨j, within j member⟩, ?_⟩
      rintro rfl
      obtain rfl := owned.unique mine (within j member)
      rw [mover] at member
      exact (owned.each k).not_mem_erase member

/-- A caller that gives back only keys of its own has a call answered. -/
theorem turn (owned : Owned held own) {request : Request B} {reply : Reply request}
    (answers : Answers held request reply after)
    (mine : ∀ key, request = .release key → key ∈ own k)
    (mover : own' k = keysAfter (own k) request reply) (others : ∀ j, j ≠ k → own' j = own j) :
    Owned after own' := by
  have still (same : after = held) (mover : own' k = own k) : Owned after own' := by
    have unchanged : own' = own := funext fun j => by
      by_cases moves : j = k
      · exact moves ▸ mover
      · exact others j moves
    exact same ▸ unchanged ▸ owned
  cases request with
  | acquire key token =>
    rcases answers with ⟨rfl, free, rfl⟩ | ⟨rfl, same⟩
    · exact owned.take free mover others
    · exact still same mover
  | release key =>
    obtain ⟨-, rfl⟩ := answers
    exact owned.giveBack (mine key rfl) mover others
  | _ => exact still answers mover

end Owned

end Lock

/-- A world whose keys nobody else gives back answers as a lock does. -/
theorem World.lock_answers {w : World B} (undue : w.locks.due = []) (request : Request B) :
    Lock.Answers w.locks.held request (World.answer request w).1
        (World.answer request w).2.locks.held ∧
      (World.answer request w).2.locks.due = [] := by
  cases request with
  | acquire key token =>
    obtain ⟨undue', ⟨taken, free, held⟩ | ⟨refused, held⟩⟩ :=
      Lock.Table.acquire_cases undue .attempt w.lockTimeout w.lockInterval
        (if w.isCancelled token then .already else .never) key
    · exact ⟨.inl ⟨congrArg Except.ok taken, free, held⟩, undue'⟩
    · exact ⟨.inr ⟨congrArg Except.ok refused, held⟩, undue'⟩
  | release key => exact ⟨⟨rfl, rfl⟩, undue⟩
  | _ =>
    refine ⟨congrArg Lock.Table.held (w.locks_answer _ ?_ ?_),
      (congrArg Lock.Table.due (w.locks_answer _ ?_ ?_)).trans undue⟩ <;> simp

end Sagas
