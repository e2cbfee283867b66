import Sagas.Proofs.Crew

/-!
# What the answers of a world leave of it

A world answers calls of the store by its store, locks by its lock table and rules by its cache.
A request of one kind leaves the other two as they are.

Results:
1. `acquire_free`, `isHeld_release`: a key that nobody holds is taken at once, and free when it is
   given back.
2. `get_get`: the rules of a saga, once known, stay known.
3. `locks_answer`, `cache_answer`, `closed_answer`: which requests reach what but the store.
4. `answer_acquire`: a world gives a free key, as long as waiting is not called off.
-/

namespace Sagas

/-! ## Locks -/

namespace Lock.Table

variable {t : Table} {key other : String}

theorem isHeld_take : (t.take key).isHeld other = (other == key || t.isHeld other) :=
  List.contains_cons

/-- Nobody comes to hold a key by the passing of time. -/
theorem isHeld_settle (free : t.isHeld key = false) (time : Nat) :
    (t.settle time).isHeld key = false := by
  simp only [isHeld, settle, List.contains_eq_mem, decide_eq_false_iff_not] at free ⊢
  exact fun held => free (List.mem_filter.1 held).1

theorem acquire_free (free : t.isHeld key = false) (tie : Tie) (timeout interval : Nat) :
    t.acquire tie timeout interval .never key = (true, (t.atAttempt t.now).take key) := by
  have now : t.forWaiting timeout interval none key = t := by simp [forWaiting, free]
  have taken : wait tie (fun time => !(t.settle time).isHeld key) timeout interval none t.now =
      .taken t.now := by
    simp [wait, waitWithin, isHeld_settle free]
  simp only [acquire, now, taken]

theorem isHeld_release : (t.release key).2.isHeld other = (other != key && t.isHeld other) := by
  by_cases same : other = key
  · simp [release, isHeld, same]
  · simp [release, isHeld, same]

end Lock.Table

/-! ## Rules -/

theorem RuleCache.get_get {B : Type} {cache : RuleCache B} {saga : SagaType B} :
    ((cache.get saga).2.get saga).1 = (cache.get saga).1 := by
  cases known : cache.built.get? saga.name with
  | some built => simp [get, known]
  | none => simp [get, known, Dictionary.get?_insert]

namespace World

variable {B : Type} (w : World B)

/-! ## Requests of other kinds -/

theorem locks_answer (request : Request B) (acquires : ∀ key token, request ≠ .acquire key token)
    (releases : ∀ key, request ≠ .release key) : (answer request w).2.locks = w.locks := by
  cases request with
  | acquire key token => exact absurd rfl (acquires key token)
  | release key => exact absurd rfl (releases key)
  | rules saga =>
    show (answer (.rules saga) w).2.locks = w.locks
    simp only [answer, perform, rules, enter, entryOf?]
    split <;> rfl
  | shutdown =>
    show (answer .shutdown w).2.locks = w.locks
    simp only [answer, perform, shutDown, enter, entryOf?]
    split <;> rfl
  | _ => rfl

theorem cache_answer (request : Request B) (other : ∀ saga, request ≠ .rules saga) :
    (answer request w).2.cache = w.cache := by
  cases request with
  | rules saga => exact absurd rfl (other saga)
  | shutdown =>
    show (answer .shutdown w).2.cache = w.cache
    simp only [answer, perform, shutDown, enter, entryOf?]
    split <;> rfl
  | _ => rfl

theorem closed_answer (request : Request B) (other : request ≠ .shutdown) :
    (answer request w).2.closed = w.closed := by
  cases request with
  | shutdown => exact absurd rfl other
  | rules saga =>
    show (answer (.rules saga) w).2.closed = w.closed
    simp only [answer, perform, rules, enter, entryOf?]
    split <;> rfl
  | _ => rfl

theorem isCancelled_answer (request : Request B) (other : request ≠ .shutdown)
    (token : CancelToken) : (answer request w).2.isCancelled token = w.isCancelled token := by
  cases token with
  | fixed fired => rfl
  | pool => exact w.closed_answer request other

/-! ## Answers -/

theorem answer_rules (saga : SagaType B) :
    (answer (.rules saga) w).1 = (w.cache.get saga).1 ∧
      (answer (.rules saga) w).2.cache = (w.cache.get saga).2 := by
  simp only [answer, perform, rules, enter, entryOf?]
  split <;> exact ⟨rfl, rfl⟩

/-- A free key is taken at once, unless waiting is called off, and other free keys stay free. -/
theorem answer_acquire {key : String} {token : CancelToken} (free : w.locks.isHeld key = false)
    (uncancelled : w.isCancelled token = false) :
    (answer (.acquire key token) w).1 = .ok true ∧
      ∀ other, other ≠ key → w.locks.isHeld other = false →
        (answer (.acquire key token) w).2.locks.isHeld other = false := by
  have acquired : w.locks.acquire .attempt w.lockTimeout w.lockInterval
      (if w.isCancelled token then .already else .never) key =
        (true, (w.locks.atAttempt w.locks.now).take key) := by
    rw [if_neg (by simp [uncancelled]), Lock.Table.acquire_free free]
  constructor
  · show Except.ok (w.locks.acquire _ _ _ _ _).1 = _
    rw [acquired]
  · intro other differs otherFree
    show (w.locks.acquire _ _ _ _ _).2.isHeld other = false
    rw [acquired, Lock.Table.isHeld_take]
    have settled : (w.locks.atAttempt w.locks.now).isHeld other = false :=
      Lock.Table.isHeld_settle otherFree w.locks.now
    simp [differs, settled]

end World

end Sagas
