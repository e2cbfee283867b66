import Sagas.Proofs.Ownership.Frame
import Sagas.Proofs.RoundTrip.Return
import Sagas.Proofs.World

/-!
# A world around both messages

A world answers what a message expects that starts an instance, as long as nothing is stored under
its values, and what the same message expects once more, as long as its locks are free. Around the
first message it is known what was stored before, and that locks are free which were given back;
around the second, what has been received.

Results:
1. `Creation.At.answer`: the first message.
2. `Return.At.answer`: the second one, up to the binding of its instance.
-/

namespace Sagas

variable {D B : Type} {s : Saga D B} {rules : RuleSet B} {looked : List PropertyValue}

/-! ## The world of the first message -/

/-- A world and the exchanges with it so far, for a message that found this store. -/
structure Creation.At (s : Saga D B) (rules : RuleSet B) (looked : List PropertyValue)
    (store : Store) (u : World B × List (Exchange B)) (a : Creation) : Prop where
  cache : (u.1.cache.get s.type).1 = .ok rules
  before : a.phase = .before → u.1.store = store
  stored : ∀ d values, a.phase = .stored d values →
    store.Inserts d values u.1.store ∧ s.Carries looked d values
  inserted : ∀ d values reply, ⟨.insert d values, .ok reply⟩ ∈ u.2 → a.phase = .stored d values
  free : ∀ key ∈ a.free, u.1.locks.isHeld key = false

namespace Creation

variable {store : Store} {u : World B × List (Exchange B)} {a : Creation}

/-- What is no insert that succeeds, and reaches the store only after a lost one. -/
theorem At.stays (at' : At s rules looked store u a) {v : World B} {x : Exchange B} {b : Creation}
    (phase : b.phase = a.phase) (same : a.phase = .lost ∨ v.store = u.1.store)
    (cache : (v.cache.get s.type).1 = .ok rules) (free : ∀ key ∈ b.free, v.locks.isHeld key = false)
    (other : ∀ d values reply, x ≠ ⟨.insert d values, .ok reply⟩) :
    At s rules looked store (v, x :: u.2) b where
  cache := cache
  before before := by
    rw [phase] at before
    rcases same with lost | same
    · exact nomatch before.symm.trans lost
    · exact same.trans (at'.before before)
  stored d values stored := by
    rw [phase] at stored
    rcases same with lost | same
    · exact nomatch stored.symm.trans lost
    · exact same ▸ at'.stored d values stored
  inserted d values reply member := by
    rw [phase]
    rcases List.mem_cons.1 member with this | earlier
    · exact absurd this.symm (other d values reply)
    · exact at'.inserted d values reply earlier
  free := free

theorem At.insert (at' : At s rules looked store u a) (before : a.phase = .before) {d : Document}
    {values : List PropertyValue} (carries : s.Carries looked d values)
    {reply : Except StorageError Document} {v : World B}
    (answers : u.1.store.insert d values = (reply, v.store)) (cache : v.cache = u.1.cache)
    (locks : v.locks = u.1.locks) :
    At s rules looked store (v, ⟨.insert d values, reply⟩ :: u.2)
      ((creating s rules looked).next a (.insert d values) reply) := by
  have unwritten : ∀ {d values stored}, ⟨.insert d values, .ok stored⟩ ∉ u.2 := fun member =>
    nomatch before.symm.trans (at'.inserted _ _ _ member)
  cases reply with
  | error e =>
    refine ⟨cache ▸ at'.cache, nofun, nofun, fun d values stored member => ?_, locks ▸ at'.free⟩
    rcases List.mem_cons.1 member with this | earlier
    · cases this
    · exact absurd earlier unwritten
  | ok stored =>
    have inserts : store.Inserts d values v.store := by
      rcases u.1.store.insert_cases d values with ⟨e, failed⟩ | ⟨-, inserts⟩
      · exact nomatch failed.symm.trans answers
      · rwa [answers, at'.before before] at inserts
    refine ⟨cache ▸ at'.cache, nofun, fun d' values' same => ?_,
      fun d' values' stored' member => ?_, locks ▸ at'.free⟩
    · cases same
      exact ⟨inserts, carries⟩
    · rcases List.mem_cons.1 member with this | earlier
      · cases this
        rfl
      · exact absurd earlier unwritten

/-- A world meets the contract of a message that starts an instance. -/
theorem At.answer (at' : At s rules looked store u a)
    (misses : ∀ p ∈ looked, store.find s.dataType.name p.name p.value = none) (request : Request B)
    (owed : (creating s rules looked).owes a request) :
    (creating s rules looked).expects a request (Program.traced World.answer request u).1 ∧
      At s rules looked store (Program.traced World.answer request u).2
        ((creating s rules looked).next a request (Program.traced World.answer request u).1) := by
  cases request with
  | find dataType property value =>
    refine ⟨fun before => ?_, at'.stays rfl (.inr rfl) at'.cache at'.free fun _ _ _ => nofun⟩
    obtain ⟨rfl, listed⟩ := owed before
    show Except.ok (u.1.store.find _ _ _) = _
    rw [at'.before before, misses _ listed]
  | insert d values => exact ⟨trivial, at'.insert owed.1 owed.2 rfl rfl rfl⟩
  | update d values =>
    exact ⟨trivial, at'.stays rfl (.inl owed) at'.cache at'.free fun _ _ _ => nofun⟩
  | delete d => exact owed.elim
  | rules type =>
    obtain rfl : type = s.type := owed
    obtain ⟨reply, cache⟩ := u.1.answer_rules s.type
    have store : (World.answer (.rules s.type) u.1).2.store = u.1.store :=
      World.answers (.rules s.type) u.1
    have locks := u.1.locks_answer (.rules s.type) nofun nofun
    refine ⟨reply.trans at'.cache, at'.stays rfl (.inr store) ?_ ?_ fun _ _ _ => nofun⟩
    · show ((World.answer (.rules s.type) u.1).2.cache.get s.type).1 = _
      rw [cache, RuleCache.get_get, at'.cache]
    · exact fun key member => locks ▸ at'.free key member
  | acquire key token =>
    refine ⟨?_, at'.stays rfl (.inr rfl) at'.cache nofun fun _ _ _ => nofun⟩
    rintro taken rfl
    exact nomatch taken
  | release key =>
    refine ⟨trivial, at'.stays rfl (.inr rfl) at'.cache (fun other member => ?_) fun _ _ _ => nofun⟩
    show (u.1.locks.release key).2.isHeld other = false
    rw [Lock.Table.isHeld_release]
    rcases List.mem_cons.1 member with rfl | earlier
    · simp
    · simp [at'.free other earlier]
  | shutdown =>
    have cache := u.1.cache_answer .shutdown nofun
    have locks := u.1.locks_answer .shutdown nofun nofun
    refine ⟨trivial, at'.stays rfl (.inr (World.answers .shutdown u.1)) ?_ ?_ fun _ _ _ => nofun⟩
    · exact cache ▸ at'.cache
    · exact fun key member => locks ▸ at'.free key member
  | _ => exact ⟨trivial, at'.stays rfl (.inr rfl) at'.cache at'.free fun _ _ _ => nofun⟩

end Creation

/-! ## The world of the second message -/

/-- A world and the exchanges with it so far, for a message that has yet to take its locks. -/
structure Return.At (s : Saga D B) (rules : RuleSet B) (token : CancelToken) (stored : Store)
    (u : World B × List (Exchange B)) (a : Return) : Prop where
  store : u.1.store = stored
  cache : (u.1.cache.get s.type).1 = .ok rules
  once : a.keys.Nodup
  free : ∀ key ∈ a.keys, u.1.locks.isHeld key = false
  uncancelled : a.keys ≠ [] → u.1.isCancelled token = false
  received : receipts u.2 = a.received
  created : ∀ x ∈ u.2, x.creates = false

/-- A world meets the contract of a message up to the binding of its instance. -/
theorem Return.At.answer {token : CancelToken} {stored : Store} {u : World B × List (Exchange B)}
    {a : Return} (at' : At s rules token stored u a) (request : Request B)
    (owed : (returning s rules token stored).owes a request) :
    (returning s rules token stored).expects a request (Program.traced World.answer request u).1 ∧
      At s rules token stored (Program.traced World.answer request u).2
        ((returning s rules token stored).next a request
          (Program.traced World.answer request u).1) := by
  have created : ∀ {x : Exchange B}, x.creates = false → ∀ y ∈ x :: u.2, y.creates = false :=
    fun none => List.forall_mem_cons.2 ⟨none, at'.created⟩
  have received : ∀ x : Exchange B,
      receipts (x :: u.2) = a.received.next x.request x.reply := fun x => by
    rw [receipts, at'.received]
  cases request with
  | find dataType property value =>
    exact ⟨congrArg (fun store : Store => Except.ok (store.find _ _ _)) at'.store, at'.store,
      at'.cache, at'.once, at'.free, at'.uncancelled, received _, created rfl⟩
  | rules type =>
    obtain rfl : type = s.type := owed
    obtain ⟨reply, cache⟩ := u.1.answer_rules s.type
    have store : (World.answer (.rules s.type) u.1).2.store = u.1.store :=
      World.answers (.rules s.type) u.1
    have locks := u.1.locks_answer (.rules s.type) nofun nofun
    have cancelled := u.1.isCancelled_answer (.rules s.type) nofun token
    refine ⟨reply.trans at'.cache, store.trans at'.store, ?_, at'.once, ?_, ?_, received _,
      created rfl⟩
    · show ((World.answer (.rules s.type) u.1).2.cache.get s.type).1 = _
      rw [cache, RuleCache.get_get, at'.cache]
    · exact fun key member => locks ▸ at'.free key member
    · exact fun some => cancelled.trans (at'.uncancelled some)
  | acquire key other =>
    obtain ⟨first, rfl⟩ := owed
    obtain ⟨keys, receipts⟩ := a
    cases keys with
    | nil => cases first
    | cons head rest =>
      obtain rfl : head = key := Option.some.inj first
      have free := List.forall_mem_cons.1 at'.free
      have uncancelled := at'.uncancelled (List.cons_ne_nil _ _)
      obtain ⟨reply, others⟩ := u.1.answer_acquire free.1 uncancelled
      obtain ⟨apart, once⟩ := List.nodup_cons.1 at'.once
      refine ⟨reply, at'.store, at'.cache, once, fun next member => ?_, fun _ => uncancelled,
        at'.received, created rfl⟩
      exact others next (fun same => apart (same ▸ member)) (free.2 next member)
  | count counter =>
    exact ⟨trivial, at'.store, at'.cache, at'.once, at'.free, at'.uncancelled, received _,
      created rfl⟩
  | note entry =>
    exact ⟨trivial, at'.store, at'.cache, at'.once, at'.free, at'.uncancelled, received _,
      created rfl⟩
  | _ => exact owed.elim

end Sagas
