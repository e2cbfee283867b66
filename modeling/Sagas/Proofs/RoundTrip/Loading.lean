import Sagas.Proofs.Course
import Sagas.Proofs.RoundTrip.Surroundings

/-!
# Created, then loaded

A message that starts an instance leaves it where its own values lead to: every value that it looked
up finds the new instance or nothing, and the last value of every path finds it, unless it is unset.
So the same message, processed once more, loads that instance and creates none.

Results:
1. `finds_created`, `Job.finds_again`: where the values of a message lead after its insert.
2. `Job.loads`: a message whose values lead to an instance loads it.
3. `created_then_loaded`: both, one after the other.
-/

namespace Sagas

variable {D B : Type} {s : Saga D B} {rules : RuleSet B} {looked : List PropertyValue}

/-! ## After the insert -/

section Created

variable {job : Job D B} {chosen : List (Rule B)} {store stored : Store} {d : Document}
  {values : List PropertyValue}

/-- The instance is stored, holds the last value for every path, and is found by it. -/
theorem finds_created (lossless : s.dataType.Lossless) (distinct : s.dataType.Distinct)
    (inserts : store.Inserts d values stored) (carries : s.Carries looked d values) :
    stored.find s.dataType.name identityPath (.uuid d.id) = some d ∧
      ∃ data, Invocation.read s d = .ok data ∧ ∀ p ∈ looked,
        ∃ v, PropertyValue.last? p.name looked = some v ∧ s.dataType.valueAt p.name data = some v ∧
          (PropertyValue.Sought ⟨p.name, v⟩ → stored.find s.dataType.name p.name v = some d) := by
  obtain ⟨data, rfl, holds⟩ := carries
  refine ⟨inserts.find_identity, data, ?_, fun p member => ?_⟩
  · rw [lossless.read data rfl rfl]
    exact congrArg _ (s.dataType.metadata.set_get data)
  obtain ⟨v, last⟩ := PropertyValue.last?_of_mem member
  obtain ⟨value, carried⟩ := holds _ v last
  refine ⟨v, last, value, fun sought => ?_⟩
  by_cases identity : p.name = identityPath
  · rw [identity, distinct.valueAt_identity] at value
    rw [identity, ← Option.some.inj value]
    exact inserts.find_identity
  · exact inserts.find_value carried identity (sought.resolve_left identity)

theorem Job.finds_again (inserts : store.Inserts d values stored)
    (misses : ∀ p ∈ job.yields chosen, store.find s.dataType.name p.name p.value = none)
    (reads : ∃ data, Invocation.read s d = .ok data) {p : PropertyValue}
    (yielded : p ∈ job.yields chosen)
    (found : stored.find s.dataType.name p.name p.value = some d) :
    job.Finds s chosen stored d where
  only q member := by
    rw [← misses q member, or_comm]
    exact inserts.find_cases _ _ _
  some := ⟨p, yielded, found⟩
  reads := reads

end Created

/-! ## The second message -/

/-- By these exchanges the one instance that was loaded is this one, and none was created. -/
def Loads (d : Document) (past : List (Exchange B)) : Prop :=
  (receipts past).loaded = [d] ∧ ∀ x ∈ past, x.creates = false

theorem Loads.settled {d : Document} {past : List (Exchange B)} (loads : Loads d past)
    {x : Exchange B} (settles : RoundTrip.settled x.request) : Loads d (x :: past) := by
  obtain ⟨request, reply⟩ := x
  cases request with
  | freshId => exact settles.elim
  | find dataType property value =>
    refine ⟨?_, List.forall_mem_cons.2 ⟨rfl, loads.2⟩⟩
    rcases reply with e | _ | d <;> exact loads.1
  | count counter =>
    refine ⟨?_, List.forall_mem_cons.2 ⟨rfl, loads.2⟩⟩
    cases counter <;> first | exact loads.1 | exact settles.elim
  | _ => exact ⟨loads.1, List.forall_mem_cons.2 ⟨rfl, loads.2⟩⟩

section Again

open RoundTrip

variable {job : Job D B} {chosen : List (Rule B)} {d : Document} {α : Type}
  {u : World B × List (Exchange B)}

theorem Loads.run {p : Program B α} (loads : Loads d u.2)
    (settles : p.Keeps settling () fun _ _ => True) :
    Loads d (p.run (Program.traced World.answer) u).2.2 := by
  obtain ⟨-, loads, -⟩ := settles.run (Program.traced World.answer) (fun u _ => Loads d u.2)
    (fun u _ request loads settles => ⟨trivial, loads.settled settles⟩) loads
  exact loads

/-- What a message may do up to the binding of its instance, it does to its end. -/
theorem Return.At.ends {token : CancelToken} {stored : Store} {a : Return} {p : Program B α}
    {post : α → Return → Prop} (at' : Return.At s rules token stored u a)
    (keeps : p.Keeps (returning s rules token stored) a post) :
    ∃ r b v, post r b ∧ Return.At s rules token stored v b ∧
      p.run (Program.traced World.answer) u = (some r, v) :=
  keeps.ends (Program.traced World.answer) (Return.At s rules token stored)
    (fun _ _ request at' owed => at'.answer request owed) id at'

theorem Return.At.loads {onMiss : MissHandler D B} {maxAttempts : Nat} {token : CancelToken}
    {stored : Store} (at' : Return.At s rules token stored u ⟨[], .none⟩)
    (starts : job.Starts s rules chosen) (finds : job.Finds s chosen stored d)
    {rest : Processed D B → Program B α}
    (settles : ∀ r, (rest r).Keeps settling () fun _ _ => True) :
    Loads d ((Incoming.runBound .request maxAttempts onMiss [⟨0, chosen, rules.indexed⟩]
      (Stage.dispatch .request fun m => return (m, .ok ())) job.incoming >>= rest).run
        (Program.traced World.answer) u).2.2 := by
  have binds : (Incoming.bindAll onMiss [⟨0, chosen, rules.indexed⟩] job.incoming).Keeps
      (returning s rules token stored) ⟨[], .none⟩ fun r a =>
        r.2 = .ok () ∧ a.received.loaded = [d] := by
    refine Incoming.keeps_bindAll_alone (Job.invocations_of_alone starts.alone) ?_
    rw [job.message_incoming, job.context_incoming]
    exact keeps_bindOne_again starts finds
  obtain ⟨⟨m, answer⟩, a, v, ⟨rfl, loaded⟩, at'', run⟩ := at'.ends binds
  have loads : Loads d v.2 := ⟨at''.received ▸ loaded, at''.created⟩
  unfold Incoming.runBound
  rw [Incoming.inTurn, Program.bind_assoc, Program.run_bind, run]
  exact loads.run ((keeps_rest maxAttempts _ m).bind fun r _ _ => settles r)

theorem keeps_reported (r : Processed D B) :
    (reported r).Keeps settling () fun _ _ => True := by
  obtain ⟨m, answer⟩ := r
  cases answer with
  | error e => exact ⟨trivial, fun _ _ => trivial⟩
  | ok => trivial

/-- A message with these locks to take, before its first request. -/
theorem Return.At.start {w : World B} {token : CancelToken} {keys : List String}
    (cache : (w.cache.get s.type).1 = .ok rules) (once : keys.Nodup)
    (free : ∀ key ∈ keys, w.locks.isHeld key = false)
    (uncancelled : keys ≠ [] → w.isCancelled token = false) :
    Return.At s rules token w.store (w, []) ⟨keys, .none⟩ where
  store := rfl
  cache := cache
  once := once
  free := free
  uncancelled := uncancelled
  received := rfl
  created _ member := nomatch member

/-- The one handler of the message is bound by the rules that it is served. -/
theorem Job.Starts.keeps_bindings (starts : job.Starts s rules chosen) {token : CancelToken}
    {stored : Store} (a : Return) :
    job.incoming.bindings.Keeps (returning s rules token stored) a fun r b =>
      b = a ∧ r = .ok [⟨0, chosen, rules.indexed⟩] :=
  Incoming.keeps_bindings_alone (Job.invocations_of_alone starts.alone) rfl rfl
    (fun _ expected => ⟨expected, rfl⟩) (job.message_incoming ▸ starts.accepted)

theorem Job.loads_without_locks {w : World B} (starts : job.Starts s rules chosen)
    (finds : job.Finds s chosen w.store d) (cache : (w.cache.get s.type).1 = .ok rules)
    (locking : job.locking = false) :
    Loads d (job.program.run (Program.traced World.answer) (w, [])).2.2 := by
  have start : Return.At s rules job.incoming.token w.store (w, []) ⟨[], .none⟩ :=
    .start cache List.nodup_nil nofun (absurd rfl)
  obtain ⟨-, -, u, ⟨rfl, rfl⟩, bound, run⟩ := start.ends (starts.keeps_bindings _)
  rw [Job.program_eq, locking]
  unfold Incoming.coordinate
  rw [Program.bind_assoc, Program.run_bind, run]
  exact bound.loads starts finds keeps_reported

/-- All locks are taken before the instance is bound, and given back afterwards. -/
theorem Job.loads_with_locks {w : World B} (starts : job.Starts s rules chosen)
    (finds : job.Finds s chosen w.store d) (cache : (w.cache.get s.type).1 = .ok rules)
    (locking : job.locking = true)
    (free : ∀ key ∈ job.keys rules chosen, w.locks.isHeld key = false)
    (uncancelled : job.keys rules chosen ≠ [] → w.isCancelled job.incoming.token = false) :
    Loads d (job.program.run (Program.traced World.answer) (w, [])).2.2 := by
  have notes : ∀ entry, (returning s rules job.incoming.token w.store).Ignores (.note entry) :=
    returning_ignores_note
  have start : Return.At s rules job.incoming.token w.store (w, [])
      ⟨job.keys rules chosen, .none⟩ :=
    .start cache (Incoming.keys_nodup _ _ _) free uncancelled
  rw [Job.program_eq, locking]
  unfold Incoming.coordinate
  rw [Program.bind_assoc, Program.run_bind]
  obtain ⟨-, -, u, ⟨rfl, rfl⟩, bound, run⟩ := start.ends (starts.keeps_bindings _)
  rw [run]
  dsimp only
  rw [if_pos rfl, Program.bind_assoc, Program.run_bind]
  obtain ⟨-, -, u, ⟨rfl, rfl⟩, bound, run⟩ :=
    bound.ends (Incoming.keeps_lockKeys notes job.incoming _ _ _)
  rw [run]
  dsimp only
  rw [Program.bind_assoc, Program.run_bind, show job.incoming.keys job.settings.lockBuckets
    [⟨0, chosen, rules.indexed⟩] = job.keys rules chosen from rfl]
  obtain ⟨-, -, u, ⟨⟨held, rfl⟩, rfl⟩, bound, run⟩ := bound.ends (keeps_takeAll [] _)
  rw [run]
  dsimp only
  rw [Program.bind_assoc]
  refine bound.loads starts finds fun r => ?_
  have released : (Incoming.releaseAll (B := B) held >>= fun _ => pure r).Keeps settling ()
      fun _ _ => True :=
    (Incoming.keeps_releaseAll settling_ignores.locks held ()).bind fun _ _ _ => trivial
  exact released.bind fun r _ _ => keeps_reported r

/-- A message whose values lead to an instance loads it, if its locks are free. -/
theorem Job.loads {w : World B} (starts : job.Starts s rules chosen)
    (finds : job.Finds s chosen w.store d) (cache : (w.cache.get s.type).1 = .ok rules)
    (free : job.locking = true → ∀ key ∈ job.keys rules chosen, w.locks.isHeld key = false)
    (uncancelled : job.locking = true → job.keys rules chosen ≠ [] →
      w.isCancelled job.incoming.token = false) :
    Loads d (job.program.run (Program.traced World.answer) (w, [])).2.2 := by
  cases locking : job.locking with
  | false => exact Job.loads_without_locks starts finds cache locking
  | true =>
    exact Job.loads_with_locks starts finds cache locking (free locking) (uncancelled locking)

end Again

/-! ## Both messages -/

section Both

variable {job : Job D B} {chosen : List (Rule B)} {w w' : World B} {past : List (Exchange B)}
  {m : Incoming D B} {d reply : Document} {values : List PropertyValue}

theorem Creation.At.start (cache : (w.cache.get s.type).1 = .ok rules) :
    Creation.At s rules looked w.store (w, []) ⟨.before, []⟩ where
  cache := cache
  before _ := rfl
  stored := nofun
  inserted _ _ _ member := nomatch member
  free _ member := nomatch member

/-- What the first message leaves: the instance as it was inserted, the rules, and free locks. -/
theorem Job.creates (distinct : s.dataType.Distinct) (starts : job.Starts s rules chosen)
    (cache : (w.cache.get s.type).1 = .ok rules)
    (misses : ∀ p ∈ job.yields chosen, w.store.find s.dataType.name p.name p.value = none)
    (processed : job.program.run (Program.traced World.answer) (w, []) =
      (some (m, .ok ()), w', past))
    (inserted : ⟨.insert d values, .ok reply⟩ ∈ past) :
    w.store.Inserts d values w'.store ∧ s.Carries (job.yields chosen) d values ∧
      (w'.cache.get s.type).1 = .ok rules ∧
      (job.locking = true → (∀ key ∈ job.keys rules chosen, w'.locks.isHeld key = false) ∧
        (job.keys rules chosen ≠ [] → job.incoming.token ≠ .fixed true)) := by
  obtain ⟨a, at', ended⟩ := (Job.keeps_creating distinct starts).run (Program.traced World.answer)
    (Creation.At s rules (job.yields chosen) w.store)
    (fun u a request at' owed => at'.answer misses request owed) (.start cache)
  rw [processed] at at' ended
  obtain ⟨inserts, carries⟩ := at'.stored d values (at'.inserted d values reply inserted)
  refine ⟨inserts, carries, at'.cache, fun locking => ?_⟩
  obtain ⟨given, uncancelled⟩ := ended _ rfl rfl locking
  exact ⟨fun key member => at'.free key (given key member), uncancelled⟩

/-- A message of its own is not called off unless it was before it came, and one of the pool not
before the pool is shut down. -/
theorem Job.uncancelled (unfired : job.incoming.token ≠ .fixed true)
    (opened : job.pooled = true → w.closed = false) : w.isCancelled job.incoming.token = false := by
  unfold incoming at unfired ⊢
  cases pooled : job.pooled with
  | true => exact opened pooled
  | false =>
    rw [pooled] at unfired
    exact Bool.eq_false_iff.2 fun fired => unfired (congrArg CancelToken.fixed fired)

/-- A message that a saga alone sees finds no instance and starts one. Whatever else is stored, once
the message has succeeded with its insert, every path that it yielded a value for holds the last
such value, and leads to the new instance unless the value is unset. If some path leads there, the
same message, processed once more, loads the new instance and creates none. (A pool that is shut
down processes nothing.) -/
theorem created_then_loaded (lossless : s.dataType.Lossless) (distinct : s.dataType.Distinct)
    (starts : job.Starts s rules chosen) (cache : (w.cache.get s.type).1 = .ok rules)
    (misses : ∀ p ∈ job.yields chosen, w.store.find s.dataType.name p.name p.value = none)
    (processed : job.program.run (Program.traced World.answer) (w, []) =
      (some (m, .ok ()), w', past))
    (inserted : ⟨.insert d values, .ok reply⟩ ∈ past) :
    w'.store.find s.dataType.name identityPath (.uuid d.id) = some d ∧
      (∃ data, Invocation.read s d = .ok data ∧ ∀ p ∈ job.yields chosen,
        ∃ v, PropertyValue.last? p.name (job.yields chosen) = some v ∧
          s.dataType.valueAt p.name data = some v ∧
          (PropertyValue.Sought ⟨p.name, v⟩ →
            w'.store.find s.dataType.name p.name v = some d)) ∧
      ((∃ p ∈ job.yields chosen, ∃ v, PropertyValue.last? p.name (job.yields chosen) = some v ∧
          PropertyValue.Sought ⟨p.name, v⟩) →
        (job.pooled = true → w'.closed = false) →
          Loads d (job.program.run (Program.traced World.answer) (w', [])).2.2) := by
  obtain ⟨inserts, carries, cache', locks⟩ :=
    Job.creates distinct starts cache misses processed inserted
  obtain ⟨present, data, reads, holds⟩ := finds_created lossless distinct inserts carries
  refine ⟨present, ⟨data, reads, holds⟩, ?_⟩
  rintro ⟨p, member, v, last, sought⟩ opened
  have yielded : ⟨p.name, v⟩ ∈ job.yields chosen := PropertyValue.mem_of_last? last
  have found : w'.store.find s.dataType.name p.name v = some d := by
    obtain ⟨v', last', -, found⟩ := holds p member
    cases last.symm.trans last'
    exact found sought
  exact Job.loads starts (Job.finds_again inserts misses ⟨data, reads⟩ yielded found) cache'
    (fun locking => (locks locking).1)
    fun locking some => Job.uncancelled ((locks locking).2 some) opened

end Both

/-! ## A posting, twice -/

section Tally

open Demo

/-- A message that posts to a name, under locks. -/
def renting : Job Tally Posting :=
  ⟨.default, true, .logAndSkip, Tally.registry true, Tally.post "rent" 5, false⟩

theorem renting_starts :
    renting.Starts (Tally.saga true) Tally.rules Tally.rules.rules where
  alone := by rfl
  starts := by decide +kernel
  declared := by rfl
  accepted := by rfl
  settles inst _ _ path _ := by
    unfold DataType.valueAt
    cases known : Tally.dataType.table.get? path with
    | none => rw [show (Tally.saga true).dataType.table.get? path = none from known]; rfl
    | some a =>
      rw [show (Tally.saga true).dataType.table.get? path = some a from known]
      obtain ⟨-, rfl⟩ | ⟨-, rfl⟩ := Tally.path_cases known <;> rfl

/-- The first posting to a name creates its tally, and the same posting once more loads it. -/
theorem rent_created_then_loaded :
    let first := renting.program.run (Program.traced World.answer) (.start .default, [])
    ∃ d, first.2.1.store.find "demo.tally" "Name" (.string "rent") = some d ∧
      Loads d (renting.program.run (Program.traced World.answer) (first.2.1, [])).2.2 := by
  intro first
  have succeeds : first.1.any (·.2.isOk) = true := by decide +kernel
  have inserts : first.2.2.any (·.inserts) = true := by decide +kernel
  obtain ⟨⟨m, answer⟩, ended, isOk⟩ := (Option.any_eq_true ..).1 succeeds
  obtain ⟨x, member, isInsert⟩ := List.any_eq_true.1 inserts
  obtain ⟨d, values, reply, rfl⟩ := Exchange.eq_of_inserts isInsert
  cases answer with
  | error e => cases isOk
  | ok =>
    have processed : renting.program.run (Program.traced World.answer) (.start .default, []) =
        (some (m, .ok ()), first.2.1, first.2.2) := Prod.ext ended rfl
    obtain ⟨-, ⟨data, -, holds⟩, again⟩ := created_then_loaded Tally.lossless Tally.distinct
      renting_starts (by rfl) (by decide +kernel) processed member
    have yielded : ⟨"Name", .string "rent"⟩ ∈ renting.yields Tally.rules.rules := by
      decide +kernel
    have last : PropertyValue.last? "Name" (renting.yields Tally.rules.rules) =
        some (.string "rent") := by decide +kernel
    obtain ⟨v, last', -, found⟩ := holds _ yielded
    cases last.symm.trans last'
    exact ⟨d, found (.inr rfl), again ⟨_, yielded, _, last, .inr rfl⟩ Bool.noConfusion⟩

end Tally

end Sagas
