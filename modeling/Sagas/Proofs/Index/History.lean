import Sagas.Proofs.Data
import Sagas.Proofs.Index.Message
import Sagas.Proofs.World

/-!
# Which paths find a stored instance

A stored instance is found through a path exactly if the last write of the instance carried a value
for that path. A write carries the paths of the sagas that its message bound to the instance, so an
instance that one saga indexed under a path is lost to that path when the next write comes from a
saga of the same data that does not declare it. In a uniform registry that cannot happen.

Results:
1. `Sound.answer`: one request keeps what is known of rows, their last writes and the rule cache.
2. `sound_after`: every history of messages keeps it.
3. `found_iff_last_written`: the index after a history, path by path.
-/

namespace Sagas

variable {D B σ : Type}

/-! ## Histories -/

/-- The state after messages that are processed one after the other. -/
def Bus.after (bus : Bus D B) (answer : Program.Answering B σ) (s : σ)
    (history : List (Delivery B)) : σ :=
  history.foldl (fun s delivery => ((bus.process delivery).run answer s).2) s

/-- All requests of a history with their answers, the latest first. -/
def Bus.calls (bus : Bus D B) (answer : Program.Answering B σ) (s : σ)
    (history : List (Delivery B)) : List (Exchange B) :=
  (bus.after (Program.traced answer) (s, []) history).2

theorem Bus.after_traced (bus : Bus D B) (answer : Program.Answering B σ) (s : σ)
    (past : List (Exchange B)) (history : List (Delivery B)) :
    (bus.after (Program.traced answer) (s, past) history).1 = bus.after answer s history := by
  induction history generalizing s past with
  | nil => rfl
  | cons delivery rest ih =>
    have first := (Program.run_traced answer (bus.process delivery) s past).2
    show (bus.after _ ((bus.process delivery).run _ (s, past)).2 rest).1 = _
    rw [← Prod.mk.eta (p := ((bus.process delivery).run (Program.traced answer) (s, past)).2), ih,
      first]
    rfl

/-- The values that a call has written to an instance. -/
def Exchange.wrote? (dataType : String) (id : Uuid) : Exchange B → Option (List PropertyValue)
  | ⟨.insert d values, .ok _⟩ => if d.dataType = dataType ∧ d.id = id then some values else none
  | ⟨.update d values, .ok _⟩ => if d.dataType = dataType ∧ d.id = id then some values else none
  | _ => none

def lastWrite (dataType : String) (id : Uuid) (past : List (Exchange B)) :
    Option (List PropertyValue) :=
  past.findSome? (·.wrote? dataType id)

/-- The paths for which the last write of an instance carried a value. -/
def lastPaths (dataType : String) (id : Uuid) (past : List (Exchange B)) : List String :=
  ((lastWrite dataType id past).getD []).map (·.name)

theorem lastWrite_quiet {dataType : String} {id : Uuid} {x : Exchange B}
    {past : List (Exchange B)} (quiet : x.wrote? dataType id = none) :
    lastWrite dataType id (x :: past) = lastWrite dataType id past := by
  simp [lastWrite, quiet]

theorem lastWrite_wrote {dataType : String} {id : Uuid} {x : Exchange B}
    {past : List (Exchange B)} {values : List PropertyValue}
    (wrote : x.wrote? dataType id = some values) :
    lastWrite dataType id (x :: past) = some values := by
  simp [lastWrite, wrote]

/-! ## What every request keeps -/

/-- A stored row is as its last write left it. -/
def AsWritten (registry : Registry D B) (past : List (Exchange B)) (dataType : String) (id : Uuid)
    (row : Row) : Prop :=
  ∃ d values, lastWrite dataType id past = some values ∧ Written registry d values ∧
    row.keys = Partition.keysOf values ∧
    row.document = { d with revision := row.document.revision }

/-- Whatever the cache has built under the name of a saga is what that saga declares. -/
def RuleCache.Truthful (cache : RuleCache B) (registry : Registry D B) : Prop :=
  ∀ s ∈ registry.sagas, ∀ built, cache.built.get? s.name = some built →
    built.dataType = s.dataType.name ∧ built.rules = s.type.declaration

structure Sound (registry : Registry D B) (w : World B) (past : List (Exchange B)) : Prop where
  consistent : w.store.Consistent
  rows : ∀ {dataType id row}, w.store.row? dataType id = some row →
    AsWritten registry past dataType id row
  cache : registry.Uniform → w.cache.Truthful registry

variable {registry : Registry D B} {w : World B} {past : List (Exchange B)}

/-- A request that writes nothing. -/
theorem Sound.quiet (sound : Sound registry w past) {x : Exchange B} {v : World B}
    (store : v.store = w.store) (cache : v.cache = w.cache)
    (quiet : ∀ dataType id, x.wrote? dataType id = none) : Sound registry v (x :: past) where
  consistent := store ▸ sound.consistent
  rows {dataType id row} present := by
    rw [store] at present
    obtain ⟨d, values, last, rest⟩ := sound.rows present
    exact ⟨d, values, (lastWrite_quiet (quiet dataType id)).trans last, rest⟩
  cache uniform := cache ▸ sound.cache uniform

theorem RuleCache.Truthful.get {cache : RuleCache B} (truthful : cache.Truthful registry)
    (uniform : registry.Uniform) {s : Saga D B} (known : s ∈ registry.sagas) :
    (cache.get s.type).1 = s.type.declaration ∧ (cache.get s.type).2.Truthful registry := by
  unfold RuleCache.get
  cases found : cache.built.get? s.type.name with
  | some built =>
    obtain ⟨typed, declared⟩ := truthful s known built found
    exact ⟨(if_pos typed).trans declared, truthful⟩
  | none =>
    refine ⟨rfl, fun s' known' built found' => ?_⟩
    rw [Dictionary.get?_insert] at found'
    split at found'
    next same =>
      have types : s'.type = s.type := uniform.named s' known' s known same
      obtain rfl := Option.some.inj found'
      exact ⟨(congrArg SagaType.dataType types).symm, (congrArg SagaType.declaration types).symm⟩
    next => exact truthful s' known' built found'

theorem Sound.rules (sound : Sound registry w past) {s : Saga D B} (known : s ∈ registry.sagas) :
    (indexing registry).expects () (.rules s.type) (World.answer (.rules s.type) w).1 ∧
      Sound registry (World.answer (.rules s.type) w).2
        (⟨.rules s.type, (World.answer (.rules s.type) w).1⟩ :: past) := by
  obtain ⟨reply, cache⟩ := w.answer_rules s.type
  have store : (World.answer (.rules s.type) w).2.store = w.store := World.answers (.rules s.type) w
  constructor
  · cases answer : (World.answer (.rules s.type) w).1 with
    | error e => trivial
    | ok rules =>
      intro uniform
      exact ((sound.cache uniform).get uniform known).1.symm.trans (reply.symm.trans answer)
  · refine ⟨store ▸ sound.consistent, fun present => ?_, fun uniform => ?_⟩
    · rw [store] at present
      exact sound.rows present
    · rw [cache]
      exact ((sound.cache uniform).get uniform known).2

/-- A write that succeeds leaves the row of its instance as written, and no other. -/
theorem Sound.wrote (sound : Sound registry w past) {x : Exchange B} {v : World B} {d : Document}
    {values : List PropertyValue} {stored : Document} (consistent : v.store.Consistent)
    (cache : v.cache = w.cache) (written : Written registry d values)
    (same : stored = { d with revision := stored.revision })
    (row : ∀ dataType id, v.store.row? dataType id =
      if dataType = d.dataType ∧ id = d.id then some ⟨stored, Partition.keysOf values⟩
      else w.store.row? dataType id)
    (wrote : ∀ dataType id, x.wrote? dataType id =
      if d.dataType = dataType ∧ d.id = id then some values else none) :
    Sound registry v (x :: past) where
  consistent := consistent
  rows {dataType id r} present := by
    rw [row] at present
    split at present
    next here =>
      obtain rfl := Option.some.inj present
      refine ⟨d, values, lastWrite_wrote ?_, written, rfl, same⟩
      rw [wrote, if_pos ⟨here.1.symm, here.2.symm⟩]
    next elsewhere =>
      obtain ⟨e, values', last, rest⟩ := sound.rows present
      refine ⟨e, values', (lastWrite_quiet ?_).trans last, rest⟩
      rw [wrote, if_neg fun here => elsewhere ⟨here.1.symm, here.2.symm⟩]
  cache uniform := cache ▸ sound.cache uniform

theorem Sound.answer (sound : Sound registry w past) (request : Request B)
    (owed : (indexing registry).owes () request) :
    (indexing registry).expects () request (World.answer request w).1 ∧
      Sound registry (World.answer request w).2
        (⟨request, (World.answer request w).1⟩ :: past) := by
  have kept := sound.consistent.answers (World.answers request w)
  cases request with
  | rules type =>
    obtain ⟨s, known, rfl⟩ := owed
    exact sound.rules known
  | insert d values =>
    refine ⟨trivial, ?_⟩
    rcases w.store.insert_cases d values with ⟨e, failed⟩ | ⟨done, inserts⟩
    · refine sound.quiet (congrArg Prod.snd failed) rfl fun _ _ => ?_
      have reply : (World.answer (.insert d values) w).1 = .error e := congrArg Prod.fst failed
      rw [reply]
      rfl
    · refine sound.wrote kept rfl owed rfl inserts.row fun _ _ => ?_
      have reply : (World.answer (.insert d values) w).1 = .ok d := done
      rw [reply]
      rfl
  | update d values =>
    refine ⟨trivial, ?_⟩
    rcases w.store.update_cases d values with ⟨reason, failed⟩ | ⟨old, done, updates⟩
    · refine sound.quiet (congrArg Prod.snd failed) rfl fun _ _ => ?_
      have reply : (World.answer (.update d values) w).1 = .error (.conflict reason) :=
        congrArg Prod.fst failed
      rw [reply]
      rfl
    · refine sound.wrote kept rfl owed rfl updates.row fun _ _ => ?_
      have reply : (World.answer (.update d values) w).1 =
          .ok { d with revision := d.revision.next } := done
      rw [reply]
      rfl
  | delete d =>
    refine ⟨trivial, kept, fun {dataType id row} present => ?_, sound.cache⟩
    obtain ⟨e, values, last, rest⟩ := sound.rows (Store.row?_of_delete present)
    exact ⟨e, values, (lastWrite_quiet rfl).trans last, rest⟩
  | find dataType property value =>
    exact ⟨trivial, sound.quiet rfl rfl fun _ _ => rfl⟩
  | shutdown =>
    have cache := w.cache_answer .shutdown nofun
    exact ⟨trivial, sound.quiet (World.answers .shutdown w) cache fun _ _ => rfl⟩
  | _ => exact ⟨trivial, sound.quiet rfl rfl fun _ _ => rfl⟩

/-! ## Every history -/

variable {settings : Settings} {locking : Bool} {onMiss : MissHandler D B} {nesting : Nat}

theorem sound_start (settings : Settings) : Sound registry (World.start settings : World B) [] where
  consistent := Store.consistent_empty
  rows present := nomatch present
  cache _ _ _ _ found := nomatch found

theorem Sound.process (sound : Sound registry w past) (delivery : Delivery B) :
    let s := (((Bus.standard settings locking onMiss registry nesting).process delivery).run
      (Program.traced World.answer) (w, past)).2
    Sound registry s.1 s.2 := by
  have keeps : ((Bus.standard settings locking onMiss registry nesting).process delivery).Keeps
      (indexing registry) () fun _ _ => True := Bus.keeps_indexing delivery
  obtain ⟨-, sound', -⟩ := keeps.run (Program.traced World.answer)
    (fun s _ => Sound registry s.1 s.2) (fun s _ request sound owed => sound.answer request owed)
    (show Sound registry (w, past).1 (w, past).2 from sound)
  exact sound'

theorem sound_after (sound : Sound registry w past) (history : List (Delivery B)) :
    let s := (Bus.standard settings locking onMiss registry nesting).after
      (Program.traced World.answer) (w, past) history
    Sound registry s.1 s.2 := by
  induction history generalizing w past with
  | nil => exact sound
  | cons delivery rest ih => exact ih (sound.process delivery)

/-- What is stored after a history. -/
theorem sound_of_history (history : List (Delivery B)) :
    let bus := Bus.standard settings locking onMiss registry nesting
    Sound registry (bus.after World.answer (.start settings) history)
      (bus.calls World.answer (.start settings) history) := by
  intro bus
  rw [← bus.after_traced World.answer (.start settings) []]
  exact sound_after (sound_start settings) history

/-! ## Finding an instance -/

/-- A value that is not unset finds a row exactly if the row was last written with it. -/
theorem Store.Consistent.find_iff {s : Store} (kept : s.Consistent) {dataType path : String}
    {id : Uuid} {row : Row} (present : s.row? dataType id = some row) (other : path ≠ identityPath)
    (value : Scalar) :
    s.find dataType path value = some row.document ↔ ⟨path, value⟩ ∈ row.keys := by
  rw [Store.find_property other]
  constructor
  · intro found
    obtain ⟨row', named, same⟩ := Option.map_eq_some_iff.1 found
    obtain ⟨id', owned, present'⟩ := Option.bind_eq_some_iff.1 named
    have sameId : id' = id := by
      rw [← kept.id present', same, kept.id present]
    subst sameId
    obtain ⟨row'', present'', member⟩ := kept.owner.1 owned
    cases present.symm.trans present''
    exact member
  · intro member
    rw [kept.owner.2 ⟨row, present, member⟩, Option.bind_some, present]
    rfl

/-- After any history of messages, a stored instance is found through the current value of a path
exactly if its last write carried the path. In a uniform registry every write carries every path
that a saga of the data type declares. -/
theorem found_iff_last_written (lossless : ∀ s ∈ registry.sagas, s.dataType.Lossless)
    (owned : ∀ s ∈ registry.sagas, ∀ path, path ≠ identityPath → s.dataType.Owns path)
    (shared : ∀ s ∈ registry.sagas, ∀ s' ∈ registry.sagas, s.dataType.name = s'.dataType.name →
      s.dataType = s'.dataType) (history : List (Delivery B)) :
    let bus := Bus.standard settings locking onMiss registry nesting
    let w := bus.after World.answer (.start settings) history
    let past := bus.calls World.answer (.start settings) history
    ∀ s ∈ registry.sagas, ∀ id row, w.store.row? s.dataType.name id = some row →
      ∃ data, Invocation.read s row.document = .ok data ∧
        ∀ path accessor, path ≠ identityPath → s.dataType.table.get? path = some accessor →
          (accessor.value data).isUnset = false →
            (w.store.find s.dataType.name path (accessor.value data) = some row.document ↔
              path ∈ lastPaths s.dataType.name id past) ∧
            (registry.Uniform →
              (∃ s' ∈ registry.sagas, s'.dataType.name = s.dataType.name ∧ s'.Declares path) →
              w.store.find s.dataType.name path (accessor.value data) = some row.document) := by
  intro bus w past s known id row present
  have sound : Sound registry w past := sound_of_history history
  obtain ⟨d, values, last, ⟨s₀, known₀, data, rules, rfl, rfl, covers⟩, keys, stored⟩ :=
    sound.rows present
  have typed : s₀.dataType.name = s.dataType.name :=
    (congrArg Document.dataType stored).symm.trans (sound.consistent.dataType present)
  have same := shared s₀ known₀ s known typed
  have reads := (lossless s known).read data (sound.consistent.dataType present)
    (same ▸ congrArg Document.body stored)
  refine ⟨_, reads, fun path accessor other isPath set => ?_⟩
  rw [(owned s known path other).value_set isPath] at set ⊢
  have names : lastPaths s.dataType.name id past =
      (Invocation.valuesOf s₀ data rules).map (·.name) := by
    unfold lastPaths
    rw [last]
    rfl
  -- The keys of the row are what its last write carried, which are values of these very data.
  have found : w.store.find s.dataType.name path (accessor.value data) = some row.document ↔
      path ∈ lastPaths s.dataType.name id past := by
    rw [sound.consistent.find_iff present other, keys, Partition.mem_keysOf, names]
    constructor
    · exact fun carried => List.mem_map_of_mem carried.1
    · intro carried
      obtain ⟨p, member, rfl⟩ := List.mem_map.1 carried
      obtain ⟨-, -, -, -, accessor', isPath', value⟩ := Invocation.mem_valuesOf member
      rw [same, isPath] at isPath'
      cases isPath'
      exact ⟨value ▸ member, other, set⟩
  refine ⟨found, fun uniform declared => found.2 ?_⟩
  obtain ⟨s', known', typed', declares⟩ := declared
  obtain ⟨rule, among, isTyped, rfl⟩ :=
    covers uniform s' known' (typed'.trans typed.symm) path other declares
  rw [names]
  exact List.mem_map_of_mem (Invocation.valuesOf_covers among isTyped (same ▸ isPath))

/-! ## A tally under two sagas -/

section Tally

open Demo

def tallies : Bus Tally Posting :=
  .standard .default false .logAndSkip (Tally.registry true) 1

/-- The first identifier that a world gives out. -/
def firstId : Uuid := (World.start .default : World Posting).supply 1

theorem sagas_of_tallies {s : Saga Tally Posting} (known : s ∈ (Tally.registry true).sagas) :
    s = Tally.saga true ∨ s = Tally.clearing := by
  simpa [Registry.sagas, Tally.registry, Registry.add, Registry.empty, Handler.saga?] using known

theorem dataType_of_tallies {s : Saga Tally Posting} (known : s ∈ (Tally.registry true).sagas) :
    s.dataType = Tally.dataType := by
  rcases sagas_of_tallies known with rfl | rfl <;> rfl

/-- A tally that was posted to is found by its name. -/
theorem posted_tally_found :
    let w := tallies.after World.answer (.start .default) [Tally.post "rent" 5]
    ∃ row, w.store.row? "demo.tally" firstId = some row ∧
      w.store.find "demo.tally" "Name" (.string "rent") = some row.document := by
  intro w
  have present : w.store.row? "demo.tally" firstId =
      some ⟨⟨firstId, .initial, "demo.tally", .arr [.str "rent", .int 5]⟩,
        [⟨"Name", .string "rent"⟩]⟩ := by rfl
  refine ⟨_, present, ?_⟩
  obtain ⟨data, reads, paths⟩ := found_iff_last_written
    (fun s known => dataType_of_tallies known ▸ Tally.lossless)
    (fun s known path other => dataType_of_tallies known ▸ Tally.owns other)
    (fun s known s' known' _ => (dataType_of_tallies known).trans (dataType_of_tallies known').symm)
    [Tally.post "rent" 5] (Tally.saga true) (by simp [Registry.sagas, Tally.registry, Registry.add,
      Registry.empty, Handler.saga?]) firstId _ present
  cases reads
  exact (paths "Name" _ (by decide) rfl (by decide +kernel)).1.2 (by decide +kernel)

/-- A saga that knows tallies by their identity alone takes the name of a tally out of the index,
although the tally still has its name, and the saga that gave it declares the path. -/
theorem cleared_tally_lost :
    let history := [Tally.post "rent" 5, Tally.clear firstId]
    let w := tallies.after World.answer (.start .default) history
    lastWrite "demo.tally" firstId (tallies.calls World.answer (.start .default)
        [Tally.post "rent" 5]) = some [⟨"Name", .string "rent"⟩] ∧
      (Tally.saga true).Declares "Name" ∧
      (∃ row, w.store.row? "demo.tally" firstId = some row ∧
        Invocation.read (Tally.saga true) row.document =
          .ok ⟨⟨firstId, ⟨1⟩⟩, "rent", 0⟩) ∧
      w.store.find "demo.tally" "Name" (.string "rent") = none := by
  refine ⟨by decide +kernel, ⟨_, rfl, _, List.mem_singleton_self _, rfl⟩, ⟨_, rfl, rfl⟩, by rfl⟩

end Tally

end Sagas
