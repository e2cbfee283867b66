import Sagas.Proofs.Data
import Sagas.Proofs.Rules
import Sagas.Proofs.Single

/-!
# One message that initiates an instance

Several messages may each start an instance of one saga under one value. The standing of a message
in this race says which identity its new instance got, what it has found, how many writes it has
lost and how many it has made. Whatever it meets, a message

* writes at most once: an insert of the instance it created, before it has lost any write, or an
  update of what it found last, at the revision it was found at;
* goes on after a lost write with the instance that won, if its saga resolves conflicts, and fails
  with `concurrency` if not.

What it may expect is that values are found as soon as it has lost a write, and that it loses fewer
writes than there are messages. That the store meets this is a matter of all messages together.

Results:
1. `keeps_rounds`: the retry loop, which has an attempt left after every lost write.
2. `keeps_bindOne`, `keeps_handlers`, `keeps_writes`: the stages of a message.
3. `Job.keeps_racing`: a whole message.
-/

namespace Sagas

structure Standing where
  /-- The identity of the instance that was created. -/
  own : Option Uuid
  /-- What the last successful lookup found. -/
  seen : Option Document
  /-- How many writes were lost. -/
  conflicts : Nat
  inserts : Nat
  /-- How many writes were made, inserts or updates. -/
  commits : Nat

namespace Standing

variable {B : Type}

def zero : Standing := ⟨none, none, 0, 0, 0⟩

def next (a : Standing) : (request : Request B) → Reply request → Standing
  | .find .., .ok (some d) => { a with seen := some d }
  | .freshId, id => { a with own := some id }
  | .insert .., .ok _ => { a with inserts := a.inserts + 1, commits := a.commits + 1 }
  | .insert .., .error (.conflict _) => { a with conflicts := a.conflicts + 1 }
  | .update .., .ok _ => { a with commits := a.commits + 1 }
  | .update .., .error (.conflict _) => { a with conflicts := a.conflicts + 1 }
  | _, _ => a

end Standing

/-! ## What is raced for -/

variable {D B : Type}

/-- The document reads as data of the saga that hold this value. -/
def Saga.Holds (s : Saga D B) (path : String) (v : Scalar) (d : Document) : Prop :=
  ∃ data, Invocation.read s d = .ok data ∧ s.dataType.valueAt path data = some v

/-- The contract of one of `n` messages that initiate the saga by a value of a path. -/
def racing (s : Saga D B) (path : String) (v : Scalar) (n : Nat) : Contract B Standing where
  owes a
    | .find type property value => type = s.dataType.name ∧
        (property = path ∧ value = v ∨ property = identityPath ∧ ∃ id, value = .uuid id ∧
          (a.own = some id ∨ ∃ d, a.seen = some d ∧ d.id = id))
    | .freshId => a.own = none
    | .insert d values => a.commits = 0 ∧ a.conflicts = 0 ∧ a.own = some d.id ∧
        d.revision = .initial ∧ s.Holds path v d ∧ ∀ key, key ∈ values ↔ key = ⟨path, v⟩
    | .update d values => a.commits = 0 ∧ (∃ e, a.seen = some e ∧ d.metadata = e.metadata) ∧
        a.conflicts ≤ d.revision.number + 1 ∧
        s.Holds path v { d with revision := d.revision.next } ∧
        ∀ key, key ∈ values ↔ key = ⟨path, v⟩
    | .delete _ => False
    | _ => True
  expects a
    | .find _ _ _, .ok (some d) => s.Holds path v d ∧ a.conflicts ≤ d.revision.number + 1
    | .find _ property value, .ok none =>
        if property = identityPath then ∀ d, a.seen = some d → value ≠ .uuid d.id
        else a.conflicts = 0
    | .find .., .error _ => False
    | .insert .., .error e => a.conflicts + 1 < n ∧ ∃ reason, e = .conflict reason
    | .update .., .error e => a.conflicts + 1 < n ∧ ∃ reason, e = .conflict reason
    | .rules type, reply => reply = type.declaration
    | .acquire .., reply => reply = .ok true
    | _, _ => True
  next := Standing.next
  dies := False

variable {s : Saga D B} {path : String} {v : Scalar} {n : Nat} {a : Standing}

theorem racing_ignores : (racing s path v n).IgnoresSurroundings where
  send _ _ := ⟨trivial, fun _ _ => rfl⟩
  draw _ := ⟨fun _ => trivial, fun _ _ => rfl⟩
  note _ := ⟨fun _ => trivial, fun _ _ => rfl⟩
  shutdown := ⟨fun _ => trivial, fun _ _ => rfl⟩
  acquire _ _ := ⟨fun _ => trivial, fun _ _ => rfl⟩
  release _ := ⟨fun _ => trivial, fun _ _ => rfl⟩

theorem racing_ignores_count (counter : Counter) : (racing s path v n).Ignores (.count counter) :=
  ⟨fun _ => trivial, fun _ _ => rfl⟩

/-- All rules of the saga are for one path, other than the identity. -/
structure Saga.CorrelatesBy (s : Saga D B) (path : String) (rules : RuleSet B) : Prop where
  declared : s.type.declaration = .ok rules
  only : ∀ r ∈ rules.rules, r.property = path
  other : path ≠ identityPath
  lossless : s.dataType.Lossless
  owns : s.dataType.Owns path

/-- A message that may start the saga, which nobody else sees, and which yields this value. Handling
it succeeds, sets no flag and leaves the metadata and the path alone; so does resolving. -/
structure Job.Initiates (job : Job D B) (s : Saga D B) (path : String) (rules : RuleSet B)
    (v : Scalar) : Prop where
  handlers : job.incoming.invocations.map (·.handler) = [.saga s]
  starts : s.isStartedBy job.delivery.message = true
  yields : ∃ chosen, rules.forMessage job.delivery.message = .ok chosen ∧
    (∃ r ∈ chosen, r.value? job.delivery.context job.delivery.message = some v) ∧
    ∀ r ∈ chosen, ∀ w, r.value? job.delivery.context job.delivery.message = some w → w = v
  handles : ∀ inst, (s.handle job.delivery.message job.delivery.context inst).Lives ∧
    (s.handle job.delivery.message job.delivery.context inst).Ends fun verdict =>
      verdict.outcome = .ok () ∧ verdict.completes = false ∧ verdict.keeps = false ∧
      s.dataType.metadata.get verdict.data = s.dataType.metadata.get inst.data ∧
      s.dataType.valueAt path verdict.data = s.dataType.valueAt path inst.data
  resolves : s.resolvesConflicts = true → ∀ own stored,
    (s.resolve job.delivery.message own stored).Lives ∧
    (s.resolve job.delivery.message own stored).Ends fun r =>
      r.2 = .ok () ∧ s.dataType.valueAt path r.1 = s.dataType.valueAt path own

namespace Saga.CorrelatesBy

variable {rules : RuleSet B}

theorem fits (correlates : s.CorrelatesBy path rules) {r : Rule B} (member : r ∈ rules.rules) :
    r.dataType = s.dataType.name ∧
      ∃ accessor, s.dataType.table.get? path = some accessor ∧ r.kind = accessor.kind := by
  have fits := Correlator.declare_eq_ok correlates.declared r member
  rw [DataType.Fits, correlates.only r member] at fits
  exact fits

/-- What is stored of data holds what the data hold. -/
theorem holds (correlates : s.CorrelatesBy path rules) {d : D}
    (value : s.dataType.valueAt path d = some v) (m : Metadata) :
    s.Holds path v ⟨m.id, m.revision, s.dataType.name, s.dataType.encode d⟩ :=
  ⟨_, correlates.lossless.read d rfl rfl, (correlates.owns.valueAt_set d _).trans value⟩

/-- The values of an instance: the one that is raced for. -/
theorem mem_valuesOf (correlates : s.CorrelatesBy path rules) {d : D}
    (value : s.dataType.valueAt path d = some v) {group : List (Rule B)}
    (among : ∀ r ∈ group, r ∈ rules.rules) (some : group ≠ []) (key : PropertyValue) :
    key ∈ Invocation.valuesOf s d group ↔ key = ⟨path, v⟩ := by
  obtain ⟨accessor, known, rfl⟩ := Option.map_eq_some_iff.1 value
  obtain ⟨r, listed⟩ := List.exists_mem_of_ne_nil group some
  exact Invocation.mem_valuesOf_iff known (fun r member => correlates.only r (among r member))
    listed (correlates.fits (among r listed)).1 key

end Saga.CorrelatesBy

namespace Race

variable {rules : RuleSet B} {job : Job D B}

/-! ## The instance at hand -/

/-- The data are those that were created, or those that were found last. -/
def Stands (s : Saga D B) (a : Standing) (mode : Commit.Mode) (data : D) : Prop :=
  match mode with
  | .insert => a.conflicts = 0 ∧ ∃ id, a.own = some id ∧
      s.dataType.metadata.get data = ⟨id, .initial⟩
  | .update => ∃ e, a.seen = some e ∧ s.dataType.metadata.get data = e.metadata ∧
      a.conflicts ≤ e.revision.number + 1

/-- The invocation is about to insert what it created, or to update what it found last. -/
structure Ready (s : Saga D B) (path : String) (v : Scalar) (message : Message B) (a : Standing)
    (mode : Commit.Mode) (i : Invocation D B) : Prop where
  handler : i.handler = .saga s
  message : i.message = message
  runs : i.skipped = false
  unwritten : a.commits = 0
  bound : ∃ data, i.bound = some (.ofData data (mode = .insert)) ∧
    s.dataType.valueAt path data = some v ∧ Stands s a mode data

theorem Ready.stands {message : Message B} {mode : Commit.Mode} {i : Invocation D B} {data : D}
    (ready : Ready s path v message a mode i)
    (isBound : i.bound = some (.ofData data (mode = .insert))) :
    s.dataType.valueAt path data = some v ∧ Stands s a mode data := by
  obtain ⟨data', isBound', value, stands⟩ := ready.bound
  have same : Instance.ofData data' (mode = .insert) = .ofData data (mode = .insert) :=
    Option.some.inj (isBound'.symm.trans isBound)
  obtain rfl : data' = data := congrArg Instance.data same
  exact ⟨value, stands⟩

/-- A write of this mode is for this identity. -/
def Identifies (a : Standing) (mode : Commit.Mode) (id : Uuid) : Prop :=
  match mode with
  | .insert => a.own = some id
  | .update => ∃ e, a.seen = some e ∧ e.id = id

/-- How a commit ends: with one write, or with a lost one if the saga does not resolve conflicts. -/
def Committed (s : Saga D B) (r : Commit.Outcome D B) (a : Standing) : Prop :=
  match r.2 with
  | .ok () => a.commits = 1
  | .error e => s.resolvesConflicts = false ∧ a.commits = 0 ∧ 0 < a.conflicts ∧
      ∃ name id reason, e = .concurrency name id reason

/-- The state that won is found: under the own identity for an update, else under the value. -/
theorem keeps_fetchFresh {document : Document} {values : List PropertyValue} {mode : Commit.Mode}
    (typed : document.dataType = s.dataType.name) (lost : 0 < a.conflicts)
    (own : Identifies a mode document.id)
    (carried : ∀ key, key ∈ values ↔ key = ⟨path, v⟩) (other : path ≠ identityPath)
    (set : v.isUnset = false) :
    (Commit.fetchFresh document values mode).Keeps (racing s path v n) a fun r b =>
      ∃ fresh, r = .ok (some fresh) ∧ s.Holds path v fresh ∧
        a.conflicts ≤ fresh.revision.number + 1 ∧ b = { a with seen := some fresh } := by
  have owed : a.own = some document.id ∨ ∃ d, a.seen = some d ∧ d.id = document.id := by
    cases mode with
    | insert => exact .inl own
    | update => exact .inr own
  refine ⟨⟨typed, .inr ⟨rfl, _, rfl, owed⟩⟩, fun reply expected => ?_⟩
  rcases reply with e | _ | fresh
  · exact expected.elim
  · have absent : ∀ d, a.seen = some d → Scalar.uuid document.id ≠ .uuid d.id := expected
    cases mode with
    | update =>
      obtain ⟨e, seen, same⟩ := own
      exact absurd (congrArg Scalar.uuid same.symm) (absent e seen)
    | insert =>
      -- The first value to look up is the one that is raced for, and it is there.
      have indexed : ⟨path, v⟩ ∈ values.filter Commit.isIndexed :=
        List.mem_filter.2 ⟨(carried _).2 rfl, by simp [Commit.isIndexed, other, set]⟩
      cases filtered : values.filter Commit.isIndexed with
      | nil => simp [filtered] at indexed
      | cons key rest =>
        have first : key ∈ values :=
          (List.mem_filter.1 (filtered ▸ List.mem_cons_self : key ∈ values.filter _)).1
        obtain rfl := (carried key).1 first
        refine ⟨⟨typed, .inl ⟨rfl, rfl⟩⟩, fun reply expected => ?_⟩
        rcases reply with e | _ | fresh
        · exact expected.elim
        · have unlost : a.conflicts = 0 := (if_neg other).mp expected
          omega
        · exact ⟨fresh, rfl, expected.1, expected.2, rfl⟩
  · exact ⟨fresh, rfl, expected.1, expected.2, rfl⟩

/-- A lost write leads to the state that won, if conflicts are resolved. -/
theorem keeps_resolveConflict {i : Invocation D B} {mode : Commit.Mode} {attempt : Nat}
    {document : Document} {values : List PropertyValue}
    {again : Invocation D B → Program B (Commit.Outcome D B)}
    {post : Commit.Outcome D B → Standing → Prop}
    (correlates : s.CorrelatesBy path rules) (set : v.isUnset = false)
    (initiates : job.Initiates s path rules v) (resolving : s.resolvesConflicts = true)
    {data : D} {isNew : Bool} (isSaga : i.handler = .saga s)
    (isMessage : i.message = job.delivery.message) (runs : i.skipped = false)
    (isBound : i.bound = some (.ofData data isNew))
    (value : s.dataType.valueAt path data = some v) (unwritten : a.commits = 0)
    (typed : document.dataType = s.dataType.name) (lost : 0 < a.conflicts)
    (own : Identifies a mode document.id)
    (carried : ∀ key, key ∈ values ↔ key = ⟨path, v⟩)
    (further : ∀ j b, Ready s path v job.delivery.message b .update j → b.conflicts = a.conflicts →
      (again j).Keeps (racing s path v n) b post) :
    (Commit.resolveConflict .request attempt mode document values again i).Keeps
      (racing s path v n) a post := by
  have ignores : (racing s path v n).IgnoresSurroundings := racing_ignores
  refine Commit.keeps_resolveConflict ignores.note ?_
  refine (keeps_fetchFresh typed lost own carried correlates.other set).imp ?_
  rintro r b ⟨fresh, rfl, ⟨stored, reads, -⟩, bound, rfl⟩
  obtain ⟨lives, ends⟩ := initiates.resolves resolving data stored
  refine (Invocation.keeps_resolve_read isSaga isBound reads ignores.toIgnoresActs
    (isMessage ▸ ends) (.inr (isMessage ▸ lives))).imp ?_
  rintro ⟨j, answer⟩ c ⟨rfl, merged, outcome, ⟨rfl, kept⟩, -, rfl, merges⟩
  obtain rfl : j = _ := merges rfl
  show (Program.call _ >>= Program.done).Keeps _ _ _
  refine Program.keeps_ignored_bind (racing_ignores_count _) fun _ => ?_
  have stands : Stands s { a with seen := some fresh } .update
      (s.dataType.metadata.set merged fresh.metadata) := ⟨fresh, rfl, by simp, bound⟩
  refine further _ _ ⟨isSaga, isMessage, runs, unwritten, _, rfl, ?_, stands⟩ rfl
  rw [correlates.owns.valueAt_set, kept, value]

/-- The data are identified as their write expects. -/
theorem Stands.identifies {mode : Commit.Mode} {data : D} (stands : Stands s a mode data) :
    Identifies a mode (s.dataType.id data) := by
  cases mode with
  | insert =>
    obtain ⟨-, id, own, same⟩ := stands
    exact own.trans (congrArg some (congrArg Metadata.id same).symm)
  | update =>
    obtain ⟨e, seen, same, -⟩ := stands
    exact ⟨e, seen, (congrArg Metadata.id same).symm⟩

theorem keeps_write {i : Invocation D B} {mode : Commit.Mode} {group : List (Rule B)} {data : D}
    {post : Except StorageError Document → Standing → Prop}
    (correlates : s.CorrelatesBy path rules) (among : ∀ r ∈ group, r ∈ rules.rules)
    (covered : group ≠ []) (ready : Ready s path v job.delivery.message a mode i)
    (isBound : i.bound = some (.ofData data (mode = .insert)))
    (stored : ∀ d b, b.commits = 1 → post (.ok d) b)
    (lost : ∀ reason, a.conflicts + 1 < n →
      post (.error (.conflict reason)) { a with conflicts := a.conflicts + 1 }) :
    (Commit.write mode (s.dataType.toDocument data) (Invocation.valuesOf s data group)).Keeps
      (racing s path v n) a post := by
  obtain ⟨value, stands⟩ := ready.stands isBound
  have identifies := stands.identifies
  have carried := correlates.mem_valuesOf value among covered
  have holds := correlates.holds value
  cases mode with
  | insert =>
    obtain ⟨unlost, id, own, same⟩ := stands
    refine ⟨⟨ready.unwritten, unlost, identifies, congrArg Metadata.revision same, holds ⟨_, _⟩,
      carried⟩, fun reply expected => ?_⟩
    cases reply with
    | ok d => exact stored d _ (congrArg (· + 1) ready.unwritten)
    | error e =>
      obtain ⟨few, reason, rfl⟩ := expected
      exact lost reason few
  | update =>
    obtain ⟨e, seen, same, bound⟩ := stands
    have revision : (s.dataType.toDocument data).revision = e.revision :=
      congrArg Metadata.revision same
    refine ⟨⟨ready.unwritten, ⟨e, seen, same⟩, revision ▸ bound, holds ⟨_, _⟩, carried⟩,
      fun reply expected => ?_⟩
    cases reply with
    | ok d => exact stored d _ (congrArg (· + 1) ready.unwritten)
    | error e =>
      obtain ⟨few, reason, rfl⟩ := expected
      exact lost reason few

theorem keeps_round {i : Invocation D B} {mode : Commit.Mode} {attempt : Nat}
    {group : List (Rule B)} {again : Option (Invocation D B → Program B (Commit.Outcome D B))}
    (correlates : s.CorrelatesBy path rules) (set : v.isUnset = false)
    (initiates : job.Initiates s path rules v) (among : ∀ r ∈ group, r ∈ rules.rules)
    (covered : group ≠ []) (ready : Ready s path v job.delivery.message a mode i)
    (left : again = none → s.resolvesConflicts = true → n ≤ a.conflicts + 1)
    (further : ∀ more ∈ again, ∀ j b, Ready s path v job.delivery.message b .update j →
      b.conflicts = a.conflicts + 1 → (more j).Keeps (racing s path v n) b (Committed s)) :
    (Commit.round .request group attempt mode again i).Keeps (racing s path v n) a
      (Committed s) := by
  obtain ⟨data, isBound, value, stands⟩ := ready.bound
  refine Commit.keeps_round ready.handler isBound racing_ignores.note (racing_ignores_count _)
    (racing_ignores_count _) (keeps_write correlates among covered ready isBound ?_ ?_)
  · exact fun d b once => once
  · intro reason few
    show ite _ _ _
    split
    next resolving =>
      cases again with
      | none =>
        have := left rfl resolving
        omega
      | some again =>
        exact keeps_resolveConflict correlates set initiates resolving ready.handler ready.message
          ready.runs isBound value ready.unwritten rfl (Nat.succ_pos _) stands.identifies
          (correlates.mem_valuesOf value among covered) (further again rfl)
    next refuses => exact ⟨by simpa using refuses, ready.unwritten, Nat.succ_pos _, _, _, _, rfl⟩

/-- After every lost write an attempt is left, as fewer writes are lost than there are messages. -/
theorem keeps_rounds {i : Invocation D B} {mode : Commit.Mode} {maxAttempts : Nat}
    {group : List (Rule B)} (correlates : s.CorrelatesBy path rules) (set : v.isUnset = false)
    (initiates : job.Initiates s path rules v) (among : ∀ r ∈ group, r ∈ rules.rules)
    (covered : group ≠ []) (ready : Ready s path v job.delivery.message a mode i)
    (enough : s.resolvesConflicts = true → n ≤ maxAttempts) :
    (Commit.persist .request maxAttempts group mode i).Keeps (racing s path v n) a
      (Committed s) := by
  -- The writes lost so far and the attempts left make up for all messages.
  refine Commit.keeps_rounds (fun more mode i b => Ready s path v job.delivery.message b mode i ∧
    (s.resolvesConflicts = true → n ≤ b.conflicts + more + 1)) ?_ ?_
    ⟨ready, fun resolving => by have := enough resolving; omega⟩
  · rintro attempt mode i b ⟨ready, left⟩
    exact keeps_round correlates set initiates among covered ready (fun _ => left) nofun
  · rintro more attempt mode again i b ⟨ready, left⟩ further
    refine keeps_round correlates set initiates among covered ready nofun ?_
    intro again' member j c ready same
    obtain rfl := Option.some.inj member
    exact further j c ⟨ready, fun resolving => by have := left resolving; omega⟩

/-! ## Binding -/

/-- What a message binds first, and has bound before it writes. -/
def Prepared (s : Saga D B) (path : String) (v : Scalar) (message : Message B) (i : Invocation D B)
    (a : Standing) : Prop :=
  a.conflicts = 0 ∧ ∃ mode, Ready s path v message a mode i

/-- Assigning one value to its path, any number of times. -/
theorem assigned_same {accessor : Accessor D} {t : DataType D} (owns : t.Owns path)
    (known : t.table.get? path = some accessor) (kind : v.kind = accessor.kind)
    {values : List PropertyValue} (all : ∀ p ∈ values, p = ⟨path, v⟩) (d : D) :
    t.metadata.get (Invocation.assigned t.table values d) = t.metadata.get d ∧
      (values ≠ [] ∨ accessor.value d = v →
        accessor.value (Invocation.assigned t.table values d) = v) := by
  induction values generalizing d with
  | nil => exact ⟨rfl, fun holds => holds.resolve_left (absurd rfl)⟩
  | cons p rest ih =>
    obtain rfl := all p List.mem_cons_self
    obtain ⟨e, assigned, value⟩ := accessor.assign?_of_kind kind d
    obtain ⟨metadata, holds⟩ := ih (fun p member => all p (List.mem_cons_of_mem _ member)) e
    rw [Invocation.assigned, known, Option.bind_some, assigned, Option.getD_some]
    exact ⟨metadata.trans (owns.metadata_assign known assigned), fun _ => holds (.inr value)⟩

/-- A new instance holds the value that was looked up. -/
theorem newData_holds {values : List PropertyValue} (correlates : s.CorrelatesBy path rules)
    {r : Rule B} (member : r ∈ rules.rules) (kind : v.kind = r.kind)
    (all : ∀ p ∈ values, p = ⟨path, v⟩) (looked : values ≠ []) (fresh : Uuid) :
    s.dataType.valueAt path (Invocation.newData s values fresh) = some v ∧
      s.dataType.metadata.get (Invocation.newData s values fresh) = ⟨fresh, .initial⟩ := by
  obtain ⟨-, accessor, known, same⟩ := correlates.fits member
  obtain ⟨metadata, holds⟩ := assigned_same correlates.owns known (kind.trans same) all
    (s.dataType.metadata.set s.dataType.blank ⟨fresh, .initial⟩)
  refine ⟨?_, metadata.trans (s.dataType.metadata.get_set _ _)⟩
  unfold DataType.valueAt Invocation.newData
  rw [known, Option.map_some, holds (.inl looked)]

/-- The invocation of the saga before anything is bound. -/
abbrev unbound (s : Saga D B) (job : Job D B) : Invocation D B :=
  .start (.saga s) job.delivery.message (!job.pooled)

theorem keeps_bindFound {r : Rule B} {d : Document} (holds : s.Holds path v d) :
    (Incoming.bindFound r d (unbound s job)).Keeps (racing s path v n)
      { Standing.zero with seen := some d } fun r a =>
        r.2 = .ok () ∧ Prepared s path v job.delivery.message r.1 a := by
  have ignores : (racing s path v n).IgnoresSurroundings := racing_ignores
  obtain ⟨data, reads, value⟩ := holds
  obtain ⟨-, decoded, -, rfl⟩ := Invocation.read_eq_ok reads
  refine (Invocation.keeps_load ignores.note (unbound s job) d false _).bind ?_
  rintro ⟨j, answer⟩ a ⟨rfl, loads⟩
  have bind : (unbound s job).bind d false = .ok { unbound s job with
      bound := some (.ofData (s.dataType.metadata.set decoded d.metadata) false) } := by
    show (Invocation.read s d).map _ = _
    rw [reads]
    rfl
  rw [bind] at loads
  cases loads
  refine Program.keeps_ignored_bind (racing_ignores_count _) fun _ => ?_
  refine Program.keeps_ignored_bind (ignores.note _) fun _ => ?_
  exact ⟨rfl, rfl, .update, rfl, rfl, rfl, rfl, _, rfl, value, d, rfl, by simp, Nat.zero_le _⟩

theorem keeps_bindNew {message : Message B} {values : List PropertyValue}
    (correlates : s.CorrelatesBy path rules) {r : Rule B} (member : r ∈ rules.rules)
    (kind : v.kind = r.kind) (all : ∀ p ∈ values, p = ⟨path, v⟩) (looked : values ≠ []) :
    (Incoming.bindNew message values (unbound s job)).Keeps (racing s path v n) .zero fun r a =>
      r.2 = .ok () ∧ Prepared s path v job.delivery.message r.1 a := by
  have ignores : (racing s path v n).IgnoresSurroundings := racing_ignores
  have creates : ((unbound s job).create values).Keeps (racing s path v n) .zero fun r a =>
      (∃ id, r.2 = .ok id) ∧ Prepared s path v job.delivery.message r.1 a := by
    refine Invocation.keeps_create ignores.note rfl rfl fun fresh _ => ⟨⟨_, rfl⟩, rfl, .insert, ?_⟩
    obtain ⟨value, metadata⟩ := newData_holds correlates member kind all looked fresh
    exact ⟨rfl, rfl, rfl, rfl, _, rfl, value, rfl, fresh, rfl, metadata⟩
  refine creates.bind ?_
  rintro ⟨j, answer⟩ a ⟨⟨id, rfl⟩, prepared⟩
  refine Program.keeps_ignored_bind (racing_ignores_count _) fun _ => ?_
  exact Program.keeps_ignored_bind (ignores.note _) fun _ => ⟨rfl, prepared⟩

theorem keeps_bindOne {onMiss : MissHandler D B} {chosen : List (Rule B)}
    (correlates : s.CorrelatesBy path rules) (initiates : job.Initiates s path rules v)
    (accepted : rules.forMessage job.delivery.message = .ok chosen) :
    (Incoming.bindOne onMiss job.delivery.message job.delivery.context chosen
      (unbound s job)).Keeps (racing s path v n) .zero fun r a =>
        r.2 = .ok () ∧ Prepared s path v job.delivery.message r.1 a := by
  have ignores : (racing s path v n).IgnoresSurroundings := racing_ignores
  obtain ⟨_, accepted', ⟨first, listed, yielded⟩, only⟩ := initiates.yields
  cases accepted.symm.trans accepted'
  have declared := fun r member => RuleSet.mem_of_forMessage (r := r) accepted member
  refine (Incoming.keeps_lookUp ignores.note (fun _ _ _ => rfl) ?_ []).bind ?_
  · intro r member w yields
    exact ⟨(correlates.fits (declared r member)).1,
      .inl ⟨correlates.only r (declared r member), only r member w yields⟩⟩
  intro result a looked
  rcases result with e | ⟨r, d⟩ | values
  · obtain ⟨r, -, value, -, expected, -⟩ := looked
    exact expected.elim
  · obtain ⟨-, value, -, expected, rfl⟩ := looked
    exact keeps_bindFound expected.1
  · obtain ⟨rfl, listed', -⟩ := looked
    have starts : job.delivery.message.hierarchy.any (unbound s job).isInitiatedBy = true :=
      initiates.starts
    show (ite _ _ _ : Program B _).Keeps _ _ _
    rw [if_pos starts]
    -- Every rule that yields anything yields the one value, and one of them does.
    have exactly : ∀ p, p ∈ values → p = ⟨path, v⟩ := by
      intro p member
      rw [listed', List.nil_append] at member
      obtain ⟨r, among, yields⟩ := List.mem_filterMap.1 member
      obtain ⟨w, isValue, rfl⟩ := Option.map_eq_some_iff.1 yields
      rw [only r among w isValue, correlates.only r (declared r among)]
    have looked : values ≠ [] := by
      have member : (⟨first.property, v⟩ : PropertyValue) ∈ values := by
        rw [listed', List.nil_append]
        exact List.mem_filterMap.2 ⟨first, listed, by rw [yielded]; rfl⟩
      exact List.ne_nil_of_mem member
    exact keeps_bindNew correlates (declared first listed) (Rule.kind_of_value? yielded) exactly
      looked

/-! ## The whole message -/

variable {m : Incoming D B}

/-- Only the saga sees the message. -/
theorem invocations_eq (initiates : job.Initiates s path rules v) :
    job.incoming.invocations = [unbound s job] :=
  Job.invocations_of_alone initiates.handlers

theorem keeps_bindings (initiates : job.Initiates s path rules v) {chosen : List (Rule B)}
    (correlates : s.CorrelatesBy path rules)
    (accepted : rules.forMessage job.delivery.message = .ok chosen) :
    job.incoming.bindings.Keeps (racing s path v n) .zero fun r a =>
      a = .zero ∧ r = .ok [⟨0, chosen, rules.indexed⟩] :=
  Incoming.keeps_bindings_alone (invocations_eq initiates) rfl trivial
    (fun _ expected => ⟨expected.trans correlates.declared, rfl⟩) (job.message_incoming ▸ accepted)

theorem keeps_bindAll {onMiss : MissHandler D B} {chosen : List (Rule B)}
    (correlates : s.CorrelatesBy path rules) (initiates : job.Initiates s path rules v)
    (accepted : rules.forMessage job.delivery.message = .ok chosen) :
    (Incoming.bindAll onMiss [⟨0, chosen, rules.indexed⟩] job.incoming).Keeps (racing s path v n)
      .zero fun r a => r.2 = .ok () ∧ ∃ i, r.1.invocations = [i] ∧
        r.1.context = job.delivery.context ∧ Prepared s path v job.delivery.message i a := by
  refine Incoming.keeps_bindAll_alone (invocations_eq initiates) ?_
  rw [job.message_incoming, job.context_incoming]
  refine (keeps_bindOne correlates initiates accepted).imp ?_
  rintro ⟨j, answer⟩ a ⟨rfl, prepared⟩
  exact ⟨rfl, j, rfl, rfl, prepared⟩

theorem Ready.handled {i : Invocation D B} {mode : Commit.Mode} {data : D} {verdict : Verdict D}
    (ready : Ready s path v job.delivery.message a mode i)
    (isBound : i.bound = some (.ofData data (mode = .insert)))
    (metadata : s.dataType.metadata.get verdict.data = s.dataType.metadata.get data)
    (value : s.dataType.valueAt path verdict.data = s.dataType.valueAt path data)
    (unmarked : verdict.completes = false ∧ verdict.keeps = false) :
    Ready s path v job.delivery.message a mode
      { i with bound := some ((Instance.ofData data (mode = .insert)).after verdict) } := by
  obtain ⟨value', stands⟩ := ready.stands isBound
  refine ⟨ready.handler, ready.message, ready.runs, ready.unwritten, verdict.data, ?_,
    value.trans value', ?_⟩
  · simp [Instance.after, Instance.ofData, unmarked]
  · unfold Stands at stands ⊢
    rw [metadata]
    exact stands

theorem keeps_handlers {i : Invocation D B} (initiates : job.Initiates s path rules v)
    (alone : m.invocations = [i]) (context : m.context = job.delivery.context)
    (prepared : Prepared s path v job.delivery.message i a) :
    (Stage.dispatch .request (fun m => return (m, .ok ())) m).Keeps (racing s path v n) a
      fun r b => r.2 = .ok () ∧ ∃ j, r.1.invocations = [j] ∧
        Prepared s path v job.delivery.message j b := by
  have ignores : (racing s path v n).IgnoresSurroundings := racing_ignores
  obtain ⟨unlost, mode, ready⟩ := prepared
  obtain ⟨data, isBound, -⟩ := ready.bound
  obtain ⟨lives, ends⟩ := initiates.handles (.ofData data (mode = .insert))
  rw [← ready.message, ← context] at lives ends
  refine Incoming.keeps_dispatch_alone alone ready.runs ((Invocation.keeps_invoke_saga ready.runs
    ready.handler isBound ignores.toIgnoresActs ends (.inr lives)).imp ?_)
  rintro r b ⟨rfl, verdict, ⟨succeeds, completes, keeps, metadata, value⟩, rfl⟩
  rw [succeeds]
  exact ⟨rfl, _, rfl, unlost, mode, ready.handled isBound metadata value ⟨completes, keeps⟩⟩

/-- How a message ends: as its commit does. -/
def Raced (s : Saga D B) (r : Processed D B) (a : Standing) : Prop :=
  match r.2 with
  | .ok () => a.commits = 1
  | .error e => s.resolvesConflicts = false ∧ a.commits = 0 ∧ 0 < a.conflicts ∧
      ∃ name id reason, e = .concurrency name id reason

theorem keeps_writes {i : Invocation D B} {maxAttempts : Nat} {chosen : List (Rule B)}
    (correlates : s.CorrelatesBy path rules) (set : v.isUnset = false)
    (initiates : job.Initiates s path rules v) (declared : rules.rules ≠ [])
    (enough : s.resolvesConflicts = true → n ≤ maxAttempts) (alone : m.invocations = [i])
    (prepared : Prepared s path v job.delivery.message i a) :
    (Incoming.persist .request maxAttempts [⟨0, chosen, rules.indexed⟩] m).Keeps
      (racing s path v n) a (Raced s) := by
  have ignores : (racing s path v n).IgnoresSurroundings := racing_ignores
  obtain ⟨unlost, mode, ready⟩ := prepared
  obtain ⟨data, isBound, -⟩ := ready.bound
  have group : ∀ r ∈ RuleSet.distinctPaths [] rules.indexed, r ∈ rules.rules := fun r member =>
    RuleSet.mem_indexed ((RuleSet.mem_distinctPaths member).resolve_left List.not_mem_nil)
  have covered : RuleSet.distinctPaths [] rules.indexed ≠ [] := by
    obtain ⟨r, member⟩ := List.exists_mem_of_ne_nil _ declared
    obtain ⟨indexed, isIndexed, -⟩ := RuleSet.indexed_covers member
    obtain ⟨kept, isKept, -⟩ := RuleSet.distinctPaths_covers (.inr isIndexed)
    exact List.ne_nil_of_mem isKept
  refine Incoming.keeps_persist_alone alone ready.runs ready.handler isBound ignores.note
    (racing_ignores_count _) (Incoming.keeps_inTurn_single
      (Incoming.keeps_onInvocation_alone alone ?_))
  have isMode : (if (Instance.ofData data (mode = .insert)).isNew then Commit.Mode.insert
      else .update) = mode := by
    cases mode <;> rfl
  rw [isMode]
  refine (keeps_rounds correlates set initiates group covered ready enough).imp ?_
  rintro ⟨j, answer⟩ b committed
  cases answer with
  | ok => exact committed
  | error e => exact committed

end Race

end Sagas
