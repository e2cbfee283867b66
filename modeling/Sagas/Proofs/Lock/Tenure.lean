import Sagas.Proofs.Data
import Sagas.Proofs.Lock.Owner
import Sagas.Proofs.Rules
import Sagas.Proofs.Single

/-!
# A message that works under its keys

All sagas of a data type correlate by one path, and a message takes the keys of all values that it
yields before it looks the first of them up. So it reads and writes only what its keys are for:

* it looks up values whose keys it has;
* it inserts under an identity of its own, or one that it has looked up in vain, and with a value
  that is not set, or one that it has looked up in vain;
* it updates and deletes only what it has found, as it has found it and under the same value.

As long as it has not written, it may count on what it has looked up. Then no write of it meets a
conflict, which this module takes for granted; that storage keeps its part is a matter of all
messages together.

Results:
1. `Keyed.newData`: what a new instance is, and what values it holds.
2. `keeps_lookUp_exclusive`, `Exclusive.keeps_bindOne`: what is bound, under which keys.
3. `Job.keeps_exclusive`: a whole message.
-/

namespace Sagas

variable {D B : Type}

/-! ## The path of all rules -/

/-- What a data type promises of the path that its sagas correlate by. It is the identity, or a
field of the author's own, which comes back from storage as it was and is not set in blank data:
otherwise instances that were created without a value would all have the same one. -/
inductive DataType.Keyed (t : DataType D) (path : String) : Prop
  | identity : path = identityPath →
      t.table.get? path = some ⟨identityPath, .uuid, t.metadata.comp Metadata.idLens⟩ → Keyed t path
  | field : path ≠ identityPath → t.Owns path → t.Lossless →
      (∀ v, t.valueAt path t.blank = some v → v.isUnset = true) → Keyed t path

/-- The document, at whatever revision, is one of data that hold this value. -/
def DataType.Reads (t : DataType D) (path : String) (v : Scalar) (d : Document) : Prop :=
  ∀ decoded, t.decode d.body = .ok decoded →
    ∀ revision, t.valueAt path (t.metadata.set decoded ⟨d.id, revision⟩) = some v

/-- All rules are for one path of the data type. -/
structure RuleSet.For (rules : RuleSet B) (t : DataType D) (path : String) : Prop where
  fits : ∀ r ∈ rules.rules, t.Fits r
  only : ∀ r ∈ rules.rules, r.property = path

theorem RuleSet.For.typed {rules : RuleSet B} {t : DataType D} {path : String} {a : Accessor D}
    (isFor : rules.For t path) (known : t.table.get? path = some a) {r : Rule B}
    (member : r ∈ rules.rules) : r.dataType = t.name ∧ r.kind = a.kind := by
  obtain ⟨typed, b, known', kind⟩ := isFor.fits r member
  rw [isFor.only r member] at known'
  cases known.symm.trans known'
  exact ⟨typed, kind⟩

namespace DataType.Keyed

variable {t : DataType D} {path : String} {a : Accessor D} {d e : D} {v : Scalar}
  {values : List PropertyValue}

theorem valueAt_identity (known : t.table.get? identityPath =
    some ⟨identityPath, .uuid, t.metadata.comp Metadata.idLens⟩) (d : D) :
    t.valueAt identityPath d = some (.uuid (t.id d)) := by
  unfold valueAt
  rw [known]
  rfl

theorem kind (keyed : t.Keyed path) (known : t.table.get? path = some a)
    (isIdentity : path = identityPath) : a.kind = .uuid := by
  cases keyed with
  | identity _ identity =>
    cases known.symm.trans identity
    rfl
  | field other => exact absurd isIdentity other

/-- What is stored of data reads as data with the same value. -/
theorem reads (keyed : t.Keyed path) (holds : t.valueAt path d = some v) (revision : Revision) :
    t.Reads path v ⟨t.id d, revision, t.name, t.encode d⟩ := by
  intro decoded decodes revision
  cases keyed with
  | identity isIdentity known =>
    subst isIdentity
    rw [valueAt_identity known] at holds ⊢
    cases holds
    unfold DataType.id
    rw [t.metadata.get_set]
  | field other owns lossless unset =>
    have same := lossless d ⟨t.id d, revision⟩
    rw [show t.decode (t.encode d) = .ok decoded from decodes] at same
    have stored : t.metadata.set decoded ⟨t.id d, revision⟩ =
        t.metadata.set d ⟨t.id d, revision⟩ := Except.ok.inj same
    rw [stored, owns.valueAt_set, holds]

/-- Assigning to the path leaves the revision, and the identity unless the path is that. -/
theorem assign (keyed : t.Keyed path) (known : t.table.get? path = some a)
    (assigned : a.assign? v d = some e) :
    t.revision e = t.revision d ∧ (path ≠ identityPath → t.id e = t.id d) := by
  cases keyed with
  | identity isIdentity identity =>
    cases known.symm.trans identity
    obtain ⟨x, -, rfl⟩ := Option.map_eq_some_iff.1 assigned
    refine ⟨?_, fun other => absurd isIdentity other⟩
    show (t.metadata.get (t.metadata.set d _)).revision = _
    rw [t.metadata.get_set]
    rfl
  | field other owns lossless unset =>
    have same := owns.metadata_assign known assigned
    exact ⟨congrArg Metadata.revision same, fun _ => congrArg Metadata.id same⟩

/-- Of several values that are put into the path, one stays. -/
theorem assigned (keyed : t.Keyed path) (known : t.table.get? path = some a)
    (fit : ∀ p ∈ values, p.name = path ∧ p.value.kind = a.kind) (d : D) :
    t.revision (Invocation.assigned t.table values d) = t.revision d ∧
      (path ≠ identityPath → t.id (Invocation.assigned t.table values d) = t.id d) ∧
      (values = [] ∨
        ∃ p ∈ values, a.value (Invocation.assigned t.table values d) = p.value) := by
  induction values generalizing d with
  | nil => exact ⟨rfl, fun _ => rfl, .inl rfl⟩
  | cons p rest ih =>
    obtain ⟨⟨named, kind⟩, fit⟩ := List.forall_mem_cons.1 fit
    obtain ⟨e, assigned, value⟩ := a.assign?_of_kind kind d
    obtain ⟨revision, id⟩ := keyed.assign known assigned
    obtain ⟨revision', id', last⟩ := ih fit e
    rw [Invocation.assigned, named, known, Option.bind_some, assigned, Option.getD_some]
    refine ⟨revision'.trans revision, fun other => (id' other).trans (id other), .inr ?_⟩
    rcases last with rfl | ⟨q, member, same⟩
    · exact ⟨p, List.mem_cons_self, value⟩
    · exact ⟨q, List.mem_cons_of_mem _ member, same⟩

/-- A new instance holds one of the values that it was given. Without any it holds none that is set,
and has the identity that was drawn for it; so it has if the path is not the identity. -/
theorem newData {s : Saga D B} (keyed : s.dataType.Keyed path)
    (known : s.dataType.table.get? path = some a)
    (fit : ∀ p ∈ values, p.name = path ∧ p.value.kind = a.kind) (fresh : Uuid) :
    let data := Invocation.newData s values fresh
    s.dataType.revision data = .initial ∧ ∃ v, s.dataType.valueAt path data = some v ∧
      (path = identityPath → v = .uuid (s.dataType.id data)) ∧
      (s.dataType.id data = fresh ∨ path = identityPath ∧ ∃ p ∈ values, p.value = v) ∧
      (path ≠ identityPath → v.isUnset = true ∨ ∃ p ∈ values, p.value = v) := by
  intro data
  have drawn := s.dataType.metadata.get_set s.dataType.blank ⟨fresh, .initial⟩
  obtain ⟨revision, id, last⟩ := keyed.assigned known fit
    (s.dataType.metadata.set s.dataType.blank ⟨fresh, .initial⟩)
  have holds : s.dataType.valueAt path data = some (a.value data) := by
    unfold valueAt
    rw [known]
    rfl
  refine ⟨revision.trans (congrArg Metadata.revision drawn), a.value data, holds, ?_, ?_, ?_⟩
  · rintro rfl
    cases keyed with
    | identity isIdentity identity =>
      rw [valueAt_identity identity] at holds
      exact (Option.some.inj holds).symm
    | field other => exact absurd rfl other
  · by_cases isIdentity : path = identityPath
    · rcases last with rfl | ⟨p, member, same⟩
      · exact .inl (congrArg Metadata.id drawn)
      · exact .inr ⟨isIdentity, p, member, same.symm⟩
    · exact .inl ((id isIdentity).trans (congrArg Metadata.id drawn))
  · intro other
    rcases last with rfl | ⟨p, member, same⟩
    · cases keyed with
      | identity isIdentity => exact absurd isIdentity other
      | field _ owns _ unset => exact .inl (unset _ ((owns.valueAt_set _ _).symm.trans holds))
    · exact .inr ⟨p, member, same.symm⟩

end DataType.Keyed

/-! ## The contract -/

structure Tenure where
  /-- The keys that the message has. -/
  keys : List String
  /-- The identity that it was given for a new instance. -/
  own : Option Uuid
  /-- The values that it has looked up, with what was found. -/
  looked : List (Scalar × Option Document)
  /-- It has written, or given a key back. -/
  spent : Bool

namespace Tenure

def zero : Tenure := ⟨[], none, [], false⟩

def next (a : Tenure) : (request : Request B) → Reply request → Tenure
  | .find _ _ v, .ok found => { a with looked := (v, found) :: a.looked }
  | .freshId, id => { a with own := some id }
  | .insert .., _ => { a with spent := true }
  | .update .., _ => { a with spent := true }
  | .delete _, _ => { a with spent := true }
  | .acquire key _, .ok true => { a with keys := key :: a.keys }
  | .release key, _ => { a with keys := a.keys.erase key, spent := true }
  | _, _ => a

/-- A new instance may have this identity and hold this value of the path: each of them is the
message's own, is nothing to look up, or was looked up in vain. -/
def Vacant (a : Tenure) (path : String) (id : Uuid) (v : Scalar) : Prop :=
  (a.own = some id ∨ path = identityPath ∧ (.uuid id, none) ∈ a.looked) ∧
    (path ≠ identityPath → v.isUnset = true ∨ (v, none) ∈ a.looked)

end Tenure

/-- A write is of data that hold this value of the path, and of that value alone. -/
structure DataType.Carries (t : DataType D) (path : String) (v : Scalar) (d : Document)
    (values : List PropertyValue) : Prop where
  typed : d.dataType = t.name
  reads : t.Reads path v d
  only : ∀ key, key ∈ values ↔ key = ⟨path, v⟩

/-- The contract of a message that works under the keys of its values. -/
def exclusive (t : DataType D) (path : String) (buckets : Option Nat) : Contract B Tenure where
  owes a
    | .find type property v => type = t.name ∧ property = path ∧
        (path = identityPath → v.kind = .uuid) ∧ Lock.key t.name path v buckets ∈ a.keys
    | .freshId => a.own = none
    | .insert d values => a.spent = false ∧ d.revision = .initial ∧
        ∃ v, t.Carries path v d values ∧ a.Vacant path d.id v
    | .update d values => a.spent = false ∧ ∃ v e, (v, some e) ∈ a.looked ∧
        d.metadata = e.metadata ∧ t.Carries path v d values
    | .delete d => a.spent = false ∧ d.dataType = t.name ∧
        ∃ v e, (v, some e) ∈ a.looked ∧ d.metadata = e.metadata
    | .count counter => counter ≠ .conflict
    | _ => True
  expects _
    | .find _ _ v, .ok (some d) => t.Reads path v d
    | .find .., .error _ => False
    | .insert .., .error _ => False
    | .update .., .error _ => False
    | .delete _, .error _ => False
    | .rules _, .ok rules => rules.For t path
    | _, _ => True
  next := Tenure.next
  dies := False

/-- The error says that a write was lost. -/
def SagaError.ofConflict : SagaError → Bool
  | .concurrency .. | .conflictRetriesExhausted .. | .sagaVanished .. => true
  | _ => false

/-- What has ended so has not failed for a lost write. -/
def Unconflicted : Except SagaError Unit → Prop
  | .ok () => True
  | .error e => e.ofConflict = false

section Exclusive

variable {t : DataType D} {path : String} {buckets : Option Nat} {a : Tenure}

theorem exclusive_acts : (exclusive (B := B) t path buckets).IgnoresActs Send.request where
  send _ _ := ⟨trivial, fun _ _ => rfl⟩
  draw _ := ⟨fun _ => trivial, fun _ _ => rfl⟩
  note _ := ⟨fun _ => trivial, fun _ _ => rfl⟩
  shutdown := ⟨fun _ => trivial, fun _ _ => rfl⟩

theorem exclusive_notes (entry : Entry) :
    (exclusive (B := B) t path buckets).Ignores (.note entry) :=
  exclusive_acts.note entry

theorem exclusive_counts {counter : Counter} (other : counter ≠ .conflict) :
    (exclusive (B := B) t path buckets).Ignores (.count counter) :=
  ⟨fun _ => other, fun _ _ => rfl⟩

/-! ## Taking keys and giving them back -/

namespace Incoming

end Incoming

/-! ## The instance at hand -/

/-- The data are new, and nothing is stored of them, or they were found under their value. -/
def Stands (t : DataType D) (path : String) (a : Tenure) (isNew : Bool) (data : D) : Prop :=
  a.spent = false ∧ ∃ v, t.valueAt path data = some v ∧
    if isNew then t.revision data = .initial ∧ a.Vacant path (t.id data) v
    else ∃ e, (v, some e) ∈ a.looked ∧ t.metadata.get data = e.metadata

/-- Handlers that leave the metadata and the path alone. -/
theorem Stands.congr {isNew : Bool} {data data' : D} (stands : Stands t path a isNew data)
    (metadata : t.metadata.get data' = t.metadata.get data)
    (value : t.valueAt path data' = t.valueAt path data) : Stands t path a isNew data' := by
  unfold Stands at stands ⊢
  unfold DataType.revision DataType.id at stands ⊢
  rw [metadata, value]
  exact stands

/-- The invocation of a message, with an instance, or with none. -/
structure Held (s : Saga D B) (path : String) (message : Message B) (a : Tenure)
    (i : Invocation D B) : Prop where
  handler : i.handler = .saga s
  message : i.message = message
  bound : (i.skipped = true ∨ i.bound = none) ∨ i.skipped = false ∧
    ∃ inst, i.bound = some inst ∧ Stands s.dataType path a inst.isNew inst.data

end Exclusive

/-- One saga alone sees the message, and takes keys for it, folded into so many buckets. All of its
rules are for the path. Its handler comes to an end, and leaves the identity, the revision and the
path of its instance alone. -/
structure Job.Exclusive (job : Job D B) (s : Saga D B) (path : String) (buckets : Option Nat) :
    Prop where
  handlers : job.incoming.invocations.map (·.handler) = [.saga s]
  locking : job.locking = true
  buckets : job.settings.lockBuckets = buckets
  rules : ∀ draft ∈ s.rules, draft.property = path
  handles : ∀ inst, (s.handle job.delivery.message job.delivery.context inst).Lives ∧
    (s.handle job.delivery.message job.delivery.context inst).Ends fun verdict =>
      s.dataType.metadata.get verdict.data = s.dataType.metadata.get inst.data ∧
      s.dataType.valueAt path verdict.data = s.dataType.valueAt path inst.data

/-- It leaves the identity, the revision and the path of a new instance alone as well, and an error
of its own blames no lost write. -/
def Recourse.Spares (recourse : Recourse) (s : Saga D B) (path : String) : Prop :=
  match recourse with
  | .create values => ∀ data,
      s.dataType.metadata.get (Invocation.assigned s.dataType.table values data) =
        s.dataType.metadata.get data ∧
      s.dataType.valueAt path (Invocation.assigned s.dataType.table values data) =
        s.dataType.valueAt path data
  | .fail e => e.ofConflict = false
  | .skip | .goOn => True

/-- Whatever the error handler decides about the message, it spares the path. -/
def MissHandler.Spares (onMiss : MissHandler D B) (message : Message B) (s : Saga D B)
    (path : String) : Prop :=
  ∀ rules i recourse, (onMiss.react rules i message).EndsIn recourse → recourse.Spares s path

section Stages

variable {s : Saga D B} {path : String} {buckets : Option Nat} {a : Tenure} {job : Job D B}
  {rules : RuleSet B} {chosen : List (Rule B)} {accessor : Accessor D} {m : Incoming D B}
  {i : Invocation D B}

/-! ## Binding -/

/-- The values fit the path, and were looked up in vain. -/
def Tenure.Tried (a : Tenure) (path : String) (accessor : Accessor D)
    (values : List PropertyValue) : Prop :=
  ∀ p ∈ values, p.name = path ∧ p.value.kind = accessor.kind ∧ (p.value, none) ∈ a.looked

theorem Tenure.tried_nil (a : Tenure) : a.Tried path accessor [] :=
  List.forall_mem_nil _

/-- What looking up values comes to, and what it leaves of the tenure `a`. -/
def Tenure.Looks (a : Tenure) (t : DataType D) (path : String) (accessor : Accessor D)
    (result : Except StorageError (Incoming.Lookup B)) (b : Tenure) : Prop :=
  b.own = a.own ∧ b.spent = a.spent ∧
    match result with
    | .error _ => False
    | .ok (.found _ d) => ∃ v, (v, some d) ∈ b.looked ∧ t.Reads path v d
    | .ok (.missed values) => b.Tried path accessor values

namespace Incoming

theorem keeps_lookUp_exclusive {t : DataType D} {message : Message B} {context : Context}
    {tried : List PropertyValue} (uuid : path = identityPath → accessor.kind = .uuid)
    (typed : ∀ r ∈ chosen, r.dataType = t.name ∧ r.kind = accessor.kind)
    (only : ∀ r ∈ chosen, r.property = path)
    (locked : ∀ r ∈ chosen, ∀ v, r.value? context message = some v →
      Lock.key t.name path v buckets ∈ a.keys)
    (before : a.Tried path accessor tried) :
    (lookUp message context tried chosen).Keeps (exclusive t path buckets) a
      (a.Looks t path accessor) := by
  induction chosen generalizing a tried with
  | nil => exact ⟨rfl, rfl, before⟩
  | cons r rest ih =>
    obtain ⟨⟨ofType, kind⟩, typed⟩ := List.forall_mem_cons.1 typed
    obtain ⟨named, only⟩ := List.forall_mem_cons.1 only
    obtain ⟨mine, locked⟩ := List.forall_mem_cons.1 locked
    refine (keeps_valueOf exclusive_notes message context r a).bind ?_
    rintro value b ⟨yields, rfl⟩
    cases value with
    | none => exact ih typed only locked before
    | some v =>
      have fits : v.kind = accessor.kind := (Rule.kind_of_value? yields.symm).trans kind
      refine Program.keeps_call_bind
        ⟨ofType, named, fun isIdentity => fits.trans (uuid isIdentity), mine v yields.symm⟩ ?_
      intro reply expected
      rcases reply with e | _ | d
      · exact expected.elim
      · refine ih typed only locked fun p member => ?_
        rcases List.mem_append.1 member with older | now
        · obtain ⟨named, fits, missed⟩ := before p older
          exact ⟨named, fits, List.mem_cons_of_mem _ missed⟩
        · obtain rfl := List.mem_singleton.1 now
          exact ⟨named, fits, List.mem_cons_self⟩
      · exact ⟨rfl, rfl, v, List.mem_cons_self, expected⟩

end Incoming

namespace Exclusive

/-- A new instance is its message's own if it holds nothing but what was looked up in vain. -/
theorem stands_newData (keyed : s.dataType.Keyed path)
    (known : s.dataType.table.get? path = some accessor) {values : List PropertyValue}
    (tried : a.Tried path accessor values) (unspent : a.spent = false) (fresh : Uuid) :
    Stands s.dataType path { a with own := some fresh } true
      (Invocation.newData s values fresh) := by
  obtain ⟨revision, v, holds, identifies, id, value⟩ :=
    keyed.newData known (fun p member => ⟨(tried p member).1, (tried p member).2.1⟩) fresh
  have missed : ∀ {v}, (∃ p ∈ values, p.value = v) → (v, none) ∈ a.looked := by
    rintro _ ⟨p, member, rfl⟩
    exact (tried p member).2.2
  refine ⟨unspent, v, holds, revision, ?_, ?_⟩
  · refine id.imp (fun drawn => congrArg some drawn.symm) ?_
    rintro ⟨isIdentity, among⟩
    exact ⟨isIdentity, identifies isIdentity ▸ missed among⟩
  · exact fun other => (value other).imp_right missed

theorem keeps_create {values : List PropertyValue} (unnamed : a.own = none)
    (isSaga : i.handler = .saga s) (runs : i.skipped = false)
    (stands : ∀ fresh, Stands s.dataType path { a with own := some fresh } true
      (Invocation.newData s values fresh)) :
    (i.create values).Keeps (exclusive s.dataType path buckets) a fun r b =>
      (∃ id, r.2 = .ok id) ∧ Held s path i.message b r.1 :=
  Invocation.keeps_create exclusive_acts.note isSaga unnamed fun fresh _ =>
    ⟨⟨_, rfl⟩, isSaga, rfl, .inr ⟨runs, _, rfl, stands fresh⟩⟩

theorem keeps_bindFound {r : Rule B} {v : Scalar} {d : Document} (unspent : a.spent = false)
    (isSaga : i.handler = .saga s) (runs : i.skipped = false)
    (found : (v, some d) ∈ a.looked) (reads : s.dataType.Reads path v d) :
    (Incoming.bindFound r d i).Keeps (exclusive s.dataType path buckets) a fun r b =>
      match r.2 with
      | .ok () => Held s path i.message b r.1
      | .error e => e.ofConflict = false := by
  refine (Invocation.keeps_load exclusive_notes i d false a).bind ?_
  rintro ⟨j, answer⟩ b ⟨rfl, loads⟩
  cases bind : i.bind d false with
  | error e =>
    rw [bind] at loads
    cases loads
    exact rfl
  | ok bound =>
    rw [bind] at loads
    cases loads
    obtain ⟨saga, data, isSaga', decodes, rfl⟩ := Invocation.bind_eq_ok bind
    cases isSaga.symm.trans isSaga'
    obtain ⟨-, decoded, isDecoded, rfl⟩ := Invocation.read_eq_ok decodes
    refine Program.keeps_ignored_bind (exclusive_counts (by simp)) fun _ => ?_
    refine Program.keeps_ignored_bind (exclusive_notes _) fun _ => ?_
    have holds := reads decoded isDecoded d.revision
    exact ⟨isSaga, rfl,
      .inr ⟨runs, _, rfl, unspent, v, holds, d, found, s.dataType.metadata.get_set _ _⟩⟩

theorem keeps_bindNone {onMiss : MissHandler D B} (spares : onMiss.Spares i.message s path)
    (keyed : s.dataType.Keyed path)
    (known : s.dataType.table.get? path = some accessor) (unnamed : a.own = none)
    (unspent : a.spent = false) (isSaga : i.handler = .saga s) (unbound : i.bound = none)
    (runs : i.skipped = false) :
    (Incoming.bindNone onMiss i.message chosen i).Keeps (exclusive s.dataType path buckets) a
      fun r b =>
        match r.2 with
        | .ok () => Held s path i.message b r.1
        | .error e => e.ofConflict = false := by
  have missed : (exclusive (B := B) s.dataType path buckets).Ignores (.count .correlationMiss) :=
    exclusive_counts (by simp)
  refine Incoming.keeps_bindNone exclusive_notes (missed.owes a) (missed.next a ())
    (fun _ => ⟨isSaga, rfl, .inl (.inl rfl)⟩) (fun values decided => ?_)
    (fun _ => ⟨isSaga, rfl, .inl (.inr unbound)⟩) (fun e decided => spares _ _ _ decided)
  have blank := stands_newData keyed known a.tried_nil unspent
  have spared := spares _ _ _ decided
  refine (keeps_create unnamed isSaga runs fun fresh =>
    (blank fresh).congr (spared _).1 (spared _).2).imp ?_
  rintro ⟨j, answer⟩ b ⟨⟨id, rfl⟩, held⟩
  exact held

/-- Under the keys of all values that the message yields, its instance is found or created. -/
theorem keeps_bindOne {onMiss : MissHandler D B} (spares : onMiss.Spares i.message s path)
    (keyed : s.dataType.Keyed path)
    (isFor : rules.For s.dataType path) (accepted : rules.forMessage i.message = .ok chosen)
    (known : s.dataType.table.get? path = some accessor) {context : Context}
    (locked : ∀ r ∈ chosen, ∀ v, r.value? context i.message = some v →
      Lock.key s.dataType.name path v buckets ∈ a.keys)
    (unnamed : a.own = none) (unspent : a.spent = false) (isSaga : i.handler = .saga s)
    (unbound : i.bound = none) (runs : i.skipped = false) :
    (Incoming.bindOne onMiss i.message context chosen i).Keeps
      (exclusive s.dataType path buckets) a fun r b =>
        match r.2 with
        | .ok () => Held s path i.message b r.1
        | .error e => e.ofConflict = false := by
  have declared := fun r member => RuleSet.mem_of_forMessage (r := r) accepted member
  refine (Incoming.keeps_lookUp_exclusive (keyed.kind known)
    (fun r member => isFor.typed known (declared r member))
    (fun r member => isFor.only r (declared r member)) locked a.tried_nil).bind ?_
  rintro result b ⟨own, spent, looks⟩
  rcases result with e | ⟨r, d⟩ | values
  · exact looks.elim
  · obtain ⟨v, found, reads⟩ := looks
    exact keeps_bindFound (spent.trans unspent) isSaga runs found reads
  · show (ite _ _ _ : Program B _).Keeps _ _ _
    split
    next =>
      refine (keeps_create (own.trans unnamed) isSaga runs
        (stands_newData keyed known looks (spent.trans unspent))).bind ?_
      rintro ⟨j, answer⟩ c ⟨⟨id, rfl⟩, held⟩
      refine Program.keeps_ignored_bind (exclusive_counts (by simp)) fun _ => ?_
      exact Program.keeps_ignored_bind (exclusive_notes _) fun _ => held
    next =>
      exact keeps_bindNone spares keyed known (own.trans unnamed) (spent.trans unspent) isSaga
        unbound runs

/-! ## Handling and writing -/

theorem keeps_handler (isExclusive : job.Exclusive s path buckets)
    (alone : m.invocations = [i]) (context : m.context = job.delivery.context)
    (held : Held s path job.delivery.message a i) :
    (Stage.dispatch .request (fun m => return (m, .ok ())) m).Keeps
      (exclusive s.dataType path buckets) a fun r b =>
        match r.2 with
        | .ok () => b = a ∧ ∃ j, r.1.invocations = [j] ∧ Held s path job.delivery.message a j
        | .error e => e.ofConflict = false := by
  have acts : (exclusive (B := B) s.dataType path buckets).IgnoresActs .request := exclusive_acts
  by_cases skipped : i.skipped = true
  · exact Incoming.keeps_dispatch_skipped alone skipped acts.note ⟨rfl, i, alone, held⟩
  · have runs : i.skipped = false := by simpa using skipped
    refine Incoming.keeps_dispatch_alone alone runs ?_
    rcases held.bound with (isSkipped | unbound) | ⟨-, inst, isBound, stands⟩
    · exact absurd isSkipped skipped
    · unfold Invocation.invoke
      simp only [runs, held.handler, unbound]
      exact rfl
    · obtain ⟨lives, ends⟩ := isExclusive.handles inst
      rw [← held.message, ← context] at lives ends
      refine (Invocation.keeps_invoke_saga runs held.handler isBound acts ends (.inr lives)).imp ?_
      rintro r b ⟨rfl, verdict, ⟨metadata, value⟩, rfl⟩
      cases verdict.outcome with
      | error reason => exact rfl
      | ok done =>
        exact ⟨rfl, _, rfl, held.handler, held.message,
          .inr ⟨runs, _, rfl, stands.congr metadata value⟩⟩

/-- What is written of the instance carries the value that its keys are for. -/
theorem carries (keyed : s.dataType.Keyed path) (isFor : rules.For s.dataType path)
    (known : s.dataType.table.get? path = some accessor) {group : List (Rule B)} {r : Rule B}
    (among : ∀ r ∈ group, r ∈ rules.rules) (member : r ∈ group) {data : D} {v : Scalar}
    (holds : s.dataType.valueAt path data = some v) :
    s.dataType.Carries path v (s.dataType.toDocument data)
      (Invocation.valuesOf s data group) where
  typed := rfl
  reads := keyed.reads holds _
  only key := by
    have same : accessor.value data = v := by
      unfold DataType.valueAt at holds
      rw [known] at holds
      exact Option.some.inj holds
    rw [Invocation.mem_valuesOf_iff known (fun r member => isFor.only r (among r member)) member
      (isFor.typed known (among r member)).1 key, same]

theorem keeps_write {mode : Commit.Mode} {group : List (Rule B)} {data : D} {isNew : Bool}
    (carries : ∀ v, s.dataType.valueAt path data = some v →
      s.dataType.Carries path v (s.dataType.toDocument data) (Invocation.valuesOf s data group))
    (stands : Stands s.dataType path a isNew data)
    (isMode : mode = if isNew then .insert else .update) :
    (Commit.write mode (s.dataType.toDocument data) (Invocation.valuesOf s data group)).Keeps
      (exclusive (B := B) s.dataType path buckets) a
      fun reply _ => ∃ stored, reply = .ok stored := by
  obtain ⟨unspent, v, holds, how⟩ := stands
  subst isMode
  cases isNew with
  | true =>
    refine ⟨⟨unspent, how.1, v, carries v holds, how.2⟩, fun reply expected => ?_⟩
    cases reply with
    | ok stored => exact ⟨stored, rfl⟩
    | error e => exact expected.elim
  | false =>
    obtain ⟨e, found, metadata⟩ := how
    refine ⟨⟨unspent, v, e, found, metadata, carries v holds⟩, fun reply expected => ?_⟩
    cases reply with
    | ok stored => exact ⟨stored, rfl⟩
    | error e => exact expected.elim

theorem keeps_writes {message : Message B} {maxAttempts : Nat} (keyed : s.dataType.Keyed path)
    (isFor : rules.For s.dataType path) (known : s.dataType.table.get? path = some accessor)
    {r : Rule B} (declared : r ∈ rules.rules) (alone : m.invocations = [i])
    (held : Held s path message a i) :
    (Incoming.persist .request maxAttempts [⟨0, chosen, rules.indexed⟩] m).Keeps
      (exclusive s.dataType path buckets) a fun r _ => r.2 = .ok () := by
  rcases held.bound with unheld | ⟨runs, inst, isBound, stands⟩
  · exact Incoming.keeps_persist_unheld alone unheld exclusive_notes
      (exclusive_counts (by simp)) rfl
  · obtain ⟨indexed, isIndexed, -⟩ := RuleSet.indexed_covers declared
    obtain ⟨kept, isKept, -⟩ : ∃ kept ∈ RuleSet.distinctPaths [] rules.indexed, kept.property = _ :=
      RuleSet.distinctPaths_covers (.inr isIndexed)
    have among : ∀ r ∈ RuleSet.distinctPaths [] rules.indexed, r ∈ rules.rules := fun r member =>
      RuleSet.mem_indexed ((RuleSet.mem_distinctPaths member).resolve_left List.not_mem_nil)
    refine Incoming.keeps_persist_alone alone runs held.handler isBound exclusive_notes
      (exclusive_counts (by simp)) ?_
    have single : ∀ {step : Invocation D B → Program B (Commit.Outcome D B)},
        ((step i).Keeps (exclusive s.dataType path buckets) a fun r _ => r.2 = .ok ()) →
        (Incoming.inTurn [Incoming.onInvocation 0 step] m).Keeps (exclusive s.dataType path buckets)
          a fun r _ => r.2 = .ok () := fun keeps =>
      Incoming.keeps_inTurn_single (Incoming.keeps_onInvocation_alone alone keeps)
    split
    next =>
      split
      next => exact rfl
      next isOld =>
        have deletes : (Commit.delete i).Keeps (exclusive s.dataType path buckets) a
            fun answer _ => answer = .ok () := by
          refine Commit.keeps_delete_granted held.handler isBound (exclusive_counts (by simp)) ?_
          obtain ⟨unspent, v, -, how⟩ := stands
          rw [if_neg isOld] at how
          obtain ⟨e, found, metadata⟩ := how
          refine ⟨⟨unspent, rfl, v, e, found, metadata⟩, fun reply expected => ?_⟩
          cases reply with
          | ok => exact ⟨rfl, rfl⟩
          | error e => exact expected.elim
        exact single (deletes.bind fun _ _ succeeds => succeeds)
    next =>
      split
      next => exact rfl
      next =>
        refine single (Commit.keeps_persist_granted held.handler isBound
          (exclusive_counts ?_) ?_)
        · split <;> simp [Commit.Mode.counter]
        · refine (keeps_write (fun v => carries keyed isFor known among isKept) stands rfl).imp ?_
          rintro reply b ⟨stored, same⟩
          exact ⟨stored, same, rfl⟩

/-! ## The whole message -/

theorem keeps_bindAll (isExclusive : job.Exclusive s path buckets)
    (spares : job.onMiss.Spares job.delivery.message s path) (keyed : s.dataType.Keyed path)
    (isFor : rules.For s.dataType path)
    (accepted : rules.forMessage job.delivery.message = .ok chosen)
    (known : s.dataType.table.get? path = some accessor)
    (locked : ∀ r ∈ chosen, ∀ v, r.value? job.delivery.context job.delivery.message = some v →
      Lock.key s.dataType.name path v buckets ∈ a.keys)
    (unnamed : a.own = none) (unspent : a.spent = false) :
    (Incoming.bindAll job.onMiss [⟨0, chosen, rules.indexed⟩] job.incoming).Keeps
      (exclusive s.dataType path buckets) a fun r b =>
        match r.2 with
        | .ok () => r.1.context = job.delivery.context ∧
          ∃ i, r.1.invocations = [i] ∧ Held s path job.delivery.message b i
        | .error e => e.ofConflict = false := by
  refine Incoming.keeps_bindAll_alone (Job.invocations_of_alone isExclusive.handlers) ?_
  rw [job.message_incoming, job.context_incoming]
  refine (keeps_bindOne (i := .start (.saga s) job.delivery.message (!job.pooled)) spares keyed
    isFor accepted known locked unnamed unspent rfl rfl rfl).imp ?_
  rintro ⟨i, answer⟩ b bound
  cases answer with
  | error e => exact bound
  | ok => exact ⟨rfl, i, rfl, bound⟩

theorem keeps_runBound {maxAttempts : Nat} (isExclusive : job.Exclusive s path buckets)
    (spares : job.onMiss.Spares job.delivery.message s path) (keyed : s.dataType.Keyed path)
    (isFor : rules.For s.dataType path)
    (accepted : rules.forMessage job.delivery.message = .ok chosen)
    (locked : ∀ r ∈ chosen, ∀ v, r.value? job.delivery.context job.delivery.message = some v →
      Lock.key s.dataType.name path v buckets ∈ a.keys)
    (unnamed : a.own = none) (unspent : a.spent = false) :
    (Incoming.runBound .request maxAttempts job.onMiss [⟨0, chosen, rules.indexed⟩]
      (Stage.dispatch .request fun m => return (m, .ok ())) job.incoming).Keeps
        (exclusive s.dataType path buckets) a fun r _ => Unconflicted r.2 := by
  obtain ⟨r, among⟩ := List.exists_mem_of_ne_nil chosen (RuleSet.forMessage_ne_nil accepted)
  have declared := RuleSet.mem_of_forMessage accepted among
  obtain ⟨-, accessor, known, -⟩ := isFor.fits r declared
  rw [isFor.only r declared] at known
  refine Incoming.keeps_inTurn_cons
    ((keeps_bindAll isExclusive spares keyed isFor accepted known locked unnamed unspent).imp ?_)
  rintro ⟨m, answer⟩ b bound
  cases answer with
  | error e => exact bound
  | ok =>
    obtain ⟨context, i, alone, held⟩ := bound
    refine Incoming.keeps_inTurn_cons ((keeps_handler isExclusive alone context held).imp ?_)
    rintro ⟨m, answer⟩ c handled
    cases answer with
    | error e => exact handled
    | ok =>
      obtain ⟨rfl, j, alone, held⟩ := handled
      refine Incoming.keeps_inTurn_cons
        ((keeps_writes keyed isFor known declared alone held).imp ?_)
      rintro ⟨m, _⟩ c rfl
      trivial

/-- The one binding of a message, by rules for the path. -/
def Bindings (t : DataType D) (path : String) (message : Message B) :
    Except SagaError (List (Binding B)) → Prop
  | .error e => e.ofConflict = false
  | .ok bindings => ∃ (rules : RuleSet B) (chosen : List (Rule B)), rules.For t path ∧
      rules.forMessage message = .ok chosen ∧ bindings = [⟨0, chosen, rules.indexed⟩]

theorem keeps_bindings (isExclusive : job.Exclusive s path buckets) :
    job.incoming.bindings.Keeps (exclusive s.dataType path buckets) a fun r b =>
      b = a ∧ Bindings s.dataType path job.delivery.message r := by
  refine (Incoming.keeps_bindings_answered (Job.invocations_of_alone isExclusive.handlers) rfl
    trivial).imp ?_
  rintro (e | bindings) b ⟨reply, expected, rfl, answered⟩
  · obtain ⟨cause, rfl⟩ := answered
    exact ⟨rfl, rfl⟩
  · obtain ⟨rules, chosen, rfl, accepted, rfl⟩ := answered
    exact ⟨rfl, rules, chosen, expected, job.message_incoming ▸ accepted, rfl⟩

end Exclusive

end Stages

end Sagas
