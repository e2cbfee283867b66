import Sagas.Proofs.Lock.Crew
import Sagas.Proofs.Lock.Tenure

/-!
# Messages that share a lock

Any number of messages share a lock and a store, and their calls of both interleave in any order.
All sagas correlate by one path of one data type. A value of the path leads to at most one row, and
a row is led to by one value. So whoever has the key of a value is the only one to write what the
value leads to, and nobody else's lookup is outdated by that.

Results:
1. `Store.Replaces.find_eq`: a write leaves all lookups alone but those that lead to its row.
2. `Exclusion.current`, `Exclusion.vacant`: what a message has found is there to be written, and
   nothing is in the way of what it creates.
3. `Exclusion.turn`: every turn is answered as the contract expects, and keeps all this.
-/

namespace Sagas

variable {ι D B α : Type}

/-! ## Lookups -/

/-- Looking this value of the path up leads to the row. -/
def Row.AnswersTo (row : Row) (path : String) (v : Scalar) : Prop :=
  if path = identityPath then v = .uuid row.document.id else ⟨path, v⟩ ∈ row.keys

namespace Store

variable {s t : Store} {dataType path : String} {v : Scalar} {d : Document} {now : Option Row}

theorem Consistent.find_eq_some_iff (kept : s.Consistent)
    (uuid : path = identityPath → v.kind = .uuid) :
    s.find dataType path v = some d ↔
      ∃ row, s.row? dataType d.id = some row ∧ row.document = d ∧ row.AnswersTo path v := by
  by_cases isIdentity : path = identityPath
  · subst isIdentity
    obtain ⟨id, rfl⟩ : ∃ id, v = .uuid id := by
      cases v with
      | uuid id => exact ⟨id, rfl⟩
      | _ => cases uuid rfl
    rw [find_identity, Option.map_eq_some_iff]
    constructor
    · rintro ⟨row, present, rfl⟩
      have same : row.document.id = id := kept.id present
      exact ⟨row, same.symm ▸ present, rfl, congrArg Scalar.uuid same.symm⟩
    · rintro ⟨row, present, rfl, same⟩
      exact ⟨row, Scalar.uuid.inj same ▸ present, rfl⟩
  · rw [find_property isIdentity, Option.map_eq_some_iff]
    unfold Row.AnswersTo
    simp only [if_neg isIdentity]
    constructor
    · rintro ⟨row, named, rfl⟩
      obtain ⟨id, owned, present⟩ := Option.bind_eq_some_iff.1 named
      have same : row.document.id = id := kept.id present
      exact ⟨row, same.symm ▸ present, rfl, kept.owned_of present owned⟩
    · rintro ⟨row, present, rfl, member⟩
      have owned := kept.owner.2 ⟨row, present, member⟩
      exact ⟨row, by rw [owned, Option.bind_some, present], rfl⟩

/-- A value that leads nowhere is free to be taken. -/
theorem Consistent.unowned (kept : s.Consistent) (other : path ≠ identityPath)
    (missed : s.find dataType path v = none) : s.owner? dataType ⟨path, v⟩ = none := by
  refine Option.eq_none_iff_forall_ne_some.2 fun id owned => ?_
  obtain ⟨row, present, -⟩ := kept.owner.1 owned
  rw [find_property other, owned, Option.bind_some, present] at missed
  cases missed

/-- A write leaves all lookups alone but those that lead to its row, before or after. -/
theorem Replaces.find_eq (kept : s.Consistent) (replaces : s.Replaces d now t)
    (uuid : path = identityPath → v.kind = .uuid)
    (before : ∀ row, s.row? d.dataType d.id = some row → ¬ row.AnswersTo path v)
    (after : ∀ row ∈ now, ¬ row.AnswersTo path v) :
    t.find d.dataType path v = s.find d.dataType path v := by
  refine Option.ext fun e => ?_
  rw [(kept.replaces replaces).find_eq_some_iff uuid, kept.find_eq_some_iff uuid]
  refine exists_congr fun row => ?_
  rw [replaces.row]
  by_cases here : e.id = d.id
  · rw [if_pos ⟨rfl, here⟩, here]
    constructor
    · rintro ⟨same, -, answers⟩
      exact absurd answers (after row same)
    · rintro ⟨present, -, answers⟩
      exact absurd answers (before row present)
  · rw [if_neg fun both => here both.2]

end Store

/-! ## The tenures of a crew -/

/-- The tenure of a message after what it asked so far. -/
def tenureOf : List (Exchange B) → Tenure
  | [] => .zero
  | x :: earlier => (tenureOf earlier).next x.request x.reply

namespace Tenure

theorem keys_next (a : Tenure) (request : Request B) (reply : Reply request) :
    (a.next request reply).keys = Lock.keysAfter a.keys request reply := by
  cases request with
  | find type property v => cases reply <;> rfl
  | acquire key token => rcases reply with e | _ | _ <;> rfl
  | _ => rfl

/-- An identity that was drawn stays with the message. -/
theorem own_next (a : Tenure) (request : Request B) (reply : Reply request) :
    (∃ id, (⟨request, reply⟩ : Exchange B) = ⟨.freshId, id⟩ ∧
        (a.next request reply).own = some id) ∨
      (∀ id, (⟨request, reply⟩ : Exchange B) ≠ ⟨.freshId, id⟩) ∧
        (a.next request reply).own = a.own := by
  cases request with
  | freshId => exact .inl ⟨reply, rfl, rfl⟩
  | find type property v => cases reply <;> exact .inr ⟨nofun, rfl⟩
  | acquire key token => rcases reply with e | _ | _ <;> exact .inr ⟨nofun, rfl⟩
  | _ => exact .inr ⟨nofun, rfl⟩

/-- A message that has not written counts on the row that this identity has, or will have: the
identity was drawn for it, or it has looked up a value that leads to the row. -/
def CountsOn (a : Tenure) (path : String) (id : Uuid) (row : Option Row) : Prop :=
  a.spent = false ∧ (a.own = some id ∨
    ∃ v found, (v, found) ∈ a.looked ∧ ∃ r ∈ row, r.AnswersTo path v)

end Tenure

theorem keys_tenureOf (past : List (Exchange B)) :
    (tenureOf past).keys = Lock.holding past := by
  induction past with
  | nil => rfl
  | cons x earlier ih => rw [tenureOf, Tenure.keys_next, ih, Lock.holding]

theorem drawn_of_own {past : List (Exchange B)} {id : Uuid}
    (own : (tenureOf past).own = some id) : ⟨.freshId, id⟩ ∈ past := by
  induction past with
  | nil => cases own
  | cons x earlier ih =>
    rw [tenureOf] at own
    rcases (tenureOf earlier).own_next x.request x.reply with ⟨drawn, now, isOwn⟩ | ⟨-, same⟩
    · obtain rfl : drawn = id := Option.some.inj (isOwn.symm.trans own)
      exact now ▸ List.mem_cons_self
    · exact List.mem_cons_of_mem _ (ih (same.symm.trans own))

theorem undrawn_of_unowned {past : List (Exchange B)} (none : (tenureOf past).own = none)
    (id : Uuid) : ⟨.freshId, id⟩ ∉ past := by
  induction past with
  | nil => exact List.not_mem_nil
  | cons x earlier ih =>
    rw [tenureOf] at none
    rcases (tenureOf earlier).own_next x.request x.reply with ⟨drawn, -, isOwn⟩ | ⟨other, same⟩
    · exact nomatch isOwn.symm.trans none
    · intro member
      rcases List.mem_cons.1 member with now | older
      · exact other id now.symm
      · exact ih (same.symm.trans none) older

/-- What a message may count on as long as it has not written. -/
structure Secured (t : DataType D) (path : String) (buckets : Option Nat) (store : Store)
    (past : List (Exchange B)) : Prop where
  named : ∀ v found, (v, found) ∈ (tenureOf past).looked →
    (path = identityPath → v.kind = .uuid) ∧ ⟨.find t.name path v, .ok found⟩ ∈ past
  /-- It has the keys of the values that it has looked up. -/
  locked : (tenureOf past).spent = false → ∀ v found, (v, found) ∈ (tenureOf past).looked →
    Lock.key t.name path v buckets ∈ Lock.holding past
  /-- They still lead to what they led to. -/
  still : (tenureOf past).spent = false → ∀ v found, (v, found) ∈ (tenureOf past).looked →
    store.find t.name path v = found
  /-- Nothing is stored under the identity that was drawn for it. -/
  unused : (tenureOf past).spent = false → ∀ id, (tenureOf past).own = some id →
    store.row? t.name id = none

section Secured

variable {t : DataType D} {path : String} {buckets : Option Nat} {store store' : Store}
  {past : List (Exchange B)} {x : Exchange B}

theorem Secured.named_cons (secured : Secured t path buckets store past) (x : Exchange B)
    {v : Scalar} {found : Option Document} (looked : (v, found) ∈ (tenureOf past).looked) :
    (path = identityPath → v.kind = .uuid) ∧ ⟨.find t.name path v, .ok found⟩ ∈ x :: past := by
  obtain ⟨uuid, named⟩ := secured.named v found looked
  exact ⟨uuid, List.mem_cons_of_mem _ named⟩

/-- Another message has written, but nothing that this one counts on. -/
theorem Secured.replaced (secured : Secured t path buckets store past) (kept : store.Consistent)
    {d : Document} {now : Option Row} (typed : d.dataType = t.name)
    (replaces : store.Replaces d now store')
    (before : ¬ (tenureOf past).CountsOn path d.id (store.row? t.name d.id))
    (after : ¬ (tenureOf past).CountsOn path d.id now) : Secured t path buckets store' past where
  named := secured.named
  locked := secured.locked
  still unspent v found looked := by
    rw [← secured.still unspent v found looked, ← typed]
    refine replaces.find_eq kept (secured.named v found looked).1 (fun row present answers => ?_)
      fun row isNow answers => after ⟨unspent, .inr ⟨v, found, looked, row, isNow, answers⟩⟩
    exact before ⟨unspent, .inr ⟨v, found, looked, row, typed ▸ present, answers⟩⟩
  unused unspent id own := by
    rw [replaces.row, if_neg]
    · exact secured.unused unspent id own
    · rintro ⟨-, rfl⟩
      exact before ⟨unspent, .inl own⟩

/-- The message has asked something else, and has not lost any key. -/
theorem Secured.asked (secured : Secured t path buckets store past)
    (looked : (tenureOf (x :: past)).looked = (tenureOf past).looked)
    (own : (tenureOf (x :: past)).own = (tenureOf past).own)
    (spent : (tenureOf (x :: past)).spent = false → (tenureOf past).spent = false ∧
      Lock.holding past ⊆ Lock.holding (x :: past)) : Secured t path buckets store (x :: past) where
  named _ _ member := secured.named_cons x (looked ▸ member)
  locked unspent v found member :=
    (spent unspent).2 (secured.locked (spent unspent).1 v found (looked ▸ member))
  still unspent v found member := secured.still (spent unspent).1 v found (looked ▸ member)
  unused unspent id isOwn := secured.unused (spent unspent).1 id (own ▸ isOwn)

/-- The message has written, or given a key back. -/
theorem Secured.spent (secured : Secured t path buckets store past)
    (looked : (tenureOf (x :: past)).looked = (tenureOf past).looked)
    (spent : (tenureOf (x :: past)).spent = true) : Secured t path buckets store' (x :: past) where
  named _ _ member := secured.named_cons x (looked ▸ member)
  locked unspent := nomatch spent.symm.trans unspent
  still unspent := nomatch spent.symm.trans unspent
  unused unspent := nomatch spent.symm.trans unspent

end Secured

/-! ## What turns keep -/

/-- Identities that are drawn differ from one another, and from all that messages look up. -/
structure Crew.DrawsNew (crew : Crew ι B α) (dataType : String) : Prop where
  apart : ∀ j k id, ⟨.freshId, id⟩ ∈ (crew.parties j).past →
    ⟨.freshId, id⟩ ∈ (crew.parties k).past → j = k
  unnamed : ∀ j k id reply, ⟨.freshId, id⟩ ∈ (crew.parties j).past →
    ⟨.find dataType identityPath (.uuid id), reply⟩ ∉ (crew.parties k).past

theorem Crew.DrawsNew.before {before after : Crew ι B α} {k : ι} {x : Exchange B}
    {dataType : String} (draws : after.DrawsNew dataType) (turn : before.Turn after k x) :
    before.DrawsNew dataType where
  apart i j id first second :=
    draws.apart i j id (turn.past_subset i first) (turn.past_subset j second)
  unnamed i j id reply first second :=
    draws.unnamed i j id reply (turn.past_subset i first) (turn.past_subset j second)

/-- The identity was drawn for some message, or looked up by one. -/
def Crew.Mentions (crew : Crew ι B α) (dataType : String) (id : Uuid) : Prop :=
  ∃ k, ⟨.freshId, id⟩ ∈ (crew.parties k).past ∨
    ∃ reply, ⟨.find dataType identityPath (.uuid id), reply⟩ ∈ (crew.parties k).past

theorem Crew.Mentions.after {before after : Crew ι B α} {k : ι} {x : Exchange B}
    {dataType : String} {id : Uuid} (mentions : before.Mentions dataType id)
    (turn : before.Turn after k x) : after.Mentions dataType id := by
  obtain ⟨j, drawn | ⟨reply, named⟩⟩ := mentions
  · exact ⟨j, .inl (turn.past_subset j drawn)⟩
  · exact ⟨j, .inr ⟨reply, turn.past_subset j named⟩⟩

/-- The tenure of a message of a crew. -/
def Crew.tenure (crew : Crew ι B α) (k : ι) : Tenure :=
  tenureOf (crew.parties k).past

/-- The row holds one value of the path, and is indexed under no other. -/
def Row.KeyedBy (row : Row) (t : DataType D) (path : String) : Prop :=
  ∃ v, t.Reads path v row.document ∧ ∀ key ∈ row.keys, key = ⟨path, v⟩

section Carries

variable {t : DataType D} {path : String} {v w : Scalar} {d e : Document}
  {values : List PropertyValue}

theorem DataType.Carries.mem_keysOf (carries : t.Carries path v d values) {key : PropertyValue}
    (member : key ∈ Partition.keysOf values) :
    key = ⟨path, v⟩ ∧ path ≠ identityPath ∧ v.isUnset = false := by
  obtain ⟨listed, other, set⟩ := Partition.mem_keysOf.1 member
  obtain rfl := (carries.only key).1 listed
  exact ⟨rfl, other, set⟩

/-- What is written is found by its identity, or else under its value if that is set. -/
theorem DataType.Carries.answersTo (carries : t.Carries path v d values)
    (answers : Row.AnswersTo ⟨e, Partition.keysOf values⟩ path w) :
    path = identityPath ∧ w = .uuid e.id ∨ path ≠ identityPath ∧ w = v ∧ v.isUnset = false := by
  unfold Row.AnswersTo at answers
  split at answers
  next isIdentity => exact .inl ⟨isIdentity, answers⟩
  next =>
    obtain ⟨same, other, set⟩ := carries.mem_keysOf answers
    exact .inr ⟨other, congrArg PropertyValue.value same, set⟩

theorem DataType.Carries.keyedBy (carries : t.Carries path v d values) (reads : t.Reads path v e) :
    ∀ row ∈ some (⟨e, Partition.keysOf values⟩ : Row), row.KeyedBy t path := by
  intro row isNow
  obtain rfl := Option.some.inj isNow
  exact ⟨v, reads, fun key member => (carries.mem_keysOf member).1⟩

end Carries

/-- What holds in every run under one lock. -/
structure Exclusion (t : DataType D) (path : String) (buckets : Option Nat) (held : List String)
    (crew : Crew ι B α) : Prop where
  consistent : crew.store.Consistent
  owned : crew.HasKeys held
  rows : ∀ id row, crew.store.row? t.name id = some row → row.KeyedBy t path
  /-- Identities of rows were drawn, or named by a message. -/
  origin : ∀ id row, crew.store.row? t.name id = some row → crew.Mentions t.name id
  secured : ∀ k, Secured t path buckets crew.store (crew.parties k).past

namespace Exclusion

variable {t : DataType D} {path : String} {buckets : Option Nat} {held held' : List String}
  {crew before after : Crew ι B α} {j k : ι} {x : Exchange B}

/-- No two messages that have not written yet have looked up one value. -/
theorem alone (exclusion : Exclusion t path buckets held crew) {v : Scalar}
    {found found' : Option Document} (unspent : (crew.tenure j).spent = false)
    (looked : (v, found) ∈ (crew.tenure j).looked) (unspent' : (crew.tenure k).spent = false)
    (looked' : (v, found') ∈ (crew.tenure k).looked) : j = k :=
  exclusion.owned.unique ((exclusion.secured j).locked unspent v found looked)
    ((exclusion.secured k).locked unspent' v found' looked')

/-- One value at most leads to a row. -/
theorem one (exclusion : Exclusion t path buckets held crew) {id : Uuid} {row : Row}
    (present : crew.store.row? t.name id = some row) {v w : Scalar} (first : row.AnswersTo path v)
    (second : row.AnswersTo path w) : v = w := by
  obtain ⟨u, -, only⟩ := exclusion.rows id row present
  unfold Row.AnswersTo at first second
  by_cases isIdentity : path = identityPath
  · rw [if_pos isIdentity] at first second
    exact first.trans second.symm
  · rw [if_neg isIdentity] at first second
    exact congrArg PropertyValue.value ((only _ first).trans (only _ second).symm)

/-- What a message has found is there to be written, and no other message counts on it. -/
theorem current (exclusion : Exclusion t path buckets held crew)
    (unspent : (crew.tenure k).spent = false) {v : Scalar} {d e : Document}
    (looked : (v, some e) ∈ (crew.tenure k).looked) (typed : d.dataType = t.name)
    (metadata : d.metadata = e.metadata) :
    ∃ row, crew.store.row? d.dataType d.id = some row ∧ d.revision = row.document.revision ∧
      row.document.id = d.id ∧ row.AnswersTo path v ∧
      ∀ j, j ≠ k → ¬ (crew.tenure j).CountsOn path d.id (crew.store.row? t.name d.id) := by
  have secured := exclusion.secured k
  obtain ⟨row, present, rfl, answers⟩ := (exclusion.consistent.find_eq_some_iff
    (secured.named v _ looked).1).1 (secured.still unspent v _ looked)
  have id : d.id = row.document.id := congrArg Metadata.id metadata
  rw [← id] at present
  refine ⟨row, typed ▸ present, congrArg Metadata.revision metadata, id.symm, answers, ?_⟩
  rintro j other ⟨unspent', own | ⟨w, found, looked', row', present', answers'⟩⟩
  · exact nomatch ((exclusion.secured j).unused unspent' d.id own).symm.trans present
  · cases present.symm.trans present'
    obtain rfl := exclusion.one present answers' answers
    exact other (exclusion.alone unspent' looked' unspent looked)

/-- Nothing is in the way of an instance that a message may create. -/
theorem vacant (exclusion : Exclusion t path buckets held crew)
    (unspent : (crew.tenure k).spent = false) {id : Uuid} {v : Scalar}
    (isVacant : (crew.tenure k).Vacant path id v) :
    crew.store.row? t.name id = none ∧ (path ≠ identityPath → v.isUnset = false →
      crew.store.owner? t.name ⟨path, v⟩ = none) := by
  have secured := exclusion.secured k
  constructor
  · rcases isVacant.1 with own | ⟨isIdentity, missed⟩
    · exact secured.unused unspent id own
    · have nothing := secured.still unspent _ _ missed
      rw [isIdentity, Store.find_identity] at nothing
      exact Option.map_eq_none_iff.1 nothing
  · intro other set
    rcases isVacant.2 other with unset | missed
    · exact nomatch unset.symm.trans set
    · exact exclusion.consistent.unowned other (secured.still unspent _ _ missed)

/-! ## Turns -/

/-- A turn that leaves the store alone, of a message that may count on as much as before. -/
theorem quiet (exclusion : Exclusion t path buckets held before) (turn : before.Turn after k x)
    (owned : after.HasKeys held') (same : after.store = before.store)
    (secured : Secured t path buckets before.store (x :: (before.parties k).past)) :
    Exclusion t path buckets held' after where
  consistent := exclusion.consistent.answers turn.store
  owned := owned
  rows := by
    rw [same]
    exact exclusion.rows
  origin id row present := by
    rw [same] at present
    exact (exclusion.origin id row present).after turn
  secured := by
    rw [same]
    refine turn.parties (fun _ party => Secured t path buckets before.store party.past) ?_
      exclusion.secured
    rw [turn.past]
    exact secured

/-- A turn that replaces one row, of a message that counts on nothing any more. Nobody else counts
on the row, nor on there being none. -/
theorem replaced (exclusion : Exclusion t path buckets held before) (turn : before.Turn after k x)
    (owned : after.HasKeys held') {d : Document} {now : Option Row} (typed : d.dataType = t.name)
    (replaces : before.store.Replaces d now after.store)
    (spends : tenureOf (x :: (before.parties k).past) = { before.tenure k with spent := true })
    (keyed : ∀ row ∈ now, row.KeyedBy t path)
    (origin : before.Mentions t.name d.id)
    (others : ∀ j, j ≠ k →
      ¬ (before.tenure j).CountsOn path d.id (before.store.row? t.name d.id) ∧
        ¬ (before.tenure j).CountsOn path d.id now) :
    Exclusion t path buckets held' after := by
  have looked : (tenureOf (x :: (before.parties k).past)).looked = (before.tenure k).looked := by
    rw [spends]
  have spent : (tenureOf (x :: (before.parties k).past)).spent = true := by rw [spends]
  refine ⟨exclusion.consistent.answers turn.store, owned, fun id row present => ?_,
    fun id row present => ?_, fun j => ?_⟩
  · rw [replaces.row] at present
    split at present
    next => exact keyed row present
    next => exact exclusion.rows id row present
  · rw [replaces.row] at present
    split at present
    next here => exact here.2 ▸ origin.after turn
    next => exact (exclusion.origin id row present).after turn
  · by_cases moves : j = k
    · rw [moves, turn.past]
      exact (exclusion.secured k).spent looked spent
    · rw [turn.others j moves]
      obtain ⟨first, second⟩ := others j moves
      exact (exclusion.secured j).replaced exclusion.consistent typed replaces first second

/-- An insert is never in conflict. -/
theorem inserted (exclusion : Exclusion t path buckets held before) (draws : before.DrawsNew t.name)
    {d : Document} {values : List PropertyValue} {reply : Except StorageError Document}
    (turn : before.Turn after k ⟨.insert d values, reply⟩) (owned : after.HasKeys held')
    (owed : (exclusive (B := B) t path buckets).owes (before.tenure k) (.insert d values)) :
    (exclusive (B := B) t path buckets).expects (before.tenure k) (.insert d values) reply ∧
      Exclusion t path buckets held' after := by
  obtain ⟨unspent, initial, v, carries, isVacant⟩ := owed
  obtain ⟨absent, free⟩ := exclusion.vacant unspent isVacant
  rw [← carries.typed] at absent free
  obtain ⟨done, inserts⟩ := Store.inserts_of_free initial absent fun key member owner isOwner => by
    obtain ⟨rfl, other, set⟩ := carries.mem_keysOf member
    exact nomatch (free other set).symm.trans isOwner
  have result : before.store.insert d values = (reply, after.store) := turn.store
  obtain rfl : (.ok d : Except StorageError Document) = reply :=
    done.symm.trans (congrArg Prod.fst result)
  have store : (before.store.insert d values).2 = after.store := congrArg Prod.snd result
  rw [store] at inserts
  have mine := exclusion.secured k
  refine ⟨trivial, exclusion.replaced turn owned carries.typed
    (inserts.replaces exclusion.consistent) rfl (carries.keyedBy carries.reads) ?_ ?_⟩
  · rcases isVacant.1 with own | ⟨rfl, missed⟩
    · exact ⟨k, .inl (drawn_of_own own)⟩
    · exact ⟨k, .inr ⟨_, (mine.named _ _ missed).2⟩⟩
  · intro j other
    have undrawn : (before.tenure j).own ≠ some d.id := fun own => by
      rcases isVacant.1 with own' | ⟨rfl, missed⟩
      · exact other (draws.apart j k d.id (drawn_of_own own) (drawn_of_own own'))
      · exact draws.unnamed j k d.id _ (drawn_of_own own) (mine.named _ _ missed).2
    constructor
    · rintro ⟨-, own | ⟨w, found, -, row, present, -⟩⟩
      · exact undrawn own
      · exact nomatch (carries.typed ▸ absent).symm.trans present
    · rintro ⟨unspent', own | ⟨w, found, looked, row, isNow, answers⟩⟩
      · exact undrawn own
      obtain rfl := Option.some.inj isNow
      -- The other message would have looked up the new identity, or the new value.
      rcases carries.answersTo answers with ⟨rfl, rfl⟩ | ⟨isOther, rfl, set⟩
      · rcases isVacant.1 with own | ⟨-, missed⟩
        · exact draws.unnamed k j d.id _ (drawn_of_own own)
            ((exclusion.secured j).named _ _ looked).2
        · exact other (exclusion.alone unspent' looked unspent missed)
      · rcases isVacant.2 isOther with unset | missed
        · exact nomatch unset.symm.trans set
        · exact other (exclusion.alone unspent' looked unspent missed)

/-- An update is never in conflict. -/
theorem updated (exclusion : Exclusion t path buckets held before) {d : Document}
    {values : List PropertyValue} {reply : Except StorageError Document}
    (turn : before.Turn after k ⟨.update d values, reply⟩) (owned : after.HasKeys held')
    (owed : (exclusive (B := B) t path buckets).owes (before.tenure k) (.update d values)) :
    (exclusive (B := B) t path buckets).expects (before.tenure k) (.update d values) reply ∧
      Exclusion t path buckets held' after := by
  obtain ⟨unspent, v, e, looked, metadata, carries⟩ := owed
  obtain ⟨row, present, revision, id, answers, others⟩ :=
    exclusion.current unspent looked carries.typed metadata
  have free : (before.store.partition d.dataType).Free d.id (Partition.keysOf values) := by
    intro key member owner isOwner
    obtain ⟨rfl, other, -⟩ := carries.mem_keysOf member
    unfold Row.AnswersTo at answers
    rw [if_neg other] at answers
    have own := exclusion.consistent.owner.2 ⟨row, present, answers⟩
    exact Option.some.inj (isOwner.symm.trans own)
  obtain ⟨done, updates⟩ := Store.updates_of_current ⟨present, revision⟩ free
  have result : before.store.update d values = (reply, after.store) := turn.store
  obtain rfl : .ok { d with revision := d.revision.next } = reply :=
    done.symm.trans (congrArg Prod.fst result)
  have store : (before.store.update d values).2 = after.store := congrArg Prod.snd result
  rw [store] at updates
  refine ⟨trivial, exclusion.replaced turn owned carries.typed
    (updates.replaces exclusion.consistent) rfl (carries.keyedBy carries.reads) ?_ ?_⟩
  · exact exclusion.origin d.id row (carries.typed ▸ present)
  · refine fun j other => ⟨others j other, ?_⟩
    rintro ⟨unspent', own | ⟨w, found, looked', row', isNow, answers'⟩⟩
    · exact others j other ⟨unspent', .inl own⟩
    · obtain rfl := Option.some.inj isNow
      have same : w = v := by
        rcases carries.answersTo answers' with ⟨isIdentity, rfl⟩ | ⟨-, same, -⟩
        · unfold Row.AnswersTo at answers
          rw [if_pos isIdentity] at answers
          exact (id ▸ answers).symm
        · exact same
      exact other (exclusion.alone unspent' (same ▸ looked') unspent looked)

/-- A deletion is never in conflict. -/
theorem deleted (exclusion : Exclusion t path buckets held before) {d : Document}
    {reply : Except StorageError Unit} (turn : before.Turn after k ⟨.delete d, reply⟩)
    (owned : after.HasKeys held')
    (owed : (exclusive (B := B) t path buckets).owes (before.tenure k) (.delete d)) :
    (exclusive (B := B) t path buckets).expects (before.tenure k) (.delete d) reply ∧
      Exclusion t path buckets held' after := by
  obtain ⟨unspent, typed, v, e, looked, metadata⟩ := owed
  obtain ⟨row, present, revision, -, -, others⟩ :=
    exclusion.current unspent looked typed metadata
  obtain ⟨done, deletes⟩ := Store.deletes_of_current ⟨present, revision⟩
  have result : before.store.delete d = (reply, after.store) := turn.store
  obtain rfl : (.ok () : Except StorageError Unit) = reply :=
    done.symm.trans (congrArg Prod.fst result)
  have store : (before.store.delete d).2 = after.store := congrArg Prod.snd result
  rw [store] at deletes
  refine ⟨trivial, exclusion.replaced turn owned typed (deletes.replaces exclusion.consistent) rfl
    (fun _ isNow => nomatch isNow) (exclusion.origin d.id row (typed ▸ present)) ?_⟩
  refine fun j other => ⟨others j other, ?_⟩
  rintro ⟨unspent', own | ⟨w, found, -, row', isNow, -⟩⟩
  · exact others j other ⟨unspent', .inl own⟩
  · cases isNow

/-- A lookup finds data that hold the value, and they stay as they are. -/
theorem found (exclusion : Exclusion t path buckets held before) (keyed : t.Keyed path)
    {type property : String} {v : Scalar} {reply : Except StorageError (Option Document)}
    (turn : before.Turn after k ⟨.find type property v, reply⟩) (owned : after.HasKeys held')
    (owed : (exclusive (B := B) t path buckets).owes (before.tenure k) (.find type property v)) :
    (exclusive (B := B) t path buckets).expects (before.tenure k) (.find type property v) reply ∧
      Exclusion t path buckets held' after := by
  obtain ⟨rfl, rfl, uuid, locked⟩ := owed
  obtain ⟨rfl, same⟩ := turn.store
  have secured := exclusion.secured k
  refine ⟨?_, exclusion.quiet turn owned same ⟨?_, ?_, ?_, secured.unused⟩⟩
  · cases finds : before.store.find t.name property v with
    | none => trivial
    | some d =>
      obtain ⟨row, present, rfl, answers⟩ := (exclusion.consistent.find_eq_some_iff uuid).1 finds
      obtain ⟨w, reads, only⟩ := exclusion.rows _ row present
      unfold Row.AnswersTo at answers
      split at answers
      next isIdentity =>
        subst isIdentity answers
        cases keyed with
        | identity _ known =>
          intro decoded _ revision
          rw [DataType.Keyed.valueAt_identity known]
          unfold DataType.id
          rw [t.metadata.get_set]
        | field other => exact absurd rfl other
      next =>
        obtain rfl : v = w := congrArg PropertyValue.value (only _ answers)
        exact reads
  · intro w found looked
    rcases List.mem_cons.1 looked with now | earlier
    · cases now
      exact ⟨uuid, List.mem_cons_self⟩
    · exact secured.named_cons _ earlier
  · intro unspent w found looked
    rcases List.mem_cons.1 looked with now | earlier
    · cases now
      exact keys_tenureOf (before.parties k).past ▸ locked
    · exact secured.locked unspent w found earlier
  · intro unspent w found looked
    rcases List.mem_cons.1 looked with now | earlier
    · cases now
      rfl
    · exact secured.still unspent w found earlier

/-- Nothing is stored under an identity that is drawn. -/
theorem drawn (exclusion : Exclusion t path buckets held before) (draws : after.DrawsNew t.name)
    {id : Uuid} (turn : before.Turn after k ⟨.freshId, id⟩) (owned : after.HasKeys held')
    (unnamed : (before.tenure k).own = none) : Exclusion t path buckets held' after := by
  have secured := exclusion.secured k
  refine exclusion.quiet turn owned turn.store
    ⟨fun _ _ => secured.named_cons _, secured.locked, secured.still, ?_⟩
  rintro - id' own
  obtain rfl : id = id' := Option.some.inj own
  have now : ⟨.freshId, id⟩ ∈ (after.parties k).past := turn.past ▸ List.mem_cons_self
  refine Option.eq_none_iff_forall_ne_some.2 fun row present => ?_
  obtain ⟨j, earlier | ⟨reply, asked⟩⟩ := exclusion.origin id row present
  · obtain rfl := draws.apart j k id (turn.past_subset j earlier) now
    exact undrawn_of_unowned unnamed id earlier
  · exact draws.unnamed k j id reply now (turn.past_subset j asked)

/-- Every turn of a message that keeps its contract is answered as the contract expects. -/
theorem turn (exclusion : Exclusion t path buckets held before) (keyed : t.Keyed path)
    (turn : before.Turn after k x) (owned : after.HasKeys held') (draws : after.DrawsNew t.name)
    (rules : ∀ type rules, x = ⟨.rules type, .ok rules⟩ → rules.For t path)
    (owed : (exclusive t path buckets).owes (before.tenure k) x.request) :
    (exclusive t path buckets).expects (before.tenure k) x.request x.reply ∧
      Exclusion t path buckets held' after := by
  have secured := exclusion.secured k
  obtain ⟨request, reply⟩ := x
  cases request with
  | find type property v => exact exclusion.found keyed turn owned owed
  | insert d values => exact exclusion.inserted (draws.before turn) turn owned owed
  | update d values => exact exclusion.updated turn owned owed
  | delete d => exact exclusion.deleted turn owned owed
  | freshId => exact ⟨trivial, exclusion.drawn draws turn owned owed⟩
  | acquire key token =>
    refine ⟨trivial, exclusion.quiet turn owned turn.store ?_⟩
    rcases reply with e | _ | _
    · exact secured.asked rfl rfl fun unspent => ⟨unspent, List.Subset.refl _⟩
    · exact secured.asked rfl rfl fun unspent => ⟨unspent, List.Subset.refl _⟩
    · exact secured.asked rfl rfl fun unspent => ⟨unspent, List.subset_cons_self _ _⟩
  | release key => exact ⟨trivial, exclusion.quiet turn owned turn.store (secured.spent rfl rfl)⟩
  | rules type =>
    refine ⟨?_, exclusion.quiet turn owned turn.store
      (secured.asked rfl rfl fun unspent => ⟨unspent, List.Subset.refl _⟩)⟩
    cases reply with
    | error e => trivial
    | ok declared => exact rules type declared rfl
  | _ =>
    exact ⟨trivial, exclusion.quiet turn owned turn.store
      (secured.asked rfl rfl fun unspent => ⟨unspent, List.Subset.refl _⟩)⟩

end Exclusion

end Sagas
