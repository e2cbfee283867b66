import Sagas.Proofs.Crew
import Sagas.Proofs.Race.Initiator

/-!
# The turns of a race

Any number of messages each start an instance of one saga under the same value, at the same time,
and their calls of the store interleave in any order. Until the first insert the race is undecided
and nobody finds anything. From then on it is won by one identity: everybody finds that instance,
no other insert can succeed, and the revision of the instance counts the writes. A write is lost
only to another one that came in between, so a message loses fewer writes than there are messages.

Results:
1. `Race.finds`, `Race.inserts`, `Race.updates`: what the store answers a message of the race.
2. `Race.quiet`, `Race.inserted`, `Race.updated`, `Race.lost`: the kinds of turns.
3. `Race.turn`: every turn is of one of these kinds, and is answered as the contract expects.
-/

namespace Sagas

variable {ι D B α : Type}

/-- The standing of a message after what it asked so far. -/
def standingOf : List (Exchange B) → Standing
  | [] => .zero
  | x :: earlier => (standingOf earlier).next x.request x.reply

namespace Exchange

/-- The identifier that was given out. -/
def fresh? : Exchange B → Option Uuid
  | ⟨.freshId, id⟩ => some id
  | _ => none

/-- Rules are those that the saga declares, and every lock is given. -/
def Usual : Exchange B → Prop
  | ⟨.rules type, reply⟩ => reply = type.declaration
  | ⟨.acquire .., reply⟩ => reply = .ok true
  | _ => True

end Exchange

/-- So far, rules and locks were given as usual, and all identifiers were new. -/
structure Crew.Usual (store : Store) (dataType : String) (crew : Crew ι B α) : Prop where
  usual : ∀ k, ∀ x ∈ (crew.parties k).past, x.Usual
  fresh : ∀ k, ∀ x ∈ (crew.parties k).past, ∀ id ∈ x.fresh?, store.row? dataType id = none
  distinct : ∀ j k, ∀ x ∈ (crew.parties j).past, ∀ y ∈ (crew.parties k).past,
    ∀ id ∈ x.fresh?, id ∈ y.fresh? → j = k

theorem Crew.Usual.before {store : Store} {dataType : String} {before after : Crew ι B α} {k : ι}
    {x : Exchange B} (usual : after.Usual store dataType) (turn : before.Turn after k x) :
    before.Usual store dataType where
  usual j y member := usual.usual j y (turn.past_subset j member)
  fresh j y member := usual.fresh j y (turn.past_subset j member)
  distinct i j y member z member' :=
    usual.distinct i j y (turn.past_subset i member) z (turn.past_subset j member')

/-- An instance that was created got its identity from the surroundings. -/
theorem fresh_of_own {past : List (Exchange B)} {id : Uuid}
    (own : (standingOf past).own = some id) : ∃ x ∈ past, id ∈ x.fresh? := by
  induction past with
  | nil => exact nomatch own
  | cons x earlier ih =>
    obtain ⟨request, reply⟩ := x
    have older : (standingOf earlier).own = some id →
        ∃ x ∈ (⟨request, reply⟩ : Exchange B) :: earlier, id ∈ x.fresh? := fun own => by
      obtain ⟨y, member, isFresh⟩ := ih own
      exact ⟨y, List.mem_cons_of_mem _ member, isFresh⟩
    cases request with
    | freshId => exact ⟨_, List.mem_cons_self, own⟩
    | find type property value => rcases reply with e | _ | d <;> exact older own
    | insert d values => rcases reply with (_ | _ | _) | _ <;> exact older own
    | update d values => rcases reply with (_ | _ | _) | _ <;> exact older own
    | _ => exact older own

/-! ## The race -/

/-- No stored instance has the value, in its data or in the index. -/
def Store.Vacant (store : Store) (s : Saga D B) (path : String) (v : Scalar) : Prop :=
  ∀ id row, store.row? s.dataType.name id = some row →
    ⟨path, v⟩ ∉ row.keys ∧ ¬ s.Holds path v row.document

namespace Crew

def standing (crew : Crew ι B α) (k : ι) : Standing :=
  standingOf (crew.parties k).past

variable {before after : Crew ι B α} {k : ι} {x : Exchange B}

theorem Turn.standing (turn : before.Turn after k x) :
    after.standing k = (before.standing k).next x.request x.reply := by
  unfold Crew.standing
  rw [turn.past]
  rfl

/-- What holds of every standing stays so if it does for the one that moves. -/
theorem Turn.standings (turn : before.Turn after k x) (holds : Standing → Prop)
    (mover : holds (after.standing k)) (rest : ∀ j, holds (before.standing j)) (j : ι) :
    holds (after.standing j) :=
  turn.parties (fun _ party => holds (standingOf party.past)) mover rest j

variable [Fintype ι]

/-- How many writes all messages have made. -/
def commits (crew : Crew ι B α) : Nat :=
  ∑ k, (crew.standing k).commits

def inserts (crew : Crew ι B α) : Nat :=
  ∑ k, (crew.standing k).inserts

/-- A turn changes a sum over the standings as it changes the summand of the one that moves. -/
theorem Turn.sum_standings (turn : before.Turn after k x) (f : Standing → Nat) {n : Nat}
    (adds : f (after.standing k) = f (before.standing k) + n) :
    ∑ j, f (after.standing j) = ∑ j, f (before.standing j) + n := by
  have sum := turn.sum fun past => f (standingOf past)
  unfold Crew.standing at adds ⊢
  rw [turn.past] at adds
  omega

theorem Turn.commits (turn : before.Turn after k x) {n : Nat}
    (adds : (after.standing k).commits = (before.standing k).commits + n) :
    after.commits = before.commits + n :=
  turn.sum_standings Standing.commits adds

theorem Turn.inserts (turn : before.Turn after k x) {n : Nat}
    (adds : (after.standing k).inserts = (before.standing k).inserts + n) :
    after.inserts = before.inserts + n :=
  turn.sum_standings Standing.inserts adds

end Crew

namespace Race

variable [Fintype ι]

/-- Nothing has been written and nothing found. -/
structure Undecided (store : Store) (crew : Crew ι B α) : Prop where
  store : crew.store = store
  commits : crew.commits = 0
  inserts : crew.inserts = 0
  unseen : ∀ k, (crew.standing k).seen = none

/-- The instance of one message is stored, and it is the only one that anybody has found. -/
structure Won (s : Saga D B) (path : String) (v : Scalar) (store : Store) (crew : Crew ι B α)
    (id : Uuid) (row : Row) : Prop where
  present : crew.store.row? s.dataType.name id = some row
  keyed : ⟨path, v⟩ ∈ row.keys
  holds : s.Holds path v row.document
  others : ∀ other, other ≠ id →
    crew.store.row? s.dataType.name other = store.row? s.dataType.name other
  winner : ∃ k, (crew.standing k).own = some id ∧ (crew.standing k).commits ≠ 0
  inserts : crew.inserts = 1
  commits : crew.commits = row.document.revision.number + 1
  seen : ∀ k d, (crew.standing k).seen = some d →
    d.id = id ∧ d.revision.number ≤ row.document.revision.number

end Race

/-- What holds in every run of the race. -/
structure Race [Fintype ι] (s : Saga D B) (path : String) (v : Scalar) (store : Store)
    (crew : Crew ι B α) : Prop where
  consistent : crew.store.Consistent
  stage : Race.Undecided store crew ∨ ∃ id row, Race.Won s path v store crew id row
  once : ∀ k, (crew.standing k).commits ≤ 1
  conflicts : ∀ k, (crew.standing k).conflicts ≤ crew.commits

namespace Race

variable [Fintype ι] {s : Saga D B} {path : String} {v : Scalar} {store : Store}
  {crew before after : Crew ι B α} {k : ι}

/-- Nobody owns the value before the first insert. -/
theorem unowned (kept : store.Consistent) (vacant : store.Vacant s path v) :
    store.owner? s.dataType.name ⟨path, v⟩ = none := by
  cases owned : store.owner? s.dataType.name ⟨path, v⟩ with
  | none => rfl
  | some id =>
    obtain ⟨row, present, member⟩ := kept.owner.1 owned
    exact absurd member (vacant id row present).1

theorem Won.owner {id : Uuid} {row : Row} (won : Won s path v store crew id row)
    (kept : crew.store.Consistent) : crew.store.owner? s.dataType.name ⟨path, v⟩ = some id :=
  kept.owner.2 ⟨row, won.present, won.keyed⟩

/-- An instance with the value is the one that won. -/
theorem Won.unique {id other : Uuid} {row row' : Row} (won : Won s path v store crew id row)
    (vacant : store.Vacant s path v) (present : crew.store.row? s.dataType.name other = some row')
    (holds : s.Holds path v row'.document) : other = id := by
  by_contra apart
  rw [won.others other apart] at present
  exact (vacant other row' present).2 holds

/-- A message that has not written yet has lost fewer writes than there are others. -/
theorem few (race : Race s path v store crew) (unwritten : (crew.standing k).commits = 0) :
    crew.commits < Fintype.card ι := by
  -- Everybody writes at most once, and this one has not.
  have less : crew.commits < ∑ _k : ι, 1 :=
    Finset.sum_lt_sum (fun j _ => race.once j) ⟨k, Finset.mem_univ k, by omega⟩
  simpa using less

/-! ## What the store answers -/

variable {n : Nat}

theorem typed_of_holds {d : Document} (holds : s.Holds path v d) :
    d.dataType = s.dataType.name := by
  obtain ⟨data, reads, -⟩ := holds
  exact (Invocation.read_eq_ok reads).1

/-- A lookup finds the instance that won. Nothing is found under the value only as long as the race
is undecided, and nothing under an identity only if nobody has found that identity. -/
theorem finds (race : Race s path v store crew) (vacant : store.Vacant s path v)
    (other : path ≠ identityPath) {type property : String} {value : Scalar}
    (owed : (racing s path v n).owes (crew.standing k) (.find type property value))
    (fresh : ∀ id, (crew.standing k).own = some id → store.row? s.dataType.name id = none) :
    (∃ id row, Won s path v store crew id row ∧
      crew.store.find type property value = some row.document) ∨
    crew.store.find type property value = none ∧
      if property = identityPath then ∀ d, (crew.standing k).seen = some d → value ≠ .uuid d.id
      else Undecided store crew := by
  obtain ⟨rfl, ⟨rfl, rfl⟩ | ⟨rfl, id', rfl, who⟩⟩ := owed
  · rw [if_neg other, Store.find_property other]
    rcases race.stage with undecided | ⟨id, row, won⟩
    · have unowned := unowned race.consistent (undecided.store.symm ▸ vacant)
      exact .inr ⟨by rw [unowned]; rfl, undecided⟩
    · refine .inl ⟨id, row, won, ?_⟩
      rw [won.owner race.consistent, Option.bind_some, won.present]
      rfl
  · rw [if_pos rfl, Store.find_identity]
    rcases race.stage with undecided | ⟨id, row, won⟩
    · rcases who with own | ⟨d, seen, -⟩
      · refine .inr ⟨by rw [undecided.store, fresh id' own]; rfl, fun d seen => ?_⟩
        exact nomatch (undecided.unseen k).symm.trans seen
      · exact nomatch (undecided.unseen k).symm.trans seen
    · by_cases same : id' = id
      · exact .inl ⟨id, row, won, by rw [same, won.present]; rfl⟩
      · rcases who with own | ⟨d, seen, rfl⟩
        · refine .inr ⟨by rw [won.others id' same, fresh id' own]; rfl, fun d seen value => ?_⟩
          have identified : id' = d.id := Scalar.uuid.inj value
          exact same (identified.trans (won.seen k d seen).1)
        · exact absurd (won.seen k d seen).1 same

/-- An insert succeeds as long as the race is undecided, and conflicts from then on. -/
theorem inserts (race : Race s path v store crew) (vacant : store.Vacant s path v)
    (other : path ≠ identityPath) (set : v.isUnset = false) {d : Document}
    {values : List PropertyValue}
    (owed : (racing s path v n).owes (crew.standing k) (.insert d values))
    (fresh : store.row? s.dataType.name d.id = none)
    (distinct : ∀ j, (crew.standing j).own = some d.id → j = k) :
    (Undecided store crew ∧ (crew.store.insert d values).1 = .ok d ∧
      crew.store.Inserts d values (crew.store.insert d values).2) ∨
    ∃ id row, Won s path v store crew id row ∧
      ∃ reason, crew.store.insert d values = (.error (.conflict reason), crew.store) := by
  obtain ⟨unwritten, -, -, initial, holds, carried⟩ := owed
  have typed := typed_of_holds holds
  have keys : ∀ key, key ∈ Partition.keysOf values ↔ key = ⟨path, v⟩ := by
    intro key
    rw [Partition.mem_keysOf, carried]
    refine and_iff_left_of_imp ?_
    rintro rfl
    exact ⟨other, set⟩
  -- Before the first insert nobody owns the value, and after it the winner does.
  rcases race.stage with undecided | ⟨id, row, won⟩
  · refine .inl ⟨undecided, Store.inserts_of_free initial ?_ fun key member owner owned => ?_⟩
    · rw [undecided.store, typed]
      exact fresh
    · obtain rfl := (keys key).1 member
      have unowned := unowned race.consistent (undecided.store.symm ▸ vacant)
      rw [← typed] at unowned
      exact nomatch unowned.symm.trans owned
  · refine .inr ⟨id, row, won, Store.insert_conflict initial ?_⟩
    rintro ⟨-, free⟩
    have owned := won.owner race.consistent
    rw [← typed] at owned
    have same : id = d.id := free ⟨path, v⟩ ((keys _).2 rfl) id owned
    obtain ⟨j, own, wrote⟩ := won.winner
    exact wrote (distinct j (same ▸ own) ▸ unwritten)

/-- An update is one of the instance that won. It succeeds, unless the instance was written since
the message found it. -/
theorem updates (race : Race s path v store crew) {d : Document} {values : List PropertyValue}
    (owed : (racing s path v n).owes (crew.standing k) (.update d values)) :
    ∃ id row, Won s path v store crew id row ∧ d.id = id ∧
      ((∃ stored, (crew.store.update d values).1 = .ok stored ∧
          crew.store.Updates d values row (crew.store.update d values).2) ∨
        d.revision.number < row.document.revision.number ∧
          ∃ reason, crew.store.update d values = (.error (.conflict reason), crew.store)) := by
  obtain ⟨-, ⟨e, seen, same⟩, -, holds, carried⟩ := owed
  have typed : d.dataType = s.dataType.name :=
    typed_of_holds (d := { d with revision := d.revision.next }) holds
  rcases race.stage with undecided | ⟨id, row, won⟩
  · exact nomatch (undecided.unseen k).symm.trans seen
  · obtain ⟨identified, older⟩ := won.seen k e seen
    have isWinner : d.id = id := (congrArg Metadata.id same).trans identified
    have revision : d.revision = e.revision := congrArg Metadata.revision same
    have present : crew.store.row? d.dataType d.id = some row := by
      rw [typed, isWinner]
      exact won.present
    refine ⟨id, row, won, isWinner, ?_⟩
    rcases crew.store.update_cases d values with failed | ⟨old, done, updates⟩
    · -- At the revision of the row nothing would stand in the way of the update.
      refine .inr ⟨?_, failed⟩
      by_contra current
      have agrees : d.revision = row.document.revision := by
        have : d.revision.number = row.document.revision.number := by
          rw [revision] at current ⊢
          omega
        exact congrArg Revision.mk this
      obtain ⟨reason, failed⟩ := failed
      have free : (crew.store.partition d.dataType).Free d.id (Partition.keysOf values) := by
        intro key member owner owned
        obtain rfl := (carried key).1 (Partition.mem_keysOf.1 member).1
        have isOwner := won.owner race.consistent
        rw [← typed] at isOwner
        exact (Option.some.inj (owned.symm.trans isOwner)).trans isWinner.symm
      have possible := Store.updates_of_current (s := crew.store) ⟨present, agrees⟩ free
      rw [failed] at possible
      exact nomatch possible.1
    · cases present.symm.trans updates.present
      exact .inl ⟨_, done, updates⟩

/-! ## One turn -/

variable {x : Exchange B}

/-- A turn that leaves the store as it is. -/
theorem quiet (race : Race s path v store before) (vacant : store.Vacant s path v)
    (turn : before.Turn after k x) (unchanged : after.store = before.store) {now : Standing}
    (next : after.standing k = now) (commits : now.commits = (before.standing k).commits)
    (inserts : now.inserts = (before.standing k).inserts)
    (conflicts : now.conflicts ≤ before.commits)
    (own : ∀ id, (before.standing k).own = some id → now.own = some id)
    (seen : ∀ d, now.seen = some d → (before.standing k).seen = some d ∨
      ∃ id row, Won s path v store before id row ∧ d = row.document) :
    Race s path v store after := by
  subst next
  have total : after.commits = before.commits := turn.commits (n := 0) commits
  have allInserts : after.inserts = before.inserts := turn.inserts (n := 0) inserts
  refine ⟨unchanged ▸ race.consistent, ?_, ?_, ?_⟩
  · rcases race.stage with undecided | ⟨id, row, won⟩
    · refine .inl ⟨unchanged.trans undecided.store, total.trans undecided.commits,
        allInserts.trans undecided.inserts, turn.standings (·.seen = none) ?_ undecided.unseen⟩
      cases now : (after.standing k).seen with
      | none => rfl
      | some d =>
        rcases seen d now with before | ⟨id, row, won, -⟩
        · exact nomatch (undecided.unseen k).symm.trans before
        · exact nomatch won.commits.symm.trans undecided.commits
    · -- The winner keeps its identity and its writes, whoever moves.
      have winner : ∃ j, (after.standing j).own = some id ∧ (after.standing j).commits ≠ 0 := by
        obtain ⟨j, isOwn, wrote⟩ := won.winner
        refine ⟨j, turn.parties (fun i party => i = j →
          (standingOf party.past).own = some id ∧ (standingOf party.past).commits ≠ 0) ?_ ?_ j rfl⟩
        · rintro rfl
          exact ⟨own id isOwn, commits ▸ wrote⟩
        · rintro i rfl
          exact ⟨isOwn, wrote⟩
      have latest : ∀ d, (after.standing k).seen = some d →
          d.id = id ∧ d.revision.number ≤ row.document.revision.number := by
        intro d now
        rcases seen d now with before | ⟨id', row', won', rfl⟩
        · exact won.seen k d before
        · obtain rfl := won.unique vacant won'.present won'.holds
          cases won.present.symm.trans won'.present
          exact ⟨race.consistent.id won.present, Nat.le_refl _⟩
      exact .inr ⟨id, row, {
        present := unchanged ▸ won.present
        keyed := won.keyed
        holds := won.holds
        others := unchanged ▸ won.others
        winner := winner
        inserts := allInserts.trans won.inserts
        commits := total.trans won.commits
        seen := turn.standings (fun a => ∀ d, a.seen = some d →
          d.id = id ∧ d.revision.number ≤ row.document.revision.number) latest won.seen }⟩
  · exact turn.standings (·.commits ≤ 1) (commits ▸ race.once k) race.once
  · rw [total]
    exact turn.standings (·.conflicts ≤ before.commits) conflicts race.conflicts

/-- What a write does to the counts. -/
theorem written (race : Race s path v store before) (turn : before.Turn after k x) {now : Standing}
    (next : after.standing k = now) (unwritten : (before.standing k).commits = 0)
    (commits : now.commits = (before.standing k).commits + 1)
    (conflicts : now.conflicts = (before.standing k).conflicts) :
    after.commits = before.commits + 1 ∧ (∀ j, (after.standing j).commits ≤ 1) ∧
      ∀ j, (after.standing j).conflicts ≤ after.commits := by
  subst next
  have total : after.commits = before.commits + 1 := turn.commits commits
  refine ⟨total, ?_, ?_⟩
  · refine turn.standings (·.commits ≤ 1) ?_ race.once
    rw [commits, unwritten]
  · rw [total]
    refine turn.standings (·.conflicts ≤ before.commits + 1) ?_
      fun j => (race.conflicts j).trans (Nat.le_succ _)
    rw [conflicts]
    exact (race.conflicts k).trans (Nat.le_succ _)

/-- The insert that decides the race. -/
theorem inserted (race : Race s path v store before) (turn : before.Turn after k x)
    (undecided : Undecided store before) {d : Document} {values : List PropertyValue}
    (next : after.standing k = { before.standing k with
      inserts := (before.standing k).inserts + 1, commits := (before.standing k).commits + 1 })
    (inserts : before.store.Inserts d values after.store)
    (own : (before.standing k).own = some d.id) (holds : s.Holds path v d)
    (keyed : ⟨path, v⟩ ∈ Partition.keysOf values) :
    Race s path v store after := by
  have typed := typed_of_holds holds
  have unwritten : (before.standing k).commits = 0 :=
    Finset.sum_eq_zero_iff.1 undecided.commits k (Finset.mem_univ k)
  obtain ⟨total, once, conflicts⟩ := race.written turn next unwritten rfl rfl
  have allInserts : after.inserts = before.inserts + 1 := turn.inserts (by rw [next])
  have unseen : ∀ j, (after.standing j).seen = none := by
    refine turn.standings (·.seen = none) ?_ undecided.unseen
    rw [next]
    exact undecided.unseen k
  have won : Won s path v store after d.id ⟨d, Partition.keysOf values⟩ := {
    present := by rw [inserts.row, if_pos ⟨typed.symm, rfl⟩]
    keyed := keyed
    holds := holds
    others := fun other apart => by
      rw [inserts.row, if_neg fun here => apart here.2, undecided.store]
    winner := ⟨k, by rw [next]; exact own, by rw [next]; exact Nat.succ_ne_zero _⟩
    inserts := by rw [allInserts, undecided.inserts]
    commits := by
      rw [total, undecided.commits, inserts.initial]
      rfl
    seen := fun j e seen => nomatch (unseen j).symm.trans seen }
  exact ⟨race.consistent.answers turn.store, .inr ⟨_, _, won⟩, once, conflicts⟩

/-- An update of the instance that won. -/
theorem updated (race : Race s path v store before) (turn : before.Turn after k x) {id : Uuid}
    {row : Row} (won : Won s path v store before id row) {d : Document}
    {values : List PropertyValue} (unwritten : (before.standing k).commits = 0)
    (next : after.standing k = { before.standing k with
      commits := (before.standing k).commits + 1 })
    (updates : before.store.Updates d values row after.store) (identified : d.id = id)
    (holds : s.Holds path v { d with revision := d.revision.next })
    (keyed : ⟨path, v⟩ ∈ Partition.keysOf values) : Race s path v store after := by
  have typed : d.dataType = s.dataType.name :=
    typed_of_holds (d := { d with revision := d.revision.next }) holds
  obtain ⟨total, once, conflicts⟩ := race.written turn next unwritten rfl rfl
  have allInserts : after.inserts = before.inserts := turn.inserts (n := 0) (by rw [next]; rfl)
  have advances : d.revision.next.number = row.document.revision.number + 1 := by
    rw [updates.agrees]
    rfl
  have older : ∀ j e, (before.standing j).seen = some e →
      e.id = id ∧ e.revision.number ≤ d.revision.next.number := fun j e seen =>
    ⟨(won.seen j e seen).1, by have := (won.seen j e seen).2; omega⟩
  have winner : ∃ j, (after.standing j).own = some id ∧ (after.standing j).commits ≠ 0 := by
    obtain ⟨j, isOwn, wrote⟩ := won.winner
    have apart : j ≠ k := by
      rintro rfl
      exact wrote unwritten
    have stays : after.standing j = before.standing j := by
      unfold Crew.standing
      rw [turn.others j apart]
    exact ⟨j, stays ▸ isOwn, stays ▸ wrote⟩
  have won' : Won s path v store after id
      ⟨{ d with revision := d.revision.next }, Partition.keysOf values⟩ := {
    present := by rw [updates.row, if_pos ⟨typed.symm, identified.symm⟩]
    keyed := keyed
    holds := holds
    others := fun other apart => by
      rw [updates.row, if_neg fun here => apart (here.2.trans identified)]
      exact won.others other apart
    winner := winner
    inserts := allInserts.trans won.inserts
    commits := by
      show after.commits = d.revision.next.number + 1
      rw [total, won.commits, advances]
    seen := by
      refine turn.standings (fun a => ∀ e, a.seen = some e →
        e.id = id ∧ e.revision.number ≤ d.revision.next.number) ?_ older
      rw [next]
      exact older k }
  exact ⟨race.consistent.answers turn.store, .inr ⟨_, _, won'⟩, once, conflicts⟩

/-- The value is among the keys of a write. -/
theorem keyed_of_carried {values : List PropertyValue} (other : path ≠ identityPath)
    (set : v.isUnset = false) (carried : ∀ key, key ∈ values ↔ key = ⟨path, v⟩) :
    ⟨path, v⟩ ∈ Partition.keysOf values :=
  Partition.mem_keysOf.2 ⟨(carried _).2 rfl, other, set⟩

/-- A turn in which a write is lost. -/
theorem lost (race : Race s path v store before) (vacant : store.Vacant s path v)
    (turn : before.Turn after k x) (unchanged : after.store = before.store)
    (next : after.standing k = { before.standing k with
      conflicts := (before.standing k).conflicts + 1 })
    (unwritten : (before.standing k).commits = 0)
    (overtaken : (before.standing k).conflicts + 1 ≤ before.commits) :
    (before.standing k).conflicts + 1 < Fintype.card ι ∧ Race s path v store after := by
  refine ⟨Nat.lt_of_le_of_lt overtaken (race.few unwritten), ?_⟩
  exact race.quiet vacant turn unchanged next rfl rfl overtaken (fun _ own => own)
    fun _ seen => .inl seen

/-- A turn of no consequence. -/
theorem idle (race : Race s path v store before) (vacant : store.Vacant s path v)
    (turn : before.Turn after k x) (unchanged : after.store = before.store)
    (next : after.standing k = before.standing k) : Race s path v store after :=
  race.quiet vacant turn unchanged next rfl rfl (race.conflicts k) (fun _ own => own)
    fun _ seen => .inl seen

/-- A lookup. -/
theorem looked {type property : String} {value : Scalar}
    {reply : Except StorageError (Option Document)} (race : Race s path v store before)
    (vacant : store.Vacant s path v) (other : path ≠ identityPath)
    (turn : before.Turn after k ⟨.find type property value, reply⟩)
    (owed : (racing (B := B) s path v (Fintype.card ι)).owes (before.standing k)
      (.find type property value))
    (fresh : ∀ id, (before.standing k).own = some id → store.row? s.dataType.name id = none) :
    (racing (B := B) s path v (Fintype.card ι)).expects (before.standing k)
      (.find type property value) reply ∧ Race s path v store after := by
  have next := turn.standing
  obtain ⟨answer, unchanged⟩ : reply = .ok (before.store.find type property value) ∧
    after.store = before.store := turn.store
  rcases race.finds vacant other owed fresh with ⟨id, row, won, found⟩ | ⟨absent, meaning⟩
  · obtain rfl : reply = .ok (some row.document) := answer.trans (by rw [found])
    refine ⟨⟨won.holds, won.commits ▸ race.conflicts k⟩, ?_⟩
    exact race.quiet vacant turn unchanged next rfl rfl (race.conflicts k) (fun _ own => own)
      fun _ seen => .inr ⟨id, row, won, (Option.some.inj seen).symm⟩
  · obtain rfl : reply = .ok none := answer.trans (by rw [absent])
    refine ⟨?_, race.idle vacant turn unchanged next⟩
    show ite _ _ _
    split
    next isId => rwa [if_pos isId] at meaning
    next notId =>
      rw [if_neg notId] at meaning
      have := race.conflicts k
      have := meaning.commits
      omega

/-- An insert, which decides the race or is lost. -/
theorem wrote_new {d : Document} {values : List PropertyValue}
    {reply : Except StorageError Document} (race : Race s path v store before)
    (vacant : store.Vacant s path v) (other : path ≠ identityPath) (set : v.isUnset = false)
    (turn : before.Turn after k ⟨.insert d values, reply⟩)
    (owed : (racing (B := B) s path v (Fintype.card ι)).owes (before.standing k)
      (.insert d values))
    (fresh : store.row? s.dataType.name d.id = none)
    (distinct : ∀ j, (before.standing j).own = some d.id → j = k) :
    (racing (B := B) s path v (Fintype.card ι)).expects (before.standing k) (.insert d values)
      reply ∧ Race s path v store after := by
  have next := turn.standing
  have answers : before.store.insert d values = (reply, after.store) := turn.store
  obtain ⟨unwritten, unlost, own, -, holds, carried⟩ := id owed
  rcases race.inserts vacant other set owed fresh distinct with
    ⟨undecided, done, inserts⟩ | ⟨id, row, won, reason, failed⟩
  · rw [answers] at done inserts
    obtain rfl : reply = .ok d := done
    exact ⟨trivial,
      race.inserted turn undecided next inserts own holds (keyed_of_carried other set carried)⟩
  · obtain ⟨rfl, same⟩ := Prod.mk.inj (failed.symm.trans answers)
    have := won.commits
    obtain ⟨few, race'⟩ := race.lost vacant turn same.symm next unwritten (by omega)
    exact ⟨⟨few, reason, rfl⟩, race'⟩

/-- An update, which is made or lost. -/
theorem wrote_again {d : Document} {values : List PropertyValue}
    {reply : Except StorageError Document} (race : Race s path v store before)
    (vacant : store.Vacant s path v) (other : path ≠ identityPath) (set : v.isUnset = false)
    (turn : before.Turn after k ⟨.update d values, reply⟩)
    (owed : (racing (B := B) s path v (Fintype.card ι)).owes (before.standing k)
      (.update d values)) :
    (racing (B := B) s path v (Fintype.card ι)).expects (before.standing k) (.update d values)
      reply ∧ Race s path v store after := by
  have next := turn.standing
  have answers : before.store.update d values = (reply, after.store) := turn.store
  obtain ⟨unwritten, -, bound, holds, carried⟩ := id owed
  obtain ⟨id, row, won, identified, ⟨stored, done, updates⟩ | ⟨older, reason, failed⟩⟩ :=
    race.updates owed
  · rw [answers] at done updates
    obtain rfl : reply = .ok stored := done
    exact ⟨trivial, race.updated turn won unwritten next updates identified holds
      (keyed_of_carried other set carried)⟩
  · obtain ⟨rfl, same⟩ := Prod.mk.inj (failed.symm.trans answers)
    have := won.commits
    obtain ⟨few, race'⟩ := race.lost vacant turn same.symm next unwritten (by omega)
    exact ⟨⟨few, reason, rfl⟩, race'⟩

/-- Every turn of a message that keeps the contract is answered as the contract expects, and the
race goes on. -/
theorem turn (race : Race s path v store before) (vacant : store.Vacant s path v)
    (other : path ≠ identityPath) (set : v.isUnset = false) (turn : before.Turn after k x)
    (usual : after.Usual store s.dataType.name)
    (owed : (racing s path v (Fintype.card ι)).owes (before.standing k) x.request) :
    (racing s path v (Fintype.card ι)).expects (before.standing k) x.request x.reply ∧
      Race s path v store after := by
  have next := turn.standing
  have answers := turn.store
  have asUsual : x.Usual := usual.usual k x (turn.past ▸ List.mem_cons_self)
  have fresh : ∀ id, (before.standing k).own = some id → store.row? s.dataType.name id = none := by
    intro id own
    obtain ⟨y, member, isFresh⟩ := fresh_of_own own
    exact (usual.before turn).fresh k y member id isFresh
  obtain ⟨request, reply⟩ := x
  cases request with
  | find type property value => exact race.looked vacant other turn owed fresh
  | insert d values =>
    obtain ⟨-, -, own, -⟩ := id owed
    refine race.wrote_new vacant other set turn owed (fresh d.id own) fun j own' => ?_
    obtain ⟨y, member, isFresh⟩ := fresh_of_own own
    obtain ⟨z, member', isFresh'⟩ := fresh_of_own own'
    exact (usual.before turn).distinct j k z member' y member d.id isFresh' isFresh
  | update d values => exact race.wrote_again vacant other set turn owed
  | delete d => exact owed.elim
  | rules type => exact ⟨asUsual, race.idle vacant turn answers next⟩
  | acquire key token => exact ⟨asUsual, race.idle vacant turn answers next⟩
  | freshId =>
    have unowned : (before.standing k).own = none := owed
    refine ⟨trivial, ?_⟩
    exact race.quiet vacant turn answers next rfl rfl (race.conflicts k)
      (fun _ own => nomatch unowned.symm.trans own) fun _ seen => .inl seen
  | _ => exact ⟨trivial, race.idle vacant turn answers next⟩

end Race

end Sagas
