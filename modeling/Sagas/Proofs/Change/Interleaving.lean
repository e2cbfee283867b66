import Sagas.Demo.Tally
import Sagas.Proofs.Change.Account
import Sagas.Proofs.Crew

/-!
# No change to an instance is lost

Any number of messages change one stored instance at the same time, and their calls of the store
interleave in any order. The revision of the instance counts the commits, so it tells the states of
the instance apart: a document at the revision of the stored one is the stored one. A write carries
the revision of the document that its saga received last, so what it replaces is that document.

Results:
1. `Books.quiet`, `Books.updated`, `Books.turn`: one turn of one message keeps the books.
2. `no_change_lost`: every run of every number of messages.
-/

namespace Sagas

variable {ι D B : Type}

/-- The account of a message after what it asked so far. -/
def accountOf : List (Exchange B) → Account
  | [] => .zero
  | x :: earlier => (accountOf earlier).next x.request x.reply

theorem after_changes (dataType : String) (id : Uuid) (past : List (Exchange B)) :
    (changes dataType id).after .zero past = accountOf past := by
  induction past with
  | nil => rfl
  | cons x earlier ih =>
    show Account.next _ _ _ = Account.next _ _ _
    rw [ih]

/-- So far, a message has bound no instance but `id`, and that through one saga at most. It has
neither created nor deleted any. -/
structure BindsOnly (dataType : String) (id : Uuid) (past : List (Exchange B)) : Prop where
  found : ∀ x ∈ past, ∀ d ∈ x.found?, d.dataType = dataType ∧ d.id = id
  created : ∀ x ∈ past, x.creates = false
  deleted : ∀ x ∈ past, x.deletes = false
  once : (accountOf past).loads ≤ 1

theorem Account.loads_le_next (a : Account) (request : Request B) (reply : Reply request) :
    a.loads ≤ (a.next request reply).loads := by
  unfold Account.next
  split <;> simp

variable {dataType : String} {id : Uuid}

theorem BindsOnly.earlier {x : Exchange B} {earlier : List (Exchange B)}
    (binds : BindsOnly dataType id (x :: earlier)) : BindsOnly dataType id earlier where
  found y member := binds.found y (List.mem_cons_of_mem _ member)
  created y member := binds.created y (List.mem_cons_of_mem _ member)
  deleted y member := binds.deleted y (List.mem_cons_of_mem _ member)
  once := ((accountOf earlier).loads_le_next x.request x.reply).trans binds.once

/-- What the message was answered is what it may expect. -/
theorem BindsOnly.expected {x : Exchange B} {earlier : List (Exchange B)}
    (binds : BindsOnly dataType id (x :: earlier)) :
    (changes dataType id).expects (accountOf earlier) x.request x.reply := by
  have found := binds.found x List.mem_cons_self
  have created := binds.created x List.mem_cons_self
  have deleted := binds.deleted x List.mem_cons_self
  have once := binds.once
  obtain ⟨request, reply⟩ := x
  cases request with
  | find type property value =>
    rcases reply with e | _ | d
    · trivial
    · trivial
    · exact found d rfl
  | freshId => exact nomatch created
  | delete d =>
    cases reply with
    | ok => exact nomatch deleted
    | error e => trivial
  | count counter =>
    cases counter with
    | loaded =>
      have : (accountOf earlier).loads + 1 ≤ 1 := once
      show (accountOf earlier).loads = 0
      omega
    | _ => trivial
  | _ => trivial

theorem BindsOnly.met {past : List (Exchange B)} (binds : BindsOnly dataType id past) :
    (changes dataType id).Met .zero past := by
  induction past with
  | nil => trivial
  | cons x earlier ih =>
    refine ⟨ih binds.earlier, ?_⟩
    rw [after_changes]
    exact binds.expected

/-! ## The books of a crew -/

def commitsOf (party : Party B (Processed D B)) : Nat :=
  (accountOf party.past).commits

theorem account_turn {before after : Crew ι B (Processed D B)} {k : ι} {x : Exchange B}
    (turn : before.Turn after k x) : accountOf (after.parties k).past =
      (accountOf (before.parties k).past).next x.request x.reply := by
  rw [turn.past]
  rfl

/-- A document of the instance: if its revision is that of the stored one, it is the stored one. -/
def Store.Knows (s : Store) (dataType : String) (id : Uuid) (d : Document) : Prop :=
  d.dataType = dataType ∧ d.id = id ∧ ∃ row, s.row? dataType id = some row ∧
    d.revision.number ≤ row.document.revision.number ∧
      (d.revision = row.document.revision → d = row.document)

structure Books [Fintype ι] (dataType : String) (id : Uuid) (base : Nat)
    (crew : Crew ι B (Processed D B)) : Prop where
  consistent : crew.store.Consistent
  row : ∃ row, crew.store.row? dataType id = some row ∧
    row.document.revision.number = base + ∑ k, commitsOf (crew.parties k)
  known : ∀ k d, (accountOf (crew.parties k).past).pending = some d ∨
    (accountOf (crew.parties k).past).received = some d → crew.store.Knows dataType id d
  once : ∀ k, commitsOf (crew.parties k) ≤ 1

variable [Fintype ι] {base : Nat} {crew before after : Crew ι B (Processed D B)} {k : ι}

/-- A successful update replaces what its saga received last. -/
theorem Books.replaces (books : Books dataType id base crew) {d stored : Document}
    {values : List PropertyValue} {t : Store}
    (owed : (changes (B := B) dataType id).owes (accountOf (crew.parties k).past)
      (.update d values))
    (done : crew.store.update d values = (.ok stored, t)) :
    ∃ old, crew.store.row? dataType id = some old ∧ d.dataType = dataType ∧ d.id = id ∧
      (accountOf (crew.parties k).past).received = some old.document ∧
      crew.store.Updates d values old t := by
  obtain ⟨-, typed, received, isReceived, same⟩ := owed
  obtain ⟨-, identified, row, present, -, latest⟩ := books.known k received (.inr isReceived)
  have sameId : d.id = id := (congrArg Metadata.id same).trans identified
  rcases crew.store.update_cases d values with ⟨reason, failed⟩ | ⟨old, -, updates⟩
  · exact nomatch (congrArg Prod.fst done).symm.trans (congrArg Prod.fst failed)
  · have result : (crew.store.update d values).2 = t := congrArg Prod.snd done
    have here : crew.store.row? dataType id = some old := by
      rw [← typed, ← sameId]
      exact updates.present
    cases present.symm.trans here
    have current : received = row.document :=
      latest ((congrArg Metadata.revision same).symm.trans updates.agrees)
    exact ⟨row, here, typed, sameId, current ▸ isReceived, result ▸ updates⟩

/-- A turn either leaves the store and the commits of its message as they are, or it is a successful
update. -/
theorem Exchange.quiet_or_commits {x : Exchange B} {a : Account} {s t : Store}
    (owed : (changes dataType id).owes a x.request)
    (expected : (changes dataType id).expects a x.request x.reply)
    (answers : s.Answers x.request x.reply t) :
    (t = s ∧ (a.next x.request x.reply).commits = a.commits ∧ x.commits = false) ∨
      ∃ d values stored, x = ⟨.update d values, .ok stored⟩ := by
  obtain ⟨request, reply⟩ := x
  cases request with
  | find type property value =>
    refine .inl ⟨answers.2, ?_, rfl⟩
    rcases reply with e | _ | d <;> rfl
  | insert d values => exact owed.elim
  | update d values =>
    cases reply with
    | ok stored => exact .inr ⟨d, values, stored, rfl⟩
    | error e =>
      have result : (s.update d values) = (.error e, t) := answers
      rcases s.update_cases d values with ⟨reason, failed⟩ | ⟨old, done, -⟩
      · exact .inl ⟨(congrArg Prod.snd (result.symm.trans failed)), rfl, rfl⟩
      · rw [result] at done
        cases done
  | delete d =>
    cases reply with
    | ok => exact expected.elim
    | error e =>
      have result : (s.delete d) = (.error e, t) := answers
      rcases s.delete_cases d with ⟨reason, failed⟩ | ⟨old, done, -⟩
      · exact .inl ⟨(congrArg Prod.snd (result.symm.trans failed)), rfl, rfl⟩
      · rw [result] at done
        cases done
  | count counter => exact .inl ⟨answers, by cases counter <;> rfl, rfl⟩
  | _ => exact .inl ⟨answers, rfl, rfl⟩

/-- What a message knows after a quiet exchange is known to the store. -/
theorem Store.Consistent.knows_next {s t : Store} (kept : s.Consistent) {x : Exchange B}
    {a : Account} (expected : (changes dataType id).expects a x.request x.reply)
    (answers : s.Answers x.request x.reply t)
    (known : ∀ d, a.pending = some d ∨ a.received = some d → s.Knows dataType id d) {d : Document}
    (now : (a.next x.request x.reply).pending = some d ∨
      (a.next x.request x.reply).received = some d) : s.Knows dataType id d := by
  obtain ⟨request, reply⟩ := x
  cases request with
  | find type property value =>
    rcases reply with e | _ | found
    · exact known d now
    · exact known d now
    · rcases now with same | received
      · obtain rfl : found = d := Option.some.inj same
        obtain ⟨typed, identified⟩ := expected
        have hit : s.find type property value = some found := (Except.ok.inj answers.1).symm
        obtain ⟨same, row, present, rfl⟩ := kept.find_some hit
        rw [← same, typed, identified] at present
        exact ⟨typed, identified, row, present, Nat.le_refl _, fun _ => rfl⟩
      · exact known d (.inr received)
  | insert _ _ => cases reply <;> exact known d now
  | update _ _ => cases reply <;> exact known d now
  | count counter =>
    cases counter with
    | loaded => exact known d (.inl (or_self_iff.1 now))
    | conflictResolved => exact known d (.inl (or_self_iff.1 now))
    | _ => exact known d now
  | _ => exact known d now

variable {x : Exchange B}

/-- A turn that leaves the store and the commits as they are. -/
theorem Books.quiet (books : Books dataType id base before) (turn : before.Turn after k x)
    (expected : (changes dataType id).expects (accountOf (before.parties k).past) x.request x.reply)
    (same : after.store = before.store)
    (commits : ((accountOf (before.parties k).past).next x.request x.reply).commits =
      (accountOf (before.parties k).past).commits) : Books dataType id base after := by
  have account := account_turn turn
  have sum := turn.sum fun past => (accountOf past).commits
  have unmoved : (accountOf (x :: (before.parties k).past)).commits =
    (accountOf (before.parties k).past).commits := commits
  obtain ⟨row, present, revision⟩ := books.row
  refine ⟨books.consistent.answers turn.store, ⟨row, same ▸ present, revision.trans ?_⟩, ?_, ?_⟩
  · simp only [commitsOf]
    omega
  · rw [same]
    refine turn.parties (fun _ party => ∀ d, (accountOf party.past).pending = some d ∨
      (accountOf party.past).received = some d → before.store.Knows dataType id d) ?_ books.known
    intro d knows
    rw [account] at knows
    exact books.consistent.knows_next expected turn.store (books.known k) knows
  · refine turn.parties (fun _ party => commitsOf party ≤ 1) ?_ books.once
    show (accountOf (after.parties k).past).commits ≤ 1
    rw [account, commits]
    exact books.once k

/-- An update: the row is replaced by one at the next revision, and every document known before is
older. -/
theorem Books.updated (books : Books dataType id base before) {d stored : Document}
    {values : List PropertyValue} (turn : before.Turn after k ⟨.update d values, .ok stored⟩)
    (owed : (changes (B := B) dataType id).owes (accountOf (before.parties k).past)
      (.update d values)) : Books dataType id base after := by
  have account := account_turn turn
  have sum := turn.sum fun past => (accountOf past).commits
  obtain ⟨old, present, typed, identified, -, updates⟩ := books.replaces owed turn.store
  obtain ⟨row, present', revision⟩ := books.row
  cases present.symm.trans present'
  have now : after.store.row? dataType id =
      some ⟨{ d with revision := d.revision.next }, Partition.keysOf values⟩ := by
    rw [updates.row, if_pos ⟨typed.symm, identified.symm⟩]
  have advances : d.revision.next.number = old.document.revision.number + 1 := by
    rw [updates.agrees]
    rfl
  have one : (accountOf (⟨.update d values, .ok stored⟩ :: (before.parties k).past)).commits =
    (accountOf (before.parties k).past).commits + 1 := rfl
  refine ⟨books.consistent.answers turn.store, ⟨_, now, ?_⟩, fun j e knows => ?_, ?_⟩
  · simp only [commitsOf] at revision ⊢
    show d.revision.next.number = _
    omega
  · have earlier : before.store.Knows dataType id e := by
      revert e
      refine turn.parties (fun _ party => ∀ e, (accountOf party.past).pending = some e ∨
        (accountOf party.past).received = some e → before.store.Knows dataType id e) ?_
        books.known j
      intro e knows
      rw [account] at knows
      exact books.known k e knows
    obtain ⟨typed', identified', row, present', older, -⟩ := earlier
    cases present.symm.trans present'
    refine ⟨typed', identified', _, now, ?_, fun same => ?_⟩
    · show e.revision.number ≤ d.revision.next.number
      omega
    · have : e.revision.number = d.revision.next.number := congrArg Revision.number same
      omega
  · refine turn.parties (fun _ party => commitsOf party ≤ 1) ?_ books.once
    show (accountOf (after.parties k).past).commits ≤ 1
    rw [turn.past, one, owed.1]

theorem Books.turn (books : Books dataType id base before) (turn : before.Turn after k x)
    (owed : (changes dataType id).owes (accountOf (before.parties k).past) x.request)
    (expected : (changes dataType id).expects (accountOf (before.parties k).past) x.request
      x.reply) : Books dataType id base after := by
  rcases Exchange.quiet_or_commits owed expected turn.store with
    ⟨same, commits, -⟩ | ⟨d, values, stored, rfl⟩
  · exact books.quiet turn expected same commits
  · exact books.updated turn owed

/-! ## Every run -/

variable {jobs : ι → Job D B} {store : Store} {row : Row}

/-- The books are kept in every run, and every message is at a point where it keeps its contract. -/
theorem books_of_run (reachable : store.Reachable) (present : store.row? dataType id = some row)
    (identity : ∀ k, ∀ saga ∈ (jobs k).sagas, saga.KeepsMetadata)
    {crew : Crew ι B (Processed D B)} (run : (Crew.start store fun k => (jobs k).program).Run crew)
    (binds : ∀ k, BindsOnly dataType id (crew.parties k).past) :
    Books dataType id row.document.revision.number crew ∧
      ∀ k, (crew.parties k).program.Keeps (changes dataType id)
        (accountOf (crew.parties k).past) Change.Settled := by
  have keeps : ∀ {crew : Crew ι B (Processed D B)},
      (Crew.start store fun k => (jobs k).program).Run crew →
      ∀ k, BindsOnly dataType id (crew.parties k).past →
        (crew.parties k).program.Keeps (changes dataType id)
          (accountOf (crew.parties k).past) Change.Settled := by
    intro crew run k binds
    rw [← after_changes dataType id]
    exact (run.reached k).keeps (Job.keeps_changes (identity k)) binds.met
  refine ⟨?_, fun k => keeps run k (binds k)⟩
  -- The contract tells what the mover asks, the books tell what it is answered.
  induction run with
  | start =>
    refine ⟨reachable.consistent, ⟨row, present, ?_⟩, fun k d knows => ?_, fun k => ?_⟩
    · simp [commitsOf, Crew.start, Party.start, accountOf, Account.zero]
    · rcases knows with pending | received
      · exact nomatch pending
      · exact nomatch received
    · exact Nat.zero_le 1
  | @turn before after k x run turn ih =>
    have binds' : BindsOnly dataType id (x :: (before.parties k).past) := turn.past ▸ binds k
    have earlier : ∀ j, BindsOnly dataType id (before.parties j).past := by
      intro j
      by_cases moves : j = k
      · subst moves
        exact binds'.earlier
      · rw [← turn.others j moves]
        exact binds j
    obtain ⟨rest, asks, -⟩ := turn.program
    have kept := keeps run k (earlier k)
    rw [asks] at kept
    exact (ih earlier).turn turn kept.1 binds'.expected

/-- Messages that change one stored instance lose no change and make up none: each commits at most
once, once if it succeeds, unless its handler marked the instance as unchanged, and never if it
fails; the revision of the instance counts the commits; and every commit replaces exactly the
document that the saga of the message received last. -/
theorem no_change_lost (reachable : store.Reachable) (present : store.row? dataType id = some row)
    (identity : ∀ k, ∀ saga ∈ (jobs k).sagas, saga.KeepsMetadata)
    {crew : Crew ι B (Processed D B)} (run : (Crew.start store fun k => (jobs k).program).Run crew)
    (binds : ∀ k, BindsOnly dataType id (crew.parties k).past) :
    (∀ k, commitsOf (crew.parties k) ≤ 1 ∧ ∀ m answer,
      (crew.parties k).program = .done (m, answer) →
        match answer with
        | .ok () => ((accountOf (crew.parties k).past).loads = 1 →
            ∃ i ∈ m.invocations, i.bound ≠ none) ∧
          ∀ i ∈ m.invocations, i.bound ≠ none → i.isUnchanged = false →
            commitsOf (crew.parties k) = 1
        | .error _ => commitsOf (crew.parties k) = 0) ∧
      (∃ last, crew.store.row? dataType id = some last ∧ last.document.revision.number =
        row.document.revision.number + ∑ k, commitsOf (crew.parties k)) ∧
      ∀ after k x, crew.Turn after k x → x.commits = true →
        ∃ old, crew.store.row? dataType id = some old ∧
          (accountOf (crew.parties k).past).received = some old.document := by
  obtain ⟨books, keeps⟩ := books_of_run reachable present identity run binds
  refine ⟨fun k => ⟨books.once k, fun m answer ended => ?_⟩, books.row, ?_⟩
  · have settled := keeps k
    rw [ended] at settled
    cases answer with
    | ok => exact ⟨fun loaded => settled.1 (by omega), settled.2⟩
    | error e => exact settled
  · intro after k x turn commits
    obtain ⟨rest, asks, -⟩ := turn.program
    have kept := keeps k
    rw [asks] at kept
    obtain ⟨request, reply⟩ := x
    cases request with
    | insert d values => exact kept.1.elim
    | update d values =>
      cases reply with
      | ok stored =>
        obtain ⟨old, here, -, -, received, -⟩ := books.replaces kept.1 turn.store
        exact ⟨old, here, received⟩
      | error e => exact nomatch commits
    | _ => exact nomatch commits

/-! ## Two postings to one tally -/

section Tally

open Demo

def tallyId : Uuid := Tally.number 7

/-- A stored tally of ten. -/
def tallied : Store :=
  (Store.empty.insert (Tally.dataType.toDocument ⟨⟨tallyId, .initial⟩, "rent", 10⟩)
    [⟨"Name", .string "rent"⟩]).2

def posting (amount : Nat) : Job Tally Posting :=
  ⟨.default, false, .logAndSkip, Tally.registry true, Tally.post "rent" amount, false⟩

/-- The first message has loaded the tally when the second one comes and goes, so its own write is
lost once. -/
def overtaken : Crew (Fin 2) Posting (Processed Tally Posting) :=
  (Crew.start tallied fun k => (posting (k.val + 1)).program).play (fun _ => obliging .nil)
    ([0, 0, 0, 0] ++ List.replicate 7 1 ++ List.replicate 10 0)

theorem overtaken_loses_nothing :
    (∀ k, commitsOf (overtaken.parties k) = 1) ∧
      ∃ last, overtaken.store.row? "demo.tally" tallyId = some last ∧
        last.document.revision.number = 0 + ∑ k, commitsOf (overtaken.parties k) := by
  have present : tallied.row? "demo.tally" tallyId =
      some ⟨Tally.dataType.toDocument ⟨⟨tallyId, .initial⟩, "rent", 10⟩,
        [⟨"Name", .string "rent"⟩]⟩ := by rfl
  have identity : ∀ k : Fin 2, ∀ saga ∈ (posting (k.val + 1)).sagas, saga.KeepsMetadata := by
    intro k saga member
    obtain rfl | rfl : saga = Tally.saga true ∨ saga = Tally.clearing := by
      simpa [Job.sagas, Registry.sagas, posting, Tally.registry, Registry.add, Registry.empty,
        Handler.saga?] using member
    · exact fun _ _ _ => rfl
    · exact fun _ _ _ => rfl
  have binds : ∀ k, BindsOnly "demo.tally" tallyId (overtaken.parties k).past := by
    intro k
    refine ⟨?_, ?_, ?_, ?_⟩ <;> revert k <;> decide +kernel
  refine ⟨by decide +kernel, ?_⟩
  exact (no_change_lost (.insert _ _ .empty) present identity (Crew.Run.start.play _ _) binds).2.1

end Tally

end Sagas
