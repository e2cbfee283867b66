import Mathlib.Data.Set.Card
import Sagas.Demo.Tally
import Sagas.Proofs.Crew
import Sagas.Proofs.Statistics.Prompt
import Sagas.Proofs.Store.Instances

/-!
# Statistics and storage

Messages over one store, which starts empty, share their statistics. Every call that is granted
changes the store first and is counted then, so what the statistics say lags behind what is stored
by the calls that are yet to be counted. Once no message is on its way, nothing lags behind.

Results:
1. `Balanced.enter`: an exchange keeps statistics and store in balance.
2. `Booked.balanced`: so does every run.
3. `statistics_reconcile`: the balance while no message is on its way.
-/

namespace Sagas

variable {ι D B α : Type}

/-! ## Books -/

structure Bookkeeping where
  stats : Stats
  /-- The documents that deletions have taken out of the store. -/
  deleted : List Document

namespace Bookkeeping

def blank : Bookkeeping := ⟨.zero, []⟩

/-- The books after an exchange with this store. -/
def enter (b : Bookkeeping) (s : Store) : Exchange B → Bookkeeping
  | ⟨.count counter, _⟩ => { b with stats := b.stats.record counter }
  | ⟨.delete d, .ok ()⟩ => { b with deleted := s.stored d.dataType d.id ++ b.deleted }
  | _ => b

end Bookkeeping

/-- The turns of a run with the books that are kept of it. -/
inductive Crew.Booked (first : Crew ι B α) : Crew ι B α → Bookkeeping → Prop
  | start : Booked first first .blank
  | turn {before after : Crew ι B α} {books : Bookkeeping} {k : ι} {x : Exchange B} :
      Booked first before books → Turn before after k x →
      Booked first after (books.enter before.store x)

theorem Crew.Booked.run {first crew : Crew ι B α} {books : Bookkeeping}
    (booked : first.Booked crew books) : first.Run crew := by
  induction booked with
  | start => exact .start
  | turn _ turn ih => exact ih.turn turn

/-! ## Balance -/

/-- The revisions of all these documents together. -/
def revisions (documents : List Document) : Nat :=
  (documents.map (·.revision.number)).sum

theorem revisions_cons (d : Document) (documents : List Document) :
    revisions (d :: documents) = d.revision.number + revisions documents := rfl

theorem revisions_perm {documents documents' : List Document} (perm : documents.Perm documents') :
    revisions documents = revisions documents' :=
  (perm.map _).sum_eq

/-- What the statistics say of a store, but for what is yet to be counted. -/
structure Balanced (s : Store) (b : Bookkeeping) (pending : Counter → Nat) (contested : Nat) :
    Prop where
  inserted : b.stats.inserted + pending .inserted = s.instances.length + b.deleted.length
  updated : b.stats.updated + pending .updated = revisions s.instances + revisions b.deleted
  deleted : b.stats.deleted + pending .deleted = b.deleted.length
  conflicts : b.stats.conflicts = b.stats.conflictsResolved + contested

namespace CallPhase

/-- Whether a call of this kind is yet to be counted. -/
def pending (phase : CallPhase) (counter : Counter) : Nat :=
  if phase = .granted counter then 1 else 0

/-- Whether there is a conflict that is not resolved. -/
def conflicts (phase : CallPhase) : Nat :=
  if phase = .contested then 1 else 0

@[simp] theorem pending_granted (counter other : Counter) :
    (granted counter).pending other = if counter = other then 1 else 0 := by
  simp [pending]

end CallPhase

namespace Balanced

variable {s t : Store} {b : Bookkeeping} {pending pending' : Counter → Nat}
  {contested contested' : Nat}

theorem insert {d : Document} {values : List PropertyValue}
    (balanced : Balanced s b pending contested) (inserts : s.Inserts d values t)
    (reachable : s.Reachable) (reachable' : t.Reachable)
    (counted : ∀ c, pending' c = pending c + (CallPhase.granted .inserted).pending c) :
    Balanced t b pending' contested := by
  have perm := inserts.instances reachable reachable'
  obtain ⟨inserted, updated, deleted, conflicts⟩ := balanced
  refine ⟨?_, ?_, ?_, conflicts⟩
  · rw [counted, perm.length_eq, List.length_cons]
    simp only [CallPhase.pending_granted, if_true]
    omega
  · have first : d.revision.number = 0 := by rw [inserts.initial]; rfl
    rw [counted, revisions_perm perm, revisions_cons, first]
    simpa using updated
  · rw [counted]
    simpa using deleted

theorem update {d : Document} {values : List PropertyValue} {old : Row}
    (balanced : Balanced s b pending contested) (updates : s.Updates d values old t)
    (reachable : s.Reachable) (reachable' : t.Reachable)
    (counted : ∀ c, pending' c = pending c + (CallPhase.granted .updated).pending c) :
    Balanced t b pending' contested := by
  have perm := updates.instances reachable reachable'
  obtain ⟨inserted, updated, deleted, conflicts⟩ := balanced
  refine ⟨?_, ?_, ?_, conflicts⟩
  · have length := perm.length_eq
    rw [List.length_cons, List.length_cons, Nat.add_right_cancel_iff] at length
    rw [counted, length]
    simpa using inserted
  · have next : d.revision.next.number = old.document.revision.number + 1 := by
      rw [updates.agrees]; rfl
    have sum := revisions_perm perm
    rw [revisions_cons, revisions_cons, next] at sum
    rw [counted]
    simp only [CallPhase.pending_granted, if_true]
    omega
  · rw [counted]
    simpa using deleted

theorem delete {d : Document} {old : Row} (balanced : Balanced s b pending contested)
    (deletes : s.Deletes d old t) (reachable : s.Reachable) (reachable' : t.Reachable)
    (counted : ∀ c, pending' c = pending c + (CallPhase.granted .deleted).pending c) :
    Balanced t { b with deleted := s.stored d.dataType d.id ++ b.deleted } pending' contested := by
  have taken : s.stored d.dataType d.id = [old.document] := by
    simp [Store.stored, deletes.present]
  have perm := deletes.instances reachable reachable'
  obtain ⟨inserted, updated, deleted, conflicts⟩ := balanced
  rw [taken]
  refine ⟨?_, ?_, ?_, conflicts⟩
  · have length := perm.length_eq
    rw [List.length_cons] at length
    rw [counted, List.singleton_append, List.length_cons]
    simp only [CallPhase.pending_granted, reduceCtorEq, if_false]
    omega
  · have sum := revisions_perm perm
    rw [revisions_cons] at sum
    rw [counted, List.singleton_append, revisions_cons]
    simp only [CallPhase.pending_granted, reduceCtorEq, if_false]
    omega
  · rw [counted, List.singleton_append, List.length_cons]
    simp only [CallPhase.pending_granted, if_true]
    omega

/-- A count that is due. -/
theorem count {phase : CallPhase} {counter : Counter} (balanced : Balanced s b pending contested)
    (due : phase.admits (.count counter : Request B))
    (counted : ∀ c, pending' c + phase.pending c =
      pending c + (phase.next (.count counter : Request B) ()).pending c)
    (left : contested' + phase.conflicts =
      contested + (phase.next (.count counter : Request B) ()).conflicts) :
    Balanced s { b with stats := b.stats.record counter } pending' contested' := by
  have insertions := counted .inserted
  have updates := counted .updated
  have deletions := counted .deleted
  obtain ⟨inserted, updated, deleted, conflicts⟩ := balanced
  cases counter with
  | inserted | updated | deleted | conflict | conflictResolved =>
    obtain rfl := due
    simp only [CallPhase.next, CallPhase.pending, CallPhase.conflicts, CallPhase.granted.injEq,
      reduceCtorEq, if_true, if_false] at insertions updates deletions left
    refine ⟨?_, ?_, ?_, ?_⟩ <;> simp only [Stats.record] <;> omega
  | _ =>
    simp only [CallPhase.next, Nat.add_right_cancel_iff] at insertions updates deletions left
    refine ⟨?_, ?_, ?_, ?_⟩ <;> simp only [Stats.record] <;> omega

/-- An exchange that is due in a phase changes the statistics, or the store, as it changes what is
yet to be counted. -/
theorem enter {phase : CallPhase} {x : Exchange B} (balanced : Balanced s b pending contested)
    (reachable : s.Reachable) (reachable' : t.Reachable) (due : phase.admits x.request)
    (answers : s.Answers x.request x.reply t)
    (counted : ∀ c, pending' c + phase.pending c =
      pending c + (phase.next x.request x.reply).pending c)
    (left : contested' + phase.conflicts =
      contested + (phase.next x.request x.reply).conflicts) :
    Balanced t (b.enter s x) pending' contested' := by
  -- What is refused, or does not concern the store, changes nothing.
  have unchanged : ∀ {now : CallPhase}, phase.next x.request x.reply = now →
      (∀ c, now.pending c = phase.pending c) → now.conflicts = phase.conflicts →
        Balanced s b pending' contested' := by
    rintro _ rfl same same'
    rw [same', Nat.add_right_cancel_iff] at left
    have kept : pending' = pending := by
      funext c
      have changed := counted c
      rwa [same, Nat.add_right_cancel_iff] at changed
    rwa [kept, left]
  obtain ⟨request, reply⟩ := x
  cases request with
  | insert d values =>
    obtain rfl : phase = .settled := due
    have called : s.insert d values = (reply, t) := answers
    rcases s.insert_cases d values with ⟨e, failed⟩ | ⟨done, inserts⟩
    · cases failed.symm.trans called
      exact unchanged rfl (by cases e <;> exact fun _ => rfl) (by cases e <;> rfl)
    · rw [called] at done inserts
      cases done
      obtain rfl : contested' = contested := left
      exact balanced.insert inserts reachable reachable' counted
  | update d values =>
    obtain rfl : phase = .settled := due
    have called : s.update d values = (reply, t) := answers
    rcases s.update_cases d values with ⟨reason, failed⟩ | ⟨old, done, updates⟩
    · cases failed.symm.trans called
      exact unchanged rfl (fun _ => rfl) rfl
    · rw [called] at done updates
      cases done
      obtain rfl : contested' = contested := left
      exact balanced.update updates reachable reachable' counted
  | delete d =>
    obtain rfl : phase = .settled := due
    have called : s.delete d = (reply, t) := answers
    rcases s.delete_cases d with ⟨reason, failed⟩ | ⟨old, done, deletes⟩
    · cases failed.symm.trans called
      exact unchanged rfl (fun _ => rfl) rfl
    · rw [called] at done deletes
      cases done
      obtain rfl : contested' = contested := left
      exact balanced.delete deletes reachable reachable' counted
  | count counter =>
    obtain rfl : t = s := answers
    exact balanced.count due counted left
  | find dataType property value =>
    obtain ⟨-, rfl⟩ := answers
    exact unchanged rfl (fun _ => rfl) rfl
  | _ =>
    obtain rfl : t = s := answers
    exact unchanged rfl (fun _ => rfl) rfl

end Balanced

theorem Store.Reachable.answers {s t : Store} (reachable : s.Reachable) {request : Request B}
    {reply : Reply request} (answers : s.Answers request reply t) : t.Reachable := by
  cases request with
  | find dataType property value => exact answers.2 ▸ reachable
  | insert d values =>
    have result : (s.insert d values).2 = t := congrArg Prod.snd answers
    exact result ▸ reachable.insert d values
  | update d values =>
    have result : (s.update d values).2 = t := congrArg Prod.snd answers
    exact result ▸ reachable.update d values
  | delete d =>
    have result : (s.delete d).2 = t := congrArg Prod.snd answers
    exact result ▸ reachable.delete d
  | _ => exact (show t = s from answers) ▸ reachable

/-! ## Messages over one store -/

namespace Crew

theorem Run.reachable {first crew : Crew ι B α} (run : first.Run crew)
    (reachable : first.store.Reachable) : crew.store.Reachable := by
  induction run with
  | start => exact reachable
  | turn _ turn ih => exact ih.answers turn.store

/-- Lookups of a store do not fail. -/
theorem Run.met_counting {programs : ι → Program B α} {crew : Crew ι B α}
    (run : (Crew.start .empty programs).Run crew) (k : ι) :
    counting.Met .settled (crew.parties k).past := by
  have answered := run.answered Store.consistent_empty k
  generalize (crew.parties k).past = past at answered
  induction past with
  | nil => trivial
  | cons x earlier ih =>
    obtain ⟨⟨s, t, -, answers⟩, others⟩ := List.forall_mem_cons.1 answered
    refine ⟨ih others, ?_⟩
    obtain ⟨request, reply⟩ := x
    cases request with
    | find dataType property value =>
      obtain ⟨rfl, -⟩ := answers
      trivial
    | _ => trivial

/-- How far a party has counted its calls. -/
def phase (crew : Crew ι B α) (k : ι) : CallPhase :=
  counting.after .settled (crew.parties k).past

variable [Fintype ι]

/-- How many calls of a kind are yet to be counted. -/
def pending (crew : Crew ι B α) (counter : Counter) : Nat :=
  ∑ k, (crew.phase k).pending counter

/-- How many conflicts are not resolved. -/
def contested (crew : Crew ι B α) : Nat :=
  ∑ k, (crew.phase k).conflicts

/-- Statistics and store are in balance whenever a party has taken its turn. -/
theorem Booked.balanced {jobs : ι → Job D B} {crew : Crew ι B (Processed D B)} {books : Bookkeeping}
    (booked : (Crew.start .empty fun k => (jobs k).program).Booked crew books) :
    Balanced crew.store books crew.pending crew.contested := by
  induction booked with
  | start =>
    have none : ∀ c, (Crew.start .empty fun k => (jobs k).program).pending c = 0 := fun c =>
      Finset.sum_eq_zero fun _ _ => rfl
    have noConflict : (Crew.start .empty fun k => (jobs k).program).contested = 0 :=
      Finset.sum_eq_zero fun _ _ => rfl
    refine ⟨?_, ?_, ?_, ?_⟩
    · rw [none]; rfl
    · rw [none]; rfl
    · rw [none]; rfl
    · rw [noConflict]; rfl
  | @turn before after books k x booked turn ih =>
    have run := booked.run
    obtain ⟨rest, asks, -⟩ := turn.program
    have keeps := (run.reached k).keeps (jobs k).keeps_counting (run.met_counting k)
    rw [asks] at keeps
    have due : (before.phase k).admits x.request := keeps.1
    refine ih.enter (run.reachable .empty) ((run.turn turn).reachable .empty) due turn.store
      (fun c => ?_) ?_
    · exact turn.sum fun past => (counting.after .settled past).pending c
    · exact turn.sum fun past => (counting.after .settled past).conflicts

end Crew

/-! ## At rest -/

/-- The message is not on its way: it has not begun, it has ended, or it has died. -/
def Party.atRest (party : Party B α) : Bool :=
  match party.past, party.program with
  | [], _ | _, .done _ | _, .panic => true
  | _, .ask .. => false

theorem Party.atRest_iff {party : Party B α} : party.atRest = true ↔
    party.past = [] ∨ (∃ r, party.program = .done r) ∨ party.program = .panic := by
  obtain ⟨past, program⟩ := party
  cases past <;> cases program <;> simp [atRest]

namespace Crew

/-- The message has ended at a write that left a conflict. -/
def EndsUnresolved (jobs : ι → Job D B) (crew : Crew ι B (Processed D B)) (k : ι) : Prop :=
  (∃ r, (crew.parties k).program = .done r) ∧ (jobs k).Unresolved (crew.parties k).past

/-- The message has died while application code resolved a conflict. -/
def DiesResolving (crew : Crew ι B α) (k : ι) : Prop :=
  (crew.parties k).program = .panic ∧ crew.phase k = .contested

variable {jobs : ι → Job D B} {crew : Crew ι B (Processed D B)} {k : ι}

/-- A message that is not on its way has counted everything. -/
theorem Run.counted (run : (Crew.start .empty fun k => (jobs k).program).Run crew)
    (rests : (crew.parties k).atRest = true) {counter : Counter}
    (call : counter = .inserted ∨ counter = .updated ∨ counter = .deleted) :
    (crew.phase k).pending counter = 0 := by
  have counts := ((run.reached k).counts (jobs k).counts_at_once).2 counter call
  refine if_neg fun lags => ?_
  obtain ⟨left, asks⟩ := counts lags
  rcases Party.atRest_iff.1 rests with first | ⟨r, ended⟩ | died
  · rw [phase, first] at lags
    cases lags
  · cases ended.symm.trans asks
  · cases died.symm.trans asks

/-- A conflict that it has left is one that it has ended or died with. -/
theorem Run.contested_iff (run : (Crew.start .empty fun k => (jobs k).program).Run crew)
    (rests : (crew.parties k).atRest = true) :
    crew.phase k = .contested ↔ crew.EndsUnresolved jobs k ∨ crew.DiesResolving k := by
  have ended : ∀ r, (crew.parties k).program = .done r →
      (crew.phase k = .contested ↔ (jobs k).Unresolved (crew.parties k).past) := by
    intro r isDone
    have done : (crew.parties k).program.Returns [] r := isDone ▸ .done r
    have returns : (jobs k).program.Returns (crew.parties k).past r := done.whole (run.reached k)
    exact Job.contested_iff returns (run.met_counting k)
  constructor
  · intro contested
    rcases Party.atRest_iff.1 rests with first | ⟨r, isDone⟩ | died
    · rw [phase, first] at contested
      cases contested
    · exact .inl ⟨⟨r, isDone⟩, (ended r isDone).1 contested⟩
    · exact .inr ⟨died, contested⟩
  · rintro (⟨⟨r, isDone⟩, unresolved⟩ | ⟨-, contested⟩)
    · exact (ended r isDone).2 unresolved
    · exact contested

variable [Fintype ι]

theorem ncard_eq_sum (p : ι → Prop) [DecidablePred p] :
    {k | p k}.ncard = ∑ k, if p k then 1 else 0 := by
  rw [Finset.sum_boole, Set.ncard_eq_toFinset_card']
  simp

/-- The conflicts that are not resolved are those that messages have ended or died with. -/
theorem Run.contested_eq (run : (Crew.start .empty fun k => (jobs k).program).Run crew)
    (rests : ∀ k, (crew.parties k).atRest = true) : crew.contested =
      {k | crew.EndsUnresolved jobs k}.ncard + {k | crew.DiesResolving k}.ncard := by
  classical
  rw [ncard_eq_sum, ncard_eq_sum, ← Finset.sum_add_distrib]
  refine Finset.sum_congr rfl fun k _ => ?_
  have apart : crew.EndsUnresolved jobs k → ¬ crew.DiesResolving k := by
    rintro ⟨⟨r, isDone⟩, -⟩ ⟨died, -⟩
    cases isDone.symm.trans died
  rw [CallPhase.conflicts, if_congr (run.contested_iff (rests k)) rfl rfl]
  by_cases unresolved : crew.EndsUnresolved jobs k
  · simp [unresolved, apart unresolved]
  · simp [unresolved]

end Crew

/-- Messages over one store, which is empty at first, take turns in any order. At every moment,
except for the calls that are granted but not yet counted, the inserts are the stored and the
deleted instances, the updates are their revisions together, and the conflicts are those resolved
and those still left. While no message is on its way, there are no such calls, and the conflicts
that are left are those of the commits and deletions that have ended with one, or during which their
message has died. -/
theorem statistics_reconcile [Fintype ι] {jobs : ι → Job D B}
    {crew : Crew ι B (Processed D B)} {books : Bookkeeping}
    (booked : (Crew.start .empty fun k => (jobs k).program).Booked crew books) :
    Balanced crew.store books crew.pending crew.contested ∧
      ((∀ k, (crew.parties k).atRest = true) →
        books.stats.inserted = crew.store.instances.length + books.stats.deleted ∧
        books.stats.updated = revisions crew.store.instances + revisions books.deleted ∧
        books.stats.deleted = books.deleted.length ∧
        books.stats.conflicts = books.stats.conflictsResolved +
          {k | crew.EndsUnresolved jobs k}.ncard + {k | crew.DiesResolving k}.ncard) := by
  have balanced := booked.balanced
  refine ⟨balanced, fun rests => ?_⟩
  have none : ∀ counter, counter = .inserted ∨ counter = .updated ∨ counter = .deleted →
      crew.pending counter = 0 := fun counter call =>
    Finset.sum_eq_zero fun k _ => booked.run.counted (rests k) call
  obtain ⟨inserted, updated, deleted, conflicts⟩ := balanced
  rw [none _ (.inl rfl), Nat.add_zero] at inserted
  rw [none _ (.inr (.inl rfl)), Nat.add_zero] at updated
  rw [none _ (.inr (.inr rfl)), Nat.add_zero] at deleted
  refine ⟨by rw [deleted, inserted], updated, deleted, ?_⟩
  rw [conflicts, booked.run.contested_eq rests, Nat.add_assoc]

/-! ## Taking turns with books -/

namespace Crew

variable [DecidableEq ι]

/-- The turn of one party, and the books after it. -/
def moveBooked (others : ι → (request : Request B) → Reply request)
    (now : Crew ι B α × Bookkeeping) (k : ι) : Crew ι B α × Bookkeeping :=
  (now.1.move others k, match (now.1.parties k).program with
    | .ask request _ => now.2.enter now.1.store ⟨request, (now.1.store.serve (others k) request).1⟩
    | _ => now.2)

/-- The turns of the parties that a schedule names, and the books of them. -/
def playBooked (others : ι → (request : Request B) → Reply request) (crew : Crew ι B α)
    (schedule : List ι) : Crew ι B α × Bookkeeping :=
  schedule.foldl (moveBooked others) (crew, .blank)

theorem booked_play (others : ι → (request : Request B) → Reply request) (crew : Crew ι B α)
    (schedule : List ι) :
    crew.Booked (crew.playBooked others schedule).1 (crew.playBooked others schedule).2 := by
  have further : ∀ now : Crew ι B α × Bookkeeping, crew.Booked now.1 now.2 →
      crew.Booked (schedule.foldl (moveBooked others) now).1
        (schedule.foldl (moveBooked others) now).2 := by
    induction schedule with
    | nil => exact fun _ booked => booked
    | cons k rest ih =>
      refine fun now booked => ih _ ?_
      unfold moveBooked
      split
      next request left asks => exact booked.turn (turn_of_ask others asks)
      next other =>
        have idle : now.1.move others k = now.1 := by
          unfold Crew.move
          split
          next asks => exact absurd asks (other _ _)
          next => rfl
        rwa [idle]
  exact further _ .start

end Crew

/-! ## A tally that is fought over -/

section Tally

open Demo

/-- Deletes the tally of a name. -/
def windingUp : Saga Tally Posting :=
  { Tally.saga false with
    name := "saga.winding-up"
    initiators := []
    rules := [.body "demo.close" "Name" .string fun posting => some (.string posting.name)]
    handle := fun _ _ inst => .done ⟨inst.data, true, false, .ok ()⟩ }

/-- Two messages post to a name and resolve their conflicts, a third one does not resolve them, and
a fourth one closes the tally. -/
def fought (k : Fin 4) : Job Tally Posting :=
  match k with
  | 0 | 1 => ⟨.default, false, .logAndSkip, Tally.registry true, Tally.post "rent" 1, false⟩
  | 2 => ⟨.default, false, .logAndSkip, Tally.registry false, Tally.post "rent" 1, false⟩
  | 3 => ⟨.default, false, .logAndSkip, Registry.empty.add "demo.close" (.saga windingUp),
      ⟨⟨"demo.close", [], ⟨"rent", 0⟩⟩, .ofId .nil, false⟩, false⟩

/-- The first two messages look for the tally before one of them inserts it. The third one loads it
before the second one has updated it. -/
def foughtRun : Crew (Fin 4) Posting (Processed Tally Posting) × Bookkeeping :=
  (Crew.start .empty fun k => (fought k).program).playBooked
    (fun k => obliging (Tally.number (k + 1)))
    (List.replicate 4 0 ++ List.replicate 20 1 ++ List.replicate 3 2 ++ List.replicate 30 0 ++
      List.replicate 20 2 ++ List.replicate 20 3)

/-- One insert is lost and becomes an update, and one update is lost for good; then the tally is
deleted, at its first revision. -/
theorem fought_books_balance :
    foughtRun.2.stats = ⟨2, 2, 1, 1, 1, 0, 0, 2, 1⟩ ∧ foughtRun.1.store.instances = [] ∧
      revisions foughtRun.2.deleted = 1 ∧
      {k | foughtRun.1.EndsUnresolved fought k}.ncard +
        {k | foughtRun.1.DiesResolving k}.ncard = 1 := by
  have counted : foughtRun.2.stats = ⟨2, 2, 1, 1, 1, 0, 0, 2, 1⟩ := by decide +kernel
  have rests : ∀ k, (foughtRun.1.parties k).atRest = true := by decide +kernel
  have booked : (Crew.start .empty fun k => (fought k).program).Booked foughtRun.1 foughtRun.2 :=
    Crew.booked_play _ _ _
  obtain ⟨inserted, updated, -, conflicts⟩ := (statistics_reconcile booked).2 rests
  rw [counted] at inserted updated conflicts
  dsimp only at inserted updated conflicts
  have empty : foughtRun.1.store.instances = [] := List.eq_nil_of_length_eq_zero (by omega)
  rw [empty, revisions, List.map_nil, List.sum_nil] at updated
  exact ⟨counted, empty, by omega, by omega⟩

end Tally

end Sagas
