import Sagas.Proofs.Lock.Traffic

/-!
# No deadlock

A message takes its keys in increasing order, so whoever waits for a key holds only lesser ones. If
everybody waited for a key that is held, whoever holds the greatest of these would wait for a held
key that is greater still.

Results:
1. `exists_greatest`: among finitely many keys there is a greatest.
2. `Run.orderly`: messages that send nothing run one in a thread, on the way of their contract.
3. `somebody_goes_on`: until all messages have ended, one of them need not wait for another.
-/

namespace Sagas

variable {ι D B α : Type}

theorem Sorted.exists_greatest [Ord α] [Std.TransOrd α] {xs : List α} (nonempty : xs ≠ []) :
    ∃ a ∈ xs, ∀ b ∈ xs, compare a b ≠ .lt := by
  induction xs with
  | nil => exact absurd rfl nonempty
  | cons a rest ih =>
    by_cases last : rest = []
    · subst last
      exact ⟨a, List.mem_cons_self, List.forall_mem_singleton.2 (not_lt_self a)⟩
    · obtain ⟨greatest, among, above⟩ := ih last
      by_cases exceeded : compare greatest a = .lt
      · have lesser : ∀ b ∈ rest, compare a b ≠ .lt := fun b member less =>
          above b member (Std.TransCmp.lt_trans exceeded less)
        exact ⟨a, List.mem_cons_self, List.forall_mem_cons.2 ⟨not_lt_self a, lesser⟩⟩
      · exact ⟨greatest, List.mem_cons_of_mem _ among, List.forall_mem_cons.2 ⟨exceeded, above⟩⟩

namespace Party

/-- What the message asks for next is this key. -/
def WaitsFor (party : Party B α) (key : String) : Prop :=
  ∃ token rest, party.program = .ask (.acquire key token) rest

/-- The message is neither at its end nor dead. -/
def Asks (party : Party B α) : Prop :=
  ∃ request rest, party.program = .ask request rest

/-- A message that sends nothing and cannot die, on the way of its contract. -/
def Orderly (party : Party B (Processed D B)) : Prop :=
  party.program.Keeps (keyring true) party.keys fun _ own => own = []

theorem Orderly.finished_or_asks {party : Party B (Processed D B)} (orderly : party.Orderly) :
    party.Finished ∨ party.Asks := by
  unfold Orderly at orderly
  cases now : party.program with
  | done r => exact .inl ⟨r, now⟩
  | ask request rest => exact .inr ⟨request, rest, now⟩
  | panic =>
    rw [now] at orderly
    exact nomatch (orderly : true = false)

/-- Whoever waits for a key holds only lesser ones. -/
theorem Orderly.lesser {party : Party B (Processed D B)} (orderly : party.Orderly)
    {key other : String} (waits : party.WaitsFor key) (own : other ∈ party.keys) :
    compare other key = .lt := by
  obtain ⟨token, rest, asks⟩ := waits
  unfold Orderly at orderly
  rw [asks] at orderly
  exact orderly.1 rfl other own

theorem Orderly.not_own {party : Party B (Processed D B)} (orderly : party.Orderly)
    {key : String} (waits : party.WaitsFor key) : key ∉ party.keys := fun own => by
  exact Sorted.not_lt_self _ (orderly.lesser waits own)

end Party

namespace Traffic

variable {jobs : ι → Job D B} {t : Traffic ι D B}

/-- A message that sends nothing stays the only one of its thread. -/
theorem Moves.orderly {job : Job D B} {held held' : List String}
    {party : Party B (Processed D B)} {later : List (Party B (Processed D B))}
    (moves : Moves job held [party] held' later) (orderly : party.Orderly)
    (within : party.keys ⊆ held) : ∃ next, later = [next] ∧ next.Orderly := by
  cases moves with
  | asks quiet answers => exact ⟨_, rfl, orderly.2 _ (expects_of_answers within answers)⟩
  | sends => exact nomatch (orderly.1 : true = false)

theorem Run.orderly (quiet : ∀ k, (jobs k).Quiet) (run : t.Run jobs) (k : ι) :
    ∃ party, t.threads k = [party] ∧ party.Orderly := by
  induction run with
  | start => exact ⟨_, rfl, (quiet k).keeps_keyring⟩
  | @turn before after mover run turn ih =>
    by_cases moves : k = mover
    · subst moves
      obtain ⟨party, alone, orderly⟩ := ih
      refine Moves.orderly (alone ▸ turn.moves) orderly fun key mine => ?_
      refine (run.sound.owned.held_iff key).2 ⟨k, ?_⟩
      simpa [Traffic.keys, alone] using mine
    · rw [turn.others k moves]
      exact ih

end Traffic

/-- Messages whose handlers send nothing and do not die cannot all wait for each other's keys: all
of them have ended, or one of them goes on, since what it asks for is not a key that is held. Nobody
ever waits for a key of its own. -/
theorem somebody_goes_on {jobs : ι → Job D B} {t : Traffic ι D B} (quiet : ∀ k, (jobs k).Quiet)
    (run : t.Run jobs) :
    ((∀ k, ∀ party ∈ t.threads k, party.Finished) ∨
      ∃ k, ∃ party ∈ t.threads k, party.Asks ∧ ∀ key, party.WaitsFor key → key ∉ t.held) ∧
      ∀ k, ∀ party ∈ t.threads k, ∀ key, party.WaitsFor key → key ∉ party.keys := by
  have orderly : ∀ k, ∀ party ∈ t.threads k, party.Orderly := fun k party member => by
    obtain ⟨only, alone, orderly⟩ := run.orderly quiet k
    rw [alone] at member
    exact List.mem_singleton.1 member ▸ orderly
  refine ⟨Classical.byContradiction fun stuck => ?_,
    fun k party member key waits => (orderly k party member).not_own waits⟩
  obtain ⟨unfinished, waiting⟩ := not_or.1 stuck
  -- Everybody who has not ended waits for a key that is held.
  have waits : ∀ k, ∀ party ∈ t.threads k, ¬ party.Finished →
      ∃ key ∈ t.held, party.WaitsFor key := by
    intro k party member going
    have asks := (orderly k party member).finished_or_asks.resolve_left going
    refine Classical.byContradiction fun free => waiting ⟨k, party, member, asks, ?_⟩
    exact fun key wants held => free ⟨key, held, wants⟩
  -- So above every key that is held there is another one.
  have above : ∀ key ∈ t.held, ∃ greater ∈ t.held, compare key greater = .lt := by
    intro key held
    obtain ⟨k, party, member, going, own⟩ := ((keys_have_owners run).held_iff key).1 held
    obtain ⟨greater, held, wants⟩ := waits k party member going
    exact ⟨greater, held, (orderly k party member).lesser wants own⟩
  simp only [not_forall] at unfinished
  obtain ⟨k, party, member, going⟩ := unfinished
  obtain ⟨key, held, -⟩ := waits k party member going
  obtain ⟨greatest, among, none⟩ := Sorted.exists_greatest (List.ne_nil_of_mem held)
  obtain ⟨greater, held, exceeds⟩ := above greatest among
  exact none greater held exceeds

/-! ## Two postings to one name -/

section Tally

open Demo

/-- Two messages post to one name. -/
def contender (second : Bool) : Job Tally Posting :=
  ⟨.default, true, .logAndSkip, Tally.registry false,
    Tally.post "rent" (if second then 2 else 1), false⟩

theorem contender_quiet (second : Bool) : (contender second).Quiet := by
  intro i member
  obtain rfl : i = .start (.saga (Tally.saga false)) (contender second).delivery.message true := by
    cases second <;> exact List.mem_singleton.1 member
  refine ⟨nofun, fun saga isSaga inst => ?_, fun saga isSaga own stored => ?_⟩
  · cases isSaga
    trivial
  · cases isSaga
    trivial

/-- The first message holds the key that the second one wants. -/
def contended : Traffic Bool Tally Posting :=
  [false, false, true].foldl (Traffic.move contender (obliging (Tally.number 1))) (.start contender)

theorem contended_goes_on : ((contended.threads true).map Party.keys = [[]] ∧
    contended.held = ["demo.tally:Name:rent"]) ∧
    ∃ k, ∃ party ∈ contended.threads k, party.Asks ∧
      ∀ key, party.WaitsFor key → key ∉ contended.held := by
  refine ⟨⟨by decide +kernel, by decide +kernel⟩,
    (somebody_goes_on contender_quiet
      (Traffic.Run.start.play (obliging (Tally.number 1)) _)).1.resolve_left ?_⟩
  intro finished
  obtain ⟨r, done⟩ := finished true _ (List.mem_singleton_self _)
  cases done

end Tally

end Sagas
