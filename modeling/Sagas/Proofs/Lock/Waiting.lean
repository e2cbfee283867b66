import Mathlib.Data.Nat.Find
import Mathlib.Order.Bounds.Basic
import Mathlib.Order.WellFounded
import Sagas.Lock.Table

/-!
# How long a caller waits

A caller that wants a key looks at its cancellation, attempts to take the key, looks at the clock
and sleeps, over and over. How often is not set in advance: `Waits` is that loop with no bound on
its rounds, over any history of what the others hold. That it ends, and when, is proved of it; the
wait and the table that run come to the same.

A history says what a caller finds held that looks at each time. Whether a cancellation that is set
for the time of an attempt precedes it is not said, and what holds of a call holds both ways.

Results:
1. `Waits.exact`: what any run of the loop comes to, by induction on its rounds.
2. `Waits.wait_eq`, `Table.waits_acquire`: the wait and the table run the loop to its end.
3. `acquire_bounded_exact`: the attempts of a call, its answer, when it answers and what is held
   then, for any history of other holders.
-/

namespace Sagas.Lock

/-! ## The loop -/

/-- What a call for a key has come to: the times of its attempts, how it ended, and what is held
then. -/
structure Outcome where
  attempts : List Nat
  stop : WaitEnd
  held : List String

/-- The cancellation, if there is one, does not precede an attempt at that time. -/
def InTime (tie : Tie) (cancelAt : Option Nat) (time : Nat) : Prop :=
  ∀ cancelled ∈ cancelAt, tie.precedes cancelled time = false

def WaitEnd.time : WaitEnd → Nat
  | .taken time | .timedOut time | .cancelled time => time

def WaitEnd.answer : WaitEnd → Bool
  | .taken _ => true
  | .timedOut _ | .cancelled _ => false

theorem WaitEnd.answer_iff (stop : WaitEnd) : stop.answer = true ↔ ∃ time, stop = .taken time := by
  cases stop <;> simp [answer]

/-- Time of the attempt with that number. -/
def attemptAt (start pause k : Nat) : Nat :=
  start + k * pause

@[simp]
theorem attemptAt_zero (start pause : Nat) : attemptAt start pause 0 = start := by
  simp [attemptAt]

/-- The attempts after the first one are those of a caller that comes a pause later. -/
theorem attemptAt_succ (start pause k : Nat) :
    attemptAt start pause (k + 1) = attemptAt (start + pause) pause k := by
  simp only [attemptAt, Nat.succ_mul]
  omega

theorem le_attemptAt (start pause k : Nat) : start ≤ attemptAt start pause k :=
  Nat.le_add_right ..

section

namespace Tie

variable {tie : Tie} {cancelled time later : Nat}

theorem le_of_precedes (precedes : tie.precedes cancelled time = true) : cancelled ≤ time := by
  cases tie with
  | attempt => exact Nat.le_of_lt (of_decide_eq_true precedes)
  | cancellation => exact of_decide_eq_true precedes

theorem precedes_of_lt (before : cancelled < time) : tie.precedes cancelled time = true := by
  cases tie with
  | attempt => exact decide_eq_true before
  | cancellation => exact decide_eq_true before.le

theorem precedes_mono (precedes : tie.precedes cancelled time = true) (le : time ≤ later) :
    tie.precedes cancelled later = true := by
  cases tie with
  | attempt => exact decide_eq_true ((of_decide_eq_true precedes).trans_le le)
  | cancellation => exact decide_eq_true ((of_decide_eq_true precedes).trans le)

end Tie

/-- The loop of a caller that wants `key`, from `now` on. What is set for the time at which it is
called off has happened then. -/
inductive Waits (tie : Tie) (history : Nat → List String) (key : String) (pause deadline : Nat)
    (cancelAt : Option Nat) : Nat → Outcome → Prop
  /-- The caller is called off before an attempt. -/
  | refused {now time : Nat} : time ∈ cancelAt → tie.precedes time now = true →
      Waits tie history key pause deadline cancelAt now
        ⟨[], .cancelled now, history (max now (time + 1))⟩
  | taken {now : Nat} : InTime tie cancelAt now → key ∉ history now →
      Waits tie history key pause deadline cancelAt now ⟨[now], .taken now, key :: history now⟩
  | late {now : Nat} : InTime tie cancelAt now → key ∈ history now → deadline ≤ now →
      Waits tie history key pause deadline cancelAt now ⟨[now], .timedOut now, history now⟩
  /-- The caller is called off in its sleep. -/
  | calledOff {now time : Nat} : InTime tie cancelAt now → key ∈ history now → now < deadline →
      time ∈ cancelAt → time < now + pause →
      Waits tie history key pause deadline cancelAt now
        ⟨[now], .cancelled time, history (time + 1)⟩
  | again {now : Nat} {o : Outcome} : InTime tie cancelAt now → key ∈ history now →
      now < deadline → (∀ cancelled ∈ cancelAt, now + pause ≤ cancelled) →
      Waits tie history key pause deadline cancelAt (now + pause) o →
      Waits tie history key pause deadline cancelAt now { o with attempts := now :: o.attempts }

variable {tie : Tie} {history : Nat → List String} {key : String}
  {pause deadline start now last : Nat} {cancelAt : Option Nat} {o o' : Outcome}

theorem InTime.le {time cancelled : Nat} (inTime : InTime tie cancelAt time)
    (set : cancelled ∈ cancelAt) : time ≤ cancelled := by
  refine Nat.not_lt.mp fun before => ?_
  have precedes : tie.precedes cancelled time = true := Tie.precedes_of_lt before
  rw [inTime cancelled set] at precedes
  cases precedes

theorem not_inTime {time cancelled : Nat} (set : cancelled ∈ cancelAt)
    (precedes : tie.precedes cancelled time = true) : ¬ InTime tie cancelAt time :=
  fun inTime => absurd precedes (by simp [inTime cancelled set])

/-- The loop has one way to go. -/
theorem Waits.unique (one : Waits tie history key pause deadline cancelAt now o)
    (other : Waits tie history key pause deadline cancelAt now o') : o = o' := by
  induction one generalizing o' with
  | refused set precedes =>
    have no := not_inTime set precedes
    cases other with
    | refused set' => rw [Option.mem_unique set set']
    | taken inTime | late inTime | calledOff inTime | again inTime => exact absurd inTime no
  | taken inTime free =>
    cases other with
    | refused set precedes => exact absurd inTime (not_inTime set precedes)
    | taken => rfl
    | late _ held | calledOff _ held | again _ held => exact absurd held free
  | late inTime held late =>
    cases other with
    | refused set precedes => exact absurd inTime (not_inTime set precedes)
    | taken _ free => exact absurd held free
    | late => rfl
    | calledOff _ _ early | again _ _ early => exact absurd early (Nat.not_lt.mpr late)
  | calledOff inTime held early set before =>
    cases other with
    | refused set precedes => exact absurd inTime (not_inTime set precedes)
    | taken _ free => exact absurd held free
    | late _ _ late => exact absurd early (Nat.not_lt.mpr late)
    | calledOff _ _ _ set' => rw [Option.mem_unique set set']
    | again _ _ _ after => exact absurd before (Nat.not_lt.mpr (after _ set))
  | again inTime held early after later ih =>
    cases other with
    | refused set precedes => exact absurd inTime (not_inTime set precedes)
    | taken _ free => exact absurd held free
    | late _ _ late => exact absurd early (Nat.not_lt.mpr late)
    | calledOff _ _ _ set before => exact absurd before (Nat.not_lt.mpr (after _ set))
    | again _ _ _ _ later' => rw [ih later']

/-! ## What it comes to -/

/-- The times at which an attempt would get the key, were it made. -/
def chances (tie : Tie) (history : Nat → List String) (key : String) (pause : Nat)
    (cancelAt : Option Nat) (start last : Nat) : Set Nat :=
  {time | ∃ k ≤ last, time = attemptAt start pause k ∧ InTime tie cancelAt time ∧
    key ∉ history time}

/-- How a wait ends that never finds its key free. -/
def failing (tie : Tie) (pause : Nat) (cancelAt : Option Nat) (start last : Nat) : WaitEnd :=
  match cancelAt.filter (tie.precedes · (attemptAt start pause last)) with
  | some cancelled => .cancelled (max start cancelled)
  | none => .timedOut (attemptAt start pause last)

/-- What a call comes to whose attempts are numbered from 0 to `last`. -/
structure Exact (tie : Tie) (history : Nat → List String) (key : String) (pause : Nat)
    (cancelAt : Option Nat) (start last : Nat) (o : Outcome) : Prop where
  /-- The first attempt is made at once, each other one a pause after the one before. -/
  attempts_eq : o.attempts = (List.range o.attempts.length).map (attemptAt start pause)
  /-- No attempt is left out, but for a cancellation or a success before it. -/
  made_iff : ∀ k, k < o.attempts.length ↔
    k ≤ last ∧ InTime tie cancelAt (attemptAt start pause k) ∧
      ∀ j < k, key ∈ history (attemptAt start pause j)
  taken_iff : ∀ time,
    o.stop = .taken time ↔ IsLeast (chances tie history key pause cancelAt start last) time
  failed : chances tie history key pause cancelAt start last = ∅ →
    o.stop = failing tie pause cancelAt start last
  held_of_taken : ∀ time, o.stop = .taken time → o.held = key :: history time
  held_of_failed : o.stop.answer = false →
    o.held = history o.stop.time ∨ o.held = history (o.stop.time + 1)

/-! ### Rounds -/

/-- Whoever finds the key held has the chances of a caller that comes a pause later. -/
theorem chances_succ (held : key ∈ history start) :
    chances tie history key pause cancelAt start (last + 1) =
      chances tie history key pause cancelAt (start + pause) last := by
  ext time
  constructor
  · rintro ⟨k, le, rfl, inTime, free⟩
    cases k with
    | zero => exact absurd held (by simpa using free)
    | succ k =>
      rw [attemptAt_succ] at *
      exact ⟨k, Nat.le_of_succ_le_succ le, rfl, inTime, free⟩
  · rintro ⟨k, le, rfl, inTime, free⟩
    rw [← attemptAt_succ] at *
    exact ⟨k + 1, Nat.succ_le_succ le, rfl, inTime, free⟩

/-- One that comes a pause later, and is not called off before, fails at the same time. -/
theorem failing_succ (after : ∀ cancelled ∈ cancelAt, start + pause ≤ cancelled) :
    failing tie pause cancelAt start (last + 1) =
      failing tie pause cancelAt (start + pause) last := by
  unfold failing
  rw [attemptAt_succ]
  cases cancelAt with
  | none => rfl
  | some cancelled =>
    have same : max start cancelled = max (start + pause) cancelled := by
      have := after cancelled rfl
      omega
    by_cases precedes : tie.precedes cancelled (attemptAt (start + pause) pause last) <;>
      simp [Option.filter, precedes, same]

/-- A call that is over at its first round and has not got the key. -/
theorem Exact.of_first_round {stop : WaitEnd} {held : List String} {attempts : List Nat}
    (first : attempts = (List.range attempts.length).map (attemptAt start pause))
    (made : ∀ k, k < attempts.length ↔ k = 0 ∧ InTime tie cancelAt start)
    (held_start : InTime tie cancelAt start → key ∈ history start)
    (no_next : ∀ k, 0 < k → k ≤ last → ¬ InTime tie cancelAt (attemptAt start pause k))
    (stop_eq : stop = failing tie pause cancelAt start last) (fails : stop.answer = false)
    (held_eq : held = history stop.time ∨ held = history (stop.time + 1)) :
    Exact tie history key pause cancelAt start last ⟨attempts, stop, held⟩ := by
  have none : chances tie history key pause cancelAt start last = ∅ := by
    refine Set.eq_empty_of_forall_notMem ?_
    rintro _ ⟨k, le, rfl, inTime, free⟩
    cases k with
    | zero =>
      rw [attemptAt_zero] at inTime free
      exact free (held_start inTime)
    | succ k => exact no_next _ (Nat.succ_pos k) le inTime
  have not_taken : ∀ time, stop ≠ .taken time := by
    rintro time rfl
    cases fails
  refine ⟨first, fun k => (made k).trans ⟨?_, ?_⟩, fun time => ?_, fun _ => stop_eq,
    fun time taken => absurd taken (not_taken time), fun _ => held_eq⟩
  · rintro ⟨rfl, inTime⟩
    exact ⟨Nat.zero_le last, by simpa using inTime, nofun⟩
  · rintro ⟨le, inTime, -⟩
    cases k with
    | zero => exact ⟨rfl, by simpa using inTime⟩
    | succ k => exact absurd inTime (no_next _ (Nat.succ_pos k) le)
  · refine ⟨fun taken => absurd taken (not_taken time), fun least => ?_⟩
    exact absurd least.1 (by simp [none])

theorem Exact.of_free (inTime : InTime tie cancelAt start) (free : key ∉ history start) :
    Exact tie history key pause cancelAt start last
      ⟨[start], .taken start, key :: history start⟩ := by
  have least : IsLeast (chances tie history key pause cancelAt start last) start := by
    refine ⟨⟨0, Nat.zero_le last, (attemptAt_zero ..).symm, inTime, free⟩, ?_⟩
    rintro _ ⟨k, -, rfl, -⟩
    exact le_attemptAt ..
  refine ⟨by simp, fun k => ?_, fun time => ?_, fun none => ?_, ?_, fun fails => ?_⟩
  · simp only [List.length_singleton, Nat.lt_one_iff]
    constructor
    · rintro rfl
      exact ⟨Nat.zero_le last, by simpa using inTime, nofun⟩
    · rintro ⟨-, -, earlier⟩
      refine Nat.eq_zero_of_not_pos fun pos => free ?_
      simpa using earlier 0 pos
  · rw [WaitEnd.taken.injEq]
    exact ⟨fun same => same ▸ least, fun other => least.unique other⟩
  · exact absurd least.1 (by simp [none])
  · rintro _ ⟨⟩
    rfl
  · exact absurd fails nofun

/-- A round that ends in a whole sleep. -/
theorem Exact.again (inTime : InTime tie cancelAt start) (held : key ∈ history start)
    (after : ∀ cancelled ∈ cancelAt, start + pause ≤ cancelled)
    (later : Exact tie history key pause cancelAt (start + pause) last o) :
    Exact tie history key pause cancelAt start (last + 1)
      { o with attempts := start :: o.attempts } := by
  refine ⟨?_, fun k => ?_, ?_, ?_, later.held_of_taken, later.held_of_failed⟩
  · rw [List.length_cons, List.range_succ_eq_map, List.map_cons, List.map_map, attemptAt_zero]
    refine congrArg (start :: ·) (later.attempts_eq.trans ?_)
    exact List.map_congr_left fun k _ => (attemptAt_succ ..).symm
  · rw [List.length_cons]
    cases k with
    | zero => simp [inTime]
    | succ k =>
      rw [Nat.succ_lt_succ_iff, later.made_iff, Nat.forall_lt_succ_left]
      simp [attemptAt_succ, held]
  · rw [chances_succ held]
    exact later.taken_iff
  · rw [chances_succ held, failing_succ after]
    exact later.failed

/-! ### Runs -/

theorem final_zero (final : IsLeast {k | deadline ≤ attemptAt start pause k} last)
    (late : deadline ≤ start) : last = 0 :=
  Nat.le_zero.mp (final.2 (by simpa using late))

/-- Before its deadline a caller is not at its last attempt. -/
theorem final_succ (final : IsLeast {k | deadline ≤ attemptAt start pause k} last)
    (early : start < deadline) :
    ∃ k, last = k + 1 ∧ IsLeast {k | deadline ≤ attemptAt (start + pause) pause k} k := by
  cases last with
  | zero =>
    have late : deadline ≤ start := by simpa using final.1
    omega
  | succ k =>
    have last_late : deadline ≤ attemptAt start pause (k + 1) := final.1
    rw [attemptAt_succ] at last_late
    refine ⟨k, rfl, last_late, fun other (late : deadline ≤ attemptAt _ _ other) => ?_⟩
    rw [← attemptAt_succ] at late
    exact Nat.le_of_succ_le_succ (final.2 late)

/-- Whatever the rounds of a call, it is exact. -/
theorem Waits.exact (waits : Waits tie history key pause deadline cancelAt start o)
    (final : IsLeast {k | deadline ≤ attemptAt start pause k} last) :
    Exact tie history key pause cancelAt start last o := by
  induction waits generalizing last with
  | @refused start time set precedes =>
    have before : ∀ k, tie.precedes time (attemptAt start pause k) = true :=
      fun k => Tie.precedes_mono precedes (le_attemptAt ..)
    have now : ¬ InTime tie cancelAt start := not_inTime set precedes
    have le : time ≤ start := Tie.le_of_precedes precedes
    refine .of_first_round rfl (by simp [now]) (absurd · now)
      (fun k _ _ => not_inTime set (before k)) ?_ rfl ?_
    · obtain rfl : cancelAt = some time := set
      simp [failing, Option.filter, before, Nat.max_eq_left le]
    · obtain same | same : max start (time + 1) = start ∨ max start (time + 1) = start + 1 := by
        omega
      · exact .inl (congrArg history same)
      · exact .inr (congrArg history same)
  | @taken start inTime free => exact .of_free inTime free
  | @late start inTime held late =>
    obtain rfl := final_zero final late
    refine .of_first_round (by simp) (by simp [inTime]) (fun _ => held) (by omega) ?_ rfl
      (.inl rfl)
    cases cancelAt with
    | none => simp [failing]
    | some cancelled =>
      have after : tie.precedes cancelled start = false := inTime cancelled rfl
      simp [failing, Option.filter, after]
  | @calledOff start time inTime held early set before =>
    obtain ⟨m, rfl, -⟩ := final_succ final early
    have next : ∀ k, tie.precedes time (attemptAt start pause (k + 1)) = true := fun k => by
      rw [attemptAt_succ]
      exact Tie.precedes_of_lt (before.trans_le (le_attemptAt ..))
    refine .of_first_round (by simp) (by simp [inTime]) (fun _ => held) ?_ ?_ rfl (.inr rfl)
    · intro k pos _
      obtain ⟨k, rfl⟩ := Nat.exists_eq_succ_of_ne_zero pos.ne'
      exact not_inTime set (next k)
    · have after : start ≤ time := inTime.le set
      obtain rfl : cancelAt = some time := set
      simp [failing, Option.filter, next, after]
  | again inTime held early after _ ih =>
    obtain ⟨m, rfl, final'⟩ := final_succ final early
    exact (ih final').again inTime held after

namespace Exact

variable (exactly : Exact tie history key pause cancelAt start last o)

include exactly

theorem answer_iff : o.stop.answer = true ↔
    (chances tie history key pause cancelAt start last).Nonempty := by
  rw [WaitEnd.answer_iff]
  constructor
  · rintro ⟨time, taken⟩
    exact ⟨time, ((exactly.taken_iff time).mp taken).1⟩
  · intro some
    exact ⟨_, (exactly.taken_iff _).mpr ⟨WellFounded.min_mem wellFounded_lt _ some,
      fun _ mem => WellFounded.min_le wellFounded_lt mem⟩⟩

/-- Nobody waits beyond the last attempt. -/
theorem time_le : o.stop.time ≤ attemptAt start pause last := by
  by_cases some : (chances tie history key pause cancelAt start last).Nonempty
  · obtain ⟨time, taken⟩ := o.stop.answer_iff.mp (exactly.answer_iff.mpr some)
    obtain ⟨⟨k, le, rfl, -⟩, -⟩ := (exactly.taken_iff time).mp taken
    rw [taken]
    exact Nat.add_le_add_left (Nat.mul_le_mul_right pause le) start
  · rw [exactly.failed (Set.not_nonempty_iff_eq_empty.mp some)]
    unfold failing
    split
    next cancelled set =>
      have precedes := (Option.filter_eq_some_iff.mp set).2
      exact Nat.max_le.mpr ⟨le_attemptAt .., Tie.le_of_precedes precedes⟩
    next => exact le_rfl

end Exact

/-! ## What runs -/

/-- The key is free for an attempt at that time. -/
def isFree (history : Nat → List String) (key : String) (time : Nat) : Bool :=
  !(history time).contains key

/-- What is held after a wait that began before its cancellation. What is set for the time at which
it is called off has happened then. -/
def WaitEnd.held (history : Nat → List String) (key : String) : WaitEnd → List String
  | .taken time => key :: history time
  | .timedOut time => history time
  | .cancelled time => history (time + 1)

/-- What a wait comes to that began before its cancellation. -/
def WaitEnd.outcome (history : Nat → List String) (key : String) (stop : WaitEnd)
    (attempts : List Nat) : Outcome :=
  ⟨attempts, stop, stop.held history key⟩

theorem waitWithin_refused {free : Nat → Bool} {time : Nat} (set : time ∈ cancelAt)
    (precedes : tie.precedes time now = true) (rounds : Nat) :
    waitWithin tie free pause deadline cancelAt (rounds + 1) now = .cancelled now := by
  obtain rfl : cancelAt = some time := set
  simp [waitWithin, precedes]

theorem InTime.not_any (inTime : InTime tie cancelAt now) :
    ¬ cancelAt.any (tie.precedes · now) = true := by
  cases cancelAt with
  | none => nofun
  | some time => simp [inTime time rfl]

theorem exists_precedes (late : ¬ InTime tie cancelAt now) :
    ∃ time ∈ cancelAt, tie.precedes time now = true := by
  simpa [InTime] using late

/-- A round that is the last one. -/
theorem waits_of_ends (after : ∀ cancelled ∈ cancelAt, now ≤ cancelled)
    (ends : ¬ InTime tie cancelAt now ∨ key ∉ history now ∨ deadline ≤ now) (rounds : Nat) :
    ∃ attempts, Waits tie history key pause deadline cancelAt now
      ((waitWithin tie (isFree history key) pause deadline cancelAt (rounds + 1) now).outcome
        history key attempts) := by
  by_cases inTime : InTime tie cancelAt now
  · rw [waitWithin, if_neg inTime.not_any]
    by_cases held : key ∈ history now
    · have late : deadline ≤ now := (ends.resolve_left (absurd inTime)).resolve_left (absurd held)
      have taken : isFree history key now = false := by simp [isFree, held]
      rw [taken, if_neg nofun, if_pos late]
      exact ⟨[now], .late inTime held late⟩
    · rw [if_pos (by simp [isFree, held])]
      exact ⟨[now], .taken inTime held⟩
  · obtain ⟨time, set, precedes⟩ := exists_precedes inTime
    rw [waitWithin_refused set precedes]
    have same : max now (time + 1) = now + 1 := by
      have := after time set
      have := Tie.le_of_precedes precedes
      omega
    refine ⟨[], ?_⟩
    rw [WaitEnd.outcome, WaitEnd.held, ← same]
    exact .refused set precedes

/-- Whoever has rounds enough left until the deadline runs the loop to its end. -/
theorem waits_waitWithin (positive : 0 < pause) {rounds : Nat}
    (enough : deadline ≤ now + rounds * pause) (after : ∀ cancelled ∈ cancelAt, now ≤ cancelled) :
    ∃ attempts, Waits tie history key pause deadline cancelAt now
      ((waitWithin tie (isFree history key) pause deadline cancelAt (rounds + 1) now).outcome
        history key attempts) := by
  induction rounds generalizing now with
  | zero => exact waits_of_ends after (.inr (.inr (by simpa using enough))) 0
  | succ rounds ih =>
    by_cases ends : ¬ InTime tie cancelAt now ∨ key ∉ history now ∨ deadline ≤ now
    · exact waits_of_ends after ends _
    obtain ⟨inTime, held, early⟩ :
        InTime tie cancelAt now ∧ key ∈ history now ∧ now < deadline := by simpa using ends
    have sleeps : max pause 1 = pause := Nat.max_eq_left positive
    have taken : isFree history key now = false := by simp [isFree, held]
    rw [waitWithin, if_neg inTime.not_any, taken, if_neg nofun, if_neg (Nat.not_le.mpr early),
      sleeps]
    split
    next cancelled set =>
      obtain ⟨set, before⟩ := Option.filter_eq_some_iff.mp set
      exact ⟨_, .calledOff inTime held early set (by simpa using before)⟩
    next undisturbed =>
      have later : ∀ cancelled ∈ cancelAt, now + pause ≤ cancelled := fun cancelled set => by
        simpa using Option.filter_eq_none_iff.mp undisturbed cancelled set
      rw [Nat.succ_mul] at enough
      obtain ⟨attempts, waits⟩ := ih (by omega) later
      exact ⟨_, waits.again inTime held early later⟩

/-- A wait has rounds enough, whatever the timeout. -/
theorem waits_wait {interval timeout : Nat} (positive : 0 < min interval longestSleep)
    (after : ∀ cancelled ∈ cancelAt, start ≤ cancelled) :
    ∃ attempts, Waits tie history key (min interval longestSleep) (start + timeout) cancelAt start
      ((wait tie (isFree history key) timeout interval cancelAt start).outcome history key
        attempts) := by
  refine waits_waitWithin positive ?_ after
  have enough := Nat.lt_div_mul_add positive (a := timeout)
  rw [Nat.succ_mul]
  omega

/-- How a caller that begins to wait at `start` is called off. -/
def Cancellation.seenFrom (start : Nat) : Option Nat → Cancellation
  | none => .never
  | some time => if time < start then .already else .due time

namespace Table

variable {t : Table}

/-- Nothing is overdue. -/
def Settled (t : Table) : Prop :=
  ∀ release ∈ t.due, t.now ≤ release.1

instance : Decidable t.Settled :=
  inferInstanceAs (Decidable (∀ release ∈ t.due, t.now ≤ release.1))

theorem Settled.settle_now (settled : t.Settled) : t.settle t.now = t := by
  have none : t.due.filter (·.1 < t.now) = [] :=
    List.filter_eq_nil_iff.mpr fun release mem => by simpa using settled release mem
  have all : t.due.filter (fun release => !(release.1 < t.now)) = t.due :=
    List.filter_eq_self.mpr fun release mem => by simpa using settled release mem
  have held : t.held.filter (fun key => !([] : List (Nat × String)).any (·.2 = key)) = t.held :=
    List.filter_eq_self.mpr fun _ _ => rfl
  simp only [settle, none, all, held]

theorem due_of_settle {release : Nat × String} {time : Nat}
    (mem : release ∈ (t.settle time).due) : time ≤ release.1 := by
  simpa using (List.mem_filter.mp mem).2

/-- What the end of a wait makes of the table. -/
def after (t : Table) (key : String) : WaitEnd → Table
  | .taken time => (t.atAttempt time).take key
  | .timedOut time => t.atAttempt time
  | .cancelled time => t.brokenOff time

variable {stop : WaitEnd}

theorem after_now : (t.after key stop).now = stop.time := by
  cases stop <;> rfl

theorem after_held (same : ∀ time, (t.settle time).held = history time) :
    (t.after key stop).held = stop.held history key := by
  cases stop with
  | taken time => exact congrArg (key :: ·) (same time)
  | timedOut time => exact same time
  | cancelled time => exact same (time + 1)

theorem settled_after : (t.after key stop).Settled := by
  cases stop with
  | taken time | timedOut time => exact fun release mem => due_of_settle mem
  | cancelled time => exact fun release mem => Nat.le_of_succ_le (due_of_settle mem)

/-- Unless the sleeps have no length, whoever begins to wait in time waits on the table as it is. -/
theorem acquire_eq {interval : Nat} (positive : 0 < interval)
    (after : ∀ cancelled ∈ cancelAt, t.now ≤ cancelled)
    (same : ∀ time, (t.settle time).held = history time) (timeout : Nat) (key : String) :
    let stop := wait tie (isFree history key) timeout interval cancelAt t.now
    t.acquire tie timeout interval (.seenFrom t.now cancelAt) key =
      (stop.answer, t.after key stop) := by
  obtain rfl : (fun time => (t.settle time).held) = history := funext same
  have waits : t.forWaiting timeout interval cancelAt key = t :=
    if_neg fun none => positive.ne' none.1
  have free : (fun time => !(t.settle time).isHeld key) =
      isFree (fun time => (t.settle time).held) key := rfl
  cases cancelAt with
  | none =>
    simp only [acquire, Cancellation.seenFrom, waits, free]
    split <;> next stop => rw [stop]; rfl
  | some cancelled =>
    have due : ¬ cancelled < t.now := Nat.not_lt.mpr (after cancelled rfl)
    simp only [acquire, Cancellation.seenFrom, waits, free, if_neg due]
    split <;> next stop => rw [stop]; rfl

/-- A call for a key runs the loop to its end. -/
theorem waits_acquire {interval : Nat} (positive : 0 < interval) (settled : t.Settled)
    (same : ∀ time, (t.settle time).held = history time) (timeout : Nat) (key : String)
    (tie : Tie) (cancelAt : Option Nat) :
    let call := t.acquire tie timeout interval (.seenFrom t.now cancelAt) key
    ∃ attempts stop,
      Waits tie history key (min interval longestSleep) (t.now + timeout) cancelAt t.now
        ⟨attempts, stop, call.2.held⟩ ∧
      call.1 = stop.answer ∧ call.2.now = stop.time ∧ call.2.Settled := by
  by_cases after : ∀ cancelled ∈ cancelAt, t.now ≤ cancelled
  · have pause : 0 < min interval longestSleep := Nat.lt_min.mpr ⟨positive, by decide⟩
    rw [acquire_eq positive after same]
    obtain ⟨attempts, waits⟩ : ∃ attempts, Waits tie history key (min interval longestSleep)
        (t.now + timeout) cancelAt t.now
        ((wait tie (isFree history key) timeout interval cancelAt t.now).outcome history key
          attempts) := waits_wait pause after
    exact ⟨attempts, _, after_held same ▸ waits, rfl, after_now, settled_after⟩
  · obtain ⟨cancelled, set, before⟩ : ∃ cancelled ∈ cancelAt, cancelled < t.now := by
      simpa using after
    have already : Cancellation.seenFrom t.now cancelAt = .already := by
      obtain rfl : cancelAt = some cancelled := set
      exact if_pos before
    have held : t.held = history (max t.now (cancelled + 1)) := by
      rw [Nat.max_eq_left before, ← same, settled.settle_now]
    rw [already]
    exact ⟨[], .cancelled t.now, held ▸ .refused set (Tie.precedes_of_lt before), rfl, rfl,
      settled⟩

end Table

/-! ## Bounded and exact -/

/-- Some attempt is the first that is not before the deadline, and it comes less than a pause
after it. -/
theorem exists_final (positive : 0 < pause) (start timeout : Nat) :
    ∃ last, IsLeast {k | start + timeout ≤ attemptAt start pause k} last ∧
      attemptAt start pause last < start + timeout + pause := by
  have late : ∃ k, start + timeout ≤ attemptAt start pause k :=
    ⟨timeout, Nat.add_le_add_left (Nat.le_mul_of_pos_right timeout positive) start⟩
  refine ⟨Nat.find late, ⟨Nat.find_spec late, fun k => Nat.find_min' late⟩, ?_⟩
  cases last_eq : Nat.find late with
  | zero =>
    rw [attemptAt_zero]
    omega
  | succ k =>
    have early := Nat.find_min late (last_eq.symm ▸ Nat.lt_succ_self k : k < Nat.find late)
    simp only [attemptAt, Nat.succ_mul] at early ⊢
    omega

/-- The wait ends when the loop does, and in the same way. -/
theorem Waits.wait_eq {interval timeout : Nat} (positive : 0 < min interval longestSleep)
    (waits : Waits tie history key (min interval longestSleep) (start + timeout) cancelAt start o) :
    wait tie (isFree history key) timeout interval cancelAt start = o.stop := by
  by_cases after : ∀ cancelled ∈ cancelAt, start ≤ cancelled
  · obtain ⟨attempts, runs⟩ := waits_wait positive after
    exact congrArg Outcome.stop (runs.unique waits)
  · obtain ⟨cancelled, set, before⟩ : ∃ cancelled ∈ cancelAt, cancelled < start := by
      simpa using after
    have precedes : tie.precedes cancelled start = true := Tie.precedes_of_lt before
    rw [← (Waits.refused set precedes).unique waits]
    exact waitWithin_refused set precedes _

/-- A call for a key, by a clock that tells times up to `latest`. It computes its deadline first,
and dies of one that the clock cannot tell. -/
inductive Calls (tie : Tie) (history : Nat → List String) (key : String)
    (pause timeout latest : Nat) (cancelAt : Option Nat) (start : Nat) : Option Outcome → Prop
  | dies : latest < start + timeout →
      Calls tie history key pause timeout latest cancelAt start none
  | waits {o : Outcome} : start + timeout ≤ latest →
      Waits tie history key pause (start + timeout) cancelAt start o →
      Calls tie history key pause timeout latest cancelAt start (some o)

/-- Waiting for a key is bounded and exact, whatever the others do with the lock meanwhile, as long
as the clock can tell the deadline. A call comes to an end, and to only one: its attempts are a
pause apart, the last one is the first that is not before the deadline, and it takes the key at the
earliest of them that finds it free and that its cancellation does not precede. -/
theorem acquire_bounded_exact (tie : Tie) (history : Nat → List String) (key : String)
    (timeout interval : Nat) (cancelAt : Option Nat) (start latest : Nat) (positive : 0 < interval)
    (tellable : start + timeout ≤ latest) :
    let pause := min interval longestSleep
    ∃ last o,
      IsLeast {k | start + timeout ≤ attemptAt start pause k} last ∧
      (∀ result, Calls tie history key pause timeout latest cancelAt start result ↔
        result = some o) ∧
      Exact tie history key pause cancelAt start last o ∧
      (o.stop.answer = true ↔ (chances tie history key pause cancelAt start last).Nonempty) ∧
      o.stop.time < start + timeout + pause ∧
      wait tie (isFree history key) timeout interval cancelAt start = o.stop ∧
      ∀ t : Table, t.now = start → t.Settled → (∀ time, (t.settle time).held = history time) →
        let call := t.acquire tie timeout interval (.seenFrom start cancelAt) key
        call.1 = o.stop.answer ∧ call.2.now = o.stop.time ∧ call.2.held = o.held ∧
          call.2.Settled := by
  intro pause
  have pause_pos : 0 < pause := Nat.lt_min.mpr ⟨positive, by decide⟩
  obtain ⟨last, final, soon⟩ := exists_final pause_pos start timeout
  obtain ⟨o, waits⟩ : ∃ o, Waits tie history key pause (start + timeout) cancelAt start o := by
    by_cases after : ∀ cancelled ∈ cancelAt, start ≤ cancelled
    · obtain ⟨attempts, waits⟩ := waits_wait pause_pos after
      exact ⟨_, waits⟩
    · obtain ⟨cancelled, set, before⟩ : ∃ cancelled ∈ cancelAt, cancelled < start := by
        simpa using after
      exact ⟨_, .refused set (Tie.precedes_of_lt before)⟩
  have exactly := waits.exact final
  refine ⟨last, o, final, fun result => ⟨fun call => ?_, fun same => same ▸ .waits tellable waits⟩,
    exactly, exactly.answer_iff, exactly.time_le.trans_lt soon, waits.wait_eq pause_pos, ?_⟩
  · cases call with
    | dies late => exact absurd tellable (Nat.not_le.mpr late)
    | waits _ other => rw [other.unique waits]
  · rintro t rfl settled same
    obtain ⟨attempts, stop, runs, answer, time, settled⟩ :=
      Table.waits_acquire positive settled same timeout key tie cancelAt
    obtain rfl := runs.unique waits
    exact ⟨answer, time, rfl, settled⟩

end

/-- The key comes free at 30, between two attempts, and the clock tells any time that fits in 64
bits. -/
theorem acquire_once_free :
    let t : Table := ⟨["k"], 10, [(30, "k")]⟩
    let latest := 18446744073709551615
    70 ≤ latest ∧ ∃ o,
      Calls .cancellation (fun time => (t.settle time).held) "k" 3 60 latest (some 40) 10
        (some o) ∧
      o.stop = .taken 31 ∧ (t.acquire .cancellation 60 3 (.due 40) "k").1 = true ∧
      (t.acquire .cancellation 60 3 (.due 40) "k").2.now = 31 ∧ o.held = ["k"] := by
  intro t latest
  have tellable : 10 + 60 ≤ latest := by decide
  obtain ⟨last, o, -, unique, exactly, -, -, runs, table⟩ :=
    acquire_bounded_exact .cancellation (fun time => (t.settle time).held) "k" 60 3 (some 40) 10
      latest (by decide) tellable
  have stop : o.stop = .taken 31 := runs.symm.trans (by decide)
  obtain ⟨answer, now, -, -⟩ := table t rfl (by decide) fun _ => rfl
  rw [stop] at answer now
  exact ⟨tellable, o, (unique _).mpr rfl, stop, answer, now, exactly.held_of_taken 31 stop⟩

/-- No sleep is longer than thirty years: with a longer interval a call ends at a time that is no
interval after its start. And a call dies whose deadline is later than a clock of signed seconds in
64 bits can tell. -/
theorem acquire_off_interval :
    let call := (⟨["k"], 0, []⟩ : Table).acquire .attempt 1 1000000000000 .never "k"
    (call.1 = false ∧ ∀ k, call.2.now ≠ attemptAt 0 1000000000000 k) ∧
      Calls .attempt (fun _ => []) "k" 1 9223372036854775808000 9223372036854775807999 none 0
        none := by
  refine ⟨⟨by decide, fun k => ?_⟩, .dies (by decide)⟩
  have now : ((⟨["k"], 0, []⟩ : Table).acquire .attempt 1 1000000000000 .never "k").2.now =
      longestSleep := by decide
  simp only [now, longestSleep, attemptAt]
  omega

end Sagas.Lock
