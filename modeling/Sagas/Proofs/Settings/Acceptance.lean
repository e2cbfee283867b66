import Sagas.Proofs.Settings.Reading

/-!
# Accepted settings

Settings are taken from a source of named texts, variable by variable. The source is accepted if
every variable that is there has an admitted text; then the settings hold what is told, and the
defaults of the variables that are not there. Otherwise the first variable whose text is refused is
reported. The settings that are loaded are validated at the end, but nothing is found then: whatever
a variable admits is valid.

Results:
1. `Variable.load_of_tells`, `Variable.load_of_refuses`: what one variable does to the settings.
2. `foldlM_load`, `foldlM_load_first`: what variables do that are read one after the other.
3. `Valid.loads`: no variable makes valid settings invalid.
4. `ofSource_eq_ok_iff`, `ofSource_eq_error_iff`: the settings of a source, or its error.
5. `accepts_usable_sources`: all of it, for every source.
-/

namespace Sagas.Settings

variable {source : String → Option String} {s s' : Settings} {v : Variable} {raw reason : String}
  {vs earlier later : List Variable} {value : Variable → Option Nat}

/-! ## One variable -/

namespace Variable

/-- What a source tells of a variable: nothing, or a number that the variable admits. -/
inductive Tells (source : String → Option String) (v : Variable) : Option Nat → Prop where
  | absent : source v.name = none → Tells source v none
  | present {raw : String} {n : Nat} : source v.name = some raw → v.Admits raw n →
      Tells source v (some n)

/-- The variable is not there, or its text is admitted. -/
def Usable (source : String → Option String) (v : Variable) : Prop :=
  ∀ raw, source v.name = some raw → ∃ n, v.Admits raw n

/-- Puts in what is told of a variable, if anything is. -/
def settle : Variable → Option Nat → Settings → Settings
  | .maxConflictAttempts, n, s =>
    { s with maxConflictAttempts := n.getD s.maxConflictAttempts }
  | .lockTimeout, n, s => { s with lockTimeout := (n.map .ofMillis).getD s.lockTimeout }
  | .lockPollInterval, n, s =>
    { s with lockPollInterval := (n.map .ofMillis).getD s.lockPollInterval }
  | .lockBuckets, n, s => { s with lockBuckets := n.or s.lockBuckets }
  | .maxParallelism, n, s => { s with maxParallelism := n.getD s.maxParallelism }

@[simp] theorem settle_none (v : Variable) (s : Settings) : v.settle none s = s := by
  cases v <;> rfl

@[simp] theorem settle_some (v : Variable) (n : Nat) (s : Settings) :
    v.settle (some n) s = v.assign n s := by
  cases v <;> rfl

theorem Usable.tells (usable : v.Usable source) : ∃ told, v.Tells source told := by
  cases there : source v.name with
  | none => exact ⟨none, .absent there⟩
  | some raw =>
    obtain ⟨n, admits⟩ := usable raw there
    exact ⟨some n, .present there admits⟩

theorem Tells.usable {told : Option Nat} (tells : v.Tells source told) : v.Usable source := by
  intro raw there
  cases tells with
  | absent missing => cases missing.symm.trans there
  | present known admits =>
    cases known.symm.trans there
    exact ⟨_, admits⟩

theorem refused_of_not_usable (offends : ¬ v.Usable source) :
    ∃ raw reason, source v.name = some raw ∧ v.Refuses raw reason := by
  simp only [Usable, not_forall] at offends
  obtain ⟨raw, there, refused⟩ := offends
  obtain ⟨reason, refuses⟩ := refuses_iff.2 refused
  exact ⟨raw, reason, there, refuses⟩

theorem load_of_tells {told : Option Nat} (tells : v.Tells source told) :
    v.load source s = .ok (v.settle told s) := by
  cases tells with
  | absent missing => simp [load, missing]
  | present there admits => simp [load, there, read_eq_ok_iff.2 admits, Except.map]

theorem load_of_refuses (there : source v.name = some raw) (refuses : v.Refuses raw reason) :
    v.load source s = .error (.invalidSetting v.name reason) := by
  have fails := read_eq_error_iff.2 ⟨reason, refuses, rfl⟩
  simp [load, there, fails, Except.map]

end Variable

/-! ## One variable after the other -/

theorem exists_values (usable : ∀ v ∈ vs, v.Usable source) :
    ∃ value : Variable → Option Nat, ∀ v ∈ vs, v.Tells source (value v) := by
  have each : ∀ v, ∃ told, v ∈ vs → v.Tells source told := fun v => by
    by_cases member : v ∈ vs
    · obtain ⟨told, tells⟩ := (usable v member).tells
      exact ⟨told, fun _ => tells⟩
    · exact ⟨none, fun isMember => absurd isMember member⟩
  exact ⟨fun v => (each v).choose, fun v => (each v).choose_spec⟩

theorem foldlM_load (tells : ∀ v ∈ vs, v.Tells source (value v)) :
    vs.foldlM (Variable.load source) s = .ok (vs.foldl (fun s v => v.settle (value v) s) s) := by
  induction vs generalizing s with
  | nil => rfl
  | cons v vs ih =>
    obtain ⟨first, others⟩ := List.forall_mem_cons.1 tells
    rw [List.foldlM_cons, Variable.load_of_tells first, List.foldl_cons]
    exact ih others

/-- The first variable that is refused decides, whatever the later ones say. -/
theorem foldlM_load_first (usable : ∀ w ∈ earlier, w.Usable source)
    (there : source v.name = some raw) (refuses : v.Refuses raw reason) :
    (earlier ++ v :: later).foldlM (Variable.load source) s =
      .error (.invalidSetting v.name reason) := by
  obtain ⟨value, tells⟩ := exists_values usable
  have fails := Variable.load_of_refuses
    (s := earlier.foldl (fun s v => v.settle (value v) s) s) there refuses
  rw [List.foldlM_append, foldlM_load tells]
  change (v :: later).foldlM (Variable.load source) _ = _
  rw [List.foldlM_cons, fails]
  rfl

/-! ## Validity -/

/-- Settings that neither stall nor disable processing. -/
structure Valid (s : Settings) : Prop where
  attempts : 0 < s.maxConflictAttempts
  parallelism : 0 < s.maxParallelism
  interval : 0 < s.lockPollInterval.nanos
  buckets : s.lockBuckets ≠ some 0

theorem validate_eq_ok_iff : s.validate = .ok () ↔ s.Valid := by
  constructor
  · intro accepted
    unfold validate at accepted
    split_ifs at accepted with attempts parallelism interval buckets
    exact ⟨Nat.pos_of_ne_zero attempts, Nat.pos_of_ne_zero parallelism, Nat.pos_of_ne_zero interval,
      buckets⟩
  · rintro ⟨attempts, parallelism, interval, buckets⟩
    rw [validate, if_neg (Nat.ne_of_gt attempts), if_neg (Nat.ne_of_gt parallelism),
      if_neg (Nat.ne_of_gt interval), if_neg buckets]

theorem valid_default : Valid default :=
  ⟨by decide, by decide, by decide, by decide⟩

theorem Valid.assign {n : Nat} (valid : s.Valid) (positive : 1 ≤ n) : (v.assign n s).Valid := by
  obtain ⟨attempts, parallelism, interval, buckets⟩ := valid
  cases v with
  | maxConflictAttempts => exact ⟨positive, parallelism, interval, buckets⟩
  | lockTimeout => exact ⟨attempts, parallelism, interval, buckets⟩
  | lockPollInterval => exact ⟨attempts, parallelism, Nat.mul_pos positive (by decide), buckets⟩
  | lockBuckets =>
    refine ⟨attempts, parallelism, interval, fun isZero => ?_⟩
    cases Option.some.inj isZero
    cases positive
  | maxParallelism => exact ⟨attempts, positive, interval, buckets⟩

theorem Valid.load (valid : s.Valid) (loads : v.load source s = .ok s') : s'.Valid := by
  by_cases usable : v.Usable source
  · obtain ⟨told, tells⟩ := usable.tells
    cases loads.symm.trans (Variable.load_of_tells tells)
    cases tells with
    | absent => rwa [Variable.settle_none]
    | present _ admits =>
      rw [Variable.settle_some]
      exact valid.assign admits.positive
  · obtain ⟨raw, reason, there, refuses⟩ := Variable.refused_of_not_usable usable
    cases loads.symm.trans (Variable.load_of_refuses there refuses)

theorem Valid.loads (valid : s.Valid) (loads : vs.foldlM (Variable.load source) s = .ok s') :
    s'.Valid := by
  induction vs generalizing s with
  | nil =>
    cases loads
    exact valid
  | cons v vs ih =>
    rw [List.foldlM_cons] at loads
    cases first : v.load source s with
    | error e =>
      rw [first] at loads
      cases loads
    | ok next =>
      rw [first] at loads
      exact ih (valid.load first) loads

/-! ## Sources -/

/-- The settings with these values of the variables, and with the defaults of those without one. -/
def holding (value : Variable → Option Nat) : Settings where
  maxConflictAttempts := (value .maxConflictAttempts).getD default.maxConflictAttempts
  lockTimeout := ((value .lockTimeout).map .ofMillis).getD default.lockTimeout
  lockPollInterval := ((value .lockPollInterval).map .ofMillis).getD default.lockPollInterval
  lockBuckets := (value .lockBuckets).or default.lockBuckets
  maxParallelism := (value .maxParallelism).getD default.maxParallelism

theorem Variable.mem_all (v : Variable) : v ∈ Variable.all := by
  cases v <;> decide

/-- Nothing is left for the validation at the end to refuse. -/
theorem ofSource_eq_loads (source : String → Option String) :
    ofSource source = Variable.all.foldlM (Variable.load source) default := by
  unfold ofSource
  cases loads : Variable.all.foldlM (Variable.load source) default with
  | error e => rfl
  | ok s =>
    have accepted := validate_eq_ok_iff.2 (valid_default.loads loads)
    change (do s.validate; return s) = _
    rw [accepted]
    rfl

theorem ofSource_of_tells (tells : ∀ v : Variable, v.Tells source (value v)) :
    ofSource source = .ok (holding value) := by
  rw [ofSource_eq_loads, foldlM_load fun v _ => tells v]
  rfl

theorem ofSource_of_refuses (first : Variable.all = earlier ++ v :: later)
    (usable : ∀ w ∈ earlier, w.Usable source) (there : source v.name = some raw)
    (refuses : v.Refuses raw reason) :
    ofSource source = .error (.invalidSetting v.name reason) := by
  rw [ofSource_eq_loads, first, foldlM_load_first usable there refuses]

/-- A source tells of every variable, or one variable is the first that offends. -/
theorem tells_or_offends (source : String → Option String) :
    (∃ value : Variable → Option Nat, ∀ v : Variable, v.Tells source (value v)) ∨
      ∃ earlier v later, Variable.all = earlier ++ v :: later ∧
        (∀ w ∈ earlier, w.Usable source) ∧ ¬ v.Usable source := by
  rcases all_or_first (Variable.Usable source) Variable.all with usable | first
  · obtain ⟨value, tells⟩ := exists_values usable
    exact .inl ⟨value, fun v => tells v v.mem_all⟩
  · exact .inr first

theorem ofSource_eq_ok_iff : ofSource source = .ok s ↔
    ∃ value : Variable → Option Nat, (∀ v : Variable, v.Tells source (value v)) ∧
      s = holding value := by
  constructor
  · intro accepts
    rcases tells_or_offends source with ⟨value, tells⟩ | ⟨earlier, v, later, first, usable, offends⟩
    · cases accepts.symm.trans (ofSource_of_tells tells)
      exact ⟨value, tells, rfl⟩
    · obtain ⟨raw, reason, there, refuses⟩ := Variable.refused_of_not_usable offends
      cases accepts.symm.trans (ofSource_of_refuses first usable there refuses)
  · rintro ⟨value, tells, rfl⟩
    exact ofSource_of_tells tells

theorem ofSource_eq_error_iff {e : ConfigError} : ofSource source = .error e ↔
    ∃ earlier v later raw reason, Variable.all = earlier ++ v :: later ∧
      (∀ w ∈ earlier, w.Usable source) ∧ ¬ v.Usable source ∧
      source v.name = some raw ∧ v.Refuses raw reason ∧ e = .invalidSetting v.name reason := by
  constructor
  · intro fails
    rcases tells_or_offends source with ⟨value, tells⟩ | ⟨earlier, v, later, first, usable, offends⟩
    · cases fails.symm.trans (ofSource_of_tells tells)
    · obtain ⟨raw, reason, there, refuses⟩ := Variable.refused_of_not_usable offends
      cases fails.symm.trans (ofSource_of_refuses first usable there refuses)
      exact ⟨earlier, v, later, raw, reason, first, usable, offends, there, refuses, rfl⟩
  · rintro ⟨earlier, v, later, raw, reason, first, usable, -, there, refuses, rfl⟩
    exact ofSource_of_refuses first usable there refuses

/-- A source is accepted exactly if every variable that is there is, between blanks, a numeral of a
number from one to the greatest of its field, with or without a plus sign. The settings then hold
these numbers, and the defaults of the variables that are not there, and they are valid. Otherwise
the error names the first variable whose text is not of this form, and says why. What has been
loaded is valid in any case, so the validation at the end never has an error to report. -/
theorem accepts_usable_sources (source : String → Option String) :
    ((∃ s, ofSource source = .ok s) ↔ ∀ v : Variable, v.Usable source) ∧
    (∀ s, ofSource source = .ok s ↔
      ∃ value : Variable → Option Nat, (∀ v : Variable, v.Tells source (value v)) ∧
        s = holding value) ∧
    (∀ s, ofSource source = .ok s → s.validate = .ok ()) ∧
    (∀ e, ofSource source = .error e ↔
      ∃ (earlier : List Variable) (v : Variable) (later : List Variable) (raw reason : String),
        [.maxConflictAttempts, .lockTimeout, .lockPollInterval, .lockBuckets, .maxParallelism] =
            earlier ++ v :: later ∧
          (∀ w ∈ earlier, w.Usable source) ∧ ¬ v.Usable source ∧
          source v.name = some raw ∧ v.Refuses raw reason ∧ e = .invalidSetting v.name reason) ∧
    ∀ s, Variable.all.foldlM (Variable.load source) default = .ok s → s.validate = .ok () := by
  have loaded : ∀ s, Variable.all.foldlM (Variable.load source) default = .ok s →
      s.validate = .ok () := fun s loads => validate_eq_ok_iff.2 (valid_default.loads loads)
  refine ⟨⟨?_, fun usable => ?_⟩, fun s => ofSource_eq_ok_iff, fun s accepts => ?_,
    fun e => ofSource_eq_error_iff, loaded⟩
  · rintro ⟨s, accepts⟩ v
    obtain ⟨value, tells, -⟩ := ofSource_eq_ok_iff.1 accepts
    exact (tells v).usable
  · have each : ∀ v ∈ Variable.all, v.Usable source := fun v _ => usable v
    obtain ⟨value, tells⟩ := exists_values each
    exact ⟨holding value, ofSource_of_tells fun v => tells v v.mem_all⟩
  · exact loaded s (ofSource_eq_loads source ▸ accepts)

/-- A wide space, a plus sign and a leading zero do no harm. -/
example : ofSource (fun name =>
      if name = "SAGABUS_MAX_PARALLELISM" then some "\u2003+08 " else none) =
    .ok { default with maxParallelism := 8 } := by
  rfl

/-- Of two variables that are refused, the first one is reported. -/
example : ofSource (fun name =>
      if name = "SAGABUS_LOCK_BUCKETS" then some "soon"
      else if name = "SAGABUS_LOCK_TIMEOUT_MS" then some "0" else none) =
    .error (.invalidSetting "SAGABUS_LOCK_TIMEOUT_MS" "must be greater than zero") := by
  rfl

end Sagas.Settings
