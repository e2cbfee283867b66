import Sagas.Error
import Sagas.Json
import Sagas.Text.Blank
import Sagas.Text.Numeral

/-!
# Settings

Settings come from named variables, as texts, or from JSON. A variable holds a positive number
with blanks around it; what is absent keeps its default.
-/

namespace Sagas

/-- A length of time in nanoseconds. -/
structure Duration where
  nanos : Nat
  deriving DecidableEq, Repr

namespace Duration

def ofMillis (n : Nat) : Duration := ⟨n * 1000000⟩

/-- Its length on a clock of whole milliseconds, on which it has passed at the next of them. -/
def ceilMillis (d : Duration) : Nat := (d.nanos + 999999) / 1000000

def toJson (d : Duration) : Json :=
  .obj [("secs", .int ↑(d.nanos / 1000000000)), ("nanos", .int ↑(d.nanos % 1000000000))]

/-- Seconds and nanoseconds and no other field; the sum has less than `2 ^ 64` seconds. -/
def ofJson? (j : Json) : Option Duration := do
  if let .obj fields := j then
    guard (fields.all fun (name, _) => name = "secs" || name = "nanos")
  match j.columns? ["secs", "nanos"] with
  | some [some secs, some nanos] =>
    let total := (← secs.nat? 0xFFFFFFFFFFFFFFFF) * 1000000000 + (← nanos.nat? 0xFFFFFFFF)
    guard (total < 0x10000000000000000 * 1000000000)
    return ⟨total⟩
  | _ => none

end Duration

structure Settings where
  /-- How often a write is tried when conflicts are resolved. -/
  maxConflictAttempts : Nat
  lockTimeout : Duration
  lockPollInterval : Duration
  /-- Folds lock keys into this many buckets. -/
  lockBuckets : Option Nat
  /-- How many messages a pool processes at once. -/
  maxParallelism : Nat
  deriving DecidableEq, Repr

namespace Settings

def default : Settings :=
  ⟨10, .ofMillis 10000, .ofMillis 5, none, 4⟩

instance : Inhabited Settings := ⟨default⟩

/-! ## Validity -/

/-- Refuses settings that would stall or disable processing. -/
def validate (s : Settings) : Except ConfigError Unit :=
  if s.maxConflictAttempts = 0 then
    .error (.invalidSetting "max_conflict_attempts" "must be at least 1")
  else if s.maxParallelism = 0 then
    .error (.invalidSetting "max_parallelism" "must be at least 1")
  else if s.lockPollInterval.nanos = 0 then
    .error (.invalidSetting "lock_poll_interval" "must be non-zero")
  else if s.lockBuckets = some 0 then
    .error (.invalidSetting "lock_buckets" "must be at least 1")
  else .ok ()

/-! ## Variables -/

/-- The variables that settings are read from, in the order in which they are read. -/
inductive Variable where
  | maxConflictAttempts
  | lockTimeout
  | lockPollInterval
  | lockBuckets
  | maxParallelism
  deriving DecidableEq, Repr

namespace Variable

def all : List Variable :=
  [.maxConflictAttempts, .lockTimeout, .lockPollInterval, .lockBuckets, .maxParallelism]

def name : Variable → String
  | .maxConflictAttempts => "SAGABUS_MAX_CONFLICT_ATTEMPTS"
  | .lockTimeout => "SAGABUS_LOCK_TIMEOUT_MS"
  | .lockPollInterval => "SAGABUS_LOCK_POLL_INTERVAL_MS"
  | .lockBuckets => "SAGABUS_LOCK_BUCKETS"
  | .maxParallelism => "SAGABUS_MAX_PARALLELISM"

/-- The greatest number that the field of this variable holds. -/
def greatest : Variable → Nat
  | .maxConflictAttempts | .lockBuckets => 0xFFFFFFFF
  | .lockTimeout | .lockPollInterval | .maxParallelism => 0xFFFFFFFFFFFFFFFF

/-- Reads the text of a variable as a positive number. -/
def read (v : Variable) (raw : String) : Except ConfigError Nat :=
  match Numeral.read 0 v.greatest (Text.trim raw) with
  | .error fault => .error (.invalidSetting v.name ("'" ++ raw ++ "': " ++ fault.message))
  | .ok n =>
    if n = 0 then .error (.invalidSetting v.name "must be greater than zero") else .ok n.toNat

def assign : Variable → Nat → Settings → Settings
  | .maxConflictAttempts, n, s => { s with maxConflictAttempts := n }
  | .lockTimeout, n, s => { s with lockTimeout := .ofMillis n }
  | .lockPollInterval, n, s => { s with lockPollInterval := .ofMillis n }
  | .lockBuckets, n, s => { s with lockBuckets := some n }
  | .maxParallelism, n, s => { s with maxParallelism := n }

/-- Puts the value of a variable into the settings, if the variable is there. -/
def load (source : String → Option String) (s : Settings) (v : Variable) :
    Except ConfigError Settings :=
  match source v.name with
  | none => .ok s
  | some raw => (v.read raw).map fun n => v.assign n s

end Variable

/-- Reads the settings from any source of named texts. -/
def ofSource (source : String → Option String) : Except ConfigError Settings := do
  let s ← Variable.all.foldlM (Variable.load source) default
  s.validate
  return s

/-! ## JSON -/

/-- An absent field keeps its default; an array may end early. -/
def ofJson? (j : Json) : Option Settings := do
  let names := ["max_conflict_attempts", "lock_timeout", "lock_poll_interval", "lock_buckets",
    "max_parallelism"]
  let columns ← match j with
    | .arr items =>
      if items.length ≤ names.length then
        pure (items.map some ++ List.replicate (names.length - items.length) none)
      else none
    | _ => j.columns? names
  let field {α : Type} (i : Nat) (decode : Json → Option α) (absent : α) : Option α :=
    match (columns[i]?).join with
    | some value => decode value
    | none => some absent
  return ⟨← field 0 (Json.nat? 0xFFFFFFFF) default.maxConflictAttempts,
    ← field 1 Duration.ofJson? default.lockTimeout,
    ← field 2 Duration.ofJson? default.lockPollInterval,
    ← field 3 (Json.optional? (Json.nat? 0xFFFFFFFF)) default.lockBuckets,
    ← field 4 (Json.nat? 0xFFFFFFFFFFFFFFFF) default.maxParallelism⟩

def toJson (s : Settings) : Json :=
  .obj [("max_conflict_attempts", .int s.maxConflictAttempts),
    ("lock_timeout", s.lockTimeout.toJson),
    ("lock_poll_interval", s.lockPollInterval.toJson),
    ("lock_buckets", match s.lockBuckets with
      | some n => .int n
      | none => .null),
    ("max_parallelism", .int s.maxParallelism)]

end Settings

end Sagas
