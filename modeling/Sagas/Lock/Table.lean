import Sagas.Lock.Wait

/-!
# The lock table

Keys held within one process, on a simulated clock that only waiting moves. Other holders give keys
back at times set in advance, but only while a caller sleeps. So on this clock an attempt comes
before the releases that are set for its own time.
-/

namespace Sagas.Lock

structure Table where
  held : List String
  now : Nat
  /-- When someone else gives which key back. -/
  due : List (Nat × String)

/-- When a caller is called off. -/
inductive Cancellation where
  | never
  /-- Before its first attempt. -/
  | already
  /-- At a time that is not before the waiting begins. -/
  | due (time : Nat)
  deriving DecidableEq, Repr

namespace Table

def empty : Table := ⟨[], 0, []⟩

instance : Inhabited Table := ⟨empty⟩

def isHeld (t : Table) (key : String) : Bool :=
  t.held.contains key

def take (t : Table) (key : String) : Table :=
  { t with held := key :: t.held }

/-- Gives a key back, and says whether it was held. -/
def release (t : Table) (key : String) : Bool × Table :=
  (t.isHeld key, { t with held := t.held.filter (· ≠ key) })

/-- The time at which someone who falls asleep now for a while wakes up. -/
def wakeUp (t : Table) (pause : Nat) : Nat :=
  t.now + min pause longestSleep

def releaseAfter (t : Table) (pause : Nat) (key : String) : Table :=
  { t with due := (t.wakeUp pause, key) :: t.due }

/-- Gives back what is due before `time`. -/
def settle (t : Table) (time : Nat) : Table :=
  let past := t.due.filter (·.1 < time)
  { t with
    held := t.held.filter fun key => !past.any (·.2 = key)
    due := t.due.filter fun release => !(release.1 < time) }

/-- The table at an attempt: what is due at its time is still to come. -/
def atAttempt (t : Table) (time : Nat) : Table :=
  { t.settle time with now := time }

/-- The table when a caller is called off: what is due at that time has been given back. -/
def brokenOff (t : Table) (time : Nat) : Table :=
  { t.settle (time + 1) with now := time }

/-- The table that a wait is about. Sleeps of no length never move the clock, but what is due now is
given back during the first of them, unless that is broken off. -/
def forWaiting (t : Table) (timeout interval : Nat) (cancelAt : Option Nat) (key : String) :
    Table :=
  if interval = 0 ∧ 0 < timeout ∧ t.isHeld key ∧ cancelAt ≠ some t.now then t.settle (t.now + 1)
  else t

/-- Waits for a key and takes it if it came free in time. -/
def acquire (t : Table) (tie : Tie) (timeout interval : Nat) (cancellation : Cancellation)
    (key : String) : Bool × Table :=
  let waiting (cancelAt : Option Nat) :=
    let t := t.forWaiting timeout interval cancelAt key
    match wait tie (fun time => !(t.settle time).isHeld key) timeout interval cancelAt t.now with
    | .taken time => (true, (t.atAttempt time).take key)
    | .timedOut time => (false, t.atAttempt time)
    | .cancelled time => (false, t.brokenOff time)
  match cancellation with
  | .never => waiting none
  | .already => (false, t)
  | .due time => waiting (some time)

end Table

end Sagas.Lock
