/-!
# Waiting for a key

A caller attempts to take its key at once and then after every interval, until the key is free. It
gives up at the first attempt that is not before its deadline, and when its cancellation fires,
which it notices before an attempt and in its sleep. When the key is free is up to the other
holders: any function of time. An attempt and a cancellation that are set for one time happen in
either order. No sleep lasts longer than thirty years, and one of no length still lets a
cancellation fire.

Times are whole milliseconds, by which the clock of the sleeps goes, and they have no end: a caller
whose deadline the clock cannot tell dies before it waits.
-/

namespace Sagas.Lock

/-- How a caller stops waiting, and when. -/
inductive WaitEnd where
  | taken (time : Nat)
  | timedOut (time : Nat)
  | cancelled (time : Nat)
  deriving DecidableEq, Repr

/-- Which of an attempt and a cancellation happens first that are set for one time. -/
inductive Tie where
  | attempt
  | cancellation
  deriving DecidableEq, Repr

/-- Whether a cancellation that is set for `cancelled` fires before an attempt at `time`. -/
def Tie.precedes (tie : Tie) (cancelled time : Nat) : Bool :=
  match tie with
  | .attempt => cancelled < time
  | .cancellation => cancelled ≤ time

/-- At most `attempts` attempts from `now` on. -/
def waitWithin (tie : Tie) (free : Nat → Bool) (interval deadline : Nat) (cancelAt : Option Nat) :
    (attempts now : Nat) → WaitEnd
  | 0, now => .timedOut now
  | attempts + 1, now =>
    if cancelAt.any (tie.precedes · now) then .cancelled now
    else if free now then .taken now
    else if deadline ≤ now then .timedOut now
    else
      match cancelAt.filter (· < now + max interval 1) with
      | some time => .cancelled time
      | none => waitWithin tie free interval deadline cancelAt attempts (now + interval)

/-- The longest time in milliseconds that anyone sleeps at once: thirty years of 365 days. -/
def longestSleep : Nat := 946080000000

/-- Waits from `start` on until the key is free, the timeout has passed or the cancellation
fires. -/
def wait (tie : Tie) (free : Nat → Bool) (timeout interval : Nat) (cancelAt : Option Nat)
    (start : Nat) : WaitEnd :=
  let pause := min interval longestSleep
  waitWithin tie free pause (start + timeout) cancelAt (timeout / pause + 2) start

example : wait .attempt (fun time => 31 ≤ time) 60 3 none 10 = .taken 31 := by decide
example : wait .attempt (fun _ => false) 45 100 none 0 = .timedOut 100 := by decide
example : wait .attempt (fun _ => false) 60 3 (some 10) 0 = .cancelled 10 := by decide
example : wait .attempt (fun _ => true) 60 3 (some 0) 0 = .taken 0 := by decide
example : wait .cancellation (fun _ => true) 60 3 (some 0) 0 = .cancelled 0 := by decide
example : wait .attempt (fun _ => false) 60 0 (some 5) 5 = .cancelled 5 := by decide
example : wait .attempt (fun _ => false) 1 1000000000000 none 0 = .timedOut longestSleep := by
  decide

end Sagas.Lock
