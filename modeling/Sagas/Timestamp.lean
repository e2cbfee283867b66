import Sagas.Text.Blank
import Sagas.Text.Reader

/-!
# Points in time

A point in time is a number of seconds since the start of 1970 and a number of nanoseconds. It is
written in UTC with the fewest of 0, 3, 6 or 9 digits of a second that lose nothing, and read with
any offset. A second that runs past its end, to `:60`, is a leap second.
-/

namespace Sagas

structure Timestamp where
  seconds : Int
  /-- Below `10 ^ 9`, or below `2 * 10 ^ 9` within a leap second. -/
  nanos : Nat
  deriving DecidableEq

namespace Timestamp

def epoch : Timestamp := ⟨0, 0⟩

instance : Inhabited Timestamp := ⟨epoch⟩

/-- Milliseconds since the start of 1970. -/
def millis (t : Timestamp) : Int :=
  t.seconds * 1000 + (t.nanos / 1000000 : Nat)

/-! ## The calendar -/

def isLeapYear (year : Int) : Bool :=
  year % 4 = 0 && (year % 100 ≠ 0 || year % 400 = 0)

def daysInMonth (year : Int) (month : Nat) : Nat :=
  match month with
  | 2 => if isLeapYear year then 29 else 28
  | 4 | 6 | 9 | 11 => 30
  | _ => 31

/-- Days from the start of 1970; a year counts here from March, so that leap days come last. -/
def daysOfDate (year : Int) (month day : Nat) : Int :=
  let year := if month ≤ 2 then year - 1 else year
  let era := year / 400
  let yearOfEra := year % 400
  let dayOfYear := (153 * ((month + 9) % 12) + 2) / 5 + day - 1
  era * 146097 + (yearOfEra * 365 + yearOfEra / 4 - yearOfEra / 100 + dayOfYear) - 719468

/-- The year, month and day that are `days` from the start of 1970. -/
def dateOfDays (days : Int) : Int × Nat × Nat :=
  let shifted := days + 719468
  let era := shifted / 146097
  let dayOfEra := (shifted % 146097).toNat
  let yearOfEra := (dayOfEra - dayOfEra / 1460 + dayOfEra / 36524 - dayOfEra / 146096) / 365
  let dayOfYear := dayOfEra - (365 * yearOfEra + yearOfEra / 4 - yearOfEra / 100)
  let shiftedMonth := (5 * dayOfYear + 2) / 153
  let month := if shiftedMonth < 10 then shiftedMonth + 3 else shiftedMonth - 9
  let year := era * 400 + yearOfEra
  (if month ≤ 2 then year + 1 else year, month, dayOfYear - (153 * shiftedMonth + 2) / 5 + 1)

/-- The first second of the year -262143. -/
def earliest : Int := daysOfDate (-262143) 1 1 * 86400

/-- The last second of the year 262142. -/
def latest : Int := daysOfDate 262142 12 31 * 86400 + 86399

/-- Whether a number of seconds since the start of 1970 lies within the years that count. -/
def inRange (seconds : Int) : Bool :=
  earliest ≤ seconds && seconds ≤ latest

example : daysOfDate 2000 2 29 = 11016 ∧ dateOfDays 11016 = (2000, 2, 29) := by decide
example : daysOfDate 1969 12 31 = -1 ∧ dateOfDays (-1) = (1969, 12, 31) := by decide
example : dateOfDays (earliest / 86400) = (-262143, 1, 1) := by decide
example : dateOfDays (latest / 86400) = (262142, 12, 31) := by decide

/-! ## Writing -/

/-- A number with at least `width` digits. -/
def padded (width n : Nat) : String :=
  let digits := toString n
  "".pushn '0' (width - digits.length) ++ digits

def yearText (year : Int) : String :=
  if 0 ≤ year ∧ year ≤ 9999 then padded 4 year.toNat
  else (if year < 0 then "-" else "+") ++ padded 4 year.natAbs

def fractionText (nanos : Nat) : String :=
  if nanos = 0 then ""
  else if nanos % 1000000 = 0 then "." ++ padded 3 (nanos / 1000000)
  else if nanos % 1000 = 0 then "." ++ padded 6 (nanos / 1000)
  else "." ++ padded 9 nanos

def text (t : Timestamp) : String :=
  let (year, month, day) := dateOfDays (t.seconds / 86400)
  let second := (t.seconds % 86400).toNat
  let leap := t.nanos / 1000000000
  yearText year ++ "-" ++ padded 2 month ++ "-" ++ padded 2 day ++ "T"
    ++ padded 2 (second / 3600) ++ ":" ++ padded 2 (second / 60 % 60) ++ ":"
    ++ padded 2 (second % 60 + leap) ++ fractionText (t.nanos % 1000000000) ++ "Z"

/-! ## Reading -/

open Text (Reader)

namespace Parser

/-- Blanks may stand before every part and behind the last. -/
def blanks : Reader Unit :=
  discard (Reader.span Text.isBlank)

/-- From one to `most` digits, or any number of them. -/
def number (most : Option Nat) : Reader Nat := do
  let cs ← get
  let run := cs.takeWhile Char.isDigit
  let taken := match most with
    | some n => run.take n
    | none => run
  guard !taken.isEmpty
  set (cs.drop taken.length)
  return Reader.decimal taken

def literal (c : Char) : Reader Unit := do
  blanks
  discard (Reader.char (· = c))

/-- A number of at most two digits, from `least` to `greatest`. -/
def twoDigits (least greatest : Nat) : Reader Nat := do
  blanks
  let n ← number (some 2)
  guard (least ≤ n && n ≤ greatest)
  return n

/-- Four digits at most, or any number of them behind a sign. -/
def year : Reader Int := do
  blanks
  match ← get with
  | '-' :: rest => set rest; return -(← number none : Int)
  | '+' :: rest => set rest; return (← number none : Int)
  | _ => return (← number (some 4) : Int)

/-- The digits behind a point; those past the ninth do not count. -/
def fraction : Reader Nat := do
  match ← get with
  | '.' :: rest =>
    set rest
    let run ← Reader.span Char.isDigit
    guard !run.isEmpty
    return Reader.decimal (run.take 9 ++ List.replicate (9 - run.length) '0')
  | _ => return 0

/-- Exactly two digits. -/
def pair (greatest : Nat) : Reader Nat := do
  match ← get with
  | a :: b :: rest =>
    guard (a.isDigit && b.isDigit && Reader.decimal [a, b] ≤ greatest)
    set rest
    return Reader.decimal [a, b]
  | _ => failure

/-- The offset from UTC in seconds. -/
def offset : Reader Int := do
  blanks
  let cs ← get
  if (cs.take 3).map Char.toUpper = ['U', 'T', 'C'] then
    set (cs.drop 3)
    return 0
  match ← Reader.char ['Z', 'z', '+', '-', '\u2212'].contains with
  | 'Z' | 'z' => return 0
  | sign =>
    let hours ← pair 23
    discard (Reader.span fun c => c = ':' || Text.isBlank c)
    let minutes ← pair 59
    let seconds : Int := (hours * 3600 + minutes * 60 : Nat)
    return if sign = '+' then seconds else -seconds

/-- Both the wall clock's time and the time in UTC have to be in range. -/
def timestamp : Reader Timestamp := do
  let year ← year
  literal '-'
  let month ← twoDigits 1 12
  literal '-'
  let day ← twoDigits 1 31
  guard (day ≤ daysInMonth year month)
  discard (Reader.char ['T', 't', ' '].contains)
  let hour ← twoDigits 0 23
  literal ':'
  let minute ← twoDigits 0 59
  literal ':'
  let second ← twoDigits 0 60
  let nanos ← fraction
  let offset ← offset
  blanks
  let leap := second / 60
  let wall := daysOfDate year month day * 86400 +
    (hour * 3600 + minute * 60 + (second - leap) : Nat)
  guard (inRange wall && inRange (wall - offset))
  return ⟨wall - offset, nanos + leap * 1000000000⟩

end Parser

def ofText? (s : String) : Option Timestamp :=
  Reader.readAll? Parser.timestamp s

end Timestamp

end Sagas
