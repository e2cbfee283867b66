/-!
# Readers

A reader takes what it accepts off the front of a text, or refuses the text.
-/

namespace Sagas.Text

abbrev Reader (α : Type) := StateT (List Char) Option α

namespace Reader

variable {α : Type}

/-- Takes the next character, which has to be an accepted one. -/
def char (accepts : Char → Bool) : Reader Char := do
  match ← get with
  | c :: rest =>
    guard (accepts c)
    set rest
    return c
  | [] => failure

def word (w : String) : Reader Unit :=
  w.toList.forM fun c => discard (char (· = c))

/-- Takes the character if it comes next, and says whether it did. -/
def taking (c : Char) : Reader Bool := do
  match ← get with
  | d :: rest =>
    if c = d then
      set rest
      return true
    else return false
  | [] => return false

/-- Takes the accepted characters that come next. -/
def span (accepts : Char → Bool) : Reader (List Char) := do
  let cs ← get
  set (cs.dropWhile accepts)
  return cs.takeWhile accepts

/-- The number that decimal digits denote. -/
def decimal (digits : List Char) : Nat :=
  digits.foldl (fun n c => n * 10 + (c.toNat - '0'.toNat)) 0

/-- What `next` yields, run at most `rounds` times, up to its first `none`. -/
def collectWithin (next : Reader (Option α)) : (rounds : Nat) → Reader (List α)
  | 0 => failure
  | rounds + 1 => do
    match ← next with
    | none => return []
    | some a => return a :: (← collectWithin next rounds)

/-- What `next` yields up to its first `none`; it has to take something each time. -/
def collect (next : Reader (Option α)) : Reader (List α) := do
  collectWithin next ((← get).length + 1)

/-- What a reader makes of a text that it takes completely. -/
def readAll? (r : Reader α) (s : String) : Option α :=
  match r.run s.toList with
  | some (a, []) => some a
  | _ => none

end Reader

end Sagas.Text
