import Sagas.Binary64.Decimal
import Sagas.Json
import Sagas.Text.Reader
import Sagas.Uuid

/-!
# Reading JSON text

One value with blanks around it, as the standard has it. Containers nest to a fixed depth. An
integer that fits no word of 64 bits, and minus zero, are binary numbers like those with a fraction
or an exponent. Of a binary number only so many digits count as fit a word.
-/

namespace Sagas.Json

open Text (Reader)

namespace Parser

/-! ## Strings -/

/-- What stands before the closing quote, with its escapes, and what stands behind. -/
def quoted? : List Char → Option (List Char × List Char)
  | [] => none
  | '"' :: rest => some ([], rest)
  | '\\' :: c :: rest => (quoted? rest).map fun (raw, rest) => ('\\' :: c :: raw, rest)
  | c :: rest => (quoted? rest).map fun (raw, rest) => (c :: raw, rest)

/-- The character that one letter behind a backslash stands for. -/
def escaped? : Char → Option Char
  | 'n' => some '\n'
  | 't' => some '\t'
  | 'r' => some '\r'
  | 'b' => some '\x08'
  | 'f' => some '\x0c'
  | c => if c = '"' ∨ c = '\\' ∨ c = '/' then some c else none

/-- The code points of a string, surrogates included. -/
def codePoints? : List Char → Option (List Nat)
  | [] => some []
  | '\\' :: 'u' :: a :: b :: c :: d :: rest => do
    let n ← Uuid.readHex [a, b, c, d] 0
    return n :: (← codePoints? rest)
  | '\\' :: c :: rest => do
    let plain ← escaped? c
    return plain.toNat :: (← codePoints? rest)
  | c :: rest => do
    guard (0x20 ≤ c.toNat && c ≠ '\\')
    return c.toNat :: (← codePoints? rest)

def isHighSurrogate (n : Nat) : Bool := 0xD800 ≤ n && n ≤ 0xDBFF

def isLowSurrogate (n : Nat) : Bool := 0xDC00 ≤ n && n ≤ 0xDFFF

/-- The character of a code point, which must not be half of one. -/
def whole? (n : Nat) : Option Char :=
  if isHighSurrogate n || isLowSurrogate n then none else some (Char.ofNat n)

/-- Joins the halves of characters. -/
def characters? : List Nat → Option (List Char)
  | high :: low :: rest =>
    if isHighSurrogate high && isLowSurrogate low then do
      let c := Char.ofNat (0x10000 + (high - 0xD800) * 0x400 + (low - 0xDC00))
      return c :: (← characters? rest)
    else do return (← whole? high) :: (← characters? (low :: rest))
  | [n] => (whole? n).map ([·])
  | [] => some []

/-- A string behind its opening quote. -/
def string : Reader String := do
  let (raw, rest) ← quoted? (← get)
  set rest
  return String.ofList (← (codePoints? raw).bind characters?)

/-! ## Numbers -/

def digits : Reader (List Char) := do
  let run ← Reader.span Char.isDigit
  guard !run.isEmpty
  return run

/-- The digits behind a point. -/
def fraction : Reader (Option (List Char)) := do
  if ← Reader.taking '.' then return some (← digits) else return none

/-- The power of ten behind its mark. -/
def exponent : Reader (Option Int) := do
  match ← get with
  | 'e' :: rest | 'E' :: rest =>
    set rest
    if ← Reader.taking '-' then return some (-(Reader.decimal (← digits) : Int))
    discard (Reader.taking '+')
    return some (Reader.decimal (← digits))
  | _ => return none

/-- Takes digits onto a number while it fits a word: the number, and the digits left over. -/
def absorb : (n : Nat) → List Char → Nat × List Char
  | n, [] => (n, [])
  | n, c :: rest =>
    let longer := n * 10 + (c.toNat - '0'.toNat)
    if longer < 0x10000000000000000 then absorb longer rest else (n, c :: rest)

/-- Whether an integer is a signed or an unsigned word, and not minus zero. -/
def isWord (negative : Bool) (size : Nat) : Bool :=
  if negative then 0 < size && size ≤ 0x8000000000000000 else size < 0x10000000000000000

/-- No digit follows a leading zero. -/
def number : Reader Json := do
  let negative ← Reader.taking '-'
  let whole ← digits
  guard (whole.length = 1 || whole.head? ≠ some '0')
  let places ← fraction
  let power ← exponent
  let (size, beyond) := absorb 0 whole
  if places.isNone && power.isNone && beyond.isEmpty && isWord negative size then
    return .int (if negative then -size else size)
  else
    let (significand, ignored) := absorb size (places.getD [])
    let taken := (places.getD []).length - ignored.length
    return .float (← Binary64.ofDecimal? negative significand
      (power.getD 0 + beyond.length - taken))

/-! ## Values -/

def blanks : Reader Unit :=
  discard (Reader.span [' ', '\t', '\n', '\r'].contains)

/-- A value that is no container. -/
def scalar : Reader Json := do
  match ← get with
  | '"' :: rest =>
    set rest
    return .str (← string)
  | 'n' :: _ =>
    Reader.word "null"
    return .null
  | 't' :: _ =>
    Reader.word "true"
    return .bool true
  | 'f' :: _ =>
    Reader.word "false"
    return .bool false
  | _ => number

/-- Items with commas between them, up to the closing bracket. -/
def items (item : Reader α) (close : Char) : Reader (List α) := do
  blanks
  if ← Reader.taking close then return []
  let first ← item
  let rest ← Reader.collect do
    blanks
    if ← Reader.taking ',' then return some (← item)
    else
      discard (Reader.char (· = close))
      return none
  return first :: rest

/-- Puts a field where its name belongs, unless a later one has it already. -/
def place (entry : String × Json) : List (String × Json) → List (String × Json)
  | [] => [entry]
  | other :: rest =>
    match compare entry.1 other.1 with
    | .lt => entry :: other :: rest
    | .eq => other :: rest
    | .gt => other :: place entry rest

/-- The fields of an object, in the order of their names; of several with one name, the last. -/
def arrange (entries : List (String × Json)) : List (String × Json) :=
  entries.foldr place []

/-- A name with its value. -/
def field (value : Reader Json) : Reader (String × Json) := do
  blanks
  Reader.word "\""
  let name ← string
  blanks
  Reader.word ":"
  return (name, ← value)

/-- A value in which containers nest at most `depth` deep. -/
def value : (depth : Nat) → Reader Json
  | 0 => do
    blanks
    scalar
  | depth + 1 => do
    blanks
    if ← Reader.taking '[' then return .arr (← items (value depth) ']')
    else if ← Reader.taking '{' then return .obj (arrange (← items (field (value depth)) '}'))
    else scalar

/-- How deep containers may nest. -/
def nestingLimit : Nat := 127

end Parser

def parse? (s : String) : Option Json :=
  Reader.readAll? (do
    let j ← Parser.value Parser.nestingLimit
    Parser.blanks
    return j) s

end Sagas.Json
