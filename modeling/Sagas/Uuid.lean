/-!
# Universally unique identifiers

A 128-bit number. It is written as thirty-two lower-case hexadecimal digits in groups of 8, 4, 4,
4 and 12, joined by hyphens. It is read, in either letter case, in that form, without the hyphens,
in braces, or behind `urn:uuid:`. The order is that of the numbers, which is also that of the
bytes and of the written forms.
-/

namespace Sagas

structure Uuid where
  val : Nat
  val_lt : val < 0x100000000000000000000000000000000
  deriving DecidableEq

namespace Uuid

theorem ext {a b : Uuid} (same : a.val = b.val) : a = b := by
  cases a; cases b; simp_all

instance : Ord Uuid := ⟨fun a b => compare a.val b.val⟩

def nil : Uuid := ⟨0, by decide⟩

instance : Inhabited Uuid := ⟨nil⟩

def ofNat? (n : Nat) : Option Uuid :=
  if h : n < 0x100000000000000000000000000000000 then some ⟨n, h⟩ else none

/-! ## Hexadecimal digits -/

def hexChar (d : Nat) : Char :=
  if d < 10 then Char.ofNat ('0'.toNat + d) else Char.ofNat ('a'.toNat + d - 10)

def hexDigit? (c : Char) : Option Nat :=
  if '0' ≤ c ∧ c ≤ '9' then some (c.toNat - '0'.toNat)
  else if 'a' ≤ c ∧ c ≤ 'f' then some (c.toNat - 'a'.toNat + 10)
  else if 'A' ≤ c ∧ c ≤ 'F' then some (c.toNat - 'A'.toNat + 10)
  else none

/-- The `count` lowest hexadecimal digits of a number, highest first. -/
def hexDigits : Nat → Nat → List Char
  | 0, _ => []
  | count + 1, n => hexDigits count (n / 16) ++ [hexChar (n % 16)]

/-- Continues a hexadecimal numeral whose digits so far denote `value`. -/
def readHex : List Char → Nat → Option Nat
  | [], value => some value
  | c :: rest, value => (hexDigit? c).bind fun d => readHex rest (value * 16 + d)

/-! ## Written forms -/

/-- The sizes of the groups between the hyphens. -/
def groups : List Nat := [8, 4, 4, 4, 12]

/-- Joins groups of the given sizes with hyphens. -/
def hyphenate : List Nat → List Char → List Char
  | [], _ => []
  | [_], cs => cs
  | size :: sizes, cs => cs.take size ++ '-' :: hyphenate sizes (cs.drop size)

/-- Undoes `hyphenate`, refusing groups of other sizes. -/
def unhyphenate? : List Nat → List Char → Option (List Char)
  | [], _ => none
  | [size], cs => if cs.length = size then some cs else none
  | size :: sizes, cs =>
    match cs.drop size with
    | '-' :: rest => (unhyphenate? sizes rest).map (cs.take size ++ ·)
    | _ => none

def text (u : Uuid) : String :=
  String.ofList (hyphenate groups (hexDigits 32 u.val))

def ofDigits? (cs : List Char) : Option Uuid :=
  if cs.length = 32 then (readHex cs 0).bind ofNat? else none

def ofHyphenated? (cs : List Char) : Option Uuid :=
  (unhyphenate? groups cs).bind ofDigits?

/-- What stands in braces. -/
def unbraced? : List Char → Option (List Char)
  | '{' :: rest => if rest.getLast? = some '}' then some rest.dropLast else none
  | _ => none

/-- What stands behind `urn:uuid:`, in any letter case. -/
def afterUrn? (cs : List Char) : Option (List Char) :=
  if (cs.take 9).map Char.toLower = "urn:uuid:".toList then some (cs.drop 9) else none

def ofText? (s : String) : Option Uuid :=
  let cs := s.toList
  ofDigits? cs <|> ofHyphenated? cs <|> (unbraced? cs).bind ofHyphenated?
    <|> (afterUrn? cs).bind ofHyphenated?

/-! ## Time-ordered identifiers -/

/-- The version 7 identifier of a time in milliseconds since the start of 1970, told apart from
others of that time by a counter. -/
def timeOrdered (millis counter : Nat) : Uuid :=
  ⟨millis % 0x1000000000000 * 0x100000000000000000000 + 0x70008000000000000000
    + counter % 0x4000000000000000, by omega⟩

/-- Whether this is a version 7 identifier. -/
def isTimeOrdered (u : Uuid) : Bool :=
  u.val / 0x10000000000000000000 % 16 == 7

end Uuid

end Sagas
