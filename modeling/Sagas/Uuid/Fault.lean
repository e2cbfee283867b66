import Sagas.Uuid

/-!
# Texts that are no identifiers

Why a text is not the written form of an identifier. Of one that is longer than every written form
only that is told. Otherwise it is the first of these that applies: a character that occurs in no
identifier, the length where there is nothing but digits, the number of groups, the size of a group.
Braces around the text and `urn:uuid:` in front of it do not count.
-/

namespace Sagas.Uuid

inductive Fault where
  /-- A character, and how many bytes precede it. -/
  | character (c : Char) (place : Nat)
  /-- A length in bytes. -/
  | length (size : Nat)
  | groupCount (count : Nat)
  /-- A group of another size, counted from 0. -/
  | groupSize (index size : Nat)
  deriving DecidableEq, Repr

namespace Fault

def message : Fault → String
  | .character c place => "invalid character: found `" ++ c.toString ++ "` at " ++ toString place
  | .length size => "invalid length: found " ++ toString size
  | .groupCount count => "invalid group count: expected 5, found " ++ toString count
  | .groupSize index size =>
    "invalid group length in group " ++ toString index ++ ": expected "
      ++ toString (groups[index]?.getD 0) ++ ", found " ++ toString size

/-- The first character that is neither a digit nor a hyphen, and how many bytes precede it. -/
def stranger? : (place : Nat) → List Char → Option (Char × Nat)
  | _, [] => none
  | place, c :: rest =>
    if c = '-' || (hexDigit? c).isSome then stranger? (place + c.utf8Size) rest else some (c, place)

/-- The number and the size of the first group of a wrong size. -/
def oddGroup? : (index : Nat) → (sizes : List Nat) → List (List Char) → Option (Nat × Nat)
  | index, size :: sizes, g :: rest =>
    if g.length = size then oddGroup? (index + 1) sizes rest else some (index, g.length)
  | _, _, _ => none

/-- The fault of digits and hyphens that stand `before` bytes into a text of `size` bytes. The size
of the last group includes what surrounds them. -/
def ofGroups (size before : Nat) (cs : List Char) : Fault :=
  match stranger? before cs with
  | some (c, place) => .character c place
  | none =>
    let parts := cs.splitOn '-'
    if parts.length ≠ 5 then .groupCount parts.length
    else
      match oddGroup? 0 groups (parts.take 4) with
      | some (index, size) => .groupSize index size
      | none => .groupSize 4 (size - 24)

/-- The size in bytes of digits in groups. -/
def groupedSize : Nat := 36

/-- The size in bytes of the longest written form. -/
def longestSize : Nat := 45

/-- What has to be digits in groups, in a text as long as one of the forms with groups. -/
def grouped? (s : String) : Option (List Char) :=
  let cs := s.toList
  if s.utf8ByteSize = groupedSize then some cs
  else if s.utf8ByteSize = groupedSize + 2 then unbraced? cs
  else if s.utf8ByteSize = longestSize then afterUrn? cs
  else none

/-- The fault of a text that is no identifier. A text as long as one of the forms with groups is
treated as if it were nothing but the groups. -/
def ofText (s : String) : Fault :=
  let cs := s.toList
  let size := s.utf8ByteSize
  if longestSize < size then .length size
  else
    match grouped? s, unbraced? cs, afterUrn? cs with
    | some inner, _, _ => ofGroups groupedSize 0 inner
    | none, some inner, _ => ofGroups size 1 inner
    | none, none, some inner => ofGroups size 9 inner
    | none, none, none =>
      if cs.all fun c => (hexDigit? c).isSome then .length size else ofGroups size 0 cs

end Fault

end Sagas.Uuid
