import Sagas.Binary64.Shortest
import Sagas.Json
import Sagas.Uuid

/-!
# Writing JSON text

Without blanks; in strings, only quotes, backslashes and control characters are escaped.
-/

namespace Sagas.Json

/-- A character inside a string. -/
def escape (c : Char) : List Char :=
  if c = '"' ∨ c = '\\' then ['\\', c]
  else if c.toNat < 0x20 then '\\' :: 'u' :: Uuid.hexDigits 4 c.toNat
  else [c]

def quote (s : String) : String :=
  String.ofList ('"' :: s.toList.flatMap escape ++ ['"'])

mutual

def text : Json → String
  | .null => "null"
  | .bool b => if b then "true" else "false"
  | .int n => toString n
  | .float b => b.text
  | .str s => quote s
  | .arr items => "[" ++ ",".intercalate (textOfItems items) ++ "]"
  | .obj fields => "\x7b" ++ ",".intercalate (textOfFields fields) ++ "\x7d"

def textOfItems : List Json → List String
  | [] => []
  | j :: rest => j.text :: textOfItems rest

def textOfFields : List (String × Json) → List String
  | [] => []
  | (name, j) :: rest => (quote name ++ ":" ++ j.text) :: textOfFields rest

end

end Sagas.Json
