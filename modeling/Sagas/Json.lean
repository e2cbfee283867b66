import Sagas.Binary64

/-!
# JSON values

Numbers written with a fraction or an exponent are kept apart from integers. A record is read from
an object, by the names of its fields, or from an array, by their positions.
-/

namespace Sagas

inductive Json where
  | null
  | bool (b : Bool)
  | int (n : Int)
  | float (b : Binary64)
  | str (s : String)
  | arr (items : List Json)
  | obj (fields : List (String × Json))
  deriving Inhabited

namespace Json

/-- The field of this name; of several, the last. -/
def field? (name : String) : Json → Option Json
  | .obj fields => (fields.reverse.find? (·.1 = name)).map (·.2)
  | _ => none

/-- The values of a record's fields, in the order of `names`: absent ones are `none`. -/
def columns? (names : List String) : Json → Option (List (Option Json))
  | .obj fields => some (names.map fun name => field? name (.obj fields))
  | .arr items => if items.length = names.length then some (items.map some) else none
  | _ => none

def bool? : Json → Option Bool
  | .bool b => some b
  | _ => none

def int? : Json → Option Int
  | .int n => some n
  | _ => none

/-- An integer from `0` to `greatest`. -/
def nat? (greatest : Nat) (j : Json) : Option Nat :=
  j.int?.bind fun n => if 0 ≤ n ∧ n ≤ greatest then some n.toNat else none

def str? : Json → Option String
  | .str s => some s
  | _ => none

def list? (element : Json → Option α) : Json → Option (List α)
  | .arr items => items.mapM element
  | _ => none

def map? (value : Json → Option α) : Json → Option (List (String × α))
  | .obj fields => fields.mapM fun (name, j) => (value j).map (name, ·)
  | _ => none

/-- A value that may be `null`. -/
def optional? (value : Json → Option α) : Json → Option (Option α)
  | .null => some none
  | j => (value j).map some

/-! ## Texts within -/

mutual

/-- Changes every text, names of fields included. -/
def mapText (f : String → String) : Json → Json
  | .str s => .str (f s)
  | .arr items => .arr (mapTextOfItems f items)
  | .obj fields => .obj (mapTextOfFields f fields)
  | j => j

def mapTextOfItems (f : String → String) : List Json → List Json
  | [] => []
  | j :: rest => j.mapText f :: mapTextOfItems f rest

def mapTextOfFields (f : String → String) : List (String × Json) → List (String × Json)
  | [] => []
  | (name, j) :: rest => (f name, j.mapText f) :: mapTextOfFields f rest

end

end Json

end Sagas
