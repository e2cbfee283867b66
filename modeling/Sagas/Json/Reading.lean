import Sagas.Binary64.Shortest
import Sagas.Json
import Sagas.Text.Quoted
import Sagas.Uuid.Fault

/-!
# Reading typed data

Reading JSON as typed data ends in the data or in the first error. A record reads the fields of an
object in the order in which they stand there, passing over unknown names, and after that looks for
missing ones in its own order; an array it reads by position.
-/

namespace Sagas.Json

/-- A value without what it contains. -/
inductive Surface where
  | null
  | bool (b : Bool)
  | int (n : Int)
  | float (b : Binary64)
  | str (s : String)
  | arr
  | obj
  deriving DecidableEq, Repr

def Surface.text : Surface → String
  | .null => "null"
  | .bool b => "boolean `" ++ toString b ++ "`"
  | .int n => "integer `" ++ toString n ++ "`"
  | .float b => "floating point `" ++ b.text ++ "`"
  | .str s => "string " ++ Text.Quoted.quote s
  | .arr => "sequence"
  | .obj => "map"

def surface : Json → Surface
  | .null => .null
  | .bool b => .bool b
  | .int n => .int n
  | .float b => .float b
  | .str s => .str s
  | .arr _ => .arr
  | .obj _ => .obj

/-- Why a text or a value could not be read. -/
inductive ReadError where
  /-- The text ends inside an object. -/
  | unclosedObject (line column : Nat)
  | wrongType (found : Surface) (expected : String)
  | outOfRange (n : Int) (expected : String)
  | wrongLength (length : Nat) (expected : String)
  | missingField (name : String)
  | invalidUuid (fault : Uuid.Fault)
  deriving DecidableEq, Repr

def ReadError.message : ReadError → String
  | .unclosedObject line column =>
    "EOF while parsing an object at line " ++ toString line ++ " column " ++ toString column
  | .wrongType found expected => "invalid type: " ++ found.text ++ ", expected " ++ expected
  | .outOfRange n expected =>
    "invalid value: " ++ (Surface.int n).text ++ ", expected " ++ expected
  | .wrongLength length expected =>
    "invalid length " ++ toString length ++ ", expected " ++ expected
  | .missingField name => "missing field `" ++ name ++ "`"
  | .invalidUuid fault => "UUID parsing failed: " ++ fault.message

/-! ## Single values -/

variable {α R : Type}

def readBool : Json → Except ReadError Bool
  | .bool b => .ok b
  | j => .error (.wrongType j.surface "a boolean")

def readStr : Json → Except ReadError String
  | .str s => .ok s
  | j => .error (.wrongType j.surface "a string")

/-- An integer that `ofInt?` accepts. -/
def readInt (type : String) (ofInt? : Int → Option α) : Json → Except ReadError α
  | .int n =>
    match ofInt? n with
    | some a => .ok a
    | none => .error (.outOfRange n type)
  | j => .error (.wrongType j.surface type)

def readUuid : Json → Except ReadError Uuid
  | .str s =>
    match Uuid.ofText? s with
    | some u => .ok u
    | none => .error (.invalidUuid (.ofText s))
  | j => .error (.wrongType j.surface "a formatted UUID string")

def readList (element : Json → Except ReadError α) : Json → Except ReadError (List α)
  | .arr items => items.mapM element
  | j => .error (.wrongType j.surface "a sequence")

/-! ## Records -/

/-- A field of a record: its name, and how its value changes the record that is being read. -/
structure Field (R : Type) where
  name : String
  read : Json → R → Except ReadError R

/-- A field that is read on its own and then put into the record. -/
def Field.of (name : String) (value : Json → Except ReadError α) (set : R → α → R) : Field R where
  name := name
  read j r := (value j).map (set r)

/-- Reads one entry of an object. -/
def readEntry (fields : List (Field R)) (r : R) (entry : String × Json) : Except ReadError R :=
  match fields.find? (·.name = entry.1) with
  | some field => field.read entry.2 r
  | none => .ok r

/-- Reads a record of a type, every field of which is required, over one of the same type. -/
def readRecord (type : String) (fields : List (Field R)) (start : R) : Json → Except ReadError R
  | .obj entries => do
    let r ← entries.foldlM (readEntry fields) start
    match fields.find? fun field => entries.all (·.1 ≠ field.name) with
    | some field => .error (.missingField field.name)
    | none => .ok r
  | .arr items => do
    let r ← (fields.zip items).foldlM (fun r (field, j) => field.read j r) start
    if items.length < fields.length then
      .error (.wrongLength items.length ("struct " ++ type ++ " with " ++ toString fields.length
        ++ if fields.length = 1 then " element" else " elements"))
    else if fields.length < items.length then
      .error (.wrongLength items.length "fewer elements in array")
    else .ok r
  | j => .error (.wrongType j.surface ("struct " ++ type))

end Sagas.Json
