import Sagas.Json
import Sagas.Scalar

/-!
# Scalars as JSON

A scalar is a record of its kind and its value; the kind is written by name.
-/

namespace Sagas

def Uuid.toJson (u : Uuid) : Json :=
  .str u.text

def Uuid.ofJson? (j : Json) : Option Uuid :=
  j.str?.bind ofText?

def Word.toJson {w : Width} (n : Word w) : Json :=
  .int n.val

def Word.ofJson? (w : Width) (j : Json) : Option (Word w) :=
  j.int?.bind (ofInt? w)

namespace Kind

def toJson (k : Kind) : Json :=
  .str k.name

/-- A kind is named by a text, or by the only field of an object, which holds `null`. -/
def ofJson? : Json → Option Kind
  | .str s => ofName? s
  | .obj [(s, .null)] => ofName? s
  | _ => none

def encode : (k : Kind) → k.Carrier → Json
  | .bool, b => .bool b
  | .int _, n => n.toJson
  | .uuid, u => u.toJson
  | .string, s => .str s

def decode? : (k : Kind) → Json → Option k.Carrier
  | .bool, j => j.bool?
  | .int w, j => Word.ofJson? w j
  | .uuid, j => Uuid.ofJson? j
  | .string, j => j.str?

end Kind

namespace Scalar

def toJson (v : Scalar) : Json :=
  .obj [("kind", v.kind.toJson), ("value", v.kind.encode v.val)]

/-- In an object, either form of the kind is read; in an array, only its name. -/
def ofJson? : Json → Option Scalar
  | .obj fields => do
    let k ← Kind.ofJson? (← Json.field? "kind" (.obj fields))
    return of k (← k.decode? (← Json.field? "value" (.obj fields)))
  | .arr [.str kind, value] => do
    let k ← Kind.ofName? kind
    return of k (← k.decode? value)
  | _ => none

end Scalar

end Sagas
