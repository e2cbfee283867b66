import Sagas.Json.Reading
import Sagas.Property

/-!
# Saga data and its documents

Storage holds an instance as a document: its identifier and revision beside a body in JSON. The
two outside the body are the ones that count; the copies inside it are overwritten whenever the
document is read as typed data.
-/

namespace Sagas

/-- Counts the successful updates of a stored instance. -/
structure Revision where
  number : Nat
  deriving DecidableEq, Repr, Ord

namespace Revision

def initial : Revision := ⟨0⟩

instance : Inhabited Revision := ⟨initial⟩

def next (r : Revision) : Revision := ⟨r.number + 1⟩

/-- Whether a write that expects `r` may replace a row at `stored`. -/
def agreesWith (r stored : Revision) : Bool :=
  r = stored

def text (r : Revision) : String :=
  toString r.number

/-- Revisions outside the program have 64 bits. -/
def ofInt? (n : Int) : Option Revision :=
  if 0 ≤ n ∧ n ≤ 0xFFFFFFFFFFFFFFFF then some ⟨n.toNat⟩ else none

def ofJson? (j : Json) : Option Revision :=
  j.int?.bind ofInt?

def toJson (r : Revision) : Json :=
  .int r.number

end Revision

/-- What every saga's data carries: the identity and the revision it was read at. -/
structure Metadata where
  id : Uuid
  revision : Revision
  deriving DecidableEq

structure Document where
  id : Uuid
  revision : Revision
  dataType : String
  body : Json

namespace Document

def ofJson? (j : Json) : Option Document :=
  match j.columns? ["id", "revision", "data_type", "body"] with
  | some [some id, some revision, some dataType, some body] => do
    return ⟨← Uuid.ofJson? id, ← Revision.ofJson? revision, ← dataType.str?, body⟩
  | _ => none

def toJson (d : Document) : Json :=
  .obj [("id", d.id.toJson), ("revision", d.revision.toJson), ("data_type", .str d.dataType),
    ("body", d.body)]

def metadata (d : Document) : Metadata :=
  ⟨d.id, d.revision⟩

end Document

/-- The path of the identity, which lookups resolve without an index. -/
def identityPath : String := "Id"

namespace Metadata

def idLens : Lens Metadata Uuid where
  get := Metadata.id
  set m id := { m with id }

end Metadata

/-- A type of saga data: its name, its default, its paths and its form in JSON. -/
structure DataType (D : Type) where
  name : String
  blank : D
  metadata : Lens D Metadata
  properties : PropertyTable D
  /-- Nothing goes wrong here: data consists of numbers, texts, truth values, identifiers and lists
  and records of these. JSON has no form only for a dictionary whose keys are not texts. -/
  encode : D → Json
  decode : Json → Except Json.ReadError D

namespace DataType

variable {D : Type}

def id (t : DataType D) (d : D) : Uuid :=
  (t.metadata.get d).id

def revision (t : DataType D) (d : D) : Revision :=
  (t.metadata.get d).revision

/-- The identity first, then the paths that the type declares. -/
def table (t : DataType D) : PropertyTable D :=
  t.properties.accessors.foldl PropertyTable.register
    (PropertyTable.empty.field identityPath .uuid (t.metadata.comp Metadata.idLens))

def toDocument (t : DataType D) (d : D) : Document :=
  ⟨t.id d, t.revision d, t.name, t.encode d⟩

/-- Reads the body and puts the document's own identity and revision into the data. -/
def ofDocument (t : DataType D) (document : Document) : Except Json.ReadError D :=
  (t.decode document.body).map fun d => t.metadata.set d document.metadata

end DataType

end Sagas
