import Sagas.Document
import Sagas.Sorted

/-!
# Demonstration data

A record with a correlatable field of every kind, some of them nested, and the two data types that
store it.
-/

namespace Sagas.Demo

structure Address where
  zip : Word .w32
  deriving DecidableEq

structure Child where
  name : String
  address : Address
  deriving DecidableEq

structure Record where
  metadata : Metadata
  key : String
  code : Word .w32
  big : Word .w64
  small : Word .w16
  flag : Bool
  uid : Uuid
  child : Child
  total : Word .w64
  log : List String
  tags : Sorted.Set String

namespace Record

def blank : Record :=
  ⟨⟨.nil, .initial⟩, "", .zero, .zero, .zero, false, .nil, ⟨"", ⟨.zero⟩⟩, .zero, [], .empty⟩

/-! ## Fields -/

def metadataLens : Lens Record Metadata where
  get := metadata
  set d metadata := { d with metadata }

def childLens : Lens Record Child where
  get := child
  set d child := { d with child }

def addressTable : PropertyTable Address :=
  PropertyTable.empty.field "Zip" (.int .w32)
    { get := Address.zip, set := fun d zip => { d with zip } }

def childTable : PropertyTable Child :=
  (PropertyTable.empty.field "Name" .string
    { get := Child.name, set := fun d name => { d with name } }).nested "Address"
    { get := Child.address, set := fun d address => { d with address } } addressTable

def properties : PropertyTable Record :=
  PropertyTable.empty
    |>.field "Key" .string { get := key, set := fun d key => { d with key } }
    |>.field "Code" (.int .w32) { get := code, set := fun d code => { d with code } }
    |>.field "Big" (.int .w64) { get := big, set := fun d big => { d with big } }
    |>.field "Small" (.int .w16) { get := small, set := fun d small => { d with small } }
    |>.field "Flag" .bool { get := flag, set := fun d flag => { d with flag } }
    |>.field "Uid" .uuid { get := uid, set := fun d uid => { d with uid } }
    |>.nested "Child" childLens childTable

/-! ## JSON -/

def encode (d : Record) : Json :=
  .obj [
    ("meta", .obj [("id", d.metadata.id.toJson), ("revision", d.metadata.revision.toJson)]),
    ("key", .str d.key),
    ("code", d.code.toJson),
    ("big", d.big.toJson),
    ("small", d.small.toJson),
    ("flag", .bool d.flag),
    ("uid", d.uid.toJson),
    ("child", .obj [("name", .str d.child.name),
      ("address", .obj [("zip", d.child.address.zip.toJson)])]),
    ("total", d.total.toJson),
    ("log", .arr (d.log.map .str)),
    ("tags", .arr (d.tags.items.map .str))]

def metadataFields : List (Json.Field Metadata) := [
  .of "id" Json.readUuid fun m id => { m with id },
  .of "revision" (Json.readInt "u64" Revision.ofInt?) fun m revision => { m with revision }]

def readMetadata : Json → Except Json.ReadError Metadata :=
  Json.readRecord "SagaMetadata" metadataFields blank.metadata

def readWord (w : Width) : Json → Except Json.ReadError (Word w) :=
  Json.readInt (Kind.int w).name (Word.ofInt? w)

def readAddress : Json → Except Json.ReadError Address :=
  Json.readRecord "Address" [.of "zip" (readWord .w32) fun d zip => { d with zip }]
    blank.child.address

def readChild : Json → Except Json.ReadError Child :=
  Json.readRecord "Child" [
    .of "name" Json.readStr fun d name => { d with name },
    .of "address" readAddress fun d address => { d with address }] blank.child

/-- The tags may come in any order and more than once. -/
def jsonFields : List (Json.Field Record) := [
  .of "meta" readMetadata fun d metadata => { d with metadata },
  .of "key" Json.readStr fun d key => { d with key },
  .of "code" (readWord .w32) fun d code => { d with code },
  .of "big" (readWord .w64) fun d big => { d with big },
  .of "small" (readWord .w16) fun d small => { d with small },
  .of "flag" Json.readBool fun d flag => { d with flag },
  .of "uid" Json.readUuid fun d uid => { d with uid },
  .of "child" readChild fun d child => { d with child },
  .of "total" (readWord .w64) fun d total => { d with total },
  .of "log" (Json.readList Json.readStr) fun d log => { d with log },
  .of "tags" (Json.readList Json.readStr) fun d tags => { d with tags := .ofList tags }]

def decode : Json → Except Json.ReadError Record :=
  Json.readRecord "Data" jsonFields blank

end Record

/-- A data type of this name that stores records. -/
def dataType (name : String) : DataType Record where
  name := name
  blank := .blank
  metadata := Record.metadataLens
  properties := Record.properties
  encode := Record.encode
  decode := Record.decode

def alpha : DataType Record := dataType "demo.alpha"

def beta : DataType Record := dataType "demo.beta"

example : alpha.table.paths = ["Id", "Key", "Code", "Big", "Small", "Flag", "Uid", "Child.Name",
    "Child.Address.Zip"] := by decide

end Sagas.Demo
