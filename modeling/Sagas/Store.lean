import Sagas.Dictionary
import Sagas.Document
import Sagas.Sorted

/-!
# The in-memory store

Instances are kept by data type and identity, each with the correlation values that it was last
written with. An index maps every such value to its one owner, so no two instances of a data type
share a value. Unset values are not indexed, and the identity is looked up without the index.
-/

namespace Sagas

structure Row where
  document : Document
  /-- The values under which the index holds this row. -/
  keys : List PropertyValue

/-- All instances of one data type. -/
structure Partition where
  rows : Dictionary Uuid Row
  index : Dictionary PropertyValue Uuid

namespace Partition

def empty : Partition := ⟨.empty, .empty⟩

/-- The values that are indexed, in order and each once. -/
def keysOf (values : List PropertyValue) : List PropertyValue :=
  Sorted.ofList (values.filter fun p => p.name ≠ identityPath && !p.value.isUnset)

/-- Why some of the keys cannot go to `id`: the first of them that another row owns. -/
def rival (p : Partition) (id : Uuid) : List PropertyValue → Option String
  | [] => none
  | key :: rest =>
    match p.index.get? key with
    | some owner =>
      if owner = id then p.rival id rest
      else some (key.name ++ " = " ++ key.value.text ++ " is already used by saga " ++ owner.text)
    | none => p.rival id rest

/-- Takes the keys of a row out of the index, where it owns them. -/
def dropKeys (id : Uuid) : List PropertyValue → Dictionary PropertyValue Uuid →
    Dictionary PropertyValue Uuid
  | [], index => index
  | key :: rest, index =>
    dropKeys id rest (if index.get? key = some id then index.erase key else index)

def unindex (p : Partition) (id : Uuid) : Partition :=
  match p.rows.get? id with
  | none => p
  | some row => { p with index := dropKeys id row.keys p.index }

/-- Writes a row and its keys. -/
def put (p : Partition) (document : Document) (keys : List PropertyValue) : Partition :=
  ⟨p.rows.insert document.id ⟨document, keys⟩,
    keys.foldl (fun index key => index.insert key document.id) p.index⟩

def find (p : Partition) (property : String) (value : Scalar) : Option Document :=
  let id := if property = identityPath then value.coerceTo .uuid else p.index.get? ⟨property, value⟩
  (id.bind p.rows.get?).map (·.document)

/-- The row that a write expects: one with this identity, at this revision. -/
def expected (p : Partition) (id : Uuid) (revision : Revision) : Except StorageError Row :=
  match p.rows.get? id with
  | none => .error (.conflict ("saga " ++ id.text ++ " does not exist"))
  | some row =>
    if revision.agreesWith row.document.revision then .ok row
    else .error (.conflict ("saga " ++ id.text ++ " expected revision " ++ revision.text
      ++ ", found " ++ row.document.revision.text))

/-! A write is handed a document of its caller's and may change it: every way out has the document
as it is then. -/

def insert (p : Partition) (document : Document) (values : List PropertyValue) :
    Document × Except StorageError Partition :=
  if p.rows.contains document.id then
    (document, .error (.conflict ("saga " ++ document.id.text ++ " already exists")))
  else
    match p.rival document.id (keysOf values) with
    | some reason => (document, .error (.conflict reason))
    | none => (document, .ok (p.put document (keysOf values)))

def update (p : Partition) (document : Document) (values : List PropertyValue) :
    Document × Except StorageError Partition :=
  match p.expected document.id document.revision with
  | .error e => (document, .error e)
  | .ok _ =>
    match p.rival document.id (keysOf values) with
    | some reason => (document, .error (.conflict reason))
    | none =>
      let unindexed := p.unindex document.id
      let document := { document with revision := document.revision.next }
      (document, .ok (unindexed.put document (keysOf values)))

def delete (p : Partition) (document : Document) : Except StorageError Partition :=
  match p.expected document.id document.revision with
  | .error e => .error e
  | .ok _ =>
    let unindexed := p.unindex document.id
    .ok { unindexed with rows := unindexed.rows.erase document.id }

end Partition

structure Store where
  partitions : Dictionary String Partition

/-- What a write leaves its caller with. -/
structure Handed where
  /-- The document that the caller handed over, as the call has left it. -/
  document : Document
  answer : Except StorageError Unit

/-- The answer with what is stored, which is what the caller has once the write is granted. -/
def Handed.stored (h : Handed) : Except StorageError Document :=
  h.answer.map fun () => h.document

namespace Store

def empty : Store := ⟨.empty⟩

instance : Inhabited Store := ⟨empty⟩

def partition (s : Store) (dataType : String) : Partition :=
  (s.partitions.get? dataType).getD .empty

def setPartition (s : Store) (dataType : String) (p : Partition) : Store :=
  ⟨s.partitions.insert dataType p⟩

/-- The row of an identity. -/
def row? (s : Store) (dataType : String) (id : Uuid) : Option Row :=
  (s.partition dataType).rows.get? id

def find (s : Store) (dataType property : String) (value : Scalar) : Option Document :=
  (s.partition dataType).find property value

/-- Stores a new instance, which must be at the initial revision. -/
def insertFrom (s : Store) (document : Document) (values : List PropertyValue) : Handed × Store :=
  if document.revision ≠ .initial then
    (⟨document, .error (.backend ("cannot insert saga " ++ document.id.text ++ " with revision "
      ++ document.revision.text))⟩, s)
  else
    match (s.partition document.dataType).insert document values with
    | (left, .error e) => (⟨left, .error e⟩, s)
    | (left, .ok p) => (⟨left, .ok ()⟩, s.setPartition document.dataType p)

/-- Replaces an instance at the revision of `document`, and moves its index entries. -/
def updateFrom (s : Store) (document : Document) (values : List PropertyValue) : Handed × Store :=
  match (s.partition document.dataType).update document values with
  | (left, .error e) => (⟨left, .error e⟩, s)
  | (left, .ok p) => (⟨left, .ok ()⟩, s.setPartition document.dataType p)

def insert (s : Store) (document : Document) (values : List PropertyValue) :
    Except StorageError Document × Store :=
  let left := s.insertFrom document values
  (left.1.stored, left.2)

def update (s : Store) (document : Document) (values : List PropertyValue) :
    Except StorageError Document × Store :=
  let left := s.updateFrom document values
  (left.1.stored, left.2)

/-- Takes an instance out at the revision of `document`, which it only reads. -/
def delete (s : Store) (document : Document) : Except StorageError Unit × Store :=
  match (s.partition document.dataType).delete document with
  | .error e => (.error e, s)
  | .ok p => (.ok (), s.setPartition document.dataType p)

theorem insert_eq (s : Store) (d : Document) (values : List PropertyValue) :
    s.insert d values =
      if d.revision ≠ .initial then
        (.error (.backend ("cannot insert saga " ++ d.id.text ++ " with revision "
          ++ d.revision.text)), s)
      else
        match (s.partition d.dataType).insert d values with
        | (_, .error e) => (.error e, s)
        | (left, .ok p) => (.ok left, s.setPartition d.dataType p) := by
  unfold insert insertFrom
  by_cases initial : d.revision ≠ .initial
  · simp only [if_pos initial]
    rfl
  · simp only [if_neg initial]
    split <;> rfl

theorem update_eq (s : Store) (d : Document) (values : List PropertyValue) :
    s.update d values =
      match (s.partition d.dataType).update d values with
      | (_, .error e) => (.error e, s)
      | (left, .ok p) => (.ok left, s.setPartition d.dataType p) := by
  unfold update updateFrom
  dsimp only
  split <;> rfl

/-- Every instance of a data type, by identity. -/
def documents (s : Store) (dataType : String) : List Document :=
  ((s.partition dataType).rows.values.map (·.document)).mergeSort
    fun a b => (compare a.id b.id).isLE

end Store

end Sagas
