import Sagas.Demo.Record
import Sagas.Proofs.Coercion.Identifier
import Sagas.Proofs.Data

/-!
# Documents and the data they hold

A document has its identity and its revision twice: outside of the body, where storage sees them,
and within it, where reading the body finds them. Those outside win whenever the document is read,
and both are written anew from the data, so reading and writing once makes the two agree, and doing
it again changes nothing.

Results:
1. `Json.readRecord_aligned`: an object that stands in the order of the fields is read by position.
2. `Demo.Record.decode_encode`: a record is read back from what was written of it.
3. `DataType.ofDocument_toDocument`, `DataType.ofDocument_of_decode`: writing and reading in either
   order.
4. `Demo.documents_round_trip`: both for the data types of records.
-/

namespace Sagas

variable {D R : Type}

/-! ## Reading what was written -/

namespace Json

/-- Reads the fields one after the other from the values at their places. -/
def readInTurn : List (Field R) → List Json → R → Except ReadError R
  | field :: fields, j :: values, r => (field.read j r).bind (readInTurn fields values)
  | _, _, r => .ok r

theorem readInTurn_of {α : Type} {value : Json → Except ReadError α} {j : Json} {a : α}
    (reads : value j = .ok a) (name : String) (set : R → α → R) (fields : List (Field R))
    (values : List Json) (r : R) :
    readInTurn (.of name value set :: fields) (j :: values) r =
      readInTurn fields values (set r a) := by
  show ((value j).map (set r)).bind (readInTurn fields values) = _
  rw [reads]
  rfl

/-- If every entry of an object is found to be for the field at its place, the fields are read one
after the other. -/
theorem foldlM_readEntry (all : List (Field R)) {fields : List (Field R)} {values : List Json}
    (finds : ∀ p ∈ fields.zip values, all.find? (·.name = p.1.name) = some p.1) (r : R) :
    ((fields.zip values).map fun p => (p.1.name, p.2)).foldlM (readEntry all) r =
      readInTurn fields values r := by
  induction fields generalizing values r with
  | nil => rfl
  | cons field fields ih =>
    cases values with
    | nil => rfl
    | cons j values =>
      obtain ⟨first, later⟩ := List.forall_mem_cons.1 finds
      rw [List.zip_cons_cons, List.map_cons, List.foldlM_cons, readEntry, first]
      exact congrArg _ (funext fun next => ih later next)

theorem find?_field {fields : List (Field R)} (distinct : (fields.map (·.name)).Nodup)
    {field : Field R} (member : field ∈ fields) :
    fields.find? (·.name = field.name) = some field := by
  rw [← List.head?_filter, filter_eq_singleton_of_nodup distinct member, List.head?_singleton]

/-- An object with an entry for every field, in the order of the fields, is read by position. -/
theorem readRecord_aligned {type : String} {fields : List (Field R)} {start : R}
    (values : List Json) (distinct : (fields.map (·.name)).Nodup)
    (complete : fields.length = values.length) :
    readRecord type fields start (.obj ((fields.zip values).map fun p => (p.1.name, p.2))) =
      readInTurn fields values start := by
  have every : (fields.zip values).map (·.1) = fields := List.map_fst_zip (Nat.le_of_eq complete)
  have finds : ∀ p ∈ fields.zip values, fields.find? (·.name = p.1.name) = some p.1 := by
    intro p member
    exact find?_field distinct (every ▸ List.mem_map_of_mem member)
  have none : fields.find? (fun field =>
      ((fields.zip values).map fun p => (p.1.name, p.2)).all (·.1 ≠ field.name)) = none := by
    refine List.find?_eq_none.2 fun field member missing => ?_
    obtain ⟨p, isPair, rfl⟩ := List.mem_map.1 (every.symm ▸ member)
    have other := List.all_eq_true.1 missing _ (List.mem_map_of_mem isPair)
    simp at other
  rw [readRecord, foldlM_readEntry fields finds, none]
  exact bind_pure _

theorem readBool_bool (b : Bool) : readBool (.bool b) = .ok b := rfl

theorem readStr_str (s : String) : readStr (.str s) = .ok s := rfl

theorem readUuid_toJson (u : Uuid) : readUuid u.toJson = .ok u := by
  rw [Uuid.toJson, readUuid, Uuid.ofText?_text]

theorem readList_map {α : Type} {read : Json → Except ReadError α} {write : α → Json}
    (inverse : ∀ a, read (write a) = .ok a) (items : List α) :
    readList read (.arr (items.map write)) = .ok items := by
  rw [readList]
  induction items with
  | nil => rfl
  | cons a items ih =>
    rw [List.map_cons, List.mapM_cons, inverse, ih]
    rfl

end Json

namespace Sorted

variable {α : Type} [Ord α]

/-- What is in increasing order already stays as it is. -/
theorem ofList_eq_self {items : List α} (increasing : items.Pairwise fun a b => compare a b = .lt) :
    ofList items = items := by
  induction items with
  | nil => rfl
  | cons a items ih =>
    obtain ⟨least, increasing⟩ := List.pairwise_cons.1 increasing
    rw [ofList, List.foldr_cons, ← ofList, ih increasing]
    cases items with
    | nil => rfl
    | cons b rest => rw [insert, least b List.mem_cons_self]

theorem Set.ofList_items [Std.TransOrd α] [Std.LawfulEqOrd α] (s : Set α) : ofList s.items = s :=
  Set.ext (ofList_eq_self s.increasing)

end Sorted

/-- Outside the program, revisions have 64 bits. -/
def Revision.Fits (r : Revision) : Prop :=
  r.number ≤ 0xFFFFFFFFFFFFFFFF

theorem Revision.ofInt?_number {r : Revision} (fits : r.Fits) : ofInt? r.number = some r := by
  unfold Fits at fits
  rw [ofInt?, if_pos (by omega)]
  rfl

namespace Demo.Record

theorem readWord_toJson {w : Width} (n : Word w) : readWord w n.toJson = .ok n := by
  simp only [readWord, Word.toJson, Json.readInt, n.ofInt?_val]

theorem readRevision_toJson {r : Revision} (fits : r.Fits) :
    Json.readInt "u64" Revision.ofInt? r.toJson = .ok r := by
  simp only [Revision.toJson, Json.readInt, Revision.ofInt?_number fits]

theorem readMetadata_obj {m : Metadata} (fits : m.revision.Fits) :
    readMetadata (.obj [("id", m.id.toJson), ("revision", m.revision.toJson)]) = .ok m := by
  refine (Json.readRecord_aligned [m.id.toJson, m.revision.toJson] (by decide) rfl).trans ?_
  rw [metadataFields, Json.readInTurn_of (Json.readUuid_toJson _),
    Json.readInTurn_of (readRevision_toJson fits)]
  rfl

theorem readAddress_obj (a : Address) : readAddress (.obj [("zip", a.zip.toJson)]) = .ok a := by
  refine (Json.readRecord_aligned [a.zip.toJson] (by decide) rfl).trans ?_
  rw [Json.readInTurn_of (readWord_toJson _)]
  rfl

theorem readChild_obj (c : Child) :
    readChild (.obj [("name", .str c.name), ("address", .obj [("zip", c.address.zip.toJson)])]) =
      .ok c := by
  refine (Json.readRecord_aligned [.str c.name, .obj [("zip", c.address.zip.toJson)]]
    (by decide) rfl).trans ?_
  rw [Json.readInTurn_of (Json.readStr_str _), Json.readInTurn_of (readAddress_obj _)]
  rfl

theorem decode_encode {d : Record} (fits : d.metadata.revision.Fits) :
    decode (encode d) = .ok d := by
  refine (Json.readRecord_aligned [
    .obj [("id", d.metadata.id.toJson), ("revision", d.metadata.revision.toJson)],
    .str d.key, d.code.toJson, d.big.toJson, d.small.toJson, .bool d.flag, d.uid.toJson,
    .obj [("name", .str d.child.name), ("address", .obj [("zip", d.child.address.zip.toJson)])],
    d.total.toJson, .arr (d.log.map .str), .arr (d.tags.items.map .str)] (by decide) rfl).trans ?_
  have texts := Json.readList_map Json.readStr_str
  rw [jsonFields, Json.readInTurn_of (readMetadata_obj fits),
    Json.readInTurn_of (Json.readStr_str _), Json.readInTurn_of (readWord_toJson _),
    Json.readInTurn_of (readWord_toJson _), Json.readInTurn_of (readWord_toJson _),
    Json.readInTurn_of (Json.readBool_bool _),
    Json.readInTurn_of (Json.readUuid_toJson _), Json.readInTurn_of (readChild_obj _),
    Json.readInTurn_of (readWord_toJson _), Json.readInTurn_of (texts _),
    Json.readInTurn_of (texts _)]
  simp only [Json.readInTurn, Sorted.Set.ofList_items]

end Demo.Record

/-! ## Documents -/

namespace DataType

variable {t : DataType D}

/-- Data is read back from what was written of it, if its revision has 64 bits. -/
def Faithful (t : DataType D) : Prop :=
  ∀ d, (t.revision d).Fits → t.decode (t.encode d) = .ok d

theorem ofDocument_toDocument (faithful : t.Faithful) {d : D} (fits : (t.revision d).Fits) :
    t.ofDocument (t.toDocument d) = .ok d := by
  have own : (t.toDocument d).metadata = t.metadata.get d := rfl
  have body : t.decode (t.toDocument d).body = .ok d := faithful d fits
  rw [ofDocument, body, own, Except.map, t.metadata.set_get]

/-- What is read from a document has the document's own identity and revision. It is written with
these, and within the body they are read back, too. -/
theorem ofDocument_of_decode (faithful : t.Faithful) {document : Document}
    (fits : document.revision.Fits) {written : D} (decoded : t.decode document.body = .ok written) :
    ∃ d, t.ofDocument document = .ok d ∧ d = t.metadata.set written document.metadata ∧
      t.id d = document.id ∧ t.revision d = document.revision ∧
      t.decode (t.toDocument d).body = .ok d ∧ t.ofDocument (t.toDocument d) = .ok d := by
  have own := t.metadata.get_set written document.metadata
  have identity : t.id (t.metadata.set written document.metadata) = document.id :=
    congrArg Metadata.id own
  have revision : t.revision (t.metadata.set written document.metadata) = document.revision :=
    congrArg Metadata.revision own
  have fits : (t.revision (t.metadata.set written document.metadata)).Fits := revision ▸ fits
  refine ⟨_, ?_, rfl, identity, revision, faithful _ fits, ofDocument_toDocument faithful fits⟩
  rw [ofDocument, decoded]
  rfl

end DataType

namespace Demo

theorem faithful (name : String) : (dataType name).Faithful := fun _ => Record.decode_encode

/-- Records are the same after they were written as a document and read back. A document whose body
can be read, whatever identity and revision stand in there, yields the record of the body with the
identity and the revision of the document. Written again, it has these outside of the body as well
as within, under the name of the data type, and reading and writing it once more changes nothing.
All that is asked is that revisions have 64 bits. -/
theorem documents_round_trip (name : String) :
    (∀ d : Record, d.metadata.revision.Fits →
      (dataType name).ofDocument ((dataType name).toDocument d) = .ok d) ∧
    ∀ (document : Document) (written : Record), document.revision.Fits →
      (dataType name).decode document.body = .ok written →
        ∃ d, (dataType name).ofDocument document = .ok d ∧
          d = { written with metadata := document.metadata } ∧
          (dataType name).id d = document.id ∧ (dataType name).revision d = document.revision ∧
          let back := (dataType name).toDocument d
          back.id = document.id ∧ back.revision = document.revision ∧ back.dataType = name ∧
          back.body.field? "meta" = some (.obj [("id", document.id.toJson),
            ("revision", document.revision.toJson)]) ∧
          ((dataType name).decode back.body).map Record.metadata = .ok document.metadata ∧
          (dataType name).ofDocument back = .ok d ∧
          ((dataType name).ofDocument back).map (dataType name).toDocument = .ok back := by
  refine ⟨fun d fits => DataType.ofDocument_toDocument (faithful name) fits, ?_⟩
  intro document written fits decoded
  obtain ⟨d, read, merged, identity, revision, body, again⟩ :=
    DataType.ofDocument_of_decode (faithful name) fits decoded
  refine ⟨d, read, merged, identity, revision, identity, revision, rfl, ?_, ?_, again, ?_⟩
  · rw [merged]
    rfl
  · rw [body, merged]
    rfl
  · rw [again]
    rfl

/-- Within the body stand another identity and another revision, and the tags are neither in order
nor each there once. -/
def untidy : Document :=
  ⟨.nil, ⟨7⟩, "demo.alpha", .obj [
    ("meta", .obj [("id", .str "11111111-1111-4111-8111-111111111111"), ("revision", .int 3)]),
    ("key", .str "rent"), ("code", .int 1), ("big", .int 2), ("small", .int (-3)),
    ("flag", .bool true), ("uid", .str "22222222-2222-4222-8222-222222222222"),
    ("child", .obj [("name", .str "Ann"), ("address", .obj [("zip", .int 12345)])]),
    ("total", .int 5), ("log", .arr [.str "due", .str "paid"]),
    ("tags", .arr [.str "late", .str "due", .str "late"])]⟩

/-- The first reading and writing tidies it up, and the second one leaves it as it is. -/
theorem untidy_tidied : ∃ d : Record,
    (dataType "demo.alpha").ofDocument untidy = .ok d ∧
      (dataType "demo.alpha").ofDocument ((dataType "demo.alpha").toDocument d) = .ok d ∧
      let back := (dataType "demo.alpha").toDocument d
      back.body.field? "meta" =
        some (.obj [("id", Uuid.nil.toJson), ("revision", .int 7)]) ∧
      back.body.field? "tags" = some (.arr [.str "due", .str "late"]) ∧
      ((dataType "demo.alpha").ofDocument back).map (dataType "demo.alpha").toDocument =
        .ok back := by
  obtain ⟨written, decoded, sorted⟩ : ∃ written,
      (dataType "demo.alpha").decode untidy.body = .ok written ∧
        written.tags.items = ["due", "late"] :=
    ⟨_, rfl, rfl⟩
  have fits : untidy.revision.Fits := show 7 ≤ 0xFFFFFFFFFFFFFFFF by decide
  obtain ⟨d, reads, merged, -, -, -, -, -, within, -, -, stays⟩ :=
    (documents_round_trip "demo.alpha").2 untidy written fits decoded
  have revision : d.metadata.revision = ⟨7⟩ := by rw [merged]; rfl
  have again := (documents_round_trip "demo.alpha").1 d (revision ▸ fits)
  refine ⟨d, reads, again, within, ?_, stays⟩
  show some (Json.arr (d.tags.items.map .str)) = _
  rw [merged, sorted]
  rfl

end Demo

end Sagas
