import Sagas.Proofs.Store.Calls

/-!
# The index refines a plain scan

A ledger has one line for every stored instance, with the values that the instance was last written
with, and no index. Its calls go over the lines: a write looks for another line of the data type
that holds one of its values, and a lookup takes the first line that fits. A store answers every
sequence of calls as the ledger does, so its index is nothing but a faster scan.

Results:
1. `Mirrors.owner_iff`: the index maps a key to an instance exactly if its line holds the key.
2. `Mirrors.find`: a lookup finds what a scan finds, which does not depend on the order of lines.
3. `Mirrors.call`: every call is answered alike and keeps the two in step.
4. `index_refines_scan`: all of it after any sequence of calls.
-/

namespace Sagas

namespace Store

/-! ## Ledgers -/

/-- An instance with the values that it was last written with. -/
structure Line where
  document : Document
  values : List PropertyValue

namespace Line

def isOf (line : Line) (dataType : String) (id : Uuid) : Bool :=
  line.document.dataType = dataType && line.document.id = id

/-- The instance was last written with this key, which is not its identity and not unset. -/
def holds (line : Line) (key : PropertyValue) : Bool :=
  line.values.contains key && key.name ≠ identityPath && !key.value.isUnset

/-- Whether a lookup means this line. -/
def fits (line : Line) (dataType property : String) (value : Scalar) : Bool :=
  line.document.dataType = dataType &&
    if property = identityPath then value.coerceTo .uuid = some line.document.id
    else line.holds ⟨property, value⟩

/-- The row that a store keeps for the line. -/
def row (line : Line) : Row :=
  ⟨line.document, Partition.keysOf line.values⟩

theorem isOf_iff {line : Line} {dataType : String} {id : Uuid} :
    line.isOf dataType id = true ↔ line.document.dataType = dataType ∧ line.document.id = id := by
  simp [isOf]

theorem mem_keys_row {line : Line} {key : PropertyValue} :
    key ∈ line.row.keys ↔ line.holds key = true := by
  simp [row, holds, Partition.mem_keysOf, and_assoc]

end Line

structure Ledger where
  lines : List Line

namespace Ledger

def empty : Ledger := ⟨[]⟩

/-- The line of an identity. -/
def line? (l : Ledger) (dataType : String) (id : Uuid) : Option Line :=
  l.lines.find? (·.isOf dataType id)

/-- The first line that a lookup means. -/
def scan (l : Ledger) (dataType property : String) (value : Scalar) : Option Document :=
  (l.lines.find? (·.fits dataType property value)).map (·.document)

/-- Whether another instance of the data type holds one of the values. -/
def isTaken (l : Ledger) (d : Document) (values : List PropertyValue) : Bool :=
  l.lines.any fun line =>
    line.document.dataType = d.dataType && line.document.id ≠ d.id && values.any line.holds

/-- Whether the line of the document is at its revision. -/
def isCurrent (l : Ledger) (d : Document) : Bool :=
  (l.line? d.dataType d.id).any (·.document.revision = d.revision)

def strike (l : Ledger) (d : Document) : Ledger :=
  ⟨l.lines.filter fun line => !line.isOf d.dataType d.id⟩

def write (l : Ledger) (d : Document) (values : List PropertyValue) : Ledger :=
  ⟨⟨d, values⟩ :: (l.strike d).lines⟩

def call (c : Call) (l : Ledger) : Result × Ledger :=
  match c with
  | .find dataType property value => (.found (l.scan dataType property value), l)
  | .insert d values =>
    if d.revision = .initial ∧ l.line? d.dataType d.id = none ∧ l.isTaken d values = false then
      (.stored d, l.write d values)
    else (.refused, l)
  | .update d values =>
    if l.isCurrent d = true ∧ l.isTaken d values = false then
      let stored := { d with revision := d.revision.next }
      (.stored stored, l.write stored values)
    else (.refused, l)
  | .delete d => if l.isCurrent d then (.deleted, l.strike d) else (.refused, l)

theorem line?_strike (l : Ledger) (d : Document) (dataType : String) (id : Uuid) :
    (l.strike d).line? dataType id =
      if dataType = d.dataType ∧ id = d.id then none else l.line? dataType id := by
  unfold line? strike
  rw [List.find?_filter]
  split
  next here =>
    obtain ⟨rfl, rfl⟩ := here
    exact List.find?_eq_none.2 (by simp)
  next other =>
    congr 1
    funext line
    by_cases same : line.isOf dataType id = true
    · obtain ⟨rfl, rfl⟩ := Line.isOf_iff.1 same
      have apart : line.isOf d.dataType d.id = false :=
        Bool.eq_false_iff.2 fun mine => other (Line.isOf_iff.1 mine)
      simp [apart]
    · simp [same]

theorem line?_write (l : Ledger) (d : Document) (values : List PropertyValue) (dataType : String)
    (id : Uuid) : (l.write d values).line? dataType id =
      if dataType = d.dataType ∧ id = d.id then some ⟨d, values⟩ else l.line? dataType id := by
  have rest := line?_strike l d dataType id
  unfold line? at rest ⊢
  rw [write, List.find?_cons]
  by_cases here : dataType = d.dataType ∧ id = d.id
  · obtain ⟨rfl, rfl⟩ := here
    simp [Line.isOf]
  · have other : (⟨d, values⟩ : Line).isOf dataType id = false := by
      refine Bool.eq_false_iff.2 fun same => here ?_
      exact (Line.isOf_iff.1 same).imp Eq.symm Eq.symm
    rw [other, if_neg here]
    rwa [if_neg here] at rest

/-- Every instance has one line. -/
def Single (l : Ledger) : Prop :=
  ∀ line ∈ l.lines, l.line? line.document.dataType line.document.id = some line

variable {l : Ledger}

theorem isOf_of_line? {dataType : String} {id : Uuid} {line : Line}
    (found : l.line? dataType id = some line) :
    line ∈ l.lines ∧ line.document.dataType = dataType ∧ line.document.id = id :=
  ⟨List.mem_of_find?_eq_some found,
    Line.isOf_iff.1 (List.find?_some (p := fun line : Line => line.isOf dataType id) found)⟩

theorem Single.strike (single : l.Single) (d : Document) : (l.strike d).Single := by
  intro line member
  obtain ⟨listed, kept⟩ := List.mem_filter.1 member
  have other : ¬ (line.document.dataType = d.dataType ∧ line.document.id = d.id) := fun same => by
    simp [Line.isOf_iff.2 same] at kept
  rw [line?_strike, if_neg other]
  exact single line listed

theorem Single.write (single : l.Single) (d : Document) (values : List PropertyValue) :
    (l.write d values).Single := by
  intro line member
  rw [line?_write]
  rcases List.mem_cons.1 member with rfl | listed
  · exact if_pos ⟨rfl, rfl⟩
  · have struck := single.strike d line listed
    rw [line?_strike] at struck
    split at struck
    next => cases struck
    next other => rwa [if_neg other]

end Ledger

/-! ## A store and a ledger in step -/

structure Mirrors (s : Store) (l : Ledger) : Prop where
  consistent : s.Consistent
  single : l.Single
  rows : ∀ dataType id, s.row? dataType id = (l.line? dataType id).map (·.row)

variable {s : Store} {l : Ledger}

namespace Mirrors

theorem start : empty.Mirrors .empty where
  consistent := consistent_empty
  single := nofun
  rows _ _ := rfl

theorem row_of_mem (mirrors : s.Mirrors l) {line : Line} (member : line ∈ l.lines) :
    s.row? line.document.dataType line.document.id = some line.row := by
  rw [mirrors.rows, mirrors.single line member]
  rfl

theorem line_of_row (mirrors : s.Mirrors l) {dataType : String} {id : Uuid} {row : Row}
    (present : s.row? dataType id = some row) :
    ∃ line, l.line? dataType id = some line ∧ line.row = row := by
  rw [mirrors.rows] at present
  exact Option.map_eq_some_iff.1 present

theorem owner_iff (mirrors : s.Mirrors l) {dataType : String} {key : PropertyValue} {id : Uuid} :
    s.owner? dataType key = some id ↔
      ∃ line, l.line? dataType id = some line ∧ line.holds key = true := by
  rw [mirrors.consistent.owner]
  constructor
  · rintro ⟨row, present, member⟩
    obtain ⟨line, isLine, rfl⟩ := mirrors.line_of_row present
    exact ⟨line, isLine, Line.mem_keys_row.1 member⟩
  · rintro ⟨line, isLine, holds⟩
    obtain ⟨member, rfl, rfl⟩ := Ledger.isOf_of_line? isLine
    exact ⟨line.row, mirrors.row_of_mem member, Line.mem_keys_row.2 holds⟩

/-- A key is held by one line of a data type at most. -/
theorem eq_of_holds (mirrors : s.Mirrors l) {a b : Line} {key : PropertyValue}
    (first : a ∈ l.lines) (second : b ∈ l.lines)
    (typed : a.document.dataType = b.document.dataType) (holds : a.holds key = true)
    (holds' : b.holds key = true) : a = b := by
  have owned := mirrors.owner_iff.2 ⟨a, mirrors.single a first, holds⟩
  have owned' := mirrors.owner_iff.2 ⟨b, mirrors.single b second, holds'⟩
  rw [typed, owned'] at owned
  have same := mirrors.single a first
  rw [typed, ← Option.some.inj owned, mirrors.single b second] at same
  exact (Option.some.inj same).symm

/-! ## Lookups -/

/-- What a lookup means is what it finds. -/
theorem find_of_fits (mirrors : s.Mirrors l) {line : Line} {dataType property : String}
    {value : Scalar} (member : line ∈ l.lines) (fits : line.fits dataType property value = true) :
    s.find dataType property value = some line.document := by
  have present := mirrors.row_of_mem member
  simp only [Line.fits, Bool.and_eq_true, decide_eq_true_eq] at fits
  obtain ⟨rfl, fits⟩ := fits
  by_cases identity : property = identityPath
  · simp only [identity, if_true, decide_eq_true_eq] at fits
    subst identity
    unfold row? at present
    simp [Store.find, Partition.find, fits, present, Line.row]
  · simp only [identity, if_false] at fits
    rw [find_property identity, mirrors.owner_iff.2 ⟨line, mirrors.single line member, fits⟩,
      Option.bind_some, present]
    rfl

/-- What a lookup finds is meant by it. -/
theorem fits_of_find (mirrors : s.Mirrors l) {dataType property : String} {value : Scalar}
    {d : Document} (found : s.find dataType property value = some d) :
    ∃ line ∈ l.lines, line.fits dataType property value = true := by
  by_cases identity : property = identityPath
  · obtain ⟨row, named, -⟩ := Option.map_eq_some_iff.1 found
    obtain ⟨id, isId, present⟩ := Option.bind_eq_some_iff.1 named
    obtain ⟨line, isLine, -⟩ := mirrors.line_of_row present
    obtain ⟨member, typed, rfl⟩ := Ledger.isOf_of_line? isLine
    rw [if_pos identity] at isId
    exact ⟨line, member, by simp [Line.fits, typed, identity, isId]⟩
  · rw [find_property identity] at found
    obtain ⟨row, named, -⟩ := Option.map_eq_some_iff.1 found
    obtain ⟨id, owned, -⟩ := Option.bind_eq_some_iff.1 named
    obtain ⟨line, isLine, holds⟩ := mirrors.owner_iff.1 owned
    obtain ⟨member, typed, -⟩ := Ledger.isOf_of_line? isLine
    exact ⟨line, member, by simp [Line.fits, typed, identity, holds]⟩

theorem find (mirrors : s.Mirrors l) (dataType property : String) (value : Scalar) :
    s.find dataType property value = l.scan dataType property value := by
  unfold Ledger.scan
  cases scanned : l.lines.find? (·.fits dataType property value) with
  | some line =>
    have fits : line.fits dataType property value = true := by
      simpa using List.find?_some scanned
    exact mirrors.find_of_fits (List.mem_of_find?_eq_some scanned) fits
  | none =>
    cases found : s.find dataType property value with
    | none => rfl
    | some d =>
      obtain ⟨line, member, fits⟩ := mirrors.fits_of_find found
      exact absurd fits (List.find?_eq_none.1 scanned line member)

/-! ## Writes -/

/-- A write meets no owned key exactly if no other line holds one of its values. -/
theorem free_iff (mirrors : s.Mirrors l) {d : Document} {values : List PropertyValue} :
    (s.partition d.dataType).Free d.id (Partition.keysOf values) ↔ l.isTaken d values = false := by
  simp only [Ledger.isTaken, Bool.eq_false_iff, ne_eq, List.any_eq_true, Bool.and_eq_true,
    decide_eq_true_eq]
  constructor
  · rintro free ⟨line, member, ⟨typed, other⟩, key, listed, holds⟩
    have owned := mirrors.owner_iff.2 ⟨line, mirrors.single line member, holds⟩
    have set := mirrors.consistent.indexed (mirrors.row_of_mem member)
      (Line.mem_keys_row.2 holds)
    exact other (free key (Partition.mem_keysOf.2 ⟨listed, set⟩) _ (typed ▸ owned))
  · intro clear key listed owner owned
    obtain ⟨line, isLine, holds⟩ := mirrors.owner_iff.1 owned
    obtain ⟨member, typed, rfl⟩ := Ledger.isOf_of_line? isLine
    refine Decidable.byContradiction fun other => clear ?_
    exact ⟨line, member, ⟨typed, other⟩, key, (Partition.mem_keysOf.1 listed).1, holds⟩

/-- A write expects a row exactly if the line is at its revision. -/
theorem current_iff (mirrors : s.Mirrors l) {d : Document} :
    (∃ row, (s.partition d.dataType).Current d.id d.revision row) ↔ l.isCurrent d = true := by
  have rows := mirrors.rows d.dataType d.id
  unfold row? at rows
  simp only [Partition.Current, rows, Ledger.isCurrent]
  cases l.line? d.dataType d.id with
  | none => simp
  | some line => simp [Line.row, eq_comm]

theorem insert (mirrors : s.Mirrors l) (d : Document) (values : List PropertyValue) :
    (Store.call (.insert d values) s).1 = (l.call (.insert d values)).1 ∧
      (Store.call (.insert d values) s).2.Mirrors (l.call (.insert d values)).2 := by
  have vacant : s.row? d.dataType d.id = none ↔ l.line? d.dataType d.id = none := by
    rw [mirrors.rows, Option.map_eq_none_iff]
  by_cases possible : d.revision = .initial ∧ l.line? d.dataType d.id = none ∧
      l.isTaken d values = false
  · obtain ⟨initial, absent, free⟩ := possible
    obtain ⟨done, inserts⟩ :=
      inserts_of_free initial (vacant.2 absent) (mirrors.free_iff.2 free)
    simp only [Ledger.call, initial, absent, free, and_self, if_true]
    refine ⟨by simp [Store.call, done, Result.ofStored], ?_⟩
    refine ⟨mirrors.consistent.insert d values, mirrors.single.write d values, fun type id => ?_⟩
    rw [Ledger.line?_write]
    refine (inserts.row type id).trans ?_
    split
    next => rfl
    next => exact mirrors.rows type id
  · have failed : ∃ e, s.insert d values = (.error e, s) := by
      by_cases initial : d.revision = .initial
      · obtain ⟨reason, failed⟩ : ∃ reason, s.insert d values = (.error (.conflict reason), s) :=
          insert_conflict initial fun free =>
            possible ⟨initial, vacant.1 free.1, mirrors.free_iff.1 free.2⟩
        exact ⟨_, failed⟩
      · exact ⟨_, (s.insert_eq d values).trans (if_pos initial)⟩
    obtain ⟨e, failed⟩ := failed
    simp only [Ledger.call, possible, if_false, Store.call, failed]
    exact ⟨rfl, mirrors⟩

theorem update (mirrors : s.Mirrors l) (d : Document) (values : List PropertyValue) :
    (Store.call (.update d values) s).1 = (l.call (.update d values)).1 ∧
      (Store.call (.update d values) s).2.Mirrors (l.call (.update d values)).2 := by
  by_cases possible : l.isCurrent d = true ∧ l.isTaken d values = false
  · obtain ⟨old, current⟩ := mirrors.current_iff.2 possible.1
    obtain ⟨done, updates⟩ := updates_of_current current (mirrors.free_iff.2 possible.2)
    simp only [Ledger.call, possible, and_self, if_true]
    refine ⟨by simp [Store.call, done, Result.ofStored], ?_⟩
    refine ⟨mirrors.consistent.update d values, mirrors.single.write _ values, fun type id => ?_⟩
    rw [Ledger.line?_write]
    refine (updates.row type id).trans ?_
    split
    next => rfl
    next => exact mirrors.rows type id
  · obtain ⟨reason, failed⟩ : ∃ reason, s.update d values = (.error (.conflict reason), s) :=
      update_conflict fun able =>
        possible ⟨mirrors.current_iff.1 able.1, mirrors.free_iff.1 able.2⟩
    simp only [Ledger.call, possible, if_false, Store.call, failed]
    exact ⟨rfl, mirrors⟩

theorem delete (mirrors : s.Mirrors l) (d : Document) :
    (Store.call (.delete d) s).1 = (l.call (.delete d)).1 ∧
      (Store.call (.delete d) s).2.Mirrors (l.call (.delete d)).2 := by
  rcases s.delete_cases d with ⟨reason, failed⟩ | ⟨old, done, deletes⟩
  · have stale : ¬ l.isCurrent d = true := by
      intro current
      obtain ⟨row, current⟩ := mirrors.current_iff.2 current
      have done := Partition.delete_of_current current
      simp [Store.delete, done] at failed
    simp only [Ledger.call, stale, Store.call, failed]
    exact ⟨rfl, mirrors⟩
  · have current := mirrors.current_iff.1 ⟨old, deletes.present, deletes.agrees⟩
    simp only [Ledger.call, current, if_true]
    refine ⟨by simp [Store.call, done, Result.ofDeleted], ?_⟩
    refine ⟨mirrors.consistent.delete d, mirrors.single.strike d, fun type id => ?_⟩
    rw [Ledger.line?_strike]
    refine (deletes.row type id).trans ?_
    split
    next => rfl
    next => exact mirrors.rows type id

theorem call (mirrors : s.Mirrors l) (c : Call) :
    (Store.call c s).1 = (l.call c).1 ∧ (Store.call c s).2.Mirrors (l.call c).2 := by
  cases c with
  | find dataType property value =>
    exact ⟨congrArg Result.found (mirrors.find dataType property value), mirrors⟩
  | insert d values => exact mirrors.insert d values
  | update d values => exact mirrors.update d values
  | delete d => exact mirrors.delete d

theorem play (mirrors : s.Mirrors l) (calls : List Call) :
    (Call.play Store.call calls s).1 = (Call.play Ledger.call calls l).1 ∧
      (Call.play Store.call calls s).2.Mirrors (Call.play Ledger.call calls l).2 := by
  induction calls generalizing s l with
  | nil => exact ⟨rfl, mirrors⟩
  | cons c rest ih =>
    obtain ⟨alike, mirrors'⟩ := mirrors.call c
    obtain ⟨log, ended⟩ := ih mirrors'
    refine ⟨?_, ended⟩
    simp only [Call.play, alike, log]

end Mirrors

/-- After any sequence of calls, successful or not, a store and a ledger that had the same calls
have answered each of them alike. The rows are the lines, each under its own identity and data
type. The index maps a key to an instance exactly if the instance was last written with the key, so
no key belongs to two instances and none to an instance that is not stored. Every lookup finds what
a scan of the lines finds, which is the only line that fits. -/
theorem index_refines_scan (calls : List Call) :
    let ran := Call.play Store.call calls empty
    let scanned := Call.play Ledger.call calls .empty
    let s := ran.2
    let l := scanned.2
    ran.1 = scanned.1 ∧
      (∀ dataType id, s.row? dataType id = (l.line? dataType id).map (·.row)) ∧
      (∀ dataType id row, s.row? dataType id = some row →
        row.document.id = id ∧ row.document.dataType = dataType) ∧
      (∀ dataType key id, s.owner? dataType key = some id ↔
        ∃ line, l.line? dataType id = some line ∧ line.holds key = true) ∧
      (∀ a ∈ l.lines, ∀ b ∈ l.lines, a.document.dataType = b.document.dataType →
        ∀ key, a.holds key = true → b.holds key = true → a = b) ∧
      (∀ dataType key id, s.owner? dataType key = some id →
        ∃ row, s.row? dataType id = some row) ∧
      (∀ dataType property value, s.find dataType property value =
        l.scan dataType property value) ∧
      ∀ dataType property value, ∀ line ∈ l.lines, line.fits dataType property value = true →
        s.find dataType property value = some line.document := by
  intro ran scanned s l
  obtain ⟨alike, mirrors⟩ := Mirrors.start.play calls
  refine ⟨alike, mirrors.rows, fun dataType id row present => ?_, fun dataType key id =>
    mirrors.owner_iff, fun a first b second typed key => mirrors.eq_of_holds first second typed,
    fun dataType key id owned => ?_, mirrors.find, fun dataType property value line member =>
    mirrors.find_of_fits member⟩
  · exact ⟨mirrors.consistent.id present, mirrors.consistent.dataType present⟩
  · obtain ⟨row, present, -⟩ := mirrors.consistent.owner.1 owned
    exact ⟨row, present⟩

end Store

end Sagas
