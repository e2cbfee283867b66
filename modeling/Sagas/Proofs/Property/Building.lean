import Mathlib.Data.List.Dedup
import Sagas.Document
import Sagas.Proofs.Property.Route

/-!
# How tables are built

A table is built by registering fields, one by one or as the table of a part, which was built in the
same way. The log of a building is every field that was ever registered, along its whole route, the
first one first. All that can be seen of the table follows from the log: the last route of every
path counts, and the paths stand in the order of their last registration.

Results:
1. `lasts_append`, `lasts_append_lasts`: the last accessors of a log that grows.
2. `Building.accessors_table`: a table holds the last accessors of its log.
3. `Building.get?_table`, `Building.paths_table`: looking paths up and listing them.
4. `Building.table_of_data`: the full table of a data type is built in the same way.
5. `Building.table_laws`: what tables can be relied on for.
-/

namespace Sagas

variable {C D : Type}

/-! ## The last accessors -/

/-- The last accessor of every path, in their order. -/
def lasts (log : List (Accessor D)) : List (Accessor D) :=
  log.pwFilter fun a b => a.path ≠ b.path

/-- No path of the log is missing. -/
theorem forall_mem_lasts {a : Accessor D} {log : List (Accessor D)} :
    (∀ b ∈ lasts log, a.path ≠ b.path) ↔ ∀ b ∈ log, a.path ≠ b.path := by
  refine List.forall_mem_pwFilter (fun {x y z} differ => ?_) a log
  by_cases same : x.path = y.path
  · exact .inr (same ▸ differ)
  · exact .inl same

theorem lasts_cons (a : Accessor D) (log : List (Accessor D)) :
    lasts (a :: log) = if ∀ b ∈ log, a.path ≠ b.path then a :: lasts log else lasts log := by
  split
  next new => exact List.pwFilter_cons_of_pos (forall_mem_lasts.2 new)
  next old => exact List.pwFilter_cons_of_neg (mt forall_mem_lasts.1 old)

/-- Whatever is registered takes its path from the others and stands behind them. -/
theorem lasts_concat (log : List (Accessor D)) (a : Accessor D) :
    lasts (log ++ [a]) = (lasts log).filter (fun b => b.path ≠ a.path) ++ [a] := by
  induction log with
  | nil => rfl
  | cons b log ih =>
    rw [List.cons_append, lasts_cons, lasts_cons, ih]
    simp only [List.forall_mem_append, List.forall_mem_singleton]
    by_cases new : ∀ c ∈ log, b.path ≠ c.path
    · by_cases same : b.path = a.path
      · rw [if_neg fun kept => kept.2 same, if_pos new, List.filter_cons_of_neg (by simp [same])]
      · rw [if_pos ⟨new, same⟩, if_pos new, List.filter_cons_of_pos (by simp [same]),
          List.cons_append]
    · rw [if_neg fun kept => new kept.1, if_neg new]

/-- Only the last accessors of what follows matter. -/
theorem lasts_append_lasts (log later : List (Accessor D)) :
    lasts (log ++ lasts later) = lasts (log ++ later) := by
  induction log with
  | nil => exact List.pwFilter_idem
  | cons a log ih =>
    rw [List.cons_append, List.cons_append, lasts_cons, lasts_cons, ih]
    simp only [List.forall_mem_append, forall_mem_lasts]

theorem lasts_map_under (name : String) (outer : Lens D C) (log : List (Accessor C)) :
    lasts (log.map (Accessor.under name outer)) = (lasts log).map (Accessor.under name outer) := by
  rw [lasts, List.pwFilter_map, lasts]
  simp only [Accessor.under, ne_eq, String.append_right_inj]

theorem map_path_lasts (log : List (Accessor D)) :
    (lasts log).map (·.path) = (log.map (·.path)).dedup :=
  (List.pwFilter_map (R := fun path other : String => path ≠ other) Accessor.path log).symm

theorem find?_lasts (log : List (Accessor D)) (path : String) :
    (lasts log).find? (·.path = path) = log.reverse.find? (·.path = path) := by
  induction log with
  | nil => rfl
  | cons a log ih =>
    rw [lasts_cons, List.reverse_cons, List.find?_append, ← ih]
    by_cases same : a.path = path
    · subst same
      have last : [a].find? (·.path = a.path) = some a := by simp
      rw [last]
      split
      next new =>
        have none : (lasts log).find? (·.path = a.path) = none :=
          List.find?_eq_none.2 fun b member again =>
            forall_mem_lasts.2 new b member (of_decide_eq_true again).symm
        rw [none, List.find?_cons_of_pos (by simp), Option.none_or]
      next old =>
        rw [← forall_mem_lasts] at old
        simp only [not_forall, not_not] at old
        obtain ⟨b, member, again⟩ := old
        have found : ((lasts log).find? (·.path = a.path)).isSome :=
          List.find?_isSome.2 ⟨b, member, by simp [again]⟩
        rw [Option.or_of_isSome found]
    · have last : [a].find? (·.path = path) = none := by simp [same]
      rw [last, Option.or_none]
      split
      next => exact List.find?_cons_of_neg (by simp [same])
      next => rfl

/-! ## Registering -/

namespace PropertyTable

/-- Registering one accessor after the other adds them to the log. -/
theorem accessors_foldl {t : PropertyTable D} {log : List (Accessor D)}
    (holds : t.accessors = lasts log) (later : List (Accessor D)) :
    (later.foldl register t).accessors = lasts (log ++ later) := by
  induction later generalizing t log with
  | nil => rw [List.foldl_nil, List.append_nil, holds]
  | cons a later ih =>
    have next : (t.register a).accessors = lasts (log ++ [a]) := by
      rw [lasts_concat, ← holds]
      rfl
    rw [List.foldl_cons, ih next, List.append_assoc, List.singleton_append]

end PropertyTable

/-- The registrations that make a table, the last one outermost. -/
inductive Building : Type → Type 1 where
  | empty {D : Type} : Building D
  | field {D : Type} (before : Building D) (name : String) (kind : Kind)
      (lens : Lens D kind.Carrier) : Building D
  | nested {C D : Type} (before : Building D) (name : String) (outer : Lens D C)
      (inner : Building C) : Building D

namespace Building

def table : {D : Type} → Building D → PropertyTable D
  | _, .empty => .empty
  | _, .field before name kind lens => before.table.field name kind lens
  | _, .nested before name outer inner => before.table.nested name outer inner.table

/-- Every field that was ever registered, the first one first. -/
def log : {D : Type} → Building D → List (Route D)
  | _, .empty => []
  | _, .field before name kind lens => before.log ++ [.field name kind lens]
  | _, .nested before name outer inner => before.log ++ inner.log.map (.within name outer)

theorem accessors_table (b : Building D) :
    b.table.accessors = lasts (b.log.map Route.accessor) := by
  induction b with
  | empty => rfl
  | field before name kind lens ih =>
    have registered := PropertyTable.accessors_foldl ih [⟨name, kind, lens⟩]
    rw [log, List.map_append]
    exact registered
  | nested before name outer inner ih ihInner =>
    have mapped : inner.table.accessors.map (Accessor.under name outer) =
        lasts ((inner.log.map (.within name outer)).map Route.accessor) := by
      rw [ihInner, ← lasts_map_under, List.map_map, List.map_map]
      rfl
    calc (before.nested name outer inner).table.accessors
        = lasts (before.log.map Route.accessor ++
            inner.table.accessors.map (Accessor.under name outer)) :=
          PropertyTable.accessors_foldl ih _
      _ = lasts ((before.nested name outer inner).log.map Route.accessor) := by
          rw [mapped, lasts_append_lasts, log, List.map_append]

/-- The last route that was registered under a path. -/
def last? (b : Building D) (path : String) : Option (Route D) :=
  b.log.reverse.find? (·.path = path)

theorem get?_table (b : Building D) (path : String) :
    b.table.get? path = (b.last? path).map Route.accessor := by
  rw [PropertyTable.get?, accessors_table, find?_lasts, ← List.map_reverse, List.find?_map]
  rfl

theorem paths_table (b : Building D) : b.table.paths = (b.log.map Route.path).dedup := by
  rw [PropertyTable.paths, accessors_table, map_path_lasts, List.map_map]
  rfl

/-! ## Tables of data types -/

/-- The registrations of `b` on top of those of `start`. -/
def onto (start : Building D) : Building D → Building D
  | .empty => start
  | .field before name kind lens => .field (onto start before) name kind lens
  | .nested before name outer inner => .nested (onto start before) name outer inner

theorem log_onto (start b : Building D) : (start.onto b).log = start.log ++ b.log := by
  induction b with
  | empty => exact (List.append_nil _).symm
  | field before name kind lens ih => rw [onto, log, log, ih, List.append_assoc]
  | nested before name outer inner ih => rw [onto, log, log, ih, List.append_assoc]

/-- The identity of a data type. -/
def identity (t : DataType D) : Building D :=
  .field .empty identityPath .uuid (t.metadata.comp Metadata.idLens)

/-- The full table of a data type is built like any other: the identity first, then what the type
declares. -/
theorem table_of_data {t : DataType D} {b : Building D} (declared : t.properties = b.table) :
    t.table = ((identity t).onto b).table := by
  have registered : t.table.accessors =
      lasts ((identity t).log.map Route.accessor ++ b.table.accessors) := by
    rw [DataType.table, declared]
    exact PropertyTable.accessors_foldl (identity t).accessors_table b.table.accessors
  have same : t.table.accessors = ((identity t).onto b).table.accessors := by
    rw [registered, accessors_table b, lasts_append_lasts, accessors_table, log_onto,
      List.map_append]
  exact congrArg PropertyTable.mk same

/-! ## Laws -/

/-- A table that was built in any way lists each of its paths once, in the order of their last
registration (of the occurrences of a path, `dedup` keeps the last one). Under a path it has what
was registered last there, which reads the field at the end of the route, part by part. Assigning to
it is storing through the route, part by part. It succeeds exactly if the value converts to the kind
of the field; then the converted value is read back, and every path that reaches another field reads
as before, other fields being those that a route reaches which goes into another part somewhere. If
it fails, the data is unchanged. The full table of a data type is such a table, too. -/
theorem table_laws (b : Building D) :
    b.table.paths = (b.log.map Route.path).dedup ∧ b.table.paths.Nodup ∧
    (∀ path, b.table.get? path = (b.last? path).map Route.accessor) ∧
    (∀ path a, b.table.get? path = some a →
      ∃ r ∈ b.log, b.last? path = some r ∧ a.path = path ∧ r.path = path ∧ a.kind = r.kind ∧
        ∀ d, a.value d = .of r.kind (r.read d) ∧
          ∀ v, a.set v d = r.put v d ∧
            ((a.set v d).1 = true ↔ (v.coerce a.kind).isSome = true) ∧
            ((a.set v d).1 = true → v.coerce a.kind = some (a.value (a.set v d).2) ∧
              ∀ other s c, b.last? other = some s → b.table.get? other = some c → r.Apart s →
                c.value (a.set v d).2 = c.value d) ∧
            ((a.set v d).1 = false → (a.set v d).2 = d)) ∧
    (∀ r s : Route D, r.Parted s → r.Apart s) ∧
    ∀ t : DataType D, t.properties = b.table → t.table = ((identity t).onto b).table := by
  refine ⟨paths_table b, ?_, get?_table b, fun path a known => ?_, fun r s => Route.Parted.apart,
    fun t => table_of_data⟩
  · rw [paths_table]
    exact List.nodup_dedup _
  · rw [get?_table] at known
    obtain ⟨r, last, rfl⟩ := Option.map_eq_some_iff.1 known
    have named : r.path = path := by simpa using List.find?_some last
    refine ⟨r, List.mem_reverse.1 (List.mem_of_find?_eq_some last), last, named, named, rfl, ?_⟩
    intro d
    refine ⟨rfl, fun v => ⟨(r.put_eq v d).symm, ?_, fun set => ⟨?_, ?_⟩, ?_⟩⟩
    · rw [Accessor.set_fst]
    · exact (r.accessor.set_snd v d).1 set
    · intro other s c last' known' apart
      rw [get?_table, last'] at known'
      cases known'
      exact apart.value_set v d
    · exact (r.accessor.set_snd v d).2

example : (Building.empty |>.field "A" .bool Lens.first
    |>.nested "B" Lens.second (.field .empty "C" .bool { get := id, set := fun _ b => b })
    |>.field "A" .bool (Lens.first (A := Bool))).table.paths = ["B.C", "A"] := by decide

end Building

end Sagas
