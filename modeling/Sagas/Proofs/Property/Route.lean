import Sagas.Property

/-!
# Routes to fields

A route leads from a record to one of its fields, part by part. Reading follows the parts inwards;
writing takes each part out, writes within it, and puts it back. So a field that is reached by
another route reads as before, as long as the two routes go into different parts somewhere.

Results:
1. `Lens.Disjoint.get_set`: what is written into one part is not read from another.
2. `Route.put_eq`: writing part by part is assigning through the composed field, or else nothing.
3. `Route.Parted.apart`: routes that part on their way reach different fields.
-/

namespace Sagas

variable {A B C D S : Type}

/-! ## Parts of a record -/

namespace Lens

/-- Neither part reaches into the other: they can be replaced in either order. -/
def Disjoint (l : Lens S A) (m : Lens S B) : Prop :=
  ∀ s a b, l.set (m.set s b) a = m.set (l.set s a) b

variable {l : Lens S A} {m : Lens S B}

theorem Disjoint.get_set (disjoint : l.Disjoint m) (s : S) (a : A) :
    m.get (l.set s a) = m.get s := by
  have unchanged := disjoint s a (m.get s)
  rw [m.set_get] at unchanged
  rw [unchanged, m.get_set]

theorem Disjoint.symm (disjoint : l.Disjoint m) : m.Disjoint l := fun s b a =>
  (disjoint s a b).symm

theorem Disjoint.modify_comm (disjoint : l.Disjoint m) (f : A → A) (g : B → B) (s : S) :
    l.modify f (m.modify g s) = m.modify g (l.modify f s) := by
  simp only [modify]
  rw [disjoint.symm.get_set, disjoint.get_set, disjoint]

end Lens

/-! ## Setters -/

namespace Kind

/-- The content of a value that is of this kind already. -/
def carried? : (k : Kind) → Scalar → Option k.Carrier
  | .bool, .bool b => some b
  | .int w, .int v n => if same : v = w then some (same ▸ n) else none
  | .uuid, .uuid u => some u
  | .string, .string s => some s
  | _, _ => none

theorem carried?_of (k : Kind) (x : k.Carrier) : k.carried? (.of k x) = some x := by
  cases k with
  | int w => exact dif_pos rfl
  | _ => rfl

end Kind

namespace Accessor

/-- Assigns in place: whether the value could be represented, and the data after that. -/
def set (a : Accessor D) (v : Scalar) (d : D) : Bool × D :=
  match a.assign? v d with
  | some e => (true, e)
  | none => (false, d)

theorem set_of_assigned {a : Accessor D} {v : Scalar} {d e : D}
    (assigned : a.assign? v d = some e) : a.set v d = (true, e) := by
  rw [set, assigned]

theorem set_of_refused {a : Accessor D} {v : Scalar} {d : D} (refused : a.assign? v d = none) :
    a.set v d = (false, d) := by
  rw [set, refused]

theorem set_fst (a : Accessor D) (v : Scalar) (d : D) :
    (a.set v d).1 = (v.coerce a.kind).isSome := by
  rw [← a.assign?_isSome v d, set]
  cases a.assign? v d <;> rfl

/-- The converted value is read back, or nothing has changed. -/
theorem set_snd (a : Accessor D) (v : Scalar) (d : D) :
    ((a.set v d).1 = true → v.coerce a.kind = some (a.value (a.set v d).2)) ∧
      ((a.set v d).1 = false → (a.set v d).2 = d) := by
  cases assigned : a.assign? v d with
  | some e =>
    rw [set_of_assigned assigned]
    exact ⟨fun _ => value_of_assign? assigned, nofun⟩
  | none =>
    rw [set_of_refused assigned]
    exact ⟨nofun, fun _ => rfl⟩

end Accessor

/-! ## Routes -/

/-- A field of a record, or of one of its parts, under the names that lead there. -/
inductive Route : Type → Type 1 where
  | field {D : Type} (name : String) (kind : Kind) (lens : Lens D kind.Carrier) : Route D
  | within {C D : Type} (name : String) (outer : Lens D C) (rest : Route C) : Route D

namespace Route

def path : {D : Type} → Route D → String
  | _, .field name _ _ => name
  | _, .within name _ rest => name ++ "." ++ rest.path

def kind : {D : Type} → Route D → Kind
  | _, .field _ kind _ => kind
  | _, .within _ _ rest => rest.kind

def read : {D : Type} → (r : Route D) → D → r.kind.Carrier
  | _, .field _ _ lens, d => lens.get d
  | _, .within _ outer rest, d => rest.read (outer.get d)

def write : {D : Type} → (r : Route D) → D → r.kind.Carrier → D
  | _, .field _ _ lens, d, x => lens.set d x
  | _, .within _ outer rest, d, x => outer.set d (rest.write (outer.get d) x)

theorem read_write (r : Route D) (d : D) (x : r.kind.Carrier) : r.read (r.write d x) = x := by
  induction r with
  | field name kind lens => exact lens.get_set d x
  | within name outer rest ih =>
    simp only [read, write, outer.get_set]
    exact ih _ x

theorem write_read (r : Route D) (d : D) : r.write d (r.read d) = d := by
  induction r with
  | field name kind lens => exact lens.set_get d
  | within name outer rest ih => simp only [read, write, ih, outer.set_get]

theorem write_write (r : Route D) (d : D) (x y : r.kind.Carrier) :
    r.write (r.write d x) y = r.write d y := by
  induction r with
  | field name kind lens => exact lens.set_set d x y
  | within name outer rest ih =>
    simp only [write, outer.get_set, outer.set_set]
    exact congrArg (outer.set d) (ih _ x y)

/-- The field at the end of a route, as a part of the whole record. -/
def lens (r : Route D) : Lens D r.kind.Carrier where
  get := r.read
  set := r.write
  get_set := r.read_write
  set_get := r.write_read
  set_set := r.write_write

/-- What a table holds for a field that was registered along this route. -/
def accessor (r : Route D) : Accessor D :=
  ⟨r.path, r.kind, r.lens⟩

@[simp] theorem path_accessor (r : Route D) : r.accessor.path = r.path := rfl

/-! ## Writing part by part -/

/-- Stores a value of the field's kind: whether it was, and the record after that. -/
def store : {D : Type} → Route D → Scalar → D → Bool × D
  | _, .field _ kind lens, v, d =>
    match kind.carried? v with
    | some x => (true, lens.set d x)
    | none => (false, d)
  | _, .within _ outer rest, v, d =>
    let (stored, part) := rest.store v (outer.get d)
    (stored, outer.set d part)

/-- Stores a value that is converted to the field's kind first. -/
def put (r : Route D) (v : Scalar) (d : D) : Bool × D :=
  match v.coerce r.kind with
  | some converted => r.store converted d
  | none => (false, d)

theorem store_of (r : Route D) (x : r.kind.Carrier) (d : D) :
    r.store (.of r.kind x) d = (true, r.write d x) := by
  induction r with
  | field name kind lens =>
    change kind.Carrier at x
    have carried := kind.carried?_of x
    simp only [store, Route.kind, carried, write]
  | within name outer rest ih =>
    change rest.kind.Carrier at x
    have stored := ih x (outer.get d)
    simp only [store, Route.kind, stored, write]

/-- Writing part by part is assigning to the field at the end of the route. -/
theorem put_eq (r : Route D) (v : Scalar) (d : D) : r.put v d = r.accessor.set v d := by
  unfold put Accessor.set Accessor.assign? Scalar.coerce
  show _ = match (v.coerceTo r.kind).map (r.write d) with
    | some e => (true, e)
    | none => (false, d)
  cases v.coerceTo r.kind with
  | none => rfl
  | some x => exact r.store_of x d

/-! ## Different fields -/

/-- The two fields can be written in either order. -/
def Apart (r s : Route D) : Prop :=
  r.lens.Disjoint s.lens

theorem Apart.value_set {r s : Route D} (apart : r.Apart s) (v : Scalar) (d : D) :
    s.accessor.value (r.accessor.set v d).2 = s.accessor.value d := by
  cases assigned : r.accessor.assign? v d with
  | some e =>
    obtain ⟨x, -, rfl⟩ := Option.map_eq_some_iff.1 assigned
    rw [Accessor.set_of_assigned assigned]
    exact congrArg (Scalar.of s.kind) (apart.get_set d x)
  | none => rw [Accessor.set_of_refused assigned]

/-- The type of the first part on the way. -/
def First : {D : Type} → Route D → Type
  | _, .field _ kind _ => kind.Carrier
  | _, .within (C := C) .. => C

def first : {D : Type} → (r : Route D) → Lens D r.First
  | _, .field _ _ lens => lens
  | _, .within _ outer _ => outer

/-- Two routes that share their first parts, if any, and then go into different ones. -/
inductive Parted : {D : Type} → Route D → Route D → Prop
  | here {D : Type} {r s : Route D} (disjoint : r.first.Disjoint s.first) : Parted r s
  | within {C D : Type} {name name' : String} {outer : Lens D C} {r s : Route C}
      (parted : Parted r s) : Parted (.within name outer r) (.within name' outer s)

/-- A write changes nothing outside the first part. -/
theorem write_eq_modify (r : Route D) (x : r.kind.Carrier) :
    ∃ change, ∀ d, r.write d x = r.first.modify change d := by
  cases r with
  | field name kind lens => exact ⟨fun _ => x, fun _ => rfl⟩
  | within name outer rest => exact ⟨fun part => rest.write part x, fun _ => rfl⟩

theorem Parted.apart {r s : Route D} (parted : r.Parted s) : r.Apart s := by
  induction parted with
  | @here D r s disjoint =>
    intro d x y
    obtain ⟨change, changes⟩ := r.write_eq_modify x
    obtain ⟨change', changes'⟩ := s.write_eq_modify y
    show r.write (s.write d y) x = s.write (r.write d x) y
    rw [changes, changes, changes', changes', disjoint.modify_comm]
  | @within C D name name' outer r s parted ih =>
    intro d x y
    have inner := ih (outer.get d) x y
    show outer.set (outer.set d _) (r.write (outer.get (outer.set d _)) x) =
      outer.set (outer.set d _) (s.write (outer.get (outer.set d _)) y)
    simp only [outer.get_set, outer.set_set]
    exact congrArg (outer.set d) inner

end Route

end Sagas
