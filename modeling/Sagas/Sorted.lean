/-!
# Sorted lists without repetition

Insertion into a strictly increasing list, and the strictly increasing list of a list's elements.
-/

namespace Sagas.Sorted

variable {α : Type} [Ord α]

/-- Inserts `a` unless it is there already. -/
def insert (a : α) : List α → List α
  | [] => [a]
  | b :: rest =>
    match compare a b with
    | .lt => a :: b :: rest
    | .eq => b :: rest
    | .gt => b :: insert a rest

/-- The elements of a list in increasing order, each once. -/
def ofList (xs : List α) : List α :=
  xs.foldr insert []

theorem mem_insert [Std.LawfulEqOrd α] {a x : α} {xs : List α} :
    x ∈ insert a xs ↔ x = a ∨ x ∈ xs := by
  induction xs with
  | nil => simp [insert]
  | cons b rest ih =>
    unfold insert
    split
    next => simp
    next same =>
      obtain rfl := Std.LawfulEqOrd.eq_of_compare same
      simp
    next => simp [ih, or_left_comm]

theorem mem_ofList [Std.LawfulEqOrd α] {x : α} {xs : List α} : x ∈ ofList xs ↔ x ∈ xs := by
  induction xs with
  | nil => simp [ofList]
  | cons a rest ih =>
    simp only [ofList, List.foldr_cons] at ih ⊢
    rw [mem_insert, ih, List.mem_cons]

theorem pairwise_insert [Std.TransOrd α] [Std.LawfulEqOrd α] {a : α} {xs : List α}
    (increasing : xs.Pairwise fun x y => compare x y = .lt) :
    (insert a xs).Pairwise fun x y => compare x y = .lt := by
  induction xs with
  | nil => simp [insert]
  | cons b rest ih =>
    obtain ⟨below, tail⟩ := List.pairwise_cons.1 increasing
    unfold insert
    split
    next less =>
      refine List.pairwise_cons.2 ⟨fun x member => ?_, increasing⟩
      rcases List.mem_cons.1 member with rfl | member
      · exact less
      · exact Std.TransCmp.lt_trans less (below x member)
    next => exact increasing
    next greater =>
      refine List.pairwise_cons.2 ⟨fun x member => ?_, ih tail⟩
      rcases mem_insert.1 member with rfl | member
      · exact Std.OrientedCmp.lt_of_gt greater
      · exact below x member

theorem pairwise_ofList [Std.TransOrd α] [Std.LawfulEqOrd α] (xs : List α) :
    (ofList xs).Pairwise fun x y => compare x y = .lt := by
  induction xs with
  | nil => exact List.Pairwise.nil
  | cons a rest ih => exact pairwise_insert ih

theorem not_lt_self [Std.ReflOrd α] (a : α) : compare a a ≠ .lt := fun less => by
  rw [Std.ReflOrd.compare_self] at less
  cases less

theorem nodup_ofList [Std.TransOrd α] [Std.LawfulEqOrd α] (xs : List α) : (ofList xs).Nodup := by
  refine (pairwise_ofList xs).imp fun less => ?_
  rintro rfl
  exact not_lt_self _ less

/-- A finite set, as the increasing list of its elements. -/
structure Set (α : Type) [Ord α] where
  items : List α
  increasing : items.Pairwise fun x y => compare x y = .lt

namespace Set

theorem ext {a b : Set α} (same : a.items = b.items) : a = b := by
  cases a; cases b; simp_all

def empty : Set α := ⟨[], .nil⟩

variable [Std.TransOrd α] [Std.LawfulEqOrd α]

def ofList (xs : List α) : Set α :=
  ⟨Sorted.ofList xs, pairwise_ofList xs⟩

def insert (a : α) (s : Set α) : Set α :=
  ⟨Sorted.insert a s.items, pairwise_insert s.increasing⟩

def union (a b : Set α) : Set α :=
  ofList (a.items ++ b.items)

end Set

end Sagas.Sorted
