/-!
# Finite dictionaries

A list of keys with values, seen through `get?`: the first entry of a key counts.
-/

namespace Sagas

structure Dictionary (κ ν : Type) where
  entries : List (κ × ν)

namespace Dictionary

variable {κ ν : Type} [DecidableEq κ]

def empty : Dictionary κ ν := ⟨[]⟩

instance : Inhabited (Dictionary κ ν) := ⟨empty⟩

def lookup (k : κ) : List (κ × ν) → Option ν
  | [] => none
  | (key, value) :: rest => if key = k then some value else lookup k rest

def get? (d : Dictionary κ ν) (k : κ) : Option ν :=
  lookup k d.entries

def contains (d : Dictionary κ ν) (k : κ) : Bool :=
  (d.get? k).isSome

def erase (d : Dictionary κ ν) (k : κ) : Dictionary κ ν :=
  ⟨d.entries.filter fun entry => entry.1 ≠ k⟩

def insert (d : Dictionary κ ν) (k : κ) (v : ν) : Dictionary κ ν :=
  ⟨(k, v) :: (d.erase k).entries⟩

def values (d : Dictionary κ ν) : List ν :=
  d.entries.map (·.2)

@[simp] theorem get?_empty (k : κ) : (empty : Dictionary κ ν).get? k = none := rfl

theorem get?_erase (d : Dictionary κ ν) (k l : κ) :
    (d.erase k).get? l = if l = k then none else d.get? l := by
  obtain ⟨entries⟩ := d
  simp only [erase, get?]
  induction entries with
  | nil => simp [lookup]
  | cons entry rest ih =>
    obtain ⟨key, value⟩ := entry
    simp only [List.filter_cons, lookup]
    by_cases gone : key = k
    · subst gone
      simp only [ne_eq, not_true_eq_false, decide_false, Bool.false_eq_true, if_false, ih]
      by_cases same : l = key
      · simp [same]
      · simp [same, Ne.symm same]
    · simp only [ne_eq, gone, not_false_eq_true, decide_true, if_true, lookup, ih]
      by_cases same : key = l
      · subst same
        simp [gone]
      · simp [same]

theorem get?_insert (d : Dictionary κ ν) (k l : κ) (v : ν) :
    (d.insert k v).get? l = if l = k then some v else d.get? l := by
  have rest := get?_erase d k l
  simp only [insert, get?, lookup] at rest ⊢
  by_cases same : l = k
  · simp [same]
  · simp only [Ne.symm same, same, if_false] at rest ⊢
    exact rest

end Dictionary

end Sagas
