/-!
# Lenses

A projection to a part of a record together with the way to replace that part.
-/

namespace Sagas

structure Lens (S A : Type) where
  get : S → A
  set : S → A → S
  get_set : ∀ s a, get (set s a) = a := by intros; rfl
  set_get : ∀ s, set s (get s) = s := by intros; rfl
  set_set : ∀ s a b, set (set s a) b = set s b := by intros; rfl

namespace Lens

variable {S A B : Type}

attribute [simp] get_set set_get set_set

/-- Changes the part in place. -/
def modify (l : Lens S A) (f : A → A) (s : S) : S :=
  l.set s (f (l.get s))

/-- The part `inner` of the part `outer`. -/
def comp (outer : Lens S A) (inner : Lens A B) : Lens S B where
  get s := inner.get (outer.get s)
  set s b := outer.set s (inner.set (outer.get s) b)
  get_set := by simp
  set_get := by simp
  set_set := by simp

def first : Lens (A × B) A where
  get := Prod.fst
  set s a := (a, s.2)

def second : Lens (A × B) B where
  get := Prod.snd
  set s b := (s.1, b)

end Lens

end Sagas
