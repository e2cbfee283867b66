import Sagas.Scalar

/-!
# Numerals and the numbers they denote

What number a numeral denotes does not depend on the range it is read for; the range only decides
whether the text is refused. So reading splits into the number and a test of the bounds, and what
is read in one width is what every other width reads, where the number fits.

Results:
1. `Numeral.read_eq_ok_iff`: reading for a range is denoting a number within it.
2. `Numeral.number?_toString`: a printed number denotes itself.
3. `Word.ofText?_eq_some_iff`, `Word.ofText?_text`: the same for words.
-/

namespace Sagas

namespace Numeral

/-- The number that digits denote after others that denote `value`, however large. -/
def digits? (cs : List Char) (value : Nat) : Option Nat :=
  cs.foldlM (fun value c => (digit? c).map (value * 10 + ·)) value

/-- The number that a numeral denotes, however large. -/
def number? (s : String) : Option Int :=
  match s.toList with
  | [] | ['+'] | ['-'] => none
  | '+' :: digits => (digits? digits 0).map Int.ofNat
  | '-' :: digits => (digits? digits 0).map fun n : Nat => -(n : Int)
  | digits => (digits? digits 0).map Int.ofNat

@[simp] theorem digits?_nil (value : Nat) : digits? [] value = some value := rfl

theorem digits?_cons (c : Char) (cs : List Char) (value : Nat) :
    digits? (c :: cs) value = (digit? c).bind fun d => digits? cs (value * 10 + d) := by
  cases read : digit? c <;> simp [digits?, read]

theorem digits?_append (cs ds : List Char) (value : Nat) :
    digits? (cs ++ ds) value = (digits? cs value).bind (digits? ds) := by
  simp [digits?, List.foldlM_append]
  rfl

theorem le_of_digits? {cs : List Char} {value n : Nat} (denotes : digits? cs value = some n) :
    value ≤ n := by
  induction cs generalizing value with
  | nil =>
    cases denotes
    exact Nat.le_refl n
  | cons c cs ih =>
    rw [digits?_cons] at denotes
    obtain ⟨d, -, rest⟩ := Option.bind_eq_some_iff.1 denotes
    have := ih rest
    omega

theorem isDigit_of_digit? {c : Char} {d : Nat} (read : digit? c = some d) : c.isDigit = true := by
  unfold digit? at read
  split at read
  next between => exact Char.isDigit_iff_toNat.2 between
  next => cases read

theorem isDigit_of_digits? {cs : List Char} {value n : Nat} (denotes : digits? cs value = some n) :
    ∀ c ∈ cs, c.isDigit = true := by
  induction cs generalizing value with
  | nil => simp
  | cons c cs ih =>
    rw [digits?_cons] at denotes
    obtain ⟨d, first, rest⟩ := Option.bind_eq_some_iff.1 denotes
    exact List.forall_mem_cons.2 ⟨isDigit_of_digit? first, ih rest⟩

/-! ## Reading for a range -/

theorem readDigits_eq_ok_iff {limit : Nat} {excess : Fault} {cs : List Char} {value n : Nat}
    (within : value ≤ limit) :
    readDigits limit excess cs value = .ok n ↔ digits? cs value = some n ∧ n ≤ limit := by
  induction cs generalizing value with
  | nil =>
    simp only [readDigits, digits?_nil, Except.ok.injEq, Option.some.injEq]
    constructor
    · rintro rfl
      exact ⟨rfl, within⟩
    · exact And.left
  | cons c cs ih =>
    rw [digits?_cons, readDigits]
    cases read : digit? c with
    | none => simp
    | some d =>
      by_cases fits : value * 10 + d ≤ limit
      · simpa [fits] using ih fits
      · -- the digits that follow only make the number larger
        have larger : ∀ n, digits? cs (value * 10 + d) = some n → limit < n := fun n denotes => by
          have := le_of_digits? denotes
          omega
        simp only [fits, if_false, Option.bind_some, reduceCtorEq, false_iff, not_and, Nat.not_le]
        exact larger n

theorem map_eq_ok_iff {ε α β : Type} {f : α → β} {x : Except ε α} {b : β} :
    x.map f = .ok b ↔ ∃ a, x = .ok a ∧ f a = b := by
  cases x <;> simp [Except.map]

theorem map_opposite {ε : Type} (x : Except ε Nat) :
    (x.map fun n => -(n : Int)) = x.map fun n : Nat => -(n : Int) := by
  cases x <;> rfl

/-- A text is read as a number of a range if it denotes one that lies within. -/
theorem read_eq_ok_iff {least greatest : Int} (negative : least < 0) (positive : 0 ≤ greatest)
    (s : String) (n : Int) :
    read least greatest s = .ok n ↔ number? s = some n ∧ least ≤ n ∧ n ≤ greatest := by
  have natural : ∀ cs, (readDigits greatest.toNat .tooLarge cs 0).map Int.ofNat = .ok n ↔
      (digits? cs 0).map Int.ofNat = some n ∧ least ≤ n ∧ n ≤ greatest := fun cs => by
    simp only [map_eq_ok_iff, Option.map_eq_some_iff,
      readDigits_eq_ok_iff (Nat.zero_le greatest.toNat)]
    constructor
    · rintro ⟨a, ⟨denotes, le⟩, rfl⟩
      exact ⟨⟨a, denotes, rfl⟩, by simp only [Int.ofNat_eq_natCast]; omega⟩
    · rintro ⟨⟨a, denotes, rfl⟩, -, le⟩
      exact ⟨a, ⟨denotes, by simp only [Int.ofNat_eq_natCast] at le; omega⟩, rfl⟩
  have opposite : ∀ cs, ((readDigits (-least).toNat .tooSmall cs 0).map fun n : Nat => -(n : Int)) =
      .ok n ↔ ((digits? cs 0).map fun n : Nat => -(n : Int)) = some n ∧ least ≤ n ∧ n ≤ greatest :=
    fun cs => by
      simp only [map_eq_ok_iff, Option.map_eq_some_iff,
        readDigits_eq_ok_iff (Nat.zero_le (-least).toNat)]
      constructor
      · rintro ⟨a, ⟨denotes, le⟩, rfl⟩
        exact ⟨⟨a, denotes, rfl⟩, by omega⟩
      · rintro ⟨⟨a, denotes, rfl⟩, le, -⟩
        exact ⟨a, ⟨denotes, by omega⟩, rfl⟩
  unfold read number?
  generalize s.toList = cs
  split
  next => simp
  next => simp
  next => simp
  next some => simpa only [some] using natural _
  next some => simpa only [if_pos negative, some, map_opposite] using opposite _
  next noPlus noMinus => simpa only [noPlus, noMinus] using natural _

/-- Only the first character of a numeral may be a sign. -/
theorem isDigit_of_number? {s : String} {n : Int} (denotes : number? s = some n) :
    ∀ c ∈ s.toList.tail, c.isDigit = true := by
  unfold number? at denotes
  split at denotes
  next => cases denotes
  next => cases denotes
  next => cases denotes
  next chars =>
    obtain ⟨a, digits, -⟩ := Option.map_eq_some_iff.1 denotes
    rw [chars]
    exact isDigit_of_digits? digits
  next chars =>
    obtain ⟨a, digits, -⟩ := Option.map_eq_some_iff.1 denotes
    rw [chars]
    exact isDigit_of_digits? digits
  next =>
    obtain ⟨a, digits, -⟩ := Option.map_eq_some_iff.1 denotes
    exact fun c member => isDigit_of_digits? digits c (List.mem_of_mem_tail member)

/-! ## Printing -/

theorem digit?_digitChar {d : Nat} (small : d < 10) : digit? d.digitChar = some d := by
  have code := Nat.toNat_digitChar_of_lt_ten small
  have isDigit : '0' ≤ d.digitChar ∧ d.digitChar ≤ '9' := by
    have := Char.isDigit_iff_toNat (c := d.digitChar)
    simp only [Nat.isDigit_digitChar, small, decide_true, true_iff] at this
    exact this
  rw [digit?, if_pos isDigit, code]
  simp

theorem digits?_toDigits (n : Nat) : digits? (Nat.toDigits 10 n) 0 = some n := by
  induction n using Nat.strongRecOn with
  | _ n ih =>
    by_cases small : n < 10
    · rw [Nat.toDigits_of_lt_base small, digits?_cons, digit?_digitChar small]
      simp
    · have last := digit?_digitChar (Nat.mod_lt n (by decide : 10 > 0))
      rw [Nat.toDigits_of_base_le (by decide) (Nat.le_of_not_lt small), digits?_append,
        ih (n / 10) (by omega), Option.bind_some, digits?_cons, last, Option.bind_some, digits?_nil,
        Option.some.injEq]
      omega

theorem toList_toString (n : Int) :
    (toString n).toList =
      if 0 ≤ n then Nat.toDigits 10 n.toNat else '-' :: Nat.toDigits 10 (-n).toNat := by
  rw [Int.toString_eq_repr, Int.repr_eq_if]
  split <;> simp

theorem toDigits_eq_cons (n : Nat) :
    ∃ c cs, Nat.toDigits 10 n = c :: cs ∧ c ≠ '+' ∧ c ≠ '-' := by
  cases shape : Nat.toDigits 10 n with
  | nil => exact absurd shape Nat.toDigits_ne_nil
  | cons c cs =>
    have digit : c.isDigit = true :=
      Nat.isDigit_of_mem_toDigits (by decide) (by decide) (shape ▸ List.mem_cons_self)
    refine ⟨c, cs, rfl, ?_, ?_⟩
    · rintro rfl
      cases digit
    · rintro rfl
      cases digit

theorem number?_toString (n : Int) : number? (toString n) = some n := by
  unfold number?
  rw [toList_toString]
  by_cases positive : 0 ≤ n
  · obtain ⟨c, cs, shape, noPlus, noMinus⟩ := toDigits_eq_cons n.toNat
    have denotes := digits?_toDigits n.toNat
    rw [if_pos positive, shape]
    rw [shape] at denotes
    have same : (n.toNat : Int) = n := by omega
    simp [denotes, noPlus, noMinus, same]
  · obtain ⟨c, cs, shape, -, -⟩ := toDigits_eq_cons (-n).toNat
    have denotes := digits?_toDigits (-n).toNat
    rw [if_neg positive, shape]
    rw [shape] at denotes
    simp only [denotes, Option.map_some, Option.some.injEq]
    omega

end Numeral

/-! ## Words -/

namespace Word

variable {w : Width}

theorem ofText?_eq_some_iff {s : String} {a : Word w} :
    ofText? w s = some a ↔ Numeral.number? s = some a.val := by
  have bound := w.bound_pos
  have negative : -(w.bound : Int) < 0 := by omega
  have positive : 0 ≤ (w.bound : Int) - 1 := by omega
  have reads := Numeral.read_eq_ok_iff negative positive s
  unfold ofText?
  cases read : Numeral.read (-(w.bound : Int)) (w.bound - 1) s with
  | ok n =>
    obtain ⟨denotes, -, -⟩ := (reads n).1 read
    rw [denotes, Option.some.injEq]
    exact ofInt?_eq_some_iff.trans eq_comm
  | error fault =>
    simp only [reduceCtorEq, false_iff]
    intro denotes
    have := (reads a.val).2 ⟨denotes, a.le_val, by have := a.val_lt; omega⟩
    rw [read] at this
    cases this

theorem ofText?_text (a : Word w) : ofText? w a.text = some a :=
  ofText?_eq_some_iff.2 (Numeral.number?_toString a.val)

theorem mem_text {a : Word w} {c : Char} (member : c ∈ a.text.toList) :
    c = '-' ∨ c.isDigit = true := by
  rw [text, Numeral.toList_toString] at member
  split at member
  · exact .inr (Nat.isDigit_of_mem_toDigits (by decide) (by decide) member)
  · rcases List.mem_cons.1 member with rfl | digit
    · exact .inl rfl
    · exact .inr (Nat.isDigit_of_mem_toDigits (by decide) (by decide) digit)

theorem bound_le (w : Width) : w.bound ≤ 9223372036854775808 := by
  cases w <;> decide

theorem length_text (a : Word w) : a.text.toList.length ≤ 20 := by
  have least := a.le_val
  have greatest := a.val_lt
  have bound := bound_le w
  have digits : ∀ n : Nat, n ≤ 9223372036854775808 → (Nat.toDigits 10 n).length ≤ 19 :=
    fun n small => (Nat.length_toDigits_le_iff (by decide) (by decide)).2 (by omega)
  rw [text, Numeral.toList_toString]
  split
  · have := digits a.val.toNat (by omega)
    omega
  · have := digits (-a.val).toNat (by omega)
    simp only [List.length_cons]
    omega

end Word

end Sagas
