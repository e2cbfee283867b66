import Mathlib.Data.List.TakeWhile
import Sagas.Proofs.Coercion.Numeral
import Sagas.Settings

/-!
# What the text of a variable says

A variable says a number in three steps: blanks are dropped at both ends of its text, what stays is
read as a numeral without a minus sign, and zero is refused. Each step has a rule that does not
mention how it is carried out, and a text that breaks one of them is refused for the first rule that
it breaks.

Results:
1. `Text.trim_eq_iff`: what stays of a text when blanks are dropped at both ends.
2. `Numeral.read_unsigned_eq_ok_iff`, `Numeral.read_unsigned_eq_error_iff`: the numerals of a range
   that begins at zero, and the fault of any other text.
3. `Variable.read_eq_ok_iff`, `Variable.read_eq_error_iff`: the number of a variable, and the error
   if it has none.
-/

namespace Sagas

/-- All elements of a list have a property, or one of them is the first that has not. -/
theorem all_or_first {α : Type} (P : α → Prop) (xs : List α) :
    (∀ a ∈ xs, P a) ∨
      ∃ before a after, xs = before ++ a :: after ∧ (∀ b ∈ before, P b) ∧ ¬ P a := by
  induction xs with
  | nil => exact .inl (by simp)
  | cons a xs ih =>
    by_cases holds : P a
    · rcases ih with all | ⟨before, b, after, rfl, earlier, fails⟩
      · exact .inl (List.forall_mem_cons.2 ⟨holds, all⟩)
      · exact .inr ⟨a :: before, b, after, rfl, List.forall_mem_cons.2 ⟨holds, earlier⟩, fails⟩
    · exact .inr ⟨[], a, xs, rfl, by simp, holds⟩

/-! ## Blanks at both ends -/

namespace Text

/-- Of the text `s`, `t` stays when the blanks at both ends are dropped. -/
structure Trimmed (s t : String) : Prop where
  within : ∃ before after, s.toList = before ++ t.toList ++ after ∧
    (∀ c ∈ before, isBlank c = true) ∧ ∀ c ∈ after, isBlank c = true
  first : ∀ c ∈ t.toList.head?, isBlank c = false
  last : ∀ c ∈ t.toList.getLast?, isBlank c = false

theorem head?_dropWhile (cs : List Char) :
    ∀ c ∈ (cs.dropWhile isBlank).head?, isBlank c = false := by
  intro c first
  have shown := List.head?_dropWhile_not isBlank cs
  rw [Option.mem_def] at first
  rwa [first] at shown

/-- Leading blanks are dropped, up to the first character that is none. -/
theorem dropWhile_append {before cs : List Char} (blank : ∀ c ∈ before, isBlank c = true)
    (first : ∀ c ∈ cs.head?, isBlank c = false) : (before ++ cs).dropWhile isBlank = cs := by
  rw [List.dropWhile_append_of_pos blank]
  cases cs with
  | nil => rfl
  | cons c cs => exact List.dropWhile_cons_of_neg (by simp [first c rfl])

theorem trimmed_trim (s : String) : Trimmed s (trim s) := by
  let left := s.toList.dropWhile isBlank
  have kept : (trim s).toList = (left.reverse.dropWhile isBlank).reverse := String.toList_ofList
  have split : left =
      (left.reverse.dropWhile isBlank).reverse ++ (left.reverse.takeWhile isBlank).reverse := by
    rw [← List.reverse_append, List.takeWhile_append_dropWhile, List.reverse_reverse]
  refine ⟨⟨s.toList.takeWhile isBlank, (left.reverse.takeWhile isBlank).reverse, ?_, ?_, ?_⟩, ?_,
    ?_⟩
  · rw [kept, List.append_assoc, ← split, List.takeWhile_append_dropWhile]
  · exact fun c => List.mem_takeWhile_imp
  · exact fun c member => List.mem_takeWhile_imp (List.mem_reverse.1 member)
  · -- the first character that stays is the first one behind the leading blanks
    intro c first
    refine head?_dropWhile s.toList c ?_
    change c ∈ left.head?
    rw [kept] at first
    rw [split, List.head?_append, Option.mem_def.1 first]
    rfl
  · rw [kept, List.getLast?_reverse]
    exact head?_dropWhile left.reverse

theorem trim_eq_of_trimmed {s t : String} (trimmed : Trimmed s t) : trim s = t := by
  obtain ⟨⟨before, after, whole, blankBefore, blankAfter⟩, first, last⟩ := trimmed
  have backwards : ∀ c ∈ after.reverse, isBlank c = true :=
    fun c member => blankAfter c (List.mem_reverse.1 member)
  have ends : ∀ c ∈ t.toList.reverse.head?, isBlank c = false := by
    rwa [List.head?_reverse]
  rw [trim, trimChars, whole, List.append_assoc]
  cases chars : t.toList with
  | nil =>
    have none : (before ++ ([] ++ after)).dropWhile isBlank = [] :=
      List.dropWhile_eq_nil_iff.2 (List.forall_mem_append.2 ⟨blankBefore, blankAfter⟩)
    rw [none, ← String.ofList_toList (s := t), chars]
    rfl
  | cons c cs =>
    have leading : ∀ d ∈ (c :: cs ++ after).head?, isBlank d = false :=
      fun d member => first d (by simpa [chars] using member)
    rw [dropWhile_append blankBefore leading, List.reverse_append, ← chars,
      dropWhile_append backwards ends, List.reverse_reverse, String.ofList_toList]

theorem trim_eq_iff {s t : String} : trim s = t ↔ Trimmed s t :=
  ⟨fun same => same ▸ trimmed_trim s, trim_eq_of_trimmed⟩

end Text

/-! ## Numerals without a minus sign -/

namespace Numeral

/-- The numerals of the number `n`: one or more decimal digits, with or without a plus sign. -/
def Spells (s : String) (n : Nat) : Prop :=
  ∃ sign digits, s.toList = sign ++ digits ∧ (sign = [] ∨ sign = ['+']) ∧ digits ≠ [] ∧
    (∀ c ∈ digits, c.isDigit = true) ∧ Nat.ofDigitChars 10 digits 0 = n

/-- What follows the plus sign, if there is one. -/
def unsigned : List Char → List Char
  | '+' :: cs => cs
  | cs => cs

/-- Why a text is no numeral of a number up to `limit`. It is read from the left: what counts is the
first character that is no digit, or that leads beyond the limit. -/
inductive Unreadable (limit : Nat) (s : String) : Fault → Prop where
  | empty : s = "" → Unreadable limit s .empty
  | loneSign : s = "+" → Unreadable limit s .invalidDigit
  | invalidDigit {digits rest : List Char} {c : Char} : unsigned s.toList = digits ++ c :: rest →
      (∀ d ∈ digits, d.isDigit = true) → Nat.ofDigitChars 10 digits 0 ≤ limit →
      c.isDigit = false → Unreadable limit s .invalidDigit
  | tooLarge {digits rest : List Char} : unsigned s.toList = digits ++ rest →
      (∀ d ∈ digits, d.isDigit = true) → limit < Nat.ofDigitChars 10 digits 0 →
      Unreadable limit s .tooLarge

/-! ### Digits -/

theorem digit?_of_isDigit {c : Char} (digit : c.isDigit = true) :
    digit? c = some (c.toNat - '0'.toNat) :=
  if_pos (Char.isDigit_iff_toNat.1 digit)

theorem digit?_of_not_isDigit {c : Char} (other : c.isDigit = false) : digit? c = none := by
  cases read : digit? c with
  | none => rfl
  | some d => cases other.symm.trans (isDigit_of_digit? read)

theorem digits?_eq_some_iff {cs : List Char} {value n : Nat} :
    digits? cs value = some n ↔
      (∀ c ∈ cs, c.isDigit = true) ∧ Nat.ofDigitChars 10 cs value = n := by
  induction cs generalizing value with
  | nil => simp
  | cons c cs ih =>
    rw [digits?_cons, List.forall_mem_cons, Nat.ofDigitChars_cons, Nat.mul_comm]
    cases digit : c.isDigit with
    | false => simp [digit?_of_not_isDigit digit]
    | true => simpa [digit?_of_isDigit digit] using ih

theorem le_ofDigitChars (cs : List Char) (value : Nat) : value ≤ Nat.ofDigitChars 10 cs value := by
  induction cs generalizing value with
  | nil => exact Nat.le_refl value
  | cons c cs ih =>
    have := ih (10 * value + (c.toNat - '0'.toNat))
    rw [Nat.ofDigitChars_cons]
    omega

section

variable {limit value : Nat} {excess fault : Fault}

theorem readDigits_other {c : Char} (other : c.isDigit = false) (rest : List Char) :
    readDigits limit excess (c :: rest) value = .error .invalidDigit := by
  rw [readDigits, digit?_of_not_isDigit other]

theorem readDigits_digit {c : Char} (digit : c.isDigit = true) (rest : List Char) :
    readDigits limit excess (c :: rest) value =
      if Nat.ofDigitChars 10 [c] value ≤ limit then
        readDigits limit excess rest (Nat.ofDigitChars 10 [c] value)
      else .error excess := by
  rw [readDigits, digit?_of_isDigit digit, Nat.ofDigitChars_cons, Nat.ofDigitChars_nil,
    Nat.mul_comm 10]

/-- Digits are read until one leads beyond the limit. -/
theorem readDigits_append {digits : List Char} (digit : ∀ c ∈ digits, c.isDigit = true)
    (within : value ≤ limit) (rest : List Char) :
    readDigits limit excess (digits ++ rest) value =
      if Nat.ofDigitChars 10 digits value ≤ limit then
        readDigits limit excess rest (Nat.ofDigitChars 10 digits value)
      else .error excess := by
  induction digits generalizing value with
  | nil => simp [within]
  | cons c cs ih =>
    obtain ⟨first, others⟩ := List.forall_mem_cons.1 digit
    rw [List.cons_append, readDigits_digit first, ← List.singleton_append (l := cs),
      Nat.ofDigitChars_append]
    by_cases fits : Nat.ofDigitChars 10 [c] value ≤ limit
    · rw [if_pos fits, ih others fits]
    · have := le_ofDigitChars cs (Nat.ofDigitChars 10 [c] value)
      rw [if_neg fits, if_neg (by omega)]

/-- Reading stops at a character that is no digit, or at a digit that leads beyond the limit. -/
theorem readDigits_eq_error_iff {cs : List Char} (within : value ≤ limit) :
    readDigits limit excess cs value = .error fault ↔
      (fault = .invalidDigit ∧ ∃ digits c rest, cs = digits ++ c :: rest ∧
        (∀ d ∈ digits, d.isDigit = true) ∧ Nat.ofDigitChars 10 digits value ≤ limit ∧
        c.isDigit = false) ∨
      fault = excess ∧ ∃ digits rest, cs = digits ++ rest ∧
        (∀ d ∈ digits, d.isDigit = true) ∧ limit < Nat.ofDigitChars 10 digits value := by
  constructor
  · -- the digits before the first other character may already lead beyond the limit
    intro fails
    rcases all_or_first (fun c : Char => c.isDigit = true) cs with
      all | ⟨digits, c, rest, rfl, before, noDigit⟩
    · rw [← List.append_nil cs, readDigits_append all within] at fails
      split at fails
      next => cases fails
      next beyond =>
        cases fails
        exact .inr ⟨rfl, cs, [], (List.append_nil cs).symm, all, Nat.lt_of_not_le beyond⟩
    · rw [readDigits_append before within] at fails
      split at fails
      next fits =>
        have other := Bool.eq_false_iff.2 noDigit
        rw [readDigits_other other] at fails
        cases fails
        exact .inl ⟨rfl, digits, c, rest, rfl, before, fits, other⟩
      next beyond =>
        cases fails
        exact .inr ⟨rfl, digits, c :: rest, rfl, before, Nat.lt_of_not_le beyond⟩
  · rintro (⟨rfl, digits, c, rest, rfl, before, fits, other⟩ |
      ⟨rfl, digits, rest, rfl, before, beyond⟩)
    · rw [readDigits_append before within, if_pos fits, readDigits_other other]
    · rw [readDigits_append before within, if_neg (Nat.not_le.2 beyond)]

end

/-! ### Signs -/

theorem unsigned_cases (cs : List Char) : cs = '+' :: unsigned cs ∨ unsigned cs = cs := by
  rw [unsigned.eq_def]
  split
  next => exact .inl rfl
  next => exact .inr rfl

theorem unsigned_eq_nil {s : String} (bare : unsigned s.toList = []) : s = "" ∨ s = "+" := by
  rcases unsigned_cases s.toList with plus | same
  · exact .inr (String.toList_inj.1 (by rw [plus, bare]; rfl))
  · exact .inl (String.toList_eq_nil_iff.1 (same ▸ bare))

theorem spells_iff {s : String} {n : Nat} :
    Spells s n ↔ unsigned s.toList ≠ [] ∧ (∀ c ∈ unsigned s.toList, c.isDigit = true) ∧
      Nat.ofDigitChars 10 (unsigned s.toList) 0 = n := by
  constructor
  · rintro ⟨sign, digits, chars, rfl | rfl, nonempty, digit, denotes⟩
    · rcases unsigned_cases s.toList with plus | same
      · -- a plus sign is no digit
        rw [chars, List.nil_append] at plus
        cases digit '+' (plus ▸ List.mem_cons_self)
      · rw [same, chars]
        exact ⟨nonempty, digit, denotes⟩
    · rw [chars]
      exact ⟨nonempty, digit, denotes⟩
  · rintro ⟨nonempty, digit, denotes⟩
    rcases unsigned_cases s.toList with plus | same
    · exact ⟨['+'], _, plus, .inr rfl, nonempty, digit, denotes⟩
    · exact ⟨[], _, same.symm, .inl rfl, nonempty, digit, denotes⟩

/-- From zero on, a minus sign is like any other character that is no digit. -/
theorem read_unsigned {limit : Nat} {s : String} (nonempty : unsigned s.toList ≠ []) :
    read 0 limit s = (readDigits limit .tooLarge (unsigned s.toList) 0).map Int.ofNat := by
  have minus : ∀ cs, readDigits limit .tooLarge ('-' :: cs) 0 = .error .invalidDigit :=
    readDigits_other rfl
  rw [read]
  generalize s.toList = cs at nonempty
  split
  next => cases nonempty rfl
  next => cases nonempty rfl
  next => rfl
  next => rfl
  next digits _ =>
    have same : unsigned ('-' :: digits) = '-' :: digits := rfl
    rw [if_neg (Int.lt_irrefl 0), same, minus]
    rfl
  next noPlus _ =>
    rcases unsigned_cases cs with plus | same
    · cases noPlus _ plus
    · rw [same]
      rfl

theorem map_eq_error_iff {ε α β : Type} {f : α → β} {x : Except ε α} {e : ε} :
    x.map f = .error e ↔ x = .error e := by
  cases x <;> simp [Except.map]

/-- A text is read as a number of a range that begins at zero if it is one of its numerals, and the
number lies within. -/
theorem read_unsigned_eq_ok_iff {limit : Nat} {s : String} {i : Int} :
    read 0 limit s = .ok i ↔ ∃ n : Nat, i = n ∧ Spells s n ∧ n ≤ limit := by
  by_cases bare : unsigned s.toList = []
  · have refused : read 0 limit s = .error .empty ∨ read 0 limit s = .error .invalidDigit := by
      rcases unsigned_eq_nil bare with rfl | rfl
      · exact .inl rfl
      · exact .inr rfl
    have spellsNone : ∀ n, ¬ Spells s n := fun n spells => (spells_iff.1 spells).1 bare
    rcases refused with same | same
    · simp [same, spellsNone]
    · simp [same, spellsNone]
  · rw [read_unsigned bare, map_eq_ok_iff]
    simp only [readDigits_eq_ok_iff (Nat.zero_le limit), digits?_eq_some_iff, spells_iff]
    constructor
    · rintro ⟨n, ⟨⟨digit, denotes⟩, le⟩, rfl⟩
      exact ⟨n, rfl, ⟨bare, digit, denotes⟩, le⟩
    · rintro ⟨n, rfl, ⟨-, digit, denotes⟩, le⟩
      exact ⟨n, ⟨⟨digit, denotes⟩, le⟩, rfl⟩

theorem Unreadable.of_bare {limit : Nat} {s : String} {fault : Fault}
    (unreadable : Unreadable limit s fault) (bare : unsigned s.toList = []) :
    (s = "" ∧ fault = .empty) ∨ (s = "+" ∧ fault = .invalidDigit) := by
  cases unreadable with
  | empty empty => exact .inl ⟨empty, rfl⟩
  | loneSign plus => exact .inr ⟨plus, rfl⟩
  | invalidDigit chars => simp [bare] at chars
  | tooLarge chars _ beyond =>
    obtain ⟨rfl, -⟩ := List.append_eq_nil_iff.1 (chars.symm.trans bare)
    cases beyond

/-- Any other text has a fault, which is the one that is reported. -/
theorem read_unsigned_eq_error_iff {limit : Nat} {s : String} {fault : Fault} :
    read 0 limit s = .error fault ↔ Unreadable limit s fault := by
  by_cases bare : unsigned s.toList = []
  · constructor
    · intro fails
      rcases unsigned_eq_nil bare with rfl | rfl
      · cases fails
        exact .empty rfl
      · cases fails
        exact .loneSign rfl
    · intro unreadable
      rcases unreadable.of_bare bare with ⟨rfl, rfl⟩ | ⟨rfl, rfl⟩
      · rfl
      · rfl
  · rw [read_unsigned bare, map_eq_error_iff, readDigits_eq_error_iff (Nat.zero_le limit)]
    constructor
    · rintro (⟨rfl, digits, c, rest, chars, digit, within, other⟩ |
        ⟨rfl, digits, rest, chars, digit, beyond⟩)
      · exact .invalidDigit chars digit within other
      · exact .tooLarge chars digit beyond
    · intro unreadable
      cases unreadable with
      | empty empty => exact absurd (by rw [empty]; rfl) bare
      | loneSign plus => exact absurd (by rw [plus]; rfl) bare
      | invalidDigit chars digit within other =>
        exact .inl ⟨rfl, _, _, _, chars, digit, within, other⟩
      | tooLarge chars digit beyond => exact .inr ⟨rfl, _, _, chars, digit, beyond⟩

end Numeral

/-! ## Variables -/

namespace Settings.Variable

/-- How many numbers the field of a variable can hold, from zero on. -/
def size : Variable → Nat
  | .maxConflictAttempts | .lockBuckets => UInt32.size
  | .lockTimeout | .lockPollInterval | .maxParallelism => UInt64.size

theorem size_eq (v : Variable) : v.size = v.greatest + 1 := by
  cases v <;> rfl

theorem size_sub_one (v : Variable) : v.size - 1 = v.greatest := by
  rw [size_eq, Nat.add_sub_cancel]

/-- The texts by which a variable has the value `n`: between blanks, a numeral of a positive number
that its field holds. -/
structure Admits (v : Variable) (raw : String) (n : Nat) : Prop where
  spelled : ∃ t, Text.Trimmed raw t ∧ Numeral.Spells t n
  positive : 1 ≤ n
  fits : n < v.size

/-- The texts that a variable does not admit, each with the reason that is reported. -/
inductive Refuses (v : Variable) (raw : String) : String → Prop where
  | zero {t : String} : Text.Trimmed raw t → Numeral.Spells t 0 →
      Refuses v raw "must be greater than zero"
  | unreadable {t : String} {fault : Numeral.Fault} : Text.Trimmed raw t →
      Numeral.Unreadable (v.size - 1) t fault →
      Refuses v raw ("'" ++ raw ++ "': " ++ fault.message)

variable {v : Variable} {raw : String}

theorem admits_or_refuses (v : Variable) (raw : String) :
    (∃ n, v.Admits raw n) ∨ ∃ reason, v.Refuses raw reason := by
  have trimmed := Text.trimmed_trim raw
  cases read : Numeral.read 0 v.greatest (Text.trim raw) with
  | error fault =>
    have unreadable := Numeral.read_unsigned_eq_error_iff.1 read
    rw [← size_sub_one] at unreadable
    exact .inr ⟨_, .unreadable trimmed unreadable⟩
  | ok i =>
    obtain ⟨n, -, spells, fits⟩ := Numeral.read_unsigned_eq_ok_iff.1 read
    rcases Nat.eq_zero_or_pos n with rfl | positive
    · exact .inr ⟨_, .zero trimmed spells⟩
    · exact .inl ⟨n, ⟨_, trimmed, spells⟩, positive, v.size_eq ▸ Nat.lt_succ_of_le fits⟩

theorem read_of_admits {n : Nat} (admits : v.Admits raw n) : v.read raw = .ok n := by
  obtain ⟨⟨t, trimmed, spells⟩, positive, fits⟩ := admits
  rw [size_eq, Nat.lt_succ_iff] at fits
  have read := Numeral.read_unsigned_eq_ok_iff.2 ⟨n, rfl, spells, fits⟩
  have nonzero : n ≠ 0 := Nat.ne_of_gt positive
  simp [Variable.read, Text.trim_eq_iff.2 trimmed, read, nonzero]

theorem read_of_refuses {reason : String} (refuses : v.Refuses raw reason) :
    v.read raw = .error (.invalidSetting v.name reason) := by
  cases refuses with
  | zero trimmed spells =>
    have read := Numeral.read_unsigned_eq_ok_iff.2 ⟨0, rfl, spells, Nat.zero_le v.greatest⟩
    simp [Variable.read, Text.trim_eq_iff.2 trimmed, read]
  | unreadable trimmed fault =>
    rw [size_sub_one] at fault
    have read := Numeral.read_unsigned_eq_error_iff.2 fault
    simp [Variable.read, Text.trim_eq_iff.2 trimmed, read]

theorem read_eq_ok_iff {n : Nat} : v.read raw = .ok n ↔ v.Admits raw n := by
  constructor
  · intro read
    rcases v.admits_or_refuses raw with ⟨m, admits⟩ | ⟨reason, refuses⟩
    · cases read.symm.trans (read_of_admits admits)
      exact admits
    · cases read.symm.trans (read_of_refuses refuses)
  · exact read_of_admits

theorem read_eq_error_iff {e : ConfigError} :
    v.read raw = .error e ↔ ∃ reason, v.Refuses raw reason ∧ e = .invalidSetting v.name reason := by
  constructor
  · intro fails
    rcases v.admits_or_refuses raw with ⟨n, admits⟩ | ⟨reason, refuses⟩
    · cases fails.symm.trans (read_of_admits admits)
    · cases fails.symm.trans (read_of_refuses refuses)
      exact ⟨reason, refuses, rfl⟩
  · rintro ⟨reason, refuses, rfl⟩
    exact read_of_refuses refuses

/-- A text is refused exactly if it is not admitted. -/
theorem refuses_iff : (∃ reason, v.Refuses raw reason) ↔ ¬ ∃ n, v.Admits raw n := by
  constructor
  · rintro ⟨reason, refuses⟩ ⟨n, admits⟩
    cases (read_of_refuses refuses).symm.trans (read_of_admits admits)
  · exact (v.admits_or_refuses raw).resolve_left

end Settings.Variable

end Sagas
