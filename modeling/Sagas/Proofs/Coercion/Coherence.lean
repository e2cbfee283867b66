import Sagas.Proofs.Coercion.Identifier
import Sagas.Proofs.Coercion.Numeral
import Sagas.Scalar.Coerce

/-!
# Coercion is coherent

A value reaches a property through carriers: the text of a header, a word of another width. What it
is matched against there depends on the value alone. The text of a value converts as the value
itself does, so nothing is lost or gained by writing it; and a value that was read from a text
converts as the text does.

Results:
1. `Kind.read?_text`, `Scalar.coerce_text`: a text converts as the value it was written from.
2. `Kind.read?_of_coerceTo`: a value that was read converts as its text does.
3. `Scalar.canCoerce_iff`: a kind is allowed for another one if some value of it converts.
4. `Scalar.coerce_coherent`: texts are inverse to reading, words keep their number, and conversions
   compose.
-/

namespace Sagas

namespace Text

theorem dropWhile_eq_self {cs : List Char} (visible : ∀ c ∈ cs, isBlank c = false) :
    cs.dropWhile isBlank = cs := by
  cases cs with
  | nil => rfl
  | cons c cs => exact List.dropWhile_cons_of_neg (by simp [visible c List.mem_cons_self])

theorem trim_eq_self {s : String} (visible : ∀ c ∈ s.toList, isBlank c = false) : trim s = s := by
  have backwards : ∀ c ∈ s.toList.reverse, isBlank c = false :=
    fun c member => visible c (List.mem_reverse.1 member)
  rw [trim, trimChars, dropWhile_eq_self visible, dropWhile_eq_self backwards, List.reverse_reverse,
    String.ofList_toList]

theorem isBlank_of_isDigit {c : Char} (digit : c.isDigit = true) : isBlank c = false := by
  have range := Char.isDigit_iff_toNat.1 digit
  simp only [Char.reduceToNat] at range
  simp [isBlank, blankRanges]
  omega

theorem isBlank_hexChar {d : Nat} (small : d < 16) : isBlank (Uuid.hexChar d) = false := by
  have each : ∀ d : Fin 16, isBlank (Uuid.hexChar d) = false := by decide
  exact each ⟨d, small⟩

end Text

/-! ## Texts of values -/

namespace Scalar

/-- No text of a value but a text itself has blanks around it. -/
theorem trim_text {v : Scalar} (typed : v.kind ≠ .string) : Text.trim v.text = v.text := by
  refine Text.trim_eq_self ?_
  cases v with
  | bool b => cases b <;> simp [text, Text.isBlank, Text.blankRanges]
  | int w n =>
    intro c member
    rcases Word.mem_text member with rfl | digit
    · rfl
    · exact Text.isBlank_of_isDigit digit
  | uuid u =>
    intro c member
    rcases Uuid.mem_text member with rfl | ⟨d, small, rfl⟩
    · rfl
    · exact Text.isBlank_hexChar small
  | string s => exact absurd rfl typed

end Scalar

namespace Word

variable {w : Width}

theorem ofText?_bool (b : Bool) : ofText? w (Scalar.bool b).text = none := by
  cases w <;> cases b <;> decide

theorem ofText?_uuid (u : Uuid) : ofText? w u.text = none := by
  cases read : ofText? w u.text with
  | none => rfl
  | some a =>
    have digit := Numeral.isDigit_of_number? (ofText?_eq_some_iff.1 read) '-' u.hyphen_mem_tail_text
    cases digit

theorem ofText?_word {w' : Width} (n : Word w') : ofText? w n.text = ofInt? w n.val := by
  refine Option.ext fun a => ?_
  rw [ofText?_eq_some_iff, text, Numeral.number?_toString, ofInt?_eq_some_iff, Option.some.injEq,
    eq_comm]

end Word

theorem Uuid.ofText?_word {w : Width} (n : Word w) : Uuid.ofText? n.text = none :=
  Uuid.ofText?_eq_none_of_short (Nat.lt_of_le_of_lt n.length_text (by decide))
    (fun _ => Word.mem_text)
    (Numeral.isDigit_of_number? (Word.ofText?_eq_some_iff.1 n.ofText?_text))

namespace Kind

/-- A truth value is read from two texts only, which are no other value's text. -/
theorem readBool_eq_none {s : String} (noTrue : s ≠ "true") (noFalse : s ≠ "false") :
    read? .bool s = none := by
  simp [read?, noTrue, noFalse]

theorem readBool_word {w : Width} (n : Word w) : read? .bool n.text = none := by
  have read := n.ofText?_text
  refine readBool_eq_none ?_ ?_
  · intro same
    rw [same] at read
    cases read.symm.trans (Word.ofText?_bool true)
  · intro same
    rw [same] at read
    cases read.symm.trans (Word.ofText?_bool false)

theorem readBool_uuid (u : Uuid) : read? .bool u.text = none := by
  have hyphen := u.hyphen_mem_tail_text
  refine readBool_eq_none ?_ ?_
  · intro same
    rw [same] at hyphen
    revert hyphen
    decide
  · intro same
    rw [same] at hyphen
    revert hyphen
    decide

/-- The text of a value reads as another kind exactly as the value converts to it. -/
theorem read?_text {v : Scalar} (typed : v.kind ≠ .string) {k : Kind} (other : k ≠ .string) :
    k.read? v.text = v.coerceTo k := by
  cases v with
  | bool b =>
    cases k with
    | bool => cases b <;> rfl
    | int w => exact Word.ofText?_bool b
    | uuid => cases b <;> decide
    | string => exact absurd rfl other
  | int w n =>
    cases k with
    | bool =>
      rw [Scalar.text, readBool_word]
      rfl
    | int w' => exact Word.ofText?_word n
    | uuid =>
      rw [Scalar.text, read?, Uuid.ofText?_word]
      rfl
    | string => exact absurd rfl other
  | uuid u =>
    cases k with
    | bool =>
      rw [Scalar.text, readBool_uuid]
      rfl
    | int w =>
      rw [Scalar.text, read?, Word.ofText?_uuid]
      rfl
    | uuid =>
      rw [Scalar.text, read?, Uuid.ofText?_text]
      rfl
    | string => exact absurd rfl other
  | string s => exact absurd rfl typed

/-- A value that was read from a text converts to nothing that the text itself is not read as. -/
theorem read?_of_coerceTo {j k : Kind} (typed : j ≠ .string) (other : k ≠ .string) {s : String}
    {a : j.Carrier} (read : j.read? s = some a) {b : k.Carrier}
    (converted : (Scalar.of j a).coerceTo k = some b) : k.read? s = some b := by
  cases j with
  | bool =>
    cases k with
    | bool => exact converted ▸ read
    | string => exact absurd rfl other
    | _ => cases converted
  | int w =>
    cases k with
    | int w' =>
      rw [read?, Word.ofText?_eq_some_iff] at read ⊢
      rw [read, Word.ofInt?_eq_some_iff.1 converted]
    | string => exact absurd rfl other
    | _ => cases converted
  | uuid =>
    cases k with
    | uuid => exact converted ▸ read
    | string => exact absurd rfl other
    | _ => cases converted
  | string => exact absurd rfl typed

end Kind

/-! ## Conversions -/

namespace Scalar

theorem coerceTo_string (s : String) {k : Kind} (other : k ≠ .string) :
    (Scalar.string s).coerceTo k = k.read? (Text.trim s) := by
  cases k with
  | string => exact absurd rfl other
  | _ => rfl

/-- The text of a value converts as the value does. -/
theorem coerce_text (v : Scalar) {k : Kind} (other : k ≠ .string) :
    (Scalar.string v.text).coerce k = v.coerce k := by
  by_cases typed : v.kind = .string
  · cases v with
    | string s => rfl
    | _ => cases typed
  · rw [coerce, coerceTo_string _ other, trim_text typed, Kind.read?_text typed other, coerce]

theorem coerce_string (v : Scalar) : v.coerce .string = some (.string v.text) := by
  cases v <;> rfl

/-- Each value is read back from its own text. -/
theorem coerce_kind_text (v : Scalar) : (Scalar.string v.text).coerce v.kind = some v := by
  cases v with
  | string s => rfl
  | _ => rw [coerce_text _ (by simp), coerce_kind]

theorem text_injective {v v' : Scalar} (kind : v.kind = v'.kind) (text : v.text = v'.text) :
    v = v' := by
  have back := coerce_kind_text v
  rw [kind, text, coerce_kind_text v'] at back
  exact (Option.some.inj back).symm

theorem coerce_int {w : Width} (n : Word w) (target : Width) :
    (Scalar.int w n).coerce (.int target) = (Word.ofInt? target n.val).map (.int target) := rfl

/-- A carrier between a value and what it is matched as changes nothing. -/
theorem coerce_trans {v u x : Scalar} {j k : Kind} (other : k ≠ .string)
    (first : v.coerce j = some u) (second : u.coerce k = some x) : v.coerce k = some x := by
  by_cases written : j = .string
  · subst written
    rw [coerce_string] at first
    cases first
    exact coerce_text v other ▸ second
  · obtain ⟨a, read, rfl⟩ := Option.map_eq_some_iff.1 first
    obtain ⟨b, converted, rfl⟩ := Option.map_eq_some_iff.1 second
    have direct : v.coerceTo k = some b := by
      cases v with
      | string s =>
        rw [coerceTo_string s written] at read
        rw [coerceTo_string s other]
        exact Kind.read?_of_coerceTo written other read converted
      -- any other value is as good as its text
      | _ =>
        rw [← Kind.read?_text (by simp) written] at read
        rw [← Kind.read?_text (by simp) other]
        exact Kind.read?_of_coerceTo written other read converted
    rw [coerce, direct]
    rfl

theorem coerce_zero (w target : Width) :
    ((Scalar.int w Word.zero).coerce (.int target)).isSome = true := by
  rw [coerce_int, Option.isSome_map, Word.ofInt?_isSome_iff]
  have := target.bound_pos
  simp only [Word.zero]
  omega

theorem canCoerce_of_coerce {v : Scalar} {k : Kind} (converts : (v.coerce k).isSome = true) :
    v.kind.canCoerce k = true := by
  cases v with
  | string s => simp [Kind.canCoerce]
  | bool b => cases k <;> first | rfl | cases converts
  | int w n =>
    cases k with
    | int target => simp [Kind.canCoerce, Kind.isInteger]
    | string => rfl
    | _ => cases converts
  | uuid u => cases k <;> first | rfl | cases converts

/-- A kind is allowed for another one exactly if some value of it converts. -/
theorem canCoerce_iff {source target : Kind} :
    source.canCoerce target = true ↔
      ∃ v : Scalar, v.kind = source ∧ (v.coerce target).isSome = true := by
  constructor
  · intro allowed
    cases source with
    | string =>
      have back := coerce_kind_text (of target target.unset)
      rw [kind_of] at back
      exact ⟨.string (of target target.unset).text, rfl, by rw [back]; rfl⟩
    | bool => exact ⟨.bool false, rfl, by cases target <;> first | rfl | cases allowed⟩
    | int w =>
      refine ⟨.int w Word.zero, rfl, ?_⟩
      cases target with
      | int target => exact coerce_zero w target
      | string => rfl
      | _ => cases allowed
    | uuid => exact ⟨.uuid .nil, rfl, by cases target <;> first | rfl | cases allowed⟩
  · rintro ⟨v, rfl, converts⟩
    exact canCoerce_of_coerce converts

/-- Writing a value and reading it as its own kind gives it back, so values of one kind that share a
text are the same. Between words the number is kept, and only its range is tested. And whatever a
value is converted to on the way, what it is converted to in the end depends on the value alone. -/
theorem coerce_coherent (v : Scalar) :
    v.coerce .string = some (.string v.text) ∧
    (Scalar.string v.text).coerce v.kind = some v ∧
    (∀ v' : Scalar, v'.kind = v.kind → v'.text = v.text → v' = v) ∧
    (∀ (w target : Width) (n : Word w), v = .int w n →
      ((v.coerce (.int target)).isSome ↔ -(target.bound : Int) ≤ n.val ∧ n.val < target.bound) ∧
      ∀ u, v.coerce (.int target) = some u → ∃ m, u = .int target m ∧ m.val = n.val) ∧
    ∀ (j k : Kind) (u x : Scalar), k ≠ .string → v.coerce j = some u → u.coerce k = some x →
      v.coerce k = some x := by
  refine ⟨coerce_string v, coerce_kind_text v, ?_, ?_, ?_⟩
  · intro v' kind text
    exact text_injective kind text
  · intro w target n int
    subst int
    rw [coerce_int]
    refine ⟨?_, ?_⟩
    · rw [Option.isSome_map]
      exact Word.ofInt?_isSome_iff
    · intro u converted
      obtain ⟨m, fits, rfl⟩ := Option.map_eq_some_iff.1 converted
      exact ⟨m, rfl, Word.ofInt?_eq_some_iff.1 fits⟩
  · intro j k u x other first second
    exact coerce_trans other first second

end Scalar

end Sagas
