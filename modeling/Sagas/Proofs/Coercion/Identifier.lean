import Mathlib.Algebra.Ring.Nat
import Sagas.Uuid

/-!
# Identifiers and their texts

The written form of an identifier is read as that identifier again. It has a hyphen behind its
eighth digit, where a numeral has none; and a numeral is too short for the form without hyphens.

Results:
1. `Uuid.ofText?_text`: the written form is read back.
2. `Uuid.hyphen_mem_tail_text`, `Uuid.mem_text`: the characters of the written form.
3. `Uuid.ofText?_eq_none_of_short`: no short text of signs and digits is an identifier.
-/

namespace Sagas.Uuid

/-! ## Digits -/

theorem hexDigit?_hexChar {d : Nat} (small : d < 16) : hexDigit? (hexChar d) = some d := by
  have each : ∀ d : Fin 16, hexDigit? (hexChar d) = some d.val := by decide
  exact each ⟨d, small⟩

theorem length_hexDigits (count n : Nat) : (hexDigits count n).length = count := by
  induction count generalizing n with
  | zero => rfl
  | succ count ih => simp [hexDigits, ih]

theorem mem_hexDigits {count n : Nat} {c : Char} (member : c ∈ hexDigits count n) :
    ∃ d < 16, c = hexChar d := by
  induction count generalizing n with
  | zero => simp [hexDigits] at member
  | succ count ih =>
    rcases List.mem_append.1 member with high | last
    · exact ih high
    · exact ⟨n % 16, Nat.mod_lt n (by decide), List.mem_singleton.1 last⟩

theorem readHex_append (cs ds : List Char) (value : Nat) :
    readHex (cs ++ ds) value = (readHex cs value).bind (readHex ds) := by
  induction cs generalizing value with
  | nil => rfl
  | cons c cs ih =>
    simp only [List.cons_append, readHex, Option.bind_assoc]
    congr 1
    funext d
    exact ih _

/-- The digits of a number that is not longer than them are read as that number. -/
theorem readHex_hexDigits {count n : Nat} (short : n < 16 ^ count) :
    readHex (hexDigits count n) 0 = some n := by
  induction count generalizing n with
  | zero =>
    obtain rfl : n = 0 := by simpa using short
    rfl
  | succ count ih =>
    have high : n / 16 < 16 ^ count := by
      rw [Nat.pow_succ] at short
      omega
    rw [hexDigits, readHex_append, ih high, Option.bind_some, readHex,
      hexDigit?_hexChar (Nat.mod_lt n (by decide)), Option.bind_some, readHex, Option.some.injEq]
    omega

theorem readHex_eq_none_of_hyphen {cs : List Char} (hyphen : '-' ∈ cs) (value : Nat) :
    readHex cs value = none := by
  induction cs generalizing value with
  | nil => cases hyphen
  | cons c cs ih =>
    rw [readHex]
    rcases List.mem_cons.1 hyphen with rfl | later
    · rfl
    · cases read : hexDigit? c with
      | none => rfl
      | some d => exact ih later _

/-! ## Groups -/

theorem hyphenate_cons (size next : Nat) (sizes : List Nat) (cs : List Char) :
    hyphenate (size :: next :: sizes) cs =
      cs.take size ++ '-' :: hyphenate (next :: sizes) (cs.drop size) := rfl

theorem unhyphenate?_append (next : Nat) (sizes : List Nat) (g rest : List Char) :
    unhyphenate? (g.length :: next :: sizes) (g ++ '-' :: rest) =
      (unhyphenate? (next :: sizes) rest).map (g ++ ·) := by
  simp [unhyphenate?]

theorem unhyphenate?_hyphenate {sizes : List Nat} (nonempty : sizes ≠ []) {cs : List Char}
    (length : cs.length = sizes.sum) : unhyphenate? sizes (hyphenate sizes cs) = some cs := by
  induction sizes generalizing cs with
  | nil => exact absurd rfl nonempty
  | cons size sizes ih =>
    cases sizes with
    | nil =>
      have whole : cs.length = size := by simpa using length
      exact if_pos whole
    | cons next sizes =>
      simp only [List.sum_cons] at length ih
      have first : (cs.take size).length = size := by
        rw [List.length_take]
        omega
      have rest : (cs.drop size).length = next + sizes.sum := by
        rw [List.length_drop]
        omega
      have others := ih (by simp) rest
      have undone := unhyphenate?_append next sizes (cs.take size)
        (hyphenate (next :: sizes) (cs.drop size))
      rw [first, others] at undone
      simpa [hyphenate_cons] using undone

theorem mem_hyphenate {sizes : List Nat} {cs : List Char} {c : Char}
    (member : c ∈ hyphenate sizes cs) : c = '-' ∨ c ∈ cs := by
  induction sizes generalizing cs with
  | nil => simp [hyphenate] at member
  | cons size sizes ih =>
    cases sizes with
    | nil => exact .inr member
    | cons next sizes =>
      rw [hyphenate_cons, List.mem_append, List.mem_cons] at member
      rcases member with first | rfl | later
      · exact .inr (List.mem_of_mem_take first)
      · exact .inl rfl
      · exact (ih later).imp_right List.mem_of_mem_drop

/-! ## Written forms -/

theorem toList_text (u : Uuid) : u.text.toList = hyphenate groups (hexDigits 32 u.val) :=
  String.toList_ofList

theorem mem_text {u : Uuid} {c : Char} (member : c ∈ u.text.toList) :
    c = '-' ∨ ∃ d < 16, c = hexChar d := by
  rw [toList_text] at member
  exact (mem_hyphenate member).imp_right mem_hexDigits

theorem hyphen_mem_tail_text (u : Uuid) : '-' ∈ u.text.toList.tail := by
  rw [toList_text]
  have first : (hexDigits 32 u.val).take 8 ≠ [] := by
    rw [← List.length_pos_iff, List.length_take, length_hexDigits]
    decide
  rw [groups, hyphenate_cons, List.tail_append_of_ne_nil first]
  simp

theorem ofText?_text (u : Uuid) : ofText? u.text = some u := by
  have hyphen := List.mem_of_mem_tail (hyphen_mem_tail_text u)
  have plain : ofDigits? u.text.toList = none := by
    simp [ofDigits?, readHex_eq_none_of_hyphen hyphen]
  have grouped : ofHyphenated? u.text.toList = some u := by
    rw [ofHyphenated?, toList_text,
      unhyphenate?_hyphenate (by simp [groups]) (length_hexDigits 32 u.val), Option.bind_some,
      ofDigits?, if_pos (length_hexDigits 32 u.val), readHex_hexDigits (by simpa using u.val_lt),
      Option.bind_some, ofNat?, dif_pos u.val_lt]
  simp [ofText?, plain, grouped]

/-! ## Texts that are no identifiers -/

theorem unhyphenate?_eq_none {size : Nat} {sizes : List Nat} {cs : List Char}
    (more : sizes ≠ []) (plain : ∀ c ∈ cs.drop size, c ≠ '-') :
    unhyphenate? (size :: sizes) cs = none := by
  cases sizes with
  | nil => exact absurd rfl more
  | cons next sizes =>
    cases rest : cs.drop size with
    | nil => simp [unhyphenate?, rest]
    | cons c after =>
      have : c ≠ '-' := plain c (by simp [rest])
      simp [unhyphenate?, rest, this]

theorem ofText?_eq_none_of_short {s : String} (short : s.toList.length < 32)
    (characters : ∀ c ∈ s.toList, c = '-' ∨ c.isDigit = true)
    (digits : ∀ c ∈ s.toList.tail, c.isDigit = true) : ofText? s = none := by
  have plain : ofDigits? s.toList = none := if_neg (by omega)
  have grouped : ofHyphenated? s.toList = none := by
    have noHyphen : ∀ c ∈ s.toList.drop 8, c ≠ '-' := by
      intro c member
      have tail : c ∈ s.toList.tail := by
        rw [← List.drop_one]
        exact List.mem_of_mem_drop (i := 7) (by simpa using member)
      rintro rfl
      cases digits '-' tail
    rw [ofHyphenated?, groups, unhyphenate?_eq_none (by simp) noHyphen, Option.bind_none]
  have braced : unbraced? s.toList = none := by
    cases shape : s.toList with
    | nil => rfl
    | cons c rest =>
      have : c ≠ '{' := by
        rintro rfl
        rcases characters '{' (by simp [shape]) with other | digit
        · cases other
        · cases digit
      simp [unbraced?, this]
  have urn : afterUrn? s.toList = none := by
    refine if_neg fun same => ?_
    have letter : 'u' ∈ (s.toList.take 9).map Char.toLower := by
      rw [same]
      decide
    obtain ⟨c, member, lower⟩ := List.mem_map.1 letter
    rcases characters c (List.mem_of_mem_take member) with rfl | digit
    · cases lower
    · have range := Char.isDigit_iff_toNat.1 digit
      have : c.toLower = c := by
        refine dif_neg fun upper => ?_
        have := UInt32.le_iff_toNat_le.1 upper.1
        simp at this range
        omega
      rw [this] at lower
      subst lower
      cases digit
  simp [ofText?, plain, grouped, braced, urn]

end Sagas.Uuid
