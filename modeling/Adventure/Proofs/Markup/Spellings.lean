/-
Text as it may be written in markup.

A character stands for itself where it does not begin or end something, and otherwise, or
just as well, a reference stands for it: one of five names, or its code point in decimal or
hexadecimal digits.  How a text is written is said here without looking at how references
are read; decoding then gives back the text, whichever way each of its characters was
written.  The induction is on the characters of the text: what is decoded first is always
the writing of the first character, because a reference ends with its semicolon.
-/
import Adventure.Markup.Reference
import Adventure.Text.Words
import Mathlib.Data.List.TakeWhile

namespace Adventure.Markup

/-! ### Numerals -/

/-- The digit for a value in a base, in either case. -/
def IsDigit (base value : Nat) (c : Char) : Prop :=
  value < base ∧ ("0123456789abcdef".toList[value]? = some c ∨
    "0123456789ABCDEF".toList[value]? = some c)

/-- Digits in a base, most significant first, for a number.  Zeros may stand in front. -/
inductive Numeral (base : Nat) : List Char → Nat → Prop
  | digit {value : Nat} {c : Char} (h : IsDigit base value c) : Numeral base [c] value
  | append {digits : List Char} {n value : Nat} {c : Char} (above : Numeral base digits n)
    (h : IsDigit base value c) : Numeral base (digits ++ [c]) (base * n + value)

/-- What holds of the digits in either case holds of every digit. -/
theorem of_isDigit {p : Nat → Char → Bool} {base value : Nat} {c : Char}
    (hall : (List.range base).all (fun v => "0123456789abcdef".toList[v]?.all (p v) &&
      "0123456789ABCDEF".toList[v]?.all (p v)) = true)
    (h : IsDigit base value c) : p value c = true := by
  have hvalue := List.all_eq_true.mp hall value (List.mem_range.mpr h.1)
  rw [Bool.and_eq_true] at hvalue
  obtain hc | hc := h.2
  · rw [hc] at hvalue
    exact hvalue.1
  · rw [hc] at hvalue
    exact hvalue.2

theorem hexDigit?_of_isDigit {value : Nat} {c : Char} (h : IsDigit 16 value c) :
    hexDigit? c = some value := by
  have hdigit := of_isDigit (p := fun v d => hexDigit? d == some v) (by decide) h
  simpa using hdigit

theorem decimal_of_isDigit {value : Nat} {c : Char} (h : IsDigit 10 value c) :
    c.isDigit = true ∧ c.toNat - '0'.toNat = value := by
  have hdigit := of_isDigit (p := fun v d => d.isDigit && d.toNat - '0'.toNat == v) (by decide) h
  rwa [Bool.and_eq_true, beq_iff_eq] at hdigit

theorem readHex?_append (above : Nat) (digits more : List Char) :
    readHex? above (digits ++ more) = (readHex? above digits).bind fun n => readHex? n more := by
  induction digits generalizing above with
  | nil => rfl
  | cons c digits ih =>
    simp only [List.cons_append, readHex?]
    cases hexDigit? c with
    | none => rfl
    | some value => exact ih (16 * above + value)

theorem Numeral.ne_nil {base n : Nat} {digits : List Char} (h : Numeral base digits n) :
    digits ≠ [] := by
  cases h with
  | digit => exact List.cons_ne_nil _ _
  | append => simp

theorem Numeral.readHex? {digits : List Char} {n : Nat} (h : Numeral 16 digits n) :
    Markup.readHex? 0 digits = some n := by
  induction h with
  | digit h => simp [Markup.readHex?, hexDigit?_of_isDigit h]
  | append _ h ih =>
    rw [readHex?_append, ih]
    simp [Markup.readHex?, hexDigit?_of_isDigit h]

theorem Numeral.isDigit {digits : List Char} {n : Nat} (h : Numeral 10 digits n) :
    ∀ c ∈ digits, c.isDigit = true := by
  induction h with
  | digit h => simpa using (decimal_of_isDigit h).1
  | append _ h ih =>
    intro c hc
    obtain hc | hc := List.mem_append.mp hc
    · exact ih c hc
    · exact List.mem_singleton.mp hc ▸ (decimal_of_isDigit h).1

theorem Numeral.ofDigits {digits : List Char} {n : Nat} (h : Numeral 10 digits n) :
    Decimal.ofDigits digits = n := by
  induction h with
  | digit h =>
    rw [Decimal.ofDigits, List.foldl_cons, List.foldl_nil, (decimal_of_isDigit h).2,
      Nat.mul_zero, Nat.zero_add]
  | append _ h ih =>
    rw [Decimal.ofDigits] at ih
    rw [Decimal.ofDigits, List.foldl_append, ih, List.foldl_cons, List.foldl_nil,
      (decimal_of_isDigit h).2]

theorem Numeral.readNat? {digits : List Char} {n : Nat} (h : Numeral 10 digits n) :
    Decimal.readNat? digits = some n := by
  have hdigits : digits.all Char.isDigit = true := List.all_eq_true.mpr h.isDigit
  rw [Decimal.readNat?, hdigits, List.isEmpty_eq_false_iff.mpr h.ne_nil, h.ofDigits]
  rfl

/-- What begins with none of these is read in decimal. -/
theorem readCode?_decimal {digits : List Char} (hlower : digits.head? ≠ some 'x')
    (hupper : digits.head? ≠ some 'X') (hplus : digits.head? ≠ some '+') :
    readCode? digits = Decimal.readNat? digits := by
  have hdrop : dropPlus digits = digits := by
    unfold dropPlus
    split
    · exact absurd rfl hplus
    · rfl
  unfold readCode?
  split
  · exact absurd rfl hlower
  · exact absurd rfl hupper
  · rw [hdrop]

theorem Numeral.head?_ne {digits : List Char} {n : Nat} {c : Char} (h : Numeral 10 digits n)
    (hc : c.isDigit = false) : digits.head? ≠ some c := by
  intro hhead
  rw [h.isDigit c (List.mem_of_head? hhead)] at hc
  cases hc

theorem Numeral.readCode?_decimal {digits : List Char} {n : Nat} (h : Numeral 10 digits n) :
    readCode? digits = some n := by
  rw [Markup.readCode?_decimal (h.head?_ne (by decide)) (h.head?_ne (by decide))
    (h.head?_ne (by decide)), h.readNat?]

theorem Numeral.dropPlus {digits : List Char} {n : Nat} (h : Numeral 16 digits n) :
    dropPlus digits = digits := by
  unfold Markup.dropPlus
  split
  · rename_i rest
    have hread := h.readHex?
    rw [Markup.readHex?, show hexDigit? '+' = none by decide] at hread
    cases hread
  · rfl

theorem Numeral.readCode?_hexadecimal {digits : List Char} {n : Nat} {x : Char}
    (h : Numeral 16 digits n) (hx : x = 'x' ∨ x = 'X') : readCode? (x :: digits) = some n := by
  have hempty := List.isEmpty_eq_false_iff.mpr h.ne_nil
  obtain rfl | rfl := hx
  · simp [readCode?, h.dropPlus, hempty, h.readHex?]
  · simp [readCode?, h.dropPlus, hempty, h.readHex?]

/-! ### Characters -/

/-- The characters that have a name. -/
def entities : List (String × Char) :=
  [("lt", '<'), ("gt", '>'), ("amp", '&'), ("quot", '"'), ("apos", '\'')]

/-- What may stand between the ampersand and the semicolon for a character. -/
inductive Reference (c : Char) : List Char → Prop
  | named {name : String} (h : (name, c) ∈ entities) : Reference c name.toList
  | decimal {digits : List Char} (h : Numeral 10 digits c.toNat) : Reference c ('#' :: digits)
  | hexadecimal {x : Char} {digits : List Char} (hx : x = 'x' ∨ x = 'X')
    (h : Numeral 16 digits c.toNat) : Reference c ('#' :: x :: digits)

/-- A text as it may be written, where some characters may stand for themselves. -/
inductive Spelled (literal : Char → Prop) : List Char → List Char → Prop
  | nil : Spelled literal [] []
  | itself {c : Char} {cs written : List Char} (h : literal c) (rest : Spelled literal cs written) :
    Spelled literal (c :: cs) (c :: written)
  | byReference {c : Char} {cs reference written : List Char} (h : Reference c reference)
    (rest : Spelled literal cs written) :
    Spelled literal (c :: cs) ('&' :: (reference ++ ';' :: written))

theorem charOfCode?_toNat (c : Char) : charOfCode? c.toNat = some c := by
  have hvalid : c.toNat.isValidChar := c.valid
  have haux : Char.ofNat c.toNat = Char.ofNatAux c.toNat hvalid := dif_pos hvalid
  rw [charOfCode?, dif_pos hvalid, ← haux, Char.ofNat_toNat]

theorem Reference.referenceChar? {c : Char} {reference : List Char} (h : Reference c reference) :
    Markup.referenceChar? reference = some c := by
  cases h with
  | named h =>
    have hall : ∀ e ∈ entities, Markup.referenceChar? e.1.toList = some e.2 := by decide
    exact hall _ h
  | decimal h => simp [Markup.referenceChar?, h.readCode?_decimal, charOfCode?_toNat]
  | hexadecimal hx h =>
    simp [Markup.referenceChar?, h.readCode?_hexadecimal hx, charOfCode?_toNat]

theorem not_mem_of_numeral {digits : List Char} {n : Nat} {c : Char} (h : Numeral 16 digits n)
    (hc : hexDigit? c = none) : c ∉ digits := by
  induction h with
  | digit h =>
    rintro hmem
    rw [List.mem_singleton.mp hmem, hexDigit?_of_isDigit h] at hc
    cases hc
  | append _ h ih =>
    intro hmem
    obtain hmem | hmem := List.mem_append.mp hmem
    · exact ih hmem
    · rw [List.mem_singleton.mp hmem, hexDigit?_of_isDigit h] at hc
      cases hc

/-- A reference is made of nothing but letters, digits and the number sign. -/
theorem Reference.not_mem {c d : Char} {reference : List Char} (h : Reference c reference)
    (hd : d = ';' ∨ d = '<' ∨ d = '"' ∨ d = '\'') : d ∉ reference := by
  cases h with
  | named h =>
    have hall : ∀ e ∈ entities, ';' ∉ e.1.toList ∧ '<' ∉ e.1.toList ∧ '"' ∉ e.1.toList ∧
        '\'' ∉ e.1.toList := by
      decide
    obtain ⟨hsemicolon, hbracket, hdouble, hsingle⟩ := hall _ h
    obtain rfl | rfl | rfl | rfl := hd
    · exact hsemicolon
    · exact hbracket
    · exact hdouble
    · exact hsingle
  | decimal h =>
    have hdigits : d ∉ _ := fun hmem => absurd (h.isDigit d hmem)
      (by obtain rfl | rfl | rfl | rfl := hd <;> decide)
    have hsign : d ≠ '#' := by obtain rfl | rfl | rfl | rfl := hd <;> decide
    simp [hsign, hdigits]
  | @hexadecimal x _ hx h =>
    have hdigits := not_mem_of_numeral h
      (show hexDigit? d = none by obtain rfl | rfl | rfl | rfl := hd <;> decide)
    have hsign : d ≠ '#' := by obtain rfl | rfl | rfl | rfl := hd <;> decide
    have hletter : d ≠ x := by
      rintro rfl
      obtain rfl | rfl | rfl | rfl := hd <;> exact absurd hx (by decide)
    simp [hsign, hletter, hdigits]

/-! ### Decoding -/

theorem decode_itself {c : Char} (h : c ≠ '&') (rest : List Char) :
    decode (c :: rest) = (decode rest).map (c :: ·) := by
  rw [decode, if_pos h]

theorem decode_reference {c : Char} {reference : List Char} (h : Reference c reference)
    (rest : List Char) :
    decode ('&' :: (reference ++ ';' :: rest)) = (decode rest).map (c :: ·) := by
  have hinside : ∀ d ∈ reference, decide (d ≠ ';') = true := by
    rintro d hd
    rw [decide_eq_true_eq]
    rintro rfl
    exact h.not_mem (.inl rfl) hd
  have htake : (reference ++ ';' :: rest).takeWhile (· ≠ ';') = reference := by
    rw [List.takeWhile_append_of_pos hinside]
    simp
  have hdrop : (reference ++ ';' :: rest).dropWhile (· ≠ ';') = ';' :: rest := by
    rw [List.dropWhile_append_of_pos hinside]
    simp
  rw [decode, if_neg (not_not_intro rfl)]
  split
  · rename_i hnone
    rw [hdrop] at hnone
    cases hnone
  · rename_i _ after hsome
    rw [hdrop, List.cons.injEq] at hsome
    obtain ⟨-, rfl⟩ := hsome
    dsimp only
    rw [htake, h.referenceChar?]

/-- **Decoding gives back what was written**, whichever way it was. -/
theorem Spelled.decode {literal : Char → Prop} {cs written : List Char}
    (h : Spelled literal cs written) (hliteral : ∀ c, literal c → c ≠ '&') :
    Markup.decode written = .ok cs := by
  induction h with
  | nil => rw [Markup.decode]
  | itself hc _ ih => rw [decode_itself (hliteral _ hc), ih, Except.map]
  | byReference hc _ ih => rw [decode_reference hc, ih, Except.map]

/-- What may not stand for itself stands nowhere in the writing. -/
theorem Spelled.not_mem {literal : Char → Prop} {cs written : List Char} {d : Char}
    (h : Spelled literal cs written) (hd : d = '<' ∨ d = '"' ∨ d = '\'') (hliteral : ¬literal d) :
    d ∉ written := by
  induction h with
  | nil => exact List.not_mem_nil
  | @itself c _ _ hc _ ih =>
    have hne : d ≠ c := by
      rintro rfl
      exact hliteral hc
    simp [hne, ih]
  | byReference hc _ ih =>
    have hmark : d ≠ '&' := by obtain rfl | rfl | rfl := hd <;> decide
    have hend : d ≠ ';' := by obtain rfl | rfl | rfl := hd <;> decide
    simp [hmark, hend, ih, hc.not_mem (.inr hd)]

/-- The writing of a text that is not blank is not blank either. -/
theorem Spelled.not_blank {literal : Char → Prop} {cs written : List Char}
    (h : Spelled literal cs written) (hcs : cs.all Text.isBlank = false) :
    written.all Text.isBlank = false := by
  induction h with
  | nil => exact hcs
  | itself _ _ ih =>
    rw [List.all_cons, Bool.and_eq_false_iff] at hcs ⊢
    exact hcs.imp_right ih
  | byReference =>
    rw [List.all_cons, show Text.isBlank '&' = false by decide, Bool.false_and]

end Adventure.Markup
