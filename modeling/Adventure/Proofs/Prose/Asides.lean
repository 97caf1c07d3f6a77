/-
Comments between words.

A comment is passed over where a token may begin, and nowhere else: behind a word the scanner
looks for more words of a term, and there it knows white space only.  So a comment within a
line is worth as much as a space, unless a term would reach over that space.  Where one would,
the words before the comment are read without those behind it.

The induction is on the tokens of the source with the comment.  Between two of them the scanner
is before the comment and before the space, or behind both; a term over the space is what parts
the two.
-/
import Adventure.Proofs.Prose.Extensions

namespace Adventure.Prose

open Text (Cursor)

/-- What a token says: its kind and its text. -/
def Token.said (t : Token) : TokenKind × String :=
  (t.kind, t.text)

variable {cs inside tail : List Char} {c d : Cursor} {ch : Char} {n : Nat} {p : Char → Bool}

/-! ### Rows before the end of a text -/

section Rows

variable {words words' : List String} {row row' rest rest' : List Char} {l : Lexicon}

/-- What stands in a row is no quote and no bracket. -/
theorem Row.plain (h : Row words row) : ∀ ch ∈ row, ch ≠ '"' ∧ ch ≠ '[' := by
  have hchar : ∀ {ch : Char}, isWordChar ch = true ∨ isSpace ch = true ∨ ch = '\n' →
      ch ≠ '"' ∧ ch ≠ '[' := by
    intro ch hch
    refine ⟨?_, ?_⟩ <;> rintro rfl <;> revert hch <;> decide
  induction h with
  | one hword => exact fun ch hch => hchar (.inl (hword.2 ch hch))
  | cons hword _ hgap _ ih =>
    intro ch hch
    rw [List.mem_append, List.mem_append] at hch
    rcases hch with (hch | hch) | hch
    · exact hchar (.inl (hword.2 ch hch))
    · exact hchar (.inr (hgap.chars ch hch))
    · exact ih ch hch

/-- Behind words in a row there is prose, if there is any at the end. -/
theorem Row.behind_prose {cs : List Char} (h : Row words row)
    (hplace : Place.prose.behind (row ++ cs) = .prose) : Place.prose.behind cs = .prose := by
  have hrow : Place.prose.behind row = .prose := by
    refine Place.behind_of_not_mem ?_ ?_
    · exact fun hmem => (h.plain _ hmem).1 rfl
    · exact fun hmem => (h.plain _ hmem).2 rfl
  rwa [behind_append, hrow] at hplace

/-- A row at the beginning of two texts together ends in the first or reaches into the other. -/
theorem append_eq_split {cs ds : List Char} (h : cs ++ ds = row ++ rest) :
    (∃ between, cs = row ++ between ∧ rest = between ++ ds) ∨
      ∃ ch more, row = cs ++ ch :: more ∧ ds = ch :: more ++ rest := by
  rcases List.append_eq_append_iff.mp h with ⟨reach, rfl, rfl⟩ | ⟨between, rfl, rfl⟩
  · cases reach with
    | nil => exact .inl ⟨[], by simp, by simp⟩
    | cons ch more => exact .inr ⟨ch, more, rfl, rfl⟩
  · exact .inl ⟨between, rfl, rfl⟩

/-- No row reaches over a bracket. -/
theorem Row.before_bracket {cs ds : List Char} (h : Row words row)
    (heq : cs ++ '[' :: ds = row ++ rest) :
    ∃ between, cs = row ++ between ∧ rest = between ++ '[' :: ds := by
  rcases append_eq_split heq with hwithin | ⟨ch, more, hrow, htail⟩
  · exact hwithin
  · obtain rfl := (List.cons.inj htail).1
    exact absurd rfl (h.plain '[' (by rw [hrow]; simp)).2

theorem EndsWord.of_append {cs ds : List Char} (h : EndsWord (cs ++ tail)) (hds : EndsWord ds) :
    EndsWord (cs ++ ds) := by
  cases cs with
  | nil => exact hds
  | cons ch cs => exact h

/-- A row that is a term is one whatever stands behind it. -/
theorem Opens.mem_termLengths (h : Opens words row rest) (h' : Opens words row rest')
    (hmem : words.length ∈ insert 1 (termLengths l n (row ++ rest))) :
    words.length ∈ insert 1 (termLengths l n (row ++ rest')) := by
  rcases hmem with hone | ⟨htwo, hle, words', row', rest'', heq, hopens, hlength, hterm⟩
  · exact .inl hone
  · obtain ⟨rfl, -⟩ := h.unique hopens heq hlength.symm
    exact .inr ⟨htwo, hle, words, row, rest', rfl, h', rfl, hterm⟩

/-- Where two texts go on differently, the longest terms are the same if neither reaches what
differs. -/
theorem longest_eq_of_within {between between' ds ds' : List Char} (h : Opens words row rest)
    (hgreatest : IsGreatest (insert 1 (termLengths l n (row ++ rest))) words.length)
    (h' : Opens words' row' rest')
    (hgreatest' : IsGreatest (insert 1 (termLengths l n (row' ++ rest'))) words'.length)
    (hrest : rest = between ++ ds) (hrest' : rest' = between' ++ ds')
    (heq : row ++ between = row' ++ between') (hds : EndsWord ds) (hds' : EndsWord ds') :
    words = words' ∧ row = row' ∧ between = between' := by
  subst hrest hrest'
  have hother : Opens words row (between ++ ds') := ⟨h.row, h.whole.of_append hds'⟩
  have hother' : Opens words' row' (between' ++ ds) := ⟨h'.row, h'.whole.of_append hds⟩
  have hsame : ∀ ds, row ++ (between ++ ds) = row' ++ (between' ++ ds) := by
    intro ds
    rw [← List.append_assoc, heq, List.append_assoc]
  have hle : words.length ≤ words'.length :=
    hgreatest'.2 (hsame ds' ▸ h.mem_termLengths hother hgreatest.1)
  have hge : words'.length ≤ words.length :=
    hgreatest.2 (hsame ds ▸ h'.mem_termLengths hother' hgreatest'.1)
  obtain ⟨rfl, rfl, hbetween⟩ := h.unique hother' (hsame ds) (Nat.le_antisymm hle hge)
  exact ⟨rfl, rfl, List.append_cancel_right hbetween⟩

/-- A row that reaches further has other words. -/
theorem Opens.ne_of_over {between ds more : List Char} (h : Opens words row (between ++ ds))
    (h' : Opens words' row' rest')
    (heq : row ++ (between ++ ds) = row' ++ rest') (hover : row' = row ++ between ++ ch :: more) :
    words' ≠ words := by
  rintro rfl
  obtain ⟨-, hrow, -⟩ := h.unique h' heq rfl
  rw [← hrow, List.append_assoc] at hover
  simpa using congrArg List.length hover

end Rows

namespace Scanner

variable {l : Lexicon} {m : Nat} {owed : Option Token}

/-! ### Terms over a place -/

/-- From here on some word or term begins before a place in the source and ends behind it.  The
place is the number of characters from there to the end. -/
inductive Straddles (l : Lexicon) (place : Nat) : Scanner → Prop
  | here {s t : Scanner} {c : Cursor} {token : Token} (howed : s.owed = none)
    (hidle : skipIdle s.cursor = .ok () c) (hscan : s.scan l = .ok token t)
    (hverbal : token.isVerbal = true) (hbefore : place < c.rest.length)
    (hbehind : t.cursor.rest.length < place) : Straddles l place s
  | later {s t : Scanner} {token : Token} (hscan : s.scan l = .ok token t)
    (h : Straddles l place t) : Straddles l place s

variable {s t : Scanner} {token : Token} {ts : List Token} {place : Nat}

theorem length_le_of_remaining (howed : s.owed = none) (h : t.remaining ≤ s.remaining) :
    t.cursor.rest.length ≤ s.cursor.rest.length := by
  simp only [remaining, howed] at h
  split at h <;> simp at h <;> omega

theorem skipIdle_of_scan (howed : s.owed = none) (h : s.scan l = .ok token t) :
    ∃ d, skipIdle s.cursor = .ok () d ∧ readToken { s with cursor := d } l = .ok token t := by
  cases hidle : skipIdle s.cursor with
  | error e d =>
    rw [scan, howed] at h
    simp only [hidle] at h
    cases h
  | ok _ d => exact ⟨d, rfl, by rwa [scan_of_idle howed hidle] at h⟩

/-- Behind a place nothing begins before it. -/
theorem not_straddles (h : ∀ d, skipIdle s.cursor = .ok () d → d.rest.length ≤ place) :
    ¬ s.Straddles l place := by
  intro hstraddles
  induction hstraddles with
  | here howed hidle hscan hverbal hbefore hbehind => exact absurd (h _ hidle) (by omega)
  | @later s t token hscan _ ih =>
    refine ih fun e he => ?_
    cases howed : s.owed with
    | some owed =>
      rw [scan_of_owed howed] at hscan
      obtain ⟨-, rfl⟩ := EStateM.Result.ok.inj hscan
      exact h e he
    | none =>
      obtain ⟨d, hidle, hread⟩ := skipIdle_of_scan howed hscan
      have hle : t.remaining ≤ remaining { s with cursor := d } := by
        rcases remaining_readToken (s := { s with cursor := d }) howed hread with hlt | ⟨-, hle⟩
        · exact Nat.le_of_lt hlt
        · exact hle
      exact (length_skipIdle_le he).trans
        ((length_le_of_remaining (s := { s with cursor := d }) howed hle).trans (h d hidle))

/-! ### Tokens compared -/

/-- What comes of a source compared with tokens: it is these tokens, unless some term reaches
over a place, and then it is something else. -/
def Agrees (l : Lexicon) (place : Nat) (s : Scanner) (ts : List Token) : Prop :=
  (s.Straddles l place ∧ (s.tokens l).map (·.map Token.said) ≠ .ok (ts.map Token.said)) ∨
    (¬ s.Straddles l place ∧ s.tokens l = .ok ts)

theorem map_cons_eq_ok {α : Type} {a : α} {r : Except Error (List α)} {us : List α}
    (h : r.map (a :: ·) = .ok us) : ∃ ts, r = .ok ts ∧ us = a :: ts := by
  cases r with
  | error e => cases h
  | ok ts => exact ⟨ts, rfl, (Except.ok.inj h).symm⟩

theorem map_said_cons (token : Token) (r : Except Error (List Token)) :
    (r.map (token :: ·)).map (·.map Token.said) =
      (r.map (·.map Token.said)).map (token.said :: ·) := by
  cases r <;> rfl

theorem tokens_of_error {e : Error} (h : s.scan l = .error e t) : s.tokens l = .error e := by
  rw [tokens]
  split
  · next hfail =>
    rw [h] at hfail
    cases hfail
    rfl
  · next hother =>
    rw [h] at hother
    cases hother

theorem tokens_ne_nil (s : Scanner) (l : Lexicon) : s.tokens l ≠ .ok [] := by
  intro h
  rw [tokens] at h
  split at h
  · cases h
  · split at h
    · cases h
    · obtain ⟨ts, -, hts⟩ := map_cons_eq_ok h
      cases hts

/-- The first token and the others. -/
theorem tokens_eq_cons {first : Token} (h : s.tokens l = .ok (first :: ts))
    (hscan : s.scan l = .ok token t) (hkind : token.kind ≠ .finish) :
    token = first ∧ t.tokens l = .ok ts := by
  rw [tokens_of_scan hscan hkind] at h
  obtain ⟨us, hus, heq⟩ := map_cons_eq_ok h
  obtain ⟨rfl, rfl⟩ := List.cons.inj heq
  exact ⟨rfl, hus⟩

theorem tokens_congr {s' : Scanner} (h : s.scan l = s'.scan l) : s.tokens l = s'.tokens l := by
  cases hscan : s'.scan l with
  | error e t => rw [tokens_of_error hscan, tokens_of_error (h.trans hscan)]
  | ok token t =>
    by_cases hkind : token.kind = .finish
    · rw [tokens_of_finish hscan hkind, tokens_of_finish (h.trans hscan) hkind]
    · rw [tokens_of_scan hscan hkind, tokens_of_scan (h.trans hscan) hkind]

theorem scan_congr (h : skipIdle c = skipIdle d) :
    scan l ⟨c, m, none⟩ = scan l ⟨d, m, none⟩ := by
  simp only [scan, h]

/-- One token before the others. -/
theorem Agrees.step (hscan : s.scan l = .ok token t) (hkind : token.kind ≠ .finish)
    (hhere : token.isVerbal = true → place ≤ t.cursor.rest.length) (h : Agrees l place t ts) :
    Agrees l place s (token :: ts) := by
  rw [Agrees, tokens_of_scan hscan hkind]
  rcases h with ⟨hstraddles, hne⟩ | ⟨hstraddles, heq⟩
  · refine .inl ⟨.later hscan hstraddles, fun heq => hne ?_⟩
    rw [map_said_cons] at heq
    obtain ⟨us, hus, heq⟩ := map_cons_eq_ok heq
    rw [hus, (List.cons.inj heq).2]
  · refine .inr ⟨?_, by rw [heq]; rfl⟩
    rintro (⟨-, -, hscan', hverbal, -, hbehind⟩ | ⟨hscan', hlater⟩)
    · obtain ⟨rfl, rfl⟩ := EStateM.Result.ok.inj (hscan.symm.trans hscan')
      exact absurd (hhere hverbal) (Nat.not_le_of_lt hbehind)
    · obtain ⟨-, rfl⟩ := EStateM.Result.ok.inj (hscan.symm.trans hscan')
      exact hstraddles hlater

/-- A term over the place is another token. -/
theorem Agrees.here {first : Token} (howed : s.owed = none) (hidle : skipIdle s.cursor = .ok () c)
    (hscan : s.scan l = .ok token t) (hkind : token.kind ≠ .finish)
    (hverbal : token.isVerbal = true) (hbefore : place < c.rest.length)
    (hbehind : t.cursor.rest.length < place) (hother : token.text ≠ first.text) :
    Agrees l place s (first :: ts) := by
  refine .inl ⟨.here howed hidle hscan hverbal hbefore hbehind, fun heq => ?_⟩
  rw [tokens_of_scan hscan hkind, map_said_cons] at heq
  obtain ⟨us, -, heq⟩ := map_cons_eq_ok heq
  exact hother (congrArg Prod.snd (List.cons.inj heq).1).symm

/-! ### At the comment, or at the space -/

variable {q : List Char} {line : Nat}

theorem skipIdle_of_space {cs : List Char} (hrest : c.rest = ch :: cs) (h : isSpace ch = true) :
    skipIdle c = skipIdle ⟨cs, c.line⟩ := by
  have hbreak : ch ≠ '\n' := by
    rintro rfl
    exact absurd h (by decide)
  rw [skipIdle_cons hrest, if_pos (by rw [isGap, h, Bool.true_or]), Cursor.skip, hrest]
  simp [hbreak]

theorem skipWhile_of_not {cs : List Char} (hrest : c.rest = ch :: cs) (h : p ch = false) :
    c.skipWhile p = c := by
  have hrun : c.run p = [] := by simp [Cursor.run, hrest, h]
  simp [Cursor.skipWhile, hrun, Cursor.skip]

theorem skipWhile_of_space {cs : List Char} (hrest : c.rest = ch :: cs) (h : isSpace ch = true) :
    c.skipWhile Text.isBlank = (⟨cs, c.line⟩ : Cursor).skipWhile Text.isBlank := by
  have hbreak : ch ≠ '\n' := by
    rintro rfl
    exact absurd h (by decide)
  simp [Cursor.skipWhile, Cursor.run, Cursor.skip, hrest, isBlank_of_isSpace h, hbreak]

/-- A blank character that is none of the white space of prose is at fault. -/
theorem scan_of_odd_blank {cs : List Char} (hrest : c.rest = ch :: cs)
    (hblank : Text.isBlank ch = true) (hspace : isSpace ch = false) (hbreak : ch ≠ '\n') :
    ∃ e t, scan l ⟨c, m, none⟩ = .error e t := by
  have hother : ∀ d, Text.isBlank d = false → ch ≠ d := by
    rintro d hd rfl
    rw [hblank] at hd
    cases hd
  have hidle : skipIdle c = .ok () c := by
    rw [skipIdle_cons hrest, if_neg (by simp [isGap, hspace, hbreak]),
      if_neg (hother '[' (by decide))]
  have hmark : TokenKind.ofMark? ch = none := by
    unfold TokenKind.ofMark?
    split
    · exact absurd rfl (hother ',' (by decide))
    · exact absurd rfl (hother ':' (by decide))
    · exact absurd rfl (hother ';' (by decide))
    · rfl
  have hword : isWordChar ch = false := by
    rw [← Bool.not_eq_true]
    intro hword
    rw [not_isBlank_of_isWordChar hword] at hblank
    cases hblank
  rw [scan_of_idle (s := ⟨c, m, none⟩) rfl hidle]
  exact ⟨_, _, readToken_illegal hrest hmark
    ⟨hother '.' (by decide), hbreak, hother '"' (by decide)⟩ hword⟩

/-- Where the line is not blank, passing over what is blank changes nothing of what is scanned,
unless that is at fault. -/
theorem scan_skipBlank (l : Lexicon) (m line : Nat) (hq : blankLineAhead q = false) :
    scan l ⟨(⟨q, line⟩ : Cursor).skipWhile Text.isBlank, m, none⟩ = scan l ⟨⟨q, line⟩, m, none⟩ ∨
      ∃ e t, scan l ⟨⟨q, line⟩, m, none⟩ = .error e t := by
  induction q with
  | nil => exact .inl rfl
  | cons ch q ih =>
    cases hspace : isSpace ch with
    | true =>
      rw [blankLineAhead, List.dropWhile_cons, hspace, if_pos rfl] at hq
      have hidle : skipIdle ⟨ch :: q, line⟩ = skipIdle ⟨q, line⟩ := skipIdle_of_space rfl hspace
      rw [skipWhile_of_space rfl hspace, scan_congr hidle]
      exact ih hq
    | false =>
      have hbreak : ch ≠ '\n' := by
        rintro rfl
        simp [blankLineAhead, hspace] at hq
      cases hblank : Text.isBlank ch with
      | true => exact .inr (scan_of_odd_blank rfl hblank hspace hbreak)
      | false =>
        rw [skipWhile_of_not rfl hblank]
        exact .inl rfl

/-- A comment and a space lead to the same. -/
theorem scan_comment (l : Lexicon) (m line : Nat) (hend : ']' ∉ inside) (hline : '\n' ∉ inside)
    (q : List Char) : scan l ⟨⟨'[' :: (inside ++ ']' :: q), line⟩, m, none⟩ =
      scan l ⟨⟨' ' :: q, line⟩, m, none⟩ := by
  refine scan_congr ?_
  rw [skipIdle_comment rfl hend, skipIdle_of_space (c := ⟨' ' :: q, line⟩) rfl (by decide),
    List.count_eq_zero.mpr hline]
  rfl

/-- Where the scanner comes out of the text at the comment, or at the space. -/
theorem agrees_out (hend : ']' ∉ inside) (hline : '\n' ∉ inside)
    (hc : skipIdle c = skipIdle ⟨'[' :: (inside ++ ']' :: q), line⟩)
    (hd : skipIdle d = skipIdle ⟨' ' :: q, line⟩)
    (h : tokens l ⟨c, m, none⟩ = .ok ts) : Agrees l (q.length + 1) ⟨d, m, none⟩ ts := by
  refine .inr ⟨not_straddles fun e hidle => ?_, h ▸ tokens_congr ?_⟩
  · rw [hd] at hidle
    exact length_skipIdle_le hidle
  · rw [scan_congr hd, scan_congr hc, scan_comment l m line hend hline]

/-- Where the scanner comes over the end of the text to the comment, or over the space. -/
theorem agrees_over (hend : ']' ∉ inside) (hline : '\n' ∉ inside) (hq : blankLineAhead q = false)
    (howed : ∀ token, owed = some token → token.kind = .stop)
    (h : tokens l ⟨(⟨'[' :: (inside ++ ']' :: q), line⟩ : Cursor).skipWhile Text.isBlank, m, owed⟩ =
      .ok ts) :
    Agrees l (q.length + 1) ⟨(⟨' ' :: q, line⟩ : Cursor).skipWhile Text.isBlank, m, owed⟩ ts := by
  rw [skipWhile_of_not rfl (by decide)] at h
  have hnone : ∀ {ts}, tokens l ⟨⟨'[' :: (inside ++ ']' :: q), line⟩, m, none⟩ = .ok ts →
      Agrees l (q.length + 1) ⟨(⟨' ' :: q, line⟩ : Cursor).skipWhile Text.isBlank, m, none⟩ ts := by
    intro ts h
    rw [tokens_congr (scan_comment l m line hend hline q)] at h
    have hbefore : blankLineAhead (' ' :: q) = false := hq
    rcases scan_skipBlank l m line hbefore with hsame | ⟨e, t, hfault⟩
    · refine .inr ⟨not_straddles fun e hidle => ?_, h ▸ tokens_congr hsame⟩
      exact (length_skipIdle_le hidle).trans (Cursor.length_skipWhile_le ⟨' ' :: q, line⟩ _)
    · rw [tokens_of_error hfault] at h
      cases h
  cases howed' : owed with
  | none =>
    rw [howed'] at h
    exact hnone h
  | some stop =>
    obtain ⟨hkind, hverbal⟩ := Token.not_verbal_of_stop (howed stop howed')
    rw [howed'] at h
    cases ts with
    | nil => exact absurd h (tokens_ne_nil _ _)
    | cons first ts =>
      obtain ⟨rfl, hrest⟩ := tokens_eq_cons h (scan_of_owed rfl) hkind
      exact .step (scan_of_owed rfl) hkind (fun h => absurd h (by simp [hverbal])) (hnone hrest)

/-! ### Before the comment, or before the space -/

/-- **Words before the comment**: before the space the same words are read, or a term over it. -/
theorem agrees_word (hplace : Place.prose.behind d.rest = .prose) (hbegins : BeginsWord d.rest)
    {c' : Cursor} (hc : skipIdle c = .ok () (extended ('[' :: (inside ++ ']' :: q)) d))
    (hc' : skipIdle c' = .ok () (extended (' ' :: q) d)) {first : Token}
    (h : tokens l ⟨c, m, none⟩ = .ok (first :: ts))
    (ih : ∀ e, Place.prose.behind e.rest = .prose →
      tokens l ⟨extended ('[' :: (inside ++ ']' :: q)) e, m, none⟩ = .ok ts →
      Agrees l (q.length + 1) ⟨extended (' ' :: q) e, m, none⟩ ts) :
    Agrees l (q.length + 1) ⟨c', m, none⟩ (first :: ts) := by
  have hends : EndsWord ('[' :: (inside ++ ']' :: q)) := by
    rintro ch hch
    obtain rfl := Option.some.inj hch
    decide
  have hends' : EndsWord (' ' :: q) := by
    rintro ch hch
    obtain rfl := Option.some.inj hch
    decide
  have hwords : ∀ tail, BeginsWord (extended tail d).rest := by
    obtain ⟨ch, cs, hrest, hch⟩ := hbegins
    exact fun tail => ⟨ch, cs ++ tail, by rw [extended, hrest, List.cons_append], hch⟩
  have hkind : ∀ words line, (Token.ofWords words line).kind ≠ .finish :=
    fun words line => TokenKind.ofWord_ne_finish _
  obtain ⟨words, row, rest, hsplit, hopens, hgreatest, hscan⟩ :=
    scan_longest (s := ⟨c, m, none⟩) l rfl hc (hwords _)
  obtain ⟨words', row', rest', hsplit', hopens', hgreatest', hscan'⟩ :=
    scan_longest (s := ⟨c', m, none⟩) l rfl hc' (hwords _)
  obtain ⟨rfl, htokens⟩ := tokens_eq_cons h hscan (hkind _ _)
  obtain ⟨between, hbetween, hrest⟩ := hopens.row.before_bracket hsplit
  rcases append_eq_split hsplit' with ⟨between', hbetween', hrest'⟩ | ⟨ch, more, hrow, htail⟩
  · obtain ⟨rfl, rfl, rfl⟩ := longest_eq_of_within hopens (hsplit ▸ hgreatest) hopens'
      (hsplit' ▸ hgreatest') hrest hrest' (hbetween.symm.trans hbetween') hends hends'
    subst hrest hrest'
    refine .step hscan' (hkind _ _) (fun _ => ?_)
      (ih ⟨between, d.line + row.count '\n'⟩ (hopens.row.behind_prose (hbetween ▸ hplace)) htokens)
    simp
  · have hspaced : Opens words row (between ++ ' ' :: q) :=
      ⟨hopens.row, (hrest ▸ hopens.whole).of_append hends'⟩
    have hne : words' ≠ words := by
      refine hspaced.ne_of_over hopens' ?_ (hbetween ▸ hrow)
      rw [← List.append_assoc, ← hbetween]
      exact hsplit'
    have hlength : rest'.length < q.length + 1 := by
      have := congrArg List.length htail
      simp only [List.length_cons, List.length_append] at this
      omega
    have hpos : 0 < d.rest.length := by
      obtain ⟨ch, cs, hcs, -⟩ := hbegins
      rw [hcs]
      exact Nat.succ_pos _
    refine .here rfl hc' hscan' (hkind _ _) (Token.isVerbal_ofWord rfl) ?_ hlength fun htext => hne ?_
    · simp only [extended, List.length_append, List.length_cons]
      omega
    · rw [← words_ofWords hopens'.row.isPlain, htext, words_ofWords hopens.row.isPlain]

/-- **A space in the place of a comment** gives the same tokens, or else a term reaches over it. -/
theorem agrees_spaced (hend : ']' ∉ inside) (hline : '\n' ∉ inside) (hq : blankLineAhead q = false)
    (howed : ∀ token, owed = some token → token.kind = .stop)
    (hplace : Place.prose.behind c.rest = .prose)
    (h : tokens l ⟨extended ('[' :: (inside ++ ']' :: q)) c, m, owed⟩ = .ok ts) :
    Agrees l (q.length + 1) ⟨extended (' ' :: q) c, m, owed⟩ ts := by
  have hcomment : blankLineAhead ('[' :: (inside ++ ']' :: q)) = false := by
    simp [blankLineAhead, isSpace]
  have hspace : blankLineAhead (' ' :: q) = false := hq
  induction ts generalizing c owed with
  | nil => exact absurd h (tokens_ne_nil _ _)
  | cons first ts ih =>
    cases course_scan l m howed hplace with
    | word d hnone hbegins hbehind hidle =>
      subst hnone
      refine agrees_word hbehind hbegins (hidle _ hcomment) (hidle _ hspace) h fun e => ih ?_
      simp
    | out line hnone hidle =>
      subst hnone
      exact agrees_out hend hline (hidle _ hcomment) (hidle _ hspace) h
    | uniform huniform =>
      cases huniform with
      | fault hfault =>
        obtain ⟨e, t, he⟩ := hfault _ hcomment
        rw [tokens_of_error he] at h
        cases h
      | token token place owed' hkind hverbal hlands hscan =>
        have hsound : ∀ token, owed' = some token → token.kind = .stop :=
          sound_of_scan (s := ⟨_, m, owed⟩) howed (hscan _ hcomment)
        obtain ⟨rfl, hrest⟩ := tokens_eq_cons h (hscan _ hcomment) hkind
        refine .step (hscan _ hspace) hkind (fun h => absurd h (by simp [hverbal])) ?_
        cases hlands with
        | within d hbehind hland =>
          rw [hland _ hcomment] at hrest
          rw [hland _ hspace]
          exact ih hsound hbehind hrest
        | beyond line hland =>
          rw [hland _ hcomment] at hrest
          rw [hland _ hspace]
          exact agrees_over hend hline hq hsound hrest

end Scanner

/-! ### Whole sources -/

/-- A line with something on it is not blank. -/
theorem not_lineBlank_of_solid (hch : ch ∈ cs.takeWhile (· ≠ '\n'))
    (hsolid : Text.isBlank ch = false) : ¬ LineBlank cs := by
  rintro ⟨spaces, after, rfl, hspaces⟩
  have hspace : isSpace ch = true := by
    refine hspaces ch ?_
    have hbreak : '\n' ∉ spaces := fun hmem => absurd (hspaces _ hmem) (by decide)
    rwa [takeWhile_ne_append hbreak] at hch
  rw [isBlank_of_isSpace hspace] at hsolid
  cases hsolid

/-- **A comment is white space unless a term would reach over it.**  Where a comment stands in
prose, ends on its line, and what follows it is no blank line, a space in its place gives the
same kinds of tokens with the same texts exactly if in the source with the space no term has
words before that space and words behind it.  Then the tokens are also on the same lines. -/
theorem comment_is_space_iff {l : Lexicon} {n : Nat} {p c q : String} {ts : List Token}
    (hplace : Place.prose.behind p.toList = .prose) (hend : ']' ∉ c.toList)
    (hline : '\n' ∉ c.toList) (hafter : ¬ LineBlank q.toList)
    (h : tokens l (p ++ "[" ++ c ++ "]" ++ q) n = .ok ts) :
    let spaced := p ++ " " ++ q
    let straddled := (Scanner.ofSource spaced n).Straddles l (q.length + 1)
    ((tokens l spaced n).map (·.map Token.said) = .ok (ts.map Token.said) ↔ ¬ straddled) ∧
      (¬ straddled → tokens l spaced n = .ok ts) := by
  intro spaced straddled
  have hcommented : Scanner.ofSource (p ++ "[" ++ c ++ "]" ++ q) n =
      ⟨extended ('[' :: (c.toList ++ ']' :: q.toList)) ⟨p.toList, 1⟩, n - 1, none⟩ := by
    simp [Scanner.ofSource, Cursor.ofText, extended, String.toList_append]
  have hspaced : Scanner.ofSource spaced n =
      ⟨extended (' ' :: q.toList) ⟨p.toList, 1⟩, n - 1, none⟩ := by
    simp [spaced, Scanner.ofSource, Cursor.ofText, extended, String.toList_append]
  rw [tokens, hcommented] at h
  have hq : blankLineAhead q.toList = false :=
    Bool.eq_false_iff.mpr fun hblank => hafter (blankLineAhead_iff.mp hblank)
  have howed : ∀ token : Token, none = some token → token.kind = .stop := by simp
  have hagrees := Scanner.agrees_spaced hend hline hq howed hplace h
  rw [← hspaced] at hagrees
  rcases hagrees with ⟨hstraddles, hne⟩ | ⟨hstraddles, heq⟩
  · exact ⟨iff_of_false hne (not_not_intro hstraddles), fun hnot => absurd hstraddles hnot⟩
  · exact ⟨iff_of_true (congrArg (Except.map (·.map Token.said)) heq) hstraddles, fun _ => heq⟩

/-- A comment between two words that are no term together. -/
theorem lamp_is_on_beside_comment :
    let l := Lexicon.standard .english
    let ts : List Token := [⟨.word, "Lamp", 1⟩, ⟨.equality, "is", 1⟩, ⟨.word, "on", 1⟩,
      ⟨.stop, ".", 1⟩, ⟨.finish, "", 1⟩]
    Place.prose.behind "Lamp ".toList = .prose ∧ ']' ∉ "the \"big\" one".toList ∧
      '\n' ∉ "the \"big\" one".toList ∧ ¬ LineBlank " is on.".toList ∧
      tokens l ("Lamp " ++ "[" ++ "the \"big\" one" ++ "]" ++ " is on.") 4 = .ok ts ∧
      ¬ (Scanner.ofSource ("Lamp " ++ " " ++ " is on.") 4).Straddles l (" is on.".length + 1) ∧
      tokens l ("Lamp " ++ " " ++ " is on.") 4 = .ok ts := by
  intro l ts
  have hplace : Place.prose.behind "Lamp ".toList = .prose := by decide
  have hend : ']' ∉ "the \"big\" one".toList := by decide
  have hline : '\n' ∉ "the \"big\" one".toList := by decide
  have hafter : ¬ LineBlank " is on.".toList := by
    have hsolid : 'i' ∈ " is on.".toList.takeWhile (· ≠ '\n') := by decide
    exact not_lineBlank_of_solid hsolid (by decide)
  have htokens : tokens l ("Lamp " ++ "[" ++ "the \"big\" one" ++ "]" ++ " is on.") 4 = .ok ts := by
    decide +kernel
  have hsaid : (tokens l ("Lamp " ++ " " ++ " is on.") 4).map (·.map Token.said) =
      .ok (ts.map Token.said) := by
    decide +kernel
  obtain ⟨hiff, hsame⟩ := comment_is_space_iff hplace hend hline hafter htokens
  have hnot := hiff.mp hsaid
  exact ⟨hplace, hend, hline, hafter, htokens, hnot, hsame hnot⟩

/-- A comment between the words of a term parts them, and a space does not. -/
theorem switched_on_is_parted :
    let l := Lexicon.standard .english
    let ts : List (TokenKind × String) := [(.word, "Lamp"), (.equality, "is"), (.word, "switched"),
      (.word, "on"), (.stop, "."), (.finish, "")]
    let us : List (TokenKind × String) := [(.word, "Lamp"), (.equality, "is"),
      (.word, "switched on"), (.stop, "."), (.finish, "")]
    Place.prose.behind "Lamp is switched ".toList = .prose ∧ ']' ∉ "x".toList ∧
      '\n' ∉ "x".toList ∧
      (∃ ch ∈ "Lamp is switched ".toList.reverse.takeWhile (· ≠ '\n'), Text.isBlank ch = false) ∧
      (∃ ch ∈ " on.".toList.takeWhile (· ≠ '\n'), Text.isBlank ch = false) ∧
      (tokens l ("Lamp is switched " ++ "[" ++ "x" ++ "]" ++ " on.") 4).map (·.map Token.said) =
        .ok ts ∧
      (tokens l ("Lamp is switched " ++ " " ++ " on.") 4).map (·.map Token.said) = .ok us ∧
      us ≠ ts := by
  refine ⟨by decide, by decide, by decide, ?_, ?_, ?_, ?_, by decide⟩
  · exact ⟨'d', by decide, by decide⟩
  · exact ⟨'o', by decide, by decide⟩
  · decide +kernel
  · decide +kernel

end Adventure.Prose
