/-
Text with something behind it.

What a scanner does in a text that ends in prose does not depend on what stands behind the
text, as long as that is not the rest of a blank line: it passes over the same white space and
the same comments and reads the same marks and the same quotes, for each of them ends within
the text.  Only words are another matter, because terms are looked for behind them.

This is said once for every continuation, so that two sources with the same beginning can be
compared by asking what it says of each.
-/
import Adventure.Proofs.Prose.Longest

namespace Adventure.Prose

open Text (Cursor)

variable {cs after inside tail : List Char} {c d : Cursor} {ch : Char} {n : Nat}
  {p : Char → Bool}

/-! ### Text with something behind it -/

/-- Characters up to the first of a certain kind. -/
theorem takeWhile_ne_append (h : ch ∉ cs) (after : List Char) :
    (cs ++ ch :: after).takeWhile (· ≠ ch) = cs := by
  have hall : ∀ d ∈ cs, decide (d ≠ ch) = true := by
    intro d hd
    simp only [decide_eq_true_eq]
    rintro rfl
    exact h hd
  rw [List.takeWhile_append_of_pos hall]
  simp

/-- A cursor in a text with something behind it. -/
def extended (tail : List Char) (c : Cursor) : Cursor :=
  ⟨c.rest ++ tail, c.line⟩

theorem rest_extended (tail : List Char) (hrest : c.rest = ch :: cs) :
    (extended tail c).rest = ch :: (cs ++ tail) := by
  rw [extended, hrest, List.cons_append]

theorem blankLineAhead_append (htail : blankLineAhead tail = false) (cs : List Char) :
    blankLineAhead (cs ++ tail) = blankLineAhead cs := by
  induction cs with
  | nil => exact htail
  | cons c cs ih =>
    rw [List.cons_append, blankLineAhead, blankLineAhead, List.dropWhile_cons, List.dropWhile_cons]
    cases isSpace c with
    | true => exact ih
    | false => rfl

theorem isGap_append (htail : blankLineAhead tail = false) (c : Char) (cs : List Char) :
    isGap c (cs ++ tail) = isGap c cs := by
  rw [isGap, isGap, blankLineAhead_append htail]

theorem skip_extended (tail : List Char) (h : n ≤ c.rest.length) :
    (extended tail c).skip n = extended tail (c.skip n) := by
  simp only [extended, Cursor.skip, List.drop_append_of_le_length h,
    List.take_append_of_le_length h]

/-- Characters that come to an end within the text. -/
theorem skipWhile_extended_of_not_all (tail : List Char) (h : c.rest.all p = false) :
    (extended tail c).skipWhile p = extended tail (c.skipWhile p) := by
  have hrun : (extended tail c).run p = c.run p := by
    rw [Cursor.run, extended, List.takeWhile_append, if_neg, Cursor.run]
    intro hlength
    have hself := (List.takeWhile_prefix (l := c.rest) p).eq_of_length hlength
    rw [List.takeWhile_eq_self_iff] at hself
    rw [List.all_eq_true.mpr hself] at h
    cases h
  rw [Cursor.skipWhile, hrun, skip_extended tail (length_run_le p c)]
  rfl

/-- Characters that do not come to an end within the text. -/
theorem skipWhile_extended_of_all (tail : List Char) (h : c.rest.all p = true) :
    (extended tail c).skipWhile p =
      (⟨tail, c.line + c.rest.count '\n'⟩ : Cursor).skipWhile p := by
  have hrun : (extended tail c).run p = c.rest ++ tail.takeWhile p :=
    List.takeWhile_append_of_pos (List.all_eq_true.mp h)
  have hbehind : (extended tail c).skip c.rest.length = ⟨tail, c.line + c.rest.count '\n'⟩ :=
    Cursor.skip_append rfl
  rw [Cursor.skipWhile, hrun, List.length_append, ← Cursor.skip_skip, hbehind]
  rfl

/-! ### Places -/

theorem Place.behind_cons (place : Place) (ch : Char) (cs : List Char) :
    place.behind (ch :: cs) = (place.after ch).behind cs :=
  rfl

/-- Prose without quotes and brackets goes on as prose. -/
theorem Place.behind_of_not_mem (hquote : '"' ∉ cs) (hbracket : '[' ∉ cs) :
    Place.prose.behind cs = .prose := by
  induction cs with
  | nil => rfl
  | cons ch cs ih =>
    rw [List.mem_cons, not_or] at hquote hbracket
    rw [Place.behind_cons, Place.after, if_neg (Ne.symm hquote.1), if_neg (Ne.symm hbracket.1)]
    exact ih hquote.2 hbracket.2

/-- What ends in prose but does not begin there holds the character that leads back. -/
theorem Place.closed (place : Place) {ending : Char}
    (hafter : ∀ ch, place.after ch = if ch = ending then .prose else place)
    (hplace : place ≠ .prose) (h : place.behind cs = .prose) :
    ∃ inside after, cs = inside ++ ending :: after ∧ ending ∉ inside ∧
      Place.prose.behind after = .prose := by
  induction cs with
  | nil => exact absurd h hplace
  | cons ch cs ih =>
    rw [Place.behind_cons, hafter] at h
    split at h
    · next hch => exact ⟨[], cs, by rw [hch, List.nil_append], List.not_mem_nil, h⟩
    · next hch =>
      obtain ⟨inside, after, rfl, hinside, hbehind⟩ := ih h
      refine ⟨ch :: inside, after, rfl, ?_, hbehind⟩
      rw [List.mem_cons, not_or]
      exact ⟨Ne.symm hch, hinside⟩

/-! ### Between tokens -/

theorem position?_closing (h : ']' ∉ inside) (after : List Char) :
    Text.position? "]".toList (inside ++ ']' :: after) = some inside.length := by
  induction inside with
  | nil =>
    rw [List.nil_append, position?_bracket, if_pos rfl]
    rfl
  | cons ch inside ih =>
    rw [List.mem_cons, not_or] at h
    rw [List.cons_append, position?_bracket, if_neg (Ne.symm h.1), ih h.2]
    rfl

theorem past?_comment (hrest : c.rest = '[' :: (inside ++ ']' :: after)) (h : ']' ∉ inside) :
    c.past? "]" = some ⟨after, c.line + inside.count '\n'⟩ := by
  have hposition : Text.position? "]".toList c.rest = some (inside.length + 1) := by
    rw [hrest, position?_bracket, if_neg (by decide), position?_closing h]
    rfl
  have hsplit : c.rest = ('[' :: inside ++ [']']) ++ after := by
    rw [hrest, List.cons_append, List.cons_append, List.append_assoc, List.singleton_append]
  have hskip := Cursor.skip_append hsplit
  rw [List.length_append, List.count_append] at hskip
  rw [Cursor.past?, hposition]
  exact congrArg some hskip

/-- A comment is passed over. -/
theorem skipIdle_comment (hrest : c.rest = '[' :: (inside ++ ']' :: after)) (h : ']' ∉ inside) :
    skipIdle c = skipIdle ⟨after, c.line + inside.count '\n'⟩ := by
  rw [skipIdle_cons hrest, if_neg (by simp [isGap, isSpace]), if_pos rfl, past?_comment hrest h]

/-- Text that begins with what belongs to a token, if with anything. -/
def Settled (cs : List Char) : Prop :=
  ∀ ch after, cs = ch :: after → isGap ch after = false ∧ ch ≠ '['

theorem settled_nil : Settled [] := by
  rintro ch after h
  cases h

theorem skipIdle_of_settled (htail : blankLineAhead tail = false) (h : Settled c.rest)
    (hne : c.rest ≠ []) : skipIdle (extended tail c) = .ok () (extended tail c) := by
  obtain ⟨ch, after, hrest⟩ := List.exists_cons_of_ne_nil hne
  obtain ⟨hgap, hbracket⟩ := h ch after hrest
  rw [skipIdle_cons (rest_extended tail hrest), isGap_append htail, hgap, if_neg Bool.false_ne_true,
    if_neg hbracket]

/-- **What is passed over in a text does not depend on what is behind it.** -/
theorem skipIdle_extended (c : Cursor) (hplace : Place.prose.behind c.rest = .prose) :
    ∃ d : Cursor, Place.prose.behind d.rest = .prose ∧ Settled d.rest ∧
      ∀ tail, blankLineAhead tail = false → skipIdle (extended tail c) = skipIdle (extended tail d) := by
  fun_induction skipIdle c with
  | case1 c hrest => exact ⟨c, hplace, hrest ▸ settled_nil, fun _ _ => rfl⟩
  | case2 c ch cs hrest hgap ih =>
    have hskip : (c.skip 1).rest = cs := rest_skip_one hrest
    rw [hrest, Place.behind_cons, after_of_isGap hgap] at hplace
    obtain ⟨d, hbehind, hsettled, hsame⟩ := ih (by rw [hskip]; exact hplace)
    refine ⟨d, hbehind, hsettled, fun tail htail => ?_⟩
    rw [skipIdle_cons (rest_extended tail hrest), isGap_append htail, if_pos hgap,
      skip_extended tail (by simp [hrest]), hsame tail htail]
  | case3 c cs hpast hrest hgap =>
    exfalso
    rw [hrest] at hplace
    obtain ⟨inside, after, rfl, hinside, -⟩ :=
      Place.closed .comment (fun _ => rfl) (by decide) hplace
    rw [past?_comment hrest hinside] at hpast
    cases hpast
  | case4 c cs e hpast hrest hgap ih =>
    rw [hrest] at hplace
    obtain ⟨inside, after, rfl, hinside, hbehind⟩ :=
      Place.closed .comment (fun _ => rfl) (by decide) hplace
    rw [past?_comment hrest hinside] at hpast
    obtain rfl := Option.some.inj hpast
    obtain ⟨d, hdbehind, hsettled, hsame⟩ := ih hbehind
    refine ⟨d, hdbehind, hsettled, fun tail htail => ?_⟩
    have hextended : (extended tail c).rest = '[' :: (inside ++ ']' :: (after ++ tail)) := by
      rw [rest_extended tail hrest, List.append_assoc, List.cons_append]
    rw [skipIdle_comment hextended hinside]
    exact hsame tail htail
  | case5 c ch cs hrest hgap hbracket =>
    refine ⟨c, hplace, ?_, fun _ _ => rfl⟩
    rintro first after hfirst
    obtain ⟨rfl, rfl⟩ := List.cons.inj (hrest.symm.trans hfirst)
    exact ⟨Bool.eq_false_iff.mpr hgap, hbracket⟩

/-! ### Behind a token -/

/-- Where a scanner comes to, whatever stands behind the text: to a place in the text, or over
its end and the white space there. -/
inductive Lands (place : List Char → Cursor) : Prop
  | within (d : Cursor) (hplace : Place.prose.behind d.rest = .prose)
    (h : ∀ tail, blankLineAhead tail = false → place tail = extended tail d)
  | beyond (line : Nat)
    (h : ∀ tail, blankLineAhead tail = false →
      place tail = (⟨tail, line⟩ : Cursor).skipWhile Text.isBlank)

/-- Passing over characters that neither quotes nor brackets are among leads to prose. -/
theorem Plain.behind_skipWhile (hp : Plain p) (hplace : Place.prose.behind c.rest = .prose) :
    Place.prose.behind (c.skipWhile p).rest = .prose := by
  rw [rest_skipWhile]
  rwa [← List.takeWhile_append_dropWhile (p := p) (l := c.rest), behind_append,
    hp.behind_takeWhile] at hplace

theorem lands_skipBlank (hplace : Place.prose.behind c.rest = .prose) :
    Lands fun tail => (extended tail c).skipWhile Text.isBlank := by
  cases hall : c.rest.all Text.isBlank with
  | true => exact .beyond _ fun tail _ => skipWhile_extended_of_all tail hall
  | false =>
    exact .within _ (plain_isBlank.behind_skipWhile hplace) fun tail _ =>
      skipWhile_extended_of_not_all tail hall

theorem pastParagraph_of_blank {d : Cursor} (hspace : c.skipWhile isSpace = d)
    (hrest : d.rest = '\n' :: cs) (hblank : blankLineAhead cs = true) :
    pastParagraph c = d.skipWhile Text.isBlank := by
  unfold pastParagraph
  simp only [hspace, hrest, hblank, if_true]

theorem pastParagraph_of_not_blank
    (h : ∀ cs, (c.skipWhile isSpace).rest = '\n' :: cs → blankLineAhead cs = false) :
    pastParagraph c = c := by
  unfold pastParagraph
  dsimp only
  split
  · next cs hrest => rw [h cs hrest, if_neg Bool.false_ne_true]
  · rfl

/-- A blank line behind the end of a sentence is the text's own. -/
theorem lands_pastParagraph (hplace : Place.prose.behind c.rest = .prose) :
    Lands fun tail => pastParagraph (extended tail c) := by
  cases hall : c.rest.all isSpace with
  | true =>
    refine .within c hplace fun tail htail => pastParagraph_of_not_blank fun cs hcs => ?_
    rw [skipWhile_extended_of_all tail hall, rest_skipWhile] at hcs
    rw [blankLineAhead, hcs] at htail
    cases htail
  | false =>
    have hspace := fun tail => skipWhile_extended_of_not_all tail hall
    have hbehind := plain_isSpace.behind_skipWhile hplace
    obtain ⟨ch, cs, hrest⟩ : ∃ ch cs, (c.skipWhile isSpace).rest = ch :: cs := by
      refine List.exists_cons_of_ne_nil fun hnil => ?_
      rw [rest_skipWhile, List.dropWhile_eq_nil_iff] at hnil
      rw [List.all_eq_true.mpr hnil] at hall
      cases hall
    have hextended := fun tail => rest_extended tail hrest
    by_cases hblank : ch = '\n' ∧ blankLineAhead cs = true
    · obtain ⟨rfl, hblank⟩ := hblank
      have hpast : ∀ tail, blankLineAhead tail = false → pastParagraph (extended tail c) =
          (extended tail (c.skipWhile isSpace)).skipWhile Text.isBlank := fun tail htail =>
        pastParagraph_of_blank (hspace tail) (hextended tail)
          ((blankLineAhead_append htail cs).trans hblank)
      cases lands_skipBlank hbehind with
      | within d hd h => exact .within d hd fun tail htail => (hpast tail htail).trans (h tail htail)
      | beyond line h => exact .beyond line fun tail htail => (hpast tail htail).trans (h tail htail)
    · refine .within c hplace fun tail htail => pastParagraph_of_not_blank fun ds hds => ?_
      rw [hspace, hextended] at hds
      obtain ⟨rfl, rfl⟩ := List.cons.inj hds
      rw [blankLineAhead_append htail]
      exact Bool.eq_false_iff.mpr fun hcs => hblank ⟨rfl, hcs⟩

/-! ### Tokens before the end of a text -/

/-- The end of a sentence is not that of the source, and no word. -/
theorem Token.not_verbal_of_stop {t : Token} (h : t.kind = .stop) :
    t.kind ≠ .finish ∧ t.isVerbal = false := by
  rw [Token.isVerbal, h]
  exact ⟨by decide, rfl⟩

namespace Scanner

variable {l : Lexicon} {m : Nat} {owed : Option Token}

/-- A step of a scanner that is the same whatever stands behind a text. -/
inductive Uniform (m : Nat) (step : List Char → EStateM.Result Error Scanner Token) : Prop
  | token (token : Token) (place : List Char → Cursor) (owed : Option Token)
    (hkind : token.kind ≠ .finish) (hverbal : token.isVerbal = false) (hlands : Lands place)
    (h : ∀ tail, blankLineAhead tail = false → step tail = .ok token ⟨place tail, m, owed⟩)
  | fault (h : ∀ tail, blankLineAhead tail = false → ∃ e t, step tail = .error e t)

/-- Text between quotes ends in the text. -/
theorem uniform_readQuoted (hrest : c.rest = '"' :: cs)
    (hplace : Place.prose.behind c.rest = .prose) :
    Uniform m fun tail => readQuoted ⟨extended tail c, m, none⟩ := by
  rw [hrest] at hplace
  obtain ⟨inside, after, rfl, hinside, hbehind⟩ :=
    Place.closed .quote (fun _ => rfl) (by decide) hplace
  let d : Cursor := ⟨after, c.line + inside.count '\n'⟩
  let token : Token := ⟨.quoted, String.ofList inside, c.line⟩
  have hkind : TokenKind.quoted ≠ .finish := by decide
  have hread : ∀ tail, readQuoted ⟨extended tail c, m, none⟩ = .ok token
      (if inside.getLast? = some '.' then
        ⟨pastParagraph (extended tail d), m, some ⟨.stop, ".", d.line⟩⟩
      else ⟨extended tail d, m, none⟩) := by
    intro tail
    have hskip : (extended tail c).skip 1 = ⟨inside ++ '"' :: (after ++ tail), c.line⟩ := by
      rw [Cursor.skip, extended, hrest]
      simp
    have hrun : (⟨inside ++ '"' :: (after ++ tail), c.line⟩ : Cursor).run (· ≠ '"') = inside :=
      takeWhile_ne_append hinside (after ++ tail)
    have hbehind : (⟨inside ++ '"' :: (after ++ tail), c.line⟩ : Cursor).skip (inside.length + 1) =
        extended tail d := by
      have hsplit : inside ++ '"' :: (after ++ tail) = (inside ++ ['"']) ++ (after ++ tail) := by
        simp
      have hskip := Cursor.skip_append (c := ⟨inside ++ '"' :: (after ++ tail), c.line⟩) hsplit
      rw [List.length_append, List.count_append] at hskip
      exact hskip
    unfold readQuoted
    dsimp only
    rw [hskip, hrun, hbehind, if_neg (by simp)]
    rfl
  by_cases hlast : inside.getLast? = some '.'
  · refine .token token _ (some ⟨.stop, ".", d.line⟩) hkind rfl
      (lands_pastParagraph (c := d) hbehind) fun tail _ => ?_
    rw [hread, if_pos hlast]
  · refine .token token _ none hkind rfl (.within d hbehind fun _ _ => rfl) fun tail _ => ?_
    rw [hread, if_neg hlast]

/-- What begins with a character of no token is at fault. -/
theorem readToken_illegal {s : Scanner} (hrest : s.cursor.rest = ch :: cs)
    (hmark : TokenKind.ofMark? ch = none) (hother : ch ≠ '.' ∧ ch ≠ '\n' ∧ ch ≠ '"')
    (hword : isWordChar ch = false) :
    s.readToken l = .error ((LexFault.illegal ch).onLine s.cursor.line) s := by
  simp only [readToken, hrest, hmark, if_neg hother.1, if_neg hother.2.1, if_neg hother.2.2, hword,
    if_neg Bool.false_ne_true]

/-- **What begins with no word is read in the same way whatever stands behind the text.** -/
theorem uniform_readToken (l : Lexicon) (hrest : c.rest = ch :: cs) (hsettled : Settled c.rest)
    (hword : isWordChar ch = false) (hplace : Place.prose.behind c.rest = .prose) :
    Uniform m fun tail => readToken ⟨extended tail c, m, none⟩ l := by
  have hextended := fun tail => rest_extended tail hrest
  have hskip : ∀ tail, (extended tail c).skip 1 = extended tail (c.skip 1) :=
    fun tail => skip_extended tail (by rw [hrest]; exact Nat.succ_pos _)
  by_cases hquote : ch = '"'
  · subst hquote
    have hmark : TokenKind.ofMark? '"' = none := rfl
    have hread : ∀ tail, readToken ⟨extended tail c, m, none⟩ l =
        readQuoted ⟨extended tail c, m, none⟩ := by
      intro tail
      simp [readToken, hextended, hmark]
    simp only [hread]
    exact uniform_readQuoted hrest hplace
  have hbehind : Place.prose.behind (c.skip 1).rest = .prose := by
    rw [hrest, Place.behind_cons, Place.after, if_neg hquote,
      if_neg (hsettled ch cs hrest).2] at hplace
    rw [rest_skip_one hrest]
    exact hplace
  cases hmark : TokenKind.ofMark? ch with
  | some kind =>
    have hkind : kind ≠ .finish ∧ (⟨kind, String.ofList [ch], c.line⟩ : Token).isVerbal = false := by
      unfold TokenKind.ofMark? at hmark
      split at hmark
      case h_4 => cases hmark
      all_goals exact Option.some.inj hmark ▸ ⟨by decide, rfl⟩
    refine .token ⟨kind, String.ofList [ch], c.line⟩ _ none hkind.1 hkind.2
      (.within (c.skip 1) hbehind fun _ _ => rfl) fun tail _ => ?_
    simp only [readToken, hextended, hmark, hskip]
    rfl
  | none =>
    have hstop : TokenKind.stop ≠ .finish := by decide
    by_cases hdot : ch = '.'
    · refine .token ⟨.stop, ".", c.line⟩ _ none hstop rfl (lands_pastParagraph hbehind)
        fun tail _ => ?_
      simp only [readToken, hextended, hmark, hskip, if_pos hdot]
      rfl
    by_cases hbreak : ch = '\n'
    · refine .token ⟨.stop, "\n\n", c.line⟩ _ none hstop rfl (lands_skipBlank hplace)
        fun tail _ => ?_
      simp only [readToken, hextended, hmark, if_neg hdot, if_pos hbreak]
      rfl
    exact .fault fun tail _ =>
      ⟨_, _, readToken_illegal (hextended tail) hmark ⟨hdot, hbreak, hquote⟩ hword⟩

/-- How a scan goes in a text that ends in prose, whatever stands behind it: it gives a token
that is no word, it comes to a word, it comes to the end of the text, or it fails. -/
inductive Course (l : Lexicon) (m : Nat) (owed : Option Token) (c : Cursor) : Prop
  | uniform (h : Uniform m fun tail => scan l ⟨extended tail c, m, owed⟩)
  | word (d : Cursor) (howed : owed = none) (hword : BeginsWord d.rest)
    (hplace : Place.prose.behind d.rest = .prose)
    (h : ∀ tail, blankLineAhead tail = false →
      skipIdle (extended tail c) = .ok () (extended tail d))
  | out (line : Nat) (howed : owed = none)
    (h : ∀ tail, blankLineAhead tail = false → skipIdle (extended tail c) = skipIdle ⟨tail, line⟩)

theorem course_scan (l : Lexicon) (m : Nat) (howed : ∀ token, owed = some token → token.kind = .stop)
    (hplace : Place.prose.behind c.rest = .prose) : Course l m owed c := by
  cases howed' : owed with
  | some token =>
    obtain ⟨hkind, hverbal⟩ := Token.not_verbal_of_stop (howed token howed')
    exact .uniform
      (.token token _ none hkind hverbal (.within c hplace fun _ _ => rfl) fun tail _ => rfl)
  | none =>
    obtain ⟨d, hbehind, hsettled, hidle⟩ := skipIdle_extended c hplace
    cases hrest : d.rest with
    | nil =>
      refine .out d.line rfl fun tail htail => ?_
      rw [hidle tail htail, extended, hrest, List.nil_append]
    | cons ch cs =>
      have hne : d.rest ≠ [] := by simp [hrest]
      have hstays : ∀ tail, blankLineAhead tail = false →
          skipIdle (extended tail c) = .ok () (extended tail d) := fun tail htail =>
        (hidle tail htail).trans (skipIdle_of_settled htail hsettled hne)
      cases hword : isWordChar ch with
      | true => exact .word d rfl ⟨ch, cs, hrest, hword⟩ hbehind hstays
      | false =>
        refine .uniform ?_
        have hread := fun tail (htail : blankLineAhead tail = false) =>
          scan_of_idle (s := ⟨extended tail c, m, none⟩) (l := l) rfl (hstays tail htail)
        cases uniform_readToken (m := m) l hrest hsettled hword hbehind with
        | token token place owed hkind hverbal hlands h =>
          exact .token token place owed hkind hverbal hlands fun tail htail =>
            (hread tail htail).trans (h tail htail)
        | fault h =>
          refine .fault fun tail htail => ?_
          obtain ⟨e, t, he⟩ := h tail htail
          exact ⟨e, t, (hread tail htail).trans he⟩

end Scanner

end Adventure.Prose
