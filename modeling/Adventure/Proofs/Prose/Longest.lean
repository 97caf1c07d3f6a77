/-
The longest term is taken.

The scanner looks ahead with two functions that count characters: one finds the next word,
the other goes from word to word until there is none or there are enough.  Neither is
mentioned by what is said of them here.  Words of one sentence stand in a row when there is
white space between each two and no blank line in it; how many words the scanner takes is
the greatest number of words that stand in a row there and are a term, up to the bound, and
one if there is no such number.

The rows that begin a text are the words looked ahead to.  That one is the other is shown by
induction on the words, that the other is the one by induction on the row: behind its first
word is a gap, and behind the gap a row again.
-/
import Adventure.Proofs.Prose.Phrases
import Mathlib.Order.Bounds.Defs

namespace Adventure

namespace Text.Cursor

/-- Behind the first part of what is left. -/
theorem skip_append {c : Cursor} {cs rest : List Char} (h : c.rest = cs ++ rest) :
    c.skip cs.length = ⟨rest, c.line + cs.count '\n'⟩ := by
  rw [skip, h, List.drop_left, List.take_left]

end Text.Cursor

namespace Prose

open Text (Cursor)

variable {cs ds gap rest row : List Char} {c : Char} {word : String} {words : List String}
  {n : Nat}

/-! ### Words in a row -/

/-- The line that begins here holds spaces only, and another follows. -/
def LineBlank (cs : List Char) : Prop :=
  ∃ spaces after, cs = spaces ++ '\n' :: after ∧ ∀ c ∈ spaces, isSpace c = true

/-- Some line break begins a blank line. -/
def HoldsBlankLine (cs : List Char) : Prop :=
  ∃ before after, cs = before ++ '\n' :: after ∧ LineBlank after

/-- White space within a sentence: spaces, and line breaks that begin no blank line. -/
structure Unbroken (gap : List Char) : Prop where
  chars : ∀ c ∈ gap, isSpace c = true ∨ c = '\n'
  noBlankLine : ¬ HoldsBlankLine gap

/-- The text of words that follow each other in one sentence, with white space between each
two. -/
inductive Row : List String → List Char → Prop
  | one {word : String} (hword : IsPlain word) : Row [word] word.toList
  | cons {word : String} {gap cs : List Char} {words : List String} (hword : IsPlain word)
    (hne : gap ≠ []) (hgap : Unbroken gap) (h : Row words cs) :
    Row (word :: words) (word.toList ++ gap ++ cs)

theorem Row.isPlain (h : Row words row) : ∀ w ∈ words, IsPlain w := by
  induction h with
  | one hword => exact List.forall_mem_singleton.mpr hword
  | cons hword _ _ _ ih => exact List.forall_mem_cons.mpr ⟨hword, ih⟩

/-- Text without a word at its beginning, so that a word before it ends there. -/
def EndsWord (rest : List Char) : Prop :=
  ∀ c ∈ rest.head?, isWordChar c = false

/-- The words in a row at the beginning of a text, and what is behind the last of them. -/
structure Opens (words : List String) (row rest : List Char) : Prop where
  row : Row words row
  whole : EndsWord rest

/-- The numbers of words, from two up to a bound, that stand in a row at the beginning of a
text and are a term together. -/
def termLengths (l : Lexicon) (n : Nat) (cs : List Char) : Set Nat :=
  {k | 2 ≤ k ∧ k ≤ n ∧ ∃ words row rest, cs = row ++ rest ∧ Opens words row rest ∧
    words.length = k ∧ l.isTerm (" ".intercalate words) = true}

/-! ### Gaps -/

theorem lineBlank_cons : LineBlank (c :: cs) ↔ c = '\n' ∨ isSpace c = true ∧ LineBlank cs := by
  constructor
  · rintro ⟨spaces, after, heq, hspaces⟩
    cases spaces with
    | nil => exact .inl (List.cons.inj heq).1
    | cons d spaces =>
      obtain ⟨rfl, rfl⟩ := List.cons.inj heq
      obtain ⟨hd, hspaces⟩ := List.forall_mem_cons.mp hspaces
      exact .inr ⟨hd, spaces, after, rfl, hspaces⟩
  · rintro (rfl | ⟨hc, spaces, after, rfl, hspaces⟩)
    · exact ⟨[], cs, rfl, nofun⟩
    · exact ⟨c :: spaces, after, rfl, List.forall_mem_cons.mpr ⟨hc, hspaces⟩⟩

theorem not_lineBlank_nil : ¬ LineBlank [] := by
  rintro ⟨spaces, after, heq, -⟩
  cases spaces <;> cases heq

theorem blankLineAhead_iff : blankLineAhead cs = true ↔ LineBlank cs := by
  induction cs with
  | nil => simp [blankLineAhead, not_lineBlank_nil]
  | cons c cs ih =>
    rw [lineBlank_cons, ← ih, blankLineAhead, blankLineAhead, List.dropWhile_cons]
    cases hc : isSpace c with
    | true =>
      have hbreak : c ≠ '\n' := by
        rintro rfl
        exact absurd hc (by decide)
      simp [hbreak]
    | false => simp

/-- The line before a word is no blank line because of what follows it. -/
theorem lineBlank_append (hrest : BeginsWord rest) (gap : List Char) :
    LineBlank (gap ++ rest) ↔ LineBlank gap := by
  induction gap with
  | nil =>
    obtain ⟨c, rest, rfl, hc⟩ := hrest
    have hbreak : c ≠ '\n' := by
      rintro rfl
      exact absurd hc (by decide)
    simp [lineBlank_cons, not_lineBlank_nil, hbreak, not_isSpace_of_isWordChar hc]
  | cons c gap ih => rw [List.cons_append, lineBlank_cons, lineBlank_cons, ih]

theorem holdsBlankLine_cons :
    HoldsBlankLine (c :: cs) ↔ c = '\n' ∧ LineBlank cs ∨ HoldsBlankLine cs := by
  constructor
  · rintro ⟨before, after, heq, hblank⟩
    cases before with
    | nil =>
      obtain ⟨rfl, rfl⟩ := List.cons.inj heq
      exact .inl ⟨rfl, hblank⟩
    | cons d before =>
      obtain ⟨rfl, rfl⟩ := List.cons.inj heq
      exact .inr ⟨before, after, rfl, hblank⟩
  · rintro (⟨rfl, hblank⟩ | ⟨before, after, rfl, hblank⟩)
    · exact ⟨[], cs, rfl, hblank⟩
    · exact ⟨c :: before, after, rfl, hblank⟩

theorem unbroken_nil : Unbroken [] := by
  refine ⟨nofun, ?_⟩
  rintro ⟨before, after, heq, -⟩
  cases before <;> cases heq

theorem isGap_iff : isGap c cs = true ↔ isSpace c = true ∨ c = '\n' ∧ ¬ LineBlank cs := by
  rw [isGap, Bool.or_eq_true, Bool.and_eq_true, decide_eq_true_eq, Bool.not_eq_true',
    ← blankLineAhead_iff, Bool.not_eq_true]

/-- White space before a word is taken apart as the scanner takes it apart. -/
theorem unbroken_cons (hrest : BeginsWord rest) :
    Unbroken (c :: gap) ↔ isGap c (gap ++ rest) = true ∧ Unbroken gap := by
  rw [isGap_iff, lineBlank_append hrest]
  constructor
  · rintro ⟨hchars, hblank⟩
    obtain ⟨hc, hchars⟩ := List.forall_mem_cons.mp hchars
    rw [holdsBlankLine_cons, not_or, not_and] at hblank
    exact ⟨hc.imp_right fun hbreak => ⟨hbreak, hblank.1 hbreak⟩, hchars, hblank.2⟩
  · rintro ⟨hc, hchars, hblank⟩
    refine ⟨List.forall_mem_cons.mpr ⟨hc.imp_right And.left, hchars⟩, ?_⟩
    rw [holdsBlankLine_cons]
    rintro (⟨rfl, hline⟩ | hmore)
    · rcases hc with hspace | ⟨-, hnot⟩
      · exact absurd hspace (by decide)
      · exact hnot hline
    · exact hblank hmore

theorem not_isWordChar_of_white (h : isSpace c = true ∨ c = '\n') : isWordChar c = false := by
  rcases h with hspace | rfl
  · rw [← Bool.not_eq_true]
    intro hword
    rw [not_isSpace_of_isWordChar hword] at hspace
    cases hspace
  · decide

/-- A word behind white space of one sentence is found. -/
theorem gap?_append (hgap : Unbroken gap) (hrest : BeginsWord rest) :
    gap? (gap ++ rest) = some gap.length := by
  induction gap with
  | nil =>
    obtain ⟨c, rest, rfl, hc⟩ := hrest
    rw [List.nil_append, gap?, if_neg, if_pos hc]
    · rfl
    · intro hgap
      rw [not_isWordChar_of_white ((isGap_iff.mp hgap).imp_right And.left)] at hc
      cases hc
  | cons c gap ih =>
    obtain ⟨hc, hgap⟩ := (unbroken_cons hrest).mp hgap
    rw [List.cons_append, gap?, if_pos hc, ih hgap]
    rfl

/-- **What is found is a word behind white space of one sentence.** -/
theorem append_of_gap? (h : gap? cs = some n) :
    ∃ gap rest, cs = gap ++ rest ∧ gap.length = n ∧ Unbroken gap ∧ BeginsWord rest := by
  induction cs generalizing n with
  | nil => cases h
  | cons c cs ih =>
    rw [gap?] at h
    split at h
    · next hc =>
      obtain ⟨m, hm, rfl⟩ := Option.map_eq_some_iff.mp h
      obtain ⟨gap, rest, heq, rfl, hgap, hrest⟩ := ih hm
      rw [heq] at hc
      exact ⟨c :: gap, rest, by rw [heq, List.cons_append], rfl,
        (unbroken_cons hrest).mpr ⟨hc, hgap⟩, hrest⟩
    · obtain ⟨hword, hzero⟩ := Option.ite_none_right_eq_some.mp h
      obtain rfl := Option.some.inj hzero
      exact ⟨[], c :: cs, rfl, rfl, unbroken_nil, c, cs, rfl, hword⟩

/-! ### Whole words -/

theorem EndsWord.takeWhile (h : EndsWord rest) : rest.takeWhile isWordChar = [] := by
  cases rest with
  | nil => rfl
  | cons c rest => simp [h c rfl]

theorem endsWord_dropWhile (cs : List Char) : EndsWord (cs.dropWhile isWordChar) := by
  intro c hc
  have := List.head?_dropWhile_not isWordChar cs
  rw [Option.mem_def.mp hc] at this
  exact this

/-- A gap that holds something ends the word before it. -/
theorem Unbroken.endsWord (h : Unbroken gap) (hne : gap ≠ []) (rest : List Char) :
    EndsWord (gap ++ rest) := by
  obtain ⟨c, gap, rfl⟩ := List.exists_cons_of_ne_nil hne
  rintro d hd
  obtain rfl := Option.some.inj hd
  exact not_isWordChar_of_white (h.chars c (List.mem_cons_self ..))

theorem IsPlain.takeWhile (hword : IsPlain word) (h : EndsWord rest) :
    (word.toList ++ rest).takeWhile isWordChar = word.toList := by
  rw [List.takeWhile_append_of_pos hword.2, h.takeWhile, List.append_nil]

theorem IsPlain.beginsWord (hword : IsPlain word) (rest : List Char) :
    BeginsWord (word.toList ++ rest) := by
  obtain ⟨c, cs, hcs⟩ := List.exists_cons_of_ne_nil hword.1
  rw [hcs]
  exact ⟨c, cs ++ rest, rfl, hword.2 c (by rw [hcs]; exact List.mem_cons_self ..)⟩

/-- A text that begins with a word begins with a whole one. -/
theorem BeginsWord.split (h : BeginsWord cs) :
    ∃ word rest, cs = word.toList ++ rest ∧ IsPlain word ∧ EndsWord rest := by
  obtain ⟨c, ds, rfl, hc⟩ := h
  have hword : IsPlain (String.ofList ((c :: ds).takeWhile isWordChar)) := isPlain_takeWhile hc
  refine ⟨_, _, ?_, hword, endsWord_dropWhile (c :: ds)⟩
  rw [String.toList_ofList, List.takeWhile_append_dropWhile]

/-! ### Only one way to take a row apart -/

/-- A text begins with one word at most. -/
theorem IsPlain.unique {word' : String} (hword : IsPlain word) (hword' : IsPlain word')
    (hcs : EndsWord cs) (hds : EndsWord ds) (h : word.toList ++ cs = word'.toList ++ ds) :
    word = word' ∧ cs = ds := by
  have hsame : word.toList = word'.toList := by
    rw [← hword.takeWhile hcs, h, hword'.takeWhile hds]
  rw [hsame] at h
  exact ⟨String.toList_injective hsame, List.append_cancel_left h⟩

/-- There is one gap at most before a word. -/
theorem Unbroken.unique {gap' : List Char} (hgap : Unbroken gap) (hgap' : Unbroken gap')
    (hcs : BeginsWord cs) (hds : BeginsWord ds) (h : gap ++ cs = gap' ++ ds) :
    gap = gap' ∧ cs = ds := by
  refine List.append_inj h (Option.some.inj ?_)
  rw [← gap?_append hgap hcs, h, gap?_append hgap' hds]

theorem Row.length_pos (h : Row words row) : 0 < words.length := by
  cases h <;> exact Nat.succ_pos _

theorem Row.beginsWord (h : Row words row) (rest : List Char) : BeginsWord (row ++ rest) := by
  cases h with
  | one hword => exact hword.beginsWord rest
  | cons hword =>
    rw [List.append_assoc, List.append_assoc]
    exact hword.beginsWord _

/-- **What stands in a row at the beginning of a text is settled by the number of words.** -/
theorem Opens.unique {words' : List String} {row' rest' : List Char} (h : Opens words row rest)
    (h' : Opens words' row' rest') (heq : row ++ rest = row' ++ rest')
    (hlength : words.length = words'.length) : words = words' ∧ row = row' ∧ rest = rest' := by
  obtain ⟨hrow, hwhole⟩ := h
  obtain ⟨hrow', hwhole'⟩ := h'
  induction hrow generalizing words' row' with
  | one hword =>
    cases hrow' with
    | one hword' =>
      obtain ⟨rfl, rfl⟩ := hword.unique hword' hwhole hwhole' heq
      exact ⟨rfl, rfl, rfl⟩
    | cons _ _ _ hmore => exact absurd (Nat.succ.inj hlength) (Nat.ne_of_lt hmore.length_pos)
  | cons hword hne hgap hmore ih =>
    cases hrow' with
    | one => exact absurd (Nat.succ.inj hlength) (Nat.ne_of_gt hmore.length_pos)
    | cons hword' hne' hgap' hmore' =>
      simp only [List.append_assoc] at heq
      obtain ⟨rfl, hbehind⟩ := hword.unique hword' (hgap.endsWord hne _) (hgap'.endsWord hne' _) heq
      obtain ⟨rfl, hrest⟩ :=
        hgap.unique hgap' (hmore.beginsWord _) (hmore'.beginsWord _) hbehind
      obtain ⟨rfl, rfl, rfl⟩ := ih hrest (Nat.succ.inj hlength) hmore'
      exact ⟨rfl, rfl, rfl⟩

/-! ### The words looked ahead to -/

/-- One more word is looked ahead to behind a gap. -/
theorem followers_append (hgap : Unbroken gap) (hword : IsPlain word) (hrest : EndsWord rest)
    (n : Nat) : followers (n + 1) (gap ++ (word.toList ++ rest)) =
      ⟨word, gap.length + word.toList.length⟩ :: followers n rest := by
  rw [followers, gap?_append hgap (hword.beginsWord rest)]
  dsimp only
  rw [List.drop_left, hword.takeWhile hrest, String.ofList_toList, ← List.append_assoc,
    ← List.length_append, List.drop_left]

theorem length_followers_le (n : Nat) (cs : List Char) : (followers n cs).length ≤ n := by
  induction n generalizing cs with
  | zero => rfl
  | succ n ih =>
    rw [followers]
    split
    · exact Nat.zero_le _
    · exact Nat.succ_le_succ (ih _)

/-- **The words that the scanner looks ahead to stand in a row**, and the last is whole. -/
theorem opens_followers {more : List Follower} (hword : IsPlain word) (hcs : EndsWord cs)
    (h : more <+: followers n cs) :
    Opens (word :: more.map (·.word)) (word.toList ++ cs.take (more.foldl (· + ·.reach) 0))
      (cs.drop (more.foldl (· + ·.reach) 0)) := by
  induction more generalizing word cs n with
  | nil =>
    refine ⟨?_, hcs⟩
    rw [List.foldl_nil, List.take_zero, List.append_nil]
    exact .one hword
  | cons f more ih =>
    cases n with
    | zero => simp [followers] at h
    | succ n =>
      cases hgap? : gap? cs with
      | none => simp [followers, hgap?] at h
      | some m =>
        obtain ⟨gap, behind, rfl, -, hgap, hbegins⟩ := append_of_gap? hgap?
        obtain ⟨next, rest, rfl, hnext, hrest⟩ := hbegins.split
        rw [followers_append hgap hnext hrest, List.cons_prefix_cons] at h
        obtain ⟨rfl, hmore⟩ := h
        have hne : gap ≠ [] := by
          rintro rfl
          obtain ⟨c, ds, hds, hc⟩ := hbegins
          rw [hcs c (by rw [List.nil_append, hds]; rfl)] at hc
          cases hc
        obtain ⟨hrow, hwhole⟩ := ih hnext hrest hmore
        rw [Scanner.foldl_reach_cons]
        dsimp only
        rw [← List.append_assoc, ← List.length_append, List.take_length_add_append,
          List.drop_length_add_append, List.append_assoc, ← List.append_assoc]
        exact ⟨.cons hword hne hgap hrow, hwhole⟩

/-- **Words in a row are looked ahead to**, if there are not too many. -/
theorem Opens.followers (h : Opens words row rest) (hlength : words.length ≤ n + 1) :
    ∃ word cs more, IsPlain word ∧ EndsWord cs ∧ row ++ rest = word.toList ++ cs ∧
      more <+: Prose.followers n cs ∧ words = word :: more.map (·.word) := by
  obtain ⟨hrow, hwhole⟩ := h
  induction hrow generalizing n with
  | one hword => exact ⟨_, rest, [], hword, hwhole, rfl, List.nil_prefix, rfl⟩
  | @cons word gap row words hword hne hgap hrow ih =>
    cases n with
    | zero =>
      exfalso
      cases hrow <;> simp at hlength
    | succ n =>
      obtain ⟨next, cs, more, hnext, hcs, heq, hmore, rfl⟩ := ih (Nat.le_of_succ_le_succ hlength)
      refine ⟨word, gap ++ (row ++ rest), ⟨next, gap.length + next.toList.length⟩ :: more, hword,
        hgap.endsWord hne _, by simp, ?_, rfl⟩
      rw [heq, followers_append hgap hnext hcs]
      exact List.cons_prefix_cons.mpr ⟨rfl, hmore⟩

/-- The words looked ahead to, as many as belong to the longest term. -/
theorem isGreatest_termLength (l : Lexicon) (hword : IsPlain word) (hcs : EndsWord cs) :
    IsGreatest (insert 1 (termLengths l (n + 1) (word.toList ++ cs)))
      (termLength l.isTerm word (followers n cs) + 1) := by
  constructor
  · rcases Nat.eq_zero_or_pos (termLength l.isTerm word (followers n cs)) with hzero | hpos
    · rw [hzero]
      exact Set.mem_insert ..
    · have hopens := opens_followers hword hcs
        (List.take_prefix (termLength l.isTerm word (followers n cs)) (followers n cs))
      have hle : termLength l.isTerm word (followers n cs) ≤ (followers n cs).length :=
        termLength_le
      have hbound := length_followers_le n cs
      refine Set.mem_insert_of_mem _ ⟨by omega, by omega, _, _, _, ?_, hopens, ?_, ?_⟩
      · rw [List.append_assoc, List.take_append_drop]
      · rw [List.length_cons, List.length_map, List.length_take_of_le hle]
      · exact isTerm_of_termLength_pos hpos
  · rintro k (rfl | ⟨htwo, hle, words, row, rest, heq, hopens, rfl, hterm⟩)
    · exact Nat.le_add_left ..
    · obtain ⟨word', cs', more, hword', hcs', hsplit, hmore, rfl⟩ := hopens.followers hle
      obtain ⟨rfl, rfl⟩ := hword.unique hword' hcs hcs' (heq.trans hsplit)
      rw [List.length_cons, List.length_map]
      refine Nat.succ_le_succ (Nat.le_of_not_lt fun hlt => ?_)
      have hnot := not_isTerm_of_termLength_lt hlt hmore.length_le
      rw [← List.prefix_iff_eq_take.mp hmore, phrase, hterm] at hnot
      cases hnot

/-! ### The scanner -/

namespace Scanner

variable {l : Lexicon} {s : Scanner} {d : Cursor}

/-- Where a scanner can stand in a source, whatever lexicons it was given. -/
inductive Reached (source : String) (n : Nat) : Scanner → Prop
  | start : Reached source n (ofSource source n)
  | scan {s t : Scanner} {l : Lexicon} {token : Token} (h : Reached source n s)
    (hscan : s.scan l = .ok token t) : Reached source n t

theorem Reached.moreWords {source : String} (h : Reached source n s) : s.moreWords = n - 1 := by
  induction h with
  | start => rfl
  | scan h hscan ih => rw [moreWords_scan hscan, ih]

/-- **The longest term is read**, and the scanner stands behind its last word. -/
theorem readTerm_longest (l : Lexicon) (hbegins : BeginsWord s.cursor.rest) :
    ∃ words row rest, s.cursor.rest = row ++ rest ∧ Opens words row rest ∧
      IsGreatest (insert 1 (termLengths l (s.moreWords + 1) s.cursor.rest)) words.length ∧
      s.readTerm l = (.ofWords words s.cursor.line,
        { s with cursor := ⟨rest, s.cursor.line + row.count '\n'⟩ }) := by
  obtain ⟨word, cs, heq, hword, hcs⟩ := hbegins.split
  have hrun : s.cursor.run isWordChar = word.toList := by
    rw [Cursor.run, heq, hword.takeWhile hcs]
  have hdrop : s.cursor.rest.drop word.toList.length = cs := by rw [heq, List.drop_left]
  let m := termLength l.isTerm word (followers s.moreWords cs)
  let more := (followers s.moreWords cs).take m
  let reach := more.foldl (· + ·.reach) 0
  have hopens : Opens (word :: more.map (·.word)) (word.toList ++ cs.take reach) (cs.drop reach) :=
    opens_followers hword hcs (List.take_prefix m _)
  have hsplit : s.cursor.rest = (word.toList ++ cs.take reach) ++ cs.drop reach := by
    rw [heq, List.append_assoc, List.take_append_drop]
  have hreach : reach ≤ cs.length := foldl_reach_followers s.moreWords m cs
  have hcount : (word :: more.map (·.word)).length = m + 1 := by
    rw [List.length_cons, List.length_map, List.length_take_of_le termLength_le]
  refine ⟨_, _, _, hsplit, hopens, ?_, ?_⟩
  · rw [hcount, heq]
    exact isGreatest_termLength l hword hcs
  · rw [← Cursor.skip_append hsplit, List.length_append, List.length_take_of_le hreach]
    simp only [readTerm, hrun, hdrop, String.ofList_toList]
    rfl

/-- The longest term is the next token where a word comes next. -/
theorem scan_longest (l : Lexicon) (howed : s.owed = none) (hidle : skipIdle s.cursor = .ok () d)
    (hbegins : BeginsWord d.rest) :
    ∃ words row rest, d.rest = row ++ rest ∧ Opens words row rest ∧
      IsGreatest (insert 1 (termLengths l (s.moreWords + 1) d.rest)) words.length ∧
      s.scan l = .ok (.ofWords words d.line)
        { s with cursor := ⟨rest, d.line + row.count '\n'⟩ } := by
  obtain ⟨words, row, rest, hsplit, hopens, hgreatest, hread⟩ :=
    readTerm_longest (s := { s with cursor := d }) l hbegins
  refine ⟨words, row, rest, hsplit, hopens, hgreatest, ?_⟩
  obtain ⟨c, cs, hrest, hc⟩ := hbegins
  rw [scan_of_idle howed hidle, readToken_of_word l hrest hc, hread]

end Scanner

/-- **The longest term is taken.**  Wherever in a source a scanner asks for a token and comes to
a word, it takes the first words there and goes on directly behind the last of them.  Their
number is the greatest one up to the bound for which the words that stand there in a row are a
term of the lexicon, or one if there is none. -/
theorem longest_term_is_taken {source : String} {n : Nat} (hn : 1 ≤ n) {s : Scanner}
    (hs : Scanner.Reached source n s) (l : Lexicon) (howed : s.owed = none) {c : Cursor}
    (hidle : skipIdle s.cursor = .ok () c) (hbegins : BeginsWord c.rest) :
    ∃ words row rest, c.rest = row ++ rest ∧ Opens words row rest ∧
      IsGreatest (insert 1 (termLengths l n c.rest)) words.length ∧
      s.scan l = .ok (.ofWords words c.line)
        { s with cursor := ⟨rest, c.line + row.count '\n'⟩ } := by
  have hmore : s.moreWords + 1 = n := by
    rw [hs.moreWords]
    omega
  have hlongest := Scanner.scan_longest l howed hidle hbegins
  rwa [hmore] at hlongest

/-- Two words on two lines are one term, where the lexicon has it. -/
theorem switched_on_is_one_term :
    let l := Lexicon.standard .english
    let s := Scanner.ofSource "switched\non." 4
    1 ≤ 4 ∧ Scanner.Reached "switched\non." 4 s ∧ s.owed = none ∧
      skipIdle s.cursor = .ok () s.cursor ∧ BeginsWord s.cursor.rest ∧
      ∃ row rest, s.cursor.rest = row ++ rest ∧ Opens ["switched", "on"] row rest ∧
        IsGreatest (insert 1 (termLengths l 4 s.cursor.rest)) 2 ∧
        s.scan l = .ok ⟨.word, "switched on", 1⟩ { s with cursor := ⟨['.'], 2⟩ } := by
  intro l s
  have hreached : Scanner.Reached "switched\non." 4 s := .start
  have hbegins : BeginsWord s.cursor.rest := ⟨'s', _, rfl, by decide⟩
  have hidle : skipIdle s.cursor = .ok () s.cursor := by
    have hrest : s.cursor.rest = 's' :: "witched\non.".toList := rfl
    rw [skipIdle_cons hrest, if_neg (by decide), if_neg (by decide)]
  have hread : s.readTerm l = (⟨.word, "switched on", 1⟩, { s with cursor := ⟨['.'], 2⟩ }) := by
    decide
  have hscan : s.scan l = .ok ⟨.word, "switched on", 1⟩ { s with cursor := ⟨['.'], 2⟩ } := by
    rw [Scanner.scan_of_idle rfl hidle, Scanner.readToken_of_word l (c := 's') rfl (by decide)]
    exact congrArg (fun r : Token × Scanner => EStateM.Result.ok r.1 r.2) hread
  obtain ⟨words, row, rest, hsplit, hopens, hgreatest, htaken⟩ :=
    longest_term_is_taken (by decide) hreached l rfl hidle hbegins
  have htoken : Token.ofWords words s.cursor.line = ⟨.word, "switched on", 1⟩ :=
    (EStateM.Result.ok.inj (htaken.symm.trans hscan)).1
  obtain rfl : words = ["switched", "on"] := by
    rw [← words_ofWords hopens.row.isPlain s.cursor.line, htoken]
    have hplain : ∀ w ∈ ["switched", "on"], IsPlain w := by decide
    exact words_ofWords hplain 1
  exact ⟨by decide, hreached, rfl, hidle, hbegins, row, rest, hsplit, hopens, hgreatest, hscan⟩

end Prose

end Adventure
