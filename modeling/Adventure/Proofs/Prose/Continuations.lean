/-
Sources that go on.

A source that was read to its end can go on with a blank line and more text.  Up to the end
of the first part the scanner sees the same tokens, because nothing that it does for one of
them looks beyond a blank line; where the source ended there is the end of a sentence now,
or there was one already and the blank line belongs to it.  So the story is what it was when
the rest is begun, and the line on which the rest begins does not depend on the rest.

What carries the induction is that the scanner of the longer source trails the one of the
shorter: it has the same text left with the rest behind it, or it stands at the rest while
the other has nothing left but white space.
-/
import Adventure.Proofs.Prose.Lookahead
import Adventure.Proofs.Prose.Homonyms

namespace Adventure.Prose

open Text (Cursor)

variable {cs next : List Char} {c d : Cursor} {n : Nat}

/-! ### A blank line behind a text -/

/-- A text with a blank line and more text behind it. -/
def followedBy (cs next : List Char) : List Char :=
  cs ++ '\n' :: '\n' :: next

/-- Text that begins with a word. -/
def BeginsWord (cs : List Char) : Prop :=
  ∃ c rest, cs = c :: rest ∧ isWordChar c = true

theorem drop_followedBy (next : List Char) (h : n ≤ cs.length) :
    (followedBy cs next).drop n = followedBy (cs.drop n) next :=
  List.drop_append_of_le_length h

/-- A run of characters that are no line breaks ends within the text. -/
theorem takeWhile_followedBy {p : Char → Bool} (hp : p '\n' = false) (cs next : List Char) :
    (followedBy cs next).takeWhile p = cs.takeWhile p := by
  induction cs with
  | nil => simp [followedBy, hp]
  | cons c cs ih =>
    rw [followedBy, List.cons_append, List.takeWhile_cons, List.takeWhile_cons]
    exact congrArg (fun rest => if p c then c :: rest else []) ih

theorem blankLineAhead_followedBy (cs next : List Char) :
    blankLineAhead (followedBy cs next) = (cs.all isSpace || blankLineAhead cs) := by
  have hbreak : isSpace '\n' = false := by decide
  induction cs with
  | nil => simp [followedBy, blankLineAhead, hbreak]
  | cons c cs ih =>
    rw [blankLineAhead, followedBy, List.cons_append, List.dropWhile_cons, blankLineAhead,
      List.dropWhile_cons, List.all_cons]
    cases hc : isSpace c with
    | true =>
      rw [if_pos rfl, if_pos rfl, Bool.true_and]
      exact ih
    | false => simp

/-- A line break before spaces only, or anything else, separates words as it did. -/
theorem isGap_followedBy (c : Char) (cs next : List Char) :
    isGap c (followedBy cs next) = (isGap c cs && !(c = '\n' && cs.all isSpace)) := by
  rw [isGap, isGap, blankLineAhead_followedBy]
  by_cases hc : c = '\n'
  · subst hc
    have hbreak : isSpace '\n' = false := by decide
    cases blankLineAhead cs <;> cases cs.all isSpace <;> simp [hbreak]
  · simp [hc]

theorem gap?_of_spaces (h : cs.all isSpace = true) : gap? cs = none := by
  induction cs with
  | nil => rfl
  | cons c cs ih =>
    rw [List.all_cons, Bool.and_eq_true] at h
    rw [gap?, isGap, h.1, Bool.true_or, if_pos rfl, ih h.2]
    rfl

/-- No word follows behind a blank line. -/
theorem gap?_followedBy (cs next : List Char) : gap? (followedBy cs next) = gap? cs := by
  induction cs with
  | nil =>
    have hword : isWordChar '\n' = false := by decide
    change gap? ('\n' :: '\n' :: next) = none
    rw [gap?, if_neg (by simp [isGap, isSpace, blankLineAhead]), if_neg (by simp [hword])]
  | cons c cs ih =>
    rw [followedBy, List.cons_append, ← followedBy, gap?, gap?, isGap_followedBy, ih]
    by_cases hlast : c = '\n' ∧ cs.all isSpace = true
    · obtain ⟨rfl, hspaces⟩ := hlast
      have hword : isWordChar '\n' = false := by decide
      rw [gap?_of_spaces hspaces]
      simp [hspaces, hword]
    · have hsame : (decide (c = '\n') && cs.all isSpace) = false := by
        simpa using hlast
      rw [hsame, Bool.not_false, Bool.and_true]

/-- **The words behind a word are the same**, however many are looked for. -/
theorem followers_followedBy (n : Nat) (cs next : List Char) :
    followers n (followedBy cs next) = followers n cs := by
  have hword : isWordChar '\n' = false := by decide
  induction n generalizing cs with
  | zero => rfl
  | succ n ih =>
    rw [followers, followers, gap?_followedBy]
    cases hgap : gap? cs with
    | none => rfl
    | some gap =>
      obtain ⟨c, rest, hdrop, -⟩ := drop_of_gap? hgap
      have hle : gap ≤ cs.length := by
        have := congrArg List.length hdrop
        simp only [List.length_drop, List.length_cons] at this
        omega
      have hreach : gap + ((cs.drop gap).takeWhile isWordChar).length ≤ cs.length := by
        have := (List.takeWhile_prefix (l := cs.drop gap) isWordChar).length_le
        rw [List.length_drop] at this
        omega
      dsimp only
      rw [drop_followedBy next hle, takeWhile_followedBy hword, drop_followedBy next hreach, ih]

/-- What words that follow reach over is there. -/
theorem foldl_reach_followers (n k : Nat) (cs : List Char) :
    ((followers n cs).take k).foldl (· + ·.reach) 0 ≤ cs.length := by
  induction n generalizing k cs with
  | zero => simp [followers]
  | succ n ih =>
    rw [followers]
    cases hgap : gap? cs with
    | none => simp
    | some gap =>
      cases k with
      | zero => simp
      | succ k =>
        obtain ⟨c, rest, hdrop, -⟩ := drop_of_gap? hgap
        have hrest := ih k (cs.drop (gap + ((cs.drop gap).takeWhile isWordChar).length))
        have hlength := congrArg List.length hdrop
        have hword := (List.takeWhile_prefix (l := cs.drop gap) isWordChar).length_le
        dsimp only
        rw [List.take_succ_cons, Scanner.foldl_reach_cons]
        simp only [List.length_drop, List.length_cons] at hrest hlength hword ⊢
        omega

/-! ### Cursors -/

/-- A cursor in a text with a blank line and more text behind it. -/
def continued (next : List Char) (c : Cursor) : Cursor :=
  ⟨followedBy c.rest next, c.line⟩

/-- The line on which the text behind the blank line begins. -/
def lineBehind (c : Cursor) : Nat :=
  c.line + c.rest.count '\n' + 2

theorem skip_continued (next : List Char) (h : n ≤ c.rest.length) :
    (continued next c).skip n = continued next (c.skip n) := by
  have htake : (followedBy c.rest next).take n = c.rest.take n :=
    List.take_append_of_le_length h
  rw [Cursor.skip, continued, drop_followedBy next h, htake]
  rfl

theorem run_continued {p : Char → Bool} (hp : p '\n' = false) (next : List Char) (c : Cursor) :
    (continued next c).run p = c.run p :=
  takeWhile_followedBy hp c.rest next

theorem length_run_le (p : Char → Bool) (c : Cursor) : (c.run p).length ≤ c.rest.length :=
  (List.takeWhile_prefix p).length_le

@[simp] theorem lineBehind_skip (c : Cursor) (n : Nat) : lineBehind (c.skip n) = lineBehind c := by
  have hcount : c.rest.count '\n' = (c.rest.take n).count '\n' + (c.rest.drop n).count '\n' := by
    rw [← List.count_append, List.take_append_drop]
  simp only [lineBehind, Cursor.skip]
  omega

@[simp] theorem lineBehind_skipWhile (c : Cursor) (p : Char → Bool) :
    lineBehind (c.skipWhile p) = lineBehind c :=
  lineBehind_skip c _

/-- Behind nothing but white space, white space leads to the text behind the blank line. -/
theorem skipBlank_continued_of_all (hnext : BeginsWord next)
    (hblank : c.rest.all Text.isBlank = true) :
    (continued next c).skipWhile Text.isBlank = ⟨next, lineBehind c⟩ := by
  obtain ⟨d, ds, rfl, hword⟩ := hnext
  have hbreak : Text.isBlank '\n' = true := by decide
  have hrun : (continued (d :: ds) c).run Text.isBlank = c.rest ++ ['\n', '\n'] := by
    rw [Cursor.run, continued, followedBy,
      List.takeWhile_append_of_pos (List.all_eq_true.mp hblank)]
    simp [hbreak, not_isBlank_of_isWordChar hword]
  have hsplit : followedBy c.rest (d :: ds) = (c.rest ++ ['\n', '\n']) ++ d :: ds := by
    simp [followedBy]
  rw [Cursor.skipWhile, hrun, continued, Cursor.skip, hsplit, List.drop_left, List.take_left,
    List.count_append]
  rfl

theorem skipBlank_continued_of_not_all (next : List Char)
    (hblank : c.rest.all Text.isBlank = false) :
    (continued next c).skipWhile Text.isBlank = continued next (c.skipWhile Text.isBlank) := by
  have hrun : (continued next c).run Text.isBlank = c.run Text.isBlank := by
    rw [Cursor.run, continued, followedBy, List.takeWhile_append, if_neg, Cursor.run]
    intro hlength
    have hall : c.rest.takeWhile Text.isBlank = c.rest :=
      (List.takeWhile_prefix Text.isBlank).eq_of_length hlength
    rw [List.takeWhile_eq_self_iff] at hall
    rw [List.all_eq_true.mpr hall] at hblank
    cases hblank
  rw [Cursor.skipWhile, hrun, skip_continued next (length_run_le _ c)]
  rfl

/-! ### Between words -/

/-- Nothing is left but what stands between words. -/
def Idle (c : Cursor) : Prop :=
  ∃ d, skipIdle c = .ok () d ∧ d.rest = []

theorem idle_of_nil (h : c.rest = []) : Idle c :=
  ⟨c, skipIdle_nil h, h⟩

theorem idle_of_gap {first : Char} (h : c.rest = first :: cs) (hgap : isGap first cs = true)
    (hidle : Idle (c.skip 1)) : Idle c := by
  obtain ⟨d, hd, hrest⟩ := hidle
  refine ⟨d, ?_, hrest⟩
  rw [skipIdle_cons h, if_pos hgap]
  exact hd

theorem rest_skip_one {first : Char} (h : c.rest = first :: cs) : (c.skip 1).rest = cs := by
  rw [Cursor.skip, h]
  rfl

theorem idle_of_spaces (h : c.rest.all isSpace = true) : Idle c := by
  generalize hrest : c.rest = cs at h
  induction cs generalizing c with
  | nil => exact idle_of_nil hrest
  | cons first cs ih =>
    rw [List.all_cons, Bool.and_eq_true] at h
    exact idle_of_gap hrest (by rw [isGap, h.1, Bool.true_or]) (ih (rest_skip_one hrest) h.2)

theorem isBlank_of_isSpace {c : Char} (h : isSpace c = true) : Text.isBlank c = true := by
  simp only [isSpace, Bool.or_eq_true, decide_eq_true_eq] at h
  rcases h with (rfl | rfl) | rfl
  · decide
  · decide
  · decide

theorem all_isBlank_of_spaces (h : cs.all isSpace = true) : cs.all Text.isBlank = true :=
  List.all_eq_true.mpr fun c hc => isBlank_of_isSpace (List.all_eq_true.mp h c hc)

/-- Text behind a blank line changes nothing of where a comment ends. -/
theorem past?_continued (next : List Char) (h : c.past? "]" = some d) :
    (continued next c).past? "]" = some (continued next d) := by
  obtain ⟨n, hn, rfl⟩ := Option.map_eq_some_iff.mp h
  have hposition : ∀ {cs : List Char} {n : Nat}, Text.position? "]".toList cs = some n →
      Text.position? "]".toList (followedBy cs next) = some n ∧ n < cs.length := by
    intro cs
    induction cs with
    | nil =>
      intro n hn
      cases hn
    | cons c cs ih =>
      intro n hn
      rw [position?_bracket] at hn
      rw [followedBy, List.cons_append, position?_bracket]
      split at hn
      · next hend =>
        rw [if_pos hend]
        exact ⟨hn, Option.some.inj hn ▸ Nat.zero_lt_succ _⟩
      · next hend =>
        obtain ⟨m, hm, rfl⟩ := Option.map_eq_some_iff.mp hn
        obtain ⟨hm', hlt⟩ := ih hm
        rw [if_neg hend, ← followedBy, hm']
        exact ⟨rfl, Nat.succ_lt_succ hlt⟩
  obtain ⟨hn', hlt⟩ := hposition hn
  have hle : n + "]".length ≤ c.rest.length := hlt
  rw [← skip_continued next hle, Cursor.past?, continued, hn']
  rfl

theorem lineBehind_past? (h : c.past? "]" = some d) : lineBehind d = lineBehind c := by
  obtain ⟨n, -, rfl⟩ := Option.map_eq_some_iff.mp h
  exact lineBehind_skip c _

/-- **Between words the longer text is passed over as the shorter one is.**  Where the shorter
text ends, the longer one has a line break that ends the sentence. -/
theorem skipIdle_continued (hnext : BeginsWord next) (h : skipIdle c = .ok () d) :
    (d.rest ≠ [] → skipIdle (continued next c) = .ok () (continued next d) ∧
      lineBehind d = lineBehind c) ∧
    (d.rest = [] → ∃ e ds, skipIdle (continued next c) = .ok () e ∧ e.rest = '\n' :: ds ∧
      e.skipWhile Text.isBlank = ⟨next, lineBehind c⟩) := by
  -- the line break at which the longer text stops
  have hstop : ∀ {c : Cursor} {ds : List Char}, followedBy c.rest next = '\n' :: ds →
      blankLineAhead ds = true → c.rest.all Text.isBlank = true →
      ∃ e ds, skipIdle (continued next c) = .ok () e ∧ e.rest = '\n' :: ds ∧
        e.skipWhile Text.isBlank = ⟨next, lineBehind c⟩ := by
    intro c ds hrest hahead hblank
    refine ⟨continued next c, ds, ?_, hrest, skipBlank_continued_of_all hnext hblank⟩
    rw [skipIdle_cons hrest, if_neg (by simp [isGap, isSpace, hahead]), if_neg (by decide)]
  fun_induction skipIdle c with
  | case1 c hrest =>
    obtain rfl := (EStateM.Result.ok.inj h).2
    have hbreak : followedBy c.rest next = '\n' :: '\n' :: next := by
      rw [hrest]
      rfl
    refine ⟨fun hne => absurd hrest hne, fun _ => hstop hbreak ?_ ?_⟩
    · simp [blankLineAhead, isSpace]
    · rw [hrest]
      rfl
  | case2 c first cs hrest hgap ih =>
    have hlength : 1 ≤ c.rest.length := by
      rw [hrest]
      exact Nat.succ_pos _
    have hfollowed : (continued next c).rest = first :: followedBy cs next := by
      rw [continued, hrest]
      rfl
    by_cases hlast : first = '\n' ∧ cs.all isSpace = true
    · obtain ⟨rfl, hspaces⟩ := hlast
      obtain ⟨e, he, hend⟩ := idle_of_spaces (c := c.skip 1)
        (by rw [rest_skip_one hrest]; exact hspaces)
      rw [h] at he
      obtain rfl := (EStateM.Result.ok.inj he).2
      refine ⟨fun hne => absurd hend hne, fun _ => hstop hfollowed ?_ ?_⟩
      · rw [blankLineAhead_followedBy, hspaces, Bool.true_or]
      · rw [hrest, List.all_cons, all_isBlank_of_spaces hspaces]
        decide
    · have hsame : isGap first (followedBy cs next) = true := by
        have hlast : (decide (first = '\n') && cs.all isSpace) = false := by simpa using hlast
        rw [isGap_followedBy, hgap, hlast]
        rfl
      rw [skipIdle_cons hfollowed, if_pos hsame, skip_continued next hlength]
      rw [← lineBehind_skip c 1]
      exact ih h
  | case3 => cases h
  | case4 c cs e hpast hrest hgap ih =>
    have hfollowed : (continued next c).rest = '[' :: followedBy cs next := by
      rw [continued, hrest]
      rfl
    rw [skipIdle_cons hfollowed, if_neg (by simp [isGap, isSpace]), if_pos rfl,
      past?_continued next hpast, ← lineBehind_past? hpast]
    exact ih h
  | case5 c first cs hrest hgap hfirst =>
    obtain rfl := (EStateM.Result.ok.inj h).2
    have hfollowed : (continued next c).rest = first :: followedBy cs next := by
      rw [continued, hrest]
      rfl
    refine ⟨fun _ => ⟨?_, rfl⟩, fun hnil => absurd hnil (by simp [hrest])⟩
    rw [skipIdle_cons hfollowed, if_neg, if_neg hfirst]
    rw [isGap_followedBy]
    simp [hgap]

/-- Spaces before what is idle are idle as well. -/
theorem idle_of_skipSpaces (h : Idle (c.skipWhile isSpace)) : Idle c := by
  generalize hrest : c.rest = cs
  induction cs generalizing c with
  | nil => exact idle_of_nil hrest
  | cons first cs ih =>
    cases hfirst : isSpace first with
    | false =>
      have hrun : c.run isSpace = [] := by simp [Cursor.run, hrest, hfirst]
      have hnone : c.skipWhile isSpace = c := by simp [Cursor.skipWhile, hrun, Cursor.skip]
      rwa [hnone] at h
    | true =>
      refine idle_of_gap hrest (by rw [isGap, hfirst, Bool.true_or]) (ih ?_ (rest_skip_one hrest))
      have hone : c.skipWhile isSpace = (c.skip 1).skipWhile isSpace := by
        rw [Cursor.skipWhile, Cursor.skipWhile, Cursor.skip_skip, Cursor.run, Cursor.run,
          rest_skip_one hrest, hrest, List.takeWhile_cons, if_pos hfirst, List.length_cons,
          Nat.add_comm]
      rwa [← hone]

theorem rest_skipWhile (c : Cursor) (p : Char → Bool) :
    (c.skipWhile p).rest = c.rest.dropWhile p := by
  have hsplit : c.run p ++ c.rest.dropWhile p = c.rest := List.takeWhile_append_dropWhile
  calc (c.skipWhile p).rest = (c.run p ++ c.rest.dropWhile p).drop (c.run p).length := by
        rw [hsplit]
        rfl
    _ = c.rest.dropWhile p := List.drop_left

/-- **Past the blank lines behind a sentence** the longer text goes on as the shorter one does,
or the blank line was the next, and nothing else is left of the shorter. -/
theorem pastParagraph_continued (hnext : BeginsWord next) (c : Cursor) :
    pastParagraph (continued next c) = continued next (pastParagraph c) ∧
        lineBehind (pastParagraph c) = lineBehind c ∨
      pastParagraph (continued next c) = ⟨next, lineBehind c⟩ ∧ Idle (pastParagraph c) := by
  have hspace : (continued next c).skipWhile isSpace = continued next (c.skipWhile isSpace) := by
    rw [Cursor.skipWhile, run_continued (by decide), skip_continued next (length_run_le _ c)]
    rfl
  have hline := lineBehind_skipWhile c isSpace
  have hidle : Idle (c.skipWhile isSpace) → Idle c := idle_of_skipSpaces
  unfold pastParagraph
  dsimp only
  rw [hspace]
  generalize c.skipWhile isSpace = d at hline hidle ⊢
  cases hrest : d.rest with
  | nil =>
    have hfollowed : (continued next d).rest = '\n' :: '\n' :: next := by
      rw [continued, hrest]
      rfl
    have hahead : blankLineAhead ('\n' :: next) = true := by simp [blankLineAhead, isSpace]
    simp only [hfollowed, hahead, if_true]
    rw [skipBlank_continued_of_all hnext (by rw [hrest]; rfl), hline]
    exact .inr ⟨rfl, hidle (idle_of_nil hrest)⟩
  | cons first ds =>
    have hfollowed : (continued next d).rest = first :: followedBy ds next := by
      rw [continued, hrest]
      rfl
    by_cases hfirst : first = '\n'
    · subst hfirst
      simp only [hfollowed, blankLineAhead_followedBy]
      cases hahead : blankLineAhead ds with
      | true =>
        rw [Bool.or_true, if_pos rfl, if_pos rfl]
        cases hblank : d.rest.all Text.isBlank with
        | true =>
          rw [skipBlank_continued_of_all hnext hblank, hline]
          refine .inr ⟨rfl, idle_of_nil ?_⟩
          rw [rest_skipWhile, List.dropWhile_eq_nil_iff]
          exact List.all_eq_true.mp hblank
        | false =>
          rw [skipBlank_continued_of_not_all next hblank, lineBehind_skipWhile]
          exact .inl ⟨rfl, hline⟩
      | false =>
        rw [Bool.or_false, if_neg Bool.false_ne_true]
        cases hspaces : ds.all isSpace with
        | true =>
          have hblank : d.rest.all Text.isBlank = true := by
            rw [hrest, List.all_cons, all_isBlank_of_spaces hspaces]
            decide
          rw [if_pos rfl, skipBlank_continued_of_all hnext hblank, hline]
          refine .inr ⟨rfl, hidle (idle_of_gap hrest (by simp [isGap, hahead]) ?_)⟩
          exact idle_of_spaces (by rw [rest_skip_one hrest]; exact hspaces)
        | false =>
          rw [if_neg Bool.false_ne_true]
          exact .inl ⟨rfl, rfl⟩
    · simp only [hfollowed]
      split
      · next heq => exact absurd (List.cons.inj heq).1 hfirst
      · split
        · next heq => exact absurd (List.cons.inj heq).1 hfirst
        · exact .inl ⟨rfl, rfl⟩

/-! ### Tokens -/

namespace Scanner

variable {s s' t : Scanner} {l : Lexicon} {token : Token} {line : Nat}

/-- A scanner in a text with a blank line and more text behind it. -/
def continued (next : List Char) (s : Scanner) : Scanner :=
  { s with cursor := Prose.continued next s.cursor }

/-- A scanner that stands at the text behind the blank line. -/
def beyond (next : List Char) (line : Nat) (s : Scanner) : Scanner :=
  { s with cursor := ⟨next, line⟩ }

/-- The scanner of the longer text trails the one of the shorter within a sentence: it has the
rest still before it, or stands at it and owes the end of the sentence. -/
inductive Trails (next : List Char) (line : Nat) : Scanner → Scanner → Prop
  | within {s : Scanner} (hline : lineBehind s.cursor = line) : Trails next line s (s.continued next)
  | owing {s : Scanner} (howed : s.owed.isSome) (hidle : Idle s.cursor) :
    Trails next line s (s.beyond next line)

/-- Between two sentences it may also stand at the rest, with nothing left of the shorter. -/
inductive Reaches (next : List Char) (line : Nat) : Scanner → Scanner → Prop
  | trails {s s' : Scanner} (h : Trails next line s s') : Reaches next line s s'
  | beyond {s : Scanner} (howed : s.owed = none) (hidle : Idle s.cursor) :
    Reaches next line s (s.beyond next line)

theorem readTerm_continued (next : List Char) (s : Scanner) (l : Lexicon) :
    (s.continued next).readTerm l = ((s.readTerm l).1, (s.readTerm l).2.continued next) := by
  have hrun : (s.continued next).cursor.run isWordChar = s.cursor.run isWordChar :=
    run_continued (by decide) next s.cursor
  have hrest : (s.continued next).cursor.rest.drop (s.cursor.run isWordChar).length =
      followedBy (s.cursor.rest.drop (s.cursor.run isWordChar).length) next :=
    drop_followedBy next (length_run_le _ s.cursor)
  have hmore : (s.continued next).moreWords = s.moreWords := rfl
  simp only [readTerm, hrun, hrest, hmore, followers_followedBy]
  refine Prod.ext rfl ?_
  have hreach := foldl_reach_followers s.moreWords
    (termLength l.isTerm (String.ofList (s.cursor.run isWordChar)) (followers s.moreWords
      (s.cursor.rest.drop (s.cursor.run isWordChar).length)))
    (s.cursor.rest.drop (s.cursor.run isWordChar).length)
  have hle := length_run_le isWordChar s.cursor
  rw [List.length_drop] at hreach
  simp only [continued]
  rw [skip_continued next (by omega)]

/-- Behind the end of a sentence. -/
theorem reaches_pastParagraph (hnext : BeginsWord next) (s : Scanner) (c : Cursor)
    (howed : s.owed = none) :
    Reaches next (lineBehind c) { s with cursor := pastParagraph c }
      { s with cursor := pastParagraph (Prose.continued next c) } := by
  rcases pastParagraph_continued hnext c with ⟨heq, hline⟩ | ⟨heq, hidle⟩
  · rw [heq]
    exact .trails (.within (s := { s with cursor := pastParagraph c }) hline)
  · rw [heq]
    exact .beyond (s := { s with cursor := pastParagraph c }) howed hidle

theorem trails_pastParagraph (hnext : BeginsWord next) (s : Scanner) (c : Cursor)
    (owed : Token) :
    Trails next (lineBehind c) { s with cursor := pastParagraph c, owed := some owed }
      { s with cursor := pastParagraph (Prose.continued next c), owed := some owed } := by
  rcases pastParagraph_continued hnext c with ⟨heq, hline⟩ | ⟨heq, hidle⟩
  · rw [heq]
    exact .within (s := { s with cursor := pastParagraph c, owed := some owed }) hline
  · rw [heq]
    exact .owing (s := { s with cursor := pastParagraph c, owed := some owed }) rfl hidle

/-- Text between quotes ends where it ended. -/
theorem readQuoted_continued (hnext : BeginsWord next) {cs : List Char}
    (hrest : s.cursor.rest = '"' :: cs) (h : s.readQuoted = .ok token t) :
    ∃ t', (s.continued next).readQuoted = .ok token t' ∧
      Trails next (lineBehind s.cursor) t t' := by
  have hone : 1 ≤ s.cursor.rest.length := by
    rw [hrest]
    exact Nat.succ_pos _
  have hinside : (s.continued next).cursor.skip 1 = Prose.continued next (s.cursor.skip 1) :=
    skip_continued next hone
  have hbehind : lineBehind (s.cursor.skip 1) = lineBehind s.cursor := lineBehind_skip _ _
  have hline : (s.continued next).cursor.line = s.cursor.line := rfl
  unfold readQuoted at h ⊢
  rw [hinside, hline]
  rw [← hbehind]
  generalize s.cursor.skip 1 = inside at h ⊢
  dsimp only at h ⊢
  split at h
  · cases h
  · next hclosed =>
    have hrun : (Prose.continued next inside).run (· ≠ '"') = inside.run (· ≠ '"') := by
      rw [Cursor.run, Prose.continued, followedBy, List.takeWhile_append]
      exact if_neg hclosed
    have hlt : (inside.run (· ≠ '"')).length + 1 ≤ inside.rest.length := by
      have := length_run_le (· ≠ '"') inside
      omega
    have hlength : (inside.run (· ≠ '"')).length ≠ (Prose.continued next inside).rest.length := by
      simp only [Prose.continued, followedBy, List.length_append]
      omega
    rw [hrun, if_neg hlength, skip_continued next hlt]
    obtain ⟨rfl, rfl⟩ := EStateM.Result.ok.inj h
    refine ⟨_, rfl, ?_⟩
    rw [← lineBehind_skip inside ((inside.run (· ≠ '"')).length + 1)]
    split
    · exact trails_pastParagraph hnext s _ _
    · exact .within (s := { s with cursor := _ }) rfl

/-- **A token of the shorter text is one of the longer**, and the scanners stay together. -/
theorem readToken_continued (hnext : BeginsWord next) (howed : s.owed = none)
    (h : s.readToken l = .ok token t) (hkind : token.kind ≠ .finish) :
    ∃ t', (s.continued next).readToken l = .ok token t' ∧
      (Trails next (lineBehind s.cursor) t t' ∨
        token.kind = .stop ∧ Reaches next (lineBehind s.cursor) t t') := by
  cases hrest : s.cursor.rest with
  | nil =>
    unfold readToken at h
    rw [hrest] at h
    obtain ⟨rfl, -⟩ := EStateM.Result.ok.inj h
    exact absurd rfl hkind
  | cons c cs =>
    have hfollowed : (s.continued next).cursor.rest = c :: followedBy cs next := by
      rw [continued, Prose.continued, hrest]
      rfl
    cases hword : isWordChar c with
    | true =>
      rw [readToken_of_word l hrest hword] at h
      rw [readToken_of_word l hfollowed hword, readTerm_continued]
      obtain ⟨rfl, rfl⟩ := EStateM.Result.ok.inj h
      exact ⟨_, rfl, .inl (.within (lineBehind_skip _ _))⟩
    | false =>
      have hone : 1 ≤ s.cursor.rest.length := by
        rw [hrest]
        exact Nat.succ_pos _
      have hskip : (s.continued next).cursor.skip 1 = Prose.continued next (s.cursor.skip 1) :=
        skip_continued next hone
      have hline : (s.continued next).cursor.line = s.cursor.line := rfl
      have hbehind : lineBehind (s.cursor.skip 1) = lineBehind s.cursor := lineBehind_skip _ _
      unfold readToken at h ⊢
      simp only [hrest] at h
      simp only [hfollowed, hline, hskip]
      cases hmark : TokenKind.ofMark? c with
      | some kind =>
        simp only [hmark] at h
        obtain ⟨rfl, rfl⟩ := EStateM.Result.ok.inj h
        exact ⟨_, rfl, .inl (.within (s := { s with cursor := s.cursor.skip 1 }) hbehind)⟩
      | none =>
        simp only [hmark] at h
        dsimp only
        by_cases hdot : c = '.'
        · rw [if_pos hdot] at h ⊢
          obtain ⟨rfl, rfl⟩ := EStateM.Result.ok.inj h
          rw [← hbehind]
          exact ⟨_, rfl, .inr ⟨rfl, reaches_pastParagraph hnext s _ howed⟩⟩
        rw [if_neg hdot] at h ⊢
        by_cases hbreak : c = '\n'
        · rw [if_pos hbreak] at h ⊢
          obtain ⟨rfl, rfl⟩ := EStateM.Result.ok.inj h
          refine ⟨_, rfl, .inr ⟨rfl, ?_⟩⟩
          have hcursor : (s.continued next).cursor = Prose.continued next s.cursor := rfl
          rw [hcursor]
          cases hblank : s.cursor.rest.all Text.isBlank with
          | true =>
            rw [skipBlank_continued_of_all hnext hblank]
            refine .beyond (s := { s with cursor := s.cursor.skipWhile Text.isBlank }) howed
              (idle_of_nil ?_)
            rw [rest_skipWhile, List.dropWhile_eq_nil_iff]
            exact List.all_eq_true.mp hblank
          | false =>
            rw [skipBlank_continued_of_not_all next hblank]
            exact .trails (.within (s := { s with cursor := s.cursor.skipWhile Text.isBlank })
              (lineBehind_skipWhile _ _))
        rw [if_neg hbreak] at h ⊢
        by_cases hquote : c = '"'
        · rw [if_pos hquote] at h ⊢
          obtain ⟨t', ht', htrails⟩ := readQuoted_continued hnext (hquote ▸ hrest) h
          exact ⟨t', ht', .inl htrails⟩
        rw [if_neg hquote, if_neg (by simp [hword])] at h
        cases h

theorem kind_readTerm (s : Scanner) (l : Lexicon) :
    (s.readTerm l).1.kind = .ofWord (s.readTerm l).1.text := by
  simp only [readTerm]

/-- Where the source ends there is nothing left. -/
theorem rest_of_finish (h : s.readToken l = .ok token t) (hkind : token.kind = .finish) :
    s.cursor.rest = [] := by
  cases hrest : s.cursor.rest with
  | nil => rfl
  | cons c cs =>
    exfalso
    cases hword : isWordChar c with
    | true =>
      rw [readToken_of_word l hrest hword] at h
      obtain ⟨rfl, -⟩ := EStateM.Result.ok.inj h
      rw [kind_readTerm] at hkind
      exact TokenKind.ofWord_ne_finish _ hkind
    | false =>
      unfold readToken at h
      simp only [hrest] at h
      cases hmark : TokenKind.ofMark? c with
      | some kind =>
        simp only [hmark] at h
        obtain ⟨rfl, -⟩ := EStateM.Result.ok.inj h
        rw [show kind = .finish from hkind] at hmark
        unfold TokenKind.ofMark? at hmark
        split at hmark <;> cases hmark
      | none =>
        simp only [hmark, hword] at h
        split at h
        · obtain ⟨rfl, -⟩ := EStateM.Result.ok.inj h
          cases hkind
        split at h
        · obtain ⟨rfl, -⟩ := EStateM.Result.ok.inj h
          cases hkind
        split at h
        · unfold readQuoted at h
          dsimp only at h
          split at h
          · cases h
          · obtain ⟨rfl, -⟩ := EStateM.Result.ok.inj h
            cases hkind
        · cases h

/-- **What follows in the shorter text follows in the longer.** -/
theorem scan_continued (hnext : BeginsWord next) (hs : Trails next line s s') (hsound : s.Sound)
    (h : s.scan l = .ok token t) (hkind : token.kind ≠ .finish) :
    ∃ t', s'.scan l = .ok token t' ∧
      (Trails next line t t' ∨ token.kind = .stop ∧ Reaches next line t t') := by
  cases hs with
  | owing howed hidle =>
    obtain ⟨owed, howed⟩ := Option.isSome_iff_exists.mp howed
    rw [scan_of_owed howed] at h
    obtain ⟨rfl, rfl⟩ := EStateM.Result.ok.inj h
    refine ⟨_, scan_of_owed (s := s.beyond next line) howed, .inr ⟨hsound _ howed, ?_⟩⟩
    exact .beyond (s := { s with owed := none }) rfl hidle
  | within hline =>
    cases howed : s.owed with
    | some owed =>
      rw [scan_of_owed howed] at h
      obtain ⟨rfl, rfl⟩ := EStateM.Result.ok.inj h
      refine ⟨_, scan_of_owed (s := s.continued next) howed, .inl ?_⟩
      exact .within (s := { s with owed := none }) hline
    | none =>
      cases hidle : skipIdle s.cursor with
      | error e c =>
        rw [scan, howed] at h
        simp only [hidle] at h
        cases h
      | ok _ c =>
        rw [scan_of_idle howed hidle] at h
        have hrest : c.rest ≠ [] := by
          intro hnil
          unfold readToken at h
          simp only [hnil] at h
          obtain ⟨rfl, -⟩ := EStateM.Result.ok.inj h
          exact hkind rfl
        obtain ⟨hidle', hbehind⟩ := (skipIdle_continued hnext hidle).1 hrest
        rw [scan_of_idle (s := s.continued next) howed hidle', ← hline, ← hbehind]
        exact readToken_continued (s := { s with cursor := c }) hnext howed h hkind

/-- **Where the shorter text ends the longer one has the end of a sentence.** -/
theorem scan_finish_continued (hnext : BeginsWord next) (hs : Trails next line s s')
    (hsound : s.Sound) (h : s.scan l = .ok token t) (hkind : token.kind = .finish) :
    ∃ stop, stop.kind = .stop ∧ s'.scan l = .ok stop ⟨⟨next, line⟩, s.moreWords, none⟩ := by
  have hnone : s.owed = none := by
    rw [Option.eq_none_iff_forall_ne_some]
    intro owed howed
    rw [scan_of_owed howed] at h
    obtain ⟨rfl, -⟩ := EStateM.Result.ok.inj h
    rw [hsound _ howed] at hkind
    cases hkind
  cases hs with
  | owing howed hidle =>
    rw [hnone] at howed
    cases howed
  | within hline =>
    cases hidle : skipIdle s.cursor with
    | error e c =>
      rw [scan, hnone] at h
      simp only [hidle] at h
      cases h
    | ok _ c =>
      rw [scan_of_idle hnone hidle] at h
      obtain ⟨e, ds, he, hbreak, hend⟩ :=
        (skipIdle_continued hnext hidle).2 (rest_of_finish h hkind)
      refine ⟨⟨.stop, "\n\n", e.line⟩, rfl, ?_⟩
      have hmark : TokenKind.ofMark? '\n' = none := rfl
      rw [scan_of_idle (s := s.continued next) hnone he, readToken]
      simp only [hbreak, hmark, if_neg (show '\n' ≠ '.' by decide), if_pos, hend, hline]
      rw [continued, hnone]

end Scanner

end Adventure.Prose
