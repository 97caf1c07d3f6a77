/-
The lines of prose.

What comes before a token is spaces, single line breaks and comments; then the token stands in
the text as it is written, and behind it perhaps a blank line.  Only the period that quoted text
brings with it is not written where it is handed out: it was passed before, and its place is
the quote that closes the text.

Each reader moves its cursor over what it read, whatever it looked at beyond that.  So the line
of a token is told by what lies before its first character, and the line of the scanner by what
it has passed.
-/
import Adventure.Proofs.Passages
import Adventure.Proofs.Prose.Asides

namespace Adventure.Prose

open Text (Cursor)

variable {c d : Cursor} {cs before place passed rest : List Char}

/-! ### What is written -/

/-- What is passed over before a token: spaces and single line breaks, and comments, each up to
its first closing bracket. -/
inductive Idling : List Char → List Char → Prop
  | nil {rest : List Char} : Idling [] rest
  | gap {ch : Char} {cs rest : List Char} (hgap : isGap ch (cs ++ rest) = true)
    (h : Idling cs rest) : Idling (ch :: cs) rest
  | comment {inside cs rest : List Char} (hinside : ']' ∉ inside) (h : Idling cs rest) :
    Idling ('[' :: inside ++ [']'] ++ cs) rest

/-- How a token is written, before the rest of the text. -/
inductive Token.Written : Token → List Char → List Char → Prop
  | finish {line : Nat} : Written ⟨.finish, "", line⟩ [] []
  | mark {ch : Char} {kind : TokenKind} {line : Nat} {rest : List Char}
    (h : TokenKind.ofMark? ch = some kind) : Written ⟨kind, String.ofList [ch], line⟩ [ch] rest
  | period {line : Nat} {rest : List Char} : Written ⟨.stop, ".", line⟩ ['.'] rest
  | blankLine {line : Nat} {rest : List Char} (h : LineBlank rest) :
    Written ⟨.stop, "\n\n", line⟩ ['\n'] rest
  | quoted {content rest : List Char} {line : Nat} (h : '"' ∉ content) :
    Written ⟨.quoted, String.ofList content, line⟩ ('"' :: content ++ ['"']) rest
  | words {words : List String} {row rest : List Char} {line : Nat} (h : Opens words row rest) :
    Written (.ofWords words line) row rest

/-- What lies before the quote that closes a text which ends in a period. -/
def UpToQuote (place : List Char) : Prop :=
  ∃ start content, place = start ++ '"' :: content ∧ '"' ∉ content ∧ content.getLast? = some '.'

namespace Scanner

variable {s t : Scanner} {token : Token} {l : Lexicon} {first : Nat}

/-- The token that a scanner hands out next begins behind a place.  It is written there, behind
what is passed over; or it is owed, and the place is where the quoted text ends. -/
inductive Begins (before : List Char) (s : Scanner) (token : Token) (t : Scanner) :
    List Char → Prop
  | written {passed written blanks : List Char} (howed : s.owed = none)
    (hrest : s.cursor.rest = passed ++ (written ++ (blanks ++ t.cursor.rest)))
    (hpassed : Idling passed (written ++ (blanks ++ t.cursor.rest)))
    (hwritten : token.Written written (blanks ++ t.cursor.rest))
    (hblanks : ∀ ch ∈ blanks, Text.isBlank ch = true) : Begins before s token t (before ++ passed)
  | owed {place blanks : List Char} (howed : s.owed = some token)
    (hcursor : t.cursor = s.cursor) (hkind : token.kind = .stop) (hplace : UpToQuote place)
    (hbefore : before = place ++ '"' :: blanks)
    (hblanks : ∀ ch ∈ blanks, Text.isBlank ch = true) : Begins before s token t place

/-- The scanner's line is told by what it has passed of a text that begins on some line, and so is
the line of what it owes. -/
structure Lined (first : Nat) (before : List Char) (s : Scanner) : Prop where
  line : s.cursor.line = first + before.count '\n'
  owed : ∀ token ∈ s.owed, ∃ place blanks, before = place ++ '"' :: blanks ∧ UpToQuote place ∧
    (∀ ch ∈ blanks, Text.isBlank ch = true) ∧ token = ⟨.stop, ".", first + place.count '\n'⟩

/-- Where nothing is owed the line says all. -/
theorem lined_of_line (howed : s.owed = none) (hline : s.cursor.line = first + before.count '\n') :
    s.Lined first before where
  line := hline
  owed := by
    rw [howed]
    exact nofun

/-- Wherever a scanner stands, a text may begin there. -/
theorem lined_here (howed : s.owed = none) : s.Lined s.cursor.line [] :=
  lined_of_line howed rfl

theorem lined_ofSource (source : String) (maxWords : Nat) :
    (ofSource source maxWords).Lined 1 [] :=
  lined_of_line rfl rfl

/-! ### Readers move over what they read -/

theorem over_skipIdle (h : skipIdle c = .ok () d) :
    ∃ passed, c.Over passed d ∧ Idling passed d.rest ∧
      ∀ ch cs, d.rest = ch :: cs → isGap ch cs = false := by
  fun_induction skipIdle c with
  | case1 c hrest =>
    obtain rfl := (EStateM.Result.ok.inj h).2
    refine ⟨[], .refl _, .nil, fun ch cs hcons => ?_⟩
    rw [hrest] at hcons
    cases hcons
  | case5 c first cs hrest hgap =>
    obtain rfl := (EStateM.Result.ok.inj h).2
    refine ⟨[], .refl _, .nil, fun ch cs hcons => ?_⟩
    obtain ⟨rfl, rfl⟩ := List.cons.inj (hrest.symm.trans hcons)
    exact Bool.eq_false_iff.mpr hgap
  | case2 c first cs hrest hgap ih =>
    obtain ⟨passed, hover, hidling, hstop⟩ := ih h
    have hfirst : c.Over [first] (c.skip 1) :=
      Cursor.over_skip (hrest : c.rest = [first] ++ cs)
    have hcs : cs = passed ++ d.rest := by
      have hwhole := (hfirst.trans hover).rest
      rw [hrest] at hwhole
      exact (List.cons.inj hwhole).2
    exact ⟨first :: passed, hfirst.trans hover, .gap (hcs ▸ hgap) hidling, hstop⟩
  | case3 => cases h
  | case4 c cs e hpast hrest hgap ih =>
    obtain ⟨passed, hover, hidling, hstop⟩ := ih h
    obtain ⟨inside, hcomment, hfirst⟩ := Cursor.over_past? (by decide) hpast
    have hnot : ']' ∉ inside := fun hmem => hfirst <| by
      obtain ⟨front, back, rfl⟩ := List.append_of_mem hmem
      exact ⟨front, back, by simp⟩
    obtain ⟨inside, rfl⟩ : ∃ more, inside = '[' :: more := by
      have hwhole := hcomment.rest
      rw [hrest] at hwhole
      cases inside with
      | nil => exact absurd (List.cons.inj hwhole).1 (by decide)
      | cons first more => exact ⟨more, by rw [(List.cons.inj hwhole).1]⟩
    have hinside := List.not_mem_of_not_mem_cons hnot
    exact ⟨_, hcomment.trans hover, .comment hinside hidling, hstop⟩

theorem over_pastParagraph (c : Cursor) :
    ∃ blanks, c.Over blanks (pastParagraph c) ∧ ∀ ch ∈ blanks, Text.isBlank ch = true := by
  have hspaces := Cursor.over_skipWhile c isSpace
  simp only [pastParagraph]
  split
  · split
    · refine ⟨_, hspaces.trans (Cursor.over_skipWhile _ Text.isBlank), ?_⟩
      rw [List.forall_mem_append]
      exact ⟨fun ch hch => isBlank_of_isSpace (List.mem_takeWhile_imp hch),
        fun ch hch => List.mem_takeWhile_imp hch⟩
    · exact ⟨[], .refl c, List.forall_mem_nil _⟩
  · exact ⟨[], .refl c, List.forall_mem_nil _⟩

theorem Lined.line_over (hs : s.Lined first before) (hover : s.cursor.Over cs d) :
    d.line = first + (before ++ cs).count '\n' := by
  rw [hover.line, hs.line, List.count_append, Nat.add_assoc]

theorem Lined.over (hs : s.Lined first before) (hover : s.cursor.Over cs t.cursor)
    (howed : t.owed = none) : t.Lined first (before ++ cs) :=
  lined_of_line howed (hs.line_over hover)

/-- Text between quotes ends at the next quote. -/
theorem over_quoted (hrest : c.rest = '"' :: rest) {content : List Char}
    (hcontent : (c.skip 1).run (· ≠ '"') = content)
    (hends : content.length ≠ (c.skip 1).rest.length) :
    '"' ∉ content ∧
      c.Over ('"' :: content ++ ['"']) ((c.skip 1).skip (content.length + 1)) := by
  have hfirst : c.Over ['"'] (c.skip 1) := Cursor.over_skip hrest
  have hsplit : content ++ (c.skip 1).rest.dropWhile (· ≠ '"') = (c.skip 1).rest := by
    rw [← hcontent, Cursor.run, List.takeWhile_append_dropWhile]
  have hhead := List.head?_dropWhile_not (· ≠ '"') (c.skip 1).rest
  cases hbehind : (c.skip 1).rest.dropWhile (· ≠ '"') with
  | nil =>
    rw [hbehind, List.append_nil] at hsplit
    exact absurd (congrArg List.length hsplit) hends
  | cons quote behind =>
    rw [hbehind] at hhead hsplit
    obtain rfl : quote = '"' := by simpa using hhead
    refine ⟨fun hmem => ?_, hfirst.trans ?_⟩
    · rw [← hcontent] at hmem
      exact absurd (List.mem_takeWhile_imp hmem) (by decide)
    · have hquoted : (c.skip 1).rest = (content ++ ['"']) ++ behind := by
        rw [← hsplit, List.append_assoc]
        rfl
      have hcontents := Cursor.over_skip hquoted
      rwa [List.length_append] at hcontents

/-- Quoted text is read from quote to quote; the end of its sentence is owed from the second
one on. -/
theorem written_readQuoted (hs : s.Lined first before) (howed : s.owed = none)
    (hquote : s.cursor.rest = '"' :: rest) (h : s.readQuoted = .ok token t) :
    ∃ written blanks, s.cursor.Over (written ++ blanks) t.cursor ∧
      token.Written written (blanks ++ t.cursor.rest) ∧
      (∀ ch ∈ blanks, Text.isBlank ch = true) ∧ token.line = s.cursor.line ∧
      t.Lined first (before ++ (written ++ blanks)) := by
  unfold readQuoted at h
  dsimp only at h
  split at h
  · cases h
  · next hends =>
    obtain ⟨hnot, hquoted⟩ := over_quoted hquote rfl hends
    generalize (s.cursor.skip 1).run (· ≠ '"') = content at *
    obtain ⟨rfl, rfl⟩ := EStateM.Result.ok.inj h
    refine ⟨'"' :: content ++ ['"'], ?_⟩
    split
    · next hperiod =>
      obtain ⟨blanks, hblanks, hall⟩ :=
        over_pastParagraph ((s.cursor.skip 1).skip (content.length + 1))
      refine ⟨blanks, hquoted.trans hblanks, .quoted hnot, hall, rfl,
        hs.line_over (hquoted.trans hblanks), ?_⟩
      intro owed hmem
      obtain rfl := Option.some.inj hmem
      refine ⟨before ++ '"' :: content, blanks, by simp, ⟨before, content, rfl, hnot, hperiod⟩,
        hall, ?_⟩
      -- the quote that closes the text breaks no line
      rw [hs.line_over hquoted, ← List.append_assoc, List.count_append]
      rfl
    · refine ⟨[], ?_, .quoted hnot, List.forall_mem_nil _, rfl, ?_⟩
      · rwa [List.append_nil]
      · rw [List.append_nil]
        exact hs.over hquoted howed

/-- **A token is read from its first character on.** -/
theorem written_readToken (hs : s.Lined first before) (howed : s.owed = none)
    (hstop : ∀ ch cs, s.cursor.rest = ch :: cs → isGap ch cs = false)
    (h : s.readToken l = .ok token t) :
    ∃ written blanks, s.cursor.Over (written ++ blanks) t.cursor ∧
      token.Written written (blanks ++ t.cursor.rest) ∧
      (∀ ch ∈ blanks, Text.isBlank ch = true) ∧ token.line = s.cursor.line ∧
      t.Lined first (before ++ (written ++ blanks)) := by
  unfold readToken at h
  dsimp only at h
  split at h
  · next hrest =>
    obtain ⟨rfl, rfl⟩ := EStateM.Result.ok.inj h
    refine ⟨[], [], .refl _, ?_, List.forall_mem_nil _, rfl, ?_⟩
    · rw [hrest]
      exact .finish
    · rw [List.append_nil, List.append_nil]
      exact hs
  · next ch rest hrest =>
    have hfirst : s.cursor.Over [ch] (s.cursor.skip 1) := Cursor.over_skip hrest
    split at h
    · next kind hmark =>
      obtain ⟨rfl, rfl⟩ := EStateM.Result.ok.inj h
      exact ⟨[ch], [], hfirst, .mark hmark, List.forall_mem_nil _, rfl, hs.over hfirst howed⟩
    split at h
    · next hperiod =>
      subst hperiod
      obtain ⟨rfl, rfl⟩ := EStateM.Result.ok.inj h
      obtain ⟨blanks, hblanks, hall⟩ := over_pastParagraph (s.cursor.skip 1)
      have hover := hfirst.trans hblanks
      exact ⟨['.'], blanks, hover, .period, hall, rfl, hs.over hover howed⟩
    split at h
    · next hbreak =>
      subst hbreak
      obtain ⟨rfl, rfl⟩ := EStateM.Result.ok.inj h
      have hover := Cursor.over_skipWhile s.cursor Text.isBlank
      have hrun : s.cursor.run Text.isBlank = '\n' :: rest.takeWhile Text.isBlank := by
        rw [Cursor.run, hrest, List.takeWhile_cons_of_pos (by decide)]
      rw [hrun] at hover
      have hbehind : rest =
          rest.takeWhile Text.isBlank ++ (s.cursor.skipWhile Text.isBlank).rest := by
        have hwhole := hover.rest
        rw [hrest] at hwhole
        exact (List.cons.inj hwhole).2
      have hline : LineBlank rest := by
        by_contra hnot
        have hgap : isGap '\n' rest = true := isGap_iff.mpr (.inr ⟨rfl, hnot⟩)
        rw [hstop _ _ hrest] at hgap
        cases hgap
      exact ⟨['\n'], rest.takeWhile Text.isBlank, hover, .blankLine (hbehind ▸ hline),
        fun ch hch => List.mem_takeWhile_imp hch, rfl, hs.over hover howed⟩
    split at h
    · next hquote =>
      subst hquote
      exact written_readQuoted hs howed hrest h
    split at h
    · next hword =>
      obtain ⟨words, row, behind, hrow, hopens, -, hread⟩ :=
        readTerm_longest (s := s) l ⟨ch, rest, hrest, hword⟩
      rw [hread] at h
      obtain ⟨rfl, rfl⟩ := EStateM.Result.ok.inj h
      have hover : s.cursor.Over row ⟨behind, s.cursor.line + row.count '\n'⟩ := ⟨hrow, rfl⟩
      refine ⟨row, [], ?_, .words hopens, List.forall_mem_nil _, rfl, ?_⟩
      · rwa [List.append_nil]
      · rw [List.append_nil]
        exact hs.over hover howed
    · cases h

/-- **One token.**  A scanner whose line is told by what it has passed hands out a token whose
line is told by what lies before it, and has passed more then. -/
theorem begins_scan (hs : s.Lined first before) (h : s.scan l = .ok token t) :
    ∃ taken, s.cursor.rest = taken ++ t.cursor.rest ∧ t.Lined first (before ++ taken) ∧
      ∃ place, s.Begins before token t place ∧ token.line = first + place.count '\n' := by
  cases howed : s.owed with
  | some owed =>
    rw [scan_of_owed howed] at h
    obtain ⟨rfl, rfl⟩ := EStateM.Result.ok.inj h
    obtain ⟨place, blanks, hbefore, hplace, hblanks, hline⟩ := hs.owed owed howed
    refine ⟨[], rfl, ?_, place, ?_, by rw [hline]⟩
    · rw [List.append_nil]
      exact lined_of_line rfl hs.line
    · exact .owed howed rfl (by rw [hline]) hplace hbefore hblanks
  | none =>
    obtain ⟨c, hidle, hread⟩ := skipIdle_of_scan howed h
    obtain ⟨passed, hover, hidling, hstop⟩ := over_skipIdle hidle
    have hline : ({ s with cursor := c } : Scanner).Lined first (before ++ passed) :=
      hs.over hover howed
    obtain ⟨written, blanks, htaken, hwritten, hblanks, htoken, ht⟩ :=
      written_readToken hline howed hstop hread
    have hrest : c.rest = written ++ (blanks ++ t.cursor.rest) := by
      rw [htaken.rest, List.append_assoc]
    refine ⟨passed ++ (written ++ blanks), (hover.trans htaken).rest, ?_, before ++ passed, ?_, ?_⟩
    · rwa [← List.append_assoc]
    · exact .written howed (by rw [hover.rest, hrest]) (hrest ▸ hidling) hwritten hblanks
    · rw [htoken, hline.line]

end Scanner

end Adventure.Prose
