/-
Cutting prose into tokens.

Sentences end with a period or a blank line, and square brackets enclose comments.
Words that form a term of the lexicon together are one token; of several such terms
the longest is taken.  Text between quotes may end in a period, which then ends the
sentence as well: that end is owed until it is asked for.

After a failure the scanner stays where the fault was met.  Every token but the end
of the source takes something away from what remains.
-/
import Adventure.Prose.Lexicon
import Adventure.Prose.Token
import Adventure.Replay
import Adventure.Text.Alphanumeric
import Adventure.Text.Cursor

namespace Adventure.Prose

open Text (Cursor)

/-- Why a text cannot be cut into tokens. -/
inductive LexFault where
  | illegal (c : Char)
  | openComment
  | openQuote
  deriving DecidableEq, Repr

namespace LexFault

/-- The fault in words. -/
def message : LexFault → String
  | illegal c => s!"illegal character '{c}'"
  | openComment => "comment is missing its closing ']'"
  | openQuote => "quoted text is missing its closing '\"'"

/-- The fault met on a line. -/
def onLine (f : LexFault) (line : Nat) : Error :=
  .lex f.message line

end LexFault

/-! ### Between words -/

/-- Whether a character is a space within a line. -/
def isSpace (c : Char) : Bool :=
  c = ' ' || c = '\t' || c = '\r'

/-- The characters that words are made of. -/
def isWordChar (c : Char) : Bool :=
  Text.isAlphanumeric c || c = '-' || c = '_' || c = '\''

/-- Whether the line that begins here is blank and is followed by another. -/
def blankLineAhead (cs : List Char) : Bool :=
  (cs.dropWhile isSpace).head? = some '\n'

/-- Whether a character, before others, separates words of one sentence. -/
def isGap (c : Char) (after : List Char) : Bool :=
  isSpace c || (c = '\n' && !blankLineAhead after)

/-- How many characters stand before the next word of the same sentence, if it follows
without anything else between. -/
def gap? : List Char → Option Nat
  | [] => none
  | c :: cs =>
    if isGap c cs then (gap? cs).map (· + 1)
    else if isWordChar c then some 0
    else none

/-- Moves past the blank lines that follow, if any follow at once. -/
def pastParagraph (c : Cursor) : Cursor :=
  let d := c.skipWhile isSpace
  match d.rest with
  | '\n' :: cs => if blankLineAhead cs then d.skipWhile Text.isBlank else c
  | _ => c

/-- Moves past spaces, single line breaks and comments. -/
def skipIdle (c : Cursor) : EStateM.Result Error Cursor Unit :=
  match _hrest : c.rest with
  | [] => .ok () c
  | first :: cs =>
    if isGap first cs then skipIdle (c.skip 1)
    else if first = '[' then
      match _h : c.past? "]" with
      | none => .error (LexFault.openComment.onLine c.line) (c.skip c.rest.length)
      | some d => skipIdle d
    else .ok () c
termination_by c.rest.length
decreasing_by
  · exact Cursor.length_skip_lt (by simp [_hrest]) (by decide)
  · exact Cursor.length_past?_lt (by simp [_hrest]) (by decide) _h

/-! ### Terms -/

/-- A word that follows another, and the number of characters from the end of the other
up to its own. -/
structure Follower where
  word : String
  reach : Nat
  deriving DecidableEq, Repr

/-- The words that follow the end of a word in the same sentence, up to a number of
them. -/
def followers : Nat → List Char → List Follower
  | 0, _ => []
  | n + 1, cs =>
    match gap? cs with
    | none => []
    | some gap =>
      let word := (cs.drop gap).takeWhile isWordChar
      let reach := gap + word.length
      ⟨String.ofList word, reach⟩ :: followers n (cs.drop reach)

/-- Words with one space between them. -/
def phrase (first : String) (more : List Follower) : String :=
  " ".intercalate (first :: more.map (·.word))

/-- How many of the words behind the first belong to the longest term that begins with
it; none, if there is no term of several words. -/
def termLength (isTerm : String → Bool) (first : String) (more : List Follower) : Nat :=
  let fits (n : Nat) : Bool := isTerm (phrase first (more.take n))
  ((List.range' 1 more.length).reverse.find? fits).getD 0

/-! ### The scanner -/

/-- Where the scanner is in a source. -/
structure Scanner where
  cursor : Cursor
  /-- How many words may follow the first one in a term. -/
  moreWords : Nat
  /-- The end of the sentence that quoted text brought with it. -/
  owed : Option Token
  deriving DecidableEq, Repr

namespace Scanner

/-- The beginning of a source, for terms of a number of words, which is at least one. -/
def ofSource (source : String) (maxWords : Nat) : Scanner :=
  ⟨.ofText source, maxWords - 1, none⟩

/-- Reads the longest term from here, or else one word. -/
def readTerm (s : Scanner) (l : Lexicon) : Token × Scanner :=
  let letters := s.cursor.run isWordChar
  let first := String.ofList letters
  let more := followers s.moreWords (s.cursor.rest.drop letters.length)
  let taken := more.take (termLength l.isTerm first more)
  let text := phrase first taken
  (⟨.ofWord text, text, s.cursor.line⟩,
    { s with cursor := s.cursor.skip (letters.length + taken.foldl (· + ·.reach) 0) })

/-- Reads text between quotes. -/
def readQuoted (s : Scanner) : EStateM.Result Error Scanner Token :=
  let line := s.cursor.line
  let inside := s.cursor.skip 1
  let text := inside.run (· ≠ '"')
  if text.length = inside.rest.length then
    .error (LexFault.openQuote.onLine line) { s with cursor := inside.skip text.length }
  else
    let token : Token := ⟨.quoted, String.ofList text, line⟩
    let after := inside.skip (text.length + 1)
    .ok token
      (if text.getLast? = some '.' then
        { s with cursor := pastParagraph after, owed := some ⟨.stop, ".", after.line⟩ }
      else { s with cursor := after })

/-- Reads the token that begins with the next character. -/
def readToken (s : Scanner) (l : Lexicon) : EStateM.Result Error Scanner Token :=
  let line := s.cursor.line
  match s.cursor.rest with
  | [] => .ok ⟨.finish, "", line⟩ s
  | c :: _ =>
    match TokenKind.ofMark? c with
    | some kind => .ok ⟨kind, String.ofList [c], line⟩ { s with cursor := s.cursor.skip 1 }
    | none =>
      if c = '.' then
        .ok ⟨.stop, ".", line⟩ { s with cursor := pastParagraph (s.cursor.skip 1) }
      else if c = '\n' then
        .ok ⟨.stop, "\n\n", line⟩ { s with cursor := s.cursor.skipWhile Text.isBlank }
      else if c = '"' then s.readQuoted
      else if isWordChar c then
        let (token, s) := s.readTerm l
        .ok token s
      else .error ((LexFault.illegal c).onLine line) s

/-- The next token. -/
def scan (l : Lexicon) (s : Scanner) : EStateM.Result Error Scanner Token :=
  match s.owed with
  | some token => .ok token { s with owed := none }
  | none =>
    match skipIdle s.cursor with
    | .error e cursor => .error e { s with cursor }
    | .ok () cursor => { s with cursor }.readToken l

/-- How much is left to hand out: two for each character, one for an owed token. -/
def remaining (s : Scanner) : Nat :=
  2 * s.cursor.rest.length + if s.owed.isSome then 1 else 0

end Scanner

/-! ### Every token takes something away -/

theorem length_pastParagraph_le (c : Cursor) :
    (pastParagraph c).rest.length ≤ c.rest.length := by
  simp only [pastParagraph]
  repeat' split
  · exact Nat.le_trans (Cursor.length_skipWhile_le _ _) (Cursor.length_skipWhile_le _ _)
  · exact Nat.le_refl _
  · exact Nat.le_refl _

theorem length_skipIdle_le {c d : Cursor} (h : skipIdle c = .ok () d) :
    d.rest.length ≤ c.rest.length := by
  fun_induction skipIdle c with
  | case1 | case5 =>
    simp only [EStateM.Result.ok.injEq] at h
    exact h.2 ▸ Nat.le_refl _
  | case2 c first cs hrest hgap ih =>
    exact Nat.le_trans (ih h) (Cursor.length_skip_le _ _)
  | case3 => exact absurd h nofun
  | case4 c cs e hpast hrest hgap ih =>
    exact Nat.le_trans (ih h)
      (Nat.le_of_lt (Cursor.length_past?_lt (by simp [hrest]) (by decide) hpast))

namespace Scanner

theorem remaining_lt_of_length {s t : Scanner} (howed : t.owed = s.owed)
    (h : t.cursor.rest.length < s.cursor.rest.length) : t.remaining < s.remaining := by
  simp only [remaining, howed]
  omega

/-- One character less leaves room for an owed token. -/
theorem remaining_lt_of_owed_none {s t : Scanner} (howed : s.owed = none)
    (h : t.cursor.rest.length < s.cursor.rest.length) : t.remaining < s.remaining := by
  simp only [remaining, howed]
  split <;> simp <;> omega

/-- Text between quotes takes its quotes away, and may owe the end of its sentence. -/
theorem remaining_readQuoted {s t : Scanner} {token : Token} (howed : s.owed = none)
    (hrest : s.cursor.rest ≠ []) (h : s.readQuoted = .ok token t) :
    t.remaining < s.remaining := by
  simp only [readQuoted] at h
  split at h
  · exact absurd h nofun
  · simp only [EStateM.Result.ok.injEq] at h
    have hinside : (s.cursor.skip 1).rest.length < s.cursor.rest.length :=
      Cursor.length_skip_lt hrest (by decide)
    refine h.2 ▸ remaining_lt_of_owed_none howed (Nat.lt_of_le_of_lt ?_ hinside)
    split
    · exact Nat.le_trans (length_pastParagraph_le _) (Cursor.length_skip_le _ _)
    · exact Cursor.length_skip_le _ _

/-- Reading a token either comes to the end of the source or moves on. -/
theorem remaining_readToken {s t : Scanner} {token : Token} {l : Lexicon} (howed : s.owed = none)
    (h : s.readToken l = .ok token t) :
    t.remaining < s.remaining ∨ token.kind = .finish ∧ t.remaining ≤ s.remaining := by
  simp only [readToken] at h
  split at h
  · simp only [EStateM.Result.ok.injEq] at h
    exact .inr ⟨h.1 ▸ rfl, h.2 ▸ Nat.le_refl _⟩
  · rename_i c cs hcs
    have hrest : s.cursor.rest ≠ [] := by simp [hcs]
    refine .inl ?_
    split at h
    · simp only [EStateM.Result.ok.injEq] at h
      exact h.2 ▸ remaining_lt_of_length rfl (Cursor.length_skip_lt hrest (by decide))
    · split at h
      · simp only [EStateM.Result.ok.injEq] at h
        exact h.2 ▸ remaining_lt_of_length rfl
          (Nat.lt_of_le_of_lt (length_pastParagraph_le _) (Cursor.length_skip_lt hrest (by decide)))
      · split at h
        · rename_i hbreak
          simp only [EStateM.Result.ok.injEq] at h
          refine h.2 ▸ remaining_lt_of_length rfl (Cursor.length_skip_lt hrest ?_)
          simp [Cursor.run, hcs, hbreak, show Text.isBlank '\n' = true by decide]
        · split at h
          · exact remaining_readQuoted howed hrest h
          · split at h
            · rename_i hword
              simp only [EStateM.Result.ok.injEq] at h
              refine h.2 ▸ remaining_lt_of_length rfl (Cursor.length_skip_lt hrest ?_)
              simp only [Cursor.run, hcs, List.takeWhile_cons, hword, if_true, List.length_cons]
              omega
            · cases h

/-- **Every token but the end of the source takes something away from what remains.** -/
theorem remaining_scan {s t : Scanner} {token : Token} {l : Lexicon} (h : s.scan l = .ok token t) :
    t.remaining < s.remaining ∨ token.kind = .finish ∧ t.remaining ≤ s.remaining := by
  simp only [scan] at h
  split at h
  · rename_i howed
    simp only [EStateM.Result.ok.injEq] at h
    simp [remaining, ← h.2, howed]
  · rename_i howed
    split at h
    · exact absurd h nofun
    · rename_i cursor hidle
      have hle : ({ s with cursor := cursor } : Scanner).remaining ≤ s.remaining := by
        have := length_skipIdle_le hidle
        simp only [remaining]
        omega
      rcases remaining_readToken (s := { s with cursor }) howed h with hlt | ⟨hfinish, hread⟩
      · exact .inl (Nat.lt_of_lt_of_le hlt hle)
      · exact .inr ⟨hfinish, Nat.le_trans hread hle⟩

/-- Every token from here on, the end of the source last. -/
def tokens (l : Lexicon) (s : Scanner) : Except Error (List Token) :=
  match _h : s.scan l with
  | .error e _ => .error e
  | .ok token t =>
    if _hfinish : token.kind = .finish then .ok [token]
    else (tokens l t).map (token :: ·)
termination_by s.remaining
decreasing_by
  exact (remaining_scan _h).resolve_right fun hr => _hfinish hr.1

end Scanner

/-- The tokens of a source. -/
def tokens (l : Lexicon) (source : String) (maxWords : Nat) : Except Error (List Token) :=
  (Scanner.ofSource source maxWords).tokens l

/-- The tokens of a source, some of which may have been put back. -/
abbrev Lexer := Feed Scanner Token

namespace Lexer

/-- The tokens of a source from its beginning. -/
def ofSource (source : String) (maxWords : Nat) : Lexer :=
  Feed.ofSource (Scanner.ofSource source maxWords)

/-- The next token. -/
def next (l : Lexicon) : EStateM Error Lexer Token :=
  Feed.next (Scanner.scan l)

end Lexer

end Adventure.Prose
