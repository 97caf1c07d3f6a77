/-
Cutting markup into tokens.

The scanner checks as it goes that tags nest: it knows the elements that are open and
refuses a closing tag that is not the innermost one's.  A tag that closes itself is
two tokens, the second of which is owed until it is asked for.  Comments, processing
instructions, declarations and blank text are passed over.

After a failure the scanner stays where the fault was met, so that scanning can go on
from there.  Every token but the last takes something away from what remains.
-/
import Adventure.Markup.Reference
import Adventure.Markup.Token
import Adventure.Text.Alphanumeric
import Adventure.Text.Cursor
import Adventure.Text.Words

namespace Adventure.Markup

open Text (Cursor)

/-- What has an end of its own that may be missing. -/
inductive Construct where
  | comment
  | characterData
  | instruction
  | declaration
  | attributeValue
  | reference
  deriving DecidableEq, Repr

/-- The construct in words. -/
def Construct.name : Construct → String
  | comment => "comment"
  | characterData => "CDATA section"
  | instruction => "processing instruction"
  | declaration => "declaration"
  | attributeValue => "attribute value"
  | reference => "entity reference"

/-- Why a text cannot be cut into tokens. -/
inductive LexFault where
  | unclosed (name : String)
  | unterminated (what : Construct)
  | textOutside
  | secondRoot
  | noValue (key tag : String)
  | repeated (key tag : String)
  | malformedClosing (name : String)
  | mismatched (wanted found : String)
  | strayClosing (name : String)
  | nameExpected (found : Option Char)
  | unquoted
  | unknownReference (reference : String)
  deriving DecidableEq, Repr

namespace LexFault

/-- The fault in words. -/
def message : LexFault → String
  | unclosed name => s!"unexpected end of document, <{name}> is not closed"
  | unterminated what => s!"unterminated {what.name}"
  | textOutside => "text outside of the document element"
  | secondRoot => "only one document element is allowed"
  | noValue key tag => s!"attribute \"{key}\" of <{tag}> has no value"
  | repeated key tag => s!"attribute \"{key}\" repeated on <{tag}>"
  | malformedClosing name => s!"malformed closing tag </{name}"
  | mismatched wanted found => s!"expected closing </{wanted}> but found </{found}>"
  | strayClosing name => s!"unexpected closing </{name}>"
  | nameExpected (some c) => s!"expected a name, found '{c}'"
  | nameExpected none => "expected a name, found end of document"
  | unquoted => "attribute values must be quoted"
  | unknownReference reference => s!"unknown entity &{reference};"

/-- The fault met on a line. -/
def onLine (f : LexFault) (line : Nat) : Error :=
  .lex f.message line

/-- A fault in a reference among the faults of markup. -/
def ofReference : ReferenceFault → LexFault
  | .unterminated => unterminated .reference
  | .unknown reference => unknownReference reference

end LexFault

/-! ### Inside a tag -/

/-- The characters that names are made of. -/
def isNameChar (c : Char) : Bool :=
  Text.isAlphanumeric c || c = '_' || c = '-' || c = '.' || c = ':'

/-- Fails on the line of the cursor. -/
def fail {α : Type} (c : Cursor) (f : LexFault) : EStateM.Result Error Cursor α :=
  .error (f.onLine c.line) c

/-- Reads a name. -/
def scanName : EStateM Error Cursor String := fun c =>
  let name := c.run isNameChar
  if name.isEmpty then fail c (.nameExpected c.rest.head?)
  else .ok (String.ofList name) (c.skip name.length)

/-- Passes over white space. -/
def skipBlanks : EStateM Error Cursor Unit := fun c =>
  .ok () (c.skipWhile Text.isBlank)

/-- Passes over one character, or fails if another comes next. -/
def expect (expected : Char) (f : LexFault) : EStateM Error Cursor Unit := fun c =>
  if c.rest.head? = some expected then .ok () (c.skip 1) else fail c f

/-- Reads the value of an attribute between quotes of either sort.  The cursor stays
behind the first quote if the second is missing or the value holds a bad reference. -/
def scanQuoted : EStateM Error Cursor String := fun c =>
  match c.rest.head?.filter fun q => q = '"' ∨ q = '\'' with
  | none => fail c .unquoted
  | some quote =>
    let inside := c.skip 1
    let raw := inside.run (· ≠ quote)
    if raw.length = inside.rest.length then
      .error ((LexFault.unterminated .attributeValue).onLine c.line) inside
    else match decode raw with
      | .error f => .error ((LexFault.ofReference f).onLine c.line) inside
      | .ok value => .ok (String.ofList value) (inside.skip (raw.length + 1))

/-- Reads one attribute of a tag. -/
def scanAttribute (tag : String) : EStateM Error Cursor (String × String) := do
  let key ← scanName
  skipBlanks
  expect '=' (.noValue key tag)
  skipBlanks
  let value ← scanQuoted
  pure (key, value)

/-- Whether reading only moves the cursor forward. -/
def Forward {α : Type} (m : EStateM Error Cursor α) : Prop :=
  ∀ c a d, m c = .ok a d → d.rest.length ≤ c.rest.length

theorem Forward.bind {α β : Type} {m : EStateM Error Cursor α} {f : α → EStateM Error Cursor β}
    (hm : Forward m) (hf : ∀ a, Forward (f a)) : Forward (m >>= f) := by
  intro c b e h
  simp only [Bind.bind, EStateM.bind] at h
  split at h
  · rename_i a d hd
    exact Nat.le_trans (hf a d b e h) (hm c a d hd)
  · exact absurd h nofun

/-- Once the cursor is moved, the reading goes on from there. -/
theorem modify_bind {α : Type} (move : Cursor → Cursor) (m : Unit → EStateM Error Cursor α)
    (c : Cursor) : (modify move >>= m) c = m () (move c) :=
  rfl

theorem forward_pure {α : Type} (a : α) : Forward (pure a) := by
  intro c b d h
  simp only [pure, EStateM.pure, EStateM.Result.ok.injEq] at h
  exact h.2 ▸ Nat.le_refl _

theorem length_scanName_lt {c d : Cursor} {name : String} (h : scanName c = .ok name d) :
    d.rest.length < c.rest.length := by
  simp only [scanName] at h
  split at h
  · exact absurd h nofun
  · rename_i hne
    simp only [EStateM.Result.ok.injEq] at h
    have hpos : 0 < (c.run isNameChar).length := by
      simpa [List.length_pos_iff, List.isEmpty_iff] using hne
    refine h.2 ▸ Cursor.length_skip_lt ?_ hpos
    intro hnil
    simp [Cursor.run, hnil] at hpos

theorem forward_skipBlanks : Forward skipBlanks := by
  intro c a d h
  simp only [skipBlanks, EStateM.Result.ok.injEq] at h
  exact h.2 ▸ Cursor.length_skipWhile_le _ _

theorem forward_expect (expected : Char) (f : LexFault) : Forward (expect expected f) := by
  intro c a d h
  simp only [expect] at h
  split at h
  · simp only [EStateM.Result.ok.injEq] at h
    exact h.2 ▸ Cursor.length_skip_le _ _
  · exact absurd h nofun

theorem forward_scanQuoted : Forward scanQuoted := by
  intro c a d h
  simp only [scanQuoted] at h
  split at h
  · cases h
  · split at h
    · cases h
    · split at h
      · cases h
      · simp only [EStateM.Result.ok.injEq] at h
        exact h.2 ▸ Nat.le_trans (Cursor.length_skip_le _ _) (Cursor.length_skip_le _ _)

theorem forward_scanValue (tag key : String) : Forward (do
    skipBlanks
    expect '=' (.noValue key tag)
    skipBlanks
    let value ← scanQuoted
    pure (key, value)) :=
  .bind forward_skipBlanks fun _ => .bind (forward_expect _ _) fun _ =>
    .bind forward_skipBlanks fun _ => .bind forward_scanQuoted fun _ => forward_pure _

theorem length_scanAttribute_lt {tag : String} {c d : Cursor} {a : String × String}
    (h : scanAttribute tag c = .ok a d) : d.rest.length < c.rest.length := by
  simp only [scanAttribute, Bind.bind, EStateM.bind] at h
  split at h
  · rename_i key e he
    exact Nat.lt_of_le_of_lt (forward_scanValue tag key e a d h) (length_scanName_lt he)
  · exact absurd h nofun

/-- Reads attributes up to the end of the tag, after those already read; the truth
value says whether the tag closes itself. -/
def scanAttributes (tag : String) (before : List (String × String)) (c : Cursor) :
    EStateM.Result Error Cursor (List (String × String) × Bool) :=
  let here := c.skipWhile Text.isBlank
  if here.startsWith "/>" then .ok (before, true) (here.skip 2)
  else if here.startsWith ">" then .ok (before, false) (here.skip 1)
  else match _h : scanAttribute tag here with
    | .error e d => .error e d
    | .ok (key, value) d =>
      if before.any (·.1 == key) then fail d (.repeated key tag)
      else scanAttributes tag (before ++ [(key, value)]) d
termination_by c.rest.length
decreasing_by
  exact Nat.lt_of_lt_of_le (length_scanAttribute_lt _h) (Cursor.length_skipWhile_le _ _)

/-- Reads an opening tag from its bracket on: the name, the attributes, and whether the
tag closes itself. -/
def scanOpening : EStateM Error Cursor (String × List (String × String) × Bool) := do
  modify (·.skip 1)
  let name ← scanName
  let (attributes, closed) ← scanAttributes name []
  pure (name, attributes, closed)

/-- Reads a closing tag from its bracket on. -/
def scanClosing : EStateM Error Cursor String := do
  modify (·.skip 2)
  let name ← scanName
  skipBlanks
  expect '>' (.malformedClosing name)
  pure name

theorem forward_scanAttributes (tag : String) (before : List (String × String)) :
    Forward (scanAttributes tag before) := by
  intro c a d h
  fun_induction scanAttributes tag before c with
  | case1 before c here hend =>
    simp only [EStateM.Result.ok.injEq] at h
    exact h.2 ▸ Nat.le_trans (Cursor.length_skip_le _ _) (Cursor.length_skipWhile_le _ _)
  | case2 before c here hend hopen =>
    simp only [EStateM.Result.ok.injEq] at h
    exact h.2 ▸ Nat.le_trans (Cursor.length_skip_le _ _) (Cursor.length_skipWhile_le _ _)
  | case3 => exact absurd h nofun
  | case4 => exact absurd h nofun
  | case5 before c here hend hopen key value e he hnew ih =>
    exact Nat.le_trans (ih h) (Nat.le_of_lt
      (Nat.lt_of_lt_of_le (length_scanAttribute_lt he) (Cursor.length_skipWhile_le _ _)))

theorem length_scanOpening_lt {c d : Cursor} {a : String × List (String × String) × Bool}
    (h : scanOpening c = .ok a d) : d.rest.length < c.rest.length := by
  rw [scanOpening, modify_bind] at h
  simp only [Bind.bind, EStateM.bind] at h
  split at h
  · rename_i name e he
    have hname := length_scanName_lt he
    have hskip := Cursor.length_skip_le c 1
    have hrest := Forward.bind (forward_scanAttributes name [])
      (fun r => forward_pure (name, r.1, r.2)) e a d h
    omega
  · cases h

theorem length_scanClosing_lt {c d : Cursor} {name : String} (h : scanClosing c = .ok name d) :
    d.rest.length < c.rest.length := by
  rw [scanClosing, modify_bind] at h
  simp only [Bind.bind, EStateM.bind] at h
  split at h
  · rename_i found e he
    have hname := length_scanName_lt he
    have hskip := Cursor.length_skip_le c 2
    have hrest := Forward.bind forward_skipBlanks (fun _ =>
      Forward.bind (forward_expect '>' (.malformedClosing found)) fun _ => forward_pure found)
      e name d h
    omega
  · cases h

/-! ### Between tags -/

/-- Where the scanner is in a document. -/
structure Scanner where
  cursor : Cursor
  /-- The names of the open elements, innermost first. -/
  opened : List String
  /-- The closing token owed for a tag that closed itself. -/
  owed : Option Token
  /-- Whether the document's element has ended. -/
  finished : Bool
  deriving DecidableEq, Repr

/-- What a piece of markup is, by how it begins. -/
inductive Piece where
  | comment
  | characterData
  | instruction
  | declaration
  | closingTag
  | openingTag
  | text
  deriving DecidableEq, Repr

/-- The piece that comes next. -/
def Piece.next (c : Cursor) : Piece :=
  if c.startsWith "<!--" then comment
  else if c.startsWith "<![CDATA[" then characterData
  else if c.startsWith "<?" then instruction
  else if c.startsWith "<!" then declaration
  else if c.startsWith "</" then closingTag
  else if c.startsWith "<" then openingTag
  else text

/-- Text that comes next is not empty, because nothing but a bracket ends it. -/
theorem Piece.run_pos_of_text {c : Cursor} (hrest : c.rest ≠ []) (h : Piece.next c = .text) :
    0 < (c.run (· ≠ '<')).length := by
  obtain ⟨d, ds, hds⟩ := List.exists_cons_of_ne_nil hrest
  have hd : d ≠ '<' := by
    rintro rfl
    have : c.startsWith "<" = true := by simp [Cursor.startsWith, hds]
    simp only [Piece.next, this, if_true] at h
    repeat' split at h
    all_goals exact absurd h nofun
  simp [Cursor.run, hds, hd]

namespace Scanner

/-- The beginning of a document. -/
def ofSource (source : String) : Scanner :=
  ⟨.ofText source, [], none, false⟩

/-- Hands out text, which belongs inside an element. -/
def giveText (s : Scanner) (content : List Char) (line : Nat) :
    EStateM.Result Error Scanner Token :=
  if s.opened.isEmpty then .error (LexFault.textOutside.onLine line) s
  else .ok (.text (String.ofList content) s.opened.length line) s

/-- Reads an opening tag and opens its element. -/
def openElement (s : Scanner) : EStateM.Result Error Scanner Token :=
  let line := s.cursor.line
  if s.finished then .error (LexFault.secondRoot.onLine line) s
  else match scanOpening s.cursor with
    | .error e cursor => .error e { s with cursor }
    | .ok (name, attributes, closed) cursor =>
      let depth := s.opened.length
      let s := { s with cursor }
      .ok (.opening name attributes depth line)
        (if closed then
          { s with
            finished := s.finished || depth = 0
            owed := some (.closing name depth cursor.line) }
        else { s with opened := name :: s.opened })

/-- Reads a closing tag and closes the innermost element, whose name has to match. -/
def closeElement (s : Scanner) : EStateM.Result Error Scanner Token :=
  let line := s.cursor.line
  match scanClosing s.cursor with
  | .error e cursor => .error e { s with cursor }
  | .ok name cursor =>
    match s.opened with
    | [] => .error ((LexFault.strayClosing name).onLine line) { s with cursor }
    | wanted :: outer =>
      let s := { s with cursor, opened := outer }
      if wanted = name then
        .ok (.closing name outer.length line) { s with finished := s.finished || outer.isEmpty }
      else .error ((LexFault.mismatched wanted name).onLine line) s

/-- Reads a section of characters that stand for themselves. -/
def readCharacterData (s : Scanner) : EStateM.Result Error Scanner Token :=
  let line := s.cursor.line
  let inside := s.cursor.skip "<![CDATA[".length
  match Text.position? "]]>".toList inside.rest with
  | none =>
    .error ((LexFault.unterminated .characterData).onLine inside.line) { s with cursor := inside }
  | some n =>
    { s with cursor := inside.skip (n + "]]>".length) }.giveText (inside.rest.take n) line

/-- The next token from the text itself, whatever is owed. -/
def scanText (s : Scanner) : EStateM.Result Error Scanner Token :=
  if _hrest : s.cursor.rest = [] then
    match s.opened with
    | name :: _ => .error ((LexFault.unclosed name).onLine s.cursor.line) s
    | [] => .ok (.finish s.cursor.line) s
  else match _hpiece : Piece.next s.cursor with
    | .comment =>
      match _h : s.cursor.past? "-->" with
      | none => .error ((LexFault.unterminated .comment).onLine s.cursor.line) s
      | some cursor => scanText { s with cursor }
    | .instruction =>
      match _h : s.cursor.past? "?>" with
      | none => .error ((LexFault.unterminated .instruction).onLine s.cursor.line) s
      | some cursor => scanText { s with cursor }
    | .declaration =>
      match _h : s.cursor.past? ">" with
      | none => .error ((LexFault.unterminated .declaration).onLine s.cursor.line) s
      | some cursor => scanText { s with cursor }
    | .characterData => s.readCharacterData
    | .closingTag => s.closeElement
    | .openingTag => s.openElement
    | .text =>
      let raw := s.cursor.run (· ≠ '<')
      let after := s.cursor.skip raw.length
      if raw.all Text.isBlank then scanText { s with cursor := after }
      else match decode raw with
        | .error f => .error ((LexFault.ofReference f).onLine s.cursor.line) s
        | .ok content => { s with cursor := after }.giveText content s.cursor.line
termination_by s.cursor.rest.length
decreasing_by
  · exact Cursor.length_past?_lt _hrest (by decide) _h
  · exact Cursor.length_past?_lt _hrest (by decide) _h
  · exact Cursor.length_past?_lt _hrest (by decide) _h
  · exact Cursor.length_skip_lt _hrest (Piece.run_pos_of_text _hrest _hpiece)

/-- The next token. -/
def scan (s : Scanner) : EStateM.Result Error Scanner Token :=
  match s.owed with
  | some token => .ok token { s with owed := none }
  | none => s.scanText

/-- How much is left to hand out: two for each character, one for an owed token. -/
def remaining (s : Scanner) : Nat :=
  2 * s.cursor.rest.length + if s.owed.isSome then 1 else 0

/-! ### Every token takes something away -/

theorem remaining_lt {s t : Scanner} (hs : s.owed = none)
    (h : t.cursor.rest.length < s.cursor.rest.length) : t.remaining < s.remaining := by
  simp only [remaining, hs]
  split <;> simp <;> omega

theorem eq_of_giveText {s t : Scanner} {content : List Char} {line : Nat} {token : Token}
    (h : s.giveText content line = .ok token t) : t = s := by
  simp only [giveText] at h
  split at h
  · exact absurd h nofun
  · simp only [EStateM.Result.ok.injEq] at h
    exact h.2.symm

theorem length_openElement_lt {s t : Scanner} {token : Token}
    (h : s.openElement = .ok token t) :
    t.cursor.rest.length < s.cursor.rest.length := by
  simp only [openElement] at h
  split at h
  · exact absurd h nofun
  · split at h
    · exact absurd h nofun
    · rename_i hscan
      simp only [EStateM.Result.ok.injEq] at h
      have := length_scanOpening_lt hscan
      rw [← h.2]
      split <;> exact this

theorem length_closeElement_lt {s t : Scanner} {token : Token}
    (h : s.closeElement = .ok token t) :
    t.cursor.rest.length < s.cursor.rest.length := by
  simp only [closeElement] at h
  split at h
  · exact absurd h nofun
  · rename_i hscan
    have hlt := length_scanClosing_lt hscan
    split at h
    · exact absurd h nofun
    · split at h
      · simp only [EStateM.Result.ok.injEq] at h
        exact h.2 ▸ hlt
      · exact absurd h nofun

theorem length_readCharacterData_lt {s t : Scanner} {token : Token} (hrest : s.cursor.rest ≠ [])
    (h : s.readCharacterData = .ok token t) :
    t.cursor.rest.length < s.cursor.rest.length := by
  simp only [readCharacterData] at h
  split at h
  · exact absurd h nofun
  · rw [eq_of_giveText h]
    exact Nat.lt_of_le_of_lt (Cursor.length_skip_le _ _)
      (Cursor.length_skip_lt hrest (by decide))

/-- Scanning the text either comes to its end or moves on. -/
theorem scanText_progress {s t : Scanner} {token : Token} (h : s.scanText = .ok token t) :
    token.isFinish = true ∧ t.cursor.rest = [] ∧ t.owed = s.owed ∨
      t.cursor.rest.length < s.cursor.rest.length := by
  fun_induction scanText s with
  | case1 | case3 | case5 | case7 | case13 => exact absurd h nofun
  | case2 s hrest =>
    simp only [EStateM.Result.ok.injEq] at h
    exact .inl ⟨h.1 ▸ rfl, h.2 ▸ hrest, h.2 ▸ rfl⟩
  | case4 s hrest _ cursor hpast ih =>
    exact (ih h).imp_right fun hlt =>
      Nat.lt_trans hlt (Cursor.length_past?_lt hrest (by decide) hpast)
  | case6 s hrest _ cursor hpast ih =>
    exact (ih h).imp_right fun hlt =>
      Nat.lt_trans hlt (Cursor.length_past?_lt hrest (by decide) hpast)
  | case8 s hrest _ cursor hpast ih =>
    exact (ih h).imp_right fun hlt =>
      Nat.lt_trans hlt (Cursor.length_past?_lt hrest (by decide) hpast)
  | case9 s hrest => exact .inr (length_readCharacterData_lt hrest h)
  | case10 s => exact .inr (length_closeElement_lt h)
  | case11 s => exact .inr (length_openElement_lt h)
  | case12 s hrest hpiece raw after hblank ih =>
    exact (ih h).imp_right fun hlt =>
      Nat.lt_trans hlt (Cursor.length_skip_lt hrest (Piece.run_pos_of_text hrest hpiece))
  | case14 s hrest hpiece raw after hblank content =>
    rw [eq_of_giveText h]
    exact .inr (Cursor.length_skip_lt hrest (Piece.run_pos_of_text hrest hpiece))

/-- **Every token but the last takes something away from what remains.** -/
theorem remaining_scan {s t : Scanner} {token : Token} (h : s.scan = .ok token t) :
    t.remaining < s.remaining ∨ token.isFinish = true ∧ t.remaining ≤ s.remaining := by
  simp only [scan] at h
  split at h
  · rename_i howed
    simp only [EStateM.Result.ok.injEq] at h
    simp [remaining, ← h.2, howed]
  · rename_i howed
    rcases scanText_progress h with ⟨hfinish, hrest, ht⟩ | hlt
    · exact .inr ⟨hfinish, by simp [remaining, hrest, ht, howed]⟩
    · exact .inl (remaining_lt howed hlt)

/-- Every token from here on, the end of the document last. -/
def tokens (s : Scanner) : Except Error (List Token) :=
  match _h : s.scan with
  | .error e _ => .error e
  | .ok token t =>
    if _hfinish : token.isFinish = true then .ok [token]
    else (tokens t).map (token :: ·)
termination_by s.remaining
decreasing_by
  exact (remaining_scan _h).resolve_right fun hr => _hfinish hr.1

end Scanner

/-- The tokens of a document. -/
def tokens (source : String) : Except Error (List Token) :=
  (Scanner.ofSource source).tokens

end Adventure.Markup
