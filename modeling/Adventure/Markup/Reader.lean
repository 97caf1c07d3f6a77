/-
Reading markup tag by tag.

A reader stands on a token.  It moves to the next tag, gives the attributes of the one
it stands on, reads the text of an element that holds nothing else, and insists on
closing tags.  Walking past the children of an element ends on the element's own
closing tag, so a closing tag that the reader stands on counts as found, once.
-/
import Adventure.Markup.Scanner
import Adventure.Replay

namespace Adventure.Markup

/-- The tokens of a document, some of which may have been put back. -/
abbrev Lexer := Feed Scanner Token

namespace Lexer

/-- The tokens of a document from its beginning. -/
def ofSource (source : String) : Lexer :=
  Feed.ofSource (Scanner.ofSource source)

/-- The next token. -/
def next : EStateM Error Lexer Token :=
  Feed.next Scanner.scan

/-- How much is left to hand out, the tokens put back included. -/
def remaining (l : Lexer) : Nat :=
  l.source.remaining + (l.replay.held.countP (! ·.isFinish))

theorem remaining_next {l m : Lexer} {token : Token} (h : l.next = .ok token m) :
    m.remaining < l.remaining ∨ token.isFinish = true ∧ m.remaining ≤ l.remaining := by
  obtain ⟨source, held, last⟩ := l
  simp only [next, Feed.next] at h
  cases held with
  | nil =>
    simp only [Replay.pop?] at h
    split at h
    · rename_i hscan
      simp only [EStateM.Result.ok.injEq] at h
      have := Scanner.remaining_scan hscan
      simpa [remaining, ← h.1, ← h.2, Replay.produced] using this
    · exact absurd h nofun
  | cons first rest =>
    simp only [Replay.pop?, EStateM.Result.ok.injEq] at h
    obtain ⟨rfl, rfl⟩ := h
    cases hfinish : first.isFinish <;> simp [remaining, hfinish]

theorem remaining_next_le {l m : Lexer} {token : Token} (h : l.next = .ok token m) :
    m.remaining ≤ l.remaining :=
  (remaining_next h).elim Nat.le_of_lt And.right

end Lexer

/-- What a reader finds in place of what was asked for. -/
inductive ReadFault where
  | textForTag (text : String)
  | noAttribute (tag key : String)
  | noText (tag : String)
  | notClosed (tag : String)
  deriving DecidableEq, Repr

namespace ReadFault

/-- The fault in words. -/
def message : ReadFault → String
  | textForTag text => s!"expected a tag but found text \"{text}\""
  | noAttribute tag key => s!"<{tag}> requires the attribute \"{key}\""
  | noText tag => s!"<{tag}> requires a value"
  | notClosed tag => s!"expected closing </{tag}>"

/-- The fault met on a line. -/
def onLine (f : ReadFault) (line : Nat) : Error :=
  .parse f.message line

end ReadFault

/-- The value of an attribute that a tag must have, without the white space around it,
of which it may not wholly consist. -/
def Token.attribute (t : Token) (key : String) : Except Error String :=
  match (t.attribute? key).map Text.trim with
  | none | some "" => .error ((ReadFault.noAttribute t.tagName key).onLine t.line)
  | some value => .ok value

/-- A reader and the token it stands on. -/
structure Reader where
  lexer : Lexer
  current : Token
  /-- Whether the closing tag that the reader stands on was already asked for. -/
  closeTaken : Bool

namespace Reader

/-- A reader before the first tag of a document. -/
def ofSource (source : String) : Reader :=
  ⟨Lexer.ofSource source, .finish 1, false⟩

/-- How much is left to read. -/
def remaining (r : Reader) : Nat :=
  r.lexer.remaining

/-- Whether the reader stands on a tag that opens an element at a depth. -/
def isChildAt (r : Reader) (depth : Nat) : Bool :=
  r.current.isOpening && r.current.depth = depth

/-- Takes the next token, and stays where it is. -/
def take : EStateM Error Reader Token := fun r =>
  match r.lexer.next with
  | .ok token lexer => .ok token { r with lexer }
  | .error e lexer => .error e { r with lexer }

/-- Moves to the next tag; false at the end of the document.  Text is a fault. -/
def nextTag : EStateM Error Reader Bool := fun r =>
  match r.take with
  | .error e r => .error e r
  | .ok (.text content _ line) r =>
    .error ((ReadFault.textForTag (Text.trim content)).onLine line) r
  | .ok token r => .ok (!token.isFinish) { r with current := token, closeTaken := false }

/-- Reads the text of the element whose opening tag the reader stands on.  A token that
is not text, or blank text, is put back. -/
def nodeValue : EStateM Error Reader String := fun r =>
  let fault := (ReadFault.noText r.current.tagName).onLine r.current.line
  match r.take with
  | .error e r => .error e r
  | .ok (.text content depth line) r =>
    if Text.isBlankText content then
      .error fault { r with lexer := r.lexer.push (.text content depth line) }
    else .ok (Text.trim content) r
  | .ok token r => .error fault { r with lexer := r.lexer.push token }

/-- Passes over the closing tag of an element, or accepts the one it stands on. -/
def checkClosing (name : String) : EStateM Error Reader Unit := fun r =>
  if !r.closeTaken && r.current.closes name then .ok () { r with closeTaken := true }
  else match r.take with
    | .error e r => .error e r
    | .ok token r =>
      let r := { r with current := token }
      if token.closes name then .ok () { r with closeTaken := true }
      else .error ((ReadFault.notClosed name).onLine token.line) r

/-- Reads the text of an element, and its closing tag. -/
def leafValue : EStateM Error Reader String := fun r =>
  match r.nodeValue with
  | .error e s => .error e s
  | .ok value s =>
    match checkClosing r.current.tagName s with
    | .error e t => .error e t
    | .ok () t => .ok value t

/-! ### Reading only moves forward -/

theorem remaining_take {r s : Reader} {token : Token} (h : r.take = .ok token s) :
    s.remaining < r.remaining ∨ token.isFinish = true ∧ s.remaining ≤ r.remaining := by
  simp only [take] at h
  split at h
  · rename_i hnext
    simp only [EStateM.Result.ok.injEq] at h
    obtain ⟨rfl, rfl⟩ := h
    exact Lexer.remaining_next hnext
  · exact absurd h nofun

theorem remaining_take_le {r s : Reader} {token : Token} (h : r.take = .ok token s) :
    s.remaining ≤ r.remaining :=
  (remaining_take h).elim Nat.le_of_lt And.right

theorem remaining_nextTag {r s : Reader} {more : Bool} (h : r.nextTag = .ok more s) :
    s.remaining < r.remaining ∨ more = false ∧ s.remaining ≤ r.remaining := by
  simp only [nextTag] at h
  split at h
  · exact absurd h nofun
  · exact absurd h nofun
  · rename_i htake
    simp only [EStateM.Result.ok.injEq] at h
    obtain ⟨rfl, rfl⟩ := h
    exact (remaining_take htake).imp_right fun hr => ⟨by simp [hr.1], hr.2⟩

theorem remaining_nextTag_le {r s : Reader} {more : Bool} (h : r.nextTag = .ok more s) :
    s.remaining ≤ r.remaining :=
  (remaining_nextTag h).elim Nat.le_of_lt And.right

theorem remaining_nodeValue_le {r s : Reader} {value : String} (h : r.nodeValue = .ok value s) :
    s.remaining ≤ r.remaining := by
  simp only [nodeValue] at h
  split at h
  · exact absurd h nofun
  · rename_i htake
    split at h
    · exact absurd h nofun
    · simp only [EStateM.Result.ok.injEq] at h
      exact h.2 ▸ remaining_take_le htake
  · exact absurd h nofun

theorem remaining_checkClosing_le {r s : Reader} {name : String}
    (h : checkClosing name r = .ok () s) : s.remaining ≤ r.remaining := by
  simp only [checkClosing] at h
  split at h
  · simp only [EStateM.Result.ok.injEq] at h
    exact h.2 ▸ Nat.le_refl _
  · split at h
    · exact absurd h nofun
    · rename_i token t htake
      split at h
      · simp only [EStateM.Result.ok.injEq] at h
        have hle : t.remaining ≤ r.remaining := remaining_take_le htake
        exact h.2 ▸ hle
      · exact absurd h nofun

theorem remaining_leafValue_le {r s : Reader} {value : String} (h : r.leafValue = .ok value s) :
    s.remaining ≤ r.remaining := by
  simp only [leafValue] at h
  split at h
  · exact absurd h nofun
  · rename_i hnode
    split at h
    · exact absurd h nofun
    · rename_i hclose
      simp only [EStateM.Result.ok.injEq] at h
      exact h.2 ▸ Nat.le_trans (remaining_checkClosing_le hclose) (remaining_nodeValue_le hnode)

/-! ### Skipping -/

/-- Passes over everything up to the closing tag of a name at a depth, or to the end of
the document. -/
def skipTo (name : String) (depth : Nat) (r : Reader) : EStateM.Result Error Reader Unit :=
  match _h : r.take with
  | .error e s => .error e s
  | .ok token s =>
    let s := { s with current := token }
    if _hfinish : token.isFinish = true then .ok () { s with closeTaken := true }
    else if token.closes name && token.depth = depth then .ok () { s with closeTaken := true }
    else skipTo name depth s
termination_by r.remaining
decreasing_by
  exact (remaining_take _h).resolve_right fun hr => _hfinish hr.1

/-- Passes over the element whose opening tag the reader stands on. -/
def skipElement : EStateM Error Reader Unit := fun r =>
  match r.current with
  | .opening name _ depth _ => skipTo name depth r
  | _ => .ok () r

end Reader

end Adventure.Markup
