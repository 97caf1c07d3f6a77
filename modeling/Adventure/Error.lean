/-
What can go wrong between a source text and a running game.

An error is a cause and perhaps the place it was met at.  Causes found in a source
text carry their line; the others take one from the place, if it has one.
-/
import Adventure.EntityType
import Adventure.Names

namespace Adventure

/-- A name that was used but never declared, with the lines that used it. -/
structure UnresolvedName where
  name : String
  type : EntityType
  lines : List Nat
  deriving DecidableEq, Repr

/-- Why something failed. -/
inductive Cause where
  /-- The text cannot be cut into tokens. -/
  | lex (message : String) (line : Nat)
  /-- The tokens do not form a definition. -/
  | parse (message : String) (line : Nat)
  /-- Names were used that nothing declares. -/
  | unresolved (names : List UnresolvedName)
  /-- An operation does not suit the world as it stands. -/
  | validation (message : String) (line : Nat)
  /-- No room is there for players to begin in. -/
  | noStartRoom
  /-- A file cannot be read. -/
  | unreadable (path reason : String)
  /-- A part of the program broke its promise to another. -/
  | internal (message : String)
  deriving DecidableEq, Repr

namespace Cause

/-- The line of an unresolved name in the message that lists them all. -/
def describeUnresolved (n : UnresolvedName) : String :=
  s!"\n  {n.type} \"{n.name}\" on line(s) {listLines n.lines}"

/-- The cause in words. -/
def message : Cause → String
  | lex message line => s!"lex error on line {line}: {message}"
  | parse message line => s!"parse error on line {line}: {message}"
  | unresolved names =>
    "undeclared entities were referenced:" ++ String.join (names.map describeUnresolved)
  | validation message line => s!"validation error on line {line}: {message}"
  | noStartRoom => s!"game must contain a room named \"{startRoom}\" where new players begin"
  | unreadable path reason => s!"could not read {path}: {reason}"
  | internal message => s!"internal error: {message}"

/-- The line in the source text that the cause itself names. -/
def line? : Cause → Option Nat
  | lex _ line | parse _ line | validation _ line => some line
  | _ => none

end Cause

/-- Where an error was met. -/
structure Whereabouts where
  filename : Option String
  line : Option Nat
  deriving DecidableEq, Repr

namespace Whereabouts

/-- No place at all. -/
def unknown : Whereabouts :=
  ⟨none, none⟩

/-- The place in words. -/
def text : Whereabouts → String
  | ⟨some filename, some line⟩ => s!"{filename}:{line}"
  | ⟨some filename, none⟩ => filename
  | ⟨none, some line⟩ => s!"line {line}"
  | ⟨none, none⟩ => ""

end Whereabouts

/-- A failure: its cause, and where it was met if that is known. -/
structure Error where
  cause : Cause
  whereabouts : Option Whereabouts
  deriving DecidableEq, Repr

namespace Error

/-- The error of a cause alone. -/
def of (cause : Cause) : Error :=
  ⟨cause, none⟩

def lex (message : String) (line : Nat) : Error :=
  of (.lex message line)

def parse (message : String) (line : Nat) : Error :=
  of (.parse message line)

def validation (message : String) (line : Nat) : Error :=
  of (.validation message line)

def internal (message : String) : Error :=
  of (.internal message)

/-- The same error met in the file of this name. -/
def inFile (e : Error) (filename : String) : Error :=
  let place := e.whereabouts.getD .unknown
  { e with whereabouts := some { place with filename := some filename } }

/-- The same error met on this line. -/
def onLine (e : Error) (line : Nat) : Error :=
  let place := e.whereabouts.getD .unknown
  { e with whereabouts := some { place with line := some line } }

/-- Whether the source text is to blame, before any of it was carried out. -/
def isParse (e : Error) : Bool :=
  match e.cause with
  | .lex .. | .parse .. | .unresolved .. => true
  | _ => false

/-- Whether an operation, or the world at the end, was found wanting. -/
def isValidation (e : Error) : Bool :=
  match e.cause with
  | .validation .. | .noStartRoom => true
  | _ => false

/-- Whether the program itself is to blame. -/
def isInternal (e : Error) : Bool :=
  match e.cause with
  | .internal .. => true
  | _ => false

/-- The line that the error names: the cause's own, or else the place's. -/
def line? (e : Error) : Option Nat :=
  e.cause.line? <|> (e.whereabouts.bind (·.line))

/-- The error in words, after its place if that says anything. -/
def message (e : Error) : String :=
  match e.whereabouts with
  | none | some ⟨none, none⟩ => e.cause.message
  | some place => s!"{place.text}: {e.cause.message}"

end Error

end Adventure
