/-
The words that sentences are read with.

A lexicon knows kinds, properties, adjectives and directions.  Only kinds are added
while a text is read.  A term is a phrase that the lexicon knows; terms of several
words are read as one word.
-/
import Adventure.Error
import Adventure.Prose.Property
import Adventure.Text.Words
import Adventure.Vocabulary

namespace Adventure.Prose

/-- The kinds and the directions that are known. -/
structure Lexicon where
  kinds : KindTree
  vocabulary : Vocabulary

namespace Lexicon

/-- The standard kinds, with the directions of a vocabulary. -/
def standard (v : Vocabulary) : Lexicon :=
  ⟨.standard, v⟩

/-- The kind that a word means. -/
def kind? (l : Lexicon) (word : String) : Option Kind :=
  l.kinds.lookup? word

/-- Whether a word means a kind. -/
def isKind (l : Lexicon) (word : String) : Bool :=
  (l.kind? word).isSome

/-- Whether a word is a direction, in whatever case. -/
def isDirection (l : Lexicon) (word : String) : Bool :=
  l.vocabulary.isDirection (Text.lower word)

/-- The direction that leads back. -/
def opposite? (l : Lexicon) (direction : String) : Option String :=
  l.vocabulary.opposite? (Text.lower direction)

/-- Whether a phrase is known. -/
def isTerm (l : Lexicon) (phrase : String) : Bool :=
  l.isDirection phrase || l.isKind phrase || (Property.ofName? phrase).isSome || isWorldly phrase

/-- Why a kind cannot have a name. -/
inductive Refusal where
  | tooLong (name : String) (words limit : Nat)
  | kindTaken (name : String)
  | adjective (name : String)
  | reserved (name : String)
  deriving DecidableEq, Repr

namespace Refusal

/-- The refusal in words. -/
def message : Refusal → String
  | tooLong name words limit =>
    s!"\"{name}\" has {words} words, more than the {limit}-word limit for compound terms"
  | kindTaken name => s!"\"{name}\" is already a kind"
  | adjective name => s!"\"{name}\" is already an adjective and cannot also be a kind"
  | reserved name => s!"\"{name}\" is a reserved name"

/-- The refusal of what a line says.  A name that is too long for a term cannot even be
read. -/
def onLine (r : Refusal) (line : Nat) : Error :=
  match r with
  | tooLong .. => .lex r.message line
  | _ => .parse r.message line

end Refusal

/-- Passes if a kind can have a name, which is in lowercase. -/
def checkKindName (l : Lexicon) (name : String) (maxWords : Nat) : Except Refusal Unit := do
  let words := (Text.words name).length
  if words > maxWords then throw (.tooLong name words maxWords)
  if l.isKind name then throw (.kindTaken name)
  if (Property.ofName? name).isSome || isWorldly name then throw (.adjective name)
  if (EntityType.ofName? name).isSome then throw (.reserved name)

/-- Adds a kind under another. -/
def declareKind (l : Lexicon) (name : String) (parent : Kind) (maxWords : Nat) :
    Except Refusal Lexicon := do
  let name := Text.lower name
  l.checkKindName name maxWords
  pure { l with kinds := l.kinds.insert name parent }

end Lexicon

end Adventure.Prose
