/-
The words that are known before any game is read.

Directions have synonyms and may have an opposite.  Prepositions, filler words and
verbs are plain sets.  A game's own words are not added here but to its
declarations.
-/
import Adventure.Names

namespace Adventure

/-- The words of a language that bear on directions and commands. -/
structure Vocabulary where
  /-- The directions, with the opposite of each that has one. -/
  directions : NameTable (Option String)
  /-- Other words for directions. -/
  directionSynonyms : NameTable String
  prepositions : NameSet
  fillerWords : NameSet
  verbs : NameSet

namespace Vocabulary

/-- No words at all. -/
def empty : Vocabulary :=
  ⟨∅, ∅, ∅, ∅, ∅⟩

/-- Adds a direction with its opposite and its synonyms. -/
def addDirection (v : Vocabulary) (name : String) (opposite : Option String)
    (synonyms : List String) : Vocabulary :=
  { v with
    directions := v.directions.insert name opposite
    directionSynonyms := synonyms.foldl (·.insert · name) v.directionSynonyms }

def addPreposition (v : Vocabulary) (word : String) : Vocabulary :=
  { v with prepositions := v.prepositions.insert word }

def addFillerWord (v : Vocabulary) (word : String) : Vocabulary :=
  { v with fillerWords := v.fillerWords.insert word }

def addVerb (v : Vocabulary) (word : String) : Vocabulary :=
  { v with verbs := v.verbs.insert word }

/-- Whether a word is a direction, synonyms aside. -/
def isDirection (v : Vocabulary) (word : String) : Bool :=
  v.directions.contains word

/-- The direction that a word means, itself or as a synonym. -/
def resolveDirection (v : Vocabulary) (word : String) : Option String :=
  if v.directions.contains word then some word else v.directionSynonyms[word]?

/-- The direction that leads back. -/
def opposite? (v : Vocabulary) (direction : String) : Option String :=
  (v.directions[direction]?).join

/-- The compass, up and down, in and out: each with its opposite and its short form. -/
def englishDirections : List (String × String × String) :=
  [("north", "south", "n"), ("south", "north", "s"), ("east", "west", "e"),
   ("west", "east", "w"), ("northeast", "southwest", "ne"), ("northwest", "southeast", "nw"),
   ("southeast", "northwest", "se"), ("southwest", "northeast", "sw"), ("up", "down", "u"),
   ("down", "up", "d"), ("inside", "outside", "in"), ("outside", "inside", "out")]

/-- The English words. -/
def english : Vocabulary where
  directions := .ofPairs (englishDirections.map fun (name, opposite, _) => (name, some opposite))
  directionSynonyms := .ofPairs (englishDirections.map fun (name, _, short) => (short, name))
  prepositions :=
    .ofNames ["in", "into", "on", "onto", "at", "to", "with", "from", "of", "under", "behind"]
  fillerWords := .ofNames ["a", "an", "the", "some"]
  verbs :=
    .ofNames ["move", "look", "take", "drop", "inventory", "attack", "read", "cuss", "quit"]

end Vocabulary

end Adventure
