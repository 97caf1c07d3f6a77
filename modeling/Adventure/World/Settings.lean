/-
What belongs to the game as a whole.
-/
import Adventure.Names

namespace Adventure

/-- What players see first. -/
structure Introduction where
  enabled : Bool
  text : Option String
  pause : Bool
  deriving DecidableEq, Repr

/-- The settings of a game. -/
structure Settings where
  introduction : Introduction
  metadata : NameTable String
  messages : NameTable String
  events : NameTable String
  timerPeriod : Option Int
  /-- The game's own directions, in the order defined. -/
  directions : List String
  directionSynonyms : NameTable String
  verbSynonyms : NameTable String

namespace Settings

/-- The settings of a game that sets nothing. -/
def fresh : Settings where
  introduction := ⟨false, none, false⟩
  metadata := ∅
  messages := ∅
  events := ∅
  timerPeriod := none
  directions := []
  directionSynonyms := ∅
  verbSynonyms := ∅

end Settings

end Adventure
