/-
Properties that sentences assert of things.

A property applies to certain kinds and to all kinds below them.  Some exclude each
other.  Further adjectives describe what only the world itself can make true; no
sentence asserts those.
-/
import Adventure.Prose.Kind

namespace Adventure.Prose

/-- Something that holds of a thing or does not. -/
structure Property where
  name : String
  /-- The most general kinds that it can hold of. -/
  kinds : List Kind
  /-- The names of the properties that cannot hold beside it. -/
  contraries : List String
  deriving DecidableEq, Repr

namespace Property

/-- Whether the property can hold of things of a kind. -/
def fits (p : Property) (k : Kind) : Bool :=
  p.kinds.any k.isA

/-- Two properties of the same kinds, of which one at most can hold. -/
def pair (kinds : List Kind) (one other : String) : List Property :=
  [⟨one, kinds, [other]⟩, ⟨other, kinds, [one]⟩]

/-- Every property. -/
def all : List Property :=
  let closable : List Kind := [.container, .door]
  pair closable "open" "closed" ++
  pair closable "openable" "unopenable" ++
  pair closable "locked" "unlocked" ++
  pair closable "lockable" "unlockable" ++
  pair [.thing] "lit" "unlit" ++
  pair [.thing] "fixed in place" "portable" ++
  pair [.thing] "edible" "inedible" ++
  [⟨"wearable", [.thing], []⟩] ++
  pair [.thing] "described" "undescribed" ++
  pair [.room] "lighted" "dark" ++
  [⟨"visited", [.room], []⟩] ++
  pair [.device] "switched on" "switched off" ++
  [⟨"male", [.person], ["female", "neuter"]⟩,
   ⟨"female", [.person], ["male", "neuter"]⟩,
   ⟨"neuter", [.person], ["male", "female"]⟩] ++
  pair [.container] "transparent" "opaque" ++
  [⟨"enterable", [.container, .supporter], []⟩]

/-- The property that a word names, in whatever case. -/
def ofName? (word : String) : Option Property :=
  let word := Text.lower word
  all.find? (·.name == word)

/-- Whether two properties exclude each other and nothing else. -/
def areOpposite (p q : Property) : Bool :=
  p.contraries = [q.name] && q.contraries = [p.name]

end Property

/-- The adjectives for what only the world can make true. -/
def worldlyAdjectives : List String :=
  ["adjacent", "visible", "invisible", "empty", "non-empty", "carried"]

/-- Whether a word is such an adjective, in whatever case. -/
def isWorldly (word : String) : Bool :=
  worldlyAdjectives.contains (Text.lower word)

end Adventure.Prose
