/-
What a story says of one thing.

A record is filled one statement at a time.  A statement that contradicts an earlier one
is refused, and the conflict names the earlier one: the line it stands on is in the
message, so that both places can be found.
-/
import Adventure.Prose.Property

namespace Adventure.Prose

/-- A property that was said to hold, or not to. -/
structure Assertion where
  property : Property
  negated : Bool
  line : Nat
  deriving DecidableEq, Repr

namespace Assertion

/-- The assertion in words. -/
def text (a : Assertion) : String :=
  if a.negated then "not " ++ a.property.name else a.property.name

/-- Whether two assertions say the same, wherever they stand. -/
def agrees (a b : Assertion) : Bool :=
  a.property = b.property && a.negated == b.negated

/-- Whether an assertion contradicts another.  Two properties cannot both hold if one is
a contrary of the other.  Two can only both fail to hold if they are not each
other's only contraries. -/
def contradicts (a b : Assertion) : Bool :=
  if b.property = a.property then b.negated != a.negated
  else match a.negated, b.negated with
    | false, false => a.property.contraries.contains b.property.name
    | true, true => a.property.areOpposite b.property
    | _, _ => false

end Assertion

/-- How a thing is placed. -/
inductive Preposition where
  | inside
  | upon
  deriving DecidableEq, Repr

namespace Preposition

/-- The word for it. -/
def word : Preposition → String
  | inside => "in"
  | upon => "on"

/-- The preposition that a word is. -/
def ofWord? : String → Option Preposition
  | "in" => some inside
  | "on" => some upon
  | _ => none

/-- The kind of what things are placed in or on, if nothing is said of it. -/
def defaultKind : Preposition → Kind
  | inside => .room
  | upon => .supporter

end Preposition

/-- Where a thing was placed. -/
structure Placement where
  preposition : Preposition
  /-- The key of what it was placed in or on. -/
  target : String
  line : Nat
  deriving DecidableEq, Repr

/-- A way out of a room. -/
structure Exit where
  direction : String
  /-- The key of the room it leads to. -/
  destination : String
  line : Nat
  deriving DecidableEq, Repr

/-- Everything that was said of one thing. -/
structure Record where
  /-- The name as it was first written. -/
  name : String
  /-- The line of the first mention. -/
  line : Nat
  /-- The kind it was given, and the line that gave it. -/
  kind : Option (Kind × Nat)
  /-- The properties asserted of it, in order. -/
  assertions : List Assertion
  placement : Option Placement
  exits : List Exit
  description : Option String
  deriving DecidableEq, Repr

/-- Why a statement about a thing is refused. -/
inductive Conflict where
  /-- Things of the kind do not become entities. -/
  | unsupported (kind : Kind)
  | kinds (name : String) (kind earlier : Kind) (line : Nat)
  | kindAfterProperty (name : String) (kind : Kind) (earlier : Assertion)
  | properties (name : String) (new earlier : Assertion)
  | propertyAfterKind (name : String) (property : Property) (earlier : Kind) (line : Nat)
  /-- No kind of thing can have both properties. -/
  | noCommonKind (name : String) (property : Property) (earlier : Assertion)
  | exits (name : String) (earlier : Exit)
  | placedAtItself (name : String) (preposition : Preposition)
  | placements (name : String) (earlier : Placement)
  deriving DecidableEq, Repr

namespace Conflict

/-- The conflict in words. -/
def message : Conflict → String
  | unsupported kind => s!"{kind.plural} are not supported yet"
  | kinds name kind earlier line =>
    s!"\"{name}\" cannot be a {kind.name} because it was made a {earlier.name} on line {line}"
  | kindAfterProperty name kind earlier =>
    s!"\"{name}\" cannot be a {kind.name} because it was made {earlier.property.name} on line {earlier.line}, which a {kind.name} cannot be"
  | properties name new earlier =>
    s!"\"{name}\" cannot be {new.text} because it was made {earlier.text} on line {earlier.line}"
  | propertyAfterKind name property earlier line =>
    s!"\"{name}\" cannot be {property.name} because it was made a {earlier.name} on line {line}"
  | noCommonKind name property earlier =>
    s!"\"{name}\" cannot be {property.name} because it was made {earlier.property.name} on line {earlier.line}, and nothing can be both"
  | exits name earlier =>
    s!"\"{name}\" already leads {earlier.direction} to \"{earlier.destination}\" (line {earlier.line})"
  | placedAtItself name preposition => s!"\"{name}\" cannot be {preposition.word} itself"
  | placements name earlier =>
    s!"\"{name}\" was already placed {earlier.preposition.word} \"{earlier.target}\" on line {earlier.line}"

end Conflict

/-- The kinds that properties suggest: those that one of them names as most general and
that all of them fit. -/
def candidates (properties : List Property) : List Kind :=
  (properties.flatMap (·.kinds)).filter fun k => properties.all (·.fits k)

namespace Record

/-- Nothing is said yet. -/
def fresh (name : String) (line : Nat) : Record :=
  ⟨name, line, none, [], none, [], none⟩

/-- The key under which a thing is known: its name, whatever its case. -/
def key (r : Record) : String :=
  Text.lower r.name

/-- The assertions that are not negated. -/
def plain (r : Record) : List Assertion :=
  r.assertions.filter (! ·.negated)

/-- The kind that a thing has after it was given one more: the more special of the two. -/
def mergeKind (r : Record) (kind : Kind) : Except Conflict Kind :=
  match r.kind with
  | none => pure kind
  | some (earlier, line) =>
    if !earlier.related kind then throw (.kinds r.name kind earlier line)
    else pure (if earlier.isA kind then earlier else kind)

/-- Gives a thing a kind.  The line of the kind it had is kept if that kind is. -/
def setKind (r : Record) (kind : Kind) (line : Nat) : Except Conflict Record := do
  if kind.type?.isNone then throw (.unsupported kind)
  let merged ← r.mergeKind kind
  match r.plain.find? fun a => !a.property.fits merged with
  | some earlier => throw (.kindAfterProperty r.name kind earlier)
  | none =>
    let line := match r.kind with
      | some (earlier, earlierLine) => if earlier = merged then earlierLine else line
      | none => line
    pure { r with kind := some (merged, line) }

/-- An earlier assertion that leaves no kind for a thing with one more property.  The
first that alone excludes the property is blamed, or else the very first. -/
def excludedBy? (r : Record) (property : Property) : Option Assertion :=
  if (candidates (r.plain.map (·.property) ++ [property])).isEmpty then
    r.plain.find? (fun a => (candidates [a.property, property]).isEmpty) <|> r.plain.head?
  else none

/-- Passes if a property suits the kind of a thing, or the kinds that it still may have. -/
def checkFits (r : Record) (property : Property) : Except Conflict Unit :=
  match r.kind with
  | some (kind, line) =>
    if property.fits kind then pure () else throw (.propertyAfterKind r.name property kind line)
  | none =>
    match r.excludedBy? property with
    | some earlier => throw (.noCommonKind r.name property earlier)
    | none => pure ()

/-- Adds an assertion, unless it was made before. -/
def addAssertion (r : Record) (a : Assertion) : Record :=
  if r.assertions.any a.agrees then r else { r with assertions := r.assertions ++ [a] }

/-- Asserts a property of a thing, or its negation. -/
def claim (r : Record) (a : Assertion) : Except Conflict Record :=
  match r.assertions.find? a.contradicts with
  | some earlier => throw (.properties r.name a earlier)
  | none => do
    if !a.negated then r.checkFits a.property
    pure (r.addAssertion a)

/-- Adds an exit, unless it is there.  A direction leads to one place only. -/
def addExit (r : Record) (exit : Exit) : Except Conflict Record :=
  match r.exits.find? (·.direction == exit.direction) with
  | some earlier =>
    if earlier.destination = exit.destination then pure r else throw (.exits r.name earlier)
  | none => pure { r with exits := r.exits ++ [exit] }

/-- Places a thing.  It can be placed again where it is, but nowhere else. -/
def place (r : Record) (p : Placement) : Except Conflict Record :=
  match r.placement with
  | some earlier =>
    if earlier.target = p.target ∧ earlier.preposition = p.preposition then
      pure { r with placement := some p }
    else throw (.placements r.name earlier)
  | none => pure { r with placement := some p }

end Record

end Adventure.Prose
