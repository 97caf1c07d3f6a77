/-
What a game has declared.

A declaration gives a name to an entity, a class, a direction or a synonym.  The
checks that need no more than the declarations made so far are here, with the
refusals they end in.
-/
import Adventure.Error
import Adventure.Vocabulary

namespace Adventure

/-- An entity as it was declared. -/
structure DeclaredEntity where
  name : String
  type : EntityType
  className : String
  line : Nat
  deriving DecidableEq, Repr

/-- A class as it was declared. -/
structure DeclaredClass where
  name : String
  type : EntityType
  line : Nat
  deriving DecidableEq, Repr

/-- Everything declared so far. -/
structure Declarations where
  entities : NameTable DeclaredEntity
  classes : NameTable DeclaredClass
  /-- The game's own directions. -/
  directions : NameSet
  /-- The game's own words for directions. -/
  directionSynonyms : NameTable String
  /-- The game's own words for verbs. -/
  verbSynonyms : NameTable String
  /-- The entities and classes of resources that come in whole amounts only. -/
  wholeResources : NameSet

namespace Declarations

/-- Nothing is declared. -/
def empty : Declarations :=
  ⟨∅, ∅, ∅, ∅, ∅, ∅⟩

/-! ### Queries -/

def entity? (d : Declarations) (name : String) : Option DeclaredEntity :=
  d.entities[name]?

def class? (d : Declarations) (name : String) : Option DeclaredClass :=
  d.classes[name]?

/-- The type of the entity of a name. -/
def entityType? (d : Declarations) (name : String) : Option EntityType :=
  (d.entity? name).map (·.type)

/-- The type of the instances of the class of a name. -/
def classType? (d : Declarations) (name : String) : Option EntityType :=
  (d.class? name).map (·.type)

/-- Whether entities of a type can be made from the class of a name.  The name of a
type serves as a class of that type. -/
def classAllows (d : Declarations) (className : String) (type : EntityType) : Bool :=
  className = type.name || d.classType? className = some type

/-- Whether a word is one of the game's own directions. -/
def isOwnDirection (d : Declarations) (word : String) : Bool :=
  d.directions.contains word

/-- The direction that a word means: the game's own directions come first, then the
vocabulary, then the game's own synonyms. -/
def resolveDirection (d : Declarations) (v : Vocabulary) (word : String) : Option String :=
  if d.directions.contains word then some word
  else v.resolveDirection word <|> d.directionSynonyms[word]?

/-- The verb that a word was made a synonym of. -/
def verbFor? (d : Declarations) (word : String) : Option String :=
  d.verbSynonyms[word]?

/-- Whether a resource comes in whole amounts only. -/
def requiresWhole (d : Declarations) (name : String) : Bool :=
  d.wholeResources.contains name

/-! ### Plain additions -/

/-- Adds an entity.  It comes in whole amounts if its class does. -/
def addEntity (d : Declarations) (entity : DeclaredEntity) : Declarations :=
  { d with
    entities := d.entities.insert entity.name entity
    wholeResources :=
      if d.wholeResources.contains entity.className then d.wholeResources.insert entity.name
      else d.wholeResources }

def addClass (d : Declarations) (declared : DeclaredClass) : Declarations :=
  { d with classes := d.classes.insert declared.name declared }

def addDirection (d : Declarations) (direction : String) : Declarations :=
  { d with directions := d.directions.insert direction }

def addDirectionSynonym (d : Declarations) (direction word : String) : Declarations :=
  { d with directionSynonyms := d.directionSynonyms.insert word direction }

def addVerbSynonym (d : Declarations) (verb word : String) : Declarations :=
  { d with verbSynonyms := d.verbSynonyms.insert word verb }

/-- Notes whether a resource comes in whole amounts only. -/
def setWhole (d : Declarations) (name : String) (required : Bool) : Declarations :=
  { d with
    wholeResources :=
      if required then d.wholeResources.insert name else d.wholeResources.erase name }

/-! ### Checked declarations -/

/-- Why a declaration or a reference is refused. -/
inductive Refusal where
  | reservedForClass (name : String)
  | reservedForEntity (name : String)
  | entityTaken (name : String) (line : Nat)
  | classTaken (name : String) (line : Nat)
  | wrongClass (className : String) (type : EntityType) (name : String)
  | referencedAs (name : String) (declared referenced : EntityType) (lines : List Nat)
  | declaredAs (name : String) (declared : EntityType) (line : Nat) (wanted : EntityType)
  | namesClass (name : String)
  | usedAs (name : String) (used : EntityType) (line : Nat) (wanted : EntityType)
  | directionTaken (word : String)
  | notDirection (word : String)
  | wordNamesDirection (word : String)
  | verbTaken (word verb : String)
  deriving DecidableEq, Repr

namespace Refusal

/-- The refusal in words. -/
def message : Refusal → String
  | reservedForClass name => s!"\"{name}\" is a reserved name and cannot be used as a class"
  | reservedForEntity name => s!"\"{name}\" is a reserved name and cannot be used as an entity"
  | entityTaken name line => s!"\"{name}\" was already declared as an entity on line {line}"
  | classTaken name line => s!"\"{name}\" was already declared as a class on line {line}"
  | wrongClass className type name =>
    s!"\"{className}\" is not a {type} class, so {type} \"{name}\" cannot be created from it"
  | referencedAs name declared referenced lines =>
    s!"\"{name}\" is declared as a {declared} but was referenced as a {referenced} on line(s) {listLines lines}"
  | declaredAs name declared line wanted =>
    s!"\"{name}\" was declared as a {declared} on line {line}, not a {wanted}"
  | namesClass name => s!"\"{name}\" is a class, not an entity"
  | usedAs name used line wanted =>
    s!"\"{name}\" was referenced as a {used} on line {line}, not a {wanted}"
  | directionTaken word => s!"direction \"{word}\" is already defined"
  | notDirection word => s!"\"{word}\" is not a direction"
  | wordNamesDirection word => s!"\"{word}\" already names a direction"
  | verbTaken word verb => s!"\"{word}\" is already a synonym for \"{verb}\""

/-- The refusal of what a line says. -/
def onLine (r : Refusal) (line : Nat) : Error :=
  .parse r.message line

end Refusal

/-- Passes if neither an entity nor a class has the name. -/
def checkUnused (d : Declarations) (name : String) : Except Refusal Unit :=
  match d.entity? name, d.class? name with
  | some entity, _ => throw (.entityTaken name entity.line)
  | none, some declared => throw (.classTaken name declared.line)
  | none, none => pure ()

/-- Declares a class. -/
def declareClass (d : Declarations) (name : String) (type : EntityType) (line : Nat) :
    Except Refusal Declarations := do
  if (EntityType.ofName? name).isSome then throw (.reservedForClass name)
  d.checkUnused name
  pure (d.addClass ⟨name, type, line⟩)

/-- Declares a direction. -/
def declareDirection (d : Declarations) (v : Vocabulary) (word : String) :
    Except Refusal Declarations := do
  if (d.resolveDirection v word).isSome then throw (.directionTaken word)
  pure (d.addDirection word)

/-- Declares a word for a direction. -/
def declareDirectionSynonym (d : Declarations) (v : Vocabulary) (direction word : String) :
    Except Refusal Declarations := do
  if d.resolveDirection v direction ≠ some direction then throw (.notDirection direction)
  if (d.resolveDirection v word).isSome then throw (.wordNamesDirection word)
  pure (d.addDirectionSynonym direction word)

/-- Declares a word for a verb. -/
def declareVerbSynonym (d : Declarations) (verb word : String) :
    Except Refusal Declarations :=
  match d.verbFor? word with
  | some existing => throw (.verbTaken word existing)
  | none => pure (d.addVerbSynonym verb word)

end Declarations

end Adventure
