/-
Operations: the steps that build a world.

An operation is an opcode with positional arguments, all of them text, and the line
it stems from.  Many opcodes act on a subject, which their first one or two
arguments spell: the word for the sort of subject, then the subject's name if it
has one.  The arguments behind the subject are the payload.
-/
import Adventure.Arity
import Adventure.EntityType

namespace Adventure

/-- The sorts of subjects, as operations spell them. -/
inductive Target where
  | entity
  | entityClass
  | defaultPlayer
  | game
  deriving DecidableEq, Repr

namespace Target

/-- The word for the sort of subject. -/
def name : Target → String
  | entity => "entity"
  | entityClass => "class"
  | defaultPlayer => "defaultPlayer"
  | game => "game"

instance : ToString Target := ⟨name⟩

/-- Every sort of subject. -/
def all : List Target :=
  [entity, entityClass, defaultPlayer, game]

/-- The sort of subject that a word spells. -/
def ofName? (word : String) : Option Target :=
  all.find? (·.name == word)

theorem ofName?_name (t : Target) : ofName? t.name = some t := by
  cases t <;> decide

/-- Whether the subject's name follows as an argument of its own. -/
def isNamed : Target → Bool
  | entity | entityClass => true
  | defaultPlayer | game => false

end Target

/-- What an operation acts on. -/
inductive Subject where
  | entity (name : String)
  | entityClass (name : String)
  | defaultPlayer
  | game
  deriving DecidableEq, Repr

namespace Subject

/-- The sort of a subject. -/
def target : Subject → Target
  | entity _ => .entity
  | entityClass _ => .entityClass
  | defaultPlayer => .defaultPlayer
  | game => .game

/-- The arguments that spell a subject. -/
def arguments : Subject → List String
  | entity name => [Target.entity.name, name]
  | entityClass name => [Target.entityClass.name, name]
  | defaultPlayer => [Target.defaultPlayer.name]
  | game => [Target.game.name]

/-- The subject in words, as messages name it. -/
def text : Subject → String
  | entity name => s!"entity \"{name}\""
  | entityClass name => s!"class \"{name}\""
  | defaultPlayer => "defaultPlayer"
  | game => "game"

end Subject

/-- What an operation does. -/
inductive Opcode where
  | defineDirection
  | defineDirectionSynonym
  | defineVerbSynonym
  | defineEntityClass
  | defineEntity
  | setProperty
  | setMessage
  | setTag
  | removeTag
  | loadScript
  | setEvent
  | setAlias
  | setMeta
  | setAttribute
  | insertIntoInventory
  | insertIntoPlace
  | connectRooms
  | allocateResource
  | setTimerPeriod
  deriving DecidableEq, Repr, Inhabited

namespace Opcode

/-- Every opcode. -/
def all : List Opcode :=
  [defineDirection, defineDirectionSynonym, defineVerbSynonym, defineEntityClass, defineEntity,
   setProperty, setMessage, setTag, removeTag, loadScript, setEvent, setAlias, setMeta,
   setAttribute, insertIntoInventory, insertIntoPlace, connectRooms, allocateResource,
   setTimerPeriod]

theorem mem_all (op : Opcode) : op ∈ all := by
  cases op <;> decide

/-- The name of an opcode in listings and messages. -/
def name : Opcode → String
  | defineDirection => "DEFINE_DIRECTION"
  | defineDirectionSynonym => "DEFINE_DIRECTION_SYNONYM"
  | defineVerbSynonym => "DEFINE_VERB_SYNONYM"
  | defineEntityClass => "DEFINE_ENTITY_CLASS"
  | defineEntity => "DEFINE_ENTITY"
  | setProperty => "SET_PROPERTY"
  | setMessage => "SET_MESSAGE"
  | setTag => "SET_TAG"
  | removeTag => "REMOVE_TAG"
  | loadScript => "LOAD_SCRIPT"
  | setEvent => "SET_EVENT"
  | setAlias => "SET_ALIAS"
  | setMeta => "SET_META"
  | setAttribute => "SET_ATTRIBUTE"
  | insertIntoInventory => "INSERT_INTO_INVENTORY"
  | insertIntoPlace => "INSERT_INTO_PLACE"
  | connectRooms => "CONNECT_ROOMS"
  | allocateResource => "ALLOCATE_RESOURCE"
  | setTimerPeriod => "SET_TIMER_PERIOD"

instance : ToString Opcode := ⟨name⟩

/-- The opcode of a name. -/
def ofName? (word : String) : Option Opcode :=
  all.find? (·.name == word)

/-- The sorts of subjects an opcode can act on; none if it acts on no subject. -/
def targets : Opcode → List Target
  | setProperty | setMessage | setMeta => [.entity, .entityClass, .defaultPlayer, .game]
  | setTag | removeTag | setAttribute => [.entity, .entityClass, .defaultPlayer]
  | loadScript | setEvent => [.entity, .entityClass, .game]
  | setAlias | connectRooms => [.entity, .entityClass]
  | _ => []

/-- How many arguments follow the subject, for the opcodes that act on one. -/
def payloadCount : Opcode → Nat
  | setTag | removeTag | setAlias => 1
  | _ => 2

/-- How many arguments an opcode takes in all, given the sort of its subject; none
if it cannot act on that. -/
def arity (op : Opcode) (target : Option Target) : Option Arity :=
  match op with
  | defineDirection | setTimerPeriod => some (.exactly 1)
  | defineDirectionSynonym | defineVerbSynonym | defineEntityClass | insertIntoInventory
  | insertIntoPlace => some (.exactly 2)
  | allocateResource => some (.exactly 3)
  | defineEntity => some (.between 3 4)
  | _ =>
    (target.filter (op.targets.contains ·)).map fun t =>
      .exactly (op.payloadCount + if t.isNamed then 2 else 1)

end Opcode

/-- Where the text of a script comes from. -/
inductive ScriptMode where
  /-- The script is in a file, and the text is its path. -/
  | file
  /-- The text is the script. -/
  | inline
  deriving DecidableEq, Repr

namespace ScriptMode

/-- The word for the mode in an operation. -/
def name : ScriptMode → String
  | file => "file"
  | inline => "string"

/-- The mode that a word spells. -/
def ofName? (word : String) : Option ScriptMode :=
  [file, inline].find? (·.name == word)

end ScriptMode

/-- One step: what to do, to what, and the line it stems from. -/
structure Operation where
  opcode : Opcode
  arguments : List String
  line : Nat
  deriving DecidableEq, Repr

namespace Operation

/-- The sort of subject the operation names, if its opcode acts on one at all. -/
def target? (op : Operation) : Option Target :=
  if op.opcode.targets.isEmpty then none else op.arguments.head?.bind Target.ofName?

/-- The argument at a position, empty if there is none. -/
def argument (op : Operation) (index : Nat) : String :=
  op.arguments.getD index ""

/-- The subject the operation names. -/
def subject? (op : Operation) : Option Subject :=
  op.target?.map fun target =>
    match target with
    | .entity => .entity (op.argument 1)
    | .entityClass => .entityClass (op.argument 1)
    | .defaultPlayer => .defaultPlayer
    | .game => .game

/-- The arguments behind the subject. -/
def payload (op : Operation) : List String :=
  match op.target? with
  | some target => op.arguments.drop (if target.isNamed then 2 else 1)
  | none => op.arguments

/-- The argument at a position of the payload, empty if there is none. -/
def payloadAt (op : Operation) (index : Nat) : String :=
  op.payload.getD index ""

/-- How many arguments the operation may have. -/
def arity (op : Operation) : Option Arity :=
  op.opcode.arity op.target?

/-! ### Operations by what they do -/

def defineDirection (direction : String) (line : Nat) : Operation :=
  ⟨.defineDirection, [direction], line⟩

def defineDirectionSynonym (direction synonym : String) (line : Nat) : Operation :=
  ⟨.defineDirectionSynonym, [direction, synonym], line⟩

def defineVerbSynonym (verb synonym : String) (line : Nat) : Operation :=
  ⟨.defineVerbSynonym, [verb, synonym], line⟩

def defineEntityClass (name : String) (type : EntityType) (line : Nat) : Operation :=
  ⟨.defineEntityClass, [name, type.name], line⟩

def defineEntity (name : String) (type : EntityType) (className : String) (plural : Option String)
    (line : Nat) : Operation :=
  ⟨.defineEntity, [name, type.name, className] ++ plural.toList, line⟩

/-- An operation on a subject. -/
def acting (opcode : Opcode) (subject : Subject) (payload : List String) (line : Nat) : Operation :=
  ⟨opcode, subject.arguments ++ payload, line⟩

def setProperty (subject : Subject) (property value : String) (line : Nat) : Operation :=
  acting .setProperty subject [property, value] line

def setMessage (subject : Subject) (message text : String) (line : Nat) : Operation :=
  acting .setMessage subject [message, text] line

def setTag (subject : Subject) (tag : String) (line : Nat) : Operation :=
  acting .setTag subject [tag] line

def removeTag (subject : Subject) (tag : String) (line : Nat) : Operation :=
  acting .removeTag subject [tag] line

def loadScript (subject : Subject) (mode : ScriptMode) (text : String) (line : Nat) : Operation :=
  acting .loadScript subject [mode.name, text] line

def setEvent (subject : Subject) (event function : String) (line : Nat) : Operation :=
  acting .setEvent subject [event, function] line

def setAlias (subject : Subject) (name : String) (line : Nat) : Operation :=
  acting .setAlias subject [name] line

def setMeta (subject : Subject) (key value : String) (line : Nat) : Operation :=
  acting .setMeta subject [key, value] line

def setAttribute (subject : Subject) (name value : String) (line : Nat) : Operation :=
  acting .setAttribute subject [name, value] line

def insertIntoInventory (object being : String) (line : Nat) : Operation :=
  ⟨.insertIntoInventory, [object, being], line⟩

def insertIntoPlace (thing place : String) (line : Nat) : Operation :=
  ⟨.insertIntoPlace, [thing, place], line⟩

def connectRooms (subject : Subject) (direction destination : String) (line : Nat) : Operation :=
  acting .connectRooms subject [direction, destination] line

def allocateResource (resource owner amount : String) (line : Nat) : Operation :=
  ⟨.allocateResource, [resource, owner, amount], line⟩

def setTimerPeriod (period : String) (line : Nat) : Operation :=
  ⟨.setTimerPeriod, [period], line⟩

end Operation

end Adventure
