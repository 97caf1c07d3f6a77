/-
Checking operations.

An operation is checked against what has been declared before it, just before it is
carried out.  The check covers the number of arguments, the subject, the names and
their types, and the texts of values.  Where an operation carries a value, passing
the check also gives the typed value that its execution uses.
-/
import Adventure.Declarations
import Adventure.Operation
import Adventure.World.Field

namespace Adventure

namespace Opcode

/-- What an opcode does, as complaints put it. -/
def action : Opcode → String
  | defineDirection => "define direction"
  | defineDirectionSynonym => "define direction synonym"
  | defineVerbSynonym => "define verb synonym"
  | defineEntityClass => "define class"
  | defineEntity => "define entity"
  | setProperty => "set property"
  | setMessage => "set message"
  | setTag => "set tag"
  | removeTag => "remove tag"
  | loadScript => "load script"
  | setEvent => "set event"
  | setAlias => "set alias"
  | setMeta => "set meta value"
  | setAttribute => "set attribute"
  | insertIntoInventory => "insert into inventory"
  | insertIntoPlace => "insert into place"
  | connectRooms => "connect rooms"
  | allocateResource => "allocate resource"
  | setTimerPeriod => "set timer period"

end Opcode

namespace Validation

/-- What an operation is found wanting in. -/
inductive Fault where
  | cannotTarget (op : Opcode) (word : String)
  | wrongCount (op : Opcode) (arity : Arity) (count : Nat)
  | noEntity (op : Opcode) (name : String)
  | noClass (op : Opcode) (name : String)
  | wrongType (op : Opcode) (name : String) (actual wanted : EntityType)
  | undeclared (op : Opcode) (wanted : EntityType) (name : String)
  | reservedName (op : Opcode) (name : String)
  | entityExists (op : Opcode) (name : String)
  | invalidType (op : Opcode) (word : String)
  | directionTaken (word : String)
  | notDirection (op : Opcode) (word : String)
  | wordNamesDirection (word : String)
  | verbTaken (word verb : String)
  | classOfOtherType (name : String) (existing wanted : EntityType)
  | classDefined (name : String)
  | isClass (op : Opcode) (name : String)
  | classMismatch (className : String) (classType : EntityType) (name : String) (type : EntityType)
  | pluralOfNonResource (name : String) (type : EntityType)
  | invalidProperty (property : String) (type : EntityType)
  | invalidGameProperty (property : String)
  | wrongText (complaint : String)
  | emptyName (op : Opcode)
  | scriptMode (word : String)
  | aliasOfNonThing
  | attributeOfNonBeing
  | notRoom (op : Opcode) (name : String)
  | notWhole (resource amount : String)
  | periodNotPositive
  deriving DecidableEq, Repr

/-- The words for the sorts of subjects an opcode can act on. -/
def targetList (op : Opcode) : String :=
  ", ".intercalate (op.targets.map (·.name))

/-- The fault in words. -/
def Fault.message : Fault → String
  | cannotTarget op word => s!"{op} cannot target \"{word}\"; expected one of {targetList op}"
  | wrongCount op arity count => s!"{op} expects {arity} arguments but got {count}"
  | noEntity op name => s!"cannot {op.action}: entity \"{name}\" has not been declared"
  | noClass op name => s!"cannot {op.action}: class \"{name}\" has not been declared"
  | wrongType op name actual wanted =>
    s!"cannot {op.action}: \"{name}\" is a {actual}, not a {wanted}"
  | undeclared op wanted name => s!"cannot {op.action}: {wanted} \"{name}\" has not been declared"
  | reservedName op name => s!"cannot {op.action}: \"{name}\" is a reserved name"
  | entityExists op name => s!"cannot {op.action}: entity \"{name}\" already exists"
  | invalidType op word => s!"cannot {op.action}: \"{word}\" is not a valid entity type"
  | directionTaken word => s!"direction \"{word}\" is already defined"
  | notDirection op word => s!"cannot {op.action}: \"{word}\" is not a direction"
  | wordNamesDirection word => s!"\"{word}\" already names a direction"
  | verbTaken word verb => s!"\"{word}\" is already a synonym for \"{verb}\""
  | classOfOtherType name existing wanted =>
    s!"class-type mismatch: class \"{name}\" was declared as a {existing} class and cannot be redefined as a {wanted} class"
  | classDefined name => s!"class \"{name}\" is already defined"
  | isClass op name => s!"cannot {op.action}: \"{name}\" is already a class"
  | classMismatch className classType name type =>
    s!"class-type mismatch: \"{className}\" is a {classType} class, but \"{name}\" is a {type}"
  | pluralOfNonResource name type =>
    s!"only resources may have a custom plural name, but \"{name}\" is a {type}"
  | invalidProperty property type => s!"\"{property}\" is not a valid property for a {type}"
  | invalidGameProperty property => s!"\"{property}\" is not a valid game property"
  | wrongText complaint => complaint
  | emptyName op => s!"cannot {op.action}: name must not be empty"
  | scriptMode word => s!"script mode must be \"file\" or \"string\", got \"{word}\""
  | aliasOfNonThing => "aliases can only be set on objects, creatures and players"
  | attributeOfNonBeing => "attributes can only be set on creatures and players"
  | notRoom op name => s!"cannot {op.action}: \"{name}\" is not a room"
  | notWhole resource amount =>
    s!"\"{resource}\" can only be allocated in whole amounts, got {amount}"
  | periodNotPositive => "timer period must be positive"

/-! ### Checks that operations share -/

/-- Passes with the value that a text stands for under a rule. -/
def readValue (rule : Rule) (property text : String) : Except Fault Value :=
  (rule.read property text).mapError .wrongText

/-- Checks that the operation acts on something it can act on, with the right number
of arguments. -/
def checkArity (op : Operation) : Except Fault Unit :=
  match op.arity with
  | none => throw (.cannotTarget op.opcode (op.argument 0))
  | some arity =>
    if arity.accepts op.arguments.length then pure ()
    else throw (.wrongCount op.opcode arity op.arguments.length)

/-- Checks the operation's arguments and its subject, and gives the subject's type.
The game has none. -/
def checkSubject (d : Declarations) (op : Operation) : Except Fault (Option EntityType) := do
  checkArity op
  let name := op.argument 1
  match op.target? with
  | some .entity =>
    match d.entityType? name with
    | some type => pure (some type)
    | none => throw (.noEntity op.opcode name)
  | some .entityClass =>
    match d.classType? name with
    | some type => pure (some type)
    | none => throw (.noClass op.opcode name)
  | some .defaultPlayer => pure (some .player)
  | _ => pure none

/-- Checks that a name is that of an entity of a type. -/
def checkEntity (d : Declarations) (op : Opcode) (name : String) (type : EntityType) :
    Except Fault Unit :=
  match d.entityType? name with
  | some actual => if actual.isA type then pure () else throw (.wrongType op name actual type)
  | none => throw (.undeclared op type name)

/-- Checks that a name is not taken by a type or an entity, and is not empty. -/
def checkNewName (d : Declarations) (op : Opcode) (name : String) : Except Fault Unit := do
  if name = "" ∨ (EntityType.ofName? name).isSome then throw (.reservedName op name)
  if (d.entity? name).isSome then throw (.entityExists op name)

/-- The type that a word names, if games can declare entities of it. -/
def instantiableType (op : Opcode) (word : String) : Except Fault EntityType :=
  match (EntityType.ofName? word).filter (·.isInstantiable) with
  | some type => pure type
  | none => throw (.invalidType op word)

/-! ### The check of each opcode -/

def defineDirection (v : Vocabulary) (d : Declarations) (op : Operation) :
    Except Fault (Option Value) := do
  checkArity op
  let word := op.argument 0
  if (d.resolveDirection v word).isSome then throw (.directionTaken word)
  pure none

def defineDirectionSynonym (v : Vocabulary) (d : Declarations) (op : Operation) :
    Except Fault (Option Value) := do
  checkArity op
  let direction := op.argument 0
  let word := op.argument 1
  if d.resolveDirection v direction ≠ some direction then
    throw (.notDirection op.opcode direction)
  if (d.resolveDirection v word).isSome then throw (.wordNamesDirection word)
  pure none

def defineVerbSynonym (d : Declarations) (op : Operation) : Except Fault (Option Value) := do
  checkArity op
  let word := op.argument 1
  match d.verbFor? word with
  | some verb => throw (.verbTaken word verb)
  | none => pure none

def defineEntityClass (d : Declarations) (op : Operation) : Except Fault (Option Value) := do
  checkArity op
  let name := op.argument 0
  let type ← instantiableType op.opcode (op.argument 1)
  checkNewName d op.opcode name
  match d.classType? name with
  | some existing =>
    if existing = type then throw (.classDefined name)
    else throw (.classOfOtherType name existing type)
  | none => pure none

def defineEntity (d : Declarations) (op : Operation) : Except Fault (Option Value) := do
  checkArity op
  let name := op.argument 0
  let className := op.argument 2
  let type ← instantiableType op.opcode (op.argument 1)
  checkNewName d op.opcode name
  if (d.class? name).isSome then throw (.isClass op.opcode name)
  if !d.classAllows className type then
    match d.classType? className with
    | some classType => throw (.classMismatch className classType name type)
    | none => throw (.noClass op.opcode className)
  if op.arguments.length = 4 ∧ type ≠ .resource then throw (.pluralOfNonResource name type)
  pure none

/-- The rule for a property of a subject; a subject without a type is the game. -/
def propertyRule (type : Option EntityType) (property : String) : Except Fault Rule :=
  match type with
  | some type =>
    match Field.of? type property with
    | some field => pure field.rule
    | none => throw (.invalidProperty property type)
  | none =>
    match SettingsField.of? property with
    | some field => pure field.rule
    | none => throw (.invalidGameProperty property)

def setProperty (d : Declarations) (op : Operation) : Except Fault (Option Value) := do
  let type ← checkSubject d op
  let property := op.payloadAt 0
  let rule ← propertyRule type property
  some <$> readValue rule property (op.payloadAt 1)

/-- The check of the operations that give a subject something under a name. -/
def setNamed (d : Declarations) (op : Operation) : Except Fault (Option Value) := do
  let _ ← checkSubject d op
  if Text.isBlankText (op.payloadAt 0) then throw (.emptyName op.opcode)
  pure none

def loadScript (d : Declarations) (op : Operation) : Except Fault (Option Value) := do
  let _ ← checkSubject d op
  let mode := op.payloadAt 0
  if (ScriptMode.ofName? mode).isNone then throw (.scriptMode mode)
  pure none

def setAlias (d : Declarations) (op : Operation) : Except Fault (Option Value) := do
  let type ← checkSubject d op
  if !type.any (·.isA .thing) then throw .aliasOfNonThing
  pure none

def setAttribute (d : Declarations) (op : Operation) : Except Fault (Option Value) := do
  let type ← checkSubject d op
  if !type.any (·.isA .being) then throw .attributeOfNonBeing
  some <$> readValue .integer (op.payloadAt 0) (op.payloadAt 1)

def insertIntoInventory (d : Declarations) (op : Operation) : Except Fault (Option Value) := do
  checkArity op
  checkEntity d op.opcode (op.argument 0) .object
  checkEntity d op.opcode (op.argument 1) .being
  pure none

def insertIntoPlace (d : Declarations) (op : Operation) : Except Fault (Option Value) := do
  checkArity op
  checkEntity d op.opcode (op.argument 0) .thing
  checkEntity d op.opcode (op.argument 1) .place
  pure none

def connectRooms (v : Vocabulary) (d : Declarations) (op : Operation) :
    Except Fault (Option Value) := do
  let type ← checkSubject d op
  if type ≠ some .room then throw (.notRoom op.opcode (op.argument 1))
  let word := op.argument 2
  match d.resolveDirection v word with
  | none => throw (.notDirection op.opcode word)
  | some direction =>
    checkEntity d op.opcode (op.argument 3) .room
    pure (some (.string direction))

/-- Whether a value is a whole number. -/
def isWhole (v : Value) : Bool :=
  v.number?.any Amount.isWhole

def allocateResource (d : Declarations) (op : Operation) : Except Fault (Option Value) := do
  checkArity op
  let resource := op.argument 0
  let amount := op.argument 2
  checkEntity d op.opcode resource .resource
  checkEntity d op.opcode (op.argument 1) .tangible
  let v ← readValue .nonNegative "allocation amount" amount
  if d.requiresWhole resource ∧ ¬ isWhole v then throw (.notWhole resource amount)
  pure (some v)

def setTimerPeriod (op : Operation) : Except Fault (Option Value) := do
  checkArity op
  let v ← readValue .integer "timer period" (op.argument 0)
  if v.integer?.any (· ≤ 0) then throw .periodNotPositive
  pure (some v)

/-- Checks an operation against what has been declared before it. -/
def check (v : Vocabulary) (d : Declarations) (op : Operation) : Except Fault (Option Value) :=
  match op.opcode with
  | .defineDirection => defineDirection v d op
  | .defineDirectionSynonym => defineDirectionSynonym v d op
  | .defineVerbSynonym => defineVerbSynonym d op
  | .defineEntityClass => defineEntityClass d op
  | .defineEntity => defineEntity d op
  | .setProperty => setProperty d op
  | .loadScript => loadScript d op
  | .setAlias => setAlias d op
  | .setAttribute => setAttribute d op
  | .setMessage | .setTag | .removeTag | .setEvent | .setMeta => setNamed d op
  | .insertIntoInventory => insertIntoInventory d op
  | .insertIntoPlace => insertIntoPlace d op
  | .connectRooms => connectRooms v d op
  | .allocateResource => allocateResource d op
  | .setTimerPeriod => setTimerPeriod op

end Validation

end Adventure
