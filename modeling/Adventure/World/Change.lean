/-
What operations change in a world.

Each change takes its operation's arguments as they stand, for they were checked.  If
they were not, a change that cannot be made ends in an error, and what it did before
that point stays done.
-/
import Adventure.Config
import Adventure.Files
import Adventure.World.Setter
import Adventure.World.State

namespace Adventure

/-- A promise of the checks that does not hold. -/
inductive Breach where
  | noEntity (name : String)
  | noClass (name : String)
  | invalidTarget (op : Opcode) (word : String)
  | gameTarget (op : Opcode)
  | unknownType (op : Opcode) (word : String)
  | abstractType (type : EntityType)
  | unknownMode (word : String)
  | noAttributeValue
  | noAttributes (type : EntityType)
  | notObject (name : String)
  | notBeing (name : String)
  | notRoom (name : String)
  | notResource (name : String)
  | noAmount
  | noPeriod (line : Nat)
  | setter (fault : Setter.Fault)
  deriving DecidableEq, Repr

namespace Breach

/-- The breach in words. -/
def message : Breach → String
  | noEntity name => s!"entity \"{name}\" was never created"
  | noClass name => s!"class \"{name}\" was never created"
  | invalidTarget op word => s!"{op} with invalid target \"{word}\""
  | gameTarget op => s!"{op} cannot target the game"
  | unknownType op word => s!"{op} with unknown type \"{word}\""
  | abstractType type => s!"cannot create an entity of abstract type {type}"
  | unknownMode word => s!"unknown script mode \"{word}\""
  | noAttributeValue => "SET_ATTRIBUTE without an integer value"
  | noAttributes type => s!"a {type} has no attributes"
  | notObject name => s!"\"{name}\" is not an object"
  | notBeing name => s!"\"{name}\" is not a being"
  | notRoom name => s!"\"{name}\" is not a room"
  | notResource name => s!"\"{name}\" is not a resource"
  | noAmount => "ALLOCATE_RESOURCE without a numeric amount"
  | noPeriod line => s!"SET_TIMER_PERIOD without an integer period on line {line}"
  | setter fault => fault.message

/-- The breach as an error. -/
def error (b : Breach) : Error :=
  .internal b.message

end Breach

/-- What a change has at hand besides the world. -/
structure Surroundings where
  config : Config
  files : Files
  setters : SetterTable

/-- A change of a world, which may fail halfway. -/
abbrev Change := EStateM Error World

/-- What there is, or else a breach. -/
def orBreach {α : Type} (x : Option α) (b : Breach) : Except Error α :=
  match x with
  | some x => .ok x
  | none => .error b.error

namespace World

/-- Fails with a breach. -/
def breach {α : Type} (b : Breach) : Change α :=
  throw b.error

/-- The entity of a name. -/
def getEntity (name : String) : Change Entity := fun w =>
  match w.entity? name with
  | some e => .ok e w
  | none => .error (Breach.noEntity name).error w

/-- Changes the entity of a name. -/
def changeEntity (name : String) (f : Entity → Except Error Entity) : Change Unit := fun w =>
  match orBreach (w.entity? name) (.noEntity name) >>= f with
  | .ok e => .ok () { w with population := w.population.replace name e }
  | .error e => .error e w

/-- Changes the prototype of a class. -/
def changePrototype (name : String) (f : Prototype → Except Error Prototype) : Change Unit :=
  fun w =>
    match orBreach w.classes[name]? (.noClass name) >>= f with
    | .ok p => .ok () { w with classes := w.classes.insert name p }
    | .error e => .error e w

/-- Changes the entity that is the prototype of a class. -/
def changeClass (name : String) (f : Entity → Except Error Entity) : Change Unit :=
  changePrototype name fun p => do
    let entity ← f p.entity
    pure { p with entity }

/-- Changes the template for players. -/
def changePlayer (f : Entity → Except Error Entity) : Change Unit := fun w =>
  match f w.defaultPlayer with
  | .ok e => .ok () { w with defaultPlayer := e }
  | .error e => .error e w

/-- Changes the settings. -/
def changeSettings (f : Settings → Settings) : Change Unit :=
  modify fun w => { w with settings := f w.settings }

/-- Changes the subject of an operation: an entity, by `f`, or the game, by `onGame`. -/
def changeSubject (op : Operation) (f : Entity → Except Error Entity) (onGame : Change Unit) :
    Change Unit :=
  match op.subject? with
  | some (.entity name) => changeEntity name f
  | some (.entityClass name) => changeClass name f
  | some .defaultPlayer => changePlayer f
  | some .game => onGame
  | none => breach (.invalidTarget op.opcode (op.argument 0))

/-- Changes the subject of an operation that cannot be the game. -/
def changeSubjectEntity (op : Operation) (f : Entity → Except Error Entity) : Change Unit :=
  changeSubject op f (breach (.gameTarget op.opcode))

/-! ### Vocabulary and settings -/

def addDirection (op : Operation) : Change Unit :=
  changeSettings fun s => { s with directions := s.directions ++ [op.argument 0] }

def addDirectionSynonym (op : Operation) : Change Unit :=
  changeSettings fun s =>
    { s with directionSynonyms := s.directionSynonyms.insert (op.argument 1) (op.argument 0) }

def addVerbSynonym (op : Operation) : Change Unit :=
  changeSettings fun s =>
    { s with verbSynonyms := s.verbSynonyms.insert (op.argument 1) (op.argument 0) }

def setTimerPeriod (op : Operation) (value : Option Value) : Change Unit :=
  match value.bind (·.integer?) with
  | some period => changeSettings fun s => { s with timerPeriod := some period }
  | none => breach (.noPeriod op.line)

/-! ### Classes and entities -/

/-- The type that an argument of an operation names. -/
def typeArgument (op : Operation) (index : Nat) : Except Error EntityType :=
  orBreach (EntityType.ofName? (op.argument index)) (.unknownType op.opcode (op.argument index))

/-- A new entity of a type. -/
def freshEntity (name : String) (type : EntityType) : Except Error Entity :=
  orBreach (Entity.fresh? name type) (.abstractType type)

def defineClass (op : Operation) : Change Unit := fun w =>
  let name := op.argument 0
  match typeArgument op 1 >>= freshEntity name with
  | .error e => .error e w
  | .ok e => .ok () { w with classes := w.classes.insert name ⟨e.copyAs name name, []⟩ }

/-- The entity that a definition makes, a copy of its class if that is a class of the
game, with the scripts that come with it. -/
def newEntity (w : World) (op : Operation) : Except Error (Entity × List Script) := do
  let name := op.argument 0
  let type ← typeArgument op 1
  match w.classes[op.argument 2]? with
  | some p => pure (p.entity.copyAs name (op.argument 2), p.scripts)
  | none => do
    let e ← freshEntity name type
    pure (e, [])

/-- Gives a resource its plural title, if there is one to give. -/
def withPlural (e : Entity) (plural : Option String) : Entity :=
  match plural with
  | some text => (e.withResource? ({ · with pluralTitle := some text })).getD e
  | none => e

def defineEntity (op : Operation) : Change Unit := fun w =>
  match newEntity w op with
  | .error e => .error e w
  | .ok (e, inherited) =>
    .ok () { w with
      population := w.population.add (withPlural e op.arguments[3]?)
      scripts := inherited.foldl (·.load (.entity (op.argument 0)) ·) w.scripts }

/-! ### What entities carry -/

def setMessage (op : Operation) : Change Unit :=
  let key := op.payloadAt 0
  let text := op.payloadAt 1
  changeSubject op (fun e => pure { e with messages := e.messages.insert key text })
    (changeSettings fun s => { s with messages := s.messages.insert key text })

def setEvent (op : Operation) : Change Unit :=
  let event := op.payloadAt 0
  let function := op.payloadAt 1
  changeSubject op (fun e => pure { e with events := e.events.insert event function })
    (changeSettings fun s => { s with events := s.events.insert event function })

def setMetadata (op : Operation) : Change Unit :=
  let key := op.payloadAt 0
  let value := op.payloadAt 1
  changeSubject op (fun e => pure { e with metadata := e.metadata.insert key value })
    (changeSettings fun s => { s with metadata := s.metadata.insert key value })

def setTag (op : Operation) (present : Bool) : Change Unit :=
  changeSubjectEntity op fun e => pure (e.setTag (op.payloadAt 0) present)

/-- Gives the subject another name to be called by, unless it has that already. -/
def addAlias (op : Operation) : Change Unit :=
  let name := op.payloadAt 0
  changeSubjectEntity op fun e =>
    pure (if e.aliases.contains name then e else { e with aliases := e.aliases ++ [name] })

def setAttribute (op : Operation) (value : Option Value) : Change Unit :=
  match value.bind (·.integer?) with
  | none => breach .noAttributeValue
  | some i =>
    changeSubjectEntity op fun e =>
      orBreach (e.withBeing? fun b => { b with attributes := b.attributes.insert (op.payloadAt 0) i })
        (.noAttributes e.type)

/-! ### Scripts -/

/-- The script that an operation gives.  A file is read if files are to be read. -/
def scriptOf (s : Surroundings) (op : Operation) : Except Error Script :=
  let mode := op.payloadAt 0
  let text := op.payloadAt 1
  match ScriptMode.ofName? mode with
  | none => .error (Breach.unknownMode mode).error
  | some .inline => .ok (.inline text)
  | some .file =>
    let path := s.config.resolveScript text
    if s.config.loadScripts then
      match s.files.read path with
      | .ok source => .ok (.file path (some source))
      | .error f => .error ((Error.of (.unreadable path f.message)).onLine op.line)
    else .ok (.file path none)

/-- Keeps a script for its owner, and for the instances to come if that is a class. -/
def loadScript (s : Surroundings) (op : Operation) : Change Unit := do
  let script ←
    match scriptOf s op with
    | .ok script => pure script
    | .error e => throw e
  let keep (owner : Subject) : Change Unit :=
    modify fun w => { w with scripts := w.scripts.load owner script }
  match op.subject? with
  | some (.entityClass name) => do
    changePrototype name fun p => pure { p with scripts := p.scripts ++ [script] }
    keep (.entityClass name)
  | some (.entity name) => keep (.entity name)
  | some .game => keep .game
  | _ => breach (.invalidTarget op.opcode (op.argument 0))

/-! ### Places and possessions -/

/-- The entity when it is held nowhere. -/
def released (e : Entity) : Entity :=
  let e := { e with location := none }
  (e.withItem? ({ · with owner := none })).getD e

/-- A room without the thing of a name. -/
def withoutContent (name : String) (e : Entity) : Entity :=
  (e.withRoom? fun r => { r with contents := r.contents.filter (· ≠ name) }).getD e

/-- A being that does not carry the thing of a name. -/
def withoutPossession (name : String) (e : Entity) : Entity :=
  (e.withBeing? fun b => { b with inventory := b.inventory.filter (· ≠ name) }).getD e

/-- Takes a thing out of the room or the inventory that holds it. -/
def detach (name : String) : Change Unit := do
  let thing ← getEntity name
  changeEntity name fun e => pure (released e)
  match thing.location with
  | some room => changeEntity room fun e => pure (withoutContent name e)
  | none => pure ()
  match thing.item?.bind (·.owner) with
  | some being => changeEntity being fun e => pure (withoutPossession name e)
  | none => pure ()

/-- Moves an object into an inventory. -/
def insertIntoInventory (op : Operation) : Change Unit := do
  let object := op.argument 0
  let being := op.argument 1
  detach object
  changeEntity object fun e =>
    orBreach (e.withItem? ({ · with owner := some being })) (.notObject object)
  changeEntity being fun e =>
    orBreach (e.withBeing? fun b => { b with inventory := b.inventory ++ [object] })
      (.notBeing being)

/-- Moves a thing into a room. -/
def insertIntoPlace (op : Operation) : Change Unit := do
  let thing := op.argument 0
  let place := op.argument 1
  detach thing
  changeEntity thing fun e => pure { e with location := some place }
  changeEntity place fun e =>
    orBreach (e.withRoom? fun r => { r with contents := r.contents ++ [thing] }) (.notRoom place)

/-- Gives a room an exit.  The value is the direction that the operation's word means. -/
def connectRooms (op : Operation) (value : Option Value) : Change Unit :=
  let direction := (value.bind (·.string?)).getD (op.payloadAt 0)
  changeSubjectEntity op fun e =>
    orBreach (e.withRoom? fun r => { r with exits := r.exits.insert direction (op.payloadAt 1) })
      (.notRoom e.name)

/-- Allocates some of a resource. -/
def allocateResource (op : Operation) (value : Option Value) : Change Unit :=
  match value.bind (·.number?) with
  | none => breach .noAmount
  | some amount =>
    changeEntity (op.argument 0) fun e => do
      let resource ← orBreach e.resource? (.notResource (op.argument 0))
      match resource.allocate (op.argument 1) amount with
      | .ok resource => pure { e with details := .resource resource }
      | .error refusal => throw (.validation refusal.message op.line)

/-! ### Properties -/

/-- Sets a property of an entity. -/
def setProperty (s : Surroundings) (property : String) (value : Value) (e : Entity) :
    Except Error Entity :=
  (s.setters.set e property value).mapError fun f => (Breach.setter f).error

/-- Sets a property of the game. -/
def setGameProperty (s : Surroundings) (property : String) (value : Value) : Change Unit :=
  fun w =>
    match s.setters.setGame w.settings property value with
    | .ok settings => .ok () { w with settings }
    | .error f => .error (Breach.setter f).error w

/-- The change that an opcode stands for, given an operation and the value that its check
found.  Setting a property is none of them: it is told apart by its subject first. -/
def change? (s : Surroundings) : Opcode → Option (Operation → Option Value → Change Unit)
  | .defineDirection => some fun op _ => addDirection op
  | .defineDirectionSynonym => some fun op _ => addDirectionSynonym op
  | .defineVerbSynonym => some fun op _ => addVerbSynonym op
  | .defineEntityClass => some fun op _ => defineClass op
  | .defineEntity => some fun op _ => defineEntity op
  | .setProperty => none
  | .setMessage => some fun op _ => setMessage op
  | .setTag => some fun op _ => setTag op true
  | .removeTag => some fun op _ => setTag op false
  | .loadScript => some fun op _ => loadScript s op
  | .setEvent => some fun op _ => setEvent op
  | .setAlias => some fun op _ => addAlias op
  | .setMeta => some fun op _ => setMetadata op
  | .setAttribute => some setAttribute
  | .insertIntoInventory => some fun op _ => insertIntoInventory op
  | .insertIntoPlace => some fun op _ => insertIntoPlace op
  | .connectRooms => some connectRooms
  | .allocateResource => some allocateResource
  | .setTimerPeriod => some setTimerPeriod

end World

end Adventure
