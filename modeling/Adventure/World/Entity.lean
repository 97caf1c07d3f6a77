/-
Entities.

What all entities share is in `Entity`; what only rooms, objects, creatures, players
or resources have is in its details.  A class of the game is an entity too, the
prototype that its instances are copied from.
-/
import Adventure.EntityType
import Adventure.World.Resource

namespace Adventure

/-- The tag of what can be attacked. -/
def attackableTag : String := "attackable"

/-- The tag of what cannot be picked up. -/
def untakeableTag : String := "untakeable"

/-- The tag of what cannot be put down. -/
def undroppableTag : String := "undroppable"

/-- The tag of weapons. -/
def weaponTag : String := "weapon"

/-- How a creature feels about players. -/
inductive Allegiance where
  | friend
  | neutral
  | enemy
  deriving DecidableEq, Repr

namespace Allegiance

/-- The word for an allegiance. -/
def name : Allegiance → String
  | friend => "friend"
  | neutral => "neutral"
  | enemy => "enemy"

/-- Every allegiance. -/
def all : List Allegiance :=
  [friend, neutral, enemy]

/-- The allegiance that a word names. -/
def ofName? (word : String) : Option Allegiance :=
  all.find? (·.name == word)

end Allegiance

/-- A place: its exits by direction, and the names of the things in it. -/
structure Room where
  exits : NameTable String
  contents : List String

/-- A thing that can be carried. -/
structure Item where
  weight : Int
  damage : Int
  owner : Option String
  deriving DecidableEq, Repr

/-- Whether, how soon and how often a being comes back to life. -/
structure Respawn where
  enabled : Bool
  interval : Int
  lives : Int
  deriving DecidableEq, Repr

/-- What lives: creatures and players. -/
structure Being where
  alive : Bool
  health : Int
  maxHealth : Int
  /-- Whether the health was ever set. -/
  healthKnown : Bool
  bareHandDamage : Int
  woundRate : Float
  respawn : Respawn
  inventoryWeight : Int
  inventory : List String
  attributes : NameTable Int

namespace Being

/-- Sets the health. -/
def setHealth (b : Being) (health : Int) : Being :=
  { b with health, healthKnown := true }

/-- Sets the most health, and the health too if it was never set. -/
def setMaxHealth (b : Being) (maxHealth : Int) : Being :=
  let b := { b with maxHealth }
  if b.healthKnown then b else b.setHealth maxHealth

end Being

/-- How a creature attacks of its own accord. -/
structure AutoAttack where
  enabled : Bool
  repeated : Bool
  interval : Int
  deriving DecidableEq, Repr

/-- How a creature moves about of its own accord. -/
structure Wandering where
  enabled : Bool
  interval : Int
  wanderlust : Float
  deriving DecidableEq, Repr

/-- A being that the game moves. -/
structure Creature where
  being : Being
  counterAttack : Bool
  allegiance : Allegiance
  autoAttack : AutoAttack
  wandering : Wandering

/-- What only entities of one type have. -/
inductive Details where
  | room (room : Room)
  | object (item : Item)
  | creature (creature : Creature)
  | player (being : Being)
  | resource (resource : Resource Float)

namespace Details

def freshRoom : Room :=
  ⟨∅, []⟩

def freshItem : Item :=
  ⟨0, 1, none⟩

def freshBeing : Being where
  alive := true
  health := 0
  maxHealth := 0
  healthKnown := false
  bareHandDamage := 5
  woundRate := 0.5
  respawn := ⟨false, 0, -1⟩
  inventoryWeight := 0
  inventory := []
  attributes := .ofPairs [("strength", 10), ("dexterity", 10), ("intelligence", 10)]

def freshCreature : Creature where
  being := freshBeing
  counterAttack := true
  allegiance := .neutral
  autoAttack := ⟨false, false, 5⟩
  wandering := ⟨false, 10, 0.5⟩

/-- The details of a new entity; none if no entity is just of this type. -/
def fresh? : EntityType → Option Details
  | .room => some (.room freshRoom)
  | .object => some (.object freshItem)
  | .creature => some (.creature freshCreature)
  | .player => some (.player freshBeing)
  | .resource => some (.resource .fresh)
  | _ => none

/-- The type that has these details. -/
def type : Details → EntityType
  | room _ => .room
  | object _ => .object
  | creature _ => .creature
  | player _ => .player
  | resource _ => .resource

theorem type_of_fresh? {t : EntityType} {d : Details} (h : fresh? t = some d) : d.type = t := by
  cases t <;> simp only [fresh?, Option.some.injEq, reduceCtorEq] at h <;> exact h ▸ rfl

end Details

/-- Something in the world, or the prototype of a class. -/
structure Entity where
  name : String
  /-- The class it was made from, or the name of its type. -/
  className : String
  title : Option String
  longDescription : Option String
  shortDescription : Option String
  tags : NameSet
  metadata : NameTable String
  messages : NameTable String
  aliases : List String
  /-- The function to call for each event. -/
  events : NameTable String
  location : Option String
  details : Details

namespace Entity

/-- The type of an entity. -/
def type (e : Entity) : EntityType :=
  e.details.type

/-- An entity of which nothing but its details is known. -/
def ofDetails (name : String) (details : Details) : Entity where
  name := name
  className := details.type.name
  title := none
  longDescription := none
  shortDescription := none
  tags := if details.type.isA .being then .ofNames [attackableTag] else ∅
  metadata := ∅
  messages := ∅
  aliases := []
  events := ∅
  location := none
  details := details

/-- A new entity of a type that has entities of its own. -/
def fresh? (name : String) (type : EntityType) : Option Entity :=
  (Details.fresh? type).map (ofDetails name)

/-- A copy under another name and class. -/
def copyAs (e : Entity) (name className : String) : Entity :=
  { e with name, className }

/-- What the entity is called: its title, or else its name. -/
def displayTitle (e : Entity) : String :=
  e.title.getD e.name

def hasTag (e : Entity) (tag : String) : Bool :=
  e.tags.contains tag

/-- Puts a tag on or takes it off. -/
def setTag (e : Entity) (tag : String) (present : Bool) : Entity :=
  { e with tags := if present then e.tags.insert tag else e.tags.erase tag }

/-! ### Details by type -/

def room? (e : Entity) : Option Room :=
  match e.details with
  | .room room => some room
  | _ => none

def item? (e : Entity) : Option Item :=
  match e.details with
  | .object item => some item
  | _ => none

/-- What is alive about an entity, if it is a creature or a player. -/
def being? (e : Entity) : Option Being :=
  match e.details with
  | .creature creature => some creature.being
  | .player being => some being
  | _ => none

def creature? (e : Entity) : Option Creature :=
  match e.details with
  | .creature creature => some creature
  | _ => none

def resource? (e : Entity) : Option (Resource Float) :=
  match e.details with
  | .resource resource => some resource
  | _ => none

/-- Changes the room if the entity is one. -/
def withRoom? (e : Entity) (f : Room → Room) : Option Entity :=
  e.room?.map fun room => { e with details := .room (f room) }

/-- Changes the item if the entity is one. -/
def withItem? (e : Entity) (f : Item → Item) : Option Entity :=
  e.item?.map fun item => { e with details := .object (f item) }

/-- Changes the being if the entity is one. -/
def withBeing? (e : Entity) (f : Being → Being) : Option Entity :=
  match e.details with
  | .creature creature =>
    some { e with details := .creature { creature with being := f creature.being } }
  | .player being => some { e with details := .player (f being) }
  | _ => none

/-- Changes the creature if the entity is one. -/
def withCreature? (e : Entity) (f : Creature → Creature) : Option Entity :=
  e.creature?.map fun creature => { e with details := .creature (f creature) }

/-- Changes the resource if the entity is one. -/
def withResource? (e : Entity) (f : Resource Float → Resource Float) : Option Entity :=
  e.resource?.map fun resource => { e with details := .resource (f resource) }

end Entity

end Adventure
