/-
The properties of entities and of the game.

A property is the name of a field in a source text.  Which properties there are
depends on the entity's type, and a type has those of the types above it.  Every
field has a rule for the texts it takes.
-/
import Adventure.World.Entity
import Adventure.World.Rule

namespace Adventure

/-- A field of an entity. -/
inductive Field where
  | title
  | longDescription
  | shortDescription
  | available
  | maxPerOwner
  | wholeOnly
  | pluralTitle
  | weight
  | damage
  | takeable
  | droppable
  | weapon
  | alive
  | attackable
  | health
  | maxHealth
  | bareHandDamage
  | woundRate
  | respawnEnabled
  | respawnInterval
  | respawnLives
  | inventoryWeight
  | counterAttack
  | allegiance
  | autoAttackEnabled
  | autoAttackRepeated
  | autoAttackInterval
  | wanderingEnabled
  | wanderingInterval
  | wanderlust
  deriving DecidableEq, Repr

/-- A field of the game's settings. -/
inductive SettingsField where
  | introductionEnabled
  | introductionText
  | introductionPause
  deriving DecidableEq, Repr

namespace Field

/-- The properties that each type brings. -/
def properties : EntityType → List (String × Field)
  | .entity =>
    [("title", .title), ("longDesc", .longDescription), ("shortDesc", .shortDescription)]
  | .resource =>
    [("amountAvailable", .available), ("maxAllocationPerDepositor", .maxPerOwner),
     ("requireIntegerAllocations", .wholeOnly), ("pluralTitle", .pluralTitle)]
  | .object =>
    [("weight", .weight), ("damage", .damage), ("takeable", .takeable),
     ("droppable", .droppable), ("weapon", .weapon)]
  | .being =>
    [("alive", .alive), ("attackable", .attackable), ("health", .health),
     ("maxHealth", .maxHealth), ("damageBareHands", .bareHandDamage), ("woundRate", .woundRate),
     ("respawn.enabled", .respawnEnabled), ("respawn.interval", .respawnInterval),
     ("respawn.lives", .respawnLives), ("inventory.weight", .inventoryWeight)]
  | .creature =>
    [("counterAttack", .counterAttack), ("allegiance", .allegiance),
     ("autoAttack.enabled", .autoAttackEnabled), ("autoAttack.repeat", .autoAttackRepeated),
     ("autoAttack.interval", .autoAttackInterval), ("wandering.enabled", .wanderingEnabled),
     ("wandering.interval", .wanderingInterval), ("wandering.wanderlust", .wanderlust)]
  | _ => []

/-- The field of a property, from the type itself or the nearest type above that has
it. -/
def of? (type : EntityType) (property : String) : Option Field :=
  (type :: type.above).findSome? fun type => (properties type).lookup property

/-- The rule for the texts that a field takes. -/
def rule : Field → Rule
  | title | longDescription | shortDescription | pluralTitle => .text
  | available | maxPerOwner => .nonNegative
  | wholeOnly | takeable | droppable | weapon | alive | attackable | respawnEnabled
  | counterAttack | autoAttackEnabled | autoAttackRepeated | wanderingEnabled => .boolean
  | weight | damage | health | maxHealth | bareHandDamage | respawnInterval | respawnLives
  | inventoryWeight | autoAttackInterval | wanderingInterval => .integer
  | woundRate | wanderlust => .probability
  | allegiance => .choice (Allegiance.all.map (·.name))

end Field

namespace SettingsField

/-- The properties that a game can set. -/
def properties : List (String × SettingsField) :=
  [("introduction.enabled", .introductionEnabled), ("introduction.text", .introductionText),
   ("introduction.pause", .introductionPause)]

/-- The field of a property. -/
def of? (property : String) : Option SettingsField :=
  properties.lookup property

/-- The rule for the texts that a field takes. -/
def rule : SettingsField → Rule
  | introductionEnabled | introductionPause => .boolean
  | introductionText => .text

end SettingsField

end Adventure
