/-
The world that operations build.

A world holds its entities, the prototypes of its classes, the template for players,
the settings of the game, the scripts, and what is to happen on its own once play
begins.
-/
import Adventure.Error
import Adventure.World.Population
import Adventure.World.Script
import Adventure.World.Settings

namespace Adventure

/-- The prototype of a class, with the scripts that every instance gets. -/
structure Prototype where
  entity : Entity
  scripts : List Script

/-- A creature that wanders. -/
structure WanderJob where
  creature : String
  interval : Int
  wanderlust : Float

/-- A being that comes back to life. -/
structure RespawnJob where
  being : String
  interval : Int
  lives : Int
  deriving DecidableEq, Repr

/-- A world, in the making or finished. -/
structure World where
  population : Population
  classes : NameTable Prototype
  /-- The template that players are copied from. -/
  defaultPlayer : Entity
  settings : Settings
  scripts : ScriptStore
  wanderJobs : List WanderJob
  respawnJobs : List RespawnJob

namespace World

/-- The template for players before anything is set. -/
def freshPlayer : Entity :=
  Entity.ofDetails "player" (.player Details.freshBeing)

/-- The world before any operation. -/
def empty : World :=
  ⟨.empty, ∅, freshPlayer, .fresh, .empty, [], []⟩

/-- The entity of a name. -/
def entity? (w : World) (name : String) : Option Entity :=
  w.population.get? name

/-- The prototype of a class. -/
def class? (w : World) (name : String) : Option Entity :=
  (w.classes[name]?).map (·.entity)

/-- The entities in the order in which they were made. -/
def entities (w : World) : List Entity :=
  w.population.toList

/-- The entities of a type and of the types below it. -/
def entitiesOfType (w : World) (type : EntityType) : List Entity :=
  w.entities.filter (·.type.isA type)

/-- The room where players begin. -/
def startRoom? (w : World) : Option Entity :=
  (w.entity? startRoom).filter (·.type.isA .room)

/-- The job of a creature that lives and wanders. -/
def wanderJob? (e : Entity) : Option WanderJob :=
  (e.creature?.filter fun c => c.being.alive && c.wandering.enabled).map fun c =>
    ⟨e.name, c.wandering.interval, c.wandering.wanderlust⟩

/-- The job of a being that comes back to life. -/
def respawnJob? (e : Entity) : Option RespawnJob :=
  (e.being?.filter (·.respawn.enabled)).map fun b => ⟨e.name, b.respawn.interval, b.respawn.lives⟩

/-- Adds the jobs of all entities to those there are. -/
def scheduleJobs (w : World) : World :=
  { w with
    wanderJobs := w.wanderJobs ++ w.entities.filterMap wanderJob?
    respawnJobs := w.respawnJobs ++ w.entities.filterMap respawnJob? }

/-- Adds a player, who begins in the start room if there is one.  A name that is taken
is refused. -/
def createPlayer (w : World) (name : String) : Except Error World :=
  if (w.entity? name).isSome then .error (.validation s!"entity \"{name}\" already exists" 0)
  else
    let player := w.defaultPlayer.copyAs name EntityType.player.name
    let placed :=
      if w.startRoom?.isSome then { player with location := some startRoom } else player
    .ok { w with population := w.population.add placed }

end World

end Adventure
