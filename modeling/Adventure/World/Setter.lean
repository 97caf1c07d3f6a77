/-
Setting properties.

Writing into a field needs a value of the field's type and an entity that has the
field.  A table says which properties can be set at all, and which field each of
them is; what it says of a type holds for the types below too.
-/
import Adventure.World.Field
import Adventure.World.Settings

namespace Adventure

namespace Setter

/-- Why a property cannot be set. -/
inductive Fault where
  | noProperty (property : String) (type : EntityType)
  | noGameProperty (property : String)
  | wrongType (expected : String) (value : Value)
  | lacks (type : EntityType) (what : String)
  | unknownAllegiance (name : String)
  deriving DecidableEq, Repr

/-- The fault in words. -/
def Fault.message : Fault → String
  | noProperty property type => s!"no setter for property \"{property}\" on a {type}"
  | noGameProperty property => s!"no setter for game property \"{property}\""
  | wrongType expected value => s!"expected {expected} value, got {value.labelled}"
  | lacks type what => s!"a {type} has no {what} state"
  | unknownAllegiance name => s!"unknown allegiance \"{name}\""

/-! ### Values as fields take them -/

def string (v : Value) : Except Fault String :=
  match v.string? with
  | some text => .ok text
  | none => .error (.wrongType "a string" v)

def integer (v : Value) : Except Fault Int :=
  match v.integer? with
  | some i => .ok i
  | none => .error (.wrongType "an integer" v)

def number (v : Value) : Except Fault Float :=
  match v.number? with
  | some x => .ok x
  | none => .error (.wrongType "a numeric" v)

def boolean (v : Value) : Except Fault Bool :=
  match v.boolean? with
  | some b => .ok b
  | none => .error (.wrongType "a boolean" v)

def allegiance (v : Value) : Except Fault Allegiance := do
  let name ← string v
  match Allegiance.ofName? name with
  | some allegiance => pure allegiance
  | none => throw (.unknownAllegiance name)

/-! ### Entities as fields need them -/

/-- The changed entity, or the fault that it has no such details. -/
def orLacks (e : Entity) (what : String) (changed : Option Entity) : Except Fault Entity :=
  match changed with
  | some changed => .ok changed
  | none => .error (.lacks e.type what)

def onItem (e : Entity) (f : Item → Item) : Except Fault Entity :=
  orLacks e "object" (e.withItem? f)

def onBeing (e : Entity) (f : Being → Being) : Except Fault Entity :=
  orLacks e "being" (e.withBeing? f)

def onCreature (e : Entity) (f : Creature → Creature) : Except Fault Entity :=
  orLacks e "creature" (e.withCreature? f)

def onResource (e : Entity) (f : Resource Float → Resource Float) : Except Fault Entity :=
  orLacks e "resource" (e.withResource? f)

end Setter

open Setter in
/-- Writes a value into a field.  The value is looked at before the entity, except for
the two fields of health, which need a being before anything else. -/
def Field.write (field : Field) (e : Entity) (v : Value) : Except Setter.Fault Entity :=
  match field with
  | title => do
    let text ← string v
    pure { e with title := some text }
  | longDescription => do
    let text ← string v
    pure { e with longDescription := some text }
  | shortDescription => do
    let text ← string v
    pure { e with shortDescription := some text }
  | available => do
    let x ← number v
    onResource e ({ · with available := some x })
  | maxPerOwner => do
    let x ← number v
    onResource e ({ · with maxPerOwner := some x })
  | wholeOnly => do
    let b ← boolean v
    onResource e ({ · with wholeOnly := b })
  | pluralTitle => do
    let text ← string v
    onResource e ({ · with pluralTitle := some text })
  | weight => do
    let i ← integer v
    onItem e ({ · with weight := i })
  | damage => do
    let i ← integer v
    onItem e ({ · with damage := i })
  | takeable => do
    let b ← boolean v
    pure (e.setTag untakeableTag !b)
  | droppable => do
    let b ← boolean v
    pure (e.setTag undroppableTag !b)
  | weapon => do
    let b ← boolean v
    pure (e.setTag weaponTag b)
  | alive => do
    let b ← boolean v
    onBeing e ({ · with alive := b })
  | attackable => do
    let b ← boolean v
    pure (e.setTag attackableTag b)
  | health => do
    let _ ← onBeing e id
    let i ← integer v
    onBeing e (·.setHealth i)
  | maxHealth => do
    let _ ← onBeing e id
    let i ← integer v
    onBeing e (·.setMaxHealth i)
  | bareHandDamage => do
    let i ← integer v
    onBeing e ({ · with bareHandDamage := i })
  | woundRate => do
    let x ← number v
    onBeing e ({ · with woundRate := x })
  | respawnEnabled => do
    let b ← boolean v
    onBeing e fun being => { being with respawn := { being.respawn with enabled := b } }
  | respawnInterval => do
    let i ← integer v
    onBeing e fun being => { being with respawn := { being.respawn with interval := i } }
  | respawnLives => do
    let i ← integer v
    onBeing e fun being => { being with respawn := { being.respawn with lives := i } }
  | inventoryWeight => do
    let i ← integer v
    onBeing e ({ · with inventoryWeight := i })
  | counterAttack => do
    let b ← boolean v
    onCreature e ({ · with counterAttack := b })
  | allegiance => do
    let a ← Setter.allegiance v
    onCreature e ({ · with allegiance := a })
  | autoAttackEnabled => do
    let b ← boolean v
    onCreature e fun c => { c with autoAttack := { c.autoAttack with enabled := b } }
  | autoAttackRepeated => do
    let b ← boolean v
    onCreature e fun c => { c with autoAttack := { c.autoAttack with repeated := b } }
  | autoAttackInterval => do
    let i ← integer v
    onCreature e fun c => { c with autoAttack := { c.autoAttack with interval := i } }
  | wanderingEnabled => do
    let b ← boolean v
    onCreature e fun c => { c with wandering := { c.wandering with enabled := b } }
  | wanderingInterval => do
    let i ← integer v
    onCreature e fun c => { c with wandering := { c.wandering with interval := i } }
  | wanderlust => do
    let x ← number v
    onCreature e fun c => { c with wandering := { c.wandering with wanderlust := x } }

open Setter in
/-- Writes a value into a field of the settings. -/
def SettingsField.write (field : SettingsField) (s : Settings) (v : Value) :
    Except Setter.Fault Settings :=
  match field with
  | introductionEnabled => do
    let b ← boolean v
    pure { s with introduction := { s.introduction with enabled := b } }
  | introductionText => do
    let text ← string v
    pure { s with introduction := { s.introduction with text := some text } }
  | introductionPause => do
    let b ← boolean v
    pure { s with introduction := { s.introduction with pause := b } }

/-- Which properties name which fields. -/
structure SetterTable where
  /-- The properties that each type brings, those of the types above it aside. -/
  entity : EntityType → NameTable Field
  game : NameTable SettingsField

namespace SetterTable

/-- No properties. -/
def empty : SetterTable :=
  ⟨fun _ => ∅, ∅⟩

/-- Every property under its own name. -/
def standard : SetterTable where
  entity type := .ofPairs (Field.properties type)
  game := .ofPairs SettingsField.properties

/-- The same table with one more property of a type. -/
def addField (t : SetterTable) (type : EntityType) (property : String) (field : Field) :
    SetterTable :=
  { t with
    entity := fun other =>
      if other = type then (t.entity other).insert property field else t.entity other }

/-- The field of a property, from the type itself or the nearest type above that has
it. -/
def field? (t : SetterTable) (type : EntityType) (property : String) : Option Field :=
  (type :: type.above).findSome? fun type => (t.entity type)[property]?

/-- How many properties the table holds. -/
def size (t : SetterTable) : Nat :=
  EntityType.all.foldl (fun n type => n + (t.entity type).size) t.game.size

/-- Sets a property of an entity. -/
def set (t : SetterTable) (e : Entity) (property : String) (v : Value) :
    Except Setter.Fault Entity :=
  match t.field? e.type property with
  | some field => field.write e v
  | none => .error (.noProperty property e.type)

/-- Sets a property of the game. -/
def setGame (t : SetterTable) (s : Settings) (property : String) (v : Value) :
    Except Setter.Fault Settings :=
  match t.game[property]? with
  | some field => field.write s v
  | none => .error (.noGameProperty property)

end SetterTable

end Adventure
