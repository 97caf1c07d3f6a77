/-
The types of entities.

Every entity is of one of ten types, which form a tree below `entity`.  Only four
of them have instances that a game declares for itself.
-/

namespace Adventure

/-- What sort of entity something is. -/
inductive EntityType where
  | entity
  | resource
  | tangible
  | place
  | room
  | thing
  | object
  | being
  | creature
  | player
  deriving DecidableEq, Repr, Inhabited

namespace EntityType

/-- Every type, the more general before the more special. -/
def all : List EntityType :=
  [entity, resource, tangible, place, room, thing, object, being, creature, player]

theorem mem_all (t : EntityType) : t ∈ all := by
  cases t <;> decide

/-- The word for the type in a source text. -/
def name : EntityType → String
  | entity => "entity"
  | resource => "resource"
  | tangible => "tangible"
  | place => "place"
  | room => "room"
  | thing => "thing"
  | object => "object"
  | being => "being"
  | creature => "creature"
  | player => "player"

instance : ToString EntityType := ⟨name⟩

/-- The type that a word names. -/
def ofName? (word : String) : Option EntityType :=
  all.find? (·.name == word)

theorem ofName?_name (t : EntityType) : ofName? t.name = some t := by
  cases t <;> decide

theorem name_of_ofName? {word : String} {t : EntityType} (h : ofName? word = some t) :
    t.name = word := by
  simpa using List.find?_some h

/-- The types above a type, nearest first. -/
def above : EntityType → List EntityType
  | entity => []
  | resource | tangible => [entity]
  | place | thing => [tangible, entity]
  | room => [place, tangible, entity]
  | object | being => [thing, tangible, entity]
  | creature | player => [being, thing, tangible, entity]

/-- The type directly above. -/
def parent? (t : EntityType) : Option EntityType :=
  t.above.head?

/-- Whether the type is `ancestor` or lies below it. -/
def isA (t ancestor : EntityType) : Bool :=
  t = ancestor || t.above.contains ancestor

theorem isA_refl (t : EntityType) : t.isA t = true := by
  cases t <;> decide

theorem isA_trans {a b c : EntityType} (hab : a.isA b = true) (hbc : b.isA c = true) :
    a.isA c = true := by
  revert hab hbc
  cases a <;> cases b <;> cases c <;> decide

/-- Whether a game can declare entities of the type. -/
def isInstantiable : EntityType → Bool
  | room | object | creature | resource => true
  | _ => false

end EntityType

end Adventure
