/-
The cast of a story: the entities that its things become.

Every thing becomes one entity.  Its kind decides the type and the class; a kind that is
not the namesake of a type becomes a class of its own, tagged with the kind and all
kinds above it.  Placements and exits come last, when every entity is there.
-/
import Adventure.Draft
import Adventure.Prose.Story

namespace Adventure.Prose

/-- A thing with the kind that was settled on and the name of its entity. -/
structure Role where
  record : Record
  kind : Kind
  name : String
  deriving DecidableEq, Repr

/-- Why a story cannot be cast. -/
inductive CastFault where
  | startTaken
  | roomPlaced (preposition : Preposition) (target : String)
  | onlyRoomsHold (preposition : Preposition) (target : String)
  | cannotHold (preposition : Preposition) (target : String) (kind : Kind)
  deriving DecidableEq, Repr

namespace CastFault

/-- The fault in words. -/
def message : CastFault → String
  | startTaken => s!"the name \"{startRoom}\" is reserved for the first room"
  | roomPlaced p target => s!"a room cannot be placed {p.word} \"{target}\""
  | onlyRoomsHold p target =>
    s!"placing things {p.word} \"{target}\" is not supported yet; things can only be placed in rooms"
  | cannotHold p target kind =>
    s!"things cannot be placed {p.word} \"{target}\", which is a {kind.name}"

/-- The fault of what a line says. -/
def onLine (f : CastFault) (line : Nat) : Error :=
  .parse f.message line

end CastFault

/-! ### Kinds become classes -/

/-- The type of the entities of a kind. -/
def Kind.entityType (k : Kind) : EntityType :=
  k.type?.getD .object

/-- The class of the entities of a kind: the type itself, if the kind is the namesake of
a type. -/
def Kind.className (k : Kind) : String :=
  if (EntityType.ofName? k.name).isSome then k.entityType.name else k.name

/-- The kind that a thing is settled on: the one it was given, or the first that its
properties suggest, or else a mere thing. -/
def Record.settledKind (r : Record) : Kind :=
  match r.kind with
  | some (kind, _) => kind
  | none => ((candidates (r.plain.map (·.property))).find? (·.type?.isSome)).getD .thing

/-! ### Things become entities -/

/-- Gives the roles, in order.  The first room becomes the room where players begin;
every other thing is named by its key. -/
def castFrom (started : Bool) : List Record → Except Error (List Role)
  | [] => pure []
  | r :: rs => do
    let kind := r.settledKind
    let isStart := !started && kind.isA .room
    if !isStart && r.key = startRoom then throw (CastFault.startTaken.onLine r.line)
    let roles ← castFrom (started || isStart) rs
    pure (⟨r, kind, if isStart then startRoom else r.key⟩ :: roles)

/-- The roles of a story, in order of first mention. -/
def Story.cast (s : Story) : Except Error (List Role) :=
  castFrom false s.records

namespace Role

/-- Writes the class of a role, if it has one of its own that is not written yet. -/
def writeClass (d : Draft) (role : Role) : Except Error Draft := do
  let name := role.kind.className
  let type := role.kind.entityType
  let line := role.record.line
  if (EntityType.ofName? name).isSome || (d.declarations.class? name).isSome then pure d
  else
    let d ← d.declareClass name type line
    let tags := role.kind.lineage.map fun k => Operation.setTag (.entityClass name) k.name line
    pure ((.defineEntityClass name type line :: tags).foldl Draft.write d)

/-- What there is to say of the entity of a role itself. -/
def details (role : Role) : List Operation :=
  let subject := Subject.entity role.name
  let r := role.record
  [.setProperty subject "title" r.name r.line] ++
  (r.description.map fun text => .setProperty subject "longDesc" text r.line).toList ++
  r.assertions.map fun a =>
    if a.negated then .removeTag subject a.property.name a.line
    else .setTag subject a.property.name a.line

/-- Writes the entity of a role. -/
def writeEntity (d : Draft) (role : Role) : Except Error Draft := do
  let (declared, d) := d.declareEntity role.name role.kind.entityType role.kind.className none
    role.record.line
  let _ ← declared
  pure (role.details.foldl Draft.write d)

/-- Passes if the entity of a role can be placed where it was.  Only rooms hold things. -/
def checkPlacement (role target : Role) (p : Placement) : Except Error Unit :=
  let name := target.record.name
  let fail (f : CastFault) : Except Error Unit := throw (f.onLine p.line)
  if role.kind.isA .room then fail (.roomPlaced p.preposition name)
  else if p.preposition = .inside && target.kind.isA .room then pure ()
  else if target.kind.isA .container || target.kind.isA .supporter then
    fail (.onlyRoomsHold p.preposition name)
  else fail (.cannotHold p.preposition name target.kind)

/-- Writes where the entity of a role is and where its exits lead. -/
def writeLinks (roles : List Role) (d : Draft) (role : Role) : Except Error Draft := do
  let known (key : String) : Option Role := roles.find? (·.record.key == key)
  let placed ←
    match role.record.placement with
    | none => pure d
    | some p =>
      match known p.target with
      | none => pure d
      | some target => do
        checkPlacement role target p
        pure (d.write (.insertIntoPlace role.name target.name p.line))
  pure <| role.record.exits.foldl (fun d exit =>
    match known exit.destination with
    | none => d
    | some room =>
      d.write (.connectRooms (.entity role.name) exit.direction room.name exit.line)) placed

end Role

/-- The draft of what a story says. -/
def Story.draft (s : Story) : Except Error Draft := do
  let about (key : String) (value : Option String) : List Operation :=
    (value.map fun text => .setMeta .game key text 1).toList
  let d := (about "title" s.title ++ about "author" s.author).foldl Draft.write .empty
  let roles ← s.cast
  let d ← roles.foldlM Role.writeClass d
  let d ← roles.foldlM Role.writeEntity d
  let d ← roles.foldlM (Role.writeLinks roles) d
  d.finish
  pure d

/-- Reads a game in prose, with terms of a number of words. -/
def readText (v : Vocabulary) (maxWords : Nat) (source : String) : Except Error Draft :=
  match Story.ofSource v maxWords source with
  | .error e _ => .error e
  | .ok () story => story.draft

end Adventure.Prose
