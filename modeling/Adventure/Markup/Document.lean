/-
The sections of a game in markup.

Every element of a document either holds further elements, and is a section, or holds
a value that becomes one operation.  What an element may be depends on the section
around it.  The walk through a document keeps the sections it is in, innermost first;
at each tag it asks the innermost one what to do.
-/
import Adventure.Draft
import Adventure.Markup.Reader

namespace Adventure.Markup

/-- What an element with further elements in it defines. -/
inductive Section where
  | game
  | classes
  /-- The classes of one type. -/
  | classGroup (type : EntityType)
  /-- The entities of one type. -/
  | instances (type : EntityType)
  | player
  /-- What there is to say about an entity, a class or the default player. -/
  | body (subject : Subject) (type : EntityType)
  | messages (subject : Subject)
  | tags (subject : Subject)
  | metadata (subject : Subject)
  | aliases (subject : Subject)
  | attributes (subject : Subject)
  /-- Properties whose names begin alike. -/
  | group (subject : Subject) (stem : String) (fields : List String)
  | inventory (subject : Subject)
  /-- The things in a room. -/
  | contents (room : String)
  /-- The resources that an owner begins with. -/
  | allocations (owner : String)
  | events (subject : Subject)
  | vocabulary
  | directions
  | synonyms
  | timer
  deriving DecidableEq, Repr

/-- What makes a document no game. -/
inductive Fault where
  | notGame
  | invalidSection (tag parent : String)
  | invalidTag (tag parent : String)
  | classesLate
  | wrongElement (wanted : EntityType) (found : String)
  | notOfType (tag : String) (type : EntityType) (parent : String)
  | inventoryOfPrototype
  | contentsOfPrototype
  | synonymTarget
  deriving DecidableEq, Repr

namespace Fault

/-- The fault in words. -/
def message : Fault → String
  | notGame => "document must start with <game>"
  | invalidSection tag parent => s!"invalid section <{tag}> in <{parent}>"
  | invalidTag tag parent => s!"invalid tag <{tag}> in <{parent}>"
  | classesLate => "<classes> must come before any entities are declared"
  | wrongElement wanted found => s!"expected <{wanted}> but found <{found}>"
  | notOfType tag type parent => s!"<{tag}> is not a {type} or {type} class in <{parent}>"
  | inventoryOfPrototype => "objects can only be placed in the inventory of a declared creature"
  | contentsOfPrototype => "only declared rooms can contain things"
  | synonymTarget =>
    "<synonym> requires exactly one of the attributes \"verb\" or \"direction\""

/-- The fault met on a line. -/
def onLine (f : Fault) (line : Nat) : Error :=
  .parse f.message line

end Fault

/-! ### Tags and what they mean -/

/-- The type whose entities or classes a section of this name holds. -/
def sectionType? : String → Option EntityType
  | "rooms" => some .room
  | "objects" => some .object
  | "creatures" => some .creature
  | "resources" => some .resource
  | _ => none

/-- The tags that set a property on whatever entity they are in. -/
def commonLeaves : List (String × String) :=
  [("title", "title"), ("description", "longDesc"), ("short", "shortDesc")]

/-- The tags that set a property on beings. -/
def beingLeaves : List (String × String) :=
  [("alive", "alive"), ("attackable", "attackable"), ("health", "health"),
   ("maxhealth", "maxHealth"), ("woundrate", "woundRate"), ("damagebarehands", "damageBareHands")]

/-- The further tags that set a property on entities of a type. -/
def typeLeaves : EntityType → List (String × String)
  | .object =>
    [("weight", "weight"), ("damage", "damage"), ("takeable", "takeable"),
     ("droppable", "droppable"), ("weapon", "weapon")]
  | .creature =>
    beingLeaves ++ [("counterattack", "counterAttack"), ("allegiance", "allegiance")]
  | .player => beingLeaves
  | .resource =>
    [("amount", "amountAvailable"), ("maxallocation", "maxAllocationPerDepositor"),
     ("integer", "requireIntegerAllocations"), ("pluraltitle", "pluralTitle")]
  | _ => []

/-- The property that a tag sets on an entity of a type. -/
def leafProperty? (type : EntityType) (tag : String) : Option String :=
  (commonLeaves ++ typeLeaves type).lookup tag

/-! ### What to do at a tag -/

/-- A draft, and whether entities have been declared in it. -/
structure Page where
  draft : Draft
  entitiesSeen : Bool

/-- What to do with an element. -/
inductive Plan where
  /-- Go through the elements in it. -/
  | enter (inner : Section) (page : Page)
  /-- Read its text, and write with that. -/
  | read (write : String → Except Error Draft)
  /-- Make sure that it is empty, and go on. -/
  | pass (draft : Draft)

namespace Section

/-- Reads the text of an element into one operation. -/
def leaf (page : Page) (op : String → Operation) : Except Error Plan :=
  pure (.read fun value => pure (page.draft.write (op value)))

/-- Reads the text of an element as the name of an entity of a type, and writes one
operation with it. -/
def reference (page : Page) (type : EntityType) (line : Nat) (op : String → Operation) :
    Except Error Plan :=
  pure (.read fun name => do
    let draft ← page.draft.referenceEntity name type line
    pure (draft.write (op name)))

/-- Goes through the elements in an element. -/
def enter (page : Page) (inner : Section) : Except Error Plan :=
  pure (.enter inner page)

/-- An element of the game. -/
def gameChild (page : Page) (tag parent : String) (line : Nat) : Except Error Plan :=
  match tag with
  | "classes" => if page.entitiesSeen then throw (Fault.classesLate.onLine line) else enter page classes
  | "vocabulary" => enter page vocabulary
  | "player" => enter page player
  | "events" => enter page (events .game)
  | "introduction" => enter page (group .game "introduction" ["enabled", "text", "pause"])
  | "timer" => enter page timer
  | "meta" => enter page (metadata .game)
  | _ =>
    match sectionType? tag with
    | some type => enter { page with entitiesSeen := true } (instances type)
    | none => throw ((Fault.invalidSection tag parent).onLine line)

/-- A class among the classes of a type. -/
def classChild (page : Page) (type : EntityType) (token : Token) : Except Error Plan := do
  if token.tagName ≠ type.name then
    throw ((Fault.wrongElement type token.tagName).onLine token.line)
  let name ← token.attribute "class"
  let draft ← page.draft.declareClass name type token.line
  enter { page with draft := draft.write (.defineEntityClass name type token.line) }
    (body (.entityClass name) type)

/-- An entity among the entities of a type. -/
def instanceChild (page : Page) (type : EntityType) (parent : String) (token : Token) :
    Except Error Plan := do
  let tag := token.tagName
  if tag ≠ type.name ∧ page.draft.declarations.classType? tag ≠ some type then
    throw ((Fault.notOfType tag type parent).onLine token.line)
  let name ← token.attribute "name"
  let (declared, draft) :=
    page.draft.declareEntity name type tag (token.attribute? "plural") token.line
  let _ ← declared
  enter { page with draft } (body (.entity name) type)

/-- An exit: an element of a room that is named for a direction. -/
def exitChild (v : Vocabulary) (page : Page) (subject : Subject) (tag parent : String)
    (line : Nat) : Except Error Plan :=
  match page.draft.declarations.resolveDirection v tag with
  | some direction =>
    reference page .room line fun room => .connectRooms subject direction room line
  | none => throw ((Fault.invalidTag tag parent).onLine line)

/-- The section for the elements of a body that hold further elements, given the name of
the element. -/
def bodySection? (subject : Subject) (type : EntityType) (tag : String) : Option Section :=
  let being := type.isA .being
  let creature := type = .creature
  match tag with
  | "messages" => some (messages subject)
  | "tags" => some (tags subject)
  | "meta" => some (metadata subject)
  | "events" => if subject = .defaultPlayer then none else some (events subject)
  | "resources" =>
    match subject with
    | .entity owner => if type = .resource then none else some (allocations owner)
    | _ => none
  | "contains" =>
    match subject with
    | .entity name => if type = .room then some (contents name) else none
    | _ => none
  | "aliases" =>
    if type.isA .thing ∧ subject ≠ .defaultPlayer then some (aliases subject) else none
  | "inventory" => if being then some (inventory subject) else none
  | "attributes" => if being then some (attributes subject) else none
  | "respawn" =>
    if being then some (group subject "respawn" ["enabled", "interval", "lives"]) else none
  | "autoattack" =>
    if creature then some (group subject "autoAttack" ["enabled", "repeat", "interval"])
    else none
  | "wandering" =>
    if creature then some (group subject "wandering" ["enabled", "interval", "wanderlust"])
    else none
  | _ => none

/-- An element of the body of an entity, a class or the default player. -/
def bodyChild (v : Vocabulary) (page : Page) (subject : Subject) (type : EntityType)
    (tag parent : String) (line : Nat) : Except Error Plan :=
  match leafProperty? type tag with
  | some property => leaf page (.setProperty subject property · line)
  | none =>
    match bodySection? subject type tag with
    | some inner => enter page inner
    | none =>
      if type = .room then
        if tag = "contains" then throw (Fault.contentsOfPrototype.onLine line)
        else exitChild v page subject tag parent line
      else throw ((Fault.invalidTag tag parent).onLine line)

/-- An element of an inventory. -/
def inventoryChild (page : Page) (subject : Subject) (tag parent : String) (line : Nat) :
    Except Error Plan :=
  match tag, subject with
  | "weight", _ => leaf page (.setProperty subject "inventory.weight" · line)
  | "object", .entity being =>
    reference page .object line (.insertIntoInventory · being line)
  | "object", _ => throw (Fault.inventoryOfPrototype.onLine line)
  | _, _ => throw ((Fault.invalidTag tag parent).onLine line)

/-- A script, in the element or in a file, or the function for an event. -/
def eventChild (page : Page) (subject : Subject) (parent : String) (token : Token) :
    Except Error Plan :=
  let line := token.line
  match token.tagName with
  | "script" =>
    match token.attribute? "src" with
    | some path => pure (.pass (page.draft.write (.loadScript subject .file path line)))
    | none => leaf page (.loadScript subject .inline · line)
  | "event" => do
    let name ← token.attribute "name"
    leaf page (.setEvent subject name · line)
  | tag => throw ((Fault.invalidTag tag parent).onLine line)

/-- A further word for a verb or a direction. -/
def synonymChild (v : Vocabulary) (page : Page) (token : Token) : Except Error Plan :=
  let line := token.line
  pure (.read fun word =>
    match token.attribute? "verb", token.attribute? "direction" with
    | some verb, none => do
      let draft ← page.draft.declareVerbSynonym verb word line
      pure (draft.write (.defineVerbSynonym verb word line))
    | none, some direction => do
      let draft ← page.draft.declareDirectionSynonym v direction word line
      pure (draft.write (.defineDirectionSynonym direction word line))
    | _, _ => throw (Fault.synonymTarget.onLine line))

/-- What to do with the element that a tag opens, within the section of an element
named `parent`. -/
def child (v : Vocabulary) (around : Section) (parent : String) (page : Page) (token : Token) :
    Except Error Plan :=
  let tag := token.tagName
  let line := token.line
  let invalid : Except Error Plan := throw ((Fault.invalidTag tag parent).onLine line)
  match around with
  | game => gameChild page tag parent line
  | classes =>
    match sectionType? tag with
    | some type => enter page (classGroup type)
    | none => throw ((Fault.invalidSection tag parent).onLine line)
  | classGroup type => classChild page type token
  | instances type => instanceChild page type parent token
  | player => if tag = "default" then enter page (body .defaultPlayer .player) else invalid
  | body subject type => bodyChild v page subject type tag parent line
  | messages subject =>
    if tag = "message" then do
      let name ← token.attribute "name"
      leaf page (.setMessage subject name · line)
    else invalid
  | tags subject => if tag = "tag" then leaf page (.setTag subject · line) else invalid
  | metadata subject => leaf page (.setMeta subject tag · line)
  | aliases subject => if tag = "alias" then leaf page (.setAlias subject · line) else invalid
  | attributes subject => leaf page (.setAttribute subject tag · line)
  | group subject stem fields =>
    if fields.contains tag then leaf page (.setProperty subject (stem ++ "." ++ tag) · line)
    else invalid
  | inventory subject => inventoryChild page subject tag parent line
  | contents room =>
    match tag with
    | "object" => reference page .object line (.insertIntoPlace · room line)
    | "creature" => reference page .creature line (.insertIntoPlace · room line)
    | _ => invalid
  | allocations owner =>
    if tag = "resource" then do
      let amount ← token.attribute "amount"
      reference page .resource line (.allocateResource · owner amount line)
    else invalid
  | events subject => eventChild page subject parent token
  | vocabulary =>
    match tag with
    | "directions" => enter page directions
    | "synonyms" => enter page synonyms
    | _ => invalid
  | directions =>
    if tag = "direction" then
      pure (.read fun word => do
        let draft ← page.draft.declareDirection v word line
        pure (draft.write (.defineDirection word line)))
    else invalid
  | synonyms => if tag = "synonym" then synonymChild v page token else invalid
  | timer => if tag = "period" then leaf page (.setTimerPeriod · line) else invalid

end Section

/-! ### The walk -/

/-- A section that the walk is in, the name of its element, and the depth of the elements
in it. -/
structure Level where
  within : Section
  tag : String
  depth : Nat
  deriving DecidableEq, Repr

/-- Carries out the plan for the element whose opening tag the reader stands on, and gives
the section to go into, if there is one. -/
def Plan.carryOut (plan : Plan) (page : Page) (r : Reader) :
    Except Error (Option Section × Page × Reader) :=
  match plan with
  | .enter inner page => .ok (some inner, page, r)
  | .read write =>
    match r.leafValue with
    | .error e _ => .error e
    | .ok value s => (write value).map fun draft => (none, { page with draft }, s)
  | .pass draft =>
    match Reader.checkClosing r.current.tagName r with
    | .error e _ => .error e
    | .ok () s => .ok (none, { page with draft }, s)

theorem remaining_carryOut_le {plan : Plan} {page page' : Page} {r s : Reader}
    {inner : Option Section} (h : plan.carryOut page r = .ok (inner, page', s)) :
    s.remaining ≤ r.remaining := by
  cases plan with
  | enter =>
    simp only [Plan.carryOut, Except.ok.injEq, Prod.mk.injEq] at h
    exact h.2.2 ▸ Nat.le_refl _
  | read write =>
    simp only [Plan.carryOut] at h
    split at h
    · exact absurd h nofun
    · rename_i hleaf
      cases hdraft : write _ with
      | error e => exact absurd (hdraft ▸ h) nofun
      | ok draft =>
        simp only [hdraft, Except.map, Except.ok.injEq, Prod.mk.injEq] at h
        exact h.2.2 ▸ Reader.remaining_leafValue_le hleaf
  | pass draft =>
    simp only [Plan.carryOut] at h
    split at h
    · exact absurd h nofun
    · rename_i hclose
      simp only [Except.ok.injEq, Prod.mk.injEq] at h
      exact h.2.2 ▸ Reader.remaining_checkClosing_le hclose

theorem remaining_child_lt {r s : Reader} {more : Bool} {depth : Nat}
    (hnext : r.nextTag = .ok more s) (hchild : (more && s.isChildAt depth) = true) :
    s.remaining < r.remaining := by
  rw [Bool.and_eq_true] at hchild
  exact (Reader.remaining_nextTag hnext).resolve_right fun h => by simp [h.1] at hchild

/-- Walks on to the end of the outermost section, given the sections the walk is in. -/
def walk (v : Vocabulary) (page : Page) (r : Reader) (levels : List Level) :
    Except Error Page :=
  match levels with
  | [] => .ok page
  | level :: outer =>
    match _hnext : r.nextTag with
    | .error e _ => .error e
    | .ok more s =>
      if _hchild : more && s.isChildAt level.depth then
        match level.within.child v level.tag page s.current with
        | .error e => .error e
        | .ok plan =>
          match _hplan : plan.carryOut page s with
          | .error e => .error e
          | .ok (none, page, t) => walk v page t (level :: outer)
          | .ok (some inner, page, t) =>
            walk v page t (⟨inner, s.current.tagName, level.depth + 1⟩ :: level :: outer)
      else match _hclose : Reader.checkClosing level.tag s with
        | .error e _ => .error e
        | .ok () t => walk v page t outer
termination_by 2 * r.remaining + levels.length
decreasing_by
  · have hlt := Nat.lt_of_le_of_lt (remaining_carryOut_le _hplan) (remaining_child_lt _hnext _hchild)
    simp only [List.length_cons]
    omega
  · have hlt := Nat.lt_of_le_of_lt (remaining_carryOut_le _hplan) (remaining_child_lt _hnext _hchild)
    simp only [List.length_cons]
    omega
  · have hle := Nat.le_trans (Reader.remaining_checkClosing_le _hclose)
      (Reader.remaining_nextTag_le _hnext)
    simp only [List.length_cons]
    omega

/-- Reads a game in markup. -/
def readDocument (v : Vocabulary) (source : String) : Except Error Draft :=
  match (Reader.ofSource source).nextTag with
  | .error e _ => .error e
  | .ok more r =>
    if more && r.current.tagName = "game" then do
      let page ← walk v ⟨.empty, false⟩ r [⟨.game, "game", r.current.depth + 1⟩]
      page.draft.finish
      pure page.draft
    else .error (Fault.notGame.onLine r.current.line)

end Adventure.Markup
