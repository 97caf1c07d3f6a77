/-
Stories: what the sentences read so far say.

A story takes in one fact after the other.  A fact that does not go with the story so
far is refused, but what it says of the subjects before the one it fails at stays.
-/
import Adventure.Config
import Adventure.Prose.Sentence

namespace Adventure.Prose

/-- What was read so far. -/
structure Story where
  lexicon : Lexicon
  /-- How many words the name of a kind may have. -/
  maxWords : Nat
  /-- The things in order of first mention. -/
  records : List Record
  /-- The keys of what the last sentence was about. -/
  subjects : List String
  title : Option String
  author : Option String

/-- Why a fact does not go with the story so far. -/
inductive Objection where
  | onlyThings (name : String)
  | kindNotThing (name : String)
  | thingNotKind (name : String)
  | nothingDescribed
  deriving DecidableEq, Repr

/-- The objection in words. -/
def Objection.message : Objection → String
  | onlyThings name => s!"\"{name}\" is a kind; only things can be described this way"
  | kindNotThing name => s!"\"{name}\" is a kind, not a thing"
  | thingNotKind name => s!"\"{name}\" is already a thing and cannot also be a kind"
  | nothingDescribed => "quoted text must follow a sentence about exactly one thing"

/-- The objection to what a line says. -/
def Objection.onLine (o : Objection) (line : Nat) : Error :=
  .parse o.message line

namespace Story

/-- Nothing was read yet. -/
def empty (v : Vocabulary) (maxWords : Nat) : Story :=
  ⟨.standard v, max maxWords 1, [], [], none, none⟩

/-- What was said of the thing of a key. -/
def record? (s : Story) (key : String) : Option Record :=
  s.records.find? (·.key == key)

/-- Puts a record in the place of the one with its key. -/
def replace (s : Story) (r : Record) : Story :=
  { s with records := s.records.map fun old => if old.key = r.key then r else old }

/-- Takes in a statement about the thing of a key. -/
def revise (key : String) (line : Nat) (f : Record → Except Conflict Record) :
    EStateM Error Story Unit := fun s =>
  match s.record? key with
  | none => .ok () s
  | some r =>
    match f r with
    | .ok r => .ok () (s.replace r)
    | .error c => .error (.parse c.message line) s

/-- Takes in that a thing is mentioned, and gives its key. -/
def mention (m : Mention) : EStateM Error Story String := fun s =>
  let key := Text.lower m.name
  if s.lexicon.isKind key then .error ((Objection.kindNotThing m.name).onLine m.line) s
  else if (s.record? key).isSome then .ok key s
  else .ok key { s with records := s.records ++ [.fresh m.name m.line] }

/-- Takes in a description of the thing of a key. -/
def describe (key text : String) : EStateM Error Story Unit :=
  revise key 0 fun r => pure { r with description := some text }

/-- Takes in a statement about each of the subjects. -/
def reviseSubjects (line : Nat) (f : Record → Except Conflict Record) :
    EStateM Error Story Unit := do
  (← get).subjects.forM fun key => revise key line f

/-- Takes in what the sentence is about. -/
def setSubjects (things : List Mention) : EStateM Error Story Unit := do
  let lexicon := (← get).lexicon
  match things.find? (lexicon.isKind ·.name) with
  | some m => throw ((Objection.onlyThings m.name).onLine m.line)
  | none =>
    let keys ← things.mapM mention
    modify ({ · with subjects := keys })

/-- Takes in where the subjects are.  What they are in or on is of the kind that this
suggests, unless something else was said of it. -/
def place (p : Preposition) (target : Mention) (line : Nat) : EStateM Error Story Unit := do
  let key ← mention target
  let s ← get
  if (s.record? key).any fun r => r.kind.isNone && r.plain.isEmpty then
    revise key target.line (·.setKind p.defaultKind target.line)
  s.subjects.forM fun subject =>
    revise subject line fun r =>
      if subject = key then throw (.placedAtItself r.name p) else r.place ⟨p, key, line⟩

/-- Takes in that a room lies in a direction from another, and the other on the way
back. -/
def locate (room : Mention) (direction : String) (origin : Mention) (line : Nat) :
    EStateM Error Story Unit := do
  let there := Text.lower room.name
  let here ← mention origin
  revise there room.line (·.setKind .room room.line)
  revise here origin.line (·.setKind .room origin.line)
  revise here line (·.addExit ⟨direction, there, line⟩)
  match (← get).lexicon.opposite? direction with
  | some back => revise there line (·.addExit ⟨back, here, line⟩)
  | none => pure ()

/-- Takes in a further kind. -/
def addKind (m : Mention) (parent : Kind) : EStateM Error Story Unit := fun s =>
  if (s.record? (Text.lower m.name)).isSome then
    .error ((Objection.thingNotKind m.name).onLine m.line) s
  else match s.lexicon.declareKind m.name parent s.maxWords with
    | .ok lexicon => .ok () { s with lexicon }
    | .error r => .error (r.onLine m.line) s

/-- Takes in a fact. -/
def accept : Fact → EStateM Error Story Unit
  | .title text => modify ({ · with title := some text })
  | .author name => modify ({ · with author := some name })
  | .subjects things => setSubjects things
  | .property property negated line => reviseSubjects line (·.claim ⟨property, negated, line⟩)
  | .kind kind line => reviseSubjects line (·.setKind kind line)
  | .placement p target line => place p target line
  | .description text => do (← get).subjects.forM (describe · text)
  | .descriptionOf thing text => do
    let key ← mention thing
    describe key text
    modify ({ · with subjects := [key] })
  | .remark text line => do
    match (← get).subjects with
    | [key] => describe key text
    | _ => throw (Objection.nothingDescribed.onLine line)
  | .location room direction origin line => locate room direction origin line
  | .newKinds names parent => do
    names.forM (addKind · parent)
    modify ({ · with subjects := [] })

/-- Takes in the facts of a sentence, and fails on its flaw if it has one. -/
def hear (r : Reading) (scanning : Error) : EStateM Error Story Unit := do
  r.facts.forM accept
  match r.flaw with
  | some f => throw (f.error scanning)
  | none => pure ()

/-- Takes in every sentence from here on. -/
def readAll (scanner : Scanner) (opening : Bool) (s : Story) : EStateM.Result Error Story Unit :=
  match _h : scanner.sentence s.lexicon with
  | .broken tokens e => hear (readTokens s.lexicon opening tokens) e s
  | .whole tokens atEnd rest =>
    match hear (readTokens s.lexicon opening tokens) (.internal "a sentence has no end") s with
    | .error e t => .error e t
    | .ok () t => if _hend : atEnd = true then .ok () t else readAll rest false t
termination_by scanner.remaining
decreasing_by
  simp only [Bool.not_eq_true] at _hend
  exact Scanner.remaining_sentence (_hend ▸ _h)

/-- What follows a sentence that was read to its end. -/
theorem readAll_of_whole {scanner rest : Scanner} {opening atEnd : Bool} {ts : List Token}
    {s : Story} (h : scanner.sentence s.lexicon = .whole ts atEnd rest) :
    readAll scanner opening s =
      match hear (readTokens s.lexicon opening ts) (.internal "a sentence has no end") s with
      | .error e t => .error e t
      | .ok () t => if atEnd = true then .ok () t else readAll rest false t := by
  rw [readAll, h]
  rfl

/-- Takes in a whole source. -/
def ofSource (v : Vocabulary) (maxWords : Nat) (source : String) :
    EStateM.Result Error Story Unit :=
  readAll (.ofSource source maxWords) true (.empty v maxWords)

end Story

end Adventure.Prose
