/-
Drafts: a program in the making, with what it has declared.

An entity may be used before it is declared.  Its first use writes a definition with
the bare type for a class, and the declaration later fills in the class and the
plural.  What is still waiting for its declaration is kept in the order of first
use.
-/
import Adventure.Declarations
import Adventure.Program

namespace Adventure

/-- A name in use that still waits for its declaration. -/
structure Awaited where
  name : String
  type : EntityType
  /-- The index of the definition to be filled in. -/
  definition : Nat
  /-- The lines of the uses, in order. -/
  lines : List Nat
  deriving DecidableEq, Repr

/-- A program in the making. -/
structure Draft where
  program : Program
  declarations : Declarations
  /-- The names that wait for their declaration, in the order of first use. -/
  awaited : List Awaited

namespace Draft

/-- Nothing is written yet. -/
def empty : Draft :=
  ⟨.empty, .empty, []⟩

/-- Appends an operation. -/
def write (d : Draft) (op : Operation) : Draft :=
  { d with program := d.program.push op }

/-- What is awaited under a name. -/
def awaited? (d : Draft) (name : String) : Option Awaited :=
  d.awaited.find? (·.name == name)

open Declarations in
/-- The checks of a declaration that do not depend on earlier uses of the name. -/
def checkEntity (d : Draft) (name : String) (type : EntityType) (className : String) :
    Except Refusal Unit := do
  if (EntityType.ofName? name).isSome then throw (.reservedForEntity name)
  d.declarations.checkUnused name
  if !d.declarations.classAllows className type then throw (.wrongClass className type name)

/-- The position of the class among the arguments of a definition. -/
def classPosition : Nat := 2

/-- Fills in the definition of an awaited name. -/
def fillIn (p : Program) (use : Awaited) (className : String) (plural : Option String) : Program :=
  let named := p.setArgument use.definition classPosition className
  match plural with
  | some plural => named.pushArgument use.definition plural
  | none => named

/-- Declares an entity and gives the index of its definition.  A name that was used
as another type is refused, and no longer awaited. -/
def declareEntity (d : Draft) (name : String) (type : EntityType) (className : String)
    (plural : Option String) (line : Nat) : Except Error Nat × Draft :=
  match d.checkEntity name type className with
  | .error refusal => (.error (refusal.onLine line), d)
  | .ok () =>
    let declarations := d.declarations.addEntity ⟨name, type, className, line⟩
    match d.awaited? name with
    | some use =>
      let awaited := d.awaited.filter (·.name != name)
      if use.type ≠ type then
        (.error ((Declarations.Refusal.referencedAs name type use.type use.lines).onLine line),
          { d with awaited })
      else
        (.ok use.definition,
          { program := fillIn d.program use className plural, declarations, awaited })
    | none =>
      let op := Operation.defineEntity name type className plural line
      (.ok (d.program.indexAfter op), { d.write op with declarations })

/-- Uses an entity by name.  A use before the declaration writes the definition that
the declaration will fill in. -/
def referenceEntity (d : Draft) (name : String) (type : EntityType) (line : Nat) :
    Except Error Draft :=
  match d.declarations.entity? name with
  | some declared =>
    if declared.type.isA type then .ok d
    else
      .error ((Declarations.Refusal.declaredAs name declared.type declared.line type).onLine line)
  | none =>
    if (d.declarations.class? name).isSome then
      .error ((Declarations.Refusal.namesClass name).onLine line)
    else match d.awaited? name with
      | some use =>
        if use.type = type then
          .ok { d with
            awaited := d.awaited.map fun u =>
              if u.name = name then { u with lines := u.lines ++ [line] } else u }
        else
          .error ((Declarations.Refusal.usedAs name use.type (use.lines.headD 0) type).onLine line)
      | none =>
        let op := Operation.defineEntity name type type.name none line
        .ok { d.write op with
          awaited := d.awaited ++ [⟨name, type, d.program.indexAfter op, [line]⟩] }

/-- Declares a class.  The operation that defines it is written separately. -/
def declareClass (d : Draft) (name : String) (type : EntityType) (line : Nat) :
    Except Error Draft :=
  match d.declarations.declareClass name type line with
  | .error refusal => .error (refusal.onLine line)
  | .ok declarations => .ok { d with declarations }

/-- Declares a direction. -/
def declareDirection (d : Draft) (v : Vocabulary) (word : String) (line : Nat) :
    Except Error Draft :=
  match d.declarations.declareDirection v word with
  | .error refusal => .error (refusal.onLine line)
  | .ok declarations => .ok { d with declarations }

/-- Declares a word for a direction. -/
def declareDirectionSynonym (d : Draft) (v : Vocabulary) (direction word : String) (line : Nat) :
    Except Error Draft :=
  match d.declarations.declareDirectionSynonym v direction word with
  | .error refusal => .error (refusal.onLine line)
  | .ok declarations => .ok { d with declarations }

/-- Declares a word for a verb. -/
def declareVerbSynonym (d : Draft) (verb word : String) (line : Nat) : Except Error Draft :=
  match d.declarations.declareVerbSynonym verb word with
  | .error refusal => .error (refusal.onLine line)
  | .ok declarations => .ok { d with declarations }

/-- Passes if nothing is awaited any more. -/
def finish (d : Draft) : Except Error Unit :=
  if d.awaited.isEmpty then .ok ()
  else .error (.of (.unresolved (d.awaited.map fun use => ⟨use.name, use.type, use.lines⟩)))

end Draft

end Adventure
