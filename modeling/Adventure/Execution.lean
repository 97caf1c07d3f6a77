/-
Carrying out programs.

Each operation is checked against what was declared so far, handed to an executor, and
then noted if it declares something.  What the executor does with it is its own
affair: one builds a world, another may only write down what it is told.  Opcodes can
be exempted from their checks.
-/
import Adventure.Validation

namespace Adventure

/-- Something that operations can be handed to. -/
structure Executor (σ : Type) where
  /-- What to do for an opcode, given the operation and the value that its check found. -/
  action? : Opcode → Option (Operation → Option Value → EStateM Error σ Unit)
  setEntity : (name property : String) → Value → EStateM Error σ Unit
  setClass : (name property : String) → Value → EStateM Error σ Unit
  setPlayer : (property : String) → Value → EStateM Error σ Unit
  setGame : (property : String) → Value → EStateM Error σ Unit
  /-- What to do when a program has ended. -/
  finish : EStateM Error σ Unit

namespace Executor

variable {σ : Type}

/-- Sets the property that an operation names.  If there is no checked value, the text
itself is set. -/
def setProperty (x : Executor σ) (op : Operation) (value : Option Value) : EStateM Error σ Unit :=
  let property := op.payloadAt 0
  let value := value.getD (.string (op.payloadAt 1))
  match op.subject? with
  | some (.entity name) => x.setEntity name property value
  | some (.entityClass name) => x.setClass name property value
  | some .defaultPlayer => x.setPlayer property value
  | some .game => x.setGame property value
  | none => throw (.internal s!"{op.opcode} with invalid target \"{op.argument 0}\"")

/-- What is done for an opcode, if anything is. -/
def actionFor? (x : Executor σ) : Opcode → Option (Operation → Option Value → EStateM Error σ Unit)
  | .setProperty => some x.setProperty
  | op => x.action? op

/-- Whether there is something to do for an opcode. -/
def handles (x : Executor σ) (op : Opcode) : Bool :=
  (x.actionFor? op).isSome

end Executor

/-- The property that says whether a resource comes in whole amounts only. -/
def wholeProperty : String := "requireIntegerAllocations"

/-- What an operation declares, noted after it was carried out. -/
def Declarations.note (d : Declarations) (op : Operation) (value : Option Value) : Declarations :=
  let first := op.argument 0
  let second := op.argument 1
  match op.opcode with
  | .defineDirection => d.addDirection first
  | .defineDirectionSynonym => d.addDirectionSynonym first second
  | .defineVerbSynonym => d.addVerbSynonym first second
  | .defineEntityClass =>
    match EntityType.ofName? second with
    | some type => d.addClass ⟨first, type, op.line⟩
    | none => d
  | .defineEntity =>
    match EntityType.ofName? second with
    | some type => d.addEntity ⟨first, type, op.argument 2, op.line⟩
    | none => d
  | .setProperty =>
    if op.target?.any (·.isNamed) && op.payload.head? = some wholeProperty then
      d.setWhole second ((value.bind (·.boolean?)).getD false)
    else d
  | _ => d

/-- How far a program was carried out. -/
structure Execution (σ : Type) where
  state : σ
  declarations : Declarations
  /-- The opcodes that are carried out without a check. -/
  unchecked : List Opcode

namespace Execution

variable {σ : Type}

/-- Nothing was carried out yet. -/
def start (state : σ) : Execution σ :=
  ⟨state, .empty, []⟩

/-- Exempts an opcode from its check. -/
def exempt (x : Execution σ) (op : Opcode) : Execution σ :=
  { x with unchecked := op :: x.unchecked }

/-- The value that the check of an operation finds. -/
def checked (v : Vocabulary) (x : Execution σ) (op : Operation) : Except Error (Option Value) :=
  if x.unchecked.contains op.opcode then .ok none
  else (Validation.check v x.declarations op).mapError fun f => .validation f.message op.line

/-- Does something with the executor's state. -/
def run (m : EStateM Error σ Unit) : EStateM Error (Execution σ) Unit := fun x =>
  match m x.state with
  | .ok () state => .ok () { x with state }
  | .error e state => .error e { x with state }

/-- Carries out an operation. -/
def execute (e : Executor σ) (v : Vocabulary) (op : Operation) :
    EStateM Error (Execution σ) Unit := do
  match checked v (← get) op with
  | .error fault => throw fault
  | .ok value =>
    match e.actionFor? op.opcode with
    | none => throw (.internal s!"no operation registered for {op.opcode}")
    | some action => do
      run (action op value)
      modify fun x => { x with declarations := x.declarations.note op value }

/-- Whether an operation defines the room where players begin. -/
def definesStart (op : Operation) : Bool :=
  op.opcode = .defineEntity && op.argument 0 = startRoom && op.argument 1 = EntityType.room.name

/-- Carries out a program.  If a start room is required, the program itself has to define
it. -/
def executeAll (e : Executor σ) (v : Vocabulary) (requireStart : Bool) (ops : List Operation) :
    EStateM Error (Execution σ) Unit := do
  ops.forM (execute e v)
  if requireStart && !ops.any definesStart then throw (.of .noStartRoom)
  run e.finish

end Execution

end Adventure
