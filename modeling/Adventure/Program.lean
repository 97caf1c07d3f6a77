/-
Programs: operations in the order they were written.

A program is an arena of cells.  The root's children are operations, an operation's
children are the values of its arguments, and every cell is known by its index, the
root's being zero.  An argument can be replaced or added after the operation was
written, which is how a name used early gets its declaration filled in later.
-/
import Adventure.Operation

namespace Adventure

/-- A cell of the arena below the root. -/
inductive Cell where
  /-- An operation with the indices of its arguments. -/
  | operation (opcode : Opcode) (line : Nat) (arguments : List Nat)
  /-- The text of one argument. -/
  | value (text : String) (line : Nat)
  deriving DecidableEq, Repr

/-- An arena of operations.  The cell at position `i` has the index `i + 1`, because
the root comes first. -/
structure Program where
  cells : Array Cell
  /-- The indices of the operations, in the order written. -/
  root : List Nat
  deriving DecidableEq, Repr

namespace Program

/-- The program without operations. -/
def empty : Program :=
  ⟨#[], []⟩

/-- The cell of an index other than the root's. -/
def cell? (p : Program) (index : Nat) : Option Cell :=
  match index with
  | 0 => none
  | i + 1 => p.cells[i]?

/-- The index of the next cell. -/
def nextIndex (p : Program) : Nat :=
  p.cells.size + 1

/-- Adds a value, without tying it to an operation yet. -/
def addValue (p : Program) (text : String) (line : Nat) : Program :=
  { p with cells := p.cells.push (.value text line) }

/-- Appends an operation, its arguments' cells first.  Its index is `nextIndex`
raised by the number of arguments. -/
def push (p : Program) (op : Operation) : Program :=
  let first := p.nextIndex
  let count := op.arguments.length
  let filled := op.arguments.foldl (fun q text => q.addValue text op.line) p
  { cells := filled.cells.push (.operation op.opcode op.line (List.range' first count))
    root := p.root ++ [first + count] }

/-- The index that `push` gives an operation. -/
def indexAfter (p : Program) (op : Operation) : Nat :=
  p.nextIndex + op.arguments.length

/-- The indices of an operation's arguments. -/
def argumentsOf (p : Program) (operation : Nat) : List Nat :=
  match p.cell? operation with
  | some (.operation _ _ arguments) => arguments
  | _ => []

/-- Replaces the text of one argument of an operation.  None if the operation has no
such argument. -/
def setArgument? (p : Program) (operation position : Nat) (text : String) : Option Program :=
  match (p.argumentsOf operation)[position]? with
  | some (i + 1) =>
    match p.cells[i]? with
    | some (.value _ line) => some { p with cells := p.cells.setIfInBounds i (.value text line) }
    | _ => none
  | _ => none

/-- Replaces the text of one argument of an operation, if it has that argument. -/
def setArgument (p : Program) (operation position : Nat) (text : String) : Program :=
  (p.setArgument? operation position text).getD p

/-- Appends one argument to an operation, on the operation's line. -/
def pushArgument (p : Program) (operation : Nat) (text : String) : Program :=
  match operation, p.cell? operation with
  | i + 1, some (.operation opcode line arguments) =>
    let grown := p.addValue text line
    { grown with
      cells := grown.cells.setIfInBounds i (.operation opcode line (arguments ++ [p.nextIndex])) }
  | _, _ => p

/-- The text in a cell that holds a value. -/
def textAt (p : Program) (index : Nat) : String :=
  match p.cell? index with
  | some (.value text _) => text
  | _ => ""

/-- The operation at an index. -/
def operation? (p : Program) (index : Nat) : Option Operation :=
  match p.cell? index with
  | some (.operation opcode line arguments) => some ⟨opcode, arguments.map p.textAt, line⟩
  | _ => none

/-- The operations, in the order written. -/
def operations (p : Program) : List Operation :=
  p.root.filterMap p.operation?

/-- How many operations there are. -/
def length (p : Program) : Nat :=
  p.root.length

/-- The program of a list of operations. -/
def ofOperations (ops : List Operation) : Program :=
  ops.foldl push empty

end Program

end Adventure
