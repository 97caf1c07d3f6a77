/-
Transcripts: what an executor would be told.

The executor here carries out nothing.  It writes down every call, so that what a
program comes to can be looked at without a world.
-/
import Adventure.Execution

namespace Adventure

/-- A call of an executor. -/
inductive Call where
  | operation (op : Operation) (value : Option Value)
  | setEntity (name property : String) (value : Value)
  | setClass (name property : String) (value : Value)
  | setPlayer (property : String) (value : Value)
  | setGame (property : String) (value : Value)
  | finish
  deriving DecidableEq, Repr

/-- The calls so far, in order. -/
structure Transcript where
  calls : List Call
  deriving DecidableEq, Repr

namespace Transcript

/-- No calls. -/
def empty : Transcript :=
  ⟨[]⟩

/-- Writes down a call. -/
def write (call : Call) : EStateM Error Transcript Unit :=
  modify fun t => ⟨t.calls ++ [call]⟩

/-- The executor that writes down its calls, for all opcodes but some. -/
def writer (omitted : List Opcode) : Executor Transcript where
  action? op :=
    if omitted.contains op then none else some fun op value => write (.operation op value)
  setEntity name property value := write (.setEntity name property value)
  setClass name property value := write (.setClass name property value)
  setPlayer property value := write (.setPlayer property value)
  setGame property value := write (.setGame property value)
  finish := write .finish

end Transcript

end Adventure
