/-
Scripts.

A script is kept as it was given, with what it belongs to; nothing here looks into
it.
-/
import Adventure.Operation

namespace Adventure

/-- A script as it was given. -/
inductive Script where
  /-- The text itself. -/
  | inline (text : String)
  /-- The path of a file, with its text if that was read. -/
  | file (path : String) (source : Option String)
  deriving DecidableEq, Repr

/-- The text of a script, if it is at hand. -/
def Script.source? : Script → Option String
  | inline text => some text
  | file _ source => source

/-- The scripts that were loaded, in order, each with its owner. -/
structure ScriptStore where
  loaded : List (Subject × Script)
  deriving DecidableEq, Repr

namespace ScriptStore

/-- No scripts. -/
def empty : ScriptStore :=
  ⟨[]⟩

/-- Loads a script. -/
def load (s : ScriptStore) (owner : Subject) (script : Script) : ScriptStore :=
  ⟨s.loaded ++ [(owner, script)]⟩

/-- The scripts of an owner, in the order loaded. -/
def ofOwner (s : ScriptStore) (owner : Subject) : List Script :=
  (s.loaded.filter (·.1 = owner)).map (·.2)

/-- How many scripts were loaded. -/
def size (s : ScriptStore) : Nat :=
  s.loaded.length

theorem ofOwner_load (s : ScriptStore) (owner other : Subject) (script : Script) :
    (s.load owner script).ofOwner other =
      s.ofOwner other ++ if owner = other then [script] else [] := by
  by_cases h : owner = other <;> simp [ofOwner, load, h]

end ScriptStore

end Adventure
