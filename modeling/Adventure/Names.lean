/-
Tables and sets keyed by names.

Both are extensional: two tables that answer every look-up alike are equal, in
whatever order they were filled.  Listing one gives its names in the order of their
code points.
-/
import Std.Data.ExtTreeMap
import Std.Data.ExtTreeSet

namespace Adventure

/-- What is known under each name. -/
abbrev NameTable (α : Type) := Std.ExtTreeMap String α

/-- A set of names. -/
abbrev NameSet := Std.ExtTreeSet String

/-- The set of the names in a list. -/
def NameSet.ofNames (names : List String) : NameSet :=
  names.foldl (·.insert ·) ∅

/-- The table of the pairs in a list; a later pair replaces an earlier one. -/
def NameTable.ofPairs {α : Type} (pairs : List (String × α)) : NameTable α :=
  pairs.foldl (fun table (name, value) => table.insert name value) ∅

/-- The name of the room where players begin. -/
def startRoom : String := "start"

/-- Line numbers as messages list them. -/
def listLines (lines : List Nat) : String :=
  ", ".intercalate (lines.map toString)

end Adventure
