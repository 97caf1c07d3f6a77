/-
The choices that a compilation leaves open.
-/
import Adventure.Path

namespace Adventure

/-- How to compile a game. -/
structure Config where
  /-- How many words a compound term may have. -/
  maxWords : Nat
  /-- The directory that the paths of scripts are relative to. -/
  scriptBase : Option String
  /-- The name of the source, for messages. -/
  filename : Option String
  /-- Whether a game must have a room to begin in. -/
  requireStart : Bool
  /-- Whether script files are read. -/
  loadScripts : Bool
  deriving DecidableEq, Repr

namespace Config

/-- Everything is required and read. -/
def strict : Config :=
  ⟨4, none, none, true, true⟩

/-- Neither a room to begin in nor any script file is needed. -/
def lenient : Config :=
  { strict with requireStart := false, loadScripts := false }

/-- The same choices with another bound on compound terms, which is at least one. -/
def withMaxWords (c : Config) (words : Nat) : Config :=
  { c with maxWords := max words 1 }

/-- Where relative paths of scripts begin: the script base, or else the directory of
the source. -/
def base? (c : Config) : Option String :=
  c.scriptBase <|> c.filename.bind Path.parent?

/-- The path under which a script is looked for. -/
def resolveScript (c : Config) (path : String) : String :=
  if Path.isAbsolute path then path
  else match c.base? with
    | some base => Path.join base path
    | none => path

end Config

/-- The two ways to write a game. -/
inductive SourceFormat where
  /-- Elements between tags. -/
  | markup
  /-- Sentences. -/
  | prose
  deriving DecidableEq, Repr

namespace SourceFormat

/-- Files that end in `.xml`, in whatever case, hold markup. -/
def ofPath (path : String) : SourceFormat :=
  if (Path.extension? path).map (·.map Char.toLower) = some "xml" then markup else prose

end SourceFormat

end Adventure
