/-
Files as they are when a game is compiled.
-/
import Adventure.Names

namespace Adventure

/-- The contents of the files that exist, by path. -/
abbrev Files := NameTable ByteArray

namespace Files

/-- No files. -/
def none : Files :=
  ∅

/-- Why a file cannot be read as text. -/
inductive ReadFault where
  | missing
  | notText
  deriving DecidableEq, Repr

/-- The reason in words. -/
def ReadFault.message : ReadFault → String
  | missing => "No such file or directory (os error 2)"
  | notText => "stream did not contain valid UTF-8"

/-- The text of a file. -/
def read (files : Files) (path : String) : Except ReadFault String :=
  match files[path]? with
  | .none => .error .missing
  | some bytes =>
    match String.fromUTF8? bytes with
    | some text => .ok text
    | .none => .error .notText

end Files

end Adventure
