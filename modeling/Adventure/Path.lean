/-
Paths of files.

A path is text with slashes between its components.  Empty components, and dots
other than the first, do not count.  A path that begins with a slash is absolute.
-/

namespace Adventure.Path

/-- Whether a path begins at the root of all paths. -/
def isAbsolute (path : String) : Bool :=
  path.toList.head? = some '/'

/-- Drops slashes, and dots between slashes, from the end of a reversed path, down to
the `keep` characters that begin it. -/
def trimEnd (keep : Nat) : List Char → List Char
  | [] => []
  | '/' :: rest => if keep < rest.length + 1 then trimEnd keep rest else '/' :: rest
  | '.' :: '/' :: rest =>
    if keep < rest.length + 2 then trimEnd keep ('/' :: rest) else '.' :: '/' :: rest
  | cs => cs

/-- How many characters begin a path before its first component: the root's slash, or
a dot that stands for the current place. -/
def headLength : List Char → Nat
  | '/' :: _ => 1
  | ['.'] => 1
  | '.' :: '/' :: _ => 1
  | _ => 0

/-- A path's last component, if that is more than the beginning of the path, and the
path without it. -/
def split? (path : String) : Option (List Char × List Char) :=
  let cs := path.toList
  let keep := headLength cs
  let body := trimEnd keep cs.reverse
  if body.length ≤ keep then none
  else
    let name := (body.take (body.length - keep)).takeWhile (· ≠ '/')
    some (name.reverse, (trimEnd keep (body.drop name.length)).reverse)

/-- The path without its last component.  The root and the empty path have none. -/
def parent? (path : String) : Option String :=
  match split? path with
  | some (_, parent) => some (String.ofList parent)
  | none => if path.toList.head? = some '.' then some "" else none

/-- The path of `path` seen from `base`. -/
def join (base path : String) : String :=
  if isAbsolute path then path
  else if base.isEmpty ∨ base.toList.getLast? = some '/' then base ++ path
  else base ++ "/" ++ path

/-- What follows the last point of the last component, unless the point begins it. -/
def extension? (path : String) : Option String :=
  match split? path with
  | none => none
  | some (name, _) =>
    if name = ['.', '.'] then none
    else
      let ending := name.reverse.takeWhile (· ≠ '.')
      if name.length ≤ ending.length + 1 then none else some (String.ofList ending.reverse)

end Adventure.Path
