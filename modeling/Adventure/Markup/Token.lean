/-
The tokens of markup.

Markup is a tree of elements.  Its tokens are the tags that open and close the
elements, the text between them, and the end of the document.  The depth of a tag is
the number of elements around its own.
-/
import Adventure.Error

namespace Adventure.Markup

/-- A token with the line it begins on. -/
inductive Token where
  /-- A tag that opens an element, with its attributes in the order written. -/
  | opening (name : String) (attributes : List (String × String)) (depth line : Nat)
  /-- The end of an element. -/
  | closing (name : String) (depth line : Nat)
  /-- The text between two tags. -/
  | text (content : String) (depth line : Nat)
  /-- The end of the document. -/
  | finish (line : Nat)
  deriving DecidableEq, Repr

namespace Token

/-- The line a token begins on. -/
def line : Token → Nat
  | opening _ _ _ line | closing _ _ line | text _ _ line | finish line => line

/-- The depth of a token; the end of the document has none. -/
def depth : Token → Nat
  | opening _ _ depth _ | closing _ depth _ | text _ depth _ => depth
  | finish _ => 0

/-- The name in a tag; no other token has one. -/
def tagName : Token → String
  | opening name _ _ _ | closing name _ _ => name
  | _ => ""

def isOpening : Token → Bool
  | opening .. => true
  | _ => false

def isFinish : Token → Bool
  | finish _ => true
  | _ => false

/-- Whether the token closes an element of this name. -/
def closes (t : Token) (name : String) : Bool :=
  match t with
  | closing other _ _ => other = name
  | _ => false

/-- The value of an attribute of an opening tag, as written. -/
def attribute? (t : Token) (key : String) : Option String :=
  match t with
  | opening _ attributes _ _ => attributes.lookup key
  | _ => none

end Token

end Adventure.Markup
