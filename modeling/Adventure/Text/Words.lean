/-
Cutting text at its white space.

`trim` drops the white space at both ends; `words` gives the maximal runs of other
characters in between.
-/
import Adventure.Text.Blank

namespace Adventure.Text

/-- The characters without the white space at either end. -/
def trimChars (cs : List Char) : List Char :=
  ((cs.dropWhile isBlank).reverse.dropWhile isBlank).reverse

/-- The text without the white space at either end. -/
def trim (s : String) : String :=
  String.ofList (trimChars s.toList)

/-- Whether the text holds nothing but white space. -/
def isBlankText (s : String) : Bool :=
  s.toList.all isBlank

/-- The maximal runs of characters that are not white space. -/
def wordChars : List Char → List (List Char)
  | [] => []
  | c :: cs =>
    if isBlank c then wordChars cs
    else (c :: cs.takeWhile (! isBlank ·)) :: wordChars (cs.dropWhile (! isBlank ·))
termination_by cs => cs.length
decreasing_by
  · simp
  · have := (List.dropWhile_sublist (l := cs) (! isBlank ·)).length_le
    simp only [List.length_cons]
    omega

/-- The words of a text, in order. -/
def words (s : String) : List String :=
  (wordChars s.toList).map String.ofList

/-- The text with each stretch of white space as one space, and none at the ends. -/
def normalizeBlanks (s : String) : String :=
  " ".intercalate (words s)

end Adventure.Text
