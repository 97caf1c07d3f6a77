/-
English plurals.

A noun phrase is made plural by its last word.  Few nouns are irregular; the others
take an ending that depends on the letters they end in.
-/

namespace Adventure.Prose

/-- The nouns with a plural of their own. -/
def irregularPlurals : List (String × String) :=
  [("man", "men"), ("woman", "women"), ("person", "people"), ("child", "children")]

/-- The endings that take a vowel before the `s`. -/
def hissingEndings : List String :=
  ["s", "x", "z", "ch", "sh"]

/-- Whether a word ends in `y` without a vowel before it. -/
def endsInBareY (word : List Char) : Bool :=
  match word.reverse with
  | 'y' :: before => !(before.head?.any ("aeiou".toList.contains ·))
  | _ => false

/-- The plural of one word. -/
def pluralWord (word : String) : String :=
  match irregularPlurals.lookup word with
  | some plural => plural
  | none =>
    let letters := word.toList
    if hissingEndings.any fun ending => ending.toList.isSuffixOf letters then word ++ "es"
    else if endsInBareY letters then String.ofList letters.dropLast ++ "ies"
    else word ++ "s"

/-- The plural of a noun phrase: its last word, after the last space, is made plural. -/
def pluralize (noun : String) : String :=
  let letters := noun.toList
  let last := (letters.reverse.takeWhile (· ≠ ' ')).reverse
  String.ofList (letters.take (letters.length - last.length)) ++ pluralWord (String.ofList last)

example : ["box", "lorry", "key", "y", "old woman", "player's holdall"].map pluralize =
    ["boxes", "lorries", "keys", "ies", "old women", "player's holdalls"] := by
  decide +kernel

end Adventure.Prose
