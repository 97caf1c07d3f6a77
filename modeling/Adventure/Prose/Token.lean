/-
The tokens of prose.

A token is a word or a term, a mark, text between quotes, or an end: of a sentence or
of the source.
-/
import Adventure.Text.Lowercase

namespace Adventure.Prose

/-- What a token is. -/
inductive TokenKind where
  /-- The end of the source. -/
  | finish
  /-- The end of a sentence: a period or a blank line. -/
  | stop
  | comma
  | colon
  | semicolon
  /-- A word, or a term of several words. -/
  | word
  | article
  /-- The verb between the subjects and what is said of them. -/
  | equality
  | conjunction
  /-- Text between quotes. -/
  | quoted
  deriving DecidableEq, Repr

namespace TokenKind

/-- The kind of token in words. -/
def text : TokenKind → String
  | finish => "end of source"
  | stop => "end of sentence"
  | comma => "','"
  | colon => "':'"
  | semicolon => "';'"
  | word => "word"
  | article => "article"
  | equality => "'is'"
  | conjunction => "'and'"
  | quoted => "quoted text"

/-- The kind of token that a word or a term is. -/
def ofWord (word : String) : TokenKind :=
  match Text.lower word with
  | "is" | "are" => equality
  | "a" | "an" | "the" | "some" => article
  | "and" => conjunction
  | _ => .word

/-- The kind of token that a single character is. -/
def ofMark? : Char → Option TokenKind
  | ',' => some comma
  | ':' => some colon
  | ';' => some semicolon
  | _ => none

end TokenKind

/-- A token with its text and the line it begins on. -/
structure Token where
  kind : TokenKind
  text : String
  line : Nat
  deriving DecidableEq, Repr

namespace Token

/-- Whether the token is a certain word, given in lowercase.  The case of ASCII letters
does not matter. -/
def isWord (t : Token) (word : String) : Bool :=
  t.kind = .word && t.text.toLower == word

/-- Whether the token ends a sentence, if only because the source ends. -/
def endsSentence (t : Token) : Bool :=
  t.kind = .stop || t.kind = .finish

/-- The token as messages name it. -/
def found (t : Token) : String :=
  match t.kind with
  | .word | .article | .equality | .conjunction => s!"\"{t.text}\""
  | kind => kind.text

end Token

end Adventure.Prose
