/-
A place in a text.

A cursor is what is left of a text and the line that the next character stands on.
It only moves forward, by `skip`, which counts the line breaks it passes; so the line
is always one more than the number of line breaks before the place.
-/

namespace Adventure.Text

/-- What is left to read, and the line it begins on. -/
structure Cursor where
  rest : List Char
  line : Nat
  deriving DecidableEq, Repr

/-- Where a text first occurs in another, as the number of characters before it. -/
def position? (text : List Char) : List Char → Option Nat
  | [] => if text.isEmpty then some 0 else none
  | c :: cs => if text.isPrefixOf (c :: cs) then some 0 else (position? text cs).map (· + 1)

namespace Cursor

/-- The beginning of a text. -/
def ofText (s : String) : Cursor :=
  ⟨s.toList, 1⟩

/-- Moves over a number of characters. -/
def skip (c : Cursor) (count : Nat) : Cursor :=
  ⟨c.rest.drop count, c.line + (c.rest.take count).count '\n'⟩

/-- The characters from here on that pass a test, up to the first that does not. -/
def run (c : Cursor) (p : Char → Bool) : List Char :=
  c.rest.takeWhile p

/-- Moves over the characters that pass a test. -/
def skipWhile (c : Cursor) (p : Char → Bool) : Cursor :=
  c.skip (c.run p).length

/-- Whether a text comes next. -/
def startsWith (c : Cursor) (text : String) : Bool :=
  text.toList.isPrefixOf c.rest

/-- Moves past the next occurrence of a text, if there is one. -/
def past? (c : Cursor) (text : String) : Option Cursor :=
  (position? text.toList c.rest).map fun n => c.skip (n + text.length)

theorem length_skip (c : Cursor) (count : Nat) :
    (c.skip count).rest.length = c.rest.length - count := by
  simp [skip]

theorem length_skip_le (c : Cursor) (count : Nat) :
    (c.skip count).rest.length ≤ c.rest.length := by
  rw [length_skip]
  omega

theorem length_skipWhile_le (c : Cursor) (p : Char → Bool) :
    (c.skipWhile p).rest.length ≤ c.rest.length :=
  length_skip_le _ _

theorem length_skip_lt {c : Cursor} {count : Nat} (hrest : c.rest ≠ []) (hcount : 0 < count) :
    (c.skip count).rest.length < c.rest.length := by
  have := List.length_pos_iff.mpr hrest
  rw [length_skip]
  omega

theorem length_past?_lt {c d : Cursor} {text : String} (hrest : c.rest ≠ [])
    (htext : 0 < text.length) (h : c.past? text = some d) :
    d.rest.length < c.rest.length := by
  obtain ⟨n, _, rfl⟩ := Option.map_eq_some_iff.mp h
  exact length_skip_lt hrest (by omega)

end Cursor

end Adventure.Text
