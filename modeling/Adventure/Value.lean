/-
Typed values.

A source text holds values as text.  The text of a value is read once, when the
operation that carries it is checked, and what is stored is the typed value.
-/
import Adventure.Decimal.Layout
import Adventure.Decimal.Read
import Adventure.Text.Quoted
import Adventure.Text.Words

namespace Adventure

/-- The types a value can have. -/
inductive ValueType where
  | string
  | integer
  | number
  | boolean
  deriving DecidableEq, Repr

namespace ValueType

/-- The word for the type. -/
def name : ValueType → String
  | string => "string"
  | integer => "integer"
  | number => "number"
  | boolean => "boolean"

instance : ToString ValueType := ⟨name⟩

end ValueType

/-- A value with its type. -/
inductive Value where
  | string (text : String)
  | integer (i : Int)
  | number (x : Float)
  | boolean (b : Bool)
  deriving DecidableEq, Repr

namespace Value

/-- Reads a text as a value of the given type.  White space around it does not
count, an integer fits sixty-four bits, a number is finite, and the only spellings
of a boolean are `1` and `0`. -/
def read? (text : String) (type : ValueType) : Option Value :=
  let text := Text.trim text
  match type with
  | .string => some (.string text)
  | .integer => (Decimal.readInt64? text.toList).map .integer
  | .number => ((Decimal.readFloat? text.toList).filter Float.isFinite).map .number
  | .boolean =>
    if text = "1" then some (.boolean true)
    else if text = "0" then some (.boolean false)
    else none

/-- The type of a value. -/
def type : Value → ValueType
  | string _ => .string
  | integer _ => .integer
  | number _ => .number
  | boolean _ => .boolean

/-- The text of a string. -/
def string? : Value → Option String
  | string text => some text
  | _ => none

/-- The integer of an integer. -/
def integer? : Value → Option Int
  | integer i => some i
  | _ => none

/-- The number of a number; an integer counts as the number nearest to it. -/
def number? : Value → Option Float
  | number x => some x
  | integer i => some (Float.ofInt i)
  | _ => none

/-- The truth of a boolean. -/
def boolean? : Value → Option Bool
  | boolean b => some b
  | _ => none

/-- The value as a source text would give it. -/
def text : Value → String
  | string text => text
  | integer i => toString i
  | number x => Decimal.text x
  | boolean b => if b then "1" else "0"

/-- The value with its type spelled out, so that no two values look alike. -/
def labelled : Value → String
  | string text => s!"String({Text.quote text})"
  | integer i => s!"Int({i})"
  | number x => s!"Float({Decimal.write .labelled x})"
  | boolean b => s!"Bool({b})"

theorem type_of_read? {text : String} {type : ValueType} {v : Value}
    (h : read? text type = some v) : v.type = type := by
  cases type <;> simp only [read?, Option.map_eq_some_iff, Option.some.injEq] at h
  · exact h ▸ rfl
  · obtain ⟨_, _, rfl⟩ := h
    rfl
  · obtain ⟨_, _, rfl⟩ := h
    rfl
  · split at h
    · exact (Option.some.inj h) ▸ rfl
    · split at h
      · exact (Option.some.inj h) ▸ rfl
      · exact absurd h nofun

end Value

end Adventure
