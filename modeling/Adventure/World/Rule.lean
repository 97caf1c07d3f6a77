/-
Rules for the text of a value.

A rule says which texts are accepted and what value each of them stands for.
-/
import Adventure.Value

namespace Adventure

/-- Which texts a value can be given by. -/
inductive Rule where
  /-- Any text, as it stands. -/
  | text
  | boolean
  | integer
  /-- A number that is not negative. -/
  | nonNegative
  /-- A number from zero to one. -/
  | probability
  /-- One of several words. -/
  | choice (words : List String)
  deriving DecidableEq, Repr

namespace Rule

/-- What the rule asks for, in words. -/
def demand : Rule → String
  | text => "must be a text"
  | boolean => "must be 1 for true or 0 for false"
  | integer => "must be an integer"
  | nonNegative => "must be a number no less than 0"
  | probability => "must be a probability between 0 and 1"
  | choice words => "must be one of " ++ ", ".intercalate words

/-- The complaint about a text that a property does not take. -/
def complaint (rule : Rule) (property given : String) : String :=
  s!"{property} {rule.demand}, got \"{given}\""

/-- Whether a value is a number that passes a test. -/
def numberPasses (test : Float → Bool) (v : Value) : Bool :=
  v.number?.any test

/-- The value that an accepted text stands for. -/
def read? (rule : Rule) (given : String) : Option Value :=
  match rule with
  | text => some (.string given)
  | boolean => Value.read? given .boolean
  | integer => Value.read? given .integer
  | nonNegative => (Value.read? given .number).filter (numberPasses (· ≥ 0.0))
  | probability =>
    (Value.read? given .number).filter (numberPasses fun x => x ≥ 0.0 && x ≤ 1.0)
  | choice words => (words.find? (· == Text.trim given)).map .string

/-- The value that a text stands for, or the complaint. -/
def read (rule : Rule) (property given : String) : Except String Value :=
  match rule.read? given with
  | some v => .ok v
  | none => .error (rule.complaint property given)

/-- The type of the values that a rule reads. -/
def valueType : Rule → ValueType
  | text | choice _ => .string
  | boolean => .boolean
  | integer => .integer
  | nonNegative | probability => .number

theorem type_of_read? {rule : Rule} {given : String} {v : Value}
    (h : rule.read? given = some v) : v.type = rule.valueType := by
  cases rule <;>
    simp only [read?, Option.filter_eq_some_iff, Option.map_eq_some_iff, Option.some.injEq] at h
  · exact h ▸ rfl
  · exact Value.type_of_read? h
  · exact Value.type_of_read? h
  · exact Value.type_of_read? h.1
  · exact Value.type_of_read? h.1
  · obtain ⟨_, _, rfl⟩ := h
    rfl

end Rule

end Adventure
