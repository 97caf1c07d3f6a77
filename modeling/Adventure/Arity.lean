/-
How many arguments an operation takes.
-/

namespace Adventure

/-- The argument counts an operation accepts. -/
inductive Arity where
  | exactly (count : Nat)
  | between (least most : Nat)
  deriving DecidableEq, Repr

namespace Arity

/-- Whether `count` arguments are accepted. -/
def accepts : Arity → Nat → Bool
  | exactly n, count => count = n
  | between least most, count => least ≤ count && count ≤ most

/-- The counts in words. -/
def text : Arity → String
  | exactly n => toString n
  | between least most => s!"{least} to {most}"

instance : ToString Arity := ⟨text⟩

end Arity

end Adventure
