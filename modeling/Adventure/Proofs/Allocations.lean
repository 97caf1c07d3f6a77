/-
Books on who holds how much of a resource.

Amounts are read as exact fractions here, so that sums are what they are called.  An owner's
holding is overwritten with a recomputed sum, and the total is added up anew whenever it is
needed.  That the books are right after any calls needs one step only: a call that is accepted
adds its amount to one holding and to the total, and a call that is refused adds nothing.

The limits are fixed and the amounts are not negative.  So what is checked before a call is
accepted holds behind it, and goes on to hold while others are refused.  A limit below zero is
the only one that cannot be kept, since nobody holds less than nothing: it is broken from the
start, and every call is refused.
-/
import Mathlib.Algebra.Order.BigOperators.Group.List
import Mathlib.Algebra.Order.Ring.Rat
import Mathlib.Tactic.Linarith
import Mathlib.Tactic.Ring
import Adventure.Proofs.Names
import Adventure.Proofs.Outcome
import Adventure.World.Resource

namespace Adventure

/-- Exact amounts. -/
instance : Amount ℚ where
  nothing := 0
  start := 0
  add := (· + ·)
  exceeds x y := y < x
  isWhole x := x.den = 1
  text := toString

/-! ### Sums over a table -/

namespace NameTable

variable {α : Type} {t : NameTable α} {name : String} {value : α}

/-- What all names have together. -/
def sum (t : NameTable ℚ) : ℚ :=
  (t.toList.map (·.2)).sum

end NameTable

namespace Resource

/-! ### Step by step -/

section Calls

variable {α : Type} [Amount α]

/-- Gives an owner more of a resource that is changed in place: one check after the other, and
then the entry. -/
def give (owner : String) (amount : α) : EStateM (Refusal α) (Resource α) Unit := do
  let r ← get
  if r.wholeOnly && !Amount.isWhole amount then throw (.notWhole amount)
  let total := Amount.add r.total amount
  if exceedsLimit total r.available then
    throw (.overTotal amount total (r.available.getD Amount.nothing))
  let held := Amount.add (r.allocatedTo owner) amount
  if exceedsLimit held r.maxPerOwner then
    throw (.overShare owner held (r.maxPerOwner.getD Amount.nothing))
  modify fun r => { r with allocations := r.allocations.insert owner held }

/-- What a resource is after a call for an owner and an amount, refused or not. -/
def next (r : Resource α) (call : String × α) : Resource α :=
  match give call.1 call.2 r with
  | .ok _ r' | .error _ r' => r'

/-- What a resource becomes by calls, some of which may have been refused. -/
def reached (r : Resource α) (calls : List (String × α)) : Resource α :=
  calls.foldl next r

/-- Those of the calls that are accepted, each after the ones before it. -/
def accepted (r : Resource α) : List (String × α) → List (String × α)
  | [] => []
  | call :: calls =>
    match give call.1 call.2 r with
    | .ok _ r' => call :: r'.accepted calls
    | .error _ r' => r'.accepted calls

end Calls

/-! ### Exact amounts -/

variable {r : Resource ℚ} {owner : String} {amount : ℚ}

/-- No limit of the resource is broken. -/
structure Within (r : Resource ℚ) : Prop where
  total : ∀ available, r.available = some available → r.total ≤ available
  share : ∀ max, r.maxPerOwner = some max → ∀ owner, r.allocatedTo owner ≤ max
  whole : r.wholeOnly = true → ∀ owner, ∃ n : ℤ, r.allocatedTo owner = n

/-- What holds of a resource of which no amount below zero was ever given. -/
structure Sound (r : Resource ℚ) : Prop where
  nonneg : ∀ owner, 0 ≤ r.allocatedTo owner
  total : ∀ available, r.available = some available → 0 ≤ available → r.total ≤ available
  share : ∀ max, r.maxPerOwner = some max → 0 ≤ max → ∀ owner, r.allocatedTo owner ≤ max
  whole : r.wholeOnly = true → ∀ owner, ∃ n : ℤ, r.allocatedTo owner = n

theorem Within.sound (h : r.Within) (hnonneg : ∀ owner, 0 ≤ r.allocatedTo owner) : r.Sound :=
  ⟨hnonneg, fun available havailable _ => h.total available havailable,
    fun max hmax _ => h.share max hmax, h.whole⟩

/-- What an owner was given by calls. -/
def given (calls : List (String × ℚ)) (owner : String) : ℚ :=
  ((calls.filter (·.1 = owner)).map (·.2)).sum

end Resource

end Adventure
