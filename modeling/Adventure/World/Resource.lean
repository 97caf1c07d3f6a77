/-
Resources and their allocations.

A resource is shared out among owners.  It may have a total that cannot be exceeded,
a most that one owner can hold, and a rule that only whole amounts are given.  An
allocation that would break one of these is refused and changes nothing.
-/
import Adventure.Decimal.Layout
import Adventure.Names

namespace Adventure

/-- What amounts have to offer. -/
class Amount (α : Type) where
  /-- What an owner holds who was given nothing. -/
  nothing : α
  /-- What the holdings are added to for their total. -/
  start : α
  add : α → α → α
  /-- Whether the first amount is more than the second. -/
  exceeds : α → α → Bool
  isWhole : α → Bool
  text : α → String

namespace Decimal

/-- Whether a reading is that of a whole number: its last binary place is a whole one,
or the places after the point are empty. -/
def Reading.isWhole : Reading → Bool
  | .notANumber | .infinite _ => false
  | .zero _ => true
  | .finite _ value => value.mantissa % Nat.pow 2 (-value.exponent).toNat = 0

end Decimal

/-- Floating-point amounts.  Sums begin at negative zero, which is what no holdings
come to. -/
instance : Amount Float where
  nothing := 0.0
  start := -0.0
  add := (· + ·)
  exceeds x y := x > y
  isWhole x := (Decimal.Reading.ofFloat x).isWhole
  text := Decimal.text

/-- A resource, its limits and who holds how much of it. -/
structure Resource (α : Type) where
  available : Option α
  maxPerOwner : Option α
  wholeOnly : Bool
  pluralTitle : Option String
  allocations : NameTable α

namespace Resource

variable {α : Type} [Amount α]

/-- A resource without limits that nobody holds any of. -/
def fresh : Resource α :=
  ⟨none, none, false, none, ∅⟩

/-- What an owner holds. -/
def allocatedTo (r : Resource α) (owner : String) : α :=
  r.allocations.getD owner Amount.nothing

/-- What all owners hold together. -/
def total (r : Resource α) : α :=
  (r.allocations.toList.map (·.2)).foldl Amount.add Amount.start

/-- Why an allocation is refused. -/
inductive Refusal (α : Type) where
  | notWhole (amount : α)
  | overTotal (amount total available : α)
  | overShare (owner : String) (held max : α)
  deriving DecidableEq, Repr

/-- The refusal in words. -/
def Refusal.message : Refusal α → String
  | notWhole amount => s!"only whole amounts can be allocated, got {Amount.text amount}"
  | overTotal amount total available =>
    s!"allocating {Amount.text amount} would bring the total to {Amount.text total}, but only {Amount.text available} is available"
  | overShare owner held max =>
    s!"\"{owner}\" would hold {Amount.text held}, more than the {Amount.text max} allowed per owner"

/-- Whether an amount is more than a limit that may not be set. -/
def exceedsLimit (amount : α) (limit : Option α) : Bool :=
  limit.any (Amount.exceeds amount)

/-- Gives an owner more of the resource. -/
def allocate (r : Resource α) (owner : String) (amount : α) :
    Except (Refusal α) (Resource α) :=
  let total := Amount.add r.total amount
  let held := Amount.add (r.allocatedTo owner) amount
  if r.wholeOnly && !Amount.isWhole amount then .error (.notWhole amount)
  else if exceedsLimit total r.available then
    .error (.overTotal amount total (r.available.getD Amount.nothing))
  else if exceedsLimit held r.maxPerOwner then
    .error (.overShare owner held (r.maxPerOwner.getD Amount.nothing))
  else .ok { r with allocations := r.allocations.insert owner held }

end Resource

end Adventure
