/-
Where a history of insertions leaves everything.

Only the insertion of a thing that came last counts: it says who holds the thing, and
when the thing came to its holder.  Both readings of a history, by thing and by holder,
are given here as functions of the list of insertions alone.  The induction is on the
list from its end, since a new insertion is the last one of its thing.
-/
import Adventure.Operation
import Mathlib.Data.List.Induction
import Mathlib.Data.List.Nodup

namespace Adventure

/-- What can hold a thing. -/
inductive Holder where
  | room (name : String)
  | being (name : String)
  deriving DecidableEq, Repr

namespace Holder

def name : Holder → String
  | room name | being name => name

/-- The name of the holder if it is a room. -/
def room? : Holder → Option String
  | room name => some name
  | being _ => none

/-- The name of the holder if it is a being. -/
def being? : Holder → Option String
  | room _ => none
  | being name => some name

theorem room?_eq_some_iff {holder : Holder} {name : String} :
    holder.room? = some name ↔ holder = room name := by
  cases holder <;> simp [room?]

theorem being?_eq_some_iff {holder : Holder} {name : String} :
    holder.being? = some name ↔ holder = being name := by
  cases holder <;> simp [being?]

end Holder

/-- The thing that an operation puts somewhere, and where. -/
def Operation.insertion? (op : Operation) : Option (String × Holder) :=
  match op.opcode with
  | .insertIntoPlace => some (op.argument 0, .room (op.argument 1))
  | .insertIntoInventory => some (op.argument 0, .being (op.argument 1))
  | _ => none

/-- The insertions among operations, in order. -/
def insertions (ops : List Operation) : List (String × Holder) :=
  ops.filterMap (·.insertion?)

/-- Where a thing was put last. -/
def lastHolder (ins : List (String × Holder)) (thing : String) : Option Holder :=
  ins.reverse.lookup thing

/-- The insertions that no later one of the same thing undid. -/
def standing : List (String × Holder) → List (String × Holder)
  | [] => []
  | (thing, holder) :: rest =>
    if rest.any (·.1 = thing) then standing rest else (thing, holder) :: standing rest

/-- The things that were last put into a holder, in the order in which that was done. -/
def heldBy (ins : List (String × Holder)) (holder : Holder) : List String :=
  ((standing ins).filter (·.2 = holder)).map (·.1)

variable {ins : List (String × Holder)} {thing other : String} {holder holder' : Holder}

theorem lastHolder_append (ins : List (String × Holder)) (thing : String) (holder : Holder)
    (other : String) :
    lastHolder (ins ++ [(thing, holder)]) other =
      if other = thing then some holder else lastHolder ins other := by
  rw [lastHolder, List.reverse_append, List.reverse_singleton, List.singleton_append,
    List.lookup_cons, lastHolder]
  by_cases h : other = thing
  · simp [h]
  · have hne : (other == thing) = false := by simpa using h
    simp [h, hne]

/-- A new insertion of a thing undoes the one that stood, and stands itself. -/
theorem standing_append (ins : List (String × Holder)) (thing : String) (holder : Holder) :
    standing (ins ++ [(thing, holder)]) =
      (standing ins).filter (·.1 ≠ thing) ++ [(thing, holder)] := by
  induction ins with
  | nil => simp [standing]
  | cons first rest ih =>
    obtain ⟨t, h⟩ := first
    rw [List.cons_append, standing, standing, ih]
    by_cases hundone : rest.any (·.1 = t)
    · simp [hundone]
    · by_cases hsame : thing = t
      · simp [hundone, hsame]
      · simp [hundone, hsame, Ne.symm hsame]

theorem heldBy_append (ins : List (String × Holder)) (thing : String) (holder holder' : Holder) :
    heldBy (ins ++ [(thing, holder)]) holder' =
      (heldBy ins holder').filter (· ≠ thing) ++ if holder = holder' then [thing] else [] := by
  rw [heldBy, standing_append, List.filter_append, List.map_append, heldBy, List.filter_map,
    List.filter_filter, List.filter_filter]
  congr 1
  · congr 1
    refine List.filter_congr ?_
    intro p _
    simp [Bool.and_comm]
  · by_cases h : holder = holder' <;> simp [h]

/-- **The two readings agree**: a holder has just the things that it was the last to get. -/
theorem mem_heldBy_iff : thing ∈ heldBy ins holder ↔ lastHolder ins thing = some holder := by
  induction ins using List.reverseRecOn with
  | nil => simp [heldBy, standing, lastHolder]
  | append_singleton ins last ih =>
    obtain ⟨t, h⟩ := last
    rw [heldBy_append, lastHolder_append, List.mem_append, List.mem_filter, ih]
    by_cases hthing : thing = t
    · by_cases hholder : h = holder <;> simp [hthing, hholder]
    · by_cases hholder : h = holder <;> simp [hthing, hholder]

theorem heldBy_nodup (ins : List (String × Holder)) (holder : Holder) :
    (heldBy ins holder).Nodup := by
  induction ins using List.reverseRecOn with
  | nil => simp [heldBy, standing]
  | append_singleton ins last ih =>
    obtain ⟨t, h⟩ := last
    rw [heldBy_append]
    refine List.Nodup.append (ih.filter _) ?_ ?_
    · split <;> simp
    · intro x hx hx'
      split at hx'
      · rw [List.mem_singleton] at hx'
        subst hx'
        simp at hx
      · simp at hx'

/-- A holder that did not have the thing loses nothing when it goes elsewhere. -/
theorem filter_heldBy (h : lastHolder ins thing ≠ some holder) :
    (heldBy ins holder).filter (· ≠ thing) = heldBy ins holder := by
  rw [List.filter_eq_self]
  intro t ht
  simp only [ne_eq, decide_not, Bool.not_eq_true', decide_eq_false_iff_not]
  rintro rfl
  exact h (mem_heldBy_iff.mp ht)

end Adventure
