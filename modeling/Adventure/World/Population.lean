/-
The entities of a world.

They are kept with the one made last in front, and a name means the first entity that
has it.  Checked operations never make two of one name; if two there are, the one
made last is meant.
-/
import Adventure.World.Entity

namespace Adventure

/-- The entities there are, the one made last first. -/
structure Population where
  newestFirst : List Entity

namespace Population

/-- Nobody and nothing. -/
def empty : Population :=
  ⟨[]⟩

/-- The entities in the order in which they were made. -/
def toList (p : Population) : List Entity :=
  p.newestFirst.reverse

/-- How many there are. -/
def size (p : Population) : Nat :=
  p.newestFirst.length

/-- The entity that a name means. -/
def get? (p : Population) (name : String) : Option Entity :=
  p.newestFirst.find? (·.name == name)

/-- Adds an entity. -/
def add (p : Population) (e : Entity) : Population :=
  ⟨e :: p.newestFirst⟩

/-- Puts an entity in the place of the first of a name. -/
def replaceIn (name : String) (e : Entity) : List Entity → List Entity
  | [] => []
  | old :: rest => if old.name == name then e :: rest else old :: replaceIn name e rest

/-- Puts an entity in the place of the one that a name means. -/
def replace (p : Population) (name : String) (e : Entity) : Population :=
  ⟨replaceIn name e p.newestFirst⟩

theorem toList_add (p : Population) (e : Entity) : (p.add e).toList = p.toList ++ [e] := by
  simp [toList, add]

theorem get?_add (p : Population) (e : Entity) (name : String) :
    (p.add e).get? name = if e.name = name then some e else p.get? name := by
  by_cases h : e.name = name <;> simp [get?, add, h]

theorem size_replace (p : Population) (name : String) (e : Entity) :
    (p.replace name e).size = p.size := by
  have key (l : List Entity) : (replaceIn name e l).length = l.length := by
    induction l with
    | nil => rfl
    | cons old rest ih => simp only [replaceIn]; split <;> simp [ih]
  exact key p.newestFirst

/-- An entity that keeps its name is found in the place of the old one, and the others
stay as they are. -/
theorem get?_replace {p : Population} {name : String} {e old : Entity} (hname : e.name = name)
    (hold : p.get? name = some old) (other : String) :
    (p.replace name e).get? other = if other = name then some e else p.get? other := by
  obtain ⟨l⟩ := p
  simp only [get?, replace] at hold ⊢
  induction l with
  | nil => simp at hold
  | cons first rest ih =>
    by_cases hfirst : first.name = name
    · by_cases hother : other = name
      · simp [replaceIn, hfirst, hname, hother]
      · simp [replaceIn, hfirst, hname, hother, Ne.symm hother]
    · have ih := ih (by simpa [List.find?_cons, hfirst] using hold)
      by_cases hother : first.name = other
      · have : other ≠ name := fun h => hfirst (hother.trans h)
        simp [replaceIn, hother, this]
      · simp [replaceIn, hfirst, hother, ih]

end Population

end Adventure
