/-
Where entities are kept.

The entities of a world are numbered in the order in which they were made, and a name
leads to a number before it leads to an entity.  This index is read off the population
here.  Looking a name up goes through its position; what leads where changes only when one
more entity is added, and then only for its name; and among distinct names a position is
simply where the name stands.
-/
import Adventure.Proofs.Changes

namespace Adventure.Population

variable {p p' : Population} {name : String} {i : Nat} {e : Entity}

/-- The position of the entity that a name means, counted in the order in which entities
were made. -/
def position? (p : Population) (name : String) : Option Nat :=
  (p.newestFirst.findIdx? (·.name == name)).map (p.size - 1 - ·)

/-- What stands at a position, counted from the entity made last. -/
theorem getElem?_toList (p : Population) (h : i < p.size) :
    p.toList[p.size - 1 - i]? = p.newestFirst[i]? := by
  have hlt : i < p.newestFirst.length := h
  have hback : p.newestFirst.length - 1 - (p.newestFirst.length - 1 - i) = i := by omega
  rw [toList, size, List.getElem?_reverse (by omega), hback]

/-- The position of a name depends on nothing but the names. -/
theorem position?_congr (h : p'.toList.map (·.name) = p.toList.map (·.name)) (name : String) :
    p'.position? name = p.position? name := by
  have hnames : p'.newestFirst.map (·.name) = p.newestFirst.map (·.name) := by
    simpa [toList] using h
  have hindex : ∀ q : Population, q.newestFirst.findIdx? (·.name == name) =
      (q.newestFirst.map (·.name)).findIdx? (· == name) := by
    intro q
    rw [List.findIdx?_map]
    rfl
  have hsize : p'.size = p.size := by
    simpa [size] using congrArg List.length hnames
  rw [position?, position?, hindex, hindex, hnames, hsize]

/-- One more entity stands behind all others and takes no position from them, unless it
takes their name. -/
theorem position?_add (p : Population) (e : Entity) (name : String) :
    (p.add e).position? name = if e.name = name then some p.size else p.position? name := by
  have hsize : (p.add e).size = p.size + 1 := by simp [size, add]
  rw [position?, hsize]
  by_cases hname : e.name = name
  · simp [add, List.findIdx?_cons, hname]
  · rw [if_neg hname, position?]
    simp only [add, List.findIdx?_cons, beq_eq_false_iff_ne.mpr hname, Bool.false_eq_true,
      if_false, Option.map_map]
    congr 1
    funext i
    show p.size + 1 - 1 - (i + 1) = p.size - 1 - i
    omega

/-- **Among distinct names the position of a name is where it stands.** -/
theorem position?_eq_some_iff (hnodup : (p.toList.map (·.name)).Nodup) :
    p.position? name = some i ↔ (p.toList.map (·.name))[i]? = some name := by
  constructor
  · intro h
    obtain ⟨j, hj, rfl⟩ := Option.map_eq_some_iff.mp h
    obtain ⟨hlt, hname, -⟩ := List.findIdx?_eq_some_iff_getElem.mp hj
    rw [List.getElem?_map, getElem?_toList p hlt, List.getElem?_eq_getElem hlt, Option.map_some]
    simpa using hname
  · intro h
    obtain ⟨e, he, hname⟩ := Option.map_eq_some_iff.mp ((List.getElem?_map ..).symm.trans h)
    have hlt : i < p.size := by
      have hlen := (List.getElem?_eq_some_iff.mp he).1
      simpa [toList, size] using hlen
    have hstands : p.newestFirst[p.size - 1 - i]? = some e := by
      rw [← getElem?_toList p (by omega), show p.size - 1 - (p.size - 1 - i) = i by omega, he]
    obtain ⟨hj, hgetElem⟩ := List.getElem?_eq_some_iff.mp hstands
    have hnames : (p.newestFirst.map (·.name)).Nodup := by
      simpa [toList, List.nodup_reverse] using hnodup
    have hindex : p.newestFirst.findIdx? (·.name == name) = some (p.size - 1 - i) := by
      refine List.findIdx?_eq_some_iff_getElem.mpr ⟨hj, by simp [hgetElem, hname], ?_⟩
      intro k hk hsame
      -- two positions of one name are the same position
      have hlen : p.size - 1 - i < (p.newestFirst.map (·.name)).length := by
        rw [List.length_map]
        exact hj
      have hk' : k < (p.newestFirst.map (·.name)).length := Nat.lt_trans hk hlen
      have hboth : (p.newestFirst.map (·.name))[k] =
          (p.newestFirst.map (·.name))[p.size - 1 - i] := by
        rw [List.getElem_map, List.getElem_map, hgetElem, hname]
        simpa using hsame
      exact absurd (hnames.getElem_inj_iff.mp hboth) (by omega)
    rw [position?, hindex, Option.map_some, show p.size - 1 - (p.size - 1 - i) = i by omega]

end Adventure.Population
