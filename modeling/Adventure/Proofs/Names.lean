/-
What lists and tables of names answer.

An insertion changes the answer for its own name only, and a table made from pairs
whose names are distinct answers as the list of pairs does.  That is all that is needed
of tables anywhere else, so nothing there depends on how they are kept.
-/
import Adventure.Names
import Mathlib.Data.List.Basic

namespace Adventure

/-- The names of a list, once each, after one more name. -/
theorem eraseDups_concat (l : List String) (a : String) :
    (l ++ [a]).eraseDups = if a ∈ l then l.eraseDups else l.eraseDups ++ [a] := by
  rw [List.eraseDups_append]
  by_cases h : a ∈ l <;> simp [h, List.removeAll, List.eraseDups_cons]

namespace NameTable

variable {α : Type}

theorem mem_of_lookup {pairs : List (String × α)} {name : String} {value : α}
    (h : pairs.lookup name = some value) : (name, value) ∈ pairs := by
  obtain ⟨before, after, rfl, -⟩ := List.lookup_eq_some_iff.mp h
  simp

/-- A list of pairs of distinct names gives each name what it is paired with. -/
theorem lookup_eq_some_iff {pairs : List (String × α)} (h : (pairs.map Prod.fst).Nodup)
    {name : String} {value : α} : pairs.lookup name = some value ↔ (name, value) ∈ pairs := by
  refine ⟨mem_of_lookup, ?_⟩
  intro hmem
  obtain ⟨before, after, rfl⟩ := List.append_of_mem hmem
  refine List.lookup_eq_some_iff.mpr ⟨before, after, rfl, ?_⟩
  intro p hp
  rw [List.map_append, List.nodup_append] at h
  have hne := h.2.2 _ (List.mem_map_of_mem hp) name (List.mem_cons_self ..)
  exact bne_iff_ne.mpr hne.symm

theorem getElem?_insert (t : NameTable α) (name other : String) (value : α) :
    (t.insert name value)[other]? = if name = other then some value else t[other]? := by
  rw [Std.ExtTreeMap.getElem?_insert]
  simp only [Std.LawfulEqOrd.compare_eq_iff_eq]

theorem getElem?_foldl_insert (pairs : List (String × α)) :
    ∀ (t : NameTable α) (name : String), (pairs.map Prod.fst).Nodup →
      (pairs.foldl (fun table (name, value) => table.insert name value) t)[name]? =
        (pairs.lookup name).or t[name]? := by
  induction pairs with
  | nil => intro t name _; rfl
  | cons pair rest ih =>
    obtain ⟨first, value⟩ := pair
    intro t name hnodup
    obtain ⟨hfresh, hrest⟩ := List.nodup_cons.mp hnodup
    rw [List.foldl_cons, ih _ name hrest, getElem?_insert, List.lookup_cons]
    by_cases hname : first = name
    · -- the rest of the pairs does not touch the name again
      have hlookup : rest.lookup name = none := by
        rw [List.lookup_eq_none_iff]
        intro p hp
        simp only [bne_iff_ne, ne_eq]
        intro h
        exact hfresh (List.mem_map.mpr ⟨p, hp, by rw [hname, h]⟩)
      simp [hname, hlookup]
    · have hne : (name == first) = false := by simpa using Ne.symm hname
      simp [hname, hne]

/-- **A table made from pairs of distinct names answers as the pairs do.** -/
theorem getElem?_ofPairs {pairs : List (String × α)} (h : (pairs.map Prod.fst).Nodup)
    (name : String) : (NameTable.ofPairs pairs)[name]? = pairs.lookup name := by
  rw [NameTable.ofPairs, getElem?_foldl_insert pairs ∅ name h]
  simp

end NameTable

end Adventure
