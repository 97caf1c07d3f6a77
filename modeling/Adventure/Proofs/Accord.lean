/-
Reading and running declare the same.

A source is read into a draft, which knows what it has declared; its operations are carried
out on an empty world, which learns again what they declare.  In either format a draft is
built by writing operations and declaring entities, and nothing else; so the draft and the
world come to know the same names by the same meanings.
-/
import Adventure.Compilation
import Adventure.Proofs.Markup.Plans

namespace Adventure

variable {v : Vocabulary}

namespace Draft

variable {d d' : Draft}

theorem Built.foldl_write {ops : List Operation} (h : d.Built v)
    (hops : ∀ op ∈ ops, op.opcode.declares = false) : (ops.foldl Draft.write d).Built v := by
  induction ops generalizing d with
  | nil => exact h
  | cons op rest ih =>
    refine ih (h.adds (.plain (hops op (List.mem_cons_self ..)))) ?_
    intro other hother
    exact hops other (List.mem_cons_of_mem _ hother)

/-- Steps that each build on a draft build on it one after the other. -/
theorem Built.foldlM {α : Type} {f : Draft → α → Except Error Draft} {as : List α}
    (hf : ∀ a d d', d.Built v → f d a = .ok d' → d'.Built v) (h : d.Built v)
    (hd : as.foldlM f d = .ok d') : d'.Built v := by
  induction as generalizing d with
  | nil =>
    rw [List.foldlM_nil] at hd
    exact pure_ok_iff.mp hd ▸ h
  | cons a rest ih =>
    rw [List.foldlM_cons] at hd
    obtain ⟨d₁, hfirst, hrest⟩ := bind_ok_iff.mp hd
    exact ih (hf a d d₁ h hfirst) hrest

end Draft

namespace Prose

variable {d d' : Draft} {role : Role}

/-! ### Drafts of stories -/

theorem built_writeClass (h : d.Built v) (hd : role.writeClass d = .ok d') : d'.Built v := by
  unfold Role.writeClass at hd
  dsimp only at hd
  split at hd
  · exact pure_ok_iff.mp hd ▸ h
  · obtain ⟨declared, hdeclare, hwrite⟩ := bind_ok_iff.mp hd
    obtain rfl := pure_ok_iff.mp hwrite
    refine (h.adds (.entityClass hdeclare rfl)).foldl_write ?_
    intro op hop
    obtain ⟨kind, -, rfl⟩ := List.mem_map.mp hop
    rfl

theorem built_writeEntity (h : d.Built v) (hd : role.writeEntity d = .ok d') : d'.Built v := by
  unfold Role.writeEntity at hd
  obtain ⟨index, hindex, hwrite⟩ := bind_ok_iff.mp hd
  obtain rfl := pure_ok_iff.mp hwrite
  refine (h.declares (Prod.ext hindex rfl)).foldl_write ?_
  intro op hop
  simp only [Role.details, List.mem_append, List.mem_singleton, Option.mem_toList,
    Option.map_eq_some_iff, List.mem_map] at hop
  obtain (rfl | ⟨text, -, rfl⟩) | ⟨assertion, -, rfl⟩ := hop
  · rfl
  · rfl
  · split <;> rfl

/-- Every exit writes one operation or none. -/
theorem built_exits {roles : List Role} {exits : List Exit} (h : d.Built v) :
    (exits.foldl (fun d exit =>
      match roles.find? (·.record.key == exit.destination) with
      | none => d
      | some room =>
        d.write (.connectRooms (.entity role.name) exit.direction room.name exit.line)) d).Built
          v := by
  induction exits generalizing d with
  | nil => exact h
  | cons exit rest ih =>
    rw [List.foldl_cons]
    refine ih ?_
    split
    · exact h
    · exact h.adds (.plain rfl)

theorem built_writeLinks {roles : List Role} (h : d.Built v)
    (hd : role.writeLinks roles d = .ok d') : d'.Built v := by
  unfold Role.writeLinks at hd
  dsimp only at hd
  split at hd
  · obtain rfl := pure_ok_iff.mp hd
    exact built_exits h
  split at hd
  · obtain rfl := pure_ok_iff.mp hd
    exact built_exits h
  · obtain ⟨_, -, hwrite⟩ := bind_ok_iff.mp hd
    obtain rfl := pure_ok_iff.mp hwrite
    exact built_exits (h.adds (.plain rfl))

/-- **The draft of a story was built step by step**, until nothing was awaited. -/
theorem built_readText {maxWords : Nat} {source : String}
    (h : readText v maxWords source = .ok d) : d.Built v ∧ d.awaited = [] := by
  unfold readText at h
  split at h
  · cases h
  rename_i story _
  unfold Story.draft at h
  dsimp only at h
  obtain ⟨roles, -, h⟩ := bind_ok_iff.mp h
  obtain ⟨d₁, hclasses, h⟩ := bind_ok_iff.mp h
  obtain ⟨d₂, hentities, h⟩ := bind_ok_iff.mp h
  obtain ⟨d₃, hlinks, h⟩ := bind_ok_iff.mp h
  obtain ⟨_, hfinish, h⟩ := bind_ok_iff.mp h
  obtain rfl := pure_ok_iff.mp h
  refine ⟨?_, Draft.awaited_of_finish hfinish⟩
  refine .foldlM (fun _ _ _ => built_writeLinks) (.foldlM (fun _ _ _ => built_writeEntity)
    (.foldlM (fun _ _ _ => built_writeClass) ?_ hclasses) hentities) hlinks
  refine Draft.Built.empty.foldl_write ?_
  intro op hop
  simp only [List.mem_append, Option.mem_toList, Option.map_eq_some_iff] at hop
  obtain ⟨text, -, rfl⟩ | ⟨text, -, rfl⟩ := hop
  · rfl
  · rfl

end Prose

namespace Compilation

variable {format : SourceFormat} {config : Config} {source : String} {d : Draft}

/-! ### Either format -/

theorem built_read (h : read format config source = .ok d) :
    d.Built .english ∧ d.awaited = [] := by
  cases format with
  | markup => exact Markup.built_readDocument h
  | prose => exact Prose.built_readText h

/-- **Reading and running declare the same**: whatever is read, and runs to its end on an
empty world, the draft and the world know the same entities by the same types and classes,
the same classes by the same types, and give the same meaning to every word for a direction
or a verb. -/
theorem read_agrees_with_run {s : Surroundings} {requireStart : Bool} {x : Execution World}
    (hread : read format config source = .ok d)
    (hrun : Execution.executeAll (World.builder s) .english requireStart d.operations .emptyWorld =
      .ok () x) : d.declarations.Agrees x.declarations := by
  obtain ⟨hbuilt, hawaited⟩ := built_read hread
  exact hbuilt.agrees hawaited hrun

/-- A room that is used before it is declared with a class of its own. -/
def hallway : String :=
  "<game><classes><rooms><room class=\"passage\"/></rooms></classes>" ++
    "<rooms><room name=\"start\"><n>hall</n></room><passage name=\"hall\"/></rooms></game>"

/-- The operations of the two rooms. -/
def hallwayOperations : List Operation :=
  [.defineEntityClass "passage" .room 1, .defineEntity "start" .room "room" none 1,
    .defineEntity "hall" .room "passage" none 1,
    .connectRooms (.entity "start") "north" "hall" 1]

set_option maxRecDepth 100000 in
/-- The world learns the class of the room, which the draft knew only after its use. -/
theorem hallway_is_passage : ∃ d, read .markup .strict hallway = .ok d ∧
    d.declarations.form? "hall" = some (.room, "passage") ∧
      ∀ files, ∃ x, Execution.executeAll (World.builder ⟨.strict, files, .standard⟩) .english true
          d.operations .emptyWorld = .ok () x ∧
        x.declarations.form? "hall" = some (.room, "passage") := by
  have hread : (read .markup .strict hallway).toOption.map
      (fun d => (d.operations, d.declarations.form? "hall")) =
        some (hallwayOperations, some (.room, "passage")) := by
    decide +kernel
  cases hd : read .markup .strict hallway with
  | error e =>
    rw [hd] at hread
    exact absurd hread nofun
  | ok d =>
    rw [hd] at hread
    obtain ⟨hops, hform⟩ := Prod.mk.inj (Option.some.inj hread)
    refine ⟨d, rfl, hform, ?_⟩
    intro files
    have hrun : ∃ x, Execution.executeAll (World.builder ⟨.strict, files, .standard⟩) .english true
        d.operations .emptyWorld = .ok () x := by
      rw [hops]
      exact ⟨_, rfl⟩
    obtain ⟨x, hx⟩ := hrun
    exact ⟨x, hx, ((read_agrees_with_run hd hx).entities "hall").trans hform⟩

end Compilation

end Adventure
