/-
Well-shaped operations, whatever they are read from.

A story is written role by role.  Its operations are definitions, the credits of the game,
and traits of entities and classes; each of them is well shaped for any name and any text.
Together with what is known of documents this covers all that is ever read.
-/
import Adventure.Proofs.Markup.Shapes
import Adventure.Proofs.Prose.Agreement
import Adventure.Proofs.Prose.Writing

namespace Adventure

/-- A trait is said by a well-shaped operation. -/
theorem Trait.wellShaped_operation (t : Trait) (name : String) (line : Nat) :
    (t.operation name line).WellShaped := by
  rw [Operation.wellShaped_iff]
  cases t with
  | tagged tag present => cases present <;> rfl
  | _ => rfl

namespace Prose

variable {v : Vocabulary}

namespace Role

variable {role : Role} {op : Operation}

theorem wellShaped_of_class (h : op ∈ role.classOperations) : op.WellShaped := by
  rcases List.mem_cons.mp h with rfl | h
  · exact Operation.wellShaped_iff.mpr rfl
  · obtain ⟨tag, -, rfl⟩ := List.mem_map.mp h
    exact Operation.wellShaped_iff.mpr rfl

theorem wellShaped_of_entity (h : op ∈ role.entityOperations) : op.WellShaped := by
  rcases List.mem_cons.mp h with rfl | h
  · exact Operation.wellShaped_defineEntity
  · obtain ⟨t, -, rfl⟩ := List.mem_map.mp h
    exact t.1.wellShaped_operation role.name t.2

theorem wellShaped_of_links {nameOf : String → String} (h : op ∈ role.linkOperations nameOf) :
    op.WellShaped := by
  obtain ⟨t, -, rfl⟩ := List.mem_map.mp h
  exact t.1.wellShaped_operation role.name t.2

end Role

theorem Story.wellShaped_of_credits {s : Story} {op : Operation} (h : op ∈ s.credits) :
    op.WellShaped := by
  have hmeta : ∀ key text, (Operation.setMeta .game key text 1).WellShaped :=
    fun _ _ => Operation.wellShaped_iff.mpr rfl
  rcases List.mem_append.mp h with h | h
  · obtain ⟨text, -, rfl⟩ := Option.map_eq_some_iff.mp (Option.mem_toList.mp h)
    exact hmeta "title" text
  · obtain ⟨text, -, rfl⟩ := Option.map_eq_some_iff.mp (Option.mem_toList.mp h)
    exact hmeta "author" text

/-- **Every operation of a text in prose is well shaped.** -/
theorem wellShaped_readText {maxWords : Nat} {source : String} {d : Draft}
    (h : readText v maxWords source = .ok d) : ∀ op ∈ d.operations, op.WellShaped := by
  obtain ⟨s, hstory⟩ := exists_story_of_readText h
  have hsound := sound_ofSource v maxWords source
  unfold readText at h
  rw [hstory] at h hsound
  obtain ⟨written, -, -, -, hops⟩ := Story.operations_of_draft hsound h
  rw [hops]
  intro op hop
  rcases List.mem_append.mp hop with hop | hop
  · rcases List.mem_append.mp hop with hop | hop
    · rcases List.mem_append.mp hop with hop | hop
      · exact Story.wellShaped_of_credits hop
      · obtain ⟨role, -, hop⟩ := List.mem_flatMap.mp hop
        exact Role.wellShaped_of_class hop
    · obtain ⟨role, -, hop⟩ := List.mem_flatMap.mp hop
      exact Role.wellShaped_of_entity hop
  · obtain ⟨role, -, hop⟩ := List.mem_flatMap.mp hop
    exact Role.wellShaped_of_links hop

end Prose

/-- **Whatever is read is well shaped.**  In a draft that is read from markup or from prose,
every operation begins with a sort of subject that its opcode accepts, unless the opcode acts
on none, and has as many arguments as its opcode takes with that subject. -/
theorem operations_well_shaped (v : Vocabulary) (source : String) :
    (∀ d, Markup.readDocument v source = .ok d → ∀ op ∈ d.operations, op.WellShaped) ∧
      ∀ maxWords d, Prose.readText v maxWords source = .ok d →
        ∀ op ∈ d.operations, op.WellShaped :=
  ⟨fun _ h => (Markup.shaped_readDocument h).operations,
    fun _ _ h => Prose.wellShaped_readText h⟩

/-- A room with gold in it, which is only declared later, with a plural. -/
def goldMine : String :=
  "<game><rooms><room name=\"start\"><resources><resource amount=\"1\">gold</resource>" ++
    "</resources></room></rooms>" ++
    "<resources><resource name=\"gold\" plural=\"nuggets\"/></resources></game>"

/-- What is written for it: the definition of the gold has a fourth argument. -/
def goldOperations : List Operation :=
  [.defineEntity "start" .room "room" none 1,
    .defineEntity "gold" .resource "resource" (some "nuggets") 1,
    .allocateResource "gold" "start" "1" 1]

set_option maxRecDepth 100000 in
/-- A definition that was filled in is well shaped, and so is what is written for a
sentence. -/
theorem gold_and_hall_well_shaped :
    (∃ d, Markup.readDocument .english goldMine = .ok d ∧ d.operations = goldOperations ∧
      ∀ op ∈ goldOperations, op.WellShaped) ∧
      ∃ d, Prose.readText .english 1 "Hall is up from den." = .ok d ∧
        ∀ op ∈ d.operations, op.WellShaped := by
  have hmarkup : (Markup.readDocument .english goldMine).toOption.map Draft.operations =
      some goldOperations := by
    decide +kernel
  have hprose : (Prose.readText .english 1 "Hall is up from den.").isOk = true := by
    decide +kernel
  constructor
  · cases hd : Markup.readDocument .english goldMine with
    | error e =>
      rw [hd] at hmarkup
      exact absurd hmarkup nofun
    | ok d =>
      rw [hd] at hmarkup
      have hops : d.operations = goldOperations := Option.some.inj hmarkup
      exact ⟨d, rfl, hops, hops ▸ (operations_well_shaped .english goldMine).1 d hd⟩
  · obtain ⟨d, hd⟩ := exists_ok_of_isOk hprose
    exact ⟨d, hd, (operations_well_shaped .english _).2 1 d hd⟩

end Adventure
