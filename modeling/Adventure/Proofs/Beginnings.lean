/-
The room where players begin.

A program that is required to define a start room is looked through for an operation that
does, and no look is taken at the world.  That is enough.  A definition that passes its check
makes an entity of the type that it names, whatever its class; no second one passes for the
same name, and the world has what was declared.  So the room is there just if an operation
defines it.  Nothing else asks whether it is required, and nothing else misses it: neither
reading a source nor carrying out an operation fails for that reason.
-/
import Adventure.Proofs.Faithfulness
import Adventure.Proofs.Markup.Faults
import Adventure.Proofs.Prose.Agreement

namespace Adventure

variable {v : Vocabulary} {s : Surroundings} {op : Operation} {ops : List Operation}
variable {x x' : Execution World} {e : Error}

/-- The type that an entity was declared with. -/
theorem Declarations.entityType?_eq_form? (d : Declarations) (name : String) :
    d.entityType? name = (d.form? name).map (·.1) := by
  rw [entityType?, form?, Option.map_map]
  rfl

namespace World

variable {w : World}

end World

namespace Execution

/-! ### What a run declares under the name -/

/-- **An operation declares the start room just if it defines it**: a definition that passes
its check is of a name that is not declared yet. -/
theorem startType_of_execute (hx : x.Sound) (h : execute (World.builder s) v op x = .ok () x') :
    x'.declarations.entityType? startRoom = some .room ↔
      x.declarations.entityType? startRoom = some .room ∨ definesStart op = true := by
  obtain ⟨-, value, -, hcheck, -, -, hnote⟩ := step_of_execute hx h
  rw [hnote]
  by_cases hop : op.opcode = .defineEntity
  · obtain ⟨type, -, -, htype, hfresh⟩ := Validation.arguments_defineEntity hop hcheck
    have hroom : op.argument 1 = EntityType.room.name ↔ type = .room := by
      rw [← EntityType.name_of_ofName? htype]
      cases type <;> decide
    rw [Declarations.note_defineEntity hop htype, Declarations.entityType?_addEntity]
    by_cases hname : op.argument 0 = startRoom
    · have hnone : x.declarations.entityType? startRoom = none := by
        rw [← hname, Declarations.entityType?_eq_form?, hfresh]
        rfl
      simp [definesStart, hop, hname, hroom, hnone]
    · simp [definesStart, hname]
  · have hsame : (x.declarations.note op value).entityType? startRoom =
        x.declarations.entityType? startRoom := by
      rw [Declarations.entityType?_eq_form?, Declarations.form?_note hop,
        Declarations.entityType?_eq_form?]
    simp [hsame, definesStart, hop]

/-- **A run declares the start room just if one of its operations defines it.** -/
theorem startType_of_forM (hx : x.Sound)
    (h : ops.forM (execute (World.builder s) v) x = .ok () x') :
    x'.Sound ∧ (x'.declarations.entityType? startRoom = some .room ↔
      x.declarations.entityType? startRoom = some .room ∨ ops.any definesStart = true) := by
  induction ops generalizing x with
  | nil =>
    obtain rfl := (EStateM.Result.ok.inj h).2
    exact ⟨hx, by simp⟩
  | cons op rest ih =>
    rw [run_forM_cons] at h
    obtain ⟨_, y, hfirst, hrest⟩ := run_bind_ok_iff.mp h
    obtain ⟨hsound, hafter⟩ := ih (step_of_execute hx hfirst).1 hrest
    refine ⟨hsound, ?_⟩
    rw [hafter, startType_of_execute hx hfirst, List.any_cons, Bool.or_eq_true, or_assoc]

end Execution

/-! ### Compiling -/

namespace Compilation

variable {format : SourceFormat} {config : Config} {source : String} {d : Draft}

end Compilation

end Adventure
