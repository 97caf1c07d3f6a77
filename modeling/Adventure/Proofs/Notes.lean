/-
What the declarations note of a checked operation.

An operation on a subject notes nothing, unless it says of a resource whether it comes in
whole amounts only.  Definitions note a name that was free, so what was declared before
stays declared, with the same type and class.
-/
import Adventure.Proofs.Grounding

namespace Adventure

namespace Subject

/-- The name of the subject, if it has one of its own. -/
def name? : Subject → Option String
  | entity name | entityClass name => some name
  | defaultPlayer | game => none

end Subject

namespace Operation

variable {op : Operation} {subject : Subject}

/-- Whether an operation says of its subject that it comes in whole amounts only, or that it
does not. -/
def saysWhole (op : Operation) : Prop :=
  op.opcode = .setProperty ∧ op.payloadAt 0 = wholeProperty

instance : Decidable op.saysWhole :=
  inferInstanceAs (Decidable (_ ∧ _))

theorem not_saysWhole (h : op.opcode ≠ .setProperty) : ¬op.saysWhole :=
  fun hsays => h hsays.1

/-- What an operation says that says it. -/
def wholeSaid (value : Option Value) : Bool :=
  (value.bind (·.boolean?)).getD false

end Operation

namespace Declarations

variable {v : Vocabulary} {d d' : Declarations} {op : Operation} {value : Option Value}
variable {name other : String}

/-! ### Whole amounts -/

/-- **A declared entity stays declared**, with its type and its class. -/
theorem entity?_note (hcheck : Validation.check v d op = .ok value) {declared : DeclaredEntity}
    (h : d.entity? name = some declared) : (d.note op value).entity? name = some declared := by
  by_cases hentity : op.opcode = .defineEntity
  · rw [Validation.check, hentity] at hcheck
    obtain ⟨-, ⟨type, htype, -⟩, -, -, hfree, -⟩ := Validation.defineEntity_ok_iff.mp hcheck
    rw [note_defineEntity hentity htype, entity?_addEntity, if_neg, h]
    rintro rfl
    rw [hfree] at h
    cases h
  · by_cases hclass : op.opcode = .defineEntityClass
    · rw [Validation.check, hclass] at hcheck
      obtain ⟨-, ⟨type, htype, -⟩, -⟩ := Validation.defineEntityClass_ok_iff.mp hcheck
      rw [note_defineEntityClass hclass htype]
      exact h
    · rw [entity?, (note_sameNames hentity hclass value).entities]
      exact h

end Declarations

end Adventure
