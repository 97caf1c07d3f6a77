/-
What a sound story is cast into.

Classes are written first, then entities, then what links them.  Whatever would not pass
when the program runs is refused here, and the refusal blames the text; the rest follows
from the story being sound.  So a draft comes out whose operations all pass, and it
defines the room where players begin just if there is a room at all.
-/
import Adventure.Proofs.Drafts
import Adventure.Proofs.Prose.Facts

namespace Adventure

open Execution (definesStart)

/-- Something comes of a computation, or the text is at fault. -/
def Gives {α : Type} (x : Except Error α) (Q : α → Prop) : Prop :=
  match x with
  | .ok a => Q a
  | .error e => e.isTextual = true

section Gives

variable {α β : Type} {x : Except Error α} {f : α → Except Error β} {Q : α → Prop} {R : β → Prop}

theorem Gives.bind (h : Gives x Q) (hf : ∀ a, Q a → Gives (f a) R) : Gives (x >>= f) R := by
  cases x with
  | error e => exact h
  | ok a => exact hf a h

theorem Gives.weaken {Q' : α → Prop} (h : Gives x Q) (hQ : ∀ a, Q a → Q' a) : Gives x Q' := by
  cases x with
  | error e => exact h
  | ok a => exact hQ a h

end Gives

/-! ### Refusals of drafts -/

namespace Draft

variable {v : Vocabulary} {d : Draft} {name className : String} {type : EntityType} {line : Nat}

/-- The draft defines the room where players begin. -/
def definesStart (d : Draft) : Bool :=
  d.operations.any Execution.definesStart

theorem gives_declareClass : Gives (d.declareClass name type line) fun d' =>
    d.declareClass name type line = .ok d' := by
  unfold Gives
  cases h : d.declareClass name type line with
  | ok d' => rfl
  | error e =>
    unfold declareClass at h
    split at h
    · obtain rfl := Except.error.inj h
      rfl
    · cases h

theorem isTextual_declareEntity {d' : Draft} {plural : Option String} {e : Error}
    (h : d.declareEntity name type className plural line = (.error e, d')) :
    e.isTextual = true := by
  unfold declareEntity at h
  split at h
  · obtain ⟨rfl, rfl⟩ := by simpa only [Prod.mk.injEq, Except.error.injEq] using h
    rfl
  · split at h
    · dsimp only at h
      split at h
      · obtain ⟨rfl, rfl⟩ := by simpa only [Prod.mk.injEq, Except.error.injEq] using h
        rfl
      · simp at h
    · simp at h

end Draft

namespace Prose

variable {v : Vocabulary}

/-! ### Roles -/

/-- A role of a thing about which everything makes sense. -/
structure Role.Sound (v : Vocabulary) (role : Role) : Prop where
  record : role.record.Sound v
  kind : role.kind = role.record.settledKind
  named : role.name ≠ ""
  /-- Only the room where players begin has its name. -/
  start : role.name = startRoom → role.kind.isA .room = true

/-- A draft whose operations pass, and that so far defines the room where players begin
just as another did. -/
structure WritesOn (v : Vocabulary) (d d' : Draft) : Prop where
  checked : d'.Checked v
  definesStart : d'.definesStart = d.definesStart
  /-- What was declared as an entity still is. -/
  entityType? : ∀ name type, d.declarations.entityType? name = some type →
    d'.declarations.entityType? name = some type

theorem WritesOn.refl {d : Draft} (hd : d.Checked v) : WritesOn v d d :=
  ⟨hd, rfl, fun _ _ h => h⟩

theorem WritesOn.trans {d d' d'' : Draft} (h : WritesOn v d d') (h' : WritesOn v d' d'') :
    WritesOn v d d'' :=
  ⟨h'.checked, h'.definesStart.trans h.definesStart,
    fun name type ht => h'.entityType? name type (h.entityType? name type ht)⟩

/-- Whether the entity of a role is where players begin. -/
def Role.isStart (role : Role) : Bool :=
  role.name = startRoom

end Prose

end Adventure
