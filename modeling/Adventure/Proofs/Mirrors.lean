/-
What is declared mirrors the world.

The declarations and the world are kept by different hands: an operation changes the world,
and what it declares is noted afterwards.  They agree on names and types because every
operation keeps them consistent.  What is shown here is that they never drift apart in the
rest either: in classes, in words, and in which resources come in whole amounts only.  The
last is the delicate one, for an instance has it from the copy of its class on one side and
by the name of its class on the other; the two agree because no name is both an entity and a
class, and neither is the name of a type.
-/
import Adventure.Proofs.Failures
import Adventure.Proofs.Frames
import Adventure.Proofs.Stock
import Mathlib.Data.Set.Function

namespace Adventure

namespace World

variable {w w' : World} {name other : String} {e e' : Entity}

/-- Whether the entity of a name, or else the class, is a resource that comes in whole
amounts only. -/
def comesWhole (w : World) (name : String) : Bool :=
  ((w.entity? name).or (w.class? name)).any (·.comesWhole)

theorem class?_insert (w : World) (name : String) (p : Prototype) (other : String) :
    ({ w with classes := w.classes.insert name p } : World).class? other =
      if name = other then some p.entity else w.class? other := by
  rw [class?, class?, NameTable.getElem?_insert]
  split <;> rfl

end World

namespace Consistent

variable {d : Declarations} {w : World} {name : String}

end Consistent

/-! ### In step -/

/-- The declarations and the world agree in what is not a matter of names and types. -/
structure InStep (d : Declarations) (w : World) : Prop where
  classNames : ∀ name,
    (w.entity? name).map (·.className) = (d.entity? name).map (·.className)
  /-- The prototype of a class has the name of the class. -/
  called : ∀ name e, w.class? name = some e → e.name = name
  /-- No name is both an entity and a class. -/
  apart : ∀ name, (d.entity? name).isSome → d.class? name = none
  /-- No entity is named like a type. -/
  reserved : ∀ name, (d.entity? name).isSome → EntityType.ofName? name = none
  directions : ∀ word, word ∈ w.settings.directions ↔ d.isOwnDirection word
  /-- No direction is listed twice. -/
  distinct : w.settings.directions.Nodup
  directionSynonyms : w.settings.directionSynonyms = d.directionSynonyms
  verbSynonyms : w.settings.verbSynonyms = d.verbSynonyms
  whole : ∀ name, d.requiresWhole name = w.comesWhole name

namespace InStep

variable {s : Surroundings} {v : Vocabulary} {op : Operation} {value : Option Value}
variable {d d' : Declarations} {w w' : World}

theorem empty : InStep .empty .empty where
  classNames := fun name => by simp [World.entity?, World.empty, Population.get?, Population.empty,
    Declarations.entity?, Declarations.empty]
  called := fun name e h => by simp [World.class?, World.empty] at h
  apart := fun name h => by simp [Declarations.entity?, Declarations.empty] at h
  reserved := fun name h => by simp [Declarations.entity?, Declarations.empty] at h
  directions := fun word => by simp [World.empty, Settings.fresh, Declarations.isOwnDirection,
    Declarations.empty]
  distinct := List.nodup_nil
  directionSynonyms := rfl
  verbSynonyms := rfl
  whole := fun name => by simp [Declarations.requiresWhole, Declarations.empty, World.comesWhole,
    World.entity?, World.class?, World.empty, Population.get?, Population.empty]

/-- Where the same is declared, the classes and words of the world have to be the same, and
what comes in whole amounts only has to be noted. -/
theorem of_same (h : InStep d w) (hnames : d.SameNames d') (hwords : d.SameWords d')
    (hsettings : w.settings.SameWords w'.settings)
    (hclassNames : ∀ name, (w'.entity? name).map (·.className) = (w.entity? name).map (·.className))
    (hcalled : ∀ name e, w'.class? name = some e → e.name = name)
    (hwhole : ∀ name, d'.requiresWhole name = w'.comesWhole name) : InStep d' w' := by
  have hentity : ∀ name, d'.entity? name = d.entity? name := fun name => by
    rw [Declarations.entity?, hnames.entities, Declarations.entity?]
  have hclass : ∀ name, d'.class? name = d.class? name := fun name => by
    rw [Declarations.class?, hnames.classes, Declarations.class?]
  refine ⟨?_, hcalled, ?_, ?_, ?_, ?_, ?_, ?_, hwhole⟩
  · intro name
    rw [hclassNames, h.classNames, hentity]
  · intro name hname
    rw [hentity] at hname
    rw [hclass]
    exact h.apart name hname
  · intro name hname
    rw [hentity] at hname
    exact h.reserved name hname
  · intro word
    rw [hsettings.directions, h.directions, Declarations.isOwnDirection,
      Declarations.isOwnDirection, hwords.directions]
  · rw [hsettings.directions]
    exact h.distinct
  · rw [hsettings.directionSynonyms, h.directionSynonyms, hwords.directionSynonyms]
  · rw [hsettings.verbSynonyms, h.verbSynonyms, hwords.verbSynonyms]

/-- Only the classes, the words and the stocks of the world count. -/
theorem of_alike (h : InStep d w)
    (hentity : ∀ name, Option.Rel Entity.SameStock (w.entity? name) (w'.entity? name))
    (hclass : ∀ name, w'.class? name = w.class? name)
    (hsettings : w.settings.SameWords w'.settings) : InStep d w' := by
  refine h.of_same ⟨rfl, rfl⟩ (.refl d) hsettings ?_ ?_ ?_
  · intro name
    have hrel := hentity name
    generalize w.entity? name = before, w'.entity? name = after at hrel ⊢
    cases hrel with
    | none => rfl
    | some hstock => rw [Option.map_some, Option.map_some, hstock.className]
  · intro name e he
    rw [hclass] at he
    exact h.called name e he
  · intro name
    have hrel := hentity name
    rw [h.whole, World.comesWhole, World.comesWhole, hclass]
    generalize w.entity? name = before, w'.entity? name = after at hrel ⊢
    cases hrel with
    | none => rfl
    | some hstock => exact hstock.comesWhole.symm

theorem of_eq (h : InStep d w) (hentity : ∀ name, w'.entity? name = w.entity? name)
    (hclass : ∀ name, w'.class? name = w.class? name)
    (hsettings : w.settings.SameWords w'.settings) : InStep d w' := by
  refine h.of_alike ?_ hclass hsettings
  intro name
  rw [hentity]
  exact Entity.rel_stock_refl _

end InStep

/-! ### Mirrors -/

section Mirroring

variable {d : Declarations} {w : World} {name : String}

end Mirroring

namespace Session

variable {s : Surroundings} {v : Vocabulary} {name : String}

/-- An instance has it from its class that it comes in whole amounts only; when that is said
otherwise of the class afterwards, the instance keeps it. -/
example :
    let ops : List Operation := [.defineEntityClass "coin" .resource 1,
      .setProperty (.entityClass "coin") wholeProperty "1" 2,
      .defineEntity "gold" .resource "coin" none 3,
      .setProperty (.entityClass "coin") wholeProperty "0" 4]
    let x := (ofOperations (World.builder ⟨.strict, .none, .standard⟩) .english .empty ops).execution
    (x.declarations.requiresWhole "coin", x.declarations.requiresWhole "gold") = (false, true) ∧
      (x.state.comesWhole "coin", x.state.comesWhole "gold") = (false, true) := by
  decide +kernel

end Session

end Adventure
