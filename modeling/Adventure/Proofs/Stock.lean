/-
Which resources come in whole amounts only.

A resource says so in one of its fields.  One property and no other writes that field, if
the table of setters is the standard one, so an edit changes it just when it is an operation
that says so.
-/
import Adventure.Proofs.Effects
import Adventure.Proofs.Notes

namespace Adventure

/-- Allocating some of a resource changes what the owner holds, and nothing else. -/
theorem Resource.eq_of_allocate {α : Type} [Amount α] {r r' : Resource α} {owner : String}
    {amount : α} (h : r.allocate owner amount = .ok r') :
    r' = { r with
      allocations := r.allocations.insert owner (Amount.add (r.allocatedTo owner) amount) } := by
  simp only [allocate] at h
  split at h
  · cases h
  · split at h
    · cases h
    · split at h
      · cases h
      · exact (Except.ok.inj h).symm

/-! ### Whole amounts of one entity -/

/-- Whether these are the details of a resource that comes in whole amounts only. -/
def Details.comesWhole : Details → Bool
  | resource r => r.wholeOnly
  | _ => false

namespace Entity

/-- Whether the entity is a resource that comes in whole amounts only. -/
def comesWhole (e : Entity) : Bool :=
  e.details.comesWhole

/-- The second entity is of the same class as the first, and comes in whole amounts only if
the first does. -/
structure SameStock (e e' : Entity) : Prop where
  className : e'.className = e.className
  comesWhole : e'.comesWhole = e.comesWhole

variable {e e' : Entity}

theorem SameStock.refl (e : Entity) : e.SameStock e :=
  ⟨rfl, rfl⟩

theorem rel_stock_refl (x : Option Entity) : Option.Rel SameStock x x := by
  cases x with
  | none => exact .none
  | some e => exact .some (.refl e)

theorem withRoom?_stock {f : Room → Room} (h : e.withRoom? f = some e') : e.SameStock e' := by
  cases hd : e.details <;> simp [withRoom?, room?, hd] at h
  subst h
  exact ⟨rfl, by simp [comesWhole, hd, Details.comesWhole]⟩

theorem withItem?_stock {f : Item → Item} (h : e.withItem? f = some e') : e.SameStock e' := by
  cases hd : e.details <;> simp [withItem?, item?, hd] at h
  subst h
  exact ⟨rfl, by simp [comesWhole, hd, Details.comesWhole]⟩

theorem withBeing?_stock {f : Being → Being} (h : e.withBeing? f = some e') : e.SameStock e' := by
  cases hd : e.details <;> simp [withBeing?, hd] at h <;> subst h <;>
    exact ⟨rfl, by simp [comesWhole, hd, Details.comesWhole]⟩

theorem withCreature?_stock {f : Creature → Creature} (h : e.withCreature? f = some e') :
    e.SameStock e' := by
  cases hd : e.details <;> simp [withCreature?, creature?, hd] at h
  subst h
  exact ⟨rfl, by simp [comesWhole, hd, Details.comesWhole]⟩

/-- A change of a resource says whether it comes in whole amounts only. -/
theorem withResource?_comesWhole {f : Resource Float → Resource Float} {b : Bool}
    (h : e.withResource? f = some e') (hf : ∀ r, e.resource? = some r → (f r).wholeOnly = b) :
    e'.className = e.className ∧ e'.comesWhole = b := by
  obtain ⟨r, hr, rfl⟩ := Option.map_eq_some_iff.mp h
  exact ⟨rfl, hf r hr⟩

theorem comesWhole_of_resource? {r : Resource Float} (h : e.resource? = some r) :
    e.comesWhole = r.wholeOnly := by
  cases hd : e.details <;> simp [resource?, hd] at h
  subst h
  simp [comesWhole, hd, Details.comesWhole]

theorem withResource?_stock {f : Resource Float → Resource Float} (h : e.withResource? f = some e')
    (hf : ∀ r, (f r).wholeOnly = r.wholeOnly) : e.SameStock e' := by
  obtain ⟨hclass, hwhole⟩ := withResource?_comesWhole h (b := e.comesWhole)
    fun r hr => (hf r).trans (comesWhole_of_resource? hr).symm
  exact ⟨hclass, hwhole⟩

end Entity

namespace Field

open Setter

/-- Only one field says whether a resource comes in whole amounts only. -/
theorem write_stock {field : Field} {e e' : Entity} {v : Value} (h : field.write e v = .ok e')
    (hfield : field ≠ .wholeOnly) : e.SameStock e' := by
  cases field with
  | wholeOnly => exact absurd rfl hfield
  | title | longDescription | shortDescription | takeable | droppable | weapon | attackable =>
    simp only [write, bind_ok_iff, pure_ok_iff] at h
    obtain ⟨_, -, rfl⟩ := h
    exact ⟨rfl, rfl⟩
  | available | maxPerOwner | pluralTitle =>
    simp only [write, bind_ok_iff, onResource, orLacks_ok_iff] at h
    obtain ⟨_, -, h⟩ := h
    exact Entity.withResource?_stock h fun _ => rfl
  | weight | damage =>
    simp only [write, bind_ok_iff, onItem, orLacks_ok_iff] at h
    obtain ⟨_, -, h⟩ := h
    exact Entity.withItem?_stock h
  | alive | bareHandDamage | woundRate | respawnEnabled | respawnInterval | respawnLives
  | inventoryWeight =>
    simp only [write, bind_ok_iff, onBeing, orLacks_ok_iff] at h
    obtain ⟨_, -, h⟩ := h
    exact Entity.withBeing?_stock h
  | health | maxHealth =>
    simp only [write, bind_ok_iff, onBeing, orLacks_ok_iff] at h
    obtain ⟨_, -, _, -, h⟩ := h
    exact Entity.withBeing?_stock h
  | counterAttack | allegiance | autoAttackEnabled | autoAttackRepeated | autoAttackInterval
  | wanderingEnabled | wanderingInterval | wanderlust =>
    simp only [write, bind_ok_iff, onCreature, orLacks_ok_iff] at h
    obtain ⟨_, -, h⟩ := h
    exact Entity.withCreature?_stock h

/-- That field takes a truth value, and says just that. -/
theorem write_wholeOnly {e e' : Entity} {v : Value} (h : wholeOnly.write e v = .ok e') :
    e'.className = e.className ∧ v.boolean? = some e'.comesWhole := by
  simp only [write, bind_ok_iff, onResource, orLacks_ok_iff] at h
  obtain ⟨b, hb, h⟩ := h
  obtain ⟨hclass, hwhole⟩ := Entity.withResource?_comesWhole h fun _ _ => rfl
  refine ⟨hclass, ?_⟩
  unfold boolean at hb
  split at hb
  · next b' hvalue => rw [hvalue, hwhole, Except.ok.inj hb]
  · cases hb

/-- One property and no other is that field. -/
theorem of?_eq_wholeOnly_iff {type : EntityType} {property : String} {field : Field}
    (h : of? type property = some field) : field = .wholeOnly ↔ property = wholeProperty := by
  have key : ∀ t ∈ EntityType.all, ∀ p ∈ properties t, p.2 = .wholeOnly ↔ p.1 = wholeProperty := by
    decide
  obtain ⟨t, -, hlookup⟩ := List.exists_of_findSome?_eq_some h
  exact key t (EntityType.mem_all t) (property, field) (NameTable.mem_of_lookup hlookup)

end Field

namespace World

variable {s : Surroundings} {v : Vocabulary} {op : Operation} {value : Option Value}
variable {d : Declarations} {w w' : World}

/-- **What an edit does to whole amounts**: what the operation says, if it says that, and
nothing else. -/
theorem Edit.comesWhole {e e' : Entity} (hs : s.setters = .standard)
    (h : Edit s op value e e') :
    e'.className = e.className ∧
      e'.comesWhole = if op.saysWhole then Operation.wholeSaid value else e.comesWhole := by
  have hother : e.SameStock e' → ¬op.saysWhole → e'.className = e.className ∧
      e'.comesWhole = if op.saysWhole then Operation.wholeSaid value else e.comesWhole :=
    fun hstock hsays => ⟨hstock.className, by rw [if_neg hsays, hstock.comesWhole]⟩
  cases h with
  | property hop h =>
    rw [hs, SetterTable.set, SetterTable.field?_standard] at h
    cases hfield : Field.of? e.type (op.payloadAt 0) with
    | none => simp [hfield] at h
    | some field =>
      rw [hfield] at h
      have hwhole := Field.of?_eq_wholeOnly_iff hfield
      by_cases hproperty : op.payloadAt 0 = wholeProperty
      · obtain rfl := hwhole.mpr hproperty
        obtain ⟨hclass, hsaid⟩ := Field.write_wholeOnly h
        refine ⟨hclass, ?_⟩
        rw [if_pos ⟨hop, hproperty⟩, Operation.wholeSaid]
        cases value with
        | none => simp [Value.boolean?] at hsaid
        | some v => rw [Option.bind_some, show v.boolean? = _ from hsaid, Option.getD_some]
      · exact hother (Field.write_stock h fun hsame => hproperty (hwhole.mp hsame))
          fun hsays => hproperty hsays.2
  | message hop | event hop | metadata hop =>
    exact hother ⟨rfl, rfl⟩ (Operation.not_saysWhole (by simp [hop]))
  | tag hop =>
    next present =>
    refine hother ⟨rfl, rfl⟩ (Operation.not_saysWhole ?_)
    cases present <;> simp [hop]
  | called hop =>
    refine hother ?_ (Operation.not_saysWhole (by simp [hop]))
    split
    · exact .refl e
    · exact ⟨rfl, rfl⟩
  | attributed hop h =>
    exact hother (Entity.withBeing?_stock h) (Operation.not_saysWhole (by simp [hop]))
  | exit hop h => exact hother (Entity.withRoom?_stock h) (Operation.not_saysWhole (by simp [hop]))
  | allocation hop hr h =>
    refine hother ⟨rfl, ?_⟩ (Operation.not_saysWhole (by simp [hop]))
    rw [Entity.comesWhole_of_resource? hr, Resource.eq_of_allocate h]
    rfl

end World

end Adventure
