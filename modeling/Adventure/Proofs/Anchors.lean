/-
Exits and allocations name what is there.

A room keeps its exits as words and names, and a resource keeps its owners by name; nothing
ties them to what they name.  They hold because an operation is checked before it writes one:
the direction is put down as the word that the one given means, and the room or owner is
declared.  What is known then is known ever after.  A word that means itself goes on to mean
itself, since only words without a meaning are given one, and a declared name keeps its type.
Instances copy the exits of their class, so a class is held to the same as an entity.
-/
import Adventure.Proofs.Amounts
import Adventure.Proofs.Directions
import Adventure.Proofs.Mirrors
import Adventure.Proofs.Portraits

namespace Adventure

/-! ### Exits and allocations of one entity -/

namespace Entity

/-- What each owner holds of a resource; of nothing else does anyone hold any. -/
def allocations (e : Entity) : NameTable Float :=
  (e.resource?.map (·.allocations)).getD ∅

/-- The second entity has the exits and allocations of the first. -/
structure SameLinks (e e' : Entity) : Prop where
  exits : e'.exits = e.exits
  allocations : e'.allocations = e.allocations

variable {e e' : Entity}

theorem SameLinks.refl (e : Entity) : e.SameLinks e :=
  ⟨rfl, rfl⟩

theorem links_of_bare (h : e'.bare = e.bare) : e.SameLinks e' := by
  have hexits : ∀ e : Entity, e.bare.exits = e.exits := by
    intro e
    cases hd : e.details <;> simp [exits, room?, bare, Details.bare, hd]
  have hallocations : ∀ e : Entity, e.bare.allocations = e.allocations := by
    intro e
    cases hd : e.details <;> simp [allocations, resource?, bare, Details.bare, hd]
  refine ⟨?_, ?_⟩
  · rw [← hexits e', h, hexits e]
  · rw [← hallocations e', h, hallocations e]

theorem withItem?_links {f : Item → Item} (h : e.withItem? f = some e') : e.SameLinks e' := by
  cases hd : e.details <;> simp [withItem?, item?, hd] at h
  subst h
  exact ⟨by simp [exits, room?, hd], by simp [allocations, resource?, hd]⟩

theorem withBeing?_links {f : Being → Being} (h : e.withBeing? f = some e') : e.SameLinks e' := by
  cases hd : e.details <;> simp [withBeing?, hd] at h <;> subst h <;>
    exact ⟨by simp [exits, room?, hd], by simp [allocations, resource?, hd]⟩

theorem withCreature?_links {f : Creature → Creature} (h : e.withCreature? f = some e') :
    e.SameLinks e' := by
  cases hd : e.details <;> simp [withCreature?, creature?, hd] at h
  subst h
  exact ⟨by simp [exits, room?, hd], by simp [allocations, resource?, hd]⟩

theorem withResource?_links {f : Resource Float → Resource Float} (h : e.withResource? f = some e')
    (hf : ∀ r, (f r).allocations = r.allocations) : e.SameLinks e' := by
  cases hd : e.details <;> simp [withResource?, resource?, hd] at h
  subst h
  exact ⟨by simp [exits, room?, hd], by simp [allocations, resource?, hd, hf]⟩

/-- Changing the exits of a room changes nothing else of this. -/
theorem withRoom?_exits {f : NameTable String → NameTable String}
    (h : e.withRoom? (fun r => { r with exits := f r.exits }) = some e') :
    e'.exits = f e.exits ∧ e'.allocations = e.allocations := by
  cases hd : e.details <;> simp [withRoom?, room?, hd] at h
  subst h
  exact ⟨by simp [exits, room?, hd], by simp [allocations, resource?, hd]⟩

theorem links_of_resource? {r : Resource Float} (h : e.resource? = some r) :
    e.exits = ∅ ∧ e.allocations = r.allocations := by
  cases hd : e.details <;> simp [resource?, hd] at h
  subst h
  simp [exits, allocations, room?, resource?, hd]

/-- A fresh entity leads nowhere, and nobody holds any of it. -/
theorem links_of_fresh? {name : String} {type : EntityType} (h : fresh? name type = some e) :
    e.exits = ∅ ∧ e.allocations = ∅ := by
  cases type with
  | room | object | creature | player | resource =>
    obtain rfl := Option.some.inj h
    exact ⟨rfl, rfl⟩
  | _ => cases h

end Entity

/-- No field of an entity holds its exits or its allocations. -/
theorem Field.write_links {field : Field} {e e' : Entity} {v : Value}
    (h : field.write e v = .ok e') : e.SameLinks e' := by
  cases field with
  | title | longDescription | shortDescription | takeable | droppable | weapon | attackable =>
    simp only [write, bind_ok_iff, pure_ok_iff] at h
    obtain ⟨_, -, rfl⟩ := h
    exact ⟨rfl, rfl⟩
  | available | maxPerOwner | pluralTitle | wholeOnly =>
    simp only [write, bind_ok_iff, Setter.onResource, Setter.orLacks_ok_iff] at h
    obtain ⟨_, -, h⟩ := h
    exact Entity.withResource?_links h fun _ => rfl
  | weight | damage =>
    simp only [write, bind_ok_iff, Setter.onItem, Setter.orLacks_ok_iff] at h
    obtain ⟨_, -, h⟩ := h
    exact Entity.withItem?_links h
  | alive | bareHandDamage | woundRate | respawnEnabled | respawnInterval | respawnLives
  | inventoryWeight =>
    simp only [write, bind_ok_iff, Setter.onBeing, Setter.orLacks_ok_iff] at h
    obtain ⟨_, -, h⟩ := h
    exact Entity.withBeing?_links h
  | health | maxHealth =>
    simp only [write, bind_ok_iff, Setter.onBeing, Setter.orLacks_ok_iff] at h
    obtain ⟨_, -, _, -, h⟩ := h
    exact Entity.withBeing?_links h
  | counterAttack | allegiance | autoAttackEnabled | autoAttackRepeated | autoAttackInterval
  | wanderingEnabled | wanderingInterval | wanderlust =>
    simp only [write, bind_ok_iff, Setter.onCreature, Setter.orLacks_ok_iff] at h
    obtain ⟨_, -, h⟩ := h
    exact Entity.withCreature?_links h

theorem SetterTable.set_links {t : SetterTable} {e e' : Entity} {property : String} {v : Value}
    (h : t.set e property v = .ok e') : e.SameLinks e' := by
  unfold set at h
  cases hfield : t.field? e.type property with
  | none => simp [hfield] at h
  | some field =>
    rw [hfield] at h
    exact Field.write_links h

theorem World.withPlural_links (e : Entity) (plural : Option String) :
    e.SameLinks (withPlural e plural) := by
  cases plural with
  | none => exact .refl e
  | some text =>
    rw [withPlural]
    cases h : e.withResource? ({ · with pluralTitle := some text }) with
    | none => exact .refl e
    | some e' => exact Entity.withResource?_links h fun _ => rfl

/-! ### What is known stays known -/

namespace Declarations

variable {v : Vocabulary} {d : Declarations} {op : Operation} {value : Option Value}

/-- **What a checked operation does to the meanings of words**: nothing, or it gives one to a
word that had none, namely itself or that of a direction. -/
theorem resolveDirection_note (hcheck : Validation.check v d op = .ok value) :
    (∃ word meaning, d.resolveDirection v word = none ∧
      (meaning = word ∨ d.resolveDirection v meaning = some meaning) ∧
      ∀ other, (d.note op value).resolveDirection v other =
        if word = other then some meaning else d.resolveDirection v other) ∨
      ∀ word, (d.note op value).resolveDirection v word = d.resolveDirection v word := by
  by_cases hdirection : op.opcode = .defineDirection
  · rw [Validation.check, hdirection] at hcheck
    obtain ⟨-, hfree, -⟩ := Validation.defineDirection_ok_iff.mp hcheck
    refine .inl ⟨op.argument 0, op.argument 0, hfree, .inl rfl, fun other => ?_⟩
    rw [← resolveDirection_addDirection]
    simp [note, hdirection]
  by_cases hsynonym : op.opcode = .defineDirectionSynonym
  · rw [Validation.check, hsynonym] at hcheck
    obtain ⟨-, hmeans, hfree, -⟩ := Validation.defineDirectionSynonym_ok_iff.mp hcheck
    refine .inl ⟨op.argument 1, op.argument 0, hfree, .inr hmeans, fun other => ?_⟩
    rw [← resolveDirection_addDirectionSynonym hfree]
    simp [note, hsynonym]
  refine .inr fun word => ?_
  cases hop : op.opcode with
  | defineDirection => exact absurd hop hdirection
  | defineDirectionSynonym => exact absurd hop hsynonym
  | defineVerbSynonym => simp [note, hop, resolveDirection, addVerbSynonym]
  | defineEntityClass | defineEntity =>
    unfold note
    rw [hop]
    dsimp only
    split <;> rfl
  | _ => exact (note_alike (by rw [hop]; rfl) value).words.resolveDirection v word

/-- A word that means itself goes on to mean itself. -/
theorem resolvesTo_itself_note (hcheck : Validation.check v d op = .ok value) {word : String}
    (h : d.resolveDirection v word = some word) :
    (d.note op value).resolveDirection v word = some word := by
  rcases resolveDirection_note hcheck with ⟨new, meaning, hfree, -, hmeans⟩ | hsame
  · rw [hmeans, if_neg, h]
    rintro rfl
    rw [hfree] at h
    cases h
  · rw [hsame, h]

/-- **Whatever a word means goes on to be a direction in its own right.** -/
theorem Canonical.note (hd : d.Canonical v) (hcheck : Validation.check v d op = .ok value) :
    (d.note op value).Canonical v := by
  intro other direction hother
  rcases resolveDirection_note hcheck with ⟨word, meaning, hfree, hmeaning, hmeans⟩ | hsame
  · rw [hmeans] at hother
    split at hother
    · obtain rfl := Option.some.inj hother
      rcases hmeaning with rfl | hitself
      · rw [hmeans, if_pos rfl]
      · exact resolvesTo_itself_note hcheck hitself
    · exact resolvesTo_itself_note hcheck (hd other direction hother)
  · rw [hsame] at hother ⊢
    exact hd other direction hother

end Declarations

/-! ### What an effect does to entities and classes -/

/-- All entities of the world and the prototypes of all classes are so. -/
structure World.All (P : Entity → Prop) (w : World) : Prop where
  entities : ∀ name e, w.entity? name = some e → P e
  classes : ∀ name e, w.class? name = some e → P e

namespace World

variable {s : Surroundings} {op : Operation} {value : Option Value} {w w' : World}
variable {P Q : Entity → Prop}

theorem All.imp (h : w.All P) (hpq : ∀ e, P e → Q e) : w.All Q :=
  ⟨fun name e he => hpq e (h.entities name e he), fun name e he => hpq e (h.classes name e he)⟩

/-- **What is true of exits and allocations stays true of all**, if every edit keeps it and
it is true of whoever has none. -/
theorem Effect.all (h : Effect s op value w w')
    (hlinks : ∀ {e e' : Entity}, e.SameLinks e' → P e → P e')
    (hnone : ∀ {e : Entity}, e.exits = ∅ → e.allocations = ∅ → P e)
    (hedit : ∀ {e e' : Entity}, Edit s op value e e' → P e → P e') (hall : w.All P) :
    w'.All P := by
  have hinsert : ∀ {name : String} {p : Prototype}, P p.entity → ∀ other e,
      ({ w with classes := w.classes.insert name p } : World).class? other = some e → P e := by
    intro name p hp other e he
    rw [class?_insert] at he
    split at he
    · exact Option.some.inj he ▸ hp
    · exact hall.classes other e he
  cases h with
  | direction | directionSynonym | verbSynonym | settings | player | script =>
    exact ⟨hall.entities, hall.classes⟩
  | classDefined hop htype he =>
    obtain ⟨hexits, hallocations⟩ := Entity.links_of_fresh? he
    exact ⟨hall.entities, hinsert (hnone hexits hallocations)⟩
  | entityDefined hop hnew =>
    next e inherited =>
    refine ⟨?_, hall.classes⟩
    have he : P e := by
      rcases newEntity_cases hnew with ⟨p, hp, rfl, -⟩ | ⟨-, -, type, -, hfresh⟩
      · have hclass : w.class? (op.argument 2) = some p.entity := by
          rw [class?, hp, Option.map_some]
        exact hlinks (e := p.entity) ⟨rfl, rfl⟩ (hall.classes _ _ hclass)
      · obtain ⟨hexits, hallocations⟩ := Entity.links_of_fresh? hfresh
        exact hnone hexits hallocations
    intro name other hother
    rw [entity?_of_added rfl] at hother
    split at hother
    · exact Option.some.inj hother ▸ hlinks (withPlural_links e _) he
    · exact hall.entities name other hother
  | entity hop he hchanged =>
    refine ⟨?_, hall.classes⟩
    intro other found hfound
    rw [entity?_put he hchanged.keeps.name] at hfound
    split at hfound
    · exact Option.some.inj hfound ▸ hedit hchanged (hall.entities _ _ he)
    · exact hall.entities other found hfound
  | prototype hop hp hchanged =>
    next name p e' =>
    have hclass : w.class? name = some p.entity := by rw [class?, hp, Option.map_some]
    exact ⟨hall.entities, hinsert (hedit hchanged (hall.classes _ _ hclass))⟩
  | classScript hop hsubject hp hscript =>
    next name p script =>
    have hclass : w.class? name = some p.entity := by rw [class?, hp, Option.map_some]
    exact ⟨hall.entities, hinsert (hall.classes _ _ hclass)⟩
  | moved hop hmoved =>
    refine ⟨?_, ?_⟩
    · intro name e' he'
      have hbare := hmoved.bare name
      rw [he', Option.map_some, eq_comm, Option.map_eq_some_iff] at hbare
      obtain ⟨e, he, hsame⟩ := hbare
      exact hlinks (Entity.links_of_bare hsame.symm) (hall.entities name e he)
    · intro name e he
      rw [hmoved.rest] at he
      exact hall.classes name e he

end World

/-! ### Anchored -/

/-- What the entity names is there: its exits are under words that mean themselves and lead to
rooms, and whoever holds some of it is something that can be touched, and holds no less than
nothing. -/
structure Entity.Anchored (v : Vocabulary) (d : Declarations) (w : World) (e : Entity) :
    Prop where
  exits : ∀ direction destination : String, e.exits[direction]? = some destination →
    d.resolveDirection v direction = some direction ∧ w.typeOf? destination = some .room
  allocations : ∀ (owner : String) (amount : Float), e.allocations[owner]? = some amount →
    (∃ type, w.typeOf? owner = some type ∧ type.isA .tangible) ∧ amount ≥ 0.0

namespace Entity

variable {v : Vocabulary} {d d' : Declarations} {w w' : World} {e e' : Entity}

theorem Anchored.of_links (h : e.Anchored v d w) (hlinks : e.SameLinks e') :
    e'.Anchored v d w := by
  refine ⟨?_, ?_⟩
  · rw [hlinks.exits]
    exact h.exits
  · rw [hlinks.allocations]
    exact h.allocations

theorem anchored_of_none (hexits : e.exits = ∅) (hallocations : e.allocations = ∅) :
    e.Anchored v d w := by
  refine ⟨?_, ?_⟩
  · intro direction destination h
    simp [hexits] at h
  · intro owner amount h
    simp [hallocations] at h

/-- What is known later is enough. -/
theorem Anchored.mono (h : e.Anchored v d w)
    (hwords : ∀ word, d.resolveDirection v word = some word →
      d'.resolveDirection v word = some word)
    (htypes : ∀ name type, w.typeOf? name = some type → w'.typeOf? name = some type) :
    e.Anchored v d' w' := by
  refine ⟨?_, ?_⟩
  · intro direction destination hexit
    obtain ⟨hmeans, hroom⟩ := h.exits direction destination hexit
    exact ⟨hwords direction hmeans, htypes destination _ hroom⟩
  · intro owner amount hheld
    obtain ⟨⟨type, hknown, htangible⟩, hamount⟩ := h.allocations owner amount hheld
    exact ⟨⟨type, htypes owner type hknown, htangible⟩, hamount⟩

end Entity

/-- What follows the name of a subject is the payload. -/
theorem Operation.payloadAt_of_named {op : Operation} {subject : Subject} {name : String}
    (h : op.subject? = some subject) (hname : subject.name? = some name) (index : Nat) :
    op.payloadAt index = op.argument (index + 2) := by
  have hnamed : subject.target.isNamed = true := by
    cases subject <;> first | rfl | cases hname
  rw [payloadAt, payload, target_of_subject? h]
  dsimp only
  rw [if_pos hnamed, argument, List.getD_eq_getElem?_getD, List.getElem?_drop,
    List.getD_eq_getElem?_getD, Nat.add_comm]

namespace World

variable {s : Surroundings} {v : Vocabulary} {op : Operation} {value : Option Value}
variable {d : Declarations} {w w' : World} {e e' : Entity}

/-- An exit is put down under what its word means, and leads to a room. -/
theorem Edit.exit_anchored (hc : Consistent d w) (hd : d.Canonical v)
    (hop : op.opcode = .connectRooms) (hcheck : Validation.check v d op = .ok value)
    (hexits : e'.exits =
      e.exits.insert ((value.bind (·.string?)).getD (op.payloadAt 0)) (op.payloadAt 1))
    (hallocations : e'.allocations = e.allocations) (h : e.Anchored v d w) :
    e'.Anchored v d w := by
  rw [Validation.check, hop] at hcheck
  obtain ⟨hsubject, direction, hmeans, ⟨type, htype, hroom⟩, rfl⟩ :=
    Validation.connectRooms_ok_iff.mp hcheck
  obtain ⟨subject, hsubject, htarget, -⟩ :=
    Validation.exists_subject_of_checkSubject (by rw [hop]; decide) hsubject
  have hdestination : op.payloadAt 1 = op.argument 3 := by
    rw [hop] at htarget
    cases subject with
    | entity name | entityClass name => exact Operation.payloadAt_of_named hsubject rfl 1
    | defaultPlayer | game => exact absurd htarget (by decide)
  have hisRoom : type = .room := by
    revert hroom
    cases type <;> decide
  refine ⟨?_, ?_⟩
  · intro other destination hexit
    rw [hexits, NameTable.getElem?_insert] at hexit
    split at hexit
    · next hsame =>
      obtain rfl := Option.some.inj hexit
      obtain rfl : direction = other := hsame
      rw [hdestination, hc.types, htype, hisRoom]
      exact ⟨hd _ direction hmeans, rfl⟩
    · exact h.exits other destination hexit
  · rw [hallocations]
    exact h.allocations

/-- What is added to a holding was checked not to be negative, as was all that was added
before. -/
theorem Edit.allocation_anchored (hc : Consistent d w) (hop : op.opcode = .allocateResource)
    (hcheck : Validation.check v d op = .ok value) {amount : Float}
    (hamount : value.bind (·.number?) = some amount)
    (hexits : e'.exits = e.exits) (hallocations : e'.allocations =
      e.allocations.insert (op.argument 1) (e.allocations.getD (op.argument 1) 0.0 + amount))
    (h : e.Anchored v d w) : e'.Anchored v d w := by
  rw [Validation.check, hop] at hcheck
  obtain ⟨-, -, howner, given, hread, -, rfl⟩ := Validation.allocateResource_ok_iff.mp hcheck
  have hgiven : amount ≥ 0.0 := Rule.ge_zero_of_nonNegative hread hamount
  refine ⟨?_, ?_⟩
  · rw [hexits]
    exact h.exits
  · intro owner held hheld
    rw [hallocations, NameTable.getElem?_insert] at hheld
    split at hheld
    · next hsame =>
      subst hsame
      rw [hc.types, ← Option.some.inj hheld]
      refine ⟨howner, add_ge_zero ?_ hgiven⟩
      rw [Std.ExtTreeMap.getD_eq_getD_getElem?]
      cases hbefore : e.allocations[op.argument 1]? with
      | none => exact ge_zero_iff.mpr trivial
      | some before => exact (h.allocations _ before hbefore).2
    · exact h.allocations owner held hheld

/-- **A checked edit leaves no entity naming what is not there.** -/
theorem Edit.anchored (hc : Consistent d w) (hd : d.Canonical v)
    (hcheck : Validation.check v d op = .ok value) (hedit : Edit s op value e e')
    (h : e.Anchored v d w) : e'.Anchored v d w := by
  cases hedit with
  | property hop hset => exact h.of_links (SetterTable.set_links hset)
  | message | event | metadata | tag => exact h.of_links ⟨rfl, rfl⟩
  | called =>
    split
    · exact h
    · exact h.of_links ⟨rfl, rfl⟩
  | attributed hop hset => exact h.of_links (Entity.withBeing?_links hset)
  | exit hop hset =>
    obtain ⟨hexits, hallocations⟩ :=
      Entity.withRoom?_exits (f := fun exits => exits.insert _ _) hset
    exact exit_anchored hc hd hop hcheck hexits hallocations h
  | allocation hop hr hallocate hamount =>
    obtain ⟨hexits, hallocations⟩ := Entity.links_of_resource? hr
    refine allocation_anchored hc hop hcheck hamount hexits.symm ?_ h
    rw [hallocations, Resource.eq_of_allocate hallocate]
    rfl

/-- Known types stay known. -/
theorem typeOf?_note (hc : Consistent d w) (hc' : Consistent (d.note op value) w')
    (hcheck : Validation.check v d op = .ok value) (name : String) (type : EntityType)
    (h : w.typeOf? name = some type) : w'.typeOf? name = some type := by
  rw [hc.types] at h
  obtain ⟨declared, hdeclared, rfl⟩ := Option.map_eq_some_iff.mp h
  rw [hc'.types, Declarations.entityType?, Declarations.entity?_note hcheck hdeclared]
  rfl

/-- **A checked operation leaves everything anchored** that was so before. -/
theorem Effect.anchored (hc : Consistent d w) (hc' : Consistent (d.note op value) w')
    (hd : d.Canonical v) (hcheck : Validation.check v d op = .ok value)
    (heffect : Effect s op value w w') (h : w.All (·.Anchored v d w)) :
    w'.All (·.Anchored v (d.note op value) w') := by
  have hall : w'.All (·.Anchored v d w) :=
    heffect.all (fun hlinks he => he.of_links hlinks) Entity.anchored_of_none
      (fun hedit he => hedit.anchored hc hd hcheck he) h
  exact hall.imp fun e he =>
    he.mono (fun _ => Declarations.resolvesTo_itself_note hcheck) (typeOf?_note hc hc' hcheck)

end World

/-! ### Sessions -/

namespace Session

variable {s : Surroundings} {v : Vocabulary}

/-- In a sound execution words mean directions, and everything is anchored. -/
structure Anchored (v : Vocabulary) (x : Execution World) : Prop where
  sound : x.Sound
  canonical : x.declarations.Canonical v
  all : x.state.All (·.Anchored v x.declarations x.state)

theorem anchored_attempt {session : Session World} (h : Anchored v session.execution)
    (op : Operation) : Anchored v (attempt (World.builder s) v session op).execution := by
  cases hresult : Execution.execute (World.builder s) v op session.execution with
  | error err x' =>
    rw [attempt_of_error h.sound hresult]
    exact h
  | ok _ x' =>
    rw [attempt_of_ok hresult]
    obtain ⟨hsound, value, hcheck, heffect, hdeclared⟩ :=
      Execution.effect_of_execute h.sound hresult
    have hconsistent := hsound.consistent
    rw [hdeclared] at hconsistent
    refine ⟨hsound, ?_, ?_⟩
    · rw [hdeclared]
      exact h.canonical.note hcheck
    · rw [hdeclared]
      exact heffect.anchored h.sound.consistent hconsistent h.canonical hcheck h.all

theorem anchored_ofOperations (hv : v.Canonical) (ops : List Operation) :
    Anchored v (ofOperations (World.builder s) v .empty ops).execution := by
  refine ofOperations_induction (P := fun session => Anchored v session.execution)
    ⟨Execution.sound_emptyWorld, Declarations.canonical_empty hv, ?_, ?_⟩ ?_ ops
  · intro name e he
    simp [Execution.start, World.entity?, World.empty, Population.get?, Population.empty] at he
  · intro name e he
    simp [Execution.start, World.class?, World.empty] at he
  · intro session op h
    exact anchored_attempt h op

/-- **No exit and no allocation dangles**, after any operations, whether they succeeded or
failed: every exit of an entity or of a class is under a word that means itself and leads to
a room that is there, and whoever holds some of a resource is there, can be touched, and
holds no less than nothing. -/
theorem nothing_dangles (s : Surroundings) (hv : v.Canonical) (ops : List Operation) :
    let x := (ofOperations (World.builder s) v .empty ops).execution
    (∀ e ∈ x.state.entities, e.Anchored v x.declarations x.state) ∧
      ∀ name e, x.state.class? name = some e → e.Anchored v x.declarations x.state := by
  intro x
  have hanchored : Anchored v x := anchored_ofOperations hv ops
  refine ⟨?_, hanchored.all.classes⟩
  intro e he
  exact hanchored.all.entities e.name e
    (Population.get?_of_mem hanchored.sound.consistent.names he)

/-- An exit of a class is put down under what its word means and comes with the instance; a
second allocation adds to the first. -/
theorem grotto_leads_to_hall :
    let ops : List Operation := [.defineEntityClass "grotto" .room 1,
      .defineEntity "hall" .room "room" none 2,
      .connectRooms (.entityClass "grotto") "n" "hall" 3,
      .defineEntity "cave" .room "grotto" none 4, .defineEntity "gold" .resource "resource" none 5,
      .allocateResource "gold" "cave" "1.5" 6, .allocateResource "gold" "cave" "2" 7]
    let x := (ofOperations (World.builder ⟨.strict, .none, .standard⟩) .english .empty
      ops).execution
    Vocabulary.english.Canonical ∧
      (x.state.entity? "cave").map (·.exits.toList) = some [("north", "hall")] ∧
      (x.state.entity? "gold").map (·.allocations.toList) = some [("cave", 3.5)] ∧
      ∀ e ∈ x.state.entities, e.Anchored .english x.declarations x.state := by
  intro ops x
  refine ⟨Vocabulary.canonical_english, ?_, ?_, ?_⟩
  · dsimp only [ops, x]
    decide +kernel
  · dsimp only [ops, x]
    decide +kernel
  · exact (nothing_dangles ⟨.strict, .none, .standard⟩ Vocabulary.canonical_english ops).1

end Session

end Adventure
