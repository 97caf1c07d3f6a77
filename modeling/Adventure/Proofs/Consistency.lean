/-
What was declared is there.

A check looks only at the declarations; the change behind it works on the world.  What
makes a checked change succeed is that the two agree: every declared entity exists and
is of the declared type, so does every class, and whatever holds a thing exists.  Each
operation keeps this agreement, whether it succeeds or fails, so it holds of every
state that operations lead to, and in such a state no check promises too much.
-/
import Adventure.Proofs.Changes
import Adventure.Proofs.Checks
import Adventure.World.Building

namespace Adventure

/-- The entity is nowhere, nobody's, and holds nothing. -/
structure Entity.HoldsNothing (e : Entity) : Prop where
  location : e.location = none
  owner : e.owner? = none
  contents : e.contents = []
  inventory : e.inventory = []

theorem Entity.HoldsNothing.of_keeps {e e' : Entity} (h : e.HoldsNothing) (hk : e.Keeps e') :
    e'.HoldsNothing :=
  ⟨hk.location.trans h.location, hk.owner.trans h.owner, hk.contents.trans h.contents,
    hk.inventory.trans h.inventory⟩

/-- A world has what was declared. -/
structure Consistent (d : Declarations) (w : World) : Prop where
  names : (w.entities.map (·.name)).Nodup
  types : ∀ name, w.typeOf? name = d.entityType? name
  classTypes : ∀ name, (w.class? name).map (·.type) = d.classType? name
  player : w.defaultPlayer.type = .player
  /-- No class is named like a type. -/
  reserved : ∀ name, (d.class? name).isSome → EntityType.ofName? name = none
  located : ∀ thing room, w.locationOf? thing = some room →
    ∃ t, w.typeOf? room = some t ∧ t.isA .place
  owned : ∀ thing being, w.ownerOf? thing = some being →
    ∃ t, w.typeOf? being = some t ∧ t.isA .being
  prototypes : ∀ name e, w.class? name = some e → e.HoldsNothing

/-- The same entities and classes are declared. -/
structure Declarations.SameNames (d d' : Declarations) : Prop where
  entities : d'.entities = d.entities
  classes : d'.classes = d.classes

namespace Consistent

variable {d d' : Declarations} {w w' : World}

theorem empty : Consistent .empty .empty where
  names := List.nodup_nil
  types := fun name => by simp [World.typeOf?, World.entity?, World.empty, Population.get?,
    Population.empty, Declarations.entityType?, Declarations.entity?, Declarations.empty]
  classTypes := fun name => by simp [World.class?, World.empty, Declarations.classType?,
    Declarations.class?, Declarations.empty]
  player := rfl
  reserved := fun name h => by simp [Declarations.class?, Declarations.empty] at h
  located := fun thing room h => by
    simp [World.locationOf?, World.entity?, World.empty, Population.get?, Population.empty] at h
  owned := fun thing being h => by
    simp [World.ownerOf?, World.entity?, World.empty, Population.get?, Population.empty] at h
  prototypes := fun name e h => by simp [World.class?, World.empty] at h

/-- **A change that keeps everything in its place keeps the agreement.** -/
theorem of_keeps (hc : Consistent d w) (hk : w.Keeps w') (hd : d.SameNames d') :
    Consistent d' w' := by
  have hentityType : ∀ name, d'.entityType? name = d.entityType? name := fun name => by
    rw [Declarations.entityType?, Declarations.entity?, hd.entities]
    rfl
  have hclass : ∀ name, d'.class? name = d.class? name := fun name => by
    rw [Declarations.class?, hd.classes]
    rfl
  refine ⟨?_, ?_, ?_, hk.player.trans hc.player, ?_, ?_, ?_, ?_⟩
  · rw [hk.names]
    exact hc.names
  · intro name
    rw [hk.types, hentityType, hc.types]
  · intro name
    rw [Declarations.classType?, hclass, ← Declarations.classType?, ← hc.classTypes]
    have hrel := hk.classes name
    generalize w.class? name = before, w'.class? name = after at hrel ⊢
    cases hrel with
    | none => rfl
    | some hkeeps => simp [hkeeps.type]
  · intro name h
    rw [hclass] at h
    exact hc.reserved name h
  · intro thing room h
    rw [hk.holding.location] at h
    rw [hk.types]
    exact hc.located thing room h
  · intro thing being h
    rw [hk.holding.owner] at h
    rw [hk.types]
    exact hc.owned thing being h
  · intro name e h
    have hrel := hk.classes name
    have hold := hc.prototypes name
    generalize w.class? name = before at hrel hold
    rw [h] at hrel
    cases hrel with
    | some hkeeps => exact (hold _ rfl).of_keeps hkeeps

/-- A declared subject other than the game is there, and is of its declared type. -/
theorem exists_subjectEntity (hc : Consistent d w) {subject : Subject} {type : Option EntityType}
    (h : d.HasSubject subject type) (hgame : subject ≠ .game) :
    ∃ e, w.subjectEntity? subject = some e ∧ type = some e.type := by
  cases subject with
  | entity name =>
    obtain ⟨t, ht, rfl⟩ := h
    rw [← hc.types name] at ht
    obtain ⟨e, he, rfl⟩ := World.exists_entity ht
    exact ⟨e, he, rfl⟩
  | entityClass name =>
    obtain ⟨t, ht, rfl⟩ := h
    rw [← hc.classTypes name] at ht
    obtain ⟨e, he, rfl⟩ := Option.map_eq_some_iff.mp ht
    exact ⟨e, he, rfl⟩
  | defaultPlayer => exact ⟨w.defaultPlayer, rfl, by rw [hc.player]; exact h⟩
  | game => exact absurd rfl hgame

/-- **What comes of changing a checked subject**: an entity of the type that was checked
is changed, or the game. -/
theorem changeSubject_comesTo (hc : Consistent d w) {op : Operation} {type : Option EntityType}
    {f : Entity → Except Error Entity} {onGame : Change Unit} {reason : Error → Prop}
    (htargets : op.opcode.targets ≠ []) (hcheck : Validation.checkSubject d op = .ok type)
    (hf : ∀ e : Entity, type = some e.type → World.EditComesTo f e reason)
    (hgame : .game ∈ op.opcode.targets → type = none → World.ComesTo onGame w reason) :
    World.ComesTo (World.changeSubject op f onGame) w reason := by
  obtain ⟨subject, hsubject, hmem, htype⟩ :=
    Validation.exists_subject_of_checkSubject htargets hcheck
  refine World.changeSubject_comesTo hsubject ?_ ?_ ?_
  · intro hne
    obtain ⟨e, he, -⟩ := hc.exists_subjectEntity htype hne
    exact ⟨e, he⟩
  · intro e he
    have hne : subject ≠ .game := by
      rintro rfl
      simp [World.subjectEntity?] at he
    obtain ⟨e', he', htype'⟩ := hc.exists_subjectEntity htype hne
    rw [he] at he'
    exact hf e (by rw [htype', Option.some.inj he'])
  · rintro rfl
    exact hgame hmem htype

end Consistent

end Adventure
