/-
What a definition adds.

A new class is a prototype that holds nothing, and a new entity is a copy of its class
or of nothing, so it holds nothing either.  Its name is one that nothing had, so
whatever was said of other names stays true, and the declarations note the same name
with the same type.
-/
import Adventure.Proofs.Consistency

namespace Adventure

/-! ### What declarations note -/

namespace Declarations

variable {d : Declarations} {op : Operation} {value : Option Value} {type : EntityType}

theorem note_defineEntity (hop : op.opcode = .defineEntity)
    (htype : EntityType.ofName? (op.argument 1) = some type) :
    d.note op value = d.addEntity ⟨op.argument 0, type, op.argument 2, op.line⟩ := by
  simp [note, hop, htype]

theorem note_defineEntityClass (hop : op.opcode = .defineEntityClass)
    (htype : EntityType.ofName? (op.argument 1) = some type) :
    d.note op value = d.addClass ⟨op.argument 0, type, op.line⟩ := by
  simp [note, hop, htype]

/-- Only definitions declare entities and classes. -/
theorem note_sameNames (hentity : op.opcode ≠ .defineEntity)
    (hclass : op.opcode ≠ .defineEntityClass)
    (value : Option Value) : d.SameNames (d.note op value) := by
  unfold note
  cases hop : op.opcode with
  | defineEntity => exact absurd hop hentity
  | defineEntityClass => exact absurd hop hclass
  | setProperty =>
    dsimp only
    split
    · exact ⟨rfl, rfl⟩
    · exact ⟨rfl, rfl⟩
  | _ => exact ⟨rfl, rfl⟩

theorem entity?_addEntity (d : Declarations) (entity : DeclaredEntity) (name : String) :
    (d.addEntity entity).entity? name =
      if entity.name = name then some entity else d.entity? name :=
  NameTable.getElem?_insert d.entities entity.name name entity

theorem class?_addEntity (d : Declarations) (entity : DeclaredEntity) (name : String) :
    (d.addEntity entity).class? name = d.class? name :=
  rfl

theorem class?_addClass (d : Declarations) (declared : DeclaredClass) (name : String) :
    (d.addClass declared).class? name =
      if declared.name = name then some declared else d.class? name :=
  NameTable.getElem?_insert d.classes declared.name name declared

end Declarations

/-! ### New entities -/

namespace Entity

theorem copyAs_keeps_holding {e : Entity} (h : e.HoldsNothing) (name className : String) :
    (e.copyAs name className).HoldsNothing :=
  ⟨h.location, h.owner, h.contents, h.inventory⟩

theorem exists_fresh (name : String) {type : EntityType} (h : type.isInstantiable) :
    ∃ e, fresh? name type = some e ∧ e.name = name ∧ e.type = type ∧ e.HoldsNothing := by
  cases type with
  | room | object | creature | resource => exact ⟨_, rfl, rfl, rfl, ⟨rfl, rfl, rfl, rfl⟩⟩
  | _ => simp [EntityType.isInstantiable] at h

end Entity

namespace World

theorem withPlural_keeps (e : Entity) (plural : Option String) : e.Keeps (withPlural e plural) := by
  cases plural with
  | none => exact .refl e
  | some text =>
    rw [withPlural]
    cases h : e.withResource? ({ · with pluralTitle := some text }) with
    | none => exact .refl e
    | some e' => exact Entity.withResource?_keeps h

variable {d : Declarations} {w : World} {op : Operation} {value : Option Value}

/-- **A checked definition of an entity makes one** of the declared type that holds
nothing. -/
theorem newEntity_ok (hc : Consistent d w) (hcheck : Validation.defineEntity d op = .ok value) :
    ∃ e scripts type, newEntity w op = .ok (e, scripts) ∧
      EntityType.ofName? (op.argument 1) = some type ∧ e.name = op.argument 0 ∧ e.type = type ∧
      e.HoldsNothing := by
  obtain ⟨-, ⟨type, htype, hinst, hallows, -⟩, -⟩ := Validation.defineEntity_ok_iff.mp hcheck
  have hargument : typeArgument op 1 = .ok type := by simp [typeArgument, orBreach, htype]
  cases hclass : w.classes[op.argument 2]? with
  | some p =>
    have hdeclared : d.classType? (op.argument 2) = some p.entity.type := by
      rw [← hc.classTypes, class?, hclass]
      rfl
    -- a class of the game is never named like a type, so it is the class that allows the type
    have hsame : p.entity.type = type := by
      simp only [Declarations.classAllows, hdeclared, Bool.or_eq_true, decide_eq_true_eq,
        Option.some.injEq] at hallows
      refine hallows.resolve_left ?_
      intro hname
      have hsome : (d.class? (op.argument 2)).isSome := by
        rw [Declarations.classType?] at hdeclared
        simpa using congrArg Option.isSome hdeclared
      have hnone := hc.reserved _ hsome
      rw [hname, EntityType.ofName?_name] at hnone
      cases hnone
    refine ⟨p.entity.copyAs (op.argument 0) (op.argument 2), p.scripts, type,
      by simp [newEntity, hargument, hclass], htype, rfl, hsame, ?_⟩
    refine Entity.copyAs_keeps_holding (hc.prototypes (op.argument 2) p.entity ?_) _ _
    rw [class?, hclass]
    rfl
  | none =>
    obtain ⟨e, he, hname, htype', hholds⟩ := Entity.exists_fresh (op.argument 0) hinst
    refine ⟨e, [], type, ?_, htype, hname, htype', hholds⟩
    simp [newEntity, hargument, hclass, freshEntity, he, orBreach]

/-- One more entity, under a new name, that holds nothing. -/
theorem entity?_of_added {w' : World} {made : Entity}
    (hpopulation : w'.population = w.population.add made) (name : String) :
    w'.entity? name = if made.name = name then some made else w.entity? name := by
  rw [entity?, hpopulation, Population.get?_add, entity?]

theorem sameHolding_of_added {w' : World} {made : Entity}
    (hpopulation : w'.population = w.population.add made) (hholds : made.HoldsNothing)
    (hfresh : w.entity? made.name = none) : w.SameHolding w' := by
  refine ⟨fun name => ?_, fun name => ?_, fun name => ?_, fun name => ?_⟩
  · rw [locationOf?, entity?_of_added hpopulation, locationOf?]
    split
    · next h => rw [← h, hfresh]; exact hholds.location
    · rfl
  · rw [ownerOf?, entity?_of_added hpopulation, ownerOf?]
    split
    · next h => rw [← h, hfresh]; exact hholds.owner
    · rfl
  · rw [contentsOf, entity?_of_added hpopulation, contentsOf]
    split
    · next h => rw [← h, hfresh]; exact hholds.contents
    · rfl
  · rw [inventoryOf, entity?_of_added hpopulation, inventoryOf]
    split
    · next h => rw [← h, hfresh]; exact hholds.inventory
    · rfl

theorem consistent_of_added {w' : World} {made : Entity} {declared : DeclaredEntity}
    (hc : Consistent d w) (hpopulation : w'.population = w.population.add made)
    (hclasses : w'.classes = w.classes) (hplayer : w'.defaultPlayer = w.defaultPlayer)
    (hname : declared.name = made.name) (htype : declared.type = made.type)
    (hholds : made.HoldsNothing) (hfresh : d.entity? made.name = none) :
    Consistent (d.addEntity declared) w' ∧ w.SameHolding w' := by
  have hnone : w.typeOf? made.name = none := by
    rw [hc.types, Declarations.entityType?, hfresh]
    rfl
  have hentity : w.entity? made.name = none := by simpa [typeOf?] using hnone
  have hsame := sameHolding_of_added hpopulation hholds hentity
  have htypes : ∀ name, w'.typeOf? name =
      if made.name = name then some made.type else w.typeOf? name := by
    intro name
    rw [typeOf?, entity?_of_added hpopulation, typeOf?]
    split <;> rfl
  -- what holds something existed before, so it is not the new entity
  have hkept : ∀ {name : String} {t : EntityType}, w.typeOf? name = some t →
      w'.typeOf? name = some t := by
    intro name t h
    rw [htypes, if_neg, h]
    rintro rfl
    rw [hnone] at h
    cases h
  have hclass : ∀ name, w'.class? name = w.class? name := fun name => by
    rw [class?, hclasses, class?]
  refine ⟨⟨?_, ?_, ?_, ?_, hc.reserved, ?_, ?_, ?_⟩, hsame⟩
  · rw [entities, hpopulation, Population.toList_add, List.map_append]
    refine List.Nodup.append hc.names (List.nodup_singleton _) ?_
    intro name hmem hmem'
    obtain ⟨e, he, rfl⟩ := List.mem_map.mp hmem
    rw [List.map_singleton, List.mem_singleton] at hmem'
    have hsome : w.entity? e.name = some e := Population.get?_of_mem hc.names he
    rw [hmem', hentity] at hsome
    cases hsome
  · intro name
    rw [htypes, Declarations.entityType?, Declarations.entity?_addEntity, hname, hc.types]
    split
    · rw [Option.map_some, htype]
    · rfl
  · intro name
    rw [hclass]
    exact hc.classTypes name
  · rw [hplayer]
    exact hc.player
  · intro thing room h
    rw [hsame.location] at h
    obtain ⟨t, ht, hplace⟩ := hc.located thing room h
    exact ⟨t, hkept ht, hplace⟩
  · intro thing being h
    rw [hsame.owner] at h
    obtain ⟨t, ht, hbeing⟩ := hc.owned thing being h
    exact ⟨t, hkept ht, hbeing⟩
  · intro name e he
    rw [hclass] at he
    exact hc.prototypes name e he

/-- **A checked definition of an entity succeeds**, and the world has what is declared
then. -/
theorem defineEntity_ok (hc : Consistent d w) (hop : op.opcode = .defineEntity)
    (hcheck : Validation.defineEntity d op = .ok value) :
    ∃ w', defineEntity op w = .ok () w' ∧ Consistent (d.note op value) w' ∧ w.SameHolding w' := by
  obtain ⟨e, scripts, type, hnew, htype, hname, rfl, hholds⟩ := newEntity_ok hc hcheck
  obtain ⟨-, -, -, -, hfresh, -⟩ := Validation.defineEntity_ok_iff.mp hcheck
  have hkeeps := withPlural_keeps e op.arguments[3]?
  rw [Declarations.note_defineEntity hop htype]
  refine ⟨_, by rw [defineEntity, hnew], ?_⟩
  refine consistent_of_added hc rfl rfl rfl (hname.symm.trans hkeeps.name.symm) hkeeps.type.symm
    (hholds.of_keeps hkeeps) ?_
  rw [hkeeps.name, hname]
  exact hfresh

/-- **A checked definition of a class succeeds**, and the world has what is declared
then. -/
theorem defineClass_ok (hc : Consistent d w) (hop : op.opcode = .defineEntityClass)
    (hcheck : Validation.defineEntityClass d op = .ok value) :
    ∃ w', defineClass op w = .ok () w' ∧ Consistent (d.note op value) w' ∧ w.SameHolding w' := by
  obtain ⟨-, ⟨type, htype, hinst⟩, -, hreserved, -⟩ := Validation.defineEntityClass_ok_iff.mp hcheck
  obtain ⟨e, he, -, rfl, hholds⟩ := Entity.exists_fresh (op.argument 0) hinst
  have hmade : (typeArgument op 1 >>= freshEntity (op.argument 0)) = .ok e := by
    simp [typeArgument, htype, freshEntity, he, orBreach]
  rw [Declarations.note_defineEntityClass hop htype]
  let prototype : Prototype := ⟨e.copyAs (op.argument 0) (op.argument 0), []⟩
  refine ⟨{ w with classes := w.classes.insert (op.argument 0) prototype },
    by simp only [defineClass, hmade]; rfl, ?_, .of_entity? fun _ => rfl⟩
  refine ⟨hc.names, hc.types, ?_, hc.player, ?_, hc.located, hc.owned, ?_⟩
  · intro name
    rw [class?, NameTable.getElem?_insert, Declarations.classType?, Declarations.class?_addClass]
    split
    · rfl
    · exact hc.classTypes name
  · intro name h
    rw [Declarations.class?_addClass] at h
    split at h
    · next hname => rw [← hname]; exact hreserved
    · exact hc.reserved name h
  · intro name e' he'
    rw [class?, NameTable.getElem?_insert] at he'
    split at he'
    · obtain rfl : e.copyAs (op.argument 0) (op.argument 0) = e' := by simpa using he'
      exact Entity.copyAs_keeps_holding hholds _ _
    · exact hc.prototypes name e' he'

end World

end Adventure
