/-
The setters do what the checks promise.

A check knows which properties a type has and which texts each of them takes; a setter
knows which field a property names, what type of value the field needs and which
entities have it.  The two are written apart.  Here they are shown to agree: a value
that was read by a field's rule is one that the field takes, and an entity of the type
that brings the field has it.  So setting a checked property never fails.
-/
import Adventure.Proofs.Entity
import Adventure.Proofs.Names
import Adventure.Proofs.Outcome
import Adventure.World.Setter

namespace Adventure

/-! ### Values of the types that rules read -/

namespace Setter

theorem string_ok {v : Value} (h : v.type = .string) : ∃ text, string v = .ok text := by
  cases v with
  | string text => exact ⟨text, rfl⟩
  | _ => simp [Value.type] at h

theorem integer_ok {v : Value} (h : v.type = .integer) : ∃ i, integer v = .ok i := by
  cases v with
  | integer i => exact ⟨i, rfl⟩
  | _ => simp [Value.type] at h

theorem number_ok {v : Value} (h : v.type = .number) : ∃ x, number v = .ok x := by
  cases v with
  | number x => exact ⟨x, rfl⟩
  | _ => simp [Value.type] at h

theorem boolean_ok {v : Value} (h : v.type = .boolean) : ∃ b, boolean v = .ok b := by
  cases v with
  | boolean b => exact ⟨b, rfl⟩
  | _ => simp [Value.type] at h

/-- The words that the rule for an allegiance takes are the names of allegiances. -/
theorem allegiance_ok {text : String} {v : Value}
    (h : (Rule.choice (Allegiance.all.map (·.name))).read? text = some v) :
    ∃ a, allegiance v = .ok a := by
  obtain ⟨word, hword, rfl⟩ := Option.map_eq_some_iff.mp h
  have hmem : word ∈ Allegiance.all.map (·.name) := List.mem_of_find?_eq_some hword
  have hnames : ∀ a : Allegiance, Allegiance.ofName? a.name = some a := by
    intro a
    cases a <;> decide
  obtain ⟨a, -, rfl⟩ := List.mem_map.mp hmem
  exact ⟨a, by simp [allegiance, string, Value.string?, hnames a]⟩

/-! ### Entities of the types that bring fields -/

theorem orLacks_ok_iff {e e' : Entity} {what : String} {changed : Option Entity} :
    orLacks e what changed = .ok e' ↔ changed = some e' := by
  cases changed <;> simp [orLacks]

theorem onItem_ok {e : Entity} (h : e.type.isA .object) (f : Item → Item) :
    ∃ e', onItem e f = .ok e' := by
  obtain ⟨e', he'⟩ := Entity.exists_withItem? h f
  exact ⟨e', orLacks_ok_iff.mpr he'⟩

theorem onBeing_ok {e : Entity} (h : e.type.isA .being) (f : Being → Being) :
    ∃ e', onBeing e f = .ok e' := by
  obtain ⟨e', he'⟩ := Entity.exists_withBeing? h f
  exact ⟨e', orLacks_ok_iff.mpr he'⟩

theorem onCreature_ok {e : Entity} (h : e.type.isA .creature) (f : Creature → Creature) :
    ∃ e', onCreature e f = .ok e' := by
  obtain ⟨e', he'⟩ := Entity.exists_withCreature? h f
  exact ⟨e', orLacks_ok_iff.mpr he'⟩

theorem onResource_ok {e : Entity} (h : e.type.isA .resource)
    (f : Resource Float → Resource Float) : ∃ e', onResource e f = .ok e' := by
  obtain ⟨e', he'⟩ := Entity.exists_withResource? h f
  exact ⟨e', orLacks_ok_iff.mpr he'⟩

end Setter

/-! ### Fields -/

namespace Field

open Setter

/-- The type that brings a field. -/
def bringer : Field → EntityType
  | title | longDescription | shortDescription => .entity
  | available | maxPerOwner | wholeOnly | pluralTitle => .resource
  | weight | damage | takeable | droppable | weapon => .object
  | alive | attackable | health | maxHealth | bareHandDamage | woundRate | respawnEnabled
  | respawnInterval | respawnLives | inventoryWeight => .being
  | counterAttack | allegiance | autoAttackEnabled | autoAttackRepeated | autoAttackInterval
  | wanderingEnabled | wanderingInterval | wanderlust => .creature

theorem bringer_of_mem_properties {type : EntityType} {property : String} {field : Field}
    (h : (property, field) ∈ properties type) : field.bringer = type := by
  have key : ∀ t ∈ EntityType.all, ∀ p ∈ properties t, p.2.bringer = t := by decide
  exact key type (EntityType.mem_all type) (property, field) h

theorem of?_title (type : EntityType) : of? type "title" = some .title := by
  cases type <;> decide

theorem of?_longDesc (type : EntityType) : of? type "longDesc" = some .longDescription := by
  cases type <;> decide

/-- A property names a field of the type itself or of a type above. -/
theorem isA_bringer {type : EntityType} {property : String} {field : Field}
    (h : of? type property = some field) : type.isA field.bringer := by
  obtain ⟨t, ht, hlookup⟩ := List.exists_of_findSome?_eq_some h
  rw [bringer_of_mem_properties (NameTable.mem_of_lookup hlookup)]
  rcases List.mem_cons.mp ht with rfl | habove
  · exact EntityType.isA_refl t
  · simp [EntityType.isA, habove]

/-- **A value that the rule of a field reads can be written into the field of every
entity that has it.** -/
theorem write_ok {field : Field} {e : Entity} {text : String} {v : Value}
    (hread : field.rule.read? text = some v) (htype : e.type.isA field.bringer) :
    ∃ e', field.write e v = .ok e' := by
  have hv : v.type = field.rule.valueType := Rule.type_of_read? hread
  cases field with
  | title | longDescription | shortDescription =>
    obtain ⟨text, htext⟩ := string_ok hv
    simp only [write, htext, bind, Except.bind]
    exact ⟨_, rfl⟩
  | takeable | droppable | weapon | attackable =>
    obtain ⟨b, hb⟩ := boolean_ok hv
    simp only [write, hb, bind, Except.bind]
    exact ⟨_, rfl⟩
  | available | maxPerOwner =>
    obtain ⟨x, hx⟩ := number_ok hv
    simp only [write, hx, bind, Except.bind]
    exact onResource_ok htype _
  | wholeOnly =>
    obtain ⟨b, hb⟩ := boolean_ok hv
    simp only [write, hb, bind, Except.bind]
    exact onResource_ok htype _
  | pluralTitle =>
    obtain ⟨text, htext⟩ := string_ok hv
    simp only [write, htext, bind, Except.bind]
    exact onResource_ok htype _
  | weight | damage =>
    obtain ⟨i, hi⟩ := integer_ok hv
    simp only [write, hi, bind, Except.bind]
    exact onItem_ok htype _
  | alive | respawnEnabled =>
    obtain ⟨b, hb⟩ := boolean_ok hv
    simp only [write, hb, bind, Except.bind]
    exact onBeing_ok htype _
  | bareHandDamage | respawnInterval | respawnLives | inventoryWeight =>
    obtain ⟨i, hi⟩ := integer_ok hv
    simp only [write, hi, bind, Except.bind]
    exact onBeing_ok htype _
  | health | maxHealth =>
    obtain ⟨i, hi⟩ := integer_ok hv
    obtain ⟨_, hbeing⟩ := onBeing_ok htype id
    simp only [write, hi, hbeing, bind, Except.bind]
    exact onBeing_ok htype _
  | woundRate =>
    obtain ⟨x, hx⟩ := number_ok hv
    simp only [write, hx, bind, Except.bind]
    exact onBeing_ok htype _
  | counterAttack | autoAttackEnabled | autoAttackRepeated | wanderingEnabled =>
    obtain ⟨b, hb⟩ := boolean_ok hv
    simp only [write, hb, bind, Except.bind]
    exact onCreature_ok htype _
  | autoAttackInterval | wanderingInterval =>
    obtain ⟨i, hi⟩ := integer_ok hv
    simp only [write, hi, bind, Except.bind]
    exact onCreature_ok htype _
  | allegiance =>
    obtain ⟨a, ha⟩ := allegiance_ok hread
    simp only [write, ha, bind, Except.bind]
    exact onCreature_ok htype _
  | wanderlust =>
    obtain ⟨x, hx⟩ := number_ok hv
    simp only [write, hx, bind, Except.bind]
    exact onCreature_ok htype _

/-- Whatever is written into a field, nothing changes its place. -/
theorem write_keeps {field : Field} {e e' : Entity} {v : Value}
    (h : field.write e v = .ok e') : e.Keeps e' := by
  cases field with
  | title | longDescription | shortDescription =>
    simp only [write, bind_ok_iff, pure_ok_iff] at h
    obtain ⟨_, -, rfl⟩ := h
    exact .of_details rfl rfl rfl
  | takeable | droppable | weapon | attackable =>
    simp only [write, bind_ok_iff, pure_ok_iff] at h
    obtain ⟨_, -, rfl⟩ := h
    exact e.setTag_keeps ..
  | available | maxPerOwner | wholeOnly | pluralTitle =>
    simp only [write, bind_ok_iff, onResource, orLacks_ok_iff] at h
    obtain ⟨_, -, h⟩ := h
    exact Entity.withResource?_keeps h
  | weight | damage =>
    simp only [write, bind_ok_iff, onItem, orLacks_ok_iff] at h
    obtain ⟨_, -, h⟩ := h
    exact Entity.withItem?_keeps h fun _ => rfl
  | alive | bareHandDamage | woundRate | respawnEnabled | respawnInterval | respawnLives
  | inventoryWeight =>
    simp only [write, bind_ok_iff, onBeing, orLacks_ok_iff] at h
    obtain ⟨_, -, h⟩ := h
    exact Entity.withBeing?_keeps h fun _ => rfl
  | health =>
    simp only [write, bind_ok_iff, onBeing, orLacks_ok_iff] at h
    obtain ⟨_, -, _, -, h⟩ := h
    exact Entity.withBeing?_keeps h fun _ => rfl
  | maxHealth =>
    simp only [write, bind_ok_iff, onBeing, orLacks_ok_iff] at h
    obtain ⟨_, -, i, -, h⟩ := h
    refine Entity.withBeing?_keeps h fun b => ?_
    by_cases hknown : b.healthKnown <;> simp [Being.setMaxHealth, Being.setHealth, hknown]
  | counterAttack | allegiance | autoAttackEnabled | autoAttackRepeated | autoAttackInterval
  | wanderingEnabled | wanderingInterval | wanderlust =>
    simp only [write, bind_ok_iff, onCreature, orLacks_ok_iff] at h
    obtain ⟨_, -, h⟩ := h
    exact Entity.withCreature?_keeps h fun _ => rfl

end Field

namespace SettingsField

open Setter

/-- A value that the rule of a field of the game reads can be written into it. -/
theorem write_ok {field : SettingsField} {text : String} {v : Value}
    (hread : field.rule.read? text = some v) (s : Settings) :
    ∃ s', field.write s v = .ok s' := by
  have hv : v.type = field.rule.valueType := Rule.type_of_read? hread
  cases field with
  | introductionEnabled | introductionPause =>
    obtain ⟨b, hb⟩ := boolean_ok hv
    simp only [write, hb, bind, Except.bind]
    exact ⟨_, rfl⟩
  | introductionText =>
    obtain ⟨text, htext⟩ := string_ok hv
    simp only [write, htext, bind, Except.bind]
    exact ⟨_, rfl⟩

end SettingsField

/-! ### The standard table -/

namespace SetterTable

theorem keys_nodup (type : EntityType) : ((Field.properties type).map Prod.fst).Nodup := by
  cases type <;> decide

/-- The standard table knows the properties that the checks know. -/
theorem field?_standard (type : EntityType) (property : String) :
    standard.field? type property = Field.of? type property := by
  unfold field? Field.of?
  congr 1
  funext t
  exact NameTable.getElem?_ofPairs (keys_nodup t) property

theorem game_standard (property : String) :
    standard.game[property]? = SettingsField.of? property :=
  NameTable.getElem?_ofPairs (by decide) property

/-- **A property that passed its check can be set.** -/
theorem set_standard_ok {e : Entity} {property text : String} {field : Field} {v : Value}
    (hfield : Field.of? e.type property = some field) (hread : field.rule.read? text = some v) :
    ∃ e', standard.set e property v = .ok e' := by
  rw [set, field?_standard, hfield]
  exact Field.write_ok hread (Field.isA_bringer hfield)

theorem setGame_standard_ok {property text : String} {field : SettingsField} {v : Value}
    (hfield : SettingsField.of? property = some field) (hread : field.rule.read? text = some v)
    (s : Settings) : ∃ s', standard.setGame s property v = .ok s' := by
  rw [setGame, game_standard, hfield]
  exact SettingsField.write_ok hread s

theorem set_keeps {t : SetterTable} {e e' : Entity} {property : String} {v : Value}
    (h : t.set e property v = .ok e') : e.Keeps e' := by
  unfold set at h
  cases hfield : t.field? e.type property with
  | none => simp [hfield] at h
  | some field =>
    rw [hfield] at h
    exact Field.write_keeps h

end SetterTable

end Adventure
