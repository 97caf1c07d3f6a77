/-
What comes of each checked operation that moves nothing.

One statement for each change: where the world has what was declared and the operation
passed its check, the change succeeds and keeps everything in its place, or it is
refused for one of the few reasons that a check cannot foresee.
-/
import Adventure.Proofs.Consistency

namespace Adventure

namespace World

variable {s : Surroundings} {v : Vocabulary} {d : Declarations} {w : World} {op : Operation}
variable {value : Option Value} {reason : Error → Prop}

/-- What a check cannot foresee: that a resource has run out, that a file cannot be
read, and that a table has no setter for a property that there is. -/
inductive Refused (s : Surroundings) (op : Operation) : Error → Prop
  | allocation (message : String) (hop : op.opcode = .allocateResource) :
    Refused s op (.validation message op.line)
  | script (path why : String) (hop : op.opcode = .loadScript)
    (hmode : ScriptMode.ofName? (op.payloadAt 0) = some .file) :
    Refused s op ((Error.of (.unreadable path why)).onLine op.line)
  | setter (e : Error) (hop : op.opcode = .setProperty) (htable : s.setters ≠ .standard) :
    Refused s op e

/-! ### Settings -/

theorem setTimerPeriod_comesTo (hcheck : Validation.setTimerPeriod op = .ok value) :
    ComesTo (setTimerPeriod op value) w reason := by
  obtain ⟨-, v, hread, -, rfl⟩ := Validation.setTimerPeriod_ok_iff.mp hcheck
  have htype : v.type = .integer := Rule.type_of_read? hread
  cases v with
  | integer i => exact changeSettings_comesTo (fun s => { s with timerPeriod := some i }) w _
  | _ => simp [Value.type] at htype

/-! ### What entities carry -/

/-- A subject is given something under a name. -/
theorem changeNamed_comesTo (hc : Consistent d w) (htargets : op.opcode.targets ≠ [])
    (hcheck : Validation.setNamed d op = .ok value) {f : Entity → Entity} {onGame : Change Unit}
    (hf : ∀ e : Entity, e.Keeps (f e))
    (hgame : .game ∈ op.opcode.targets → ComesTo onGame w reason) :
    ComesTo (changeSubject op (fun e => pure (f e)) onGame) w reason := by
  obtain ⟨⟨type, hsubject⟩, -⟩ := Validation.setNamed_ok_iff.mp hcheck
  refine hc.changeSubject_comesTo htargets hsubject ?_ ?_
  · intro e _
    exact editComesTo_pure (hf e)
  · intro hmem _
    exact hgame hmem

theorem setMessage_comesTo (hc : Consistent d w) (hop : op.opcode = .setMessage)
    (hcheck : Validation.setNamed d op = .ok value) : ComesTo (setMessage op) w reason :=
  changeNamed_comesTo hc (by rw [hop]; decide) hcheck (fun _ => .of_details rfl rfl rfl)
    fun _ => changeSettings_comesTo _ w _

theorem setEvent_comesTo (hc : Consistent d w) (hop : op.opcode = .setEvent)
    (hcheck : Validation.setNamed d op = .ok value) : ComesTo (setEvent op) w reason :=
  changeNamed_comesTo hc (by rw [hop]; decide) hcheck (fun _ => .of_details rfl rfl rfl)
    fun _ => changeSettings_comesTo _ w _

theorem setMetadata_comesTo (hc : Consistent d w) (hop : op.opcode = .setMeta)
    (hcheck : Validation.setNamed d op = .ok value) : ComesTo (setMetadata op) w reason :=
  changeNamed_comesTo hc (by rw [hop]; decide) hcheck (fun _ => .of_details rfl rfl rfl)
    fun _ => changeSettings_comesTo _ w _

theorem setTag_comesTo (hc : Consistent d w) (hop : op.opcode = .setTag ∨ op.opcode = .removeTag)
    (hcheck : Validation.setNamed d op = .ok value) (present : Bool) :
    ComesTo (setTag op present) w reason := by
  have htargets : op.opcode.targets = [.entity, .entityClass, .defaultPlayer] := by
    rcases hop with hop | hop <;> rw [hop] <;> rfl
  refine changeNamed_comesTo hc (by simp [htargets]) hcheck (fun e => e.setTag_keeps _ _) ?_
  intro hgame
  simp [htargets] at hgame

theorem addAlias_comesTo (hc : Consistent d w) (hop : op.opcode = .setAlias)
    (hcheck : Validation.setAlias d op = .ok value) : ComesTo (addAlias op) w reason := by
  obtain ⟨type, hsubject, -, -⟩ := Validation.setAlias_ok_iff.mp hcheck
  refine hc.changeSubject_comesTo (by rw [hop]; decide) hsubject ?_ (by simp)
  intro e _
  refine editComesTo_pure ?_
  split
  · exact .refl e
  · exact .of_details rfl rfl rfl

theorem setAttribute_comesTo (hc : Consistent d w) (hop : op.opcode = .setAttribute)
    (hcheck : Validation.setAttribute d op = .ok value) :
    ComesTo (setAttribute op value) w reason := by
  obtain ⟨type, hsubject, hbeing, v, hread, rfl⟩ := Validation.setAttribute_ok_iff.mp hcheck
  have htype : v.type = .integer := Rule.type_of_read? hread
  cases v with
  | integer i =>
    refine hc.changeSubject_comesTo (by rw [hop]; decide) hsubject ?_ (by simp)
    intro e he
    rw [Option.some.inj he] at hbeing
    exact editComesTo_orBreach (Entity.exists_withBeing? hbeing _)
      fun e' h => Entity.withBeing?_keeps h fun _ => rfl
  | _ => simp [Value.type] at htype

theorem connectRooms_comesTo (hc : Consistent d w) (hop : op.opcode = .connectRooms)
    (hcheck : Validation.connectRooms v d op = .ok value) :
    ComesTo (connectRooms op value) w reason := by
  obtain ⟨hsubject, -⟩ := Validation.connectRooms_ok_iff.mp hcheck
  refine hc.changeSubject_comesTo (by rw [hop]; decide) hsubject ?_ (by simp)
  intro e he
  have htype : e.type.isA .place := by rw [← Option.some.inj he]; decide
  exact editComesTo_orBreach (Entity.exists_withRoom? htype _)
    fun e' h => Entity.withRoom?_keeps h fun _ => rfl

/-! ### Properties -/

theorem propertyRule_entity_iff {type : EntityType} {property : String} {rule : Rule} :
    Validation.propertyRule (some type) property = .ok rule ↔
      ∃ field, Field.of? type property = some field ∧ rule = field.rule := by
  rw [Validation.propertyRule]
  cases Field.of? type property <;> simp

theorem propertyRule_game_iff {property : String} {rule : Rule} :
    Validation.propertyRule none property = .ok rule ↔
      ∃ field, SettingsField.of? property = some field ∧ rule = field.rule := by
  rw [Validation.propertyRule]
  cases SettingsField.of? property <;> simp

/-- Setting a property is a change of the subject, by the table of setters. -/
theorem setProperty_eq_changeSubject (s : Surroundings) (op : Operation) (value : Option Value) :
    (builder s).setProperty op value =
      changeSubject op (setProperty s (op.payloadAt 0) (value.getD (.string (op.payloadAt 1))))
        (setGameProperty s (op.payloadAt 0) (value.getD (.string (op.payloadAt 1)))) := by
  unfold Executor.setProperty changeSubject
  cases op.subject? with
  | none => rfl
  | some subject => cases subject <;> rfl

theorem setProperty_comesTo (hc : Consistent d w) (hop : op.opcode = .setProperty)
    (hcheck : Validation.setProperty d op = .ok value) :
    ComesTo ((builder s).setProperty op value) w (Refused s op) := by
  obtain ⟨type, hsubject, rule, hrule, v, hread, rfl⟩ := Validation.setProperty_ok_iff.mp hcheck
  rw [setProperty_eq_changeSubject]
  refine hc.changeSubject_comesTo (by rw [hop]; decide) hsubject ?_ ?_
  · rintro e rfl
    obtain ⟨field, hfield, rfl⟩ := propertyRule_entity_iff.mp hrule
    cases hset : s.setters.set e (op.payloadAt 0) v with
    | ok e' => exact .inl ⟨e', by simp [setProperty, hset],
        SetterTable.set_keeps hset⟩
    | error f =>
      refine .inr ⟨_, by simp [setProperty, hset]; rfl, .setter _ hop ?_⟩
      intro hstandard
      obtain ⟨e', he'⟩ := SetterTable.set_standard_ok hfield hread
      rw [hstandard, he'] at hset
      cases hset
  · rintro - rfl
    obtain ⟨field, hfield, rfl⟩ := propertyRule_game_iff.mp hrule
    cases hset : s.setters.setGame w.settings (op.payloadAt 0) v with
    | ok settings => exact .inl ⟨{ w with settings }, by simp [setGameProperty, hset],
        .of_eq rfl rfl rfl⟩
    | error f =>
      refine .inr ⟨_, by simp [setGameProperty, hset]; rfl, .setter _ hop ?_⟩
      intro hstandard
      obtain ⟨settings, hok⟩ := SetterTable.setGame_standard_ok hfield hread w.settings
      rw [hstandard, hok] at hset
      cases hset

/-! ### Scripts and resources -/

/-- A script can be had from every checked operation, unless it is in a file. -/
theorem scriptOf_cases (hmode : (ScriptMode.ofName? (op.payloadAt 0)).isSome)
    (hop : op.opcode = .loadScript) :
    (∃ script, scriptOf s op = .ok script) ∨ ∃ e, scriptOf s op = .error e ∧ Refused s op e := by
  obtain ⟨mode, hmode⟩ := Option.isSome_iff_exists.mp hmode
  unfold scriptOf
  simp only [hmode]
  cases mode with
  | inline => exact .inl ⟨_, rfl⟩
  | file =>
    by_cases hload : s.config.loadScripts
    · simp only [hload, if_true]
      cases s.files.read (s.config.resolveScript (op.payloadAt 1)) with
      | ok source => exact .inl ⟨_, rfl⟩
      | error f => exact .inr ⟨_, rfl, .script _ _ hop hmode⟩
    · exact .inl ⟨_, by simp [hload]; rfl⟩

theorem loadScript_comesTo (hc : Consistent d w) (hop : op.opcode = .loadScript)
    (hcheck : Validation.loadScript d op = .ok value) :
    ComesTo (loadScript s op) w (Refused s op) := by
  obtain ⟨⟨type, hsubject⟩, hmode, -⟩ := Validation.loadScript_ok_iff.mp hcheck
  obtain ⟨subject, hsubject, hmem, htype⟩ :=
    Validation.exists_subject_of_checkSubject (by rw [hop]; decide) hsubject
  rcases scriptOf_cases (s := s) hmode hop with ⟨script, hscript⟩ | ⟨e, he, hrefused⟩
  · left
    unfold loadScript
    simp only [hscript, hsubject]
    cases subject with
    | entity name => exact ⟨_, rfl, .of_eq rfl rfl rfl⟩
    | game => exact ⟨_, rfl, .of_eq rfl rfl rfl⟩
    | entityClass name =>
      obtain ⟨e, he, -⟩ := hc.exists_subjectEntity htype nofun
      obtain ⟨p, hp, -⟩ := Option.map_eq_some_iff.mp he
      have hchange := changePrototype_ok
        (f := fun p => pure { p with scripts := p.scripts ++ [script] }) hp rfl
      refine ⟨_, (run_bind_of_ok hchange).trans rfl, ?_⟩
      have hkept : w.Keeps
          { w with classes := w.classes.insert name { p with scripts := p.scripts ++ [script] } } :=
        insert_class_keeps hp (.refl p.entity)
      exact hkept.trans (.of_eq rfl rfl rfl)
    | defaultPlayer => simp [hop, Opcode.targets, Subject.target] at hmem
  · exact .inr ⟨e, by simp [loadScript, he, bind, EStateM.bind], hrefused⟩

theorem allocateResource_comesTo (hc : Consistent d w) (hop : op.opcode = .allocateResource)
    (hcheck : Validation.allocateResource d op = .ok value) :
    ComesTo (allocateResource op value) w (Refused s op) := by
  obtain ⟨-, ⟨t, ht, hresource⟩, -, v, hread, -, rfl⟩ :=
    Validation.allocateResource_ok_iff.mp hcheck
  have htype : v.type = .number := Rule.type_of_read? hread
  rw [← hc.types] at ht
  obtain ⟨e, he, rfl⟩ := exists_entity ht
  obtain ⟨r, hr⟩ := Entity.exists_resource hresource
  cases v with
  | number amount =>
    refine changeEntity_comesTo he ?_
    have hdetails : e.resource? = some r := by rw [Entity.resource?, hr]
    cases hallocate : r.allocate (op.argument 1) amount with
    | ok r' =>
      refine .inl ⟨{ e with details := .resource r' }, by simp [orBreach, hdetails, hallocate], ?_⟩
      exact Entity.withResource?_keeps (f := fun _ => r') (by simp [Entity.withResource?, hdetails])
    | error refusal =>
      exact .inr ⟨_, by simp [orBreach, hdetails, hallocate]; rfl, .allocation _ hop⟩
  | _ => simp [Value.type] at htype

end World

end Adventure
