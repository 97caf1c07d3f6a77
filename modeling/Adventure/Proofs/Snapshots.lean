/-
Instances are snapshots of their class.

An instance is a copy of what its class is at that moment, and from then on the two go
separate ways: an operation that is about the class reaches no entity, and one that is about
the instance reaches no class.

Scripts are kept twice, with the prototype of their class and with each owner.  What is kept
with a prototype is just what the class was given so far, and no entity has scripts before
it is there; every attempt keeps this, so a new instance starts with the scripts that its
class was given until then, and gets no others than its own after that.
-/
import Adventure.Proofs.Failures
import Adventure.Proofs.Frames

namespace Adventure

/-! ### Copies of a class -/

/-- Details with the plural title that a resource is given. -/
def Details.withPlural (details : Details) (plural : Option String) : Details :=
  match details, plural with
  | .resource r, some text => .resource { r with pluralTitle := some text }
  | details, _ => details

/-- What an instance is at the moment it is made: the prototype under a name of its own, of
the class, and with the plural title that it is given if it is a resource. -/
def Entity.snapshot (prototype : Entity) (name className : String) (plural : Option String) :
    Entity :=
  { prototype with name, className, details := prototype.details.withPlural plural }

theorem World.withPlural_copyAs (prototype : Entity) (name className : String)
    (plural : Option String) :
    withPlural (prototype.copyAs name className) plural =
      prototype.snapshot name className plural := by
  cases plural with
  | none => simp [withPlural, Entity.copyAs, Entity.snapshot, Details.withPlural]
  | some text =>
    cases hd : prototype.details <;> simp [withPlural, Entity.copyAs, Entity.snapshot,
      Details.withPlural, Entity.withResource?, Entity.resource?, hd]

/-! ### Scripts that were given -/

/-- The script that an operation gives to an owner. -/
def Operation.givenTo (s : Surroundings) (owner : Subject) (op : Operation) : Option Script :=
  if op.opcode = .loadScript ∧ op.subject? = some owner then (World.scriptOf s op).toOption
  else none

/-- The scripts that operations gave to an owner, in order. -/
def scriptsGiven (s : Surroundings) (ops : List Operation) (owner : Subject) : List Script :=
  ops.filterMap (·.givenTo s owner)

theorem scriptsGiven_concat (s : Surroundings) (ops : List Operation) (op : Operation)
    (owner : Subject) :
    scriptsGiven s (ops ++ [op]) owner = scriptsGiven s ops owner ++ (op.givenTo s owner).toList := by
  rw [scriptsGiven, List.filterMap_append, scriptsGiven]
  cases h : op.givenTo s owner <;> simp [h]

namespace World

variable {s : Surroundings} {op : Operation} {value : Option Value} {w w' : World}

/-- The scripts that a class keeps for its instances. -/
def classScripts (w : World) (name : String) : List Script :=
  (w.classes[name]?).elim [] (·.scripts)

theorem givenTo_of_ne {owner : Subject} (h : op.opcode ≠ .loadScript) :
    op.givenTo s owner = none :=
  if_neg fun hop => h hop.1

theorem givenTo_of_loadScript {owner : Subject} {script : Script} (hop : op.opcode = .loadScript)
    (hsubject : op.subject? = some owner) (hscript : scriptOf s op = .ok script) (other : Subject) :
    op.givenTo s other = if owner = other then some script else none := by
  rw [Operation.givenTo, hsubject, hscript]
  by_cases howner : owner = other
  · rw [if_pos ⟨hop, by rw [howner]⟩, if_pos howner]
    rfl
  · rw [if_neg fun h => howner (Option.some.inj h.2), if_neg howner]

/-- An edit neither gives a script nor makes anything. -/
theorem Edit.opcode_ne {e e' : Entity} (h : Edit s op value e e') :
    op.opcode ≠ .loadScript ∧ op.opcode ≠ .defineEntity := by
  cases h with
  | tag hop => next present => cases present <;> simp [hop]
  | property hop | message hop | event hop | metadata hop | called hop | attributed hop
  | exit hop | allocation hop => simp [hop]

/-- A definition of an entity adds it, with the scripts that come with it. -/
theorem Effect.defined (h : Effect s op value w w') (hop : op.opcode = .defineEntity) :
    ∃ e inherited, newEntity w op = .ok (e, inherited) ∧
      w'.population = w.population.add (withPlural e op.arguments[3]?) := by
  cases h with
  | entityDefined hop hnew => exact ⟨_, _, hnew, rfl⟩
  | direction hother | directionSynonym hother | verbSynonym hother | classDefined hother
  | script hother | classScript hother => simp [hop] at hother
  | settings hother =>
    rcases hother with ⟨hsubject, -⟩ | hother
    · exact absurd (by rw [hop]; rfl) (Operation.targets_ne_nil hsubject)
    · simp [hop] at hother
  | entity _ _ hedit => exact absurd hop hedit.opcode_ne.2
  | prototype _ _ hedit => exact absurd hop hedit.opcode_ne.2
  | player _ hedit => exact absurd hop hedit.opcode_ne.2
  | moved hother => simp [Operation.insertion?, hop] at hother

/-- **An instance is a snapshot of its class.** -/
theorem Effect.entity?_defined (h : Effect s op value w w') (hop : op.opcode = .defineEntity)
    {p : Prototype} (hp : w.classes[op.argument 2]? = some p) :
    w'.entity? (op.argument 0) =
      some (p.entity.snapshot (op.argument 0) (op.argument 2) op.arguments[3]?) := by
  obtain ⟨e, inherited, hnew, hpopulation⟩ := h.defined hop
  rcases newEntity_cases hnew with ⟨p', hp', rfl, -⟩ | ⟨hnone, -⟩
  · obtain rfl := Option.some.inj (hp.symm.trans hp')
    rw [withPlural_copyAs] at hpopulation
    rw [entity?_of_added hpopulation]
    exact if_pos rfl
  · rw [hp] at hnone
    cases hnone

/-- **What an owner gets**: the script that the operation gives to it, and if the operation
makes the owner, the scripts of its class. -/
theorem Effect.ofOwner_eq (h : Effect s op value w w') (owner : Subject) :
    w'.scripts.ofOwner owner = w.scripts.ofOwner owner ++ (op.givenTo s owner).toList ++
      if op.opcode = .defineEntity ∧ owner = .entity (op.argument 0) then
        w.classScripts (op.argument 2)
      else [] := by
  have hquiet : w'.scripts = w.scripts → op.opcode ≠ .loadScript → op.opcode ≠ .defineEntity →
      w'.scripts.ofOwner owner = w.scripts.ofOwner owner ++ (op.givenTo s owner).toList ++
        if op.opcode = .defineEntity ∧ owner = .entity (op.argument 0) then
          w.classScripts (op.argument 2)
        else [] := by
    intro hscripts hload hdefine
    rw [hscripts, givenTo_of_ne hload, if_neg fun hop => hdefine hop.1]
    simp
  cases h with
  | direction hop | directionSynonym hop | verbSynonym hop | classDefined hop =>
    exact hquiet rfl (by simp [hop]) (by simp [hop])
  | settings hop =>
    rcases hop with ⟨hsubject, hload⟩ | hop
    · refine hquiet rfl hload ?_
      intro hdefine
      exact Operation.targets_ne_nil hsubject (by rw [hdefine]; rfl)
    · exact hquiet rfl (by simp [hop]) (by simp [hop])
  | entity hop he hedit => exact hquiet rfl hedit.opcode_ne.1 hedit.opcode_ne.2
  | prototype hop hp hedit => exact hquiet rfl hedit.opcode_ne.1 hedit.opcode_ne.2
  | player hop hedit => exact hquiet rfl hedit.opcode_ne.1 hedit.opcode_ne.2
  | entityDefined hop hnew =>
    next e inherited =>
    have hinherited : inherited = w.classScripts (op.argument 2) := by
      rcases newEntity_cases hnew with ⟨p, hp, -, rfl⟩ | ⟨hnone, rfl, -⟩
      · rw [classScripts, hp, Option.elim_some]
      · rw [classScripts, hnone, Option.elim_none]
    rw [ofOwner_inherited, givenTo_of_ne (by simp [hop]), hinherited]
    by_cases howner : owner = .entity (op.argument 0)
    · simp [hop, howner]
    · simp [hop, howner, Ne.symm howner]
  | script hop hsubject howner hscript =>
    rw [ScriptStore.ofOwner_load, givenTo_of_loadScript hop hsubject hscript]
    split <;> simp [hop]
  | classScript hop hsubject hp hscript =>
    rw [ScriptStore.ofOwner_load, givenTo_of_loadScript hop hsubject hscript]
    split <;> simp [hop]
  | moved hop hmoved =>
    refine hquiet (by rw [hmoved.rest]) ?_ ?_
    · intro hload
      simp [Operation.insertion?, hload] at hop
    · intro hdefine
      simp [Operation.insertion?, hdefine] at hop

/-- **What a class keeps** grows by the script that the operation gives to it. -/
theorem Effect.classScripts_eq (h : Effect s op value w w')
    (hfresh : op.opcode = .defineEntityClass → w.classes[op.argument 0]? = none) (name : String) :
    w'.classScripts name =
      w.classScripts name ++ (op.givenTo s (.entityClass name)).toList := by
  have hquiet : w'.classScripts name = w.classScripts name → op.opcode ≠ .loadScript →
      w'.classScripts name =
        w.classScripts name ++ (op.givenTo s (.entityClass name)).toList := by
    intro hclass hload
    rw [hclass, givenTo_of_ne hload, Option.toList_none, List.append_nil]
  cases h with
  | direction hop | directionSynonym hop | verbSynonym hop | entityDefined hop =>
    exact hquiet rfl (by simp [hop])
  | settings hop =>
    rcases hop with ⟨-, hload⟩ | hop
    · exact hquiet rfl hload
    · exact hquiet rfl (by simp [hop])
  | entity hop he hedit => exact hquiet rfl hedit.opcode_ne.1
  | player hop hedit => exact hquiet rfl hedit.opcode_ne.1
  | classDefined hop =>
    refine hquiet ?_ (by simp [hop])
    rw [classScripts, classScripts, NameTable.getElem?_insert]
    split
    · next hname => rw [← hname, hfresh hop, Option.elim_some, Option.elim_none]
    · rfl
  | prototype hop hp hedit =>
    refine hquiet ?_ hedit.opcode_ne.1
    rw [classScripts, classScripts, NameTable.getElem?_insert]
    split
    · next hname => rw [← hname, hp, Option.elim_some, Option.elim_some]
    · rfl
  | script hop hsubject howner hscript =>
    rw [givenTo_of_loadScript hop hsubject hscript, if_neg (howner name), Option.toList_none,
      List.append_nil]
    rfl
  | classScript hop hsubject hp hscript =>
    rw [givenTo_of_loadScript hop hsubject hscript, classScripts, classScripts,
      NameTable.getElem?_insert]
    simp only [Subject.entityClass.injEq]
    split
    · next hname => rw [← hname, hp, Option.elim_some, Option.elim_some, Option.toList_some]
    · rw [Option.toList_none, List.append_nil]
  | moved hop hmoved =>
    refine hquiet (by rw [classScripts, hmoved.rest]; rfl) ?_
    intro hload
    simp [Operation.insertion?, hload] at hop

end World

namespace Session

variable {s : Surroundings} {v : Vocabulary} {session : Session World} {op : Operation}

/-- What classes keep is what they were given, and what is not there was given nothing. -/
structure Scripted (s : Surroundings) (session : Session World) : Prop where
  sound : session.execution.Sound
  classes : ∀ name, session.execution.state.classScripts name =
    scriptsGiven s session.succeeded (.entityClass name)
  fresh : ∀ name, session.execution.state.entity? name = none →
    session.execution.state.scripts.ofOwner (.entity name) = [] ∧
      scriptsGiven s session.succeeded (.entity name) = []

/-- A name that a checked definition of an entity takes was free. -/
theorem entity?_of_defineEntity {x : Execution World} {value : Option Value} (hx : x.Sound)
    (hop : op.opcode = .defineEntity) (hcheck : Validation.check v x.declarations op = .ok value) :
    x.state.entity? (op.argument 0) = none := by
  rw [Validation.check, hop] at hcheck
  obtain ⟨-, -, -, -, hfresh, -⟩ := Validation.defineEntity_ok_iff.mp hcheck
  have htype : x.state.typeOf? (op.argument 0) = none := by
    rw [hx.consistent.types, Declarations.entityType?, hfresh, Option.map_none]
  exact Option.map_eq_none_iff.mp htype

/-- A name that a checked definition of a class takes was free. -/
theorem classes_of_defineEntityClass {x : Execution World} {value : Option Value} (hx : x.Sound)
    (hop : op.opcode = .defineEntityClass)
    (hcheck : Validation.check v x.declarations op = .ok value) :
    x.state.classes[op.argument 0]? = none := by
  rw [Validation.check, hop] at hcheck
  obtain ⟨-, -, -, -, -, hfresh, -⟩ := Validation.defineEntityClass_ok_iff.mp hcheck
  have htype : (x.state.class? (op.argument 0)).map (·.type) = none := by
    rw [hx.consistent.classTypes, Declarations.classType?, hfresh, Option.map_none]
  simpa [World.class?] using htype

/-- A script is only given to an entity that is there. -/
theorem givenTo_of_absent {x : Execution World} {value : Option Value} {name : String}
    (hx : x.Sound) (hcheck : Validation.check v x.declarations op = .ok value)
    (habsent : x.state.entity? name = none) : op.givenTo s (.entity name) = none := by
  refine if_neg ?_
  rintro ⟨hop, hsubject⟩
  rw [Validation.check, hop] at hcheck
  obtain ⟨⟨type, hchecked⟩, -⟩ := Validation.loadScript_ok_iff.mp hcheck
  obtain ⟨-, hdeclared⟩ := (Validation.checkSubject_ok_iff hsubject).mp hchecked
  obtain ⟨e, he, -⟩ := hx.consistent.exists_subjectEntity hdeclared nofun
  rw [World.subjectEntity?, habsent] at he
  cases he

theorem scripted_attempt (h : Scripted s session) (op : Operation) :
    Scripted s (attempt (World.builder s) v session op) := by
  cases hresult : Execution.execute (World.builder s) v op session.execution with
  | error err x' =>
    rw [attempt_of_error h.sound hresult]
    exact h
  | ok _ x' =>
    rw [attempt_of_ok hresult]
    obtain ⟨hsound, value, hcheck, heffect, -⟩ := Execution.effect_of_execute h.sound hresult
    refine ⟨hsound, ?_, ?_⟩
    · intro name
      rw [heffect.classScripts_eq fun hop => classes_of_defineEntityClass h.sound hop hcheck,
        h.classes, scriptsGiven_concat]
    · intro name habsent
      have hbefore : session.execution.state.entity? name = none := by
        by_contra hthere
        obtain ⟨e, he⟩ := heffect.frame.exists_entity (Option.ne_none_iff_exists'.mp hthere)
        rw [habsent] at he
        cases he
      obtain ⟨hstore, hgiven⟩ := h.fresh name hbefore
      have hnothing : op.givenTo s (.entity name) = none :=
        givenTo_of_absent h.sound hcheck hbefore
      refine ⟨?_, by rw [scriptsGiven_concat, hgiven, hnothing]; rfl⟩
      rw [heffect.ofOwner_eq, hstore, hnothing, if_neg]
      · rfl
      · -- an entity that was just made is not absent
        rintro ⟨hop, hname⟩
        obtain ⟨e, inherited, hnew, hpopulation⟩ := heffect.defined hop
        have hmade := (World.withPlural_keeps e op.arguments[3]?).name.trans
          (World.newEntity_name hnew)
        rw [Subject.entity.inj hname, World.entity?_of_added hpopulation, if_pos hmade] at habsent
        cases habsent

theorem scripted_ofOperations (s : Surroundings) (v : Vocabulary) (ops : List Operation) :
    Scripted s (ofOperations (World.builder s) v .empty ops) := by
  refine ofOperations_induction (P := Scripted s)
    ⟨Execution.sound_emptyWorld, fun _ => ?_, fun _ _ => ⟨rfl, rfl⟩⟩ ?_ ops
  · simp [Execution.start, World.empty, World.classScripts, scriptsGiven]
  · intro session op h
    exact scripted_attempt h op

/-- The entity of a name is there, and its scripts are those that it began with and those
that it was given. -/
structure Draws (s : Surroundings) (name : String) (inherited : List Script)
    (session : Session World) : Prop where
  sound : session.execution.Sound
  there : ∃ e, session.execution.state.entity? name = some e
  scripts : session.execution.state.scripts.ofOwner (.entity name) =
    inherited ++ scriptsGiven s session.succeeded (.entity name)

/-- An entity that was just made has the scripts that its class was given so far. -/
theorem draws_defined (h : Scripted s session) (hop : op.opcode = .defineEntity)
    {x' : Execution World}
    (hresult : Execution.execute (World.builder s) v op session.execution = .ok () x') :
    Draws s (op.argument 0) (scriptsGiven s session.succeeded (.entityClass (op.argument 2)))
      ⟨session.succeeded ++ [op], x'⟩ := by
  obtain ⟨hsound, value, hcheck, heffect, -⟩ := Execution.effect_of_execute h.sound hresult
  obtain ⟨e, inherited, hnew, hpopulation⟩ := heffect.defined hop
  have hname := (World.withPlural_keeps e op.arguments[3]?).name.trans (World.newEntity_name hnew)
  obtain ⟨hstore, hgiven⟩ := h.fresh _ (entity?_of_defineEntity h.sound hop hcheck)
  have hnothing : ∀ owner, op.givenTo s owner = none :=
    fun _ => World.givenTo_of_ne (by simp [hop])
  refine ⟨hsound, ⟨_, (World.entity?_of_added hpopulation _).trans (if_pos hname)⟩, ?_⟩
  rw [heffect.ofOwner_eq, hstore, hnothing, if_pos ⟨hop, rfl⟩, h.classes, scriptsGiven_concat,
    hgiven, hnothing]
  simp

/-- Once an entity is there it gets no scripts but its own. -/
theorem draws_attempt {name : String} {inherited : List Script} (h : Draws s name inherited session)
    (op : Operation) : Draws s name inherited (attempt (World.builder s) v session op) := by
  cases hresult : Execution.execute (World.builder s) v op session.execution with
  | error err x' =>
    rw [attempt_of_error h.sound hresult]
    exact h
  | ok _ x' =>
    rw [attempt_of_ok hresult]
    obtain ⟨hsound, value, hcheck, heffect, -⟩ := Execution.effect_of_execute h.sound hresult
    refine ⟨hsound, heffect.frame.exists_entity h.there, ?_⟩
    rw [heffect.ofOwner_eq, if_neg, h.scripts, scriptsGiven_concat, List.append_nil,
      List.append_assoc]
    -- nobody is made twice
    rintro ⟨hop, hname⟩
    obtain ⟨e, he⟩ := h.there
    rw [Subject.entity.inj hname, entity?_of_defineEntity h.sound hop hcheck] at he
    cases he

/-- Whether it succeeds or fails, an operation touches only what it is about. -/
theorem frame_attempt (h : session.execution.Sound) (op : Operation) :
    World.Frame op session.execution.state
      (attempt (World.builder s) v session op).execution.state := by
  cases hresult : Execution.execute (World.builder s) v op session.execution with
  | error err x' =>
    rw [attempt_of_error h hresult]
    exact .refl op _
  | ok _ x' =>
    rw [attempt_of_ok hresult]
    obtain ⟨-, value, -, heffect, -⟩ := Execution.effect_of_execute h hresult
    exact heffect.frame

/-- **Instances are snapshots of their class.**  After any operations, an instance of a
declared class equals the prototype of the class but for its name, its class and, if it is
a resource that is given one, its plural title.  Nothing that is tried later about the class
changes the instance, and nothing about the instance changes the class.  And ever after the
scripts of the instance are those that the class had been given by then, followed by those
that it was given itself, in order. -/
theorem instances_are_snapshots (s : Surroundings) (v : Vocabulary) (before : List Operation)
    (op : Operation) :
    let builder := World.builder s
    let earlier := ofOperations builder v .empty before
    let name := op.argument 0
    let className := op.argument 2
    op.opcode = .defineEntity →
    (earlier.execution.declarations.class? className).isSome →
    ∀ x', Execution.execute builder v op earlier.execution = .ok () x' →
      ∃ p, earlier.execution.state.classes[className]? = some p ∧
        x'.state.entity? name = some (p.entity.snapshot name className op.arguments[3]?) ∧
        ∀ after,
          let later := ofOperations builder v .empty (before ++ op :: after)
          let w := later.execution.state
          (∀ next, next.classSubject? = some className →
            (attempt builder v later next).execution.state.entity? name = w.entity? name) ∧
          (∀ next, name ∈ w.concerned next →
            (attempt builder v later next).execution.state.classes[className]? =
              w.classes[className]?) ∧
          w.scripts.ofOwner (.entity name) =
            scriptsGiven s earlier.succeeded (.entityClass className) ++
              scriptsGiven s later.succeeded (.entity name) := by
  intro builder earlier name className hop hclass x' hresult
  have hearlier : Scripted s earlier := scripted_ofOperations s v before
  obtain ⟨hsound, value, hcheck, heffect, -⟩ :=
    Execution.effect_of_execute hearlier.sound hresult
  obtain ⟨p, hp⟩ : ∃ p, earlier.execution.state.classes[className]? = some p := by
    have htype := hearlier.sound.consistent.classTypes className
    obtain ⟨declared, hdeclared⟩ := Option.isSome_iff_exists.mp hclass
    rw [Declarations.classType?, hdeclared, Option.map_some, World.class?] at htype
    obtain ⟨e, he, -⟩ := Option.map_eq_some_iff.mp htype
    obtain ⟨p, hp, -⟩ := Option.map_eq_some_iff.mp he
    exact ⟨p, hp⟩
  have hmade := heffect.entity?_defined hop hp
  refine ⟨p, hp, hmade, ?_⟩
  intro after later w
  have hlater : later = after.foldl (attempt builder v) ⟨earlier.succeeded ++ [op], x'⟩ := by
    rw [← attempt_of_ok hresult, ← List.foldl_cons, ← ofOperations_append]
  have hdraws : Draws s name (scriptsGiven s earlier.succeeded (.entityClass className)) later := by
    rw [hlater]
    exact attempts_induction (P := Draws s name _) (fun session op h => draws_attempt h op) after _
      (draws_defined hearlier hop hresult)
  refine ⟨?_, ?_, hdraws.scripts⟩
  · intro next hnext
    refine (frame_attempt hdraws.sound next).others name ?_
    rw [World.concerned_of_classSubject? hnext]
    exact List.not_mem_nil
  · intro next hnext
    refine (frame_attempt hdraws.sound next).classes className ?_
    intro habout
    rw [World.concerned_of_classSubject? habout] at hnext
    exact List.not_mem_nil hnext

/-- A lamp has the script that its class was given before it was made, and its own, but not
the one that the class was given later. -/
theorem lamp_draws_earlier_script :
    let builder := World.builder ⟨.strict, .none, .standard⟩
    let before : List Operation := [.defineEntityClass "lantern" .object 1,
      .loadScript (.entityClass "lantern") .inline "glow()" 2]
    let op := Operation.defineEntity "lamp" .object "lantern" none 3
    let after : List Operation := [.loadScript (.entityClass "lantern") .inline "fade()" 4,
      .loadScript (.entity "lamp") .inline "shine()" 5]
    ∃ (x' : Execution World) (p : Prototype), Execution.execute builder .english op
        (ofOperations builder .english .empty before).execution = .ok () x' ∧
      x'.state.entity? "lamp" = some (p.entity.snapshot "lamp" "lantern" none) ∧
      (ofOperations builder .english .empty (before ++ op :: after)).execution.state.scripts.ofOwner
        (.entity "lamp") = [.inline "glow()", .inline "shine()"] := by
  intro builder before op after
  obtain ⟨x', hresult⟩ : ∃ x', Execution.execute builder .english op
      (ofOperations builder .english .empty before).execution = .ok () x' := by
    dsimp only [builder, before, op]
    exact ⟨_, rfl⟩
  have hclass : ((ofOperations builder .english .empty before).execution.declarations.class?
      (op.argument 2)).isSome := by
    dsimp only [builder, before, op]
    decide +kernel
  obtain ⟨p, -, hlamp, hlater⟩ := instances_are_snapshots ⟨.strict, .none, .standard⟩ .english
    before op rfl hclass x' hresult
  obtain ⟨-, -, hscripts⟩ := hlater after
  refine ⟨x', p, hresult, hlamp, hscripts.trans ?_⟩
  dsimp only [before, op, after]
  decide +kernel

end Session

end Adventure
