/-
What a change that succeeds has done.

Every opcode has its own change, but what changes leave behind is of few kinds: new words
or other settings, a class or an entity more, an edit of one subject, a script kept, a
thing moved.  The kinds are named here and every successful change is sorted into one of
them, so nobody else has to take a change apart.  Nothing is asked of the operation: that
a change went through is enough to know what it did.

An edit says exactly what became of its subject.  Of a move it is said which entities it
reached, and that it changed nothing of them but where they are and what they hold.
-/
import Adventure.Proofs.Sessions

namespace Adventure

/-! ### Settings -/

/-- The game's own words are the same. -/
structure Settings.SameWords (s s' : Settings) : Prop where
  directions : s'.directions = s.directions
  directionSynonyms : s'.directionSynonyms = s.directionSynonyms
  verbSynonyms : s'.verbSynonyms = s.verbSynonyms

/-- No field of the game holds its words. -/
theorem SettingsField.write_sameWords {field : SettingsField} {s s' : Settings} {v : Value}
    (h : field.write s v = .ok s') : s.SameWords s' := by
  cases field with
  | introductionEnabled | introductionText | introductionPause =>
    simp only [write, bind_ok_iff, pure_ok_iff] at h
    obtain ⟨_, -, rfl⟩ := h
    exact ⟨rfl, rfl, rfl⟩

theorem SetterTable.setGame_sameWords {t : SetterTable} {s s' : Settings} {property : String}
    {v : Value} (h : t.setGame s property v = .ok s') : s.SameWords s' := by
  unfold setGame at h
  cases hfield : t.game[property]? with
  | none => simp [hfield] at h
  | some field =>
    rw [hfield] at h
    exact SettingsField.write_sameWords h

/-! ### Entities without a place -/

/-- Details of something that is nobody's and holds nothing. -/
def Details.bare : Details → Details
  | room r => room { r with contents := [] }
  | object i => object { i with owner := none }
  | creature c => creature { c with being := { c.being with inventory := [] } }
  | player b => player { b with inventory := [] }
  | resource r => resource r

namespace Entity

/-- The entity without where it is and what it holds. -/
def bare (e : Entity) : Entity :=
  { e with location := none, details := e.details.bare }

variable {e e' : Entity}

theorem name_of_bare (h : e'.bare = e.bare) : e'.name = e.name := by
  show e'.bare.name = e.bare.name
  rw [h]

theorem bare_of_details {details : Details} (h : details.bare = e.details.bare) :
    ({ e with details } : Entity).bare = e.bare := by
  simp [bare, h]

theorem bare_withRoom? {f : Room → Room} (h : e.withRoom? f = some e')
    (hf : ∀ r, { f r with contents := [] } = { r with contents := [] }) : e'.bare = e.bare := by
  cases hd : e.details <;> simp [withRoom?, room?, hd] at h
  subst h
  exact bare_of_details (by simp [hd, Details.bare, hf])

theorem bare_withItem? {f : Item → Item} (h : e.withItem? f = some e')
    (hf : ∀ i, { f i with owner := none } = { i with owner := none }) : e'.bare = e.bare := by
  cases hd : e.details <;> simp [withItem?, item?, hd] at h
  subst h
  exact bare_of_details (by simp [hd, Details.bare, hf])

theorem bare_withBeing? {f : Being → Being} (h : e.withBeing? f = some e')
    (hf : ∀ b, { f b with inventory := [] } = { b with inventory := [] }) :
    e'.bare = e.bare := by
  cases hd : e.details with
  | creature c =>
    simp only [withBeing?, hd, Option.some.injEq] at h
    subst h
    exact bare_of_details (by simp [hd, Details.bare, hf])
  | player b =>
    simp only [withBeing?, hd, Option.some.injEq] at h
    subst h
    exact bare_of_details (by simp [hd, Details.bare, hf])
  | _ => simp [withBeing?, hd] at h

end Entity

namespace World

theorem bare_released (e : Entity) : (released e).bare = e.bare := by
  rw [released]
  cases h : ({ e with location := none } : Entity).withItem? ({ · with owner := none }) with
  | none => rfl
  | some e' =>
    have hbare : e'.bare = ({ e with location := none } : Entity).bare :=
      Entity.bare_withItem? h fun _ => rfl
    exact hbare

theorem bare_withoutContent (thing : String) (e : Entity) :
    (withoutContent thing e).bare = e.bare := by
  rw [withoutContent]
  cases h : e.withRoom? fun r => { r with contents := r.contents.filter (· ≠ thing) } with
  | none => rfl
  | some e' => exact Entity.bare_withRoom? h fun _ => rfl

theorem bare_withoutPossession (thing : String) (e : Entity) :
    (withoutPossession thing e).bare = e.bare := by
  rw [withoutPossession]
  cases h : e.withBeing? fun b => { b with inventory := b.inventory.filter (· ≠ thing) } with
  | none => rfl
  | some e' => exact Entity.bare_withBeing? h fun _ => rfl

/-! ### Moves -/

/-- Some entities were moved, or hold something else than before.  Nothing else in the world
is touched, and nothing else about these entities. -/
structure Rearranged (touched : List String) (w w' : World) : Prop where
  rest : w' = { w with population := w'.population }
  names : w'.entities.map (·.name) = w.entities.map (·.name)
  others : ∀ name ∉ touched, w'.entity? name = w.entity? name
  bare : ∀ name, (w'.entity? name).map (·.bare) = (w.entity? name).map (·.bare)

section Moves

variable {w w' : World} {name thing : String} {touched more : List String}

theorem Rearranged.refl (w : World) : Rearranged [] w w :=
  ⟨rfl, rfl, fun _ _ => rfl, fun _ => rfl⟩

theorem Rearranged.trans {w'' : World} (h : Rearranged touched w w')
    (h' : Rearranged more w' w'') : Rearranged (touched ++ more) w w'' := by
  refine ⟨?_, h'.names.trans h.names, ?_, fun name => (h'.bare name).trans (h.bare name)⟩
  · rw [h'.rest, h.rest]
  · intro name hname
    rw [List.mem_append, not_or] at hname
    rw [h'.others name hname.2, h.others name hname.1]

theorem Rearranged.mono (h : Rearranged touched w w') (hsub : ∀ name ∈ touched, name ∈ more) :
    Rearranged more w w' :=
  ⟨h.rest, h.names, fun name hname => h.others name fun hmem => hname (hsub name hmem), h.bare⟩

/-- A change that gives one entity another place, or something else to hold. -/
theorem rearranged_changeEntity {f : Entity → Except Error Entity}
    (hf : ∀ e e', f e = .ok e' → e'.bare = e.bare) (h : changeEntity name f w = .ok () w') :
    Rearranged [name] w w' := by
  obtain ⟨e, e', he, hchange, rfl⟩ := changeEntity_ok_iff.mp h
  have hbare := hf e e' hchange
  have hname := Entity.name_of_bare hbare
  refine ⟨rfl, names_put he hname, ?_, ?_⟩
  · intro other hother
    rw [entity?_put he hname, if_neg (by simpa using hother)]
  · intro other
    rw [entity?_put he hname]
    split
    · next hother => rw [hother, he, Option.map_some, Option.map_some, hbare]
    · rfl

/-- A holder, if there is one, gives up what it holds. -/
theorem rearranged_from {holder : Option String} {f : Entity → Entity}
    (hf : ∀ e, (f e).bare = e.bare)
    (h : (match holder with
      | some name => changeEntity name fun e => pure (f e)
      | none => pure ()) w = .ok () w') : Rearranged holder.toList w w' := by
  cases holder with
  | none =>
    obtain rfl := (EStateM.Result.ok.inj h).2
    exact .refl w
  | some name => exact rearranged_changeEntity (fun e e' he => by rw [pure_ok_iff.mp he, hf]) h

/-- **Taking a thing from where it is** reaches the thing and what held it. -/
theorem rearranged_detach (h : detach thing w = .ok () w') :
    Rearranged ([thing] ++ (w.locationOf? thing).toList ++ (w.ownerOf? thing).toList) w w' := by
  obtain ⟨e, w₀, hget, h⟩ := run_bind_ok_iff.mp h
  obtain ⟨he, rfl⟩ := getEntity_ok_iff.mp hget
  have hlocation : w.locationOf? thing = e.location := by rw [locationOf?, he, Option.bind_some]
  have howner : w.ownerOf? thing = e.item?.bind (·.owner) := by
    rw [ownerOf?, he, Option.bind_some, Entity.owner?]
  rw [hlocation, howner]
  obtain ⟨_, w₁, hrelease, h⟩ := run_bind_ok_iff.mp h
  have h₁ : Rearranged [thing] w w₁ :=
    rearranged_changeEntity (fun e e' he => by rw [pure_ok_iff.mp he, bare_released]) hrelease
  cases hroom : e.location with
  | none =>
    rw [hroom] at h
    exact (h₁.trans (.refl w₁)).trans (rearranged_from (bare_withoutPossession thing) h)
  | some room =>
    rw [hroom] at h
    obtain ⟨_, w₂, htakeOut, h⟩ := run_bind_ok_iff.mp h
    have h₂ : Rearranged (some room).toList w₁ w₂ :=
      rearranged_from (bare_withoutContent thing) htakeOut
    exact (h₁.trans h₂).trans (rearranged_from (bare_withoutPossession thing) h)

end Moves

/-! ### Edits -/

/-- What an operation makes of the entity that it is about. -/
inductive Edit (s : Surroundings) (op : Operation) (value : Option Value) (e : Entity) :
    Entity → Prop
  | property {e' : Entity} (hop : op.opcode = .setProperty)
    (h : s.setters.set e (op.payloadAt 0) (value.getD (.string (op.payloadAt 1))) = .ok e') :
    Edit s op value e e'
  | message (hop : op.opcode = .setMessage) :
    Edit s op value e { e with messages := e.messages.insert (op.payloadAt 0) (op.payloadAt 1) }
  | event (hop : op.opcode = .setEvent) :
    Edit s op value e { e with events := e.events.insert (op.payloadAt 0) (op.payloadAt 1) }
  | metadata (hop : op.opcode = .setMeta) :
    Edit s op value e { e with metadata := e.metadata.insert (op.payloadAt 0) (op.payloadAt 1) }
  | tag {present : Bool} (hop : op.opcode = if present then .setTag else .removeTag) :
    Edit s op value e (e.setTag (op.payloadAt 0) present)
  | called (hop : op.opcode = .setAlias) :
    Edit s op value e
      (if e.aliases.contains (op.payloadAt 0) then e
        else { e with aliases := e.aliases ++ [op.payloadAt 0] })
  | attributed {i : Int} {e' : Entity} (hop : op.opcode = .setAttribute)
    (h : e.withBeing? (fun b =>
      { b with attributes := b.attributes.insert (op.payloadAt 0) i }) = some e') :
    Edit s op value e e'
  | exit {e' : Entity} (hop : op.opcode = .connectRooms)
    (h : e.withRoom? (fun r => { r with
      exits := r.exits.insert ((value.bind (·.string?)).getD (op.payloadAt 0)) (op.payloadAt 1) }) =
        some e') :
    Edit s op value e e'
  | allocation {r r' : Resource Float} {amount : Float} (hop : op.opcode = .allocateResource)
    (hr : e.resource? = some r) (h : r.allocate (op.argument 1) amount = .ok r')
    (hamount : value.bind (·.number?) = some amount) :
    Edit s op value e { e with details := .resource r' }

/-- An edit leaves its subject its name, its class, its type and its place. -/
theorem Edit.keeps {s : Surroundings} {op : Operation} {value : Option Value} {e e' : Entity}
    (h : Edit s op value e e') : e.Keeps e' := by
  cases h with
  | property hop h => exact SetterTable.set_keeps h
  | message | event | metadata => exact .of_details rfl rfl rfl
  | tag => exact e.setTag_keeps _ _
  | called =>
    split
    · exact .refl e
    · exact .of_details rfl rfl rfl
  | attributed hop h => exact Entity.withBeing?_keeps h fun _ => rfl
  | exit hop h => exact Entity.withRoom?_keeps h fun _ => rfl
  | allocation hop hr h =>
    exact Entity.withResource?_keeps (f := fun _ => _) (by rw [Entity.withResource?, hr]; rfl)

/-! ### Effects -/

/-- The names of the entities that an operation reaches when it moves a thing: the thing,
what it is put into and what held it before. -/
def aroundMove (w : World) (thing : String) (holder : Holder) : List String :=
  [thing] ++ (w.locationOf? thing).toList ++ (w.ownerOf? thing).toList ++ [holder.name]

/-- What an operation that succeeded made of a world. -/
inductive Effect (s : Surroundings) (op : Operation) (value : Option Value) (w : World) :
    World → Prop
  | direction (hop : op.opcode = .defineDirection) :
    Effect s op value w { w with
      settings := { w.settings with directions := w.settings.directions ++ [op.argument 0] } }
  | directionSynonym (hop : op.opcode = .defineDirectionSynonym) :
    Effect s op value w { w with
      settings := { w.settings with
        directionSynonyms :=
          w.settings.directionSynonyms.insert (op.argument 1) (op.argument 0) } }
  | verbSynonym (hop : op.opcode = .defineVerbSynonym) :
    Effect s op value w { w with
      settings := { w.settings with
        verbSynonyms := w.settings.verbSynonyms.insert (op.argument 1) (op.argument 0) } }
  | settings {settings : Settings}
    (hop : op.subject? = some .game ∧ op.opcode ≠ .loadScript ∨ op.opcode = .setTimerPeriod)
    (h : w.settings.SameWords settings) : Effect s op value w { w with settings }
  | classDefined {type : EntityType} {e : Entity} (hop : op.opcode = .defineEntityClass)
    (htype : EntityType.ofName? (op.argument 1) = some type)
    (he : Entity.fresh? (op.argument 0) type = some e) :
    Effect s op value w { w with
      classes := w.classes.insert (op.argument 0) ⟨e.copyAs (op.argument 0) (op.argument 0), []⟩ }
  | entityDefined {e : Entity} {inherited : List Script} (hop : op.opcode = .defineEntity)
    (hnew : newEntity w op = .ok (e, inherited)) :
    Effect s op value w { w with
      population := w.population.add (withPlural e op.arguments[3]?)
      scripts := inherited.foldl (·.load (.entity (op.argument 0)) ·) w.scripts }
  | entity {name : String} {e e' : Entity}
    (hop : op.subject? = some (.entity name) ∨
      op.opcode = .allocateResource ∧ name = op.argument 0)
    (he : w.entity? name = some e) (hedit : Edit s op value e e') :
    Effect s op value w (w.put name e')
  | prototype {name : String} {p : Prototype} {e' : Entity}
    (hop : op.subject? = some (.entityClass name)) (hp : w.classes[name]? = some p)
    (hedit : Edit s op value p.entity e') :
    Effect s op value w { w with classes := w.classes.insert name { p with entity := e' } }
  | player {e' : Entity} (hop : op.subject? = some .defaultPlayer)
    (hedit : Edit s op value w.defaultPlayer e') :
    Effect s op value w { w with defaultPlayer := e' }
  | script {owner : Subject} {script : Script} (hop : op.opcode = .loadScript)
    (hsubject : op.subject? = some owner) (howner : ∀ name, owner ≠ .entityClass name)
    (hscript : scriptOf s op = .ok script) :
    Effect s op value w { w with scripts := w.scripts.load owner script }
  | classScript {name : String} {p : Prototype} {script : Script} (hop : op.opcode = .loadScript)
    (hsubject : op.subject? = some (.entityClass name)) (hp : w.classes[name]? = some p)
    (hscript : scriptOf s op = .ok script) :
    Effect s op value w { w with
      classes := w.classes.insert name { p with scripts := p.scripts ++ [script] }
      scripts := w.scripts.load (.entityClass name) script }
  | moved {thing : String} {holder : Holder} {w' : World}
    (hop : op.insertion? = some (thing, holder))
    (h : Rearranged (w.aroundMove thing holder) w w') : Effect s op value w w'

section Effects

variable {s : Surroundings} {op : Operation} {value : Option Value} {w w' : World}

/-- **What is done to a subject** is an edit of it, or other settings if it is the game. -/
theorem effect_of_changeSubject {f : Entity → Except Error Entity} {onGame : Change Unit}
    (hf : ∀ e e', f e = .ok e' → Edit s op value e e')
    (hgame : ∀ w', op.subject? = some .game → onGame w = .ok () w' → Effect s op value w w')
    (h : changeSubject op f onGame w = .ok () w') : Effect s op value w w' := by
  unfold changeSubject at h
  cases hsubject : op.subject? with
  | none =>
    rw [hsubject] at h
    cases h
  | some subject =>
    rw [hsubject] at h
    cases subject with
    | entity name =>
      obtain ⟨e, e', he, hchange, rfl⟩ := changeEntity_ok_iff.mp h
      exact .entity (.inl hsubject) he (hf e e' hchange)
    | entityClass name =>
      obtain ⟨p, p', hp, hchange, rfl⟩ := changePrototype_ok_iff.mp h
      obtain ⟨e', he', hp'⟩ := bind_ok_iff.mp hchange
      obtain rfl := pure_ok_iff.mp hp'
      exact .prototype hsubject hp (hf _ e' he')
    | defaultPlayer =>
      cases hplayer : f w.defaultPlayer with
      | error err => simp [changePlayer, hplayer] at h
      | ok e' =>
        simp only [changePlayer, hplayer, EStateM.Result.ok.injEq, true_and] at h
        subst h
        exact .player hsubject (hf _ e' hplayer)
    | game => exact hgame w' hsubject h

/-- What is done to a subject that cannot be the game. -/
theorem effect_of_changeSubjectEntity {f : Entity → Except Error Entity}
    (hf : ∀ e e', f e = .ok e' → Edit s op value e e')
    (h : changeSubjectEntity op f w = .ok () w') : Effect s op value w w' :=
  effect_of_changeSubject hf (fun _ _ hgame => by cases hgame) h

theorem effect_of_setProperty (hop : op.opcode = .setProperty)
    (h : (builder s).setProperty op value w = .ok () w') : Effect s op value w w' := by
  rw [setProperty_eq_changeSubject] at h
  refine effect_of_changeSubject ?_ ?_ h
  · intro e e' he
    exact .property hop (mapError_ok_iff.mp he)
  · intro w' hsubject hgame
    unfold setGameProperty at hgame
    split at hgame
    · next settings hset =>
      obtain rfl := (EStateM.Result.ok.inj hgame).2
      exact .settings (.inl ⟨hsubject, by simp [hop]⟩) (SetterTable.setGame_sameWords hset)
    · cases hgame

/-- Something given to a subject under a name, where the game has its own table for it. -/
theorem effect_of_named {f : Entity → Entity} {onGame : Settings → Settings}
    (hop : op.opcode ≠ .loadScript) (hf : ∀ e, Edit s op value e (f e))
    (hgame : ∀ settings : Settings, settings.SameWords (onGame settings))
    (h : changeSubject op (fun e => pure (f e)) (changeSettings onGame) w = .ok () w') :
    Effect s op value w w' := by
  refine effect_of_changeSubject ?_ ?_ h
  · intro e e' he
    rw [pure_ok_iff.mp he]
    exact hf e
  · intro w' hsubject hsettings
    obtain rfl := (EStateM.Result.ok.inj hsettings).2
    exact .settings (.inl ⟨hsubject, hop⟩) (hgame w.settings)

theorem effect_of_loadScript (hop : op.opcode = .loadScript)
    (h : loadScript s op w = .ok () w') : Effect s op value w w' := by
  unfold loadScript at h
  cases hscript : scriptOf s op with
  | error e =>
    rw [hscript] at h
    cases h
  | ok script =>
    simp only [hscript, pure_bind] at h
    cases hsubject : op.subject? with
    | none =>
      rw [hsubject] at h
      cases h
    | some subject =>
      rw [hsubject] at h
      cases subject with
      | entity name =>
        obtain rfl := (EStateM.Result.ok.inj h).2
        exact .script hop hsubject nofun hscript
      | game =>
        obtain rfl := (EStateM.Result.ok.inj h).2
        exact .script hop hsubject nofun hscript
      | entityClass name =>
        obtain ⟨_, w₁, hchange, h⟩ := run_bind_ok_iff.mp h
        obtain ⟨p, p', hp, hp', rfl⟩ := changePrototype_ok_iff.mp hchange
        obtain rfl := pure_ok_iff.mp hp'
        obtain rfl := (EStateM.Result.ok.inj h).2
        exact .classScript hop hsubject hp hscript
      | defaultPlayer => cases h

theorem effect_of_defineClass (hop : op.opcode = .defineEntityClass)
    (h : defineClass op w = .ok () w') : Effect s op value w w' := by
  unfold defineClass at h
  cases hmade : typeArgument op 1 >>= freshEntity (op.argument 0) with
  | error e => simp [hmade] at h
  | ok e =>
    simp only [hmade, EStateM.Result.ok.injEq, true_and] at h
    subst h
    obtain ⟨type, htype, he⟩ := bind_ok_iff.mp hmade
    exact .classDefined hop (orBreach_ok_iff.mp htype) (orBreach_ok_iff.mp he)

/-- **A new entity is a copy of its class**, with the scripts of the class, or it is fresh and
comes without scripts. -/
theorem newEntity_cases {e : Entity} {inherited : List Script}
    (h : newEntity w op = .ok (e, inherited)) :
    (∃ p, w.classes[op.argument 2]? = some p ∧
      e = p.entity.copyAs (op.argument 0) (op.argument 2) ∧ inherited = p.scripts) ∨
    (w.classes[op.argument 2]? = none ∧ inherited = [] ∧
      ∃ type, EntityType.ofName? (op.argument 1) = some type ∧
        Entity.fresh? (op.argument 0) type = some e) := by
  obtain ⟨type, htype, h⟩ := bind_ok_iff.mp h
  cases hclass : w.classes[op.argument 2]? with
  | some p =>
    simp only [hclass, pure_ok_iff, Prod.mk.injEq] at h
    exact .inl ⟨p, rfl, h⟩
  | none =>
    simp only [hclass, bind_ok_iff, pure_ok_iff, Prod.mk.injEq] at h
    obtain ⟨made, hmade, rfl, hinherited⟩ := h
    exact .inr ⟨rfl, hinherited, type, orBreach_ok_iff.mp htype, orBreach_ok_iff.mp hmade⟩

theorem newEntity_name {e : Entity} {inherited : List Script}
    (h : newEntity w op = .ok (e, inherited)) : e.name = op.argument 0 := by
  rcases newEntity_cases h with ⟨p, -, rfl, -⟩ | ⟨-, -, type, -, hfresh⟩
  · rfl
  · obtain ⟨details, -, rfl⟩ := Option.map_eq_some_iff.mp hfresh
    rfl

theorem effect_of_defineEntity (hop : op.opcode = .defineEntity)
    (h : defineEntity op w = .ok () w') : Effect s op value w w' := by
  unfold defineEntity at h
  cases hnew : newEntity w op with
  | error e => simp [hnew] at h
  | ok made =>
    obtain ⟨e, inherited⟩ := made
    simp only [hnew, EStateM.Result.ok.injEq, true_and] at h
    subst h
    exact .entityDefined hop hnew

theorem effect_of_allocateResource (hop : op.opcode = .allocateResource)
    (h : allocateResource op value w = .ok () w') : Effect s op value w w' := by
  unfold allocateResource at h
  cases hamount : value.bind (·.number?) with
  | none =>
    rw [hamount] at h
    cases h
  | some amount =>
    rw [hamount] at h
    obtain ⟨e, e', he, hchange, rfl⟩ := changeEntity_ok_iff.mp h
    obtain ⟨r, hr, hallocated⟩ := bind_ok_iff.mp hchange
    cases hallocate : r.allocate (op.argument 1) amount with
    | error refusal =>
      rw [hallocate] at hallocated
      cases hallocated
    | ok r' =>
      rw [hallocate] at hallocated
      obtain rfl := pure_ok_iff.mp hallocated
      exact .entity (.inr ⟨hop, rfl⟩) he
        (.allocation hop (orBreach_ok_iff.mp hr) hallocate hamount)

/-- A move changes three entities or four: it takes the thing from where it is, then writes
both halves anew. -/
theorem effect_of_move {thing : String} {holder : Holder} {f g : Entity → Except Error Entity}
    (hop : op.insertion? = some (thing, holder))
    (hf : ∀ e e', f e = .ok e' → e'.bare = e.bare) (hg : ∀ e e', g e = .ok e' → e'.bare = e.bare)
    (h : (do
      detach thing
      changeEntity thing f
      changeEntity holder.name g : Change Unit) w = .ok () w') : Effect s op value w w' := by
  obtain ⟨_, w₁, hdetach, h⟩ := run_bind_ok_iff.mp h
  obtain ⟨_, w₂, hthing, hholder⟩ := run_bind_ok_iff.mp h
  have hall := ((rearranged_detach hdetach).trans (rearranged_changeEntity hf hthing)).trans
    (rearranged_changeEntity hg hholder)
  refine .moved hop (hall.mono ?_)
  intro name hname
  simp only [aroundMove, List.mem_append, List.mem_singleton] at hname ⊢
  tauto

theorem effect_of_insertIntoInventory (hop : op.opcode = .insertIntoInventory)
    (h : insertIntoInventory op w = .ok () w') : Effect s op value w w' := by
  have hmove : op.insertion? = some (op.argument 0, .being (op.argument 1)) := by
    rw [Operation.insertion?, hop]
  refine effect_of_move hmove ?_ ?_ h
  · intro e e' he
    exact Entity.bare_withItem? (orBreach_ok_iff.mp he) fun _ => rfl
  · intro e e' he
    exact Entity.bare_withBeing? (orBreach_ok_iff.mp he) fun _ => rfl

theorem effect_of_insertIntoPlace (hop : op.opcode = .insertIntoPlace)
    (h : insertIntoPlace op w = .ok () w') : Effect s op value w w' := by
  have hmove : op.insertion? = some (op.argument 0, .room (op.argument 1)) := by
    rw [Operation.insertion?, hop]
  refine effect_of_move hmove ?_ ?_ h
  · intro e e' he
    rw [pure_ok_iff.mp he]
    rfl
  · intro e e' he
    exact Entity.bare_withRoom? (orBreach_ok_iff.mp he) fun _ => rfl

/-- **Every change that succeeds is one of these effects.** -/
theorem effect_of_action {action : Operation → Option Value → Change Unit}
    (haction : (builder s).actionFor? op.opcode = some action)
    (h : action op value w = .ok () w') : Effect s op value w w' := by
  cases hop : op.opcode <;> rw [hop] at haction <;> obtain rfl := Option.some.inj haction
  case defineDirection =>
    obtain rfl := (EStateM.Result.ok.inj h).2
    exact .direction hop
  case defineDirectionSynonym =>
    obtain rfl := (EStateM.Result.ok.inj h).2
    exact .directionSynonym hop
  case defineVerbSynonym =>
    obtain rfl := (EStateM.Result.ok.inj h).2
    exact .verbSynonym hop
  case defineEntityClass => exact effect_of_defineClass hop h
  case defineEntity => exact effect_of_defineEntity hop h
  case setProperty => exact effect_of_setProperty hop h
  case setMessage =>
    refine effect_of_named (by simp [hop]) ?_ ?_ h
    · exact fun _ => .message hop
    · exact fun _ => ⟨rfl, rfl, rfl⟩
  case setEvent =>
    refine effect_of_named (by simp [hop]) ?_ ?_ h
    · exact fun _ => .event hop
    · exact fun _ => ⟨rfl, rfl, rfl⟩
  case setMeta =>
    refine effect_of_named (by simp [hop]) ?_ ?_ h
    · exact fun _ => .metadata hop
    · exact fun _ => ⟨rfl, rfl, rfl⟩
  case setTag =>
    refine effect_of_changeSubjectEntity ?_ h
    intro e e' he
    rw [pure_ok_iff.mp he]
    exact .tag hop
  case removeTag =>
    refine effect_of_changeSubjectEntity ?_ h
    intro e e' he
    rw [pure_ok_iff.mp he]
    exact .tag hop
  case setAlias =>
    refine effect_of_changeSubjectEntity ?_ h
    intro e e' he
    rw [pure_ok_iff.mp he]
    exact .called hop
  case setAttribute =>
    change setAttribute op value w = _ at h
    unfold setAttribute at h
    cases hvalue : value.bind (·.integer?) with
    | none =>
      rw [hvalue] at h
      cases h
    | some i =>
      rw [hvalue] at h
      exact effect_of_changeSubjectEntity
        (fun e e' he => .attributed hop (orBreach_ok_iff.mp he)) h
  case connectRooms =>
    exact effect_of_changeSubjectEntity (fun e e' he => .exit hop (orBreach_ok_iff.mp he)) h
  case loadScript => exact effect_of_loadScript hop h
  case insertIntoInventory => exact effect_of_insertIntoInventory hop h
  case insertIntoPlace => exact effect_of_insertIntoPlace hop h
  case allocateResource => exact effect_of_allocateResource hop h
  case setTimerPeriod =>
    change setTimerPeriod op value w = _ at h
    unfold setTimerPeriod at h
    cases hvalue : value.bind (·.integer?) with
    | none =>
      rw [hvalue] at h
      cases h
    | some period =>
      rw [hvalue] at h
      obtain rfl := (EStateM.Result.ok.inj h).2
      exact .settings (.inr hop) ⟨rfl, rfl, rfl⟩

end Effects

end World

/-- **What an operation that succeeds has done**, to the world and to what is declared. -/
theorem Execution.effect_of_execute {s : Surroundings} {v : Vocabulary} {op : Operation}
    {x x' : Execution World} (hx : x.Sound) (h : execute (World.builder s) v op x = .ok () x') :
    x'.Sound ∧ ∃ value, Validation.check v x.declarations op = .ok value ∧
      World.Effect s op value x.state x'.state ∧
      x'.declarations = x.declarations.note op value := by
  obtain ⟨hsound, value, action, hcheck, haction, hok, hdeclarations⟩ := step_of_execute hx h
  exact ⟨hsound, value, hcheck, World.effect_of_action haction hok, hdeclarations⟩

end Adventure
