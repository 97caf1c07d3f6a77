/-
What a change leaves in place.

A world is looked at here through what its names tell: which type an entity has, where
it is, who carries it, what it holds.  A change of one entity changes these answers for
that name alone, and a change that keeps everything in its place changes none of them.

Whether a change succeeds is decided at its subject.  So a change is described by what
comes of it in one world: it succeeds and keeps everything in place, or it fails, for a
reason of a given kind, and has changed nothing.
-/
import Adventure.Proofs.Properties
import Adventure.World.Change
import Mathlib.Data.List.Nodup

namespace Adventure

/-! ### Populations -/

namespace Population

theorem name_of_get? {p : Population} {name : String} {e : Entity} (h : p.get? name = some e) :
    e.name = name := by
  simpa using List.find?_some h

theorem names_replace {name : String} {e : Entity} (hname : e.name = name) (p : Population) :
    (p.replace name e).toList.map (·.name) = p.toList.map (·.name) := by
  have key : ∀ l : List Entity, (replaceIn name e l).map (·.name) = l.map (·.name) := by
    intro l
    induction l with
    | nil => rfl
    | cons old rest ih =>
      by_cases h : old.name = name
      · simp [replaceIn, h, hname]
      · simp [replaceIn, h, ih]
  simp [toList, replace, key]

/-- Every entity is the one that its name means, if no two have one name. -/
theorem get?_of_mem {p : Population} (hnodup : (p.toList.map (·.name)).Nodup) {e : Entity}
    (he : e ∈ p.toList) : p.get? e.name = some e := by
  obtain ⟨l⟩ := p
  simp only [toList, List.map_reverse, List.nodup_reverse, List.mem_reverse] at hnodup he
  unfold get?
  induction l with
  | nil => simp at he
  | cons first rest ih =>
    obtain ⟨hfresh, hrest⟩ := List.nodup_cons.mp hnodup
    rcases List.mem_cons.mp he with rfl | he
    · simp
    · have hne : first.name ≠ e.name := fun h => hfresh (List.mem_map.mpr ⟨e, he, h.symm⟩)
      rw [List.find?_cons_of_neg (by simpa using hne)]
      exact ih hrest he

theorem mem_of_get? {p : Population} {name : String} {e : Entity} (h : p.get? name = some e) :
    e ∈ p.toList := by
  simpa [toList] using List.mem_of_find?_eq_some h

end Population

namespace World

/-! ### What names tell -/

/-- The type of the entity of a name. -/
def typeOf? (w : World) (name : String) : Option EntityType :=
  (w.entity? name).map (·.type)

/-- The room that the entity of a name is in. -/
def locationOf? (w : World) (name : String) : Option String :=
  (w.entity? name).bind (·.location)

/-- The being that carries the entity of a name. -/
def ownerOf? (w : World) (name : String) : Option String :=
  (w.entity? name).bind (·.owner?)

/-- The names of the things in the room of a name. -/
def contentsOf (w : World) (name : String) : List String :=
  (w.entity? name).elim [] (·.contents)

/-- The names of the things that the being of a name carries. -/
def inventoryOf (w : World) (name : String) : List String :=
  (w.entity? name).elim [] (·.inventory)

/-- Whatever is held, it is held alike in both worlds. -/
structure SameHolding (w w' : World) : Prop where
  location : ∀ name, w'.locationOf? name = w.locationOf? name
  owner : ∀ name, w'.ownerOf? name = w.ownerOf? name
  contents : ∀ name, w'.contentsOf name = w.contentsOf name
  inventory : ∀ name, w'.inventoryOf name = w.inventoryOf name

theorem SameHolding.of_entity? {w w' : World} (h : ∀ name, w'.entity? name = w.entity? name) :
    w.SameHolding w' := by
  refine ⟨fun name => ?_, fun name => ?_, fun name => ?_, fun name => ?_⟩
  · rw [locationOf?, h, locationOf?]
  · rw [ownerOf?, h, ownerOf?]
  · rw [contentsOf, h, contentsOf]
  · rw [inventoryOf, h, inventoryOf]

/-- Both worlds have the same entities and classes, each of the same type, and everything
is held alike. -/
structure Keeps (w w' : World) : Prop where
  names : w'.entities.map (·.name) = w.entities.map (·.name)
  types : ∀ name, w'.typeOf? name = w.typeOf? name
  holding : w.SameHolding w'
  classes : ∀ name, Option.Rel Entity.Keeps (w.class? name) (w'.class? name)
  player : w'.defaultPlayer.type = w.defaultPlayer.type

theorem SameHolding.trans {w₁ w₂ w₃ : World} (h : w₁.SameHolding w₂) (h' : w₂.SameHolding w₃) :
    w₁.SameHolding w₃ :=
  ⟨fun n => (h'.location n).trans (h.location n), fun n => (h'.owner n).trans (h.owner n),
    fun n => (h'.contents n).trans (h.contents n), fun n => (h'.inventory n).trans (h.inventory n)⟩

theorem Keeps.trans {w₁ w₂ w₃ : World} (h : w₁.Keeps w₂) (h' : w₂.Keeps w₃) : w₁.Keeps w₃ := by
  refine ⟨h'.names.trans h.names, fun n => (h'.types n).trans (h.types n),
    h.holding.trans h'.holding, fun n => ?_, h'.player.trans h.player⟩
  have hfirst := h.classes n
  have hsecond := h'.classes n
  generalize w₁.class? n = x, w₂.class? n = y, w₃.class? n = z at hfirst hsecond ⊢
  cases hfirst with
  | none => exact hsecond
  | some hk =>
    cases hsecond with
    | some hk' => exact .some (hk.trans hk')

theorem rel_keeps_refl (x : Option Entity) : Option.Rel Entity.Keeps x x := by
  cases x with
  | none => exact .none
  | some e => exact .some (.refl e)

/-- Only the population, the classes and the template for players count. -/
theorem Keeps.of_eq {w w' : World} (hpopulation : w'.population = w.population)
    (hclasses : w'.classes = w.classes) (hplayer : w'.defaultPlayer.type = w.defaultPlayer.type) :
    w.Keeps w' := by
  have hentity : ∀ name, w'.entity? name = w.entity? name := fun name => by
    rw [entity?, hpopulation, entity?]
  refine ⟨by rw [entities, hpopulation, entities], fun name => ?_, .of_entity? hentity,
    fun name => ?_, hplayer⟩
  · rw [typeOf?, hentity, typeOf?]
  · rw [class?, class?, hclasses]
    exact rel_keeps_refl _

/-! ### Putting one entity in the place of another -/

/-- The world with an entity in the place of the one of a name. -/
def put (w : World) (name : String) (e : Entity) : World :=
  { w with population := w.population.replace name e }

section Put

variable {w : World} {name : String} {e e' : Entity}

theorem entity?_put (h : w.entity? name = some e) (hname : e'.name = e.name) (other : String) :
    (w.put name e').entity? other = if other = name then some e' else w.entity? other :=
  Population.get?_replace (hname.trans (Population.name_of_get? h)) h other

theorem names_put (h : w.entity? name = some e) (hname : e'.name = e.name) :
    (w.put name e').entities.map (·.name) = w.entities.map (·.name) :=
  Population.names_replace (hname.trans (Population.name_of_get? h)) w.population

theorem typeOf?_put (h : w.entity? name = some e) (hname : e'.name = e.name)
    (htype : e'.type = e.type) (other : String) :
    (w.put name e').typeOf? other = w.typeOf? other := by
  rw [typeOf?, entity?_put h hname, typeOf?]
  split
  · next hother => simp [hother, h, htype]
  · rfl

theorem locationOf?_put (h : w.entity? name = some e) (hname : e'.name = e.name) (other : String) :
    (w.put name e').locationOf? other =
      if other = name then e'.location else w.locationOf? other := by
  rw [locationOf?, entity?_put h hname]
  split <;> rfl

theorem ownerOf?_put (h : w.entity? name = some e) (hname : e'.name = e.name) (other : String) :
    (w.put name e').ownerOf? other = if other = name then e'.owner? else w.ownerOf? other := by
  rw [ownerOf?, entity?_put h hname]
  split <;> rfl

theorem contentsOf_put (h : w.entity? name = some e) (hname : e'.name = e.name) (other : String) :
    (w.put name e').contentsOf other =
      if other = name then e'.contents else w.contentsOf other := by
  rw [contentsOf, entity?_put h hname]
  split <;> rfl

theorem inventoryOf_put (h : w.entity? name = some e) (hname : e'.name = e.name) (other : String) :
    (w.put name e').inventoryOf other =
      if other = name then e'.inventory else w.inventoryOf other := by
  rw [inventoryOf, entity?_put h hname]
  split <;> rfl

theorem put_keeps (h : w.entity? name = some e) (hk : e.Keeps e') : w.Keeps (w.put name e') := by
  refine ⟨names_put h hk.name, typeOf?_put h hk.name hk.type,
    ⟨fun other => ?_, fun other => ?_, fun other => ?_, fun other => ?_⟩,
    fun _ => rel_keeps_refl _, rfl⟩
  · rw [locationOf?_put h hk.name]
    split
    · next hother => rw [hother, locationOf?, h, Option.bind_some, hk.location]
    · rfl
  · rw [ownerOf?_put h hk.name]
    split
    · next hother => rw [hother, ownerOf?, h, Option.bind_some, hk.owner]
    · rfl
  · rw [contentsOf_put h hk.name]
    split
    · next hother => rw [hother, contentsOf, h, Option.elim_some, hk.contents]
    · rfl
  · rw [inventoryOf_put h hk.name]
    split
    · next hother => rw [hother, inventoryOf, h, Option.elim_some, hk.inventory]
    · rfl

end Put

theorem exists_entity {w : World} {name : String} {t : EntityType} (h : w.typeOf? name = some t) :
    ∃ e, w.entity? name = some e ∧ e.type = t :=
  Option.map_eq_some_iff.mp h

theorem orBreach_ok_iff {α : Type} {x : Option α} {b : Breach} {a : α} :
    orBreach x b = .ok a ↔ x = some a := by
  cases x <;> simp [orBreach]

theorem getEntity_ok_iff {w w' : World} {name : String} {e : Entity} :
    getEntity name w = .ok e w' ↔ w.entity? name = some e ∧ w = w' := by
  unfold getEntity
  cases w.entity? name <;> simp

theorem changeEntity_ok {w : World} {name : String} {e e' : Entity}
    {f : Entity → Except Error Entity} (h : w.entity? name = some e) (hf : f e = .ok e') :
    changeEntity name f w = .ok () (w.put name e') := by
  simp [changeEntity, orBreach, h, hf, bind, Except.bind, put]

/-- A change of an entity that succeeds found one and put the changed one in its place. -/
theorem changeEntity_ok_iff {w w' : World} {name : String} {f : Entity → Except Error Entity} :
    changeEntity name f w = .ok () w' ↔
      ∃ e e', w.entity? name = some e ∧ f e = .ok e' ∧ w' = w.put name e' := by
  constructor
  · intro h
    unfold changeEntity at h
    split at h
    · next e' he' =>
      obtain ⟨e, he, hf⟩ := bind_ok_iff.mp he'
      exact ⟨e, e', orBreach_ok_iff.mp he, hf, (EStateM.Result.ok.inj h).2.symm⟩
    · cases h
  · rintro ⟨e, e', he, hf, rfl⟩
    exact changeEntity_ok he hf

/-! ### What comes of a change -/

/-- A change of an entity keeps everything in its place, or fails for such a reason. -/
def EditComesTo (f : Entity → Except Error Entity) (e : Entity) (reason : Error → Prop) : Prop :=
  (∃ e', f e = .ok e' ∧ e.Keeps e') ∨ ∃ err, f e = .error err ∧ reason err

/-- A change of a world keeps everything in its place, or changes nothing and fails for
such a reason. -/
def ComesTo (m : Change Unit) (w : World) (reason : Error → Prop) : Prop :=
  (∃ w', m w = .ok () w' ∧ w.Keeps w') ∨ ∃ err, m w = .error err w ∧ reason err

/-- A detail that is there is changed. -/
theorem editComesTo_orBreach {f : Entity → Option Entity} {b : Entity → Breach} {e : Entity}
    {reason : Error → Prop} (h : ∃ e', f e = some e') (hk : ∀ e', f e = some e' → e.Keeps e') :
    EditComesTo (fun e => orBreach (f e) (b e)) e reason := by
  obtain ⟨e', he'⟩ := h
  exact .inl ⟨e', by simp [orBreach, he'], hk e' he'⟩

theorem editComesTo_pure {f : Entity → Entity} {e : Entity} {reason : Error → Prop}
    (h : e.Keeps (f e)) : EditComesTo (fun e => pure (f e)) e reason :=
  .inl ⟨f e, rfl, h⟩

theorem changeEntity_comesTo {w : World} {name : String} {e : Entity}
    {f : Entity → Except Error Entity} {reason : Error → Prop} (h : w.entity? name = some e)
    (hf : EditComesTo f e reason) : ComesTo (changeEntity name f) w reason := by
  rcases hf with ⟨e', hok, hkeeps⟩ | ⟨err, herr, hreason⟩
  · exact .inl ⟨_, changeEntity_ok h hok, put_keeps h hkeeps⟩
  · exact .inr ⟨err, by simp [changeEntity, orBreach, h, herr, bind, Except.bind], hreason⟩

/-- A prototype that keeps its place in the table of classes. -/
theorem insert_class_keeps {w : World} {name : String} {p p' : Prototype}
    (h : w.classes[name]? = some p) (hk : p.entity.Keeps p'.entity) :
    w.Keeps { w with classes := w.classes.insert name p' } := by
  refine ⟨rfl, fun _ => rfl, .of_entity? fun _ => rfl, fun other => ?_, rfl⟩
  rw [class?, class?, NameTable.getElem?_insert]
  split
  · next hother =>
    subst hother
    rw [h]
    exact .some hk
  · exact rel_keeps_refl _

theorem changePrototype_ok {w : World} {name : String} {p p' : Prototype}
    {f : Prototype → Except Error Prototype} (h : w.classes[name]? = some p) (hf : f p = .ok p') :
    changePrototype name f w = .ok () { w with classes := w.classes.insert name p' } := by
  simp [changePrototype, orBreach, h, hf, bind, Except.bind]

theorem changePrototype_ok_iff {w w' : World} {name : String}
    {f : Prototype → Except Error Prototype} :
    changePrototype name f w = .ok () w' ↔
      ∃ p p', w.classes[name]? = some p ∧ f p = .ok p' ∧
        w' = { w with classes := w.classes.insert name p' } := by
  constructor
  · intro h
    unfold changePrototype at h
    split at h
    · next p' hp' =>
      obtain ⟨p, hp, hf⟩ := bind_ok_iff.mp hp'
      exact ⟨p, p', orBreach_ok_iff.mp hp, hf, (EStateM.Result.ok.inj h).2.symm⟩
    · cases h
  · rintro ⟨p, p', hp, hf, rfl⟩
    exact changePrototype_ok hp hf

theorem changeClass_comesTo {w : World} {name : String} {e : Entity}
    {f : Entity → Except Error Entity} {reason : Error → Prop} (h : w.class? name = some e)
    (hf : EditComesTo f e reason) : ComesTo (changeClass name f) w reason := by
  obtain ⟨p, hp, rfl⟩ := Option.map_eq_some_iff.mp h
  rcases hf with ⟨e', hok, hkeeps⟩ | ⟨err, herr, hreason⟩
  · have hchange : (fun p : Prototype => do
        let entity ← f p.entity
        pure { p with entity } : Prototype → Except Error Prototype) p =
        .ok { p with entity := e' } := by
      simp [hok]
    exact .inl ⟨_, changePrototype_ok hp hchange, insert_class_keeps hp hkeeps⟩
  · refine .inr ⟨err, ?_, hreason⟩
    simp [changeClass, changePrototype, orBreach, hp, herr, bind, Except.bind]

theorem changePlayer_comesTo {w : World} {f : Entity → Except Error Entity}
    {reason : Error → Prop} (hf : EditComesTo f w.defaultPlayer reason) :
    ComesTo (changePlayer f) w reason := by
  rcases hf with ⟨e', hok, hkeeps⟩ | ⟨err, herr, hreason⟩
  · exact .inl ⟨{ w with defaultPlayer := e' }, by simp [changePlayer, hok],
      .of_eq rfl rfl hkeeps.type⟩
  · exact .inr ⟨err, by simp [changePlayer, herr], hreason⟩

theorem changeSettings_comesTo (f : Settings → Settings) (w : World) (reason : Error → Prop) :
    ComesTo (changeSettings f) w reason :=
  .inl ⟨_, rfl, .of_eq rfl rfl rfl⟩

/-- The entity that is the subject of an operation, if it is not the game. -/
def subjectEntity? (w : World) : Subject → Option Entity
  | .entity name => w.entity? name
  | .entityClass name => w.class? name
  | .defaultPlayer => some w.defaultPlayer
  | .game => none

/-- **What comes of changing a subject is decided by the entity that it is, or by the
change for the game.** -/
theorem changeSubject_comesTo {w : World} {op : Operation} {subject : Subject}
    {f : Entity → Except Error Entity} {onGame : Change Unit} {reason : Error → Prop}
    (hsubject : op.subject? = some subject)
    (hexists : subject ≠ .game → ∃ e, w.subjectEntity? subject = some e)
    (hf : ∀ e, w.subjectEntity? subject = some e → EditComesTo f e reason)
    (hgame : subject = .game → ComesTo onGame w reason) :
    ComesTo (changeSubject op f onGame) w reason := by
  unfold changeSubject
  rw [hsubject]
  cases subject with
  | entity name =>
    obtain ⟨e, he⟩ := hexists nofun
    exact changeEntity_comesTo he (hf e he)
  | entityClass name =>
    obtain ⟨e, he⟩ := hexists nofun
    exact changeClass_comesTo he (hf e he)
  | defaultPlayer => exact changePlayer_comesTo (hf _ rfl)
  | game => exact hgame rfl

end World

end Adventure
