/-
What shows of entities, and what operations make of it.

A portrait of an entity has its name and type, its title and description, its tags, where
it is and where its exits lead; what it holds does not show.  The portraits of a world, in
the order in which the entities were made, are its gallery.  A definition adds a portrait,
and whatever else is said of an entity changes the one portrait of its name, because no
two entities have one name.  So a gallery can be followed without the world behind it:
after a run each portrait shows what was said of its entity, in order.
-/
import Adventure.Proofs.Sessions

namespace Adventure

/-- What shows of an entity. -/
structure Portrait where
  name : String
  type : EntityType
  title : Option String
  longDescription : Option String
  tags : NameSet
  location : Option String
  exits : NameTable String

namespace Entity

/-- The exits of a room; nothing else has any. -/
def exits (e : Entity) : NameTable String :=
  (e.room?.map (·.exits)).getD ∅

/-- What shows of the entity. -/
def portrait (e : Entity) : Portrait :=
  ⟨e.name, e.type, e.title, e.longDescription, e.tags, e.location, e.exits⟩

end Entity

namespace World

/-- What shows of the entities, in the order in which they were made. -/
def gallery (w : World) : List Portrait :=
  w.entities.map (·.portrait)

/-- What shows of the prototype of a class. -/
def classPortrait? (w : World) (name : String) : Option Portrait :=
  (w.class? name).map (·.portrait)

end World

namespace Portrait

/-- What shows of a new entity of a type. -/
def fresh (name : String) (type : EntityType) : Portrait :=
  ⟨name, type, none, none, if type.isA .being then .ofNames [attackableTag] else ∅, none, ∅⟩

/-- What shows of a copy under another name. -/
def copyAs (p : Portrait) (name : String) : Portrait :=
  { p with name }

/-- A change of the portrait of one name. -/
def atName (name : String) (f : Portrait → Portrait) (p : Portrait) : Portrait :=
  if p.name = name then f p else p

variable {name other : String} {f g : Portrait → Portrait} {p : Portrait}

@[simp] theorem name_copyAs (p : Portrait) (name : String) : (p.copyAs name).name = name :=
  rfl

theorem atName_of_name (h : p.name = name) : atName name f p = f p := by
  rw [atName, if_pos h]

theorem atName_of_ne (h : p.name ≠ name) : atName name f p = p := by
  rw [atName, if_neg h]

theorem name_atName (hf : ∀ p, (f p).name = p.name) : (atName name f p).name = p.name := by
  rw [atName]
  split
  · exact hf p
  · rfl

end Portrait

/-! ### What shows of a changed entity -/

namespace Entity

variable {e e' : Entity} {type : EntityType}

theorem portrait_of_fresh {name : String} (h : fresh? name type = some e) :
    e.portrait = .fresh name type := by
  cases type with
  | room | object | creature | player | resource =>
    obtain rfl := Option.some.inj h
    rfl
  | _ => cases h

theorem name_of_fresh {name : String} (h : fresh? name type = some e) : e.name = name := by
  obtain ⟨details, -, rfl⟩ := Option.map_eq_some_iff.mp h
  rfl

/-- Other details of the same type, with the same exits, show nothing new. -/
theorem portrait_of_details {details : Details} (htype : details.type = e.details.type)
    (hexits : ({ e with details } : Entity).exits = e.exits) :
    ({ e with details } : Entity).portrait = e.portrait := by
  rw [portrait, hexits]
  show Portrait.mk e.name details.type _ _ _ _ _ = _
  rw [htype]
  rfl

theorem portrait_withItem? {f : Item → Item} (h : e.withItem? f = some e') :
    e'.portrait = e.portrait := by
  unfold withItem? item? at h
  cases hd : e.details with
  | object item =>
    rw [hd] at h
    obtain rfl := Option.some.inj h
    refine portrait_of_details ?_ ?_
    · rw [hd]
      rfl
    · simp [exits, room?, hd]
  | _ =>
    rw [hd] at h
    cases h

theorem portrait_withBeing? {f : Being → Being} (h : e.withBeing? f = some e') :
    e'.portrait = e.portrait := by
  unfold withBeing? at h
  cases hd : e.details with
  | creature creature =>
    rw [hd] at h
    obtain rfl := Option.some.inj h
    refine portrait_of_details ?_ ?_
    · rw [hd]
      rfl
    · simp [exits, room?, hd]
  | player being =>
    rw [hd] at h
    obtain rfl := Option.some.inj h
    refine portrait_of_details ?_ ?_
    · rw [hd]
      rfl
    · simp [exits, room?, hd]
  | _ =>
    rw [hd] at h
    cases h

/-- A changed room shows its new exits. -/
theorem portrait_withRoom? {f : Room → Room} {g : NameTable String → NameTable String}
    (h : e.withRoom? f = some e') (hf : ∀ r, (f r).exits = g r.exits) :
    e'.portrait = { e.portrait with exits := g e.exits } := by
  unfold withRoom? room? at h
  cases hd : e.details with
  | room room =>
    rw [hd] at h
    obtain rfl := Option.some.inj h
    simp [portrait, exits, room?, type, hd, Details.type, hf]
  | _ =>
    rw [hd] at h
    cases h

end Entity

namespace World

open Portrait (atName)

variable {w w' : World} {name thing place : String} {e e' : Entity} {f : Portrait → Portrait}

theorem portrait_released (e : Entity) :
    (released e).portrait = { e.portrait with location := none } := by
  rw [released]
  dsimp only
  cases h : Entity.withItem? { e with location := none } ({ · with owner := none }) with
  | none => rfl
  | some e' =>
    rw [Option.getD_some, Entity.portrait_withItem? h]
    rfl

theorem portrait_withoutContent (thing : String) (e : Entity) :
    (withoutContent thing e).portrait = e.portrait := by
  rw [withoutContent]
  cases h : e.withRoom? fun r => { r with contents := r.contents.filter (· ≠ thing) } with
  | none => rfl
  | some e' =>
    rw [Option.getD_some, Entity.portrait_withRoom? (g := id) h fun _ => rfl]
    rfl

theorem portrait_withoutPossession (thing : String) (e : Entity) :
    (withoutPossession thing e).portrait = e.portrait := by
  rw [withoutPossession]
  cases h : e.withBeing? fun b => { b with inventory := b.inventory.filter (· ≠ thing) } with
  | none => rfl
  | some e' =>
    rw [Option.getD_some, Entity.portrait_withBeing? h]

/-! ### Changes of one portrait -/

/-- The names of the entities can be read off the gallery. -/
theorem names_gallery (w : World) : w.gallery.map (·.name) = w.entities.map (·.name) := by
  rw [gallery, List.map_map]
  rfl

/-- Every portrait was changed in one way, and the classes are as they were. -/
structure Repaints (f : Portrait → Portrait) (w w' : World) : Prop where
  gallery : w'.gallery = w.gallery.map f
  classes : w'.classes = w.classes

theorem repaints_refl (w : World) : Repaints id w w :=
  ⟨(List.map_id _).symm, rfl⟩

theorem Repaints.trans {g : Portrait → Portrait} {w'' : World} (h : Repaints f w w')
    (h' : Repaints g w' w'') : Repaints (g ∘ f) w w'' :=
  ⟨by rw [h'.gallery, h.gallery, List.map_map], h'.classes.trans h.classes⟩

theorem Repaints.congr {g : Portrait → Portrait} (h : Repaints f w w')
    (hg : ∀ p ∈ w.gallery, f p = g p) : Repaints g w w' :=
  ⟨by rw [h.gallery, List.map_congr_left hg], h.classes⟩

/-- Two changes of one portrait are one. -/
theorem Repaints.atName_trans {g : Portrait → Portrait} {w'' : World}
    (h : Repaints (atName name f) w w') (h' : Repaints (atName name g) w' w'')
    (hf : ∀ p, (f p).name = p.name) : Repaints (atName name (g ∘ f)) w w'' := by
  refine (h.trans h').congr ?_
  intro p _
  show atName name g (atName name f p) = atName name (g ∘ f) p
  by_cases hp : p.name = name
  · rw [Portrait.atName_of_name hp, Portrait.atName_of_name ((hf p).trans hp),
      Portrait.atName_of_name hp, Function.comp_apply]
  · rw [Portrait.atName_of_ne hp, Portrait.atName_of_ne hp, Portrait.atName_of_ne hp]

theorem Repaints.names (h : Repaints f w w') (hf : ∀ p, (f p).name = p.name) :
    w'.gallery.map (·.name) = w.gallery.map (·.name) := by
  rw [h.gallery, List.map_map]
  exact List.map_congr_left fun p _ => hf p

/-- Among entities of different names, the first of a name is the only one. -/
theorem replaceIn_eq_map {l : List Entity} (hnodup : (l.map (·.name)).Nodup) (name : String)
    (e' : Entity) :
    Population.replaceIn name e' l = l.map fun old => if old.name = name then e' else old := by
  induction l with
  | nil => rfl
  | cons first rest ih =>
    obtain ⟨hfresh, hrest⟩ := List.nodup_cons.mp hnodup
    rw [Population.replaceIn, List.map_cons]
    by_cases hname : first.name = name
    · rw [if_pos (by simpa using hname), if_pos hname]
      refine congrArg (e' :: ·) ?_
      refine ((List.map_congr_left ?_).trans (List.map_id rest)).symm
      intro old hold
      refine if_neg ?_
      rintro rfl
      exact hfresh (List.mem_map.mpr ⟨old, hold, hname.symm⟩)
    · rw [if_neg (by simpa using hname), if_neg hname, ih hrest]

/-- **A change of one entity changes the portrait of its name.** -/
theorem repaints_changeEntity {change : Entity → Except Error Entity}
    (hnodup : (w.gallery.map (·.name)).Nodup)
    (hf : ∀ e e', change e = .ok e' → e'.portrait = f e.portrait)
    (h : changeEntity name change w = .ok () w') : Repaints (atName name f) w w' := by
  obtain ⟨e, e', he, hchange, rfl⟩ := changeEntity_ok_iff.mp h
  refine ⟨?_, rfl⟩
  rw [names_gallery] at hnodup
  have hold : ∀ old ∈ w.entities, old.name = name → old = e := by
    rintro old hmem rfl
    exact Option.some.inj ((Population.get?_of_mem hnodup hmem).symm.trans he)
  have hnewest : (w.population.newestFirst.map (·.name)).Nodup := by
    rw [entities, Population.toList, List.map_reverse] at hnodup
    exact List.nodup_reverse.mp hnodup
  have hentities : (w.put name e').entities =
      w.entities.map fun old => if old.name = name then e' else old := by
    rw [entities, put, Population.toList, Population.replace, replaceIn_eq_map hnewest,
      ← List.map_reverse]
    rfl
  show (w.put name e').entities.map _ = (w.entities.map _).map _
  rw [hentities, List.map_map, List.map_map]
  refine List.map_congr_left ?_
  intro old hmem
  show (if old.name = name then e' else old).portrait = atName name f old.portrait
  by_cases hname : old.name = name
  · obtain rfl := hold old hmem hname
    rw [if_pos hname, Portrait.atName_of_name hname, hf _ _ hchange]
  · rw [if_neg hname, Portrait.atName_of_ne hname]

/-- A change that does not show. -/
theorem repaints_unseen {change : Entity → Except Error Entity}
    (hnodup : (w.gallery.map (·.name)).Nodup)
    (hf : ∀ e e', change e = .ok e' → e'.portrait = e.portrait)
    (h : changeEntity name change w = .ok () w') : Repaints id w w' := by
  refine (repaints_changeEntity (f := id) hnodup hf h).congr ?_
  intro p _
  rw [atName, id]
  exact ite_self _

/-- What is taken from where it is shows no place any more. -/
theorem repaints_detach (hnodup : (w.gallery.map (·.name)).Nodup)
    (h : detach thing w = .ok () w') :
    Repaints (atName thing ({ · with location := none })) w w' := by
  have hname : ∀ p : Portrait, (atName thing ({ · with location := none }) p).name = p.name :=
    fun p => Portrait.name_atName fun _ => rfl
  unfold detach at h
  obtain ⟨e, w₀, hget, h⟩ := run_bind_ok_iff.mp h
  obtain ⟨-, rfl⟩ := getEntity_ok_iff.mp hget
  obtain ⟨_, w₁, hrelease, h⟩ := run_bind_ok_iff.mp h
  have h₁ : Repaints (atName thing ({ · with location := none })) w w₁ :=
    repaints_changeEntity hnodup
      (fun e e' he => by rw [pure_ok_iff.mp he]; exact portrait_released e) hrelease
  have hnodup₁ : (w₁.gallery.map (·.name)).Nodup := by rwa [h₁.names hname]
  -- taking it from its holders does not show
  have htakeFrom : ∀ w₂, (w₂.gallery.map (·.name)).Nodup → ∀ owner, (match owner with
      | some being => changeEntity being fun e => pure (withoutPossession thing e)
      | none => pure ()) w₂ = .ok () w' → Repaints id w₂ w' := by
    intro w₂ hnodup₂ owner h₃
    cases owner with
    | none =>
      obtain rfl := (EStateM.Result.ok.inj h₃).2
      exact repaints_refl w₂
    | some being =>
      refine repaints_unseen hnodup₂ ?_ h₃
      intro e e' he
      rw [pure_ok_iff.mp he]
      exact portrait_withoutPossession thing e
  cases hlocation : e.location with
  | none =>
    rw [hlocation] at h
    exact h₁.trans (htakeFrom w₁ hnodup₁ _ h)
  | some room =>
    rw [hlocation] at h
    obtain ⟨_, w₂, htakeOut, h⟩ := run_bind_ok_iff.mp h
    have h₂ : Repaints id w₁ w₂ := by
      refine repaints_unseen hnodup₁ ?_ htakeOut
      intro e e' he
      rw [pure_ok_iff.mp he]
      exact portrait_withoutContent thing e
    have hnodup₂ : (w₂.gallery.map (·.name)).Nodup := by rwa [h₂.names fun _ => rfl]
    exact h₁.trans (h₂.trans (htakeFrom w₂ hnodup₂ _ h))

/-- **What is put into a room shows the room as its place.** -/
theorem repaints_insertIntoPlace {line : Nat} (hnodup : (w.gallery.map (·.name)).Nodup)
    (h : insertIntoPlace (.insertIntoPlace thing place line) w = .ok () w') :
    Repaints (atName thing ({ · with location := some place })) w w' := by
  have hname : ∀ location (p : Portrait),
      (atName thing ({ · with location := location }) p).name = p.name :=
    fun _ p => Portrait.name_atName fun _ => rfl
  obtain ⟨_, w₁, hdetach, h⟩ := run_bind_ok_iff.mp h
  have h₁ : Repaints (atName thing ({ · with location := none })) w w₁ :=
    repaints_detach hnodup hdetach
  have hnodup₁ : (w₁.gallery.map (·.name)).Nodup := by rwa [h₁.names (hname none)]
  obtain ⟨_, w₂, hset, h⟩ := run_bind_ok_iff.mp h
  have h₂ : Repaints (atName thing ({ · with location := some place })) w₁ w₂ :=
    repaints_changeEntity hnodup₁ (fun e e' he => by rw [pure_ok_iff.mp he]; rfl) hset
  have hnodup₂ : (w₂.gallery.map (·.name)).Nodup := by rwa [h₂.names (hname (some place))]
  have h₃ : Repaints id w₂ w' := by
    refine repaints_unseen hnodup₂ ?_ h
    intro e e' he
    rw [orBreach_ok_iff] at he
    rw [Entity.portrait_withRoom? (g := id) he fun _ => rfl]
    rfl
  exact (h₁.atName_trans h₂ fun _ => rfl).trans h₃

end World

end Adventure
