/-
What an insertion moves.

A thing that is put somewhere is first taken from where it was: its own entry is
cleared, and the entry of its holder too.  Then both halves are written anew.  Each of
these steps changes one entity, perhaps the same one as a step before it, so the effect
is followed not entity by entity but through what the names tell.
-/
import Adventure.Proofs.Consistency
import Adventure.Proofs.Insertions
import Mathlib.Logic.Function.Basic

namespace Adventure

open Function (update)

/-! ### Moves of one entity -/

/-- The second entity is the first, but held and holding as said. -/
structure Entity.Becomes (e e' : Entity) (location owner : Option String)
    (contents inventory : List String) : Prop where
  name : e'.name = e.name
  type : e'.type = e.type
  location : e'.location = location
  owner : e'.owner? = owner
  contents : e'.contents = contents
  inventory : e'.inventory = inventory

namespace World

theorem released_becomes (e : Entity) :
    e.Becomes (released e) none none e.contents e.inventory := by
  cases hd : e.details <;> constructor <;>
    simp [released, Entity.withItem?, Entity.item?, Entity.type, Entity.owner?, Entity.contents,
      Entity.room?, Entity.inventory, Entity.being?, hd, Details.type]

theorem withoutContent_becomes (thing : String) (e : Entity) :
    e.Becomes (withoutContent thing e) e.location e.owner? (e.contents.filter (· ≠ thing))
      e.inventory := by
  cases hd : e.details <;> constructor <;>
    simp [withoutContent, Entity.withRoom?, Entity.item?, Entity.type, Entity.owner?,
      Entity.contents, Entity.room?, Entity.inventory, Entity.being?, hd, Details.type]

theorem withoutPossession_becomes (thing : String) (e : Entity) :
    e.Becomes (withoutPossession thing e) e.location e.owner? e.contents
      (e.inventory.filter (· ≠ thing)) := by
  cases hd : e.details <;> constructor <;>
    simp [withoutPossession, Entity.withBeing?, Entity.item?, Entity.type, Entity.owner?,
      Entity.contents, Entity.room?, Entity.inventory, Entity.being?, hd, Details.type]

theorem located_becomes (e : Entity) (room : String) :
    e.Becomes { e with location := some room } (some room) e.owner? e.contents e.inventory :=
  ⟨rfl, rfl, rfl, rfl, rfl, rfl⟩

theorem owned_becomes {e e' : Entity} {being : String}
    (h : e.withItem? ({ · with owner := some being }) = some e') :
    e.Becomes e' e.location (some being) e.contents e.inventory := by
  cases hd : e.details <;> simp [Entity.withItem?, Entity.item?, hd] at h
  subst h
  constructor <;>
    simp [Entity.type, Entity.owner?, Entity.item?, Entity.contents, Entity.room?,
      Entity.inventory, Entity.being?, hd, Details.type]

theorem withContent_becomes {e e' : Entity} {thing : String}
    (h : e.withRoom? (fun r => { r with contents := r.contents ++ [thing] }) = some e') :
    e.Becomes e' e.location e.owner? (e.contents ++ [thing]) e.inventory := by
  cases hd : e.details <;> simp [Entity.withRoom?, Entity.room?, hd] at h
  subst h
  constructor <;>
    simp [Entity.type, Entity.owner?, Entity.item?, Entity.contents, Entity.room?,
      Entity.inventory, Entity.being?, hd, Details.type]

theorem withPossession_becomes {e e' : Entity} {thing : String}
    (h : e.withBeing? (fun b => { b with inventory := b.inventory ++ [thing] }) = some e') :
    e.Becomes e' e.location e.owner? e.contents (e.inventory ++ [thing]) := by
  cases hd : e.details <;> simp [Entity.withBeing?, hd] at h <;> subst h <;> constructor <;>
    simp [Entity.type, Entity.owner?, Entity.item?, Entity.contents, Entity.room?,
      Entity.inventory, Entity.being?, hd, Details.type]

/-! ### Moves in a world -/

/-- The second world has the entities and classes of the first, but everything is held as
said. -/
structure Becomes (w w' : World) (location owner : String → Option String)
    (contents inventory : String → List String) : Prop where
  names : w'.entities.map (·.name) = w.entities.map (·.name)
  types : w'.typeOf? = w.typeOf?
  classes : w'.classes = w.classes
  player : w'.defaultPlayer = w.defaultPlayer
  location : w'.locationOf? = location
  owner : w'.ownerOf? = owner
  contents : w'.contentsOf = contents
  inventory : w'.inventoryOf = inventory

theorem Becomes.refl (w : World) :
    w.Becomes w w.locationOf? w.ownerOf? w.contentsOf w.inventoryOf :=
  ⟨rfl, rfl, rfl, rfl, rfl, rfl, rfl, rfl⟩

theorem Becomes.trans {w₁ w₂ w₃ : World} {l₂ l₃ o₂ o₃ : String → Option String}
    {c₂ c₃ i₂ i₃ : String → List String} (h : w₁.Becomes w₂ l₂ o₂ c₂ i₂)
    (h' : w₂.Becomes w₃ l₃ o₃ c₃ i₃) : w₁.Becomes w₃ l₃ o₃ c₃ i₃ :=
  ⟨h'.names.trans h.names, h'.types.trans h.types, h'.classes.trans h.classes,
    h'.player.trans h.player, h'.location, h'.owner, h'.contents, h'.inventory⟩

theorem put_becomes {w : World} {name : String} {e e' : Entity} {location owner : Option String}
    {contents inventory : List String} (h : w.entity? name = some e)
    (he : e.Becomes e' location owner contents inventory) :
    w.Becomes (w.put name e') (update w.locationOf? name location) (update w.ownerOf? name owner)
      (update w.contentsOf name contents) (update w.inventoryOf name inventory) := by
  refine ⟨names_put h he.name, ?_, rfl, rfl, ?_, ?_, ?_, ?_⟩
  · exact funext (typeOf?_put h he.name he.type)
  · funext other
    rw [locationOf?_put h he.name, Function.update_apply, he.location]
  · funext other
    rw [ownerOf?_put h he.name, Function.update_apply, he.owner]
  · funext other
    rw [contentsOf_put h he.name, Function.update_apply, he.contents]
  · funext other
    rw [inventoryOf_put h he.name, Function.update_apply, he.inventory]

section Views

variable {w : World} {name : String} {e : Entity}

theorem locationOf?_of_entity? (h : w.entity? name = some e) : w.locationOf? name = e.location := by
  rw [locationOf?, h, Option.bind_some]

theorem ownerOf?_of_entity? (h : w.entity? name = some e) : w.ownerOf? name = e.owner? := by
  rw [ownerOf?, h, Option.bind_some]

theorem contentsOf_of_entity? (h : w.entity? name = some e) : w.contentsOf name = e.contents := by
  rw [contentsOf, h, Option.elim_some]

theorem inventoryOf_of_entity? (h : w.entity? name = some e) :
    w.inventoryOf name = e.inventory := by
  rw [inventoryOf, h, Option.elim_some]

end Views

/-! ### Taking a thing from where it is -/

theorem release_ok {w : World} {thing : String} {e : Entity} (h : w.entity? thing = some e) :
    ∃ w', changeEntity thing (fun e => pure (released e)) w = .ok () w' ∧
      w.Becomes w' (update w.locationOf? thing none) (update w.ownerOf? thing none) w.contentsOf
        w.inventoryOf := by
  refine ⟨_, changeEntity_ok h rfl, ?_⟩
  have hput := put_becomes h (released_becomes e)
  rwa [← contentsOf_of_entity? h, ← inventoryOf_of_entity? h, Function.update_eq_self,
    Function.update_eq_self] at hput

/-- Taking a thing out of its room, if it is in one. -/
theorem takeOut_ok {w : World} (thing : String) {location : Option String}
    (hroom : ∀ room, location = some room → ∃ e, w.entity? room = some e) :
    ∃ w', (match location with
        | some room => changeEntity room fun e => pure (withoutContent thing e)
        | none => pure ()) w = .ok () w' ∧
      w.Becomes w' w.locationOf? w.ownerOf?
        (fun name => if location = some name then (w.contentsOf name).filter (· ≠ thing)
          else w.contentsOf name)
        w.inventoryOf := by
  cases location with
  | none => exact ⟨w, rfl, by simpa using Becomes.refl w⟩
  | some room =>
    obtain ⟨e, he⟩ := hroom room rfl
    refine ⟨_, changeEntity_ok he rfl, ?_⟩
    have hput := put_becomes he (withoutContent_becomes thing e)
    rw [← locationOf?_of_entity? he, ← ownerOf?_of_entity? he, ← inventoryOf_of_entity? he,
      Function.update_eq_self, Function.update_eq_self, Function.update_eq_self] at hput
    refine ⟨hput.names, hput.types, hput.classes, hput.player, hput.location, hput.owner, ?_,
      hput.inventory⟩
    rw [hput.contents]
    funext name
    by_cases hname : name = room
    · simp [hname, contentsOf_of_entity? he]
    · simp [hname, Ne.symm hname]

/-- Taking a thing from its owner, if it has one. -/
theorem takeFrom_ok {w : World} (thing : String) {owner : Option String}
    (hbeing : ∀ being, owner = some being → ∃ e, w.entity? being = some e) :
    ∃ w', (match owner with
        | some being => changeEntity being fun e => pure (withoutPossession thing e)
        | none => pure ()) w = .ok () w' ∧
      w.Becomes w' w.locationOf? w.ownerOf? w.contentsOf
        (fun name => if owner = some name then (w.inventoryOf name).filter (· ≠ thing)
          else w.inventoryOf name) := by
  cases owner with
  | none => exact ⟨w, rfl, by simpa using Becomes.refl w⟩
  | some being =>
    obtain ⟨e, he⟩ := hbeing being rfl
    refine ⟨_, changeEntity_ok he rfl, ?_⟩
    have hput := put_becomes he (withoutPossession_becomes thing e)
    rw [← locationOf?_of_entity? he, ← ownerOf?_of_entity? he, ← contentsOf_of_entity? he,
      Function.update_eq_self, Function.update_eq_self, Function.update_eq_self] at hput
    refine ⟨hput.names, hput.types, hput.classes, hput.player, hput.location, hput.owner,
      hput.contents, ?_⟩
    rw [hput.inventory]
    funext name
    by_cases hname : name = being
    · simp [hname, inventoryOf_of_entity? he]
    · simp [hname, Ne.symm hname]

/-- What rooms hold when a thing was taken out of them. -/
def contentsWithout (w : World) (thing name : String) : List String :=
  if w.locationOf? thing = some name then (w.contentsOf name).filter (· ≠ thing)
  else w.contentsOf name

/-- What beings carry when a thing was taken from them. -/
def inventoryWithout (w : World) (thing name : String) : List String :=
  if w.ownerOf? thing = some name then (w.inventoryOf name).filter (· ≠ thing)
  else w.inventoryOf name

/-- **A thing is taken from where it is**, if whatever holds it is there. -/
theorem detach_ok {w : World} {thing : String} {e : Entity} (h : w.entity? thing = some e)
    (hroom : ∀ room, w.locationOf? thing = some room → ∃ t, w.typeOf? room = some t)
    (hbeing : ∀ being, w.ownerOf? thing = some being → ∃ t, w.typeOf? being = some t) :
    ∃ w', detach thing w = .ok () w' ∧
      w.Becomes w' (update w.locationOf? thing none) (update w.ownerOf? thing none)
        (w.contentsWithout thing) (w.inventoryWithout thing) := by
  obtain ⟨w₁, hrelease, h₁⟩ := release_ok h
  have hexists : ∀ {w' : World} (name : String), w'.typeOf? = w.typeOf? →
      (∃ t, w.typeOf? name = some t) → ∃ e, w'.entity? name = some e := by
    intro w' name htypes ⟨t, ht⟩
    rw [← htypes] at ht
    obtain ⟨e, he, -⟩ := exists_entity ht
    exact ⟨e, he⟩
  obtain ⟨w₂, htakeOut, h₂⟩ := takeOut_ok (w := w₁) thing
    fun room hr => hexists room h₁.types (hroom room hr)
  obtain ⟨w₃, htakeFrom, h₃⟩ := takeFrom_ok (w := w₂) thing
    fun being hb => hexists being (h₂.types.trans h₁.types) (hbeing being hb)
  refine ⟨w₃, ?_, ?_⟩
  · have hget : getEntity thing w = .ok e w := by simp [getEntity, h]
    rw [detach, run_bind_of_ok hget, run_bind_of_ok hrelease]
    rw [locationOf?_of_entity? h] at htakeOut
    rw [ownerOf?_of_entity? h] at htakeFrom
    cases hlocation : e.location with
    | none =>
      rw [hlocation] at htakeOut
      obtain rfl : w₁ = w₂ := by simpa using htakeOut
      exact htakeFrom
    | some room =>
      rw [hlocation] at htakeOut
      exact (run_bind_of_ok htakeOut).trans htakeFrom
  · have hall := (h₁.trans h₂).trans h₃
    refine ⟨hall.names, hall.types, hall.classes, hall.player, ?_, ?_, ?_, ?_⟩
    · rw [h₃.location, h₂.location, h₁.location]
    · rw [h₃.owner, h₂.owner, h₁.owner]
    · rw [h₃.contents, h₂.contents, h₁.contents]
      rfl
    · rw [h₃.inventory, h₂.inventory, h₁.inventory]
      rfl

/-! ### Putting a thing somewhere -/

/-- A thing was moved to a holder, from wherever it was. -/
structure Moved (thing : String) (holder : Holder) (w w' : World) : Prop where
  names : w'.entities.map (·.name) = w.entities.map (·.name)
  types : w'.typeOf? = w.typeOf?
  classes : w'.classes = w.classes
  player : w'.defaultPlayer = w.defaultPlayer
  location : w'.locationOf? = update w.locationOf? thing holder.room?
  owner : w'.ownerOf? = update w.ownerOf? thing holder.being?
  contents : ∀ name, w'.contentsOf name =
    w.contentsWithout thing name ++ if holder = .room name then [thing] else []
  inventory : ∀ name, w'.inventoryOf name =
    w.inventoryWithout thing name ++ if holder = .being name then [thing] else []

variable {d : Declarations} {w : World} {op : Operation}

/-- A checked thing can be taken from where it is. -/
theorem detach_of_consistent (hc : Consistent d w) {thing : String} {t : EntityType}
    (ht : d.entityType? thing = some t) :
    ∃ w', detach thing w = .ok () w' ∧
      w.Becomes w' (update w.locationOf? thing none) (update w.ownerOf? thing none)
        (w.contentsWithout thing) (w.inventoryWithout thing) := by
  rw [← hc.types] at ht
  obtain ⟨e, he, -⟩ := exists_entity ht
  refine detach_ok he ?_ ?_
  · intro room hroom
    obtain ⟨t, ht, -⟩ := hc.located thing room hroom
    exact ⟨t, ht⟩
  · intro being hbeing
    obtain ⟨t, ht, -⟩ := hc.owned thing being hbeing
    exact ⟨t, ht⟩

/-- Once a thing is detached, writing both halves anew completes its move. -/
theorem moved_of_becomes {w₁ : World} {thing : String} {holder : Holder} {e e' p p' : Entity}
    (h₁ : w.Becomes w₁ (update w.locationOf? thing none) (update w.ownerOf? thing none)
      (w.contentsWithout thing) (w.inventoryWithout thing))
    (hthing : w₁.entity? thing = some e)
    (he : e.Becomes e' holder.room? holder.being? e.contents e.inventory)
    (hholder : (w₁.put thing e').entity? holder.name = some p)
    (hp : p.Becomes p' p.location p.owner?
      (p.contents ++ if holder = .room holder.name then [thing] else [])
      (p.inventory ++ if holder = .being holder.name then [thing] else [])) :
    Moved thing holder w ((w₁.put thing e').put holder.name p') := by
  have h₂ := put_becomes hthing he
  rw [← contentsOf_of_entity? hthing, ← inventoryOf_of_entity? hthing, Function.update_eq_self,
    Function.update_eq_self] at h₂
  have h₃ := put_becomes hholder hp
  rw [← locationOf?_of_entity? hholder, ← ownerOf?_of_entity? hholder, Function.update_eq_self,
    Function.update_eq_self] at h₃
  have hall := (h₁.trans h₂).trans h₃
  refine ⟨hall.names, hall.types, hall.classes, hall.player, ?_, ?_, ?_, ?_⟩
  · rw [h₃.location, h₂.location, h₁.location, Function.update_idem]
  · rw [h₃.owner, h₂.owner, h₁.owner, Function.update_idem]
  · intro name
    rw [h₃.contents, ← contentsOf_of_entity? hholder, h₂.contents, h₁.contents,
      Function.update_apply]
    by_cases hname : name = holder.name
    · simp [hname]
    · have hne : holder ≠ .room name := by
        rintro rfl
        exact hname rfl
      simp [hname, hne]
  · intro name
    rw [h₃.inventory, ← inventoryOf_of_entity? hholder, h₂.inventory, h₁.inventory,
      Function.update_apply]
    by_cases hname : name = holder.name
    · simp [hname]
    · have hne : holder ≠ .being name := by
        rintro rfl
        exact hname rfl
      simp [hname, hne]

/-- **A checked insertion into a room moves the thing there.** -/
theorem insertIntoPlace_ok (hc : Consistent d w) {value : Option Value}
    (hcheck : Validation.insertIntoPlace d op = .ok value) :
    ∃ w', insertIntoPlace op w = .ok () w' ∧
      Moved (op.argument 0) (.room (op.argument 1)) w w' := by
  obtain ⟨-, ⟨t, ht, -⟩, ⟨t', ht', hplace⟩, -⟩ := Validation.insertIntoPlace_ok_iff.mp hcheck
  obtain ⟨w₁, hdetach, h₁⟩ := detach_of_consistent hc ht
  rw [← hc.types, ← h₁.types] at ht
  obtain ⟨thing, hthing, -⟩ := exists_entity ht
  have hlocated := located_becomes thing (op.argument 1)
  rw [← hc.types, ← h₁.types, ← (put_becomes hthing hlocated).types] at ht'
  obtain ⟨place, hroom, rfl⟩ := exists_entity ht'
  obtain ⟨place', hplace'⟩ := Entity.exists_withRoom? hplace
    fun r => { r with contents := r.contents ++ [op.argument 0] }
  have howner : thing.owner? = none := by
    rw [← ownerOf?_of_entity? hthing, h₁.owner, Function.update_self]
  rw [howner] at hlocated
  have hput := withContent_becomes hplace'
  refine ⟨_, ?_, moved_of_becomes h₁ hthing hlocated hroom (by simpa [Holder.name] using hput)⟩
  have hset := changeEntity_ok (f := fun e => pure { e with location := some (op.argument 1) })
    hthing rfl
  rw [insertIntoPlace, run_bind_of_ok hdetach, run_bind_of_ok hset]
  exact changeEntity_ok hroom (by simp [orBreach, hplace'])

/-- **A checked insertion into an inventory moves the object there.** -/
theorem insertIntoInventory_ok (hc : Consistent d w) {value : Option Value}
    (hcheck : Validation.insertIntoInventory d op = .ok value) :
    ∃ w', insertIntoInventory op w = .ok () w' ∧
      Moved (op.argument 0) (.being (op.argument 1)) w w' := by
  obtain ⟨-, ⟨t, ht, hobject⟩, ⟨t', ht', hbeing⟩, -⟩ :=
    Validation.insertIntoInventory_ok_iff.mp hcheck
  obtain ⟨w₁, hdetach, h₁⟩ := detach_of_consistent hc ht
  rw [← hc.types, ← h₁.types] at ht
  obtain ⟨object, hfirst, rfl⟩ := exists_entity ht
  obtain ⟨object', hobject'⟩ := Entity.exists_withItem? hobject
    ({ · with owner := some (op.argument 1) })
  have howned := owned_becomes hobject'
  rw [← hc.types, ← h₁.types, ← (put_becomes hfirst howned).types] at ht'
  obtain ⟨being, hsecond, rfl⟩ := exists_entity ht'
  obtain ⟨being', hbeing'⟩ := Entity.exists_withBeing? hbeing
    fun b => { b with inventory := b.inventory ++ [op.argument 0] }
  have hlocation : object.location = none := by
    rw [← locationOf?_of_entity? hfirst, h₁.location, Function.update_self]
  rw [hlocation] at howned
  have hput := withPossession_becomes hbeing'
  refine ⟨_, ?_, moved_of_becomes h₁ hfirst howned hsecond (by simpa [Holder.name] using hput)⟩
  have hset : changeEntity (op.argument 0) (fun e => orBreach
      (e.withItem? ({ · with owner := some (op.argument 1) })) (.notObject (op.argument 0))) w₁ =
      .ok () (w₁.put (op.argument 0) object') :=
    changeEntity_ok hfirst (by simp [orBreach, hobject'])
  rw [insertIntoInventory, run_bind_of_ok hdetach, run_bind_of_ok hset]
  exact changeEntity_ok hsecond (by simp [orBreach, hbeing'])

end World

/-- **A move keeps the agreement of world and declarations**, when a room or a being is what
the thing is moved to. -/
theorem Consistent.of_moved {d : Declarations} {w w' : World} (hc : Consistent d w)
    {thing : String} {holder : Holder} (h : World.Moved thing holder w w')
    (hroom : ∀ room, holder = .room room → ∃ t, d.entityType? room = some t ∧ t.isA .place)
    (hbeing : ∀ being, holder = .being being → ∃ t, d.entityType? being = some t ∧ t.isA .being) :
    Consistent d w' := by
  have hclass : ∀ name, w'.class? name = w.class? name := fun name => by
    rw [World.class?, h.classes, World.class?]
  refine ⟨?_, ?_, ?_, ?_, hc.reserved, ?_, ?_, ?_⟩
  · rw [h.names]
    exact hc.names
  · rw [h.types]
    exact hc.types
  · intro name
    rw [hclass]
    exact hc.classTypes name
  · rw [h.player]
    exact hc.player
  · intro other room hlocation
    rw [h.location, Function.update_apply] at hlocation
    rw [h.types]
    split at hlocation
    · rw [hc.types]
      exact hroom room (Holder.room?_eq_some_iff.mp hlocation)
    · exact hc.located other room hlocation
  · intro other being howner
    rw [h.owner, Function.update_apply] at howner
    rw [h.types]
    split at howner
    · rw [hc.types]
      exact hbeing being (Holder.being?_eq_some_iff.mp howner)
    · exact hc.owned other being howner
  · intro name e he
    rw [hclass] at he
    exact hc.prototypes name e he

end Adventure
