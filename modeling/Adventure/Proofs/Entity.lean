/-
What a change of an entity leaves alone.

Most operations write into an entity without touching what it is called, of which type
it is, where it is held and what it holds.  Such changes are named here once: whatever
is said of the holding of things survives them without a look at the field that was
written.
-/
import Adventure.World.Entity

namespace Adventure

namespace Entity

/-- The being that carries the entity. -/
def owner? (e : Entity) : Option String :=
  e.item?.bind (·.owner)

/-- The names of the things in a room. -/
def contents (e : Entity) : List String :=
  (e.room?.map (·.contents)).getD []

/-- The names of the things that a being carries. -/
def inventory (e : Entity) : List String :=
  (e.being?.map (·.inventory)).getD []

/-! ### The type tells the details -/

theorem exists_room {e : Entity} (h : e.type.isA .place) : ∃ r, e.details = .room r := by
  cases hd : e.details with
  | room r => exact ⟨r, rfl⟩
  | _ => simp [type, hd, Details.type, EntityType.isA, EntityType.above] at h

theorem exists_item {e : Entity} (h : e.type.isA .object) : ∃ i, e.details = .object i := by
  cases hd : e.details with
  | object i => exact ⟨i, rfl⟩
  | _ => simp [type, hd, Details.type, EntityType.isA, EntityType.above] at h

theorem exists_creature {e : Entity} (h : e.type.isA .creature) :
    ∃ c, e.details = .creature c := by
  cases hd : e.details with
  | creature c => exact ⟨c, rfl⟩
  | _ => simp [type, hd, Details.type, EntityType.isA, EntityType.above] at h

theorem exists_resource {e : Entity} (h : e.type.isA .resource) :
    ∃ r, e.details = .resource r := by
  cases hd : e.details with
  | resource r => exact ⟨r, rfl⟩
  | _ => simp [type, hd, Details.type, EntityType.isA, EntityType.above] at h

/-- What is alive is a creature or a player. -/
theorem being_cases {e : Entity} (h : e.type.isA .being) :
    (∃ c, e.details = .creature c) ∨ ∃ b, e.details = .player b := by
  cases hd : e.details with
  | creature c => exact .inl ⟨c, rfl⟩
  | player b => exact .inr ⟨b, rfl⟩
  | _ => simp [type, hd, Details.type, EntityType.isA, EntityType.above] at h

theorem exists_withRoom? {e : Entity} (h : e.type.isA .place) (f : Room → Room) :
    ∃ e', e.withRoom? f = some e' := by
  obtain ⟨r, hd⟩ := exists_room h
  exact ⟨_, by rw [withRoom?, room?, hd]; rfl⟩

theorem exists_withItem? {e : Entity} (h : e.type.isA .object) (f : Item → Item) :
    ∃ e', e.withItem? f = some e' := by
  obtain ⟨i, hd⟩ := exists_item h
  exact ⟨_, by rw [withItem?, item?, hd]; rfl⟩

theorem exists_withBeing? {e : Entity} (h : e.type.isA .being) (f : Being → Being) :
    ∃ e', e.withBeing? f = some e' := by
  rcases being_cases h with ⟨c, hd⟩ | ⟨b, hd⟩
  · exact ⟨_, by rw [withBeing?, hd]⟩
  · exact ⟨_, by rw [withBeing?, hd]⟩

theorem exists_withCreature? {e : Entity} (h : e.type.isA .creature) (f : Creature → Creature) :
    ∃ e', e.withCreature? f = some e' := by
  obtain ⟨c, hd⟩ := exists_creature h
  exact ⟨_, by rw [withCreature?, creature?, hd]; rfl⟩

theorem exists_withResource? {e : Entity} (h : e.type.isA .resource)
    (f : Resource Float → Resource Float) : ∃ e', e.withResource? f = some e' := by
  obtain ⟨r, hd⟩ := exists_resource h
  exact ⟨_, by rw [withResource?, resource?, hd]; rfl⟩

/-! ### Changes that keep everything in its place -/

/-- The second entity is the first after a change of something else than its name, its
type and what is held where. -/
structure Keeps (e e' : Entity) : Prop where
  name : e'.name = e.name
  type : e'.type = e.type
  location : e'.location = e.location
  owner : e'.owner? = e.owner?
  contents : e'.contents = e.contents
  inventory : e'.inventory = e.inventory

namespace Keeps

theorem refl (e : Entity) : e.Keeps e :=
  ⟨rfl, rfl, rfl, rfl, rfl, rfl⟩

theorem trans {e₁ e₂ e₃ : Entity} (h : e₁.Keeps e₂) (h' : e₂.Keeps e₃) : e₁.Keeps e₃ :=
  ⟨h'.name.trans h.name, h'.type.trans h.type, h'.location.trans h.location,
    h'.owner.trans h.owner, h'.contents.trans h.contents, h'.inventory.trans h.inventory⟩

/-- A change that reaches neither the details nor the name and the location. -/
theorem of_details {e e' : Entity} (hname : e'.name = e.name) (hlocation : e'.location = e.location)
    (hdetails : e'.details = e.details) : e.Keeps e' := by
  refine ⟨hname, ?_, hlocation, ?_, ?_, ?_⟩
  · simp [Entity.type, hdetails]
  · simp [owner?, item?, hdetails]
  · simp [Entity.contents, room?, hdetails]
  · simp [Entity.inventory, being?, hdetails]

/-- Details of one sort in which the same is held. -/
inductive HoldAlike : Details → Details → Prop
  | room {r r' : Room} (h : r'.contents = r.contents) : HoldAlike (.room r) (.room r')
  | object {i i' : Item} (h : i'.owner = i.owner) : HoldAlike (.object i) (.object i')
  | creature {c c' : Creature} (h : c'.being.inventory = c.being.inventory) :
    HoldAlike (.creature c) (.creature c')
  | player {b b' : Being} (h : b'.inventory = b.inventory) : HoldAlike (.player b) (.player b')
  | resource {r r' : Resource Float} : HoldAlike (.resource r) (.resource r')

/-- A change of the details that leaves alone what is held. -/
theorem of_alike {e : Entity} {details : Details} (h : HoldAlike e.details details) :
    e.Keeps { e with details } := by
  generalize hd : e.details = before at h
  refine ⟨rfl, ?_, rfl, ?_, ?_, ?_⟩
  · rw [Entity.type, Entity.type, hd]
    cases h <;> rfl
  · cases h <;> simp [owner?, item?, *]
  · cases h <;> simp [Entity.contents, room?, *]
  · cases h <;> simp [Entity.inventory, being?, *]

end Keeps

theorem setTag_keeps (e : Entity) (tag : String) (present : Bool) :
    e.Keeps (e.setTag tag present) :=
  .of_details rfl rfl rfl

theorem withRoom?_keeps {e e' : Entity} {f : Room → Room} (h : e.withRoom? f = some e')
    (hf : ∀ r, (f r).contents = r.contents) : e.Keeps e' := by
  cases hd : e.details <;> simp [withRoom?, room?, hd] at h
  subst h
  exact .of_alike (hd ▸ .room (hf _))

theorem withItem?_keeps {e e' : Entity} {f : Item → Item} (h : e.withItem? f = some e')
    (hf : ∀ i, (f i).owner = i.owner) : e.Keeps e' := by
  cases hd : e.details <;> simp [withItem?, item?, hd] at h
  subst h
  exact .of_alike (hd ▸ .object (hf _))

theorem withBeing?_keeps {e e' : Entity} {f : Being → Being} (h : e.withBeing? f = some e')
    (hf : ∀ b, (f b).inventory = b.inventory) : e.Keeps e' := by
  cases hd : e.details with
  | creature c =>
    simp only [withBeing?, hd, Option.some.injEq] at h
    subst h
    exact .of_alike (hd ▸ .creature (hf _))
  | player b =>
    simp only [withBeing?, hd, Option.some.injEq] at h
    subst h
    exact .of_alike (hd ▸ .player (hf _))
  | _ => simp [withBeing?, hd] at h

theorem withCreature?_keeps {e e' : Entity} {f : Creature → Creature}
    (h : e.withCreature? f = some e') (hf : ∀ c, (f c).being.inventory = c.being.inventory) :
    e.Keeps e' := by
  cases hd : e.details <;> simp [withCreature?, creature?, hd] at h
  subst h
  exact .of_alike (hd ▸ .creature (hf _))

theorem withResource?_keeps {e e' : Entity} {f : Resource Float → Resource Float}
    (h : e.withResource? f = some e') : e.Keeps e' := by
  cases hd : e.details <;> simp [withResource?, resource?, hd] at h
  subst h
  exact .of_alike (hd ▸ .resource)

end Entity

end Adventure
