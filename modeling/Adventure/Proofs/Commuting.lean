/-
Properties are set independently of each other.

About thirty properties are written into an entity: into its texts, into its tags, some of them
negated, and into the records that only some types have.  Each field has a place of its own, and
what is written there leaves the other places alone; the only field that looks at another is the
most health, which fills the health as long as nothing has.  So it matters in which order the
values of one property are set, but not how they are mixed with those of others.

A write is first said as a total function of the entity, one place at a time.  That makes the
order of two writes a question about each place alone.
-/
import Adventure.Proofs.Properties

namespace Adventure

/-! ### Places -/

namespace Field

/-- What stands in a place after a field was written: the new value if it is the field of that
place. -/
def slot {α : Type} (place field : Field) (new old : α) : α :=
  if field = place then new else old

theorem slot_comm {α : Type} {f g : Field} (h : f ≠ g) (place : Field) (new new' old : α) :
    slot place g new' (slot place f new old) = slot place f new (slot place g new' old) := by
  unfold slot
  split
  · rename_i hg
    rw [if_neg (hg ▸ h)]
  · rfl

/-- The tag that tells of a field, and whether it is there for a value. -/
def tag? (field : Field) (v : Value) : Option (String × Bool) :=
  match field with
  | takeable => some (untakeableTag, !v.boolean?.getD false)
  | droppable => some (undroppableTag, !v.boolean?.getD false)
  | weapon => some (weaponTag, v.boolean?.getD false)
  | attackable => some (attackableTag, v.boolean?.getD false)
  | _ => none

/-- No two fields are told by the same tag. -/
theorem tag_ne {f g : Field} (h : f ≠ g) {v w : Value} {tag tag' : String} {present present' : Bool}
    (hf : f.tag? v = some (tag, present)) (hg : g.tag? w = some (tag', present')) : tag ≠ tag' := by
  unfold tag? at hf hg
  split at hf <;> split at hg <;>
    simp only [Option.some.injEq, Prod.mk.injEq, reduceCtorEq] at hf hg <;>
    first
    | exact absurd rfl h
    | exact hf.1 ▸ hg.1 ▸ by decide

end Field

/-- Puts a name into a set or takes it out. -/
def NameSet.mark (names : NameSet) (name : String) (present : Bool) : NameSet :=
  if present then names.insert name else names.erase name

theorem NameSet.mark_comm (names : NameSet) {name other : String} (h : name ≠ other)
    (present present' : Bool) :
    (names.mark name present).mark other present' =
      (names.mark other present').mark name present := by
  refine Std.ExtTreeSet.ext_mem fun k => ?_
  unfold mark
  cases present <;> cases present' <;>
    simp only [Bool.false_eq_true, if_true, if_false, Std.ExtTreeSet.mem_insert,
      Std.ExtTreeSet.mem_erase, Std.LawfulEqOrd.compare_eq_iff_eq] <;> grind

/-! ### What a write makes of each record -/

variable {f g : Field}

open Adventure.Field (slot)

namespace Item

def put (i : Item) (f : Field) (v : Value) : Item :=
  { i with
    weight := slot .weight f (v.integer?.getD 0) i.weight
    damage := slot .damage f (v.integer?.getD 0) i.damage }

theorem put_comm (h : f ≠ g) (i : Item) (v w : Value) :
    (i.put f v).put g w = (i.put g w).put f v := by
  simp only [put, Item.mk.injEq, and_true]
  exact ⟨Field.slot_comm h .., Field.slot_comm h ..⟩

end Item

namespace Resource

def put (r : Resource Float) (f : Field) (v : Value) : Resource Float :=
  { r with
    available := slot .available f v.number? r.available
    maxPerOwner := slot .maxPerOwner f v.number? r.maxPerOwner
    wholeOnly := slot .wholeOnly f (v.boolean?.getD false) r.wholeOnly
    pluralTitle := slot .pluralTitle f v.string? r.pluralTitle }

theorem put_comm (h : f ≠ g) (r : Resource Float) (v w : Value) :
    put (put r f v) g w = put (put r g w) f v := by
  simp only [put, Resource.mk.injEq, and_true]
  exact ⟨Field.slot_comm h .., Field.slot_comm h .., Field.slot_comm h .., Field.slot_comm h ..⟩

end Resource

namespace Being

/-- The health is known as soon as it or the most health was written; before, the most health
fills it. -/
def put (b : Being) (f : Field) (v : Value) : Being :=
  let i := v.integer?.getD 0
  { b with
    alive := slot .alive f (v.boolean?.getD false) b.alive
    health := slot .health f i (slot .maxHealth f (if b.healthKnown then b.health else i) b.health)
    maxHealth := slot .maxHealth f i b.maxHealth
    healthKnown := slot .health f true (slot .maxHealth f true b.healthKnown)
    bareHandDamage := slot .bareHandDamage f i b.bareHandDamage
    woundRate := slot .woundRate f (v.number?.getD 0) b.woundRate
    respawn :=
      { enabled := slot .respawnEnabled f (v.boolean?.getD false) b.respawn.enabled
        interval := slot .respawnInterval f i b.respawn.interval
        lives := slot .respawnLives f i b.respawn.lives }
    inventoryWeight := slot .inventoryWeight f i b.inventoryWeight }

/-- **The health does not depend on whether it or the most health was written first.**  A health
that was written stays, and the first most health fills one that never was. -/
theorem health_comm (h : f ≠ g) (b : Being) (v w : Value) :
    ((b.put f v).put g w).health = ((b.put g w).put f v).health ∧
      ((b.put f v).put g w).healthKnown = ((b.put g w).put f v).healthKnown := by
  by_cases hf : f = .health
  · simp [put, slot, hf, show g ≠ .health from fun hg => h (hf.trans hg.symm)]
  by_cases hg : g = .health
  · simp [put, slot, hf, hg]
  by_cases hf' : f = .maxHealth
  · simp [put, slot, hf', hg, show g ≠ .maxHealth from fun hg => h (hf'.trans hg.symm)]
  · simp [put, slot, hf, hf', hg]

theorem put_comm (h : f ≠ g) (b : Being) (v w : Value) :
    (b.put f v).put g w = (b.put g w).put f v := by
  have hhealth := health_comm h b v w
  simp only [put, Being.mk.injEq, Respawn.mk.injEq, and_true] at hhealth ⊢
  exact ⟨Field.slot_comm h .., hhealth.1, Field.slot_comm h .., hhealth.2,
    Field.slot_comm h .., Field.slot_comm h ..,
    ⟨Field.slot_comm h .., Field.slot_comm h .., Field.slot_comm h ..⟩, Field.slot_comm h ..⟩

end Being

namespace Creature

def put (c : Creature) (f : Field) (v : Value) : Creature :=
  let i := v.integer?.getD 0
  let b := v.boolean?.getD false
  { being := c.being.put f v
    counterAttack := slot .counterAttack f b c.counterAttack
    allegiance :=
      slot .allegiance f ((v.string?.bind Allegiance.ofName?).getD .neutral) c.allegiance
    autoAttack :=
      { enabled := slot .autoAttackEnabled f b c.autoAttack.enabled
        repeated := slot .autoAttackRepeated f b c.autoAttack.repeated
        interval := slot .autoAttackInterval f i c.autoAttack.interval }
    wandering :=
      { enabled := slot .wanderingEnabled f b c.wandering.enabled
        interval := slot .wanderingInterval f i c.wandering.interval
        wanderlust := slot .wanderlust f (v.number?.getD 0) c.wandering.wanderlust } }

theorem put_comm (h : f ≠ g) (c : Creature) (v w : Value) :
    (c.put f v).put g w = (c.put g w).put f v := by
  simp only [put, Creature.mk.injEq, AutoAttack.mk.injEq, Wandering.mk.injEq]
  exact ⟨Being.put_comm h .., Field.slot_comm h .., Field.slot_comm h ..,
    ⟨Field.slot_comm h .., Field.slot_comm h .., Field.slot_comm h ..⟩,
    ⟨Field.slot_comm h .., Field.slot_comm h .., Field.slot_comm h ..⟩⟩

end Creature

namespace Details

def put (d : Details) (f : Field) (v : Value) : Details :=
  match d with
  | room r => room r
  | object i => object (i.put f v)
  | creature c => creature (c.put f v)
  | player b => player (b.put f v)
  | resource r => resource (r.put f v)

theorem put_comm (h : f ≠ g) (d : Details) (v w : Value) :
    (d.put f v).put g w = (d.put g w).put f v := by
  cases d with
  | room r => rfl
  | object i => exact congrArg object (Item.put_comm h i v w)
  | creature c => exact congrArg creature (Creature.put_comm h c v w)
  | player b => exact congrArg player (Being.put_comm h b v w)
  | resource r => exact congrArg resource (Resource.put_comm h r v w)

@[simp] theorem type_put (d : Details) (f : Field) (v : Value) : (d.put f v).type = d.type := by
  cases d <;> rfl

end Details

namespace NameSet

/-- The tags after a field was written. -/
def put (tags : NameSet) (f : Field) (v : Value) : NameSet :=
  match f.tag? v with
  | some (tag, present) => tags.mark tag present
  | none => tags

theorem put_comm (h : f ≠ g) (tags : NameSet) (v w : Value) :
    (tags.put f v).put g w = (tags.put g w).put f v := by
  unfold put
  cases hf : f.tag? v with
  | none => cases g.tag? w <;> rfl
  | some t =>
    cases hg : g.tag? w with
    | none => rfl
    | some u => exact mark_comm tags (Field.tag_ne h hf hg) ..

end NameSet

namespace Entity

/-- The entity after a value was written into a field: each place of a field has the new value if
the field is that of the place. -/
def put (e : Entity) (f : Field) (v : Value) : Entity :=
  { e with
    title := slot .title f v.string? e.title
    longDescription := slot .longDescription f v.string? e.longDescription
    shortDescription := slot .shortDescription f v.string? e.shortDescription
    tags := NameSet.put e.tags f v
    details := e.details.put f v }

/-- **Writes into different fields commute.** -/
theorem put_comm (h : f ≠ g) (e : Entity) (v w : Value) :
    (e.put f v).put g w = (e.put g w).put f v := by
  simp only [put, Entity.mk.injEq, true_and]
  exact ⟨Field.slot_comm h .., Field.slot_comm h .., Field.slot_comm h .., NameSet.put_comm h ..,
    Details.put_comm h ..⟩

@[simp] theorem type_put (e : Entity) (f : Field) (v : Value) : (e.put f v).type = e.type :=
  e.details.type_put f v

end Entity

/-! ### Writing is putting -/

namespace Field

open Setter

/-- Whether the place of a field is in a record that only some types have. -/
def isOwn : Field → Bool
  | title | longDescription | shortDescription | takeable | droppable | weapon | attackable => false
  | _ => true

theorem put_details_shared {field : Field} (h : field.isOwn = false) (d : Details) (v : Value) :
    d.put field v = d := by
  cases field with
  | title | longDescription | shortDescription | takeable | droppable | weapon | attackable =>
    cases d <;> simp [Details.put, Item.put, Resource.put, Being.put, Creature.put, slot]
  | _ => cases h

theorem put_own {field : Field} (h : field.isOwn = true) (e : Entity) (v : Value) :
    e.put field v = { e with details := e.details.put field v } := by
  cases field with
  | title | longDescription | shortDescription | takeable | droppable | weapon | attackable =>
    cases h
  | _ => rfl

/-- What changes the being alone is put into it, be it that of a creature or of a player. -/
theorem onBeing_put {field : Field} {e : Entity} {v : Value} {change : Being → Being}
    (htype : e.type.isA .being) (hown : field.isOwn = true)
    (hbeing : ∀ b : Being, b.put field v = change b)
    (hcreature : ∀ c : Creature, c.put field v = { c with being := c.being.put field v }) :
    onBeing e change = .ok (e.put field v) := by
  rw [put_own hown]
  rcases Entity.being_cases htype with ⟨c, hd⟩ | ⟨b, hd⟩
  · simp only [onBeing, Entity.withBeing?, orLacks, hd, Details.put, hcreature, hbeing]
  · simp only [onBeing, Entity.withBeing?, orLacks, hd, Details.put, hbeing]

theorem onCreature_put {field : Field} {e : Entity} {v : Value} {change : Creature → Creature}
    (htype : e.type.isA .creature) (hown : field.isOwn = true)
    (hcreature : ∀ c : Creature, c.put field v = change c) :
    onCreature e change = .ok (e.put field v) := by
  obtain ⟨c, hd⟩ := Entity.exists_creature htype
  rw [put_own hown]
  simp only [onCreature, Entity.withCreature?, Entity.creature?, orLacks, hd, Option.map_some,
    Details.put, hcreature]

theorem onItem_put {field : Field} {e : Entity} {v : Value} {change : Item → Item}
    (htype : e.type.isA .object) (hown : field.isOwn = true)
    (hitem : ∀ i : Item, i.put field v = change i) : onItem e change = .ok (e.put field v) := by
  obtain ⟨i, hd⟩ := Entity.exists_item htype
  rw [put_own hown]
  simp only [onItem, Entity.withItem?, Entity.item?, orLacks, hd, Option.map_some, Details.put,
    hitem]

theorem onResource_put {field : Field} {e : Entity} {v : Value}
    {change : Resource Float → Resource Float} (htype : e.type.isA .resource)
    (hown : field.isOwn = true) (hresource : ∀ r, Resource.put r field v = change r) :
    onResource e change = .ok (e.put field v) := by
  obtain ⟨r, hd⟩ := Entity.exists_resource htype
  rw [put_own hown]
  simp only [onResource, Entity.withResource?, Entity.resource?, orLacks, hd, Option.map_some,
    Details.put, hresource]

/-- **An accepted value is put into the field, and nothing else happens.** -/
theorem write_eq {field : Field} {e : Entity} {text : String} {v : Value}
    (hread : field.rule.read? text = some v) (htype : e.type.isA field.bringer) :
    field.write e v = .ok (e.put field v) := by
  have hv : v.type = field.rule.valueType := Rule.type_of_read? hread
  cases field with
  | title | longDescription | shortDescription =>
    cases v with
    | string t =>
      rw [Entity.put, put_details_shared rfl]
      rfl
    | _ => cases hv
  | takeable | droppable | weapon | attackable =>
    cases v with
    | boolean b =>
      rw [Entity.put, put_details_shared rfl]
      rfl
    | _ => cases hv
  | available | maxPerOwner =>
    cases v with
    | number x => exact onResource_put htype rfl fun _ => rfl
    | _ => cases hv
  | wholeOnly =>
    cases v with
    | boolean b => exact onResource_put htype rfl fun _ => rfl
    | _ => cases hv
  | pluralTitle =>
    cases v with
    | string t => exact onResource_put htype rfl fun _ => rfl
    | _ => cases hv
  | weight | damage =>
    cases v with
    | integer n => exact onItem_put htype rfl fun _ => rfl
    | _ => cases hv
  | alive | respawnEnabled =>
    cases v with
    | boolean b => exact onBeing_put htype rfl (fun _ => rfl) fun _ => rfl
    | _ => cases hv
  | bareHandDamage | respawnInterval | respawnLives | inventoryWeight =>
    cases v with
    | integer n => exact onBeing_put htype rfl (fun _ => rfl) fun _ => rfl
    | _ => cases hv
  | woundRate =>
    cases v with
    | number x => exact onBeing_put htype rfl (fun _ => rfl) fun _ => rfl
    | _ => cases hv
  | health =>
    obtain ⟨_, hbeing⟩ := onBeing_ok htype id
    cases v with
    | integer n =>
      simp only [write, hbeing, bind, Except.bind]
      exact onBeing_put htype rfl (fun _ => rfl) fun _ => rfl
    | _ => cases hv
  | maxHealth =>
    obtain ⟨_, hbeing⟩ := onBeing_ok htype id
    cases v with
    | integer n =>
      simp only [write, hbeing, bind, Except.bind]
      refine onBeing_put htype rfl (fun b => ?_) fun _ => rfl
      rw [Being.setMaxHealth]
      cases hknown : b.healthKnown <;> simp only [Being.put, hknown] <;> rfl
    | _ => cases hv
  | counterAttack | autoAttackEnabled | autoAttackRepeated | wanderingEnabled =>
    cases v with
    | boolean b => exact onCreature_put htype rfl fun _ => rfl
    | _ => cases hv
  | autoAttackInterval | wanderingInterval =>
    cases v with
    | integer n => exact onCreature_put htype rfl fun _ => rfl
    | _ => cases hv
  | wanderlust =>
    cases v with
    | number x => exact onCreature_put htype rfl fun _ => rfl
    | _ => cases hv
  | allegiance =>
    obtain ⟨a, ha⟩ := allegiance_ok hread
    cases v with
    | string t =>
      have hname : Allegiance.ofName? t = some a := by
        simp only [Setter.allegiance, string, Value.string?, bind, Except.bind] at ha
        split at ha <;> cases ha
        assumption
      simp only [write, ha, bind, Except.bind]
      refine onCreature_put htype rfl fun c => ?_
      rw [Creature.put, Value.string?, Option.bind_some, hname]
      rfl
    | _ => cases hv

/-- No two properties of a type name the same field. -/
theorem of?_injective {type : EntityType} {property other : String} {field : Field}
    (h : of? type property = some field) (hother : of? type other = some field) :
    property = other := by
  have hunique : ∀ t ∈ EntityType.all, ∀ p ∈ properties t, ∀ q ∈ properties t,
      p.2 = q.2 → p.1 = q.1 := by decide
  obtain ⟨t, -, hlookup⟩ := List.exists_of_findSome?_eq_some h
  obtain ⟨u, -, hlookup'⟩ := List.exists_of_findSome?_eq_some hother
  have hmem := NameTable.mem_of_lookup hlookup
  have hmem' := NameTable.mem_of_lookup hlookup'
  rw [← bringer_of_mem_properties hmem', bringer_of_mem_properties hmem] at hmem'
  exact hunique t (EntityType.mem_all t) _ hmem _ hmem' rfl

end Field

/-! ### Writes in any order -/

section Keys

variable {α κ σ : Type} {key : α → κ} {act : σ → α → σ}

/-- An action may as well come before all actions under other keys. -/
theorem act_foldl (hcomm : ∀ s a b, key a ≠ key b → act (act s a) b = act (act s b) a) {a : α}
    {l : List α} (hl : ∀ b ∈ l, key b ≠ key a) (s : σ) :
    act (l.foldl act s) a = l.foldl act (act s a) := by
  induction l generalizing s with
  | nil => rfl
  | cons b l ih =>
    rw [List.foldl_cons, ih (fun c hc => hl c (List.mem_cons_of_mem _ hc)), List.foldl_cons,
      hcomm s b a (hl b List.mem_cons_self)]

/-- Where actions under different keys commute, the outcome depends on the order of the actions
under each key alone. -/
theorem foldl_eq_of_filter_eq [DecidableEq κ]
    (hcomm : ∀ s a b, key a ≠ key b → act (act s a) b = act (act s b) a) {first second : List α}
    (h : ∀ k, first.filter (key · = k) = second.filter (key · = k)) (s : σ) :
    first.foldl act s = second.foldl act s := by
  induction first generalizing second s with
  | nil =>
    cases second with
    | nil => rfl
    | cons b second => simpa using h (key b)
  | cons a first ih =>
    -- the first action of the one list is the first under its key in the other
    have hkey := h (key a)
    rw [List.filter_cons_of_pos (by simp)] at hkey
    obtain ⟨before, after, rfl, hbefore, -, -⟩ := List.filter_eq_cons_iff.mp hkey.symm
    simp only [decide_eq_true_eq] at hbefore
    rw [List.foldl_cons, List.foldl_append, List.foldl_cons, act_foldl hcomm hbefore,
      ← List.foldl_append]
    refine ih (fun k => ?_) (act s a)
    have hk := h k
    by_cases hak : key a = k
    · have hnone : before.filter (key · = k) = [] :=
        List.filter_eq_nil_iff.mpr fun b hb => by simpa [hak] using hbefore b hb
      simpa [hak, hnone] using hk
    · simpa [hak] using hk

end Keys

/-- A value for a property. -/
structure Write where
  property : String
  value : Value
  deriving DecidableEq, Repr

/-- Whether a type has the property, and a text that the checks accept for it stands for the
value. -/
def Write.Accepted (type : EntityType) (w : Write) : Prop :=
  ∃ field text, Field.of? type w.property = some field ∧ field.rule.read? text = some w.value

/-- The entity after a write, unchanged if it has no such property. -/
def Entity.take (e : Entity) (w : Write) : Entity :=
  match Field.of? e.type w.property with
  | some field => e.put field w.value
  | none => e

@[simp] theorem Entity.type_take (e : Entity) (w : Write) : (e.take w).type = e.type := by
  unfold take
  split
  · exact e.type_put ..
  · rfl

theorem Entity.take_comm (e : Entity) (w u : Write) (h : w.property ≠ u.property) :
    (e.take w).take u = (e.take u).take w := by
  have htake : ∀ e' : Entity, e'.type = e.type → ∀ w, e'.take w =
      match Field.of? e.type w.property with
      | some field => e'.put field w.value
      | none => e' := by
    intro e' htype w
    rw [take, htype]
  rw [htake (e.take w) (e.type_take w), htake (e.take u) (e.type_take u), htake e rfl, htake e rfl]
  cases hw : Field.of? e.type w.property with
  | none => cases Field.of? e.type u.property <;> rfl
  | some f =>
    cases hu : Field.of? e.type u.property with
    | none => rfl
    | some g =>
      refine put_comm (fun hfg => h ?_) e ..
      exact Field.of?_injective hw (hfg ▸ hu)

namespace SetterTable

/-- Sets properties one after another. -/
def setAll (t : SetterTable) (e : Entity) (writes : List Write) : Except Setter.Fault Entity :=
  writes.foldlM (fun e w => t.set e w.property w.value) e

theorem set_eq {e : Entity} {w : Write} (h : w.Accepted e.type) :
    standard.set e w.property w.value = .ok (e.take w) := by
  obtain ⟨field, text, hfield, hread⟩ := h
  rw [set, field?_standard, Entity.take, hfield]
  exact Field.write_eq hread (Field.isA_bringer hfield)

theorem setAll_eq {writes : List Write} {e : Entity} (h : ∀ w ∈ writes, w.Accepted e.type) :
    standard.setAll e writes = .ok (writes.foldl Entity.take e) := by
  induction writes generalizing e with
  | nil => rfl
  | cons w writes ih =>
    rw [setAll, List.foldlM_cons, set_eq (h w List.mem_cons_self)]
    refine ih fun u hu => ?_
    rw [Entity.type_take]
    exact h u (List.mem_cons_of_mem _ hu)

/-- **Writes to different properties commute.**  Two lists of accepted writes that give each
property the same values in the same order can both be applied, and they make the same entity of
any entity: an instance, a prototype or the template for players. -/
theorem order_between_properties_is_free {e : Entity} {first second : List Write}
    (hfirst : ∀ w ∈ first, w.Accepted e.type)
    (hsame : ∀ property,
      first.filter (·.property = property) = second.filter (·.property = property)) :
    ∃ e', standard.setAll e first = .ok e' ∧ standard.setAll e second = .ok e' := by
  have hsecond : ∀ w ∈ second, w.Accepted e.type := by
    intro w hw
    have hmem : w ∈ second.filter (·.property = w.property) := by simpa using hw
    rw [← hsame] at hmem
    exact hfirst w (List.mem_of_mem_filter hmem)
  refine ⟨_, setAll_eq hfirst, ?_⟩
  rw [setAll_eq hsecond, foldl_eq_of_filter_eq Entity.take_comm hsame]

/-- The health of a bat may come before or between two values of its most health, of which the
later one counts. -/
theorem health_between_most_health : ∃ e',
    standard.setAll (.ofDetails "bat" (.creature Details.freshCreature))
      [⟨"health", .integer 5⟩, ⟨"maxHealth", .integer 9⟩, ⟨"maxHealth", .integer 7⟩] = .ok e' ∧
    standard.setAll (.ofDetails "bat" (.creature Details.freshCreature))
      [⟨"maxHealth", .integer 9⟩, ⟨"health", .integer 5⟩, ⟨"maxHealth", .integer 7⟩] = .ok e' := by
  refine order_between_properties_is_free ?_ ?_
  · simp only [List.forall_mem_cons, List.not_mem_nil, false_implies, implies_true, and_true]
    exact ⟨⟨.health, "5", by decide, by decide⟩, ⟨.maxHealth, "9", by decide, by decide⟩,
      ⟨.maxHealth, "7", by decide, by decide⟩⟩
  · intro property
    by_cases hhealth : "health" = property
    · subst hhealth
      decide
    · simp [hhealth, List.filter_cons]

end SetterTable

end Adventure
