/-
What operations say of entities and of classes.

A trait is one thing that an operation can say of an entity, and giving a portrait the
trait is all that the operation comes to in the gallery.  A definition of an entity hangs a
portrait that looks like the prototype of its class, or like new if the class is a type;
the prototypes are told of in the same way, by operations that act on classes.  Of each
operation it is said here, once, what it does to the portraits if it succeeds, and by
induction over a run what a list of sayings does.
-/
import Adventure.Proofs.Portraits

namespace Adventure

/-- Something that an operation says of an entity. -/
inductive Trait where
  | titled (text : String)
  | described (text : String)
  | tagged (tag : String) (present : Bool)
  | placed (room : String)
  | leading (direction room : String)
  deriving DecidableEq, Repr

namespace Trait

/-- The operation that says it of the entity of a name. -/
def operation (name : String) (line : Nat) : Trait → Operation
  | titled text => .setProperty (.entity name) "title" text line
  | described text => .setProperty (.entity name) "longDesc" text line
  | tagged tag true => .setTag (.entity name) tag line
  | tagged tag false => .removeTag (.entity name) tag line
  | placed room => .insertIntoPlace name room line
  | leading direction room => .connectRooms (.entity name) direction room line

/-- A portrait with the trait. -/
def give (t : Trait) (p : Portrait) : Portrait :=
  match t with
  | titled text => { p with title := some text }
  | described text => { p with longDescription := some text }
  | tagged tag present =>
    { p with tags := if present then p.tags.insert tag else p.tags.erase tag }
  | placed room => { p with location := some room }
  | leading direction room => { p with exits := p.exits.insert direction room }

/-- Where an exit leads is said by a direction of the vocabulary. -/
def Directed (v : Vocabulary) : Trait → Prop
  | leading direction _ => v.isDirection direction = true
  | _ => True

/-- A portrait with several traits; what is said later counts. -/
def giveAll (traits : List (Trait × Nat)) (p : Portrait) : Portrait :=
  traits.foldl (fun p t => t.1.give p) p

@[simp] theorem name_give (t : Trait) (p : Portrait) : (t.give p).name = p.name := by
  cases t <;> rfl

theorem name_giveAll (traits : List (Trait × Nat)) (p : Portrait) :
    (giveAll traits p).name = p.name := by
  induction traits generalizing p with
  | nil => rfl
  | cons t rest ih => exact (ih _).trans (t.1.name_give p)

theorem giveAll_append (traits more : List (Trait × Nat)) (p : Portrait) :
    giveAll (traits ++ more) p = giveAll more (giveAll traits p) :=
  List.foldl_append

theorem foldl_give_tagged (tags : List String) (p : Portrait) :
    tags.foldl (fun p tag => (tagged tag true).give p) p =
      { p with tags := tags.foldl (·.insert ·) p.tags } := by
  induction tags generalizing p with
  | nil => rfl
  | cons tag rest ih => exact ih _

end Trait

namespace World

open Portrait (atName)

variable {s : Surroundings} {w w' : World} {name : String} {line : Nat}
variable {opcode : Opcode} {payload : List String} {f : Portrait → Portrait}

/-! ### Changes by name -/

theorem changeSubject_entity (h : opcode.targets ≠ []) (change : Entity → Except Error Entity)
    (onGame : Change Unit) :
    changeSubject (.acting opcode (.entity name) payload line) change onGame =
      changeEntity name change := by
  rw [changeSubject, Operation.subject?_acting h]

theorem changeSubject_entityClass (h : opcode.targets ≠ []) (change : Entity → Except Error Entity)
    (onGame : Change Unit) :
    changeSubject (.acting opcode (.entityClass name) payload line) change onGame =
      changeClass name change := by
  rw [changeSubject, Operation.subject?_acting h]

/-- A tag is put on an entity or taken off. -/
theorem repaints_setTag {tag : String} {present : Bool} (hnodup : (w.gallery.map (·.name)).Nodup)
    (hopcode : opcode.targets ≠ [])
    (h : setTag (.acting opcode (.entity name) [tag] line) present w = .ok () w') :
    Repaints (atName name (Trait.tagged tag present).give) w w' := by
  rw [setTag, changeSubjectEntity, changeSubject_entity hopcode] at h
  refine repaints_changeEntity hnodup ?_ h
  intro e e' he
  rw [pure_ok_iff.mp he, Operation.payloadAt_acting hopcode]
  rfl

/-- A text is set as the title or the description of an entity. -/
theorem repaints_setText (hs : s.setters = .standard) {property text : String} {field : Field}
    (hnodup : (w.gallery.map (·.name)).Nodup)
    (hfield : ∀ type, Field.of? type property = some field)
    (hf : ∀ e e', field.write e (.string text) = .ok e' → e'.portrait = f e.portrait)
    (h : (builder s).setProperty (.setProperty (.entity name) property text line)
      (some (.string text)) w = .ok () w') : Repaints (atName name f) w w' := by
  have hopcode : Opcode.setProperty.targets ≠ [] := nofun
  rw [setProperty_eq_changeSubject, Operation.setProperty, changeSubject_entity hopcode,
    Operation.payloadAt_acting hopcode] at h
  refine repaints_changeEntity hnodup ?_ h
  intro e e' he
  have hset : s.setters.set e property (.string text) = .ok e' := mapError_ok_iff.mp he
  rw [hs, SetterTable.set, SetterTable.field?_standard, hfield] at hset
  exact hf e e' hset

/-- A room shows its new exit. -/
theorem repaints_connectRooms {direction word room : String}
    (hnodup : (w.gallery.map (·.name)).Nodup)
    (h : connectRooms (.connectRooms (.entity name) word room line) (some (.string direction)) w =
      .ok () w') : Repaints (atName name (Trait.leading direction room).give) w w' := by
  have hopcode : Opcode.connectRooms.targets ≠ [] := nofun
  rw [connectRooms, changeSubjectEntity, Operation.connectRooms, changeSubject_entity hopcode] at h
  refine repaints_changeEntity hnodup ?_ h
  intro e e' he
  simp only [orBreach_ok_iff, Operation.payloadAt_acting hopcode] at he
  exact Entity.portrait_withRoom? (g := (·.insert direction room)) he fun _ => rfl

/-! ### Definitions -/

/-- A new entity looks like its class, or like new if it has none. -/
theorem gallery_defineEntity {type : EntityType} {className : String}
    (h : defineEntity (.defineEntity name type className none line) w = .ok () w') :
    w'.gallery = w.gallery ++
        [((w.classPortrait? className).getD (.fresh name type)).copyAs name] ∧
      w'.classes = w.classes := by
  unfold defineEntity at h
  split at h
  · exact absurd h nofun
  · next e inherited hnew =>
    obtain rfl := (EStateM.Result.ok.inj h).2
    refine ⟨?_, rfl⟩
    have he : e.portrait = ((w.classPortrait? className).getD (.fresh name type)).copyAs name := by
      unfold newEntity at hnew
      obtain ⟨t, ht, hmade⟩ := bind_ok_iff.mp hnew
      obtain rfl : type = t := by
        rw [typeArgument, orBreach_ok_iff] at ht
        exact Option.some.inj ((EntityType.ofName?_name type).symm.trans ht)
      rw [classPortrait?, class?]
      cases hclass : w.classes[className]? with
      | some p =>
        have hmade : e = p.entity.copyAs name className ∧ inherited = p.scripts := by
          simpa [Operation.defineEntity, Operation.argument, hclass] using hmade
        rw [hmade.1]
        rfl
      | none =>
        have hmade : freshEntity name type = .ok e ∧ inherited = [] := by
          simpa [Operation.defineEntity, Operation.argument, hclass] using hmade
        rw [freshEntity, orBreach_ok_iff] at hmade
        rw [Entity.portrait_of_fresh hmade.1]
        rfl
    show (w.population.add _).toList.map _ = _
    rw [Population.toList_add, List.map_append, List.map_singleton]
    exact congrArg (w.gallery ++ [·]) he

theorem classPortrait?_insert (w : World) (name : String) (p : Prototype) (other : String) :
    ({ w with classes := w.classes.insert name p } : World).classPortrait? other =
      if name = other then some p.entity.portrait else w.classPortrait? other := by
  rw [classPortrait?, class?, NameTable.getElem?_insert]
  split <;> rfl

/-- A new class looks like new; the others and the entities are as they were. -/
theorem classPortrait?_defineClass {type : EntityType}
    (h : defineClass (.defineEntityClass name type line) w = .ok () w') :
    w'.gallery = w.gallery ∧ ∀ other, w'.classPortrait? other =
      if name = other then some (.fresh name type) else w.classPortrait? other := by
  unfold defineClass at h
  dsimp only at h
  split at h
  · exact absurd h nofun
  · next e hmade =>
    obtain rfl := (EStateM.Result.ok.inj h).2
    refine ⟨rfl, ?_⟩
    have hmade : freshEntity name type = .ok e := by
      obtain ⟨t, ht, hmade⟩ := bind_ok_iff.mp hmade
      rw [typeArgument, orBreach_ok_iff] at ht
      obtain rfl := Option.some.inj ((EntityType.ofName?_name type).symm.trans ht)
      exact hmade
    rw [freshEntity, orBreach_ok_iff] at hmade
    have hcopy : (e.copyAs name name).portrait = .fresh name type := by
      rw [← Entity.portrait_of_fresh hmade, ← Entity.name_of_fresh hmade]
      rfl
    intro other
    rw [← hcopy]
    exact classPortrait?_insert w name ⟨e.copyAs name name, []⟩ other

/-- A tag on a class shows on its prototype only. -/
theorem classPortrait?_setTag {tag : String}
    (h : setTag (.setTag (.entityClass name) tag line) true w = .ok () w') :
    w'.gallery = w.gallery ∧ ∀ other, w'.classPortrait? other =
      (w.classPortrait? other).map
        fun p => if name = other then (Trait.tagged tag true).give p else p := by
  have hopcode : Opcode.setTag.targets ≠ [] := by decide
  rw [setTag, changeSubjectEntity, Operation.setTag, changeSubject_entityClass hopcode,
    changeClass] at h
  obtain ⟨p, p', hp, hchange, rfl⟩ := changePrototype_ok_iff.mp h
  obtain ⟨e', he', hp'⟩ := bind_ok_iff.mp hchange
  obtain rfl := pure_ok_iff.mp hp'
  obtain rfl := pure_ok_iff.mp he'
  refine ⟨rfl, ?_⟩
  intro other
  rw [classPortrait?_insert]
  by_cases hother : name = other
  · subst hother
    simp only [Operation.payloadAt_acting hopcode, if_true, classPortrait?, class?, hp]
    rfl
  · simp [hother]

end World

/-! ### Runs -/

namespace Execution

open World (Repaints)
open Portrait (atName)

variable {s : Surroundings} {v : Vocabulary} {x x' : Execution World} {op : Operation}
variable {name : String} {line : Nat}

theorem Sound.names_nodup (hx : x.Sound) : (x.state.gallery.map (·.name)).Nodup := by
  rw [World.names_gallery]
  exact hx.consistent.names

/-- The check of a text finds the text. -/
theorem value_of_setText {d : Declarations} {value : Option Value} {property text : String}
    {field : Field} (hfield : ∀ type, Field.of? type property = some field)
    (hrule : field.rule = .text)
    (h : Validation.setProperty d (.setProperty (.entity name) property text line) = .ok value) :
    value = some (.string text) := by
  have hopcode : Opcode.setProperty.targets ≠ [] := nofun
  obtain ⟨type, hsubject, rule, hproperty, given, hread, rfl⟩ := Validation.setProperty_ok_iff.mp h
  obtain ⟨-, t, -, rfl⟩ :=
    (Validation.checkSubject_ok_iff (Operation.subject?_acting hopcode)).mp hsubject
  rw [Operation.setProperty, Operation.payloadAt_acting hopcode] at hproperty hread
  obtain ⟨found, hfound, rfl⟩ := World.propertyRule_entity_iff.mp hproperty
  obtain rfl := Option.some.inj (hfound.symm.trans (hfield t))
  rw [hrule] at hread
  rw [← Option.some.inj hread]
  rfl

/-- **What is said of an entity gives its portrait the trait**, and no other. -/
theorem repaints_trait (hs : s.setters = .standard) (hx : x.Sound) {t : Trait}
    (ht : t.Directed v) (h : execute (World.builder s) v (t.operation name line) x = .ok () x') :
    x'.Sound ∧ Repaints (atName name t.give) x.state x'.state := by
  obtain ⟨hsound, value, action, hcheck, haction, hok, -⟩ := step_of_execute hx h
  refine ⟨hsound, ?_⟩
  have hnodup := hx.names_nodup
  cases t with
  | titled text =>
    obtain rfl := Option.some.inj haction
    obtain rfl := value_of_setText Field.of?_title rfl hcheck
    refine World.repaints_setText hs hnodup Field.of?_title ?_ hok
    intro e e' he
    obtain rfl := Except.ok.inj he
    rfl
  | described text =>
    obtain rfl := Option.some.inj haction
    obtain rfl := value_of_setText Field.of?_longDesc rfl hcheck
    refine World.repaints_setText hs hnodup Field.of?_longDesc ?_ hok
    intro e e' he
    obtain rfl := Except.ok.inj he
    rfl
  | tagged tag present =>
    cases present with
    | true =>
      obtain rfl := Option.some.inj haction
      have hopcode : Opcode.setTag.targets ≠ [] := by decide
      exact World.repaints_setTag hnodup hopcode hok
    | false =>
      obtain rfl := Option.some.inj haction
      have hopcode : Opcode.removeTag.targets ≠ [] := nofun
      exact World.repaints_setTag hnodup hopcode hok
  | placed room =>
    obtain rfl := Option.some.inj haction
    exact World.repaints_insertIntoPlace hnodup hok
  | leading direction room =>
    obtain rfl := Option.some.inj haction
    obtain ⟨-, word, hword, -, rfl⟩ := Validation.connectRooms_ok_iff.mp hcheck
    -- a direction of the vocabulary means itself
    have hsame : word = direction := by
      have hdirection : v.directions.contains direction = true := ht
      have hargument : (Operation.connectRooms (.entity name) direction room line).argument 2 =
        direction := rfl
      rw [Trait.operation, hargument, Declarations.resolveDirection, Vocabulary.resolveDirection,
        hdirection] at hword
      split at hword
      · exact (Option.some.inj hword).symm
      · exact (Option.some.inj hword).symm
    rw [hsame] at hok
    exact World.repaints_connectRooms hnodup hok

/-- **All that is said of one entity is given to its portrait**, in order. -/
theorem repaints_traits (hs : s.setters = .standard) (hx : x.Sound) {traits : List (Trait × Nat)}
    (ht : ∀ t ∈ traits, t.1.Directed v)
    (h : (traits.map fun t => t.1.operation name t.2).forM (execute (World.builder s) v) x =
      .ok () x') :
    x'.Sound ∧ Repaints (atName name (Trait.giveAll traits)) x.state x'.state := by
  induction traits generalizing x with
  | nil =>
    obtain rfl := (EStateM.Result.ok.inj h).2
    refine ⟨hx, (World.repaints_refl x.state).congr ?_⟩
    intro p _
    exact (ite_self p).symm
  | cons t rest ih =>
    rw [List.map_cons, run_forM_cons] at h
    obtain ⟨_, y, hfirst, hrest⟩ := run_bind_ok_iff.mp h
    obtain ⟨hy, hgiven⟩ := repaints_trait hs hx (ht t (List.mem_cons_self ..)) hfirst
    obtain ⟨hx', hmore⟩ := ih hy (fun u hu => ht u (List.mem_cons_of_mem _ hu)) hrest
    exact ⟨hx', hgiven.atName_trans hmore t.1.name_give⟩

/-! ### Definitions and what is said of them at once -/

/-- **A definition and what is said of the new entity at once** add one portrait. -/
theorem gallery_defined (hs : s.setters = .standard) (hx : x.Sound) {type : EntityType}
    {className : String} {traits : List (Trait × Nat)} (ht : ∀ t ∈ traits, t.1.Directed v)
    (h : (Operation.defineEntity name type className none line ::
      traits.map fun t => t.1.operation name t.2).forM (execute (World.builder s) v) x =
        .ok () x') :
    x'.Sound ∧ x'.state.classes = x.state.classes ∧
      x'.state.gallery = x.state.gallery ++ [Trait.giveAll traits
        (((x.state.classPortrait? className).getD (.fresh name type)).copyAs name)] := by
  rw [run_forM_cons] at h
  obtain ⟨_, y, hdefine, hrest⟩ := run_bind_ok_iff.mp h
  obtain ⟨hy, value, action, -, haction, hok, -⟩ := step_of_execute hx hdefine
  obtain rfl := Option.some.inj haction
  obtain ⟨hgallery, hclasses⟩ := World.gallery_defineEntity hok
  obtain ⟨hx', hgiven⟩ := repaints_traits hs hy ht hrest
  refine ⟨hx', hgiven.classes.trans hclasses, ?_⟩
  -- no older entity has the name
  have hnodup := hy.names_nodup
  rw [hgallery, List.map_append, List.map_singleton, List.nodup_append] at hnodup
  have hold : ∀ p ∈ x.state.gallery, atName name (Trait.giveAll traits) p = p := by
    intro p hp
    exact Portrait.atName_of_ne (hnodup.2.2 _ (List.mem_map_of_mem hp) _ (List.mem_singleton_self _))
  rw [hgiven.gallery, hgallery, List.map_append, List.map_congr_left hold, List.map_id',
    List.map_singleton, Portrait.atName_of_name (Portrait.name_copyAs _ _)]

/-- Tags on the class that was made last show on its prototype, one after the other. -/
theorem classPortrait?_tagged (hx : x.Sound) {tags : List String} {p : Portrait}
    {others : String → Option Portrait}
    (hclasses : ∀ other,
      x.state.classPortrait? other = if name = other then some p else others other)
    (h : (tags.map fun tag => Operation.setTag (.entityClass name) tag line).forM
      (execute (World.builder s) v) x = .ok () x') :
    x'.Sound ∧ x'.state.gallery = x.state.gallery ∧ ∀ other, x'.state.classPortrait? other =
      if name = other then some (tags.foldl (fun p tag => (Trait.tagged tag true).give p) p)
      else others other := by
  induction tags generalizing x p with
  | nil =>
    obtain rfl := (EStateM.Result.ok.inj h).2
    exact ⟨hx, rfl, hclasses⟩
  | cons tag rest ih =>
    rw [List.map_cons, run_forM_cons] at h
    obtain ⟨_, y, hfirst, hrest⟩ := run_bind_ok_iff.mp h
    obtain ⟨hy, value, action, -, haction, hok, -⟩ := step_of_execute hx hfirst
    obtain rfl := Option.some.inj haction
    obtain ⟨hgallery, htagged⟩ := World.classPortrait?_setTag hok
    have hclasses' : ∀ other, y.state.classPortrait? other =
        if name = other then some ((Trait.tagged tag true).give p) else others other := by
      intro other
      rw [htagged, hclasses]
      by_cases hother : name = other
      · simp [hother]
      · simp [hother]
    obtain ⟨hx', hgallery', hall⟩ := ih hy hclasses' hrest
    exact ⟨hx', hgallery'.trans hgallery, hall⟩

/-- A class that is defined and given tags at once. -/
theorem classPortrait?_defined (hx : x.Sound) {type : EntityType} {tags : List String}
    (h : (Operation.defineEntityClass name type line ::
      tags.map fun tag => Operation.setTag (.entityClass name) tag line).forM
        (execute (World.builder s) v) x = .ok () x') :
    x'.Sound ∧ x'.state.gallery = x.state.gallery ∧ ∀ other, x'.state.classPortrait? other =
      if name = other then
        some (tags.foldl (fun p tag => (Trait.tagged tag true).give p) (.fresh name type))
      else x.state.classPortrait? other := by
  rw [run_forM_cons] at h
  obtain ⟨_, y, hdefine, hrest⟩ := run_bind_ok_iff.mp h
  obtain ⟨hy, value, action, -, haction, hok, -⟩ := step_of_execute hx hdefine
  obtain rfl := Option.some.inj haction
  obtain ⟨hgallery, hclasses⟩ := World.classPortrait?_defineClass hok
  obtain ⟨hx', hgallery', hall⟩ := classPortrait?_tagged hy hclasses hrest
  exact ⟨hx', hgallery'.trans hgallery, hall⟩

end Execution

end Adventure
