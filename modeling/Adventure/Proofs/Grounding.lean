/-
Operations that speak only of what was defined.

An operation names entities and classes, and perhaps a property and a direction.  It is
grounded if all of these are there already, each of the type that the check demands.
What is there can be read off the operations before it, since a run notes no more of them
than the names, types and directions they define.  So an operation that is grounded in
the operations before it is grounded in every run that carried them out, and its check
can object to nothing but the text of a value.
-/
import Adventure.Proofs.Acceptance

namespace Adventure

variable {v : Vocabulary} {e e' e'' : Declarations} {op op' : Operation} {ops : List Operation}

namespace Declarations

/-! ### What operations define -/

/-- What is declared when operations were carried out one after the other. -/
def noting (e : Declarations) (ops : List Operation) : Declarations :=
  ops.foldl (fun e op => e.note op none) e

/-- The same words, with the same meanings. -/
structure SameWords (e e' : Declarations) : Prop where
  directions : e'.directions = e.directions
  directionSynonyms : e'.directionSynonyms = e.directionSynonyms
  verbSynonyms : e'.verbSynonyms = e.verbSynonyms

namespace SameWords

theorem refl (e : Declarations) : e.SameWords e :=
  ⟨rfl, rfl, rfl⟩

theorem symm (h : e.SameWords e') : e'.SameWords e :=
  ⟨h.directions.symm, h.directionSynonyms.symm, h.verbSynonyms.symm⟩

theorem trans (h : e.SameWords e') (h' : e'.SameWords e'') : e.SameWords e'' :=
  ⟨h'.directions.trans h.directions, h'.directionSynonyms.trans h.directionSynonyms,
    h'.verbSynonyms.trans h.verbSynonyms⟩

theorem resolveDirection (h : e.SameWords e') (v : Vocabulary) (word : String) :
    e'.resolveDirection v word = e.resolveDirection v word := by
  unfold Declarations.resolveDirection
  rw [h.directions, h.directionSynonyms]

theorem verbFor? (h : e.SameWords e') (word : String) : e'.verbFor? word = e.verbFor? word := by
  unfold Declarations.verbFor?
  rw [h.verbSynonyms]

theorem addDirection (h : e.SameWords e') (word : String) :
    (e.addDirection word).SameWords (e'.addDirection word) := by
  refine ⟨?_, h.directionSynonyms, h.verbSynonyms⟩
  simp only [Declarations.addDirection, h.directions]

theorem addDirectionSynonym (h : e.SameWords e') (direction word : String) :
    (e.addDirectionSynonym direction word).SameWords (e'.addDirectionSynonym direction word) := by
  refine ⟨h.directions, ?_, h.verbSynonyms⟩
  simp only [Declarations.addDirectionSynonym, h.directionSynonyms]

theorem addClass (h : e.SameWords e') (declared declared' : DeclaredClass) :
    (e.addClass declared).SameWords (e'.addClass declared') :=
  ⟨h.directions, h.directionSynonyms, h.verbSynonyms⟩

theorem addEntity (h : e.SameWords e') (entity entity' : DeclaredEntity) :
    (e.addEntity entity).SameWords (e'.addEntity entity') :=
  ⟨h.directions, h.directionSynonyms, h.verbSynonyms⟩

theorem addVerbSynonym (h : e.SameWords e') (verb word : String) :
    (e.addVerbSynonym verb word).SameWords (e'.addVerbSynonym verb word) := by
  refine ⟨h.directions, h.directionSynonyms, ?_⟩
  simp only [Declarations.addVerbSynonym, h.verbSynonyms]

end SameWords

/-- The same names with the same types, and the same words. -/
structure Alike (e e' : Declarations) : Prop where
  entityType? : ∀ name, e'.entityType? name = e.entityType? name
  classType? : ∀ name, e'.classType? name = e.classType? name
  words : e.SameWords e'

namespace Alike

theorem refl (e : Declarations) : e.Alike e :=
  ⟨fun _ => rfl, fun _ => rfl, .refl e⟩

theorem symm (h : e.Alike e') : e'.Alike e :=
  ⟨fun name => (h.entityType? name).symm, fun name => (h.classType? name).symm, h.words.symm⟩

theorem trans (h : e.Alike e') (h' : e'.Alike e'') : e.Alike e'' :=
  ⟨fun name => (h'.entityType? name).trans (h.entityType? name),
    fun name => (h'.classType? name).trans (h.classType? name), h.words.trans h'.words⟩

theorem hasSubject {subject : Subject} {type : Option EntityType} (h : e.Alike e')
    (hsubject : e.HasSubject subject type) : e'.HasSubject subject type := by
  cases subject with
  | entity name =>
    obtain ⟨t, ht, htype⟩ := hsubject
    exact ⟨t, (h.entityType? name).trans ht, htype⟩
  | entityClass name =>
    obtain ⟨t, ht, htype⟩ := hsubject
    exact ⟨t, (h.classType? name).trans ht, htype⟩
  | defaultPlayer | game => exact hsubject

end Alike

theorem entityType?_addEntity (e : Declarations) (entity : DeclaredEntity) (name : String) :
    (e.addEntity entity).entityType? name =
      if entity.name = name then some entity.type else e.entityType? name := by
  rw [entityType?, entity?_addEntity]
  split <;> rfl

theorem classType?_addEntity (e : Declarations) (entity : DeclaredEntity) (name : String) :
    (e.addEntity entity).classType? name = e.classType? name :=
  rfl

theorem classType?_addClass (e : Declarations) (declared : DeclaredClass) (name : String) :
    (e.addClass declared).classType? name =
      if declared.name = name then some declared.type else e.classType? name := by
  rw [classType?, class?_addClass]
  split <;> rfl

theorem entityType?_addClass (e : Declarations) (declared : DeclaredClass) (name : String) :
    (e.addClass declared).entityType? name = e.entityType? name :=
  rfl

namespace Alike

theorem addDirection (h : e.Alike e') (word : String) :
    (e.addDirection word).Alike (e'.addDirection word) :=
  ⟨h.entityType?, h.classType?, h.words.addDirection word⟩

theorem addDirectionSynonym (h : e.Alike e') (direction word : String) :
    (e.addDirectionSynonym direction word).Alike (e'.addDirectionSynonym direction word) :=
  ⟨h.entityType?, h.classType?, h.words.addDirectionSynonym direction word⟩

theorem addVerbSynonym (h : e.Alike e') (verb word : String) :
    (e.addVerbSynonym verb word).Alike (e'.addVerbSynonym verb word) :=
  ⟨h.entityType?, h.classType?, h.words.addVerbSynonym verb word⟩

theorem addClass (h : e.Alike e') (name : String) (type : EntityType) (line line' : Nat) :
    (e.addClass ⟨name, type, line⟩).Alike (e'.addClass ⟨name, type, line'⟩) := by
  refine ⟨h.entityType?, fun other => ?_, h.words.addClass _ _⟩
  rw [classType?_addClass, classType?_addClass, h.classType?]

theorem addEntity (h : e.Alike e') (name : String) (type : EntityType)
    (className className' : String) (line line' : Nat) :
    (e.addEntity ⟨name, type, className, line⟩).Alike
      (e'.addEntity ⟨name, type, className', line'⟩) := by
  refine ⟨fun other => ?_, h.classType?, h.words.addEntity _ _⟩
  rw [entityType?_addEntity, entityType?_addEntity, h.entityType?]

theorem setWhole (e : Declarations) (name : String) (required : Bool) :
    e.Alike (e.setWhole name required) :=
  ⟨fun _ => rfl, fun _ => rfl, rfl, rfl, rfl⟩

/-- Of an operation no more is noted than its first two arguments. -/
theorem note (h : e.Alike e') (hop : op'.opcode = op.opcode)
    (hfirst : op'.argument 0 = op.argument 0) (hsecond : op'.argument 1 = op.argument 1)
    (value value' : Option Value) : (e.note op value).Alike (e'.note op' value') := by
  unfold Declarations.note
  rw [hop, hfirst, hsecond]
  cases op.opcode with
  | defineDirection => exact h.addDirection _
  | defineDirectionSynonym => exact h.addDirectionSynonym _ _
  | defineVerbSynonym => exact h.addVerbSynonym _ _
  | defineEntityClass =>
    dsimp only
    cases EntityType.ofName? (op.argument 1) with
    | none => exact h
    | some type => exact h.addClass _ type _ _
  | defineEntity =>
    dsimp only
    cases EntityType.ofName? (op.argument 1) with
    | none => exact h
    | some type => exact h.addEntity _ type _ _ _ _
  | setProperty =>
    -- what comes in whole amounts only makes no difference
    have hleft : ∀ c : Bool, e.Alike (if c then e.setWhole (op.argument 1)
        ((value.bind (·.boolean?)).getD false) else e) := by
      intro c
      cases c with
      | true => exact setWhole e _ _
      | false => exact .refl e
    have hright : ∀ c : Bool, e'.Alike (if c then e'.setWhole (op.argument 1)
        ((value'.bind (·.boolean?)).getD false) else e') := by
      intro c
      cases c with
      | true => exact setWhole e' _ _
      | false => exact .refl e'
    exact (hleft _).symm.trans (h.trans (hright _))
  | _ => exact h

end Alike

theorem Alike.noting (h : e.Alike e') (ops : List Operation) :
    (e.noting ops).Alike (e'.noting ops) := by
  induction ops generalizing e e' with
  | nil => exact h
  | cons op rest ih => exact ih (h.note rfl rfl rfl none none)

theorem noting_append (e : Declarations) (before after : List Operation) :
    e.noting (before ++ after) = (e.noting before).noting after :=
  List.foldl_append

end Declarations

/-- Whether carrying out the operation declares anything. -/
def Opcode.declares : Opcode → Bool
  | defineDirection | defineDirectionSynonym | defineVerbSynonym | defineEntityClass
  | defineEntity => true
  | _ => false

/-- Other operations declare nothing. -/
theorem Declarations.note_alike (hop : op.opcode.declares = false) (value : Option Value) :
    e.Alike (e.note op value) := by
  unfold note
  cases hopcode : op.opcode with
  | defineDirection | defineDirectionSynonym | defineVerbSynonym | defineEntityClass
  | defineEntity => exact absurd (hopcode ▸ hop) nofun
  | setProperty =>
    dsimp only
    split
    · exact .setWhole e _ _
    · exact .refl e
  | _ => exact .refl e

/-! ### Grounded operations -/

namespace Operation

/-- The entities that an operation names behind or without a subject, each with the type
that its check demands. -/
def mentions (op : Operation) : List (String × EntityType) :=
  match op.opcode with
  | .insertIntoInventory => [(op.argument 0, .object), (op.argument 1, .being)]
  | .insertIntoPlace => [(op.argument 0, .thing), (op.argument 1, .place)]
  | .connectRooms => [(op.argument 3, .room)]
  | .allocateResource => [(op.argument 0, .resource), (op.argument 1, .tangible)]
  | _ => []

/-- Whether the operation names an entity, as its subject or otherwise. -/
def NamesEntity (op : Operation) (name : String) : Prop :=
  op.subject? = some (.entity name) ∨ ∃ type, (name, type) ∈ op.mentions

/-- Whether the operation can act on a subject of a type, which the game has not. -/
def Suits (op : Operation) (type : Option EntityType) : Prop :=
  match op.opcode with
  | .setProperty => ∃ rule, Validation.propertyRule type (op.payloadAt 0) = .ok rule
  | .setAlias => ∃ t, type = some t ∧ t.isA .thing
  | .setAttribute => ∃ t, type = some t ∧ t.isA .being
  | .connectRooms => type = some .room
  | _ => True

/-- Whether the operation is complete, apart from what it names and from the texts of
values. -/
def IsComplete (op : Operation) : Prop :=
  Validation.checkArity op = .ok () ∧
    match op.opcode with
    | .setMessage | .setTag | .removeTag | .setEvent | .setMeta =>
      Text.isBlankText (op.payloadAt 0) = false
    | .loadScript => (ScriptMode.ofName? (op.payloadAt 0)).isSome
    | _ => True

/-- Whether what the operation defines is new, other than an entity. -/
def DefinesNew (v : Vocabulary) (e : Declarations) (op : Operation) : Prop :=
  match op.opcode with
  | .defineDirection => e.resolveDirection v (op.argument 0) = none
  | .defineDirectionSynonym =>
    e.resolveDirection v (op.argument 0) = some (op.argument 0) ∧
      e.resolveDirection v (op.argument 1) = none
  | .defineVerbSynonym => e.verbFor? (op.argument 1) = none
  | .defineEntityClass =>
    (∃ type, EntityType.ofName? (op.argument 1) = some type ∧ type.isInstantiable) ∧
      op.argument 0 ≠ "" ∧ EntityType.ofName? (op.argument 0) = none ∧
        e.classType? (op.argument 0) = none
  | _ => True

/-- All that an operation needs to be there is declared. -/
structure Grounded (v : Vocabulary) (e : Declarations) (op : Operation) : Prop where
  complete : op.IsComplete
  /-- The subject is declared, and the operation can act on its type; a property that is
  set is one that the type has. -/
  subject : op.opcode.targets ≠ [] → ∃ subject type, op.subject? = some subject ∧
    e.HasSubject subject type ∧ op.Suits type
  /-- The other entities are declared with the types demanded. -/
  entities : ∀ m ∈ op.mentions, ∃ t, e.entityType? m.1 = some t ∧ t.isA m.2
  /-- A direction is one. -/
  direction : op.opcode = .connectRooms →
    ∃ direction, e.resolveDirection v (op.argument 2) = some direction
  definesNew : op.DefinesNew v e

/-- An entity that is named is there. -/
theorem Grounded.entityType? {name : String} (h : op.Grounded v e) (hname : op.NamesEntity name) :
    (e.entityType? name).isSome := by
  obtain hsubject | ⟨type, hmention⟩ := hname
  · obtain ⟨subject, type, hop, hthere, -⟩ := h.subject (targets_ne_nil hsubject)
    obtain rfl := Option.some.inj (hop.symm.trans hsubject)
    obtain ⟨t, ht, -⟩ := hthere
    rw [ht]
    rfl
  · obtain ⟨t, ht, -⟩ := h.entities _ hmention
    rw [ht]
    rfl

/-- A class that is acted on is there. -/
theorem Grounded.classType? {name : String} (h : op.Grounded v e)
    (hname : op.subject? = some (.entityClass name)) : (e.classType? name).isSome := by
  obtain ⟨subject, type, hop, hthere, -⟩ := h.subject (targets_ne_nil hname)
  obtain rfl := Option.some.inj (hop.symm.trans hname)
  obtain ⟨t, ht, -⟩ := hthere
  rw [ht]
  rfl

theorem Grounded.congr (h : op.Grounded v e) (he : e.Alike e') : op.Grounded v e' := by
  refine ⟨h.complete, ?_, ?_, ?_, ?_⟩
  · intro htargets
    obtain ⟨subject, type, hop, hsubject, hsuits⟩ := h.subject htargets
    exact ⟨subject, type, hop, he.hasSubject hsubject, hsuits⟩
  · intro m hm
    obtain ⟨t, ht, hisA⟩ := h.entities m hm
    exact ⟨t, (he.entityType? m.1).trans ht, hisA⟩
  · intro hop
    rw [he.words.resolveDirection]
    exact h.direction hop
  · have hnew := h.definesNew
    unfold DefinesNew at hnew ⊢
    simp only [he.words.resolveDirection, he.words.verbFor?, he.classType?]
    exact hnew

section Acting

variable {opcode : Opcode} {subject : Subject} {payload : List String} {line : Nat}
variable {type : Option EntityType}

/-- An operation on a subject that is there, if it names no other entity. -/
theorem grounded_acting (hmem : subject.target ∈ opcode.targets) (hop : opcode ≠ .connectRooms)
    (hcomplete : (acting opcode subject payload line).IsComplete)
    (hsubject : e.HasSubject subject type)
    (hsuits : (acting opcode subject payload line).Suits type) :
    (acting opcode subject payload line).Grounded v e := by
  have htargets := List.ne_nil_of_mem hmem
  refine ⟨hcomplete, fun _ => ⟨subject, type, subject?_acting htargets, hsubject, hsuits⟩, ?_,
    fun h => absurd h hop, ?_⟩
  · cases opcode with
    | setProperty | setMessage | setTag | removeTag | loadScript | setEvent | setAlias | setMeta
    | setAttribute => exact nofun
    | connectRooms => exact absurd rfl hop
    | _ => exact absurd hmem nofun
  · cases opcode with
    | setProperty | setMessage | setTag | removeTag | loadScript | setEvent | setAlias | setMeta
    | setAttribute | connectRooms => trivial
    | _ => exact absurd hmem nofun

/-- A subject is given something under a name. -/
theorem grounded_named {name : String} (hop : opcode ∈ [Opcode.setMessage, .setTag, .setEvent, .setMeta])
    (hmem : subject.target ∈ opcode.targets) (hpayload : payload.length = opcode.payloadCount)
    (hsubject : e.HasSubject subject type) (hfirst : payload.head? = some name)
    (hname : Text.isBlankText name = false) :
    (acting opcode subject payload line).Grounded v e := by
  have harity : Validation.checkArity (acting opcode subject payload line) = .ok () :=
    Validation.checkArity_acting hmem hpayload
  have hpayloadAt : (acting opcode subject payload line).payloadAt 0 = name := by
    rw [payloadAt_acting (List.ne_nil_of_mem hmem), List.getD_eq_getElem?_getD,
      ← List.head?_eq_getElem?, hfirst]
    rfl
  refine grounded_acting hmem ?_ ⟨harity, ?_⟩ hsubject ?_
  · rintro rfl
    exact absurd hop nofun
  · rw [hpayloadAt]
    cases opcode with
    | setMessage | setTag | setEvent | setMeta => exact hname
    | _ => exact absurd hop nofun
  · cases opcode with
    | setMessage | setTag | setEvent | setMeta => trivial
    | _ => exact absurd hop nofun

theorem grounded_setProperty {property value : String} (hsubject : e.HasSubject subject type)
    (hrule : ∃ rule, Validation.propertyRule type property = .ok rule) :
    (setProperty subject property value line).Grounded v e := by
  have hmem : subject.target ∈ Opcode.setProperty.targets := by
    cases subject <;> simp [Subject.target, Opcode.targets]
  refine grounded_acting hmem (by decide) ⟨Validation.checkArity_acting hmem rfl, trivial⟩ hsubject ?_
  show ∃ rule, Validation.propertyRule type ((acting _ _ _ _).payloadAt 0) = .ok rule
  rw [payloadAt_acting (List.ne_nil_of_mem hmem)]
  exact hrule

theorem grounded_loadScript {mode : ScriptMode} {text : String} (hplayer : subject ≠ .defaultPlayer)
    (hsubject : e.HasSubject subject type) :
    (loadScript subject mode text line).Grounded v e := by
  have hmem : subject.target ∈ Opcode.loadScript.targets := by
    cases subject with
    | defaultPlayer => exact absurd rfl hplayer
    | entity | entityClass | game => simp [Subject.target, Opcode.targets]
  refine grounded_acting hmem (by decide) ⟨Validation.checkArity_acting hmem rfl, ?_⟩ hsubject trivial
  show (ScriptMode.ofName? ((acting _ _ _ _).payloadAt 0)).isSome = true
  rw [payloadAt_acting (List.ne_nil_of_mem hmem)]
  show (ScriptMode.ofName? mode.name).isSome = true
  cases mode <;> decide

theorem grounded_setAlias {name : String} {t : EntityType} (hplayer : subject ≠ .defaultPlayer)
    (hsubject : e.HasSubject subject (some t)) (hthing : t.isA .thing) :
    (setAlias subject name line).Grounded v e := by
  have hmem : subject.target ∈ Opcode.setAlias.targets := by
    cases subject with
    | defaultPlayer => exact absurd rfl hplayer
    | game => cases hsubject
    | entity | entityClass => simp [Subject.target, Opcode.targets]
  exact grounded_acting hmem (by decide) ⟨Validation.checkArity_acting hmem rfl, trivial⟩ hsubject
    ⟨t, rfl, hthing⟩

theorem grounded_setAttribute {name value : String} {t : EntityType}
    (hsubject : e.HasSubject subject (some t)) (hbeing : t.isA .being) :
    (setAttribute subject name value line).Grounded v e := by
  have hmem : subject.target ∈ Opcode.setAttribute.targets := by
    cases subject with
    | game => cases hsubject
    | entity | entityClass | defaultPlayer => simp [Subject.target, Opcode.targets]
  exact grounded_acting hmem (by decide) ⟨Validation.checkArity_acting hmem rfl, trivial⟩ hsubject
    ⟨t, rfl, hbeing⟩

theorem grounded_connectRooms {word room : String} (hsubject : e.HasSubject subject (some .room))
    (hdirection : ∃ direction, e.resolveDirection v word = some direction)
    (hroom : ∃ t, e.entityType? room = some t ∧ t.isA .room) :
    (connectRooms subject word room line).Grounded v e := by
  have hmem : subject.target ∈ Opcode.connectRooms.targets := by
    cases subject with
    | game | defaultPlayer => cases hsubject
    | entity | entityClass => simp [Subject.target, Opcode.targets]
  have harguments : (connectRooms subject word room line).argument 2 = word ∧
      (connectRooms subject word room line).argument 3 = room := by
    cases subject with
    | game | defaultPlayer => cases hsubject
    | entity | entityClass => exact ⟨rfl, rfl⟩
  refine ⟨⟨Validation.checkArity_acting hmem rfl, trivial⟩,
    fun _ => ⟨subject, _, subject?_acting (List.ne_nil_of_mem hmem), hsubject, rfl⟩, ?_, fun _ => ?_, trivial⟩
  · intro m hm
    obtain rfl := List.mem_singleton.mp hm
    rw [harguments.2]
    exact hroom
  · rw [harguments.1]
    exact hdirection

end Acting

/-! ### Grounded operations without a subject -/

theorem grounded_insertIntoInventory {object being : String} {line : Nat}
    (hobject : ∃ t, e.entityType? object = some t ∧ t.isA .object)
    (hbeing : ∃ t, e.entityType? being = some t ∧ t.isA .being) :
    (insertIntoInventory object being line).Grounded v e := by
  refine ⟨⟨rfl, trivial⟩, fun h => absurd rfl h, ?_, nofun, trivial⟩
  intro m hm
  obtain rfl | hm := List.mem_cons.mp hm
  · exact hobject
  · obtain rfl := List.mem_singleton.mp hm
    exact hbeing

theorem grounded_insertIntoPlace {thing place : String} {line : Nat}
    (hthing : ∃ t, e.entityType? thing = some t ∧ t.isA .thing)
    (hplace : ∃ t, e.entityType? place = some t ∧ t.isA .place) :
    (insertIntoPlace thing place line).Grounded v e := by
  refine ⟨⟨rfl, trivial⟩, fun h => absurd rfl h, ?_, nofun, trivial⟩
  intro m hm
  obtain rfl | hm := List.mem_cons.mp hm
  · exact hthing
  · obtain rfl := List.mem_singleton.mp hm
    exact hplace

theorem grounded_allocateResource {resource owner amount : String} {line : Nat}
    (hresource : ∃ t, e.entityType? resource = some t ∧ t.isA .resource)
    (howner : ∃ t, e.entityType? owner = some t ∧ t.isA .tangible) :
    (allocateResource resource owner amount line).Grounded v e := by
  refine ⟨⟨rfl, trivial⟩, fun h => absurd rfl h, ?_, nofun, trivial⟩
  intro m hm
  obtain rfl | hm := List.mem_cons.mp hm
  · exact hresource
  · obtain rfl := List.mem_singleton.mp hm
    exact howner

end Operation

/-! ### The check of a grounded operation -/

namespace Validation

/-- Whether a fault is that of the text of a value. -/
def Fault.concernsText : Fault → Bool
  | wrongText _ | notWhole .. | periodNotPositive => true
  | _ => false

/-- Whether a check passes or objects to the text of a value. -/
def PassesButForText {α : Type} (check : Except Fault α) : Prop :=
  ∀ f, check = .error f → f.concernsText

section PassesButForText

variable {α β : Type} {check : Except Fault α}

theorem passesButForText_of_ok {a : α} (h : check = .ok a) : PassesButForText check := by
  intro f hf
  exact absurd (h.symm.trans hf) nofun

theorem PassesButForText.bind {next : α → Except Fault β} (h : PassesButForText check)
    (hnext : ∀ a, check = .ok a → PassesButForText (next a)) :
    PassesButForText (check >>= next) := by
  intro f hf
  rw [bind_error_iff] at hf
  obtain hf | ⟨a, ha, hf⟩ := hf
  · exact h f hf
  · exact hnext a ha f hf

/-- After a step that passes, the rest decides. -/
theorem PassesButForText.bind_of_ok {next : α → Except Fault β} {a : α} (h : check = .ok a)
    (hnext : PassesButForText (next a)) : PassesButForText (check >>= next) := by
  subst h
  exact hnext

theorem PassesButForText.map (h : PassesButForText check) (g : α → β) :
    PassesButForText (g <$> check) := by
  intro f hf
  cases check with
  | error fault => exact h f (congrArg Except.error (Except.error.inj hf))
  | ok a => exact absurd hf nofun

theorem passesButForText_readValue (rule : Rule) (property text : String) :
    PassesButForText (readValue rule property text) := by
  intro f hf
  obtain ⟨complaint, -, rfl⟩ := mapError_error_iff.mp hf
  rfl

end PassesButForText

variable {type : Option EntityType} {subject : Subject}

theorem checkEntity_mention {m : String × EntityType}
    (h : ∃ t, e.entityType? m.1 = some t ∧ t.isA m.2) (opcode : Opcode) :
    checkEntity e opcode m.1 m.2 = .ok () :=
  checkEntity_ok_iff.mpr h

/-- The check of a grounded operation begins with its subject. -/
theorem exists_checkSubject (h : op.Grounded v e) (htargets : op.opcode.targets ≠ []) :
    ∃ type, checkSubject e op = .ok type ∧ op.Suits type := by
  obtain ⟨subject, type, hop, hsubject, hsuits⟩ := h.subject htargets
  exact ⟨type, (checkSubject_ok_iff hop).mpr ⟨h.complete.1, hsubject⟩, hsuits⟩

theorem passes_setProperty (h : op.Grounded v e) (hop : op.opcode = .setProperty) :
    PassesButForText (setProperty e op) := by
  obtain ⟨type, hsubject, hsuits⟩ := exists_checkSubject h (by rw [hop]; exact nofun)
  unfold Operation.Suits at hsuits
  rw [hop] at hsuits
  obtain ⟨rule, hrule⟩ := hsuits
  refine PassesButForText.bind_of_ok hsubject (PassesButForText.bind_of_ok hrule ?_)
  exact (passesButForText_readValue _ _ _).map some

theorem passes_setAttribute (h : op.Grounded v e) (hop : op.opcode = .setAttribute) :
    PassesButForText (setAttribute e op) := by
  obtain ⟨type, hsubject, hsuits⟩ := exists_checkSubject h (by rw [hop]; exact nofun)
  unfold Operation.Suits at hsuits
  rw [hop] at hsuits
  obtain ⟨t, rfl, hbeing⟩ := hsuits
  refine PassesButForText.bind_of_ok hsubject ?_
  rw [Option.any_some, hbeing, Bool.not_true, if_neg Bool.false_ne_true]
  exact (passesButForText_readValue _ _ _).map some

theorem passes_setTimerPeriod (h : op.IsComplete) : PassesButForText (setTimerPeriod op) := by
  refine PassesButForText.bind_of_ok h.1 ((passesButForText_readValue _ _ _).bind ?_)
  intro value _
  dsimp only
  split
  · intro f hf
    exact Except.error.inj hf ▸ rfl
  · exact passesButForText_of_ok rfl

theorem passes_allocateResource (h : op.Grounded v e) (hop : op.opcode = .allocateResource) :
    PassesButForText (allocateResource e op) := by
  have hentities := h.entities
  unfold Operation.mentions at hentities
  rw [hop] at hentities
  have hresource := checkEntity_mention (hentities _ (List.mem_cons_self ..)) op.opcode
  have howner := checkEntity_mention (hentities _ (List.mem_cons_of_mem _ (List.mem_cons_self ..)))
    op.opcode
  refine PassesButForText.bind_of_ok h.complete.1 ?_
  refine PassesButForText.bind_of_ok hresource (PassesButForText.bind_of_ok howner ?_)
  refine (passesButForText_readValue _ _ _).bind ?_
  intro value _
  dsimp only
  split
  · intro f hf
    exact Except.error.inj hf ▸ rfl
  · exact passesButForText_of_ok rfl

/-- **The check of a grounded operation can only object to the text of a value**, if a
class that it defines does not have the name of an entity. -/
theorem passes_of_grounded (h : op.Grounded v e) (hentity : op.opcode ≠ .defineEntity)
    (hclass : op.opcode = .defineEntityClass → e.entityType? (op.argument 0) = none) :
    PassesButForText (check v e op) := by
  have hcomplete := h.complete.2
  have hnew := h.definesNew
  have hentities := h.entities
  have hsubject := fun htargets => exists_checkSubject h htargets
  unfold Operation.DefinesNew at hnew
  unfold Operation.mentions at hentities
  unfold Operation.Suits at hsubject
  unfold check
  cases hop : op.opcode with
  | setProperty => exact passes_setProperty h hop
  | setAttribute => exact passes_setAttribute h hop
  | setTimerPeriod => exact passes_setTimerPeriod h.complete
  | allocateResource => exact passes_allocateResource h hop
  | defineEntity => exact absurd hop hentity
  | defineDirection =>
    rw [hop] at hnew
    exact passesButForText_of_ok (defineDirection_ok_iff.mpr ⟨h.complete.1, hnew, rfl⟩)
  | defineDirectionSynonym =>
    rw [hop] at hnew
    exact passesButForText_of_ok
      (defineDirectionSynonym_ok_iff.mpr ⟨h.complete.1, hnew.1, hnew.2, rfl⟩)
  | defineVerbSynonym =>
    rw [hop] at hnew
    exact passesButForText_of_ok (defineVerbSynonym_ok_iff.mpr ⟨h.complete.1, hnew, rfl⟩)
  | defineEntityClass =>
    rw [hop] at hnew
    obtain ⟨htype, hname, hreserved, hclassType⟩ := hnew
    refine passesButForText_of_ok (defineEntityClass_ok_iff.mpr
      ⟨h.complete.1, htype, hname, hreserved, ?_, ?_, rfl⟩)
    · exact Option.map_eq_none_iff.mp (hclass hop)
    · exact Option.map_eq_none_iff.mp hclassType
  | setMessage | setTag | removeTag | setEvent | setMeta =>
    rw [hop] at hcomplete hsubject
    obtain ⟨type, htype, -⟩ := hsubject nofun
    exact passesButForText_of_ok (setNamed_ok_iff.mpr ⟨⟨type, htype⟩, hcomplete, rfl⟩)
  | loadScript =>
    rw [hop] at hcomplete hsubject
    obtain ⟨type, htype, -⟩ := hsubject nofun
    exact passesButForText_of_ok (loadScript_ok_iff.mpr ⟨⟨type, htype⟩, hcomplete, rfl⟩)
  | setAlias =>
    rw [hop] at hsubject
    obtain ⟨type, htype, t, rfl, hthing⟩ := hsubject nofun
    exact passesButForText_of_ok (setAlias_ok_iff.mpr ⟨t, htype, hthing, rfl⟩)
  | insertIntoInventory =>
    rw [hop] at hentities
    refine passesButForText_of_ok (insertIntoInventory_ok_iff.mpr ⟨h.complete.1, ?_, ?_, rfl⟩)
    · exact hentities _ (List.mem_cons_self ..)
    · exact hentities _ (List.mem_cons_of_mem _ (List.mem_cons_self ..))
  | insertIntoPlace =>
    rw [hop] at hentities
    refine passesButForText_of_ok (insertIntoPlace_ok_iff.mpr ⟨h.complete.1, ?_, ?_, rfl⟩)
    · exact hentities _ (List.mem_cons_self ..)
    · exact hentities _ (List.mem_cons_of_mem _ (List.mem_cons_self ..))
  | connectRooms =>
    rw [hop] at hentities hsubject
    obtain ⟨type, htype, rfl⟩ := hsubject nofun
    obtain ⟨direction, hdirection⟩ := h.direction hop
    exact passesButForText_of_ok (connectRooms_ok_iff.mpr
      ⟨htype, direction, hdirection, hentities _ (List.mem_cons_self ..), rfl⟩)

end Validation

/-! ### Running grounded operations -/

namespace Execution

variable {s : Surroundings} {x x' : Execution World}

theorem note_of_execute {σ : Type} {executor : Executor σ} {x x' : Execution σ}
    (h : execute executor v op x = .ok () x') :
    ∃ value, x'.declarations = x.declarations.note op value := by
  obtain ⟨value, _, _, -, -, -, rfl⟩ := execute_ok_iff.mp h
  exact ⟨value, rfl⟩

/-- **A run declares what its operations define.** -/
theorem alike_of_forM (hx : x.Sound) (he : e.Alike x.declarations)
    (h : ops.forM (execute (World.builder s) v) x = .ok () x') :
    x'.Sound ∧ (e.noting ops).Alike x'.declarations := by
  induction ops generalizing x e with
  | nil =>
    obtain rfl := (EStateM.Result.ok.inj h).2
    exact ⟨hx, he⟩
  | cons op rest ih =>
    rw [run_forM_cons] at h
    obtain ⟨_, y, hfirst, hrest⟩ := run_bind_ok_iff.mp h
    have hcomes := execute_comes (s := s) hx v op
    rw [hfirst] at hcomes
    cases hcomes with
    | ok hsound _ =>
      obtain ⟨value, hnote⟩ := note_of_execute hfirst
      exact ih hsound (hnote ▸ he.note rfl rfl rfl none value) hrest

/-- What an operation comes to that is grounded, where properties have their own setters:
it succeeds, or the text of a value is wrong, or a resource has run out, or a script cannot
be read.  A failure changes nothing. -/
inductive Achieves (op : Operation) (x : Execution World) :
    EStateM.Result Error (Execution World) Unit → Prop
  | ok (x' : Execution World) : Achieves op x (.ok () x')
  | wrongText {f : Validation.Fault} (hf : f.concernsText) :
    Achieves op x (.error (.validation f.message op.line) x)
  | allocation (message : String) (hop : op.opcode = .allocateResource) :
    Achieves op x (.error (.validation message op.line) x)
  | script (path why : String) (hop : op.opcode = .loadScript)
    (hmode : ScriptMode.ofName? (op.payloadAt 0) = some .file) :
    Achieves op x (.error ((Error.of (.unreadable path why)).onLine op.line) x)

theorem achieves_of_passes (hs : s.setters = .standard) (hx : x.Sound)
    (h : Validation.PassesButForText (Validation.check v x.declarations op)) :
    Achieves op x (execute (World.builder s) v op x) := by
  have hchecked := hx.checked_eq v op
  cases hcheck : Validation.check v x.declarations op with
  | error f =>
    rw [hcheck] at hchecked
    rw [execute_of_fault hchecked]
    exact .wrongText (h f hcheck)
  | ok value =>
    rw [hcheck] at hchecked
    obtain ⟨action, haction⟩ := World.builder_handles s op.opcode
    rcases World.settles_of_check hx.consistent hcheck haction with
      ⟨w', hok, -, -⟩ | ⟨err, herr, hrefused⟩
    · rw [execute_of_ok hchecked haction hok]
      exact .ok _
    · rw [execute_of_error hchecked haction herr]
      cases hrefused with
      | allocation message hop => exact .allocation message hop
      | script path why hop hmode => exact .script path why hop hmode
      | setter _ _ htable => exact absurd hs htable

end Execution

end Adventure
