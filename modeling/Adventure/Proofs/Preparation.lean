/-
Operations that come after what they need.

Operations are prepared if each of them is grounded in those before it; only the definition
of an entity may name a class that is yet to come.  A draft is kept such that its operations
are prepared, and such that they define what it has declared and what it awaits, all of it
once.  A definition that is filled in later was there before and defines what it defined
then, so nothing that was written after it loses its ground.
-/
import Adventure.Proofs.Directions
import Adventure.Proofs.Grounding
import Adventure.Proofs.Placeholders

namespace Adventure

variable {v : Vocabulary} {e e' e'' : Declarations} {op op' : Operation}
variable {ops before after : List Operation} {name : String} {type : EntityType} {line : Nat}

namespace Operation

/-- Whether the operation is a definition, of the sort that an opcode makes, of a name. -/
def defines (opcode : Opcode) (name : String) (op : Operation) : Bool :=
  op.opcode = opcode && op.argument 0 = name

theorem defines_eq_false {opcode : Opcode} (h : op.opcode ≠ opcode) :
    op.defines opcode name = false := by
  simp [defines, h]

theorem defines_congr (hop : op'.opcode = op.opcode) (hfirst : op'.argument 0 = op.argument 0)
    (opcode : Opcode) (name : String) : op'.defines opcode name = op.defines opcode name := by
  rw [defines, hop, hfirst]
  rfl

end Operation

namespace Declarations

/-! ### Subjects that stay -/

/-- Whatever is declared stays declared, with its type. -/
def Grows (e e' : Declarations) : Prop :=
  ∀ subject type, e.HasSubject subject type → e'.HasSubject subject type

theorem Grows.refl (e : Declarations) : e.Grows e :=
  fun _ _ h => h

theorem Grows.trans (h : e.Grows e') (h' : e'.Grows e'') : e.Grows e'' :=
  fun subject type hsubject => h' subject type (h subject type hsubject)

theorem entityType?_of_hasSubject (h : e.HasSubject (.entity name) (some type)) :
    e.entityType? name = some type := by
  obtain ⟨t, ht, htype⟩ := h
  rw [ht, ← htype]

theorem Alike.grows (h : e.Alike e') : e.Grows e' :=
  fun _ _ => h.hasSubject

theorem Grows.of_types (hentity : ∀ name type, e.entityType? name = some type →
      e'.entityType? name = some type)
    (hclass : ∀ name type, e.classType? name = some type → e'.classType? name = some type) :
    e.Grows e' := by
  intro subject type hsubject
  cases subject with
  | entity name =>
    obtain ⟨t, ht, htype⟩ := hsubject
    exact ⟨t, hentity name t ht, htype⟩
  | entityClass name =>
    obtain ⟨t, ht, htype⟩ := hsubject
    exact ⟨t, hclass name t ht, htype⟩
  | defaultPlayer | game => exact hsubject

theorem grows_addEntity {entity : DeclaredEntity} (h : e.entityType? entity.name = none) :
    e.Grows (e.addEntity entity) := by
  refine .of_types ?_ fun _ _ htype => htype
  intro name type htype
  have hne : entity.name ≠ name := by
    rintro rfl
    exact absurd (h.symm.trans htype) nofun
  rw [entityType?_addEntity, if_neg hne, htype]

theorem grows_addClass {declared : DeclaredClass} (h : e.classType? declared.name = none) :
    e.Grows (e.addClass declared) := by
  refine .of_types (fun _ _ htype => htype) ?_
  intro name type htype
  have hne : declared.name ≠ name := by
    rintro rfl
    exact absurd (h.symm.trans htype) nofun
  rw [classType?_addClass, if_neg hne, htype]

/-! ### Names that were defined -/

/-- Only its definition makes an entity known. -/
theorem entityType?_note (h : op.defines .defineEntity name = false) :
    (e.note op none).entityType? name = e.entityType? name := by
  by_cases hop : op.opcode = .defineEntity
  · have hname : op.argument 0 ≠ name := by simpa [Operation.defines, hop] using h
    cases htype : EntityType.ofName? (op.argument 1) with
    | none => simp [note, hop, htype]
    | some type => rw [note_defineEntity hop htype, entityType?_addEntity, if_neg hname]
  · by_cases hclass : op.opcode = .defineEntityClass
    · cases htype : EntityType.ofName? (op.argument 1) with
      | none => simp [note, hclass, htype]
      | some type => rw [note_defineEntityClass hclass htype, entityType?_addClass]
    · exact (note_sameNames hop hclass none).entityType? name

/-- Only its definition makes a class known. -/
theorem classType?_note (h : op.defines .defineEntityClass name = false) :
    (e.note op none).classType? name = e.classType? name := by
  by_cases hop : op.opcode = .defineEntityClass
  · have hname : op.argument 0 ≠ name := by simpa [Operation.defines, hop] using h
    cases htype : EntityType.ofName? (op.argument 1) with
    | none => simp [note, hop, htype]
    | some type => rw [note_defineEntityClass hop htype, classType?_addClass, if_neg hname]
  · by_cases hentity : op.opcode = .defineEntity
    · cases htype : EntityType.ofName? (op.argument 1) with
      | none => simp [note, hentity, htype]
      | some type => rw [note_defineEntity hentity htype, classType?_addEntity]
    · exact (note_sameNames hentity hop none).classType? name

/-- What is known of a name that nothing was known of before was noted from a definition. -/
theorem exists_defines {α : Type} {opcode : Opcode} (known : Declarations → Option α)
    (hnote : ∀ {e op}, op.defines opcode name = false → known (e.note op none) = known e)
    (hnone : known e = none) (h : (known (e.noting ops)).isSome) :
    ∃ op ∈ ops, op.defines opcode name := by
  induction ops generalizing e with
  | nil =>
    rw [show known (e.noting []) = none from hnone] at h
    exact absurd h nofun
  | cons op rest ih =>
    cases hop : op.defines opcode name with
    | true => exact ⟨op, List.mem_cons_self .., hop⟩
    | false =>
      obtain ⟨other, hother, hdefines⟩ := ih ((hnote hop).trans hnone) h
      exact ⟨other, List.mem_cons_of_mem _ hother, hdefines⟩

/-- An entity is known only from its definition. -/
theorem exists_defines_entity (h : ((empty.noting ops).entityType? name).isSome) :
    ∃ op ∈ ops, op.defines .defineEntity name :=
  exists_defines (·.entityType? name) entityType?_note
    (by simp [empty, entityType?, entity?]) h

/-- A class is known only from its definition. -/
theorem exists_defines_class (h : ((empty.noting ops).classType? name).isSome) :
    ∃ op ∈ ops, op.defines .defineEntityClass name :=
  exists_defines (·.classType? name) classType?_note
    (by simp [empty, classType?, class?]) h

/-! ### Prepared operations -/

/-- Every operation is grounded in those before it, other than the definitions of
entities. -/
def Prepares (v : Vocabulary) : Declarations → List Operation → Prop
  | _, [] => True
  | e, op :: rest =>
    (op.opcode ≠ .defineEntity → op.Grounded v e) ∧ Prepares v (e.note op none) rest

theorem prepares_append :
    e.Prepares v (before ++ after) ↔ e.Prepares v before ∧ (e.noting before).Prepares v after := by
  induction before generalizing e with
  | nil => exact (and_iff_right trivial).symm
  | cons op rest ih =>
    show (_ ∧ Prepares v _ (rest ++ after)) ↔ (_ ∧ _) ∧ _
    rw [ih, and_assoc]
    rfl

theorem Prepares.congr (h : e.Prepares v ops) (he : e.Alike e') : e'.Prepares v ops := by
  induction ops generalizing e e' with
  | nil => trivial
  | cons op rest ih =>
    exact ⟨fun hop => (h.1 hop).congr he, ih h.2 (he.note rfl rfl rfl none none)⟩

theorem Prepares.grounded (h : e.Prepares v (before ++ op :: after))
    (hop : op.opcode ≠ .defineEntity) : op.Grounded v (e.noting before) :=
  (prepares_append.mp h).2.1 hop

theorem Prepares.concat (h : e.Prepares v ops)
    (hop : op.opcode ≠ .defineEntity → op.Grounded v (e.noting ops)) :
    e.Prepares v (ops ++ [op]) :=
  prepares_append.mpr ⟨h, hop, trivial⟩

/-- **The definition of an entity can be replaced** by another one of the same name and
type. -/
theorem Prepares.replace (h : e.Prepares v (before ++ op :: after))
    (hentity : op.opcode = .defineEntity) (hop : op'.opcode = op.opcode)
    (hfirst : op'.argument 0 = op.argument 0) (hsecond : op'.argument 1 = op.argument 1) :
    e.Prepares v (before ++ op' :: after) := by
  obtain ⟨hbefore, -, hafter⟩ := prepares_append.mp h
  refine prepares_append.mpr ⟨hbefore, fun hne => absurd (hop.trans hentity) hne, ?_⟩
  exact hafter.congr ((Alike.refl _).note hop hfirst hsecond none none)

theorem noting_replace (e : Declarations) (hop : op'.opcode = op.opcode)
    (hfirst : op'.argument 0 = op.argument 0) (hsecond : op'.argument 1 = op.argument 1) :
    (e.noting (before ++ op :: after)).Alike (e.noting (before ++ op' :: after)) := by
  rw [noting_append, noting_append]
  exact ((Alike.refl _).note hop hfirst hsecond none none).noting after

end Declarations

/-! ### Operations that define every name once -/

/-- Operations that are prepared, and of which each entity and each class has one that
defines it. -/
structure Orderly (v : Vocabulary) (ops : List Operation) : Prop where
  prepared : Declarations.empty.Prepares v ops
  entities : ∀ name, ops.countP (·.defines .defineEntity name) =
    ((Declarations.empty.noting ops).entityType? name).isSome.toNat
  classes : ∀ name, ops.countP (·.defines .defineEntityClass name) =
    ((Declarations.empty.noting ops).classType? name).isSome.toNat

namespace Orderly

theorem nil : Orderly v [] := by
  refine ⟨trivial, ?_, ?_⟩
  · intro name
    simp [Declarations.noting, Declarations.empty, Declarations.entityType?, Declarations.entity?]
  · intro name
    simp [Declarations.noting, Declarations.empty, Declarations.classType?, Declarations.class?]

theorem countP_concat (ops : List Operation) (op : Operation) (opcode : Opcode) (name : String) :
    (ops ++ [op]).countP (·.defines opcode name) =
      ops.countP (·.defines opcode name) + (op.defines opcode name).toNat := by
  rw [List.countP_append, List.countP_singleton]
  cases op.defines opcode name <;> rfl

theorem noting_concat (e : Declarations) (ops : List Operation) (op : Operation) :
    e.noting (ops ++ [op]) = (e.noting ops).note op none :=
  Declarations.noting_append e ops [op]

/-- One more operation that defines neither an entity nor a class. -/
theorem concat (h : Orderly v ops) (hentity : op.opcode ≠ .defineEntity)
    (hclass : op.opcode ≠ .defineEntityClass)
    (hop : op.Grounded v (Declarations.empty.noting ops)) : Orderly v (ops ++ [op]) := by
  have hsame := (Declarations.empty.noting ops).note_sameNames hentity hclass none
  refine ⟨h.prepared.concat fun _ => hop, ?_, ?_⟩
  · intro name
    rw [countP_concat, noting_concat, hsame.entityType?, h.entities,
      Operation.defines_eq_false hentity]
    rfl
  · intro name
    rw [countP_concat, noting_concat, hsame.classType?, h.classes,
      Operation.defines_eq_false hclass]
    rfl

/-- The definition of a class that was not defined before. -/
theorem concat_class (h : Orderly v ops) (hop : op.opcode = .defineEntityClass)
    (hgrounded : op.Grounded v (Declarations.empty.noting ops)) : Orderly v (ops ++ [op]) := by
  have hentity : op.opcode ≠ .defineEntity := by
    rw [hop]
    exact nofun
  have hnew := hgrounded.definesNew
  unfold Operation.DefinesNew at hnew
  rw [hop] at hnew
  obtain ⟨⟨type, htype, -⟩, -, -, hnone⟩ := hnew
  refine ⟨h.prepared.concat fun _ => hgrounded, ?_, ?_⟩
  · intro name
    rw [countP_concat, noting_concat, Declarations.note_defineEntityClass hop htype,
      Declarations.entityType?_addClass, h.entities, Operation.defines_eq_false hentity]
    rfl
  · intro name
    rw [countP_concat, noting_concat, Declarations.note_defineEntityClass hop htype,
      Declarations.classType?_addClass, h.classes]
    by_cases hname : op.argument 0 = name
    · rw [← hname, hnone]
      simp [Operation.defines, hop]
    · simp [Operation.defines, hname]

/-- The definition of an entity that was not defined before. -/
theorem concat_entity (h : Orderly v ops) (hop : op.opcode = .defineEntity)
    (htype : EntityType.ofName? (op.argument 1) = some type)
    (hnone : (Declarations.empty.noting ops).entityType? (op.argument 0) = none) :
    Orderly v (ops ++ [op]) := by
  have hclass : op.opcode ≠ .defineEntityClass := by
    rw [hop]
    exact nofun
  refine ⟨h.prepared.concat fun hne => absurd hop hne, ?_, ?_⟩
  · intro name
    rw [countP_concat, noting_concat, Declarations.note_defineEntity hop htype,
      Declarations.entityType?_addEntity, h.entities]
    by_cases hname : op.argument 0 = name
    · rw [← hname, hnone]
      simp [Operation.defines, hop]
    · simp [Operation.defines, hname]
  · intro name
    rw [countP_concat, noting_concat, Declarations.note_defineEntity hop htype,
      Declarations.classType?_addEntity, h.classes, Operation.defines_eq_false hclass]
    rfl

/-- The definition of an entity with another class and another plural. -/
theorem replace (h : Orderly v (before ++ op :: after)) (hentity : op.opcode = .defineEntity)
    (hop : op'.opcode = op.opcode) (hfirst : op'.argument 0 = op.argument 0)
    (hsecond : op'.argument 1 = op.argument 1) : Orderly v (before ++ op' :: after) := by
  have halike : (Declarations.empty.noting (before ++ op :: after)).Alike
      (Declarations.empty.noting (before ++ op' :: after)) :=
    Declarations.noting_replace .empty hop hfirst hsecond
  have hcount : ∀ opcode name, (before ++ op' :: after).countP (·.defines opcode name) =
      (before ++ op :: after).countP (·.defines opcode name) := by
    intro opcode name
    simp only [List.countP_append, List.countP_cons, Operation.defines_congr hop hfirst]
  refine ⟨h.prepared.replace hentity hop hfirst hsecond, ?_, ?_⟩
  · intro name
    rw [hcount, halike.entityType?, h.entities]
  · intro name
    rw [hcount, halike.classType?, h.classes]

end Orderly

/-! ### Declarations and what is awaited -/

namespace Declarations

/-- What is known is what is declared or awaited. -/
structure Covers (e : Declarations) (awaited : List Awaited) (known : Declarations) : Prop where
  entityType? : ∀ name type, known.entityType? name = some type ↔
    e.entityType? name = some type ∨ ∃ use ∈ awaited, use.name = name ∧ use.type = type
  classType? : ∀ name, known.classType? name = e.classType? name
  words : e.SameWords known

namespace Covers

variable {awaited : List Awaited} {known known' : Declarations} {entity : DeclaredEntity}
variable {use : Awaited}

theorem congr (h : e.Covers awaited known) (hknown : known.Alike known') :
    e.Covers awaited known' := by
  refine ⟨?_, ?_, h.words.trans hknown.words⟩
  · intro name type
    rw [hknown.entityType?]
    exact h.entityType? name type
  · intro name
    rw [hknown.classType?]
    exact h.classType? name

theorem entityType?_eq_none (h : e.Covers awaited known) (hentity : e.entity? name = none)
    (hnone : ∀ use ∈ awaited, use.name ≠ name) : known.entityType? name = none := by
  rw [Option.eq_none_iff_forall_ne_some]
  intro type htype
  obtain hdeclared | ⟨use, huse, hname, -⟩ := (h.entityType? name type).mp htype
  · rw [Declarations.entityType?, hentity] at hdeclared
    cases hdeclared
  · exact hnone use huse hname

theorem addClass (h : e.Covers awaited known) (declared : DeclaredClass) :
    (e.addClass declared).Covers awaited (known.addClass declared) := by
  refine ⟨h.entityType?, ?_, h.words.addClass _ _⟩
  intro name
  rw [classType?_addClass, classType?_addClass, h.classType?]

/-- An entity that is declared is not awaited any more. -/
theorem awaited_filter (name other : String) (type : EntityType) :
    (∃ use ∈ awaited.filter (·.name != name), use.name = other ∧ use.type = type) ↔
      name ≠ other ∧ ∃ use ∈ awaited, use.name = other ∧ use.type = type := by
  constructor
  · rintro ⟨use, huse, rfl, htype⟩
    obtain ⟨huse, hne⟩ := List.mem_filter.mp huse
    exact ⟨fun heq => by simp [heq] at hne, use, huse, rfl, htype⟩
  · rintro ⟨hne, use, huse, rfl, htype⟩
    exact ⟨use, List.mem_filter.mpr ⟨huse, by simpa using Ne.symm hne⟩, rfl, htype⟩

/-- An entity that is defined where it is declared. -/
theorem addEntity (h : e.Covers awaited known) (entity : DeclaredEntity) :
    (e.addEntity entity).Covers (awaited.filter (·.name != entity.name))
      (known.addEntity entity) := by
  refine ⟨?_, h.classType?, h.words.addEntity _ _⟩
  intro name type
  rw [entityType?_addEntity, entityType?_addEntity, awaited_filter]
  by_cases hname : entity.name = name
  · simp [hname]
  · simpa [hname] using h.entityType? name type

/-- An entity that was known before it is declared. -/
theorem settle (h : e.Covers awaited known) (entity : DeclaredEntity)
    (hknown : known.entityType? entity.name = some entity.type) :
    (e.addEntity entity).Covers (awaited.filter (·.name != entity.name)) known := by
  refine ⟨?_, h.classType?, h.words.directions, h.words.directionSynonyms, h.words.verbSynonyms⟩
  intro name type
  rw [entityType?_addEntity, awaited_filter]
  by_cases hname : entity.name = name
  · subst hname
    simp [hknown]
  · simpa [hname] using h.entityType? name type

/-- An entity that is known from now on, and awaited. -/
theorem await (h : e.Covers awaited known) (hnone : e.entityType? use.name = none)
    (hnew : ∀ other ∈ awaited, other.name ≠ use.name) (className : String) (line : Nat) :
    e.Covers (awaited ++ [use]) (known.addEntity ⟨use.name, use.type, className, line⟩) := by
  refine ⟨?_, h.classType?, h.words.directions, h.words.directionSynonyms, h.words.verbSynonyms⟩
  intro name type
  rw [entityType?_addEntity]
  by_cases hname : use.name = name
  · subst hname
    simp only [hnone, List.mem_append, List.mem_singleton, or_and_right, exists_or, if_true]
    simpa using fun other hother hname => absurd hname (hnew other hother)
  · simpa [hname, or_and_right, exists_or] using h.entityType? name type

end Covers

end Declarations

namespace Draft

variable {d d' : Draft} {declarations : Declarations} {className : String}
variable {plural : Option String}

/-- What the operations of a draft define. -/
def noted (d : Draft) : Declarations :=
  Declarations.empty.noting d.operations

/-- A draft whose operations are prepared, and define what it has declared and what it
awaits. -/
structure Named (v : Vocabulary) (d : Draft) : Prop where
  placed : d.Placed
  orderly : Orderly v d.operations
  covers : d.declarations.Covers d.awaited d.noted
  canonical : d.declarations.Canonical v
  /-- No name is that of a class and of an entity. -/
  apart : ∀ name, (d.declarations.classType? name).isSome → d.declarations.entityType? name = none

theorem Named.empty (hv : v.Canonical) : Draft.empty.Named v := by
  refine ⟨.empty, .nil, ⟨?_, fun _ => rfl, .refl _⟩, Declarations.canonical_empty hv, ?_⟩
  · intro name type
    show _ ↔ _ ∨ ∃ use ∈ [], _
    simp [Draft.empty, noted, operations, Program.operations, Program.empty, Declarations.noting]
  · intro name _
    simp [Draft.empty, Declarations.entityType?, Declarations.entity?, Declarations.empty]

/-- What a draft has come to: it is still named, and what it defined it still defines. -/
def Leads (v : Vocabulary) (d d' : Draft) : Prop :=
  d'.Named v ∧ d.noted.Grows d'.noted

theorem Leads.trans {d'' : Draft} (h : d.Leads v d') (h' : d'.Leads v d'') : d.Leads v d'' :=
  ⟨h'.1, h.2.trans h'.2⟩

theorem noted_concat (h : d'.operations = d.operations ++ [op]) :
    d'.noted = d.noted.note op none := by
  rw [noted, h, Declarations.noting_append]
  rfl

/-! ### Words -/

/-- **Writes an operation that is grounded**, and declares what it says. -/
theorem Named.writeWith (hd : d.Named v) (hentity : op.opcode ≠ .defineEntity)
    (hclass : op.opcode ≠ .defineEntityClass) (hop : op.Grounded v d.noted)
    (hsame : d.declarations.SameNames declarations)
    (hwords : declarations.SameWords (d.noted.note op none))
    (hcanonical : declarations.Canonical v) :
    d.Leads v { d.write op with declarations } := by
  have hops := hd.placed.operations_write op
  have hnoted : ({ d.write op with declarations } : Draft).noted = d.noted.note op none :=
    noted_concat hops
  have hsameNoted := d.noted.note_sameNames hentity hclass none
  refine ⟨⟨(hd.placed.write op).withDeclarations _, ?_, ⟨?_, ?_, ?_⟩, hcanonical, ?_⟩, ?_⟩
  · show Orderly v (d.write op).operations
    rw [hops]
    exact hd.orderly.concat hentity hclass hop
  · intro name type
    rw [hnoted, hsameNoted.entityType?]
    show _ ↔ declarations.entityType? name = some type ∨ _
    rw [hsame.entityType?]
    exact hd.covers.entityType? name type
  · intro name
    rw [hnoted, hsameNoted.classType?, hd.covers.classType?]
    exact (hsame.classType? name).symm
  · rw [hnoted]
    exact hwords
  · intro name
    show (declarations.classType? name).isSome → declarations.entityType? name = none
    rw [hsame.classType?, hsame.entityType?]
    exact hd.apart name
  · rw [hnoted]
    exact fun _ _ => hsameNoted.hasSubject

/-- Writes an operation that is grounded and declares nothing. -/
theorem Named.write (hd : d.Named v) (hdeclares : op.opcode.declares = false)
    (hop : op.Grounded v d.noted) : d.Leads v (d.write op) := by
  have hne : ∀ opcode : Opcode, opcode.declares = true → op.opcode ≠ opcode := by
    rintro opcode htrue rfl
    exact absurd (htrue.symm.trans hdeclares) nofun
  have halike := Declarations.note_alike (e := d.noted) hdeclares none
  exact hd.writeWith (hne _ rfl) (hne _ rfl) hop (.refl _) (hd.covers.words.trans halike.words)
    hd.canonical

theorem Named.defineDirection {word : String} (hd : d.Named v)
    (h : d.declareDirection v word line = .ok d') :
    d.Leads v (d'.write (.defineDirection word line)) := by
  unfold Draft.declareDirection at h
  split at h
  · cases h
  rename_i hdeclared
  simp only [Declarations.declareDirection, throw_bind, guard_ok_iff, pure_ok_iff,
    Option.not_isSome_iff_eq_none] at hdeclared
  obtain ⟨hnew, rfl⟩ := hdeclared
  obtain rfl := Except.ok.inj h
  refine hd.writeWith (by rintro ⟨⟩) (by rintro ⟨⟩)
    ⟨⟨rfl, trivial⟩, fun hne => absurd rfl hne, List.forall_mem_nil _, by rintro ⟨⟩, ?_⟩
    ⟨rfl, rfl⟩ (hd.covers.words.addDirection word) (hd.canonical.addDirection word)
  exact (hd.covers.words.resolveDirection v word).trans hnew

theorem Named.defineDirectionSynonym {direction word : String} (hd : d.Named v)
    (h : d.declareDirectionSynonym v direction word line = .ok d') :
    d.Leads v (d'.write (.defineDirectionSynonym direction word line)) := by
  unfold Draft.declareDirectionSynonym at h
  split at h
  · cases h
  rename_i hdeclared
  simp only [Declarations.declareDirectionSynonym, throw_bind, guard_ok_iff, pure_ok_iff,
    Option.not_isSome_iff_eq_none, not_not] at hdeclared
  obtain ⟨hdirection, hnew, rfl⟩ := hdeclared
  obtain rfl := Except.ok.inj h
  refine hd.writeWith (by rintro ⟨⟩) (by rintro ⟨⟩)
    ⟨⟨rfl, trivial⟩, fun hne => absurd rfl hne, List.forall_mem_nil _, by rintro ⟨⟩, ?_⟩
    ⟨rfl, rfl⟩ (hd.covers.words.addDirectionSynonym direction word)
    (hd.canonical.addDirectionSynonym hdirection hnew)
  exact ⟨(hd.covers.words.resolveDirection v direction).trans hdirection,
    (hd.covers.words.resolveDirection v word).trans hnew⟩

theorem Named.defineVerbSynonym {verb word : String} (hd : d.Named v)
    (h : d.declareVerbSynonym verb word line = .ok d') :
    d.Leads v (d'.write (.defineVerbSynonym verb word line)) := by
  unfold Draft.declareVerbSynonym at h
  split at h
  · exact absurd h nofun
  rename_i hdeclared
  unfold Declarations.declareVerbSynonym at hdeclared
  split at hdeclared
  · exact absurd hdeclared nofun
  rename_i hnew
  obtain rfl := Except.ok.inj hdeclared
  obtain rfl := Except.ok.inj h
  refine hd.writeWith (by rintro ⟨⟩) (by rintro ⟨⟩)
    ⟨⟨rfl, trivial⟩, fun hne => absurd rfl hne, List.forall_mem_nil _, by rintro ⟨⟩, ?_⟩
    ⟨rfl, rfl⟩ (hd.covers.words.addVerbSynonym verb word) hd.canonical
  exact (hd.covers.words.verbFor? word).trans hnew

/-! ### Classes and entities -/

/-- **A class that was declared is defined at once.** -/
theorem Named.defineClass (hd : d.Named v) (h : d.declareClass name type line = .ok d')
    (hname : Text.isBlankText name = false) (htype : type.isInstantiable) :
    d.Leads v (d'.write (.defineEntityClass name type line)) ∧
      (d'.write (.defineEntityClass name type line)).noted.HasSubject (.entityClass name)
        (some type) := by
  obtain ⟨rfl, hreserved, hentity, hclass⟩ := declareClass_ok h
  have hnew : d.noted.classType? name = none := by
    rw [hd.covers.classType?, Declarations.classType?, hclass]
    rfl
  have hnonempty : name ≠ "" := by
    rintro rfl
    cases hname
  have hop : (Operation.defineEntityClass name type line).Grounded v d.noted :=
    ⟨⟨rfl, trivial⟩, fun hne => absurd rfl hne, List.forall_mem_nil _, by rintro ⟨⟩,
      ⟨type, EntityType.ofName?_name type, htype⟩, hnonempty, hreserved, hnew⟩
  have hplaced := hd.placed.withDeclarations (d.declarations.addClass ⟨name, type, line⟩)
  have hops := hplaced.operations_write (.defineEntityClass name type line)
  have hnoted : ({ d with declarations := d.declarations.addClass ⟨name, type, line⟩ }.write
      (.defineEntityClass name type line)).noted = d.noted.addClass ⟨name, type, line⟩ :=
    (noted_concat hops).trans
      (Declarations.note_defineEntityClass rfl (EntityType.ofName?_name type))
  refine ⟨⟨⟨hplaced.write _, ?_, ?_, hd.canonical, ?_⟩, ?_⟩, ?_⟩
  · rw [hops]
    exact hd.orderly.concat_class rfl hop
  · rw [hnoted]
    exact hd.covers.addClass _
  · intro other
    show ((d.declarations.addClass ⟨name, type, line⟩).classType? other).isSome →
      d.declarations.entityType? other = none
    rw [Declarations.classType?_addClass]
    by_cases hother : name = other
    · subst hother
      intro _
      rw [Declarations.entityType?, hentity]
      rfl
    · rw [if_neg hother]
      exact hd.apart other
  · rw [hnoted]
    exact Declarations.grows_addClass hnew
  · rw [hnoted]
    exact ⟨type, by rw [Declarations.classType?_addClass, if_pos rfl], rfl⟩

/-- A declared entity is no class. -/
theorem Named.apart_addEntity (hd : d.Named v) (entity : DeclaredEntity)
    (hclass : d.declarations.class? entity.name = none) (other : String) :
    ((d.declarations.addEntity entity).classType? other).isSome →
      (d.declarations.addEntity entity).entityType? other = none := by
  rw [Declarations.classType?_addEntity, Declarations.entityType?_addEntity]
  intro hsome
  have hne : entity.name ≠ other := by
    rintro rfl
    rw [Declarations.classType?, hclass] at hsome
    cases hsome
  rw [if_neg hne]
  exact hd.apart other hsome

/-- **Declaring an entity** defines it or fills in the definition that it has. -/
theorem Named.declareEntity {index : Nat} (hd : d.Named v)
    (h : d.declareEntity name type className plural line = (.ok index, d')) :
    d.Leads v d' ∧ d'.noted.HasSubject (.entity name) (some type) := by
  obtain ⟨hplaced, hdeclares⟩ := hd.placed.declareEntity h
  have hapart := hd.apart_addEntity ⟨name, type, className, line⟩ hdeclares.entityClass
  have hcanonical : d'.declarations.Canonical v := by
    rw [hdeclares.declarations]
    exact hd.canonical
  have hsettled := hdeclares.operations
  generalize hops : d'.operations = ops at hsettled
  cases hsettled with
  | new hnone =>
    have hnew := hd.covers.entityType?_eq_none hdeclares.entity hnone
    have hnoted : d'.noted = d.noted.addEntity ⟨name, type, className, line⟩ :=
      (noted_concat hops).trans
        (Declarations.note_defineEntity rfl (EntityType.ofName?_name type))
    refine ⟨⟨⟨hplaced, ?_, ?_, hcanonical, ?_⟩, ?_⟩, ?_⟩
    · rw [hops]
      exact hd.orderly.concat_entity rfl (EntityType.ofName?_name type) hnew
    · rw [hdeclares.declarations, hdeclares.awaited, hnoted]
      exact hd.covers.addEntity ⟨name, type, className, line⟩
    · rw [hdeclares.declarations]
      exact hapart
    · rw [hnoted]
      exact Declarations.grows_addEntity hnew
    · rw [hnoted]
      exact ⟨type, by rw [Declarations.entityType?_addEntity, if_pos rfl], rfl⟩
  | @filled use before after first huse hname htype hold =>
    have hknown : d.noted.entityType? name = some type :=
      (hd.covers.entityType? name type).mpr (Or.inr ⟨use, huse, hname, htype⟩)
    have horderly := hd.orderly
    rw [hold] at horderly
    have halike : d.noted.Alike d'.noted := by
      rw [noted, noted, hold, hops]
      exact Declarations.noting_replace _ rfl rfl rfl
    refine ⟨⟨⟨hplaced, ?_, ?_, hcanonical, ?_⟩, halike.grows⟩, ?_⟩
    · rw [hops]
      exact horderly.replace rfl rfl rfl rfl
    · rw [hdeclares.declarations, hdeclares.awaited]
      exact (hd.covers.settle ⟨name, type, className, line⟩ hknown).congr halike
    · rw [hdeclares.declarations]
      exact hapart
    · exact halike.hasSubject ⟨type, hknown, rfl⟩

/-- **Using an entity** defines it, unless it was defined before. -/
theorem Named.referenceEntity (hd : d.Named v) (h : d.referenceEntity name type line = .ok d') :
    d.Leads v d' ∧ ∃ t, d'.noted.entityType? name = some t ∧ t.isA type := by
  have huses := usesEntity_of_ok h
  have hplaced := hd.placed.usesEntity huses
  cases huses with
  | @declared entity hentity htype =>
    have hknown : d.declarations.entityType? name = some entity.type := by
      rw [Declarations.entityType?, hentity]
      rfl
    exact ⟨⟨hd, .refl _⟩, entity.type,
      (hd.covers.entityType? name entity.type).mpr (Or.inl hknown), htype⟩
  | @again use hentity huse hname htype =>
    refine ⟨⟨⟨hplaced, hd.orderly, ⟨?_, hd.covers.classType?, hd.covers.words⟩, hd.canonical,
      hd.apart⟩, .refl _⟩, type, ?_, type.isA_refl⟩
    · intro other t
      rw [show ({ d with awaited := d.awaited.map (usedOn name line) } : Draft).noted = d.noted from
        rfl, hd.covers.entityType? other t]
      simp
    · exact (hd.covers.entityType? name type).mpr (Or.inr ⟨use, huse, hname, htype⟩)
  | first hentity hclass hnone =>
    have hnew := hd.covers.entityType?_eq_none hentity hnone
    have hops := hd.placed.operations_write (.defineEntity name type type.name none line)
    have hnoted : (d.write (.defineEntity name type type.name none line)).noted =
        d.noted.addEntity ⟨name, type, type.name, line⟩ :=
      (noted_concat hops).trans
        (Declarations.note_defineEntity rfl (EntityType.ofName?_name type))
    have hundeclared : d.declarations.entityType? name = none := by
      rw [Declarations.entityType?, hentity]
      rfl
    refine ⟨⟨⟨hplaced, ?_, ?_, hd.canonical, hd.apart⟩, ?_⟩, type, ?_, type.isA_refl⟩
    · show Orderly v (d.write _).operations
      rw [hops]
      exact hd.orderly.concat_entity rfl (EntityType.ofName?_name type) hnew
    · show d.declarations.Covers _ (d.write _).noted
      rw [hnoted]
      exact hd.covers.await hundeclared hnone type.name line
    · show d.noted.Grows (d.write _).noted
      rw [hnoted]
      exact Declarations.grows_addEntity hnew
    · show (d.write _).noted.entityType? name = some type
      rw [hnoted, Declarations.entityType?_addEntity, if_pos rfl]

end Draft

end Adventure
