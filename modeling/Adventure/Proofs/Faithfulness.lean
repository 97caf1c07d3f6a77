/-
Drafts that declare what their operations define.

Two hands keep a list of what a game declares: the draft, while the source is read, and
the run, while the operations are carried out.  The draft notes an entity with its class
when it is declared, though the definition may have been written long before and with
another class; the run notes what the definition says when it comes to it.

What carries the argument is a third list, that of the settled definitions.  A draft has
declared exactly what they say, and its operations define exactly them and the names that
are still awaited; each step that builds a draft keeps it so.  A run declares exactly what
its operations define.  Where nothing is awaited any more the two lists are the same.
-/
import Adventure.Proofs.Steps

namespace Adventure

variable {v : Vocabulary} {op : Operation} {ops : List Operation} {name className : String}
variable {type : EntityType} {plural : Option String} {line : Nat} {form : EntityType × String}

namespace Declarations

variable {e e' known : Declarations} {awaited : List Awaited}

/-- The type and the class that an entity was declared with. -/
def form? (e : Declarations) (name : String) : Option (EntityType × String) :=
  (e.entity? name).map fun entity => (entity.type, entity.className)

theorem form?_addEntity (e : Declarations) (entity : DeclaredEntity) (name : String) :
    (e.addEntity entity).form? name =
      if entity.name = name then some (entity.type, entity.className) else e.form? name := by
  rw [form?, entity?_addEntity]
  split <;> rfl

theorem SameNames.form? (h : e.SameNames e') (name : String) : e'.form? name = e.form? name := by
  rw [Declarations.form?, h.entity?, Declarations.form?]

/-- Only the definition of an entity adds one. -/
theorem form?_note (hop : op.opcode ≠ .defineEntity) (value : Option Value) (name : String) :
    (e.note op value).form? name = e.form? name := by
  by_cases hclass : op.opcode = .defineEntityClass
  · cases htype : EntityType.ofName? (op.argument 1) with
    | none => simp [note, hclass, htype]
    | some type =>
      rw [note_defineEntityClass hclass htype]
      rfl
  · exact (note_sameNames hop hclass value).form? name

/-- What is known covers what is declared after an operation that defines neither an entity
nor a class. -/
theorem Covers.note (h : e.Covers awaited known) (hsame : e.SameNames e')
    (hentity : op.opcode ≠ .defineEntity) (hclass : op.opcode ≠ .defineEntityClass)
    (hwords : e'.SameWords (known.note op none)) : e'.Covers awaited (known.note op none) := by
  have hknown := known.note_sameNames hentity hclass none
  refine ⟨?_, ?_, hwords⟩
  · intro name type
    rw [hknown.entityType?, hsame.entityType?]
    exact h.entityType? name type
  · intro name
    rw [hknown.classType?, hsame.classType?]
    exact h.classType? name

/-- What is awaited is covered whatever lines it was used on. -/
theorem Covers.usedOn (h : e.Covers awaited known) (name : String) (line : Nat) :
    e.Covers (awaited.map (Draft.usedOn name line)) known := by
  refine ⟨?_, h.classType?, h.words⟩
  intro other type
  rw [h.entityType? other type]
  simp

end Declarations

namespace Draft

variable {d d' : Draft} {settled : List (List String)}

/-! ### What a draft keeps -/

/-- A draft that has declared what the settled definitions say. -/
structure Faithful (d : Draft) (settled : List (List String)) : Prop where
  defines : d.Defines settled
  /-- The entities, with the types and classes of their definitions. -/
  entities : ∀ name form, d.declarations.form? name = some form ↔
    ∃ plural, definitionOf name form.1 form.2 plural ∈ settled
  /-- The classes and the words; and an entity that is not declared is awaited. -/
  covers : d.declarations.Covers d.awaited d.noted

theorem Faithful.empty : Draft.empty.Faithful [] := by
  refine ⟨.empty, ?_, ?_, fun _ => rfl, .refl _⟩
  · intro name form
    simp [Draft.empty, Declarations.form?, Declarations.entity?, Declarations.empty]
  · intro name type
    show _ ↔ _ ∨ ∃ use ∈ [], _
    simp [Draft.empty, noted, operations, Program.operations, Program.empty, Declarations.noting]

theorem Faithful.usesEntity (h : d.Faithful settled) (huses : d.UsesEntity name type line d') :
    d'.Faithful settled := by
  refine ⟨h.defines.usesEntity huses, ?_, ?_⟩
  · rw [huses.declarations]
    exact h.entities
  cases huses with
  | declared => exact h.covers
  | again => exact h.covers.usedOn name line
  | first hentity _ hnone =>
    have hnoted : (d.write (.defineEntity name type type.name none line)).noted =
        d.noted.addEntity ⟨name, type, type.name, line⟩ :=
      (noted_concat (h.defines.placed.operations_write _)).trans
        (Declarations.note_defineEntity rfl (EntityType.ofName?_name type))
    show d.declarations.Covers _ (d.write _).noted
    rw [hnoted]
    refine h.covers.await ?_ hnone type.name line
    rw [Declarations.entityType?, hentity]
    rfl

/-- The words that an operation declares are noted when it is carried out. -/
theorem Faithful.writeWord (h : d.Faithful settled) {declarations : Declarations}
    (hsame : d.declarations.SameNames declarations) (hentity : op.opcode ≠ .defineEntity)
    (hclass : op.opcode ≠ .defineEntityClass)
    (hwords : declarations.SameWords (d.noted.note op none)) :
    (({ d with declarations } : Draft).write op).Faithful settled := by
  have hdefines := h.defines.withDeclarations declarations
  refine ⟨hdefines.write hentity, ?_, ?_⟩
  · intro name form
    show declarations.form? name = some form ↔ _
    rw [hsame.form?]
    exact h.entities name form
  · rw [noted_concat (hdefines.placed.operations_write op)]
    exact h.covers.note hsame hentity hclass hwords

theorem Faithful.write (h : d.Faithful settled) (hop : op.opcode.declares = false) :
    (d.write op).Faithful settled := by
  have hne : ∀ opcode : Opcode, opcode.declares = true → op.opcode ≠ opcode := by
    rintro opcode htrue rfl
    exact absurd (htrue.symm.trans hop) nofun
  exact h.writeWord (.refl _) (hne _ rfl) (hne _ rfl)
    (h.covers.words.trans (Declarations.note_alike hop none).words)

/-- A class is noted from its definition. -/
theorem Faithful.defineClass (h : d.Faithful settled)
    (hdeclare : d.declareClass name type line = .ok d') :
    (d'.write (.defineEntityClass name type line)).Faithful settled := by
  obtain ⟨rfl, -⟩ := declareClass_ok hdeclare
  have hdefines := h.defines.withDeclarations (d.declarations.addClass ⟨name, type, line⟩)
  refine ⟨hdefines.write (by rintro ⟨⟩), h.entities, ?_⟩
  have hnoted := (noted_concat (hdefines.placed.operations_write
    (.defineEntityClass name type line))).trans
      (Declarations.note_defineEntityClass rfl (EntityType.ofName?_name type))
  rw [hnoted]
  exact h.covers.addClass _

/-- **Writing an operation settles no definition.** -/
theorem Faithful.adds (h : d.Faithful settled) (hadds : d.Adds v op d') : d'.Faithful settled := by
  cases hadds with
  | plain hop => exact h.write hop
  | mentioning hmentions hop => exact (h.usesEntity (usesEntity_of_ok hmentions)).write hop
  | entityClass hdeclare hop =>
    subst hop
    exact h.defineClass hdeclare
  | @direction _ word line hdeclare hop =>
    subst hop
    obtain rfl := declareDirection_ok hdeclare
    exact h.writeWord ⟨rfl, rfl⟩ (by rintro ⟨⟩) (by rintro ⟨⟩) (h.covers.words.addDirection word)
  | @directionSynonym _ direction word line hdeclare hop =>
    subst hop
    obtain rfl := declareDirectionSynonym_ok hdeclare
    exact h.writeWord ⟨rfl, rfl⟩ (by rintro ⟨⟩) (by rintro ⟨⟩)
      (h.covers.words.addDirectionSynonym direction word)
  | @verbSynonym _ verb word line hdeclare hop =>
    subst hop
    obtain rfl := declareVerbSynonym_ok hdeclare
    exact h.writeWord ⟨rfl, rfl⟩ (by rintro ⟨⟩) (by rintro ⟨⟩)
      (h.covers.words.addVerbSynonym verb word)

/-- **Declaring an entity settles a definition that says what was declared.** -/
theorem Faithful.declareEntity {index : Nat} (h : d.Faithful settled)
    (hdeclare : d.declareEntity name type className plural line = (.ok index, d')) :
    d'.Faithful (settled ++ [definitionOf name type className plural]) := by
  obtain ⟨-, hdeclares⟩ := h.defines.placed.declareEntity hdeclare
  refine ⟨h.defines.declareEntity hdeclare, ?_, ?_⟩
  · intro other form
    rw [hdeclares.declarations, Declarations.form?_addEntity]
    simp only [List.mem_append, List.mem_singleton, exists_or, ← h.entities]
    by_cases hname : name = other
    · subst hname
      have hnone : d.declarations.form? name = none := by
        rw [Declarations.form?, hdeclares.entity]
        rfl
      rw [if_pos rfl, hnone, Option.some.injEq]
      constructor
      · rintro rfl
        exact Or.inr ⟨plural, rfl⟩
      · rintro (hsome | ⟨_, hsame⟩)
        · cases hsome
        · obtain ⟨-, htype, hclass⟩ := definitionOf_inj hsame
          exact Prod.ext htype.symm hclass.symm
    · rw [if_neg hname, or_iff_left]
      rintro ⟨_, hsame⟩
      exact hname (definitionOf_inj hsame).1.symm
  · rw [hdeclares.declarations, hdeclares.awaited]
    have hsettled := hdeclares.operations
    generalize hops : d'.operations = ops at hsettled
    cases hsettled with
    | new hnone =>
      rw [(noted_concat hops).trans
        (Declarations.note_defineEntity rfl (EntityType.ofName?_name type))]
      exact h.covers.addEntity ⟨name, type, className, line⟩
    | @filled use before after first huse hname htype hold =>
      have hknown : d.noted.entityType? name = some type :=
        (h.covers.entityType? name type).mpr (Or.inr ⟨use, huse, hname, htype⟩)
      refine (h.covers.settle ⟨name, type, className, line⟩ hknown).congr ?_
      rw [noted, noted, hold, hops]
      exact Declarations.noting_replace _ rfl rfl rfl

/-! ### Drafts that were built -/

/-- A draft that was built from nothing by writing operations and declaring entities. -/
inductive Built (v : Vocabulary) : Draft → Prop
  | empty : Built v .empty
  | adds {d d' : Draft} {op : Operation} (h : Built v d) (hadds : d.Adds v op d') : Built v d'
  | declares {d d' : Draft} {name className : String} {type : EntityType} {plural : Option String}
    {line index : Nat} (h : Built v d)
    (hdeclare : d.declareEntity name type className plural line = (.ok index, d')) : Built v d'

/-- **However a draft was built, it has declared what its definitions say.** -/
theorem Built.faithful (h : d.Built v) : ∃ settled, d.Faithful settled := by
  induction h with
  | empty => exact ⟨[], .empty⟩
  | adds _ hadds ih =>
    obtain ⟨settled, hd⟩ := ih
    exact ⟨settled, hd.adds hadds⟩
  | declares _ hdeclare ih =>
    obtain ⟨settled, hd⟩ := ih
    exact ⟨_, hd.declareEntity hdeclare⟩

end Draft

/-! ### What a run declares -/

/-- An operation that passes its check as the definition of an entity is one. -/
theorem Validation.arguments_defineEntity {e : Declarations} {value : Option Value}
    (hop : op.opcode = .defineEntity) (h : Validation.check v e op = .ok value) :
    ∃ type plural, op.arguments = definitionOf (op.argument 0) type (op.argument 2) plural ∧
      EntityType.ofName? (op.argument 1) = some type ∧ e.form? (op.argument 0) = none := by
  have hdefine : defineEntity e op = .ok value := by
    rw [check, hop] at h
    exact h
  obtain ⟨harity, ⟨type, htype, -⟩, -, -, hentity, -⟩ := defineEntity_ok_iff.mp hdefine
  obtain ⟨arity, hcount, haccepts⟩ := checkArity_ok_iff.mp harity
  have hfresh : e.form? (op.argument 0) = none := by
    rw [Declarations.form?, hentity]
    rfl
  rw [Operation.arity, hop] at hcount
  obtain rfl := Option.some.inj hcount
  simp only [Arity.accepts, Bool.and_eq_true, decide_eq_true_eq] at haccepts
  have hname := EntityType.name_of_ofName? htype
  unfold Operation.argument at *
  have hlength : op.arguments.length = 3 ∨ op.arguments.length = 4 := by omega
  rcases hlength with hlength | hlength
  · obtain ⟨name, word, className, harguments⟩ := List.length_eq_three.mp hlength
    rw [harguments] at htype hfresh hname ⊢
    exact ⟨type, none, by simp [definitionOf, hname], htype, hfresh⟩
  · obtain ⟨name, word, className, plural, harguments⟩ := List.length_eq_four.mp hlength
    rw [harguments] at htype hfresh hname ⊢
    exact ⟨type, some plural, by simp [definitionOf, hname], htype, hfresh⟩

namespace Execution

variable {s : Surroundings} {x x' : Execution World}

/-- **Carrying out an operation declares an entity only as its definition says.** -/
theorem form?_of_execute (hx : x.Sound) (h : execute (World.builder s) v op x = .ok () x')
    (name : String) (form : EntityType × String) :
    x'.declarations.form? name = some form ↔ x.declarations.form? name = some form ∨
      ∃ plural, definitionOf name form.1 form.2 plural ∈ entityDefinitions [op] := by
  obtain ⟨-, value, action, hcheck, -, -, hnote⟩ := step_of_execute hx h
  rw [hnote]
  by_cases hop : op.opcode = .defineEntity
  · obtain ⟨type, plural, harguments, htype, hfresh⟩ := Validation.arguments_defineEntity hop hcheck
    have hdefinitions : entityDefinitions [op] = [op.arguments] := by simp [entityDefinitions, hop]
    rw [Declarations.note_defineEntity hop htype, Declarations.form?_addEntity, hdefinitions,
      harguments]
    by_cases hname : op.argument 0 = name
    · subst hname
      rw [if_pos rfl, hfresh]
      constructor
      · rintro ⟨⟩
        exact Or.inr ⟨plural, List.mem_singleton_self _⟩
      · rintro (hsome | ⟨_, hsame⟩)
        · cases hsome
        · obtain ⟨-, hform, hclass⟩ := definitionOf_inj (List.mem_singleton.mp hsame)
          exact congrArg some (Prod.ext hform.symm hclass.symm)
    · rw [if_neg hname, or_iff_left]
      rintro ⟨_, hsame⟩
      exact hname (definitionOf_inj (List.mem_singleton.mp hsame)).1.symm
  · have hdefinitions : entityDefinitions [op] = [] := by simp [entityDefinitions, hop]
    rw [Declarations.form?_note hop, hdefinitions]
    simp

/-- **A run declares the entities that its operations define.** -/
theorem form?_of_forM (hx : x.Sound) (h : ops.forM (execute (World.builder s) v) x = .ok () x')
    (name : String) (form : EntityType × String) :
    x'.declarations.form? name = some form ↔ x.declarations.form? name = some form ∨
      ∃ plural, definitionOf name form.1 form.2 plural ∈ entityDefinitions ops := by
  induction ops generalizing x with
  | nil =>
    obtain rfl := (EStateM.Result.ok.inj h).2
    simp [entityDefinitions]
  | cons op rest ih =>
    rw [run_forM_cons] at h
    obtain ⟨_, y, hfirst, hrest⟩ := run_bind_ok_iff.mp h
    have hsplit : entityDefinitions (op :: rest) =
        entityDefinitions [op] ++ entityDefinitions rest := by
      rw [entityDefinitions, ← List.singleton_append, List.filter_append, List.map_append]
      rfl
    rw [ih (step_of_execute hx hfirst).1 hrest, form?_of_execute hx hfirst, hsplit]
    simp only [List.mem_append, exists_or, or_assoc]

end Execution

/-! ### The two together -/

/-- Two lists of declarations that give the same names the same meanings. -/
structure Declarations.Agrees (e e' : Declarations) : Prop where
  /-- The entities, with their types and classes. -/
  entities : ∀ name, e'.form? name = e.form? name
  /-- The classes, with their types. -/
  classes : ∀ name, e'.classType? name = e.classType? name
  directions : ∀ v word, e'.resolveDirection v word = e.resolveDirection v word
  verbs : ∀ word, e'.verbFor? word = e.verbFor? word

/-- **A draft in which nothing is awaited agrees with any run of its operations.** -/
theorem Draft.Built.agrees {d : Draft} {s : Surroundings} {x : Execution World}
    {requireStart : Bool} (h : d.Built v) (hawaited : d.awaited = [])
    (hrun : Execution.executeAll (World.builder s) v requireStart d.operations .emptyWorld =
      .ok () x) : d.declarations.Agrees x.declarations := by
  obtain ⟨settled, hd⟩ := h.faithful
  have hperm := hd.defines.perm
  rw [hawaited, List.map_nil, List.append_nil] at hperm
  rw [Execution.executeAll] at hrun
  obtain ⟨_, y, hforM, hend⟩ := run_bind_ok_iff.mp hrun
  -- what comes after the operations declares nothing
  have hsame : x.declarations = y.declarations := by
    split at hend
    · cases hend
    · obtain rfl := (EStateM.Result.ok.inj hend).2
      rfl
  rw [hsame]
  obtain ⟨-, halike⟩ := Execution.alike_of_forM Execution.sound_emptyWorld
    (Declarations.Alike.refl _) hforM
  refine ⟨?_, ?_, ?_, ?_⟩
  · intro name
    refine Option.ext fun form => ?_
    have hnone : Execution.emptyWorld.declarations.form? name = none := by
      simp [Execution.emptyWorld, Execution.start, Declarations.form?, Declarations.entity?,
        Declarations.empty]
    rw [Execution.form?_of_forM Execution.sound_emptyWorld hforM, hd.entities, hnone]
    simp only [hperm.mem_iff, reduceCtorEq, false_or]
  · intro name
    rw [halike.classType?]
    exact hd.covers.classType? name
  · intro v word
    exact (hd.covers.words.trans halike.words).resolveDirection v word
  · intro word
    exact (hd.covers.words.trans halike.words).verbFor? word

end Adventure
