/-
How drafts are built.

Whatever a draft is read from, it is built by few kinds of steps.  An operation is appended,
after the entity it names was used or together with what it declares; or an entity is
declared.  Only definitions of entities ever change once they are written, and nobody can
tell where they stand.  But taken together, in whatever order, they are always those of the
entities that are declared and those of the names that are still awaited: a use that comes
first adds one for the name, and the declaration turns that one into its own.  All other
operations stay as they are, in the order in which they were written.
-/
import Adventure.Proofs.Preparation

namespace Adventure

variable {v : Vocabulary} {op : Operation} {name className : String} {type : EntityType}
variable {plural : Option String} {line : Nat}

/-- The arguments of the definition of an entity. -/
def definitionOf (name : String) (type : EntityType) (className : String) (plural : Option String) :
    List String :=
  [name, type.name, className] ++ plural.toList

/-- The arguments of the definition that is written for a name before it is declared. -/
def Awaited.placeholder (use : Awaited) : List String :=
  definitionOf use.name use.type use.type.name none

theorem definitionOf_inj {name' className' : String} {type' : EntityType} {plural' : Option String}
    (h : definitionOf name type className plural = definitionOf name' type' className' plural') :
    name = name' ∧ type = type' ∧ className = className' := by
  simp only [definitionOf, List.cons_append, List.nil_append, List.cons.injEq] at h
  obtain ⟨hname, htype, hclass, -⟩ := h
  refine ⟨hname, ?_, hclass⟩
  have hsame := congrArg EntityType.ofName? htype
  rw [EntityType.ofName?_name, EntityType.ofName?_name] at hsame
  exact Option.some.inj hsame

/-! ### Definitions of entities among operations -/

section Operations

variable {ops before after : List Operation}

/-- The arguments of the definitions of entities, in the order in which they stand. -/
def entityDefinitions (ops : List Operation) : List (List String) :=
  (ops.filter (·.opcode = .defineEntity)).map (·.arguments)

/-- The operations other than definitions of entities. -/
def otherOperations (ops : List Operation) : List Operation :=
  ops.filter (·.opcode ≠ .defineEntity)

theorem entityDefinitions_concat (hop : op.opcode ≠ .defineEntity) :
    entityDefinitions (ops ++ [op]) = entityDefinitions ops := by
  simp [entityDefinitions, List.filter_append, hop]

theorem entityDefinitions_concat_entity (hop : op.opcode = .defineEntity) :
    entityDefinitions (ops ++ [op]) = entityDefinitions ops ++ [op.arguments] := by
  simp [entityDefinitions, List.filter_append, hop]

theorem otherOperations_concat (hop : op.opcode ≠ .defineEntity) :
    otherOperations (ops ++ [op]) = otherOperations ops ++ [op] := by
  simp [otherOperations, List.filter_append, hop]

theorem entityDefinitions_split (hop : op.opcode = .defineEntity) :
    (entityDefinitions (before ++ op :: after)).Perm
      (op.arguments :: entityDefinitions (before ++ after)) := by
  have hmiddle : (before ++ op :: after).Perm (op :: (before ++ after)) := List.perm_middle
  have hsplit := hmiddle.filter (·.opcode = .defineEntity)
  rw [List.filter_cons_of_pos (by simpa using hop)] at hsplit
  exact hsplit.map (·.arguments)

theorem otherOperations_split (hop : op.opcode = .defineEntity) :
    otherOperations (before ++ op :: after) = otherOperations (before ++ after) := by
  simp [otherOperations, List.filter_append, hop]

end Operations

namespace Draft

variable {d d' : Draft} {settled : List (List String)}

/-! ### What the definitions are -/

/-- The definitions of entities are the settled ones and those of the awaited names. -/
structure Defines (d : Draft) (settled : List (List String)) : Prop where
  placed : d.Placed
  perm : (entityDefinitions d.operations).Perm (settled ++ d.awaited.map Awaited.placeholder)

theorem Defines.empty : empty.Defines [] :=
  ⟨.empty, .refl _⟩

theorem Defines.withDeclarations (h : d.Defines settled) (declarations : Declarations) :
    ({ d with declarations } : Draft).Defines settled :=
  ⟨h.placed.withDeclarations declarations, h.perm⟩

theorem Defines.write (h : d.Defines settled) (hop : op.opcode ≠ .defineEntity) :
    (d.write op).Defines settled := by
  refine ⟨h.placed.write op, ?_⟩
  rw [h.placed.operations_write, entityDefinitions_concat hop]
  exact h.perm

theorem Placed.others_write (h : d.Placed) (hop : op.opcode ≠ .defineEntity) :
    otherOperations (d.write op).operations = otherOperations d.operations ++ [op] := by
  rw [h.operations_write, otherOperations_concat hop]

/-- Of the awaited names one that is taken out was there once. -/
theorem awaited_perm {awaited : List Awaited} {use : Awaited} (huse : use ∈ awaited)
    (hdistinct : (awaited.map Awaited.name).Nodup) :
    awaited.Perm (use :: awaited.filter (·.name != use.name)) := by
  induction awaited with
  | nil => cases huse
  | cons first rest ih =>
    obtain ⟨hfresh, hrest⟩ := List.nodup_cons.mp hdistinct
    rcases List.mem_cons.mp huse with rfl | huse
    · have hothers : rest.filter (·.name != use.name) = rest := by
        refine List.filter_eq_self.mpr ?_
        intro other hother
        have hne : other.name ≠ use.name := fun heq =>
          hfresh (heq ▸ List.mem_map_of_mem hother)
        simpa using hne
      simp [hothers]
    · have hne : first.name ≠ use.name := fun heq =>
        hfresh (heq ▸ List.mem_map_of_mem huse)
      rw [List.filter_cons_of_pos (by simpa using hne)]
      exact ((ih huse hrest).cons first).trans (.swap use first _)

/-- **Declaring an entity settles its definition**, wherever that stands. -/
theorem Defines.declareEntity {index : Nat} (h : d.Defines settled)
    (hdeclare : d.declareEntity name type className plural line = (.ok index, d')) :
    d'.Defines (settled ++ [definitionOf name type className plural]) := by
  obtain ⟨hplaced, hdeclares⟩ := h.placed.declareEntity hdeclare
  refine ⟨hplaced, ?_⟩
  rw [hdeclares.awaited]
  have hsettled := hdeclares.operations
  generalize d'.operations = ops at hsettled
  cases hsettled with
  | new hnone =>
    have hawaited : d.awaited.filter (·.name != name) = d.awaited := by
      rw [List.filter_eq_self]
      intro use huse
      simpa using hnone use huse
    rw [hawaited, entityDefinitions_concat_entity rfl, List.append_assoc]
    refine (List.perm_append_singleton _ _).trans ?_
    exact (h.perm.cons _).trans List.perm_middle.symm
  | @filled use before after first huse hname htype hold =>
    subst hname htype
    -- taken out of the old definitions, the placeholder leaves what the new one is added to
    have hrest : (entityDefinitions (before ++ after)).Perm
        (settled ++ (d.awaited.filter (·.name != use.name)).map Awaited.placeholder) := by
      have hawaited := (awaited_perm huse h.placed.distinct).map Awaited.placeholder
      have hfirst : (entityDefinitions d.operations).Perm
          (use.placeholder :: entityDefinitions (before ++ after)) := by
        rw [hold]
        exact entityDefinitions_split rfl
      refine List.Perm.cons_inv (a := use.placeholder) (hfirst.symm.trans (h.perm.trans ?_))
      exact (hawaited.append_left settled).trans List.perm_middle
    rw [List.append_assoc]
    exact (entityDefinitions_split rfl).trans ((hrest.cons _).trans List.perm_middle.symm)

theorem Placed.others_declareEntity {index : Nat} (h : d.Placed)
    (hdeclare : d.declareEntity name type className plural line = (.ok index, d')) :
    otherOperations d'.operations = otherOperations d.operations := by
  have hsettled := (h.declareEntity hdeclare).2.operations
  generalize d'.operations = ops at hsettled
  cases hsettled with
  | new => rw [otherOperations_split rfl, List.append_nil]
  | filled _ _ _ hold => rw [hold, otherOperations_split rfl, otherOperations_split rfl]

/-- **Using an entity settles nothing**: the definition that it may write is awaited. -/
theorem Defines.usesEntity (h : d.Defines settled) (huses : d.UsesEntity name type line d') :
    d'.Defines settled := by
  have hplaced := h.placed.usesEntity huses
  cases huses with
  | declared => exact h
  | again =>
    refine ⟨hplaced, ?_⟩
    have hplaceholder : Awaited.placeholder ∘ usedOn name line = Awaited.placeholder := by
      funext use
      simp [Awaited.placeholder]
    show (entityDefinitions d.operations).Perm (settled ++ (d.awaited.map _).map _)
    rw [List.map_map, hplaceholder]
    exact h.perm
  | first =>
    refine ⟨hplaced, ?_⟩
    show (entityDefinitions (d.write _).operations).Perm (settled ++ (d.awaited ++ [_]).map _)
    rw [h.placed.operations_write, entityDefinitions_concat_entity rfl, List.map_append,
      ← List.append_assoc]
    exact h.perm.append_right _

theorem Placed.others_usesEntity (h : d.Placed) (huses : d.UsesEntity name type line d') :
    otherOperations d'.operations = otherOperations d.operations := by
  cases huses with
  | declared | again => rfl
  | first =>
    show otherOperations (d.write _).operations = _
    rw [h.operations_write, otherOperations_split rfl, List.append_nil]

/-! ### Writing one operation -/

/-- Writing an operation that defines no entity, together with what it declares or after
the entity that it mentions. -/
inductive Adds (v : Vocabulary) (d : Draft) (op : Operation) : Draft → Prop
  | plain (hop : op.opcode.declares = false) : Adds v d op (d.write op)
  | mentioning {d₁ : Draft} {name : String} {type : EntityType} {line : Nat}
    (h : d.referenceEntity name type line = .ok d₁) (hop : op.opcode.declares = false) :
    Adds v d op (d₁.write op)
  | entityClass {d₁ : Draft} {name : String} {type : EntityType} {line : Nat}
    (h : d.declareClass name type line = .ok d₁)
    (hop : op = .defineEntityClass name type line) : Adds v d op (d₁.write op)
  | direction {d₁ : Draft} {word : String} {line : Nat}
    (h : d.declareDirection v word line = .ok d₁) (hop : op = .defineDirection word line) :
    Adds v d op (d₁.write op)
  | directionSynonym {d₁ : Draft} {direction word : String} {line : Nat}
    (h : d.declareDirectionSynonym v direction word line = .ok d₁)
    (hop : op = .defineDirectionSynonym direction word line) : Adds v d op (d₁.write op)
  | verbSynonym {d₁ : Draft} {verb word : String} {line : Nat}
    (h : d.declareVerbSynonym verb word line = .ok d₁)
    (hop : op = .defineVerbSynonym verb word line) : Adds v d op (d₁.write op)

theorem declareDirection_ok {word : String} (h : d.declareDirection v word line = .ok d') :
    d' = { d with declarations := d.declarations.addDirection word } := by
  unfold declareDirection at h
  split at h
  · cases h
  rename_i hdeclared
  simp only [Declarations.declareDirection, throw_bind, guard_ok_iff, pure_ok_iff] at hdeclared
  obtain ⟨-, rfl⟩ := hdeclared
  exact (Except.ok.inj h).symm

theorem declareDirectionSynonym_ok {direction word : String}
    (h : d.declareDirectionSynonym v direction word line = .ok d') :
    d' = { d with declarations := d.declarations.addDirectionSynonym direction word } := by
  unfold declareDirectionSynonym at h
  split at h
  · cases h
  rename_i hdeclared
  simp only [Declarations.declareDirectionSynonym, throw_bind, guard_ok_iff, pure_ok_iff]
    at hdeclared
  obtain ⟨-, -, rfl⟩ := hdeclared
  exact (Except.ok.inj h).symm

theorem declareVerbSynonym_ok {verb word : String}
    (h : d.declareVerbSynonym verb word line = .ok d') :
    d' = { d with declarations := d.declarations.addVerbSynonym verb word } := by
  unfold declareVerbSynonym at h
  split at h
  · cases h
  rename_i hdeclared
  unfold Declarations.declareVerbSynonym at hdeclared
  split at hdeclared
  · cases hdeclared
  obtain rfl := Except.ok.inj hdeclared
  exact (Except.ok.inj h).symm

/-- Definitions of entities are not written this way. -/
theorem Adds.not_defineEntity (h : d.Adds v op d') : op.opcode ≠ .defineEntity := by
  have hdeclares : op.opcode.declares = false → op.opcode ≠ .defineEntity := by
    intro hop heq
    rw [heq] at hop
    cases hop
  cases h with
  | plain hop | mentioning _ hop => exact hdeclares hop
  | entityClass _ hop | direction _ hop | directionSynonym _ hop | verbSynonym _ hop =>
    rw [hop]
    exact nofun

/-- **Writing an operation leaves the definitions as they are and comes after all others.** -/
theorem Defines.adds (h : d.Defines settled) (hadds : d.Adds v op d') :
    d'.Defines settled ∧ otherOperations d'.operations = otherOperations d.operations ++ [op] := by
  have hop := hadds.not_defineEntity
  -- what comes before the writing changes neither
  suffices ∃ d₁ : Draft, d₁.Defines settled ∧ d' = d₁.write op ∧
      otherOperations d₁.operations = otherOperations d.operations by
    obtain ⟨d₁, hd₁, rfl, hothers⟩ := this
    exact ⟨hd₁.write hop, hothers ▸ hd₁.placed.others_write hop⟩
  cases hadds with
  | plain => exact ⟨d, h, rfl, rfl⟩
  | mentioning hmentions =>
    have huses := usesEntity_of_ok hmentions
    exact ⟨_, h.usesEntity huses, rfl, h.placed.others_usesEntity huses⟩
  | entityClass hdeclare =>
    obtain ⟨rfl, -⟩ := declareClass_ok hdeclare
    exact ⟨_, h.withDeclarations _, rfl, rfl⟩
  | direction hdeclare =>
    obtain rfl := declareDirection_ok hdeclare
    exact ⟨_, h.withDeclarations _, rfl, rfl⟩
  | directionSynonym hdeclare =>
    obtain rfl := declareDirectionSynonym_ok hdeclare
    exact ⟨_, h.withDeclarations _, rfl, rfl⟩
  | verbSynonym hdeclare =>
    obtain rfl := declareVerbSynonym_ok hdeclare
    exact ⟨_, h.withDeclarations _, rfl, rfl⟩

end Draft

end Adventure
