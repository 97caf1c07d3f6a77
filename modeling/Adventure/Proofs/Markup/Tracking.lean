/-
Drafts that can be filled in.

A draft keeps, for every name in use that was not declared yet, the place of the
definition that was written for it.  As long as there is a definition at that place, a
declaration changes nothing but the class and the plural in it.  So the operations of a
draft are those written, in the order written, up to what was filled in; and the classes
it has declared are those its operations define.
-/
import Adventure.Proofs.Drafts
import Adventure.Proofs.Markup.Outlines

namespace Adventure

namespace Draft

variable {d d' : Draft} {p : Program} {op : Operation} {name className : String}
variable {type : EntityType} {plural : Option String} {line : Nat} {stage : Stage}

/-! ### Filling in -/

/-- The definition of an entity with its class and plural filled in. -/
def filled (className : String) (plural : Option String) (op : Operation) : Operation :=
  { op with arguments := op.arguments.set classPosition className ++ plural.toList }

theorem outline_filled (hop : op.opcode = .defineEntity) (harguments : op.arguments ≠ []) :
    (filled className plural op).outline = op.outline := by
  obtain ⟨first, rest, hrest⟩ := List.exists_cons_of_ne_nil harguments
  simp [Operation.outline, filled, hop, hrest, classPosition]

section FillIn

variable {use : Awaited}

theorem root_fillIn (hp : p.WF) (huse : use.definition ∈ p.root) :
    (fillIn p use className plural).root = p.root := by
  have hroot := hp.root_setArgument huse classPosition className
  cases plural with
  | none => exact hroot
  | some plural =>
    have hwf := hp.setArgument huse classPosition className
    exact (hwf.root_pushArgument (hroot ▸ huse) plural).trans hroot

theorem wf_fillIn (hp : p.WF) (huse : use.definition ∈ p.root) :
    (fillIn p use className plural).WF := by
  have hwf := hp.setArgument huse classPosition className
  cases plural with
  | none => exact hwf
  | some plural =>
    have hroot := hp.root_setArgument huse classPosition className
    exact hwf.pushArgument (hroot ▸ huse) plural

/-- **Filling in changes the class and adds the plural in one definition.** -/
theorem operation?_fillIn (hp : p.WF) (huse : use.definition ∈ p.root) {i : Nat}
    (hi : i ∈ p.root) :
    (fillIn p use className plural).operation? i = (p.operation? i).map fun op =>
      if i = use.definition then filled className plural op else op := by
  have hset := hp.operation?_setArgument huse hi classPosition className
  cases plural with
  | none =>
    simp only [filled, Option.toList_none, List.append_nil]
    exact hset
  | some plural =>
    have hroot := hp.root_setArgument huse classPosition className
    have hwf := hp.setArgument huse classPosition className
    show ((p.setArgument use.definition classPosition className).pushArgument use.definition
      plural).operation? i = _
    rw [hwf.operation?_pushArgument (hroot ▸ huse) (hroot ▸ hi), hset, Option.map_map]
    congr 1
    funext op
    by_cases hii : i = use.definition <;> simp [hii, filled]

end FillIn

/-! ### Drafts with their definitions in place -/

/-- There is the definition of an entity at an index. -/
def DefinesEntityAt (p : Program) (index : Nat) : Prop :=
  index ∈ p.root ∧
    ∃ op, p.operation? index = some op ∧ op.opcode = .defineEntity ∧ op.arguments ≠ []

/-- What is awaited can be filled in, and the classes declared are those defined. -/
structure Tracked (d : Draft) : Prop where
  wf : d.program.WF
  awaited : ∀ use ∈ d.awaited, DefinesEntityAt d.program use.definition
  classes : ∀ name, (d.declarations.class? name).isSome ↔ ∃ op ∈ d.operations, op.DefinesClass name

theorem Tracked.empty : Draft.empty.Tracked := by
  refine ⟨.empty, nofun, ?_⟩
  intro name
  simp [Draft.empty, Declarations.empty, Declarations.class?, operations, Program.operations,
    Program.empty]

/-- Only its definition makes a class a defined one. -/
theorem definesClass_concat {ops : List Operation} (h : ¬ op.DefinesClass name) :
    (∃ other ∈ ops ++ [op], other.DefinesClass name) ↔ ∃ other ∈ ops, other.DefinesClass name := by
  simp [or_and_right, exists_or, h]

theorem DefinesEntityAt.push {index : Nat} (hp : p.WF) (h : DefinesEntityAt p index)
    (op : Operation) : DefinesEntityAt (p.push op) index := by
  obtain ⟨hindex, other, hother, hdefines⟩ := h
  refine ⟨List.mem_append_left _ hindex, other, ?_, hdefines⟩
  rw [hp.operation?_push_of_mem op hindex, hother]

theorem DefinesEntityAt.fillIn {index : Nat} {use : Awaited} (hp : p.WF)
    (h : DefinesEntityAt p index) (huse : use.definition ∈ p.root) :
    DefinesEntityAt (Draft.fillIn p use className plural) index := by
  obtain ⟨hindex, op, hop, hentity, harguments⟩ := h
  have hfilled : (Draft.fillIn p use className plural).operation? index = _ :=
    operation?_fillIn hp huse hindex
  rw [hop, Option.map_some] at hfilled
  refine ⟨root_fillIn hp huse ▸ hindex, _, hfilled, ?_⟩
  by_cases hii : index = use.definition
  · rw [if_pos hii]
    exact ⟨hentity, by simp [filled, harguments]⟩
  · rw [if_neg hii]
    exact ⟨hentity, harguments⟩

theorem Tracked.operations_write (hd : d.Tracked) (op : Operation) :
    (d.write op).operations = d.operations ++ [op] :=
  hd.wf.operations_push op

/-- Writes an operation, unless it defines a class. -/
theorem Tracked.write (hd : d.Tracked) (hop : op.opcode ≠ .defineEntityClass) :
    (d.write op).Tracked := by
  refine ⟨hd.wf.push op, fun use huse => (hd.awaited use huse).push hd.wf op, ?_⟩
  intro name
  rw [hd.operations_write, definesClass_concat fun hdefines => hop hdefines.1]
  exact hd.classes name

/-- **Filling in keeps the outlines.** -/
theorem outlines_fillIn {use : Awaited} (hp : p.WF) (huse : DefinesEntityAt p use.definition) :
    (fillIn p use className plural).operations.map Operation.outline =
      p.operations.map Operation.outline := by
  obtain ⟨hindex, op, hop, hentity, harguments⟩ := huse
  rw [Program.operations, Program.operations, root_fillIn hp hindex, List.map_filterMap,
    List.map_filterMap]
  refine List.filterMap_congr ?_
  intro i hi
  rw [operation?_fillIn hp hindex hi, Option.map_map]
  by_cases hii : i = use.definition
  · rw [hii, hop]
    simp [outline_filled hentity harguments]
  · simp only [hii, if_false]
    rfl

/-! ### What a draft does -/

theorem definesClass_of_outlines {ops ops' : List Operation}
    (h : ops'.map Operation.outline = ops.map Operation.outline) :
    (∃ op ∈ ops', op.DefinesClass name) ↔ ∃ op ∈ ops, op.DefinesClass name := by
  have houtlines : ∀ l : List Operation, (∃ op ∈ l, op.DefinesClass name) ↔
      ∃ op ∈ l.map Operation.outline, op.DefinesClass name := by
    intro l
    simp
  rw [houtlines ops', h, ← houtlines ops]

/-- Declares what is not a class. -/
theorem Tracked.withDeclarations (hd : d.Tracked) {e : Declarations}
    (he : ∀ name, e.class? name = d.declarations.class? name) :
    ({ d with declarations := e } : Draft).Tracked :=
  ⟨hd.wf, hd.awaited, fun name => he name ▸ hd.classes name⟩

/-- **Declaring an entity defines it, or fills in the definition that it has.** -/
theorem Tracked.declareEntity {index : Nat} (hd : d.Tracked)
    (h : d.declareEntity name type className plural line = (.ok index, d')) :
    d'.Tracked ∧ (d'.operations.map Operation.outline = d.operations.map Operation.outline ∨
      d'.operations = d.operations ++ [.defineEntity name type className plural line]) := by
  unfold Draft.declareEntity at h
  split at h
  · exact absurd (congrArg Prod.fst h) nofun
  dsimp only at h
  split at h
  · rename_i use huse
    split at h
    · exact absurd (congrArg Prod.fst h) nofun
    obtain ⟨-, rfl⟩ := Prod.mk.inj h
    have hdefines := hd.awaited use (List.mem_of_find?_eq_some huse)
    have houtlines : (fillIn d.program use className plural).operations.map Operation.outline =
        d.operations.map Operation.outline := outlines_fillIn hd.wf hdefines
    refine ⟨⟨wf_fillIn hd.wf hdefines.1, ?_, ?_⟩, Or.inl houtlines⟩
    · intro other hother
      have hother := hd.awaited other (List.mem_of_mem_filter hother)
      exact hother.fillIn hd.wf hdefines.1
    · intro other
      rw [Declarations.class?_addEntity, hd.classes, definesClass_of_outlines houtlines]
  · obtain ⟨-, rfl⟩ := Prod.mk.inj h
    have hwrite : (d.write (.defineEntity name type className plural line)).Tracked :=
      hd.write nofun
    exact ⟨hwrite.withDeclarations fun other => Declarations.class?_addEntity _ _ other,
      Or.inr (hd.operations_write _)⟩

/-- **Using an entity that is not declared defines it**, unless it was used before. -/
theorem Tracked.referenceEntity (hd : d.Tracked) (h : d.referenceEntity name type line = .ok d') :
    d'.Tracked ∧ (d'.operations = d.operations ∨
      d'.operations = d.operations ++ [.defineEntity name type type.name none line]) := by
  unfold Draft.referenceEntity at h
  split at h
  · split at h
    · obtain rfl := Except.ok.inj h
      exact ⟨hd, Or.inl rfl⟩
    · exact absurd h nofun
  split at h
  · exact absurd h nofun
  split at h
  · split at h
    · obtain rfl := Except.ok.inj h
      refine ⟨⟨hd.wf, ?_, hd.classes⟩, Or.inl rfl⟩
      intro use huse
      obtain ⟨old, hold, rfl⟩ := List.mem_map.mp huse
      have hdefines := hd.awaited old hold
      split <;> exact hdefines
    · exact absurd h nofun
  · obtain rfl := Except.ok.inj h
    have hwrite : (d.write (.defineEntity name type type.name none line)).Tracked :=
      hd.write nofun
    refine ⟨⟨hwrite.wf, ?_, hwrite.classes⟩, Or.inr (hd.operations_write _)⟩
    intro use huse
    rcases List.mem_append.mp huse with huse | huse
    · exact hwrite.awaited use huse
    · obtain rfl := List.mem_singleton.mp huse
      refine ⟨List.mem_append_right _ (List.mem_singleton_self _), _,
        Program.operation?_push _ _, rfl, ?_⟩
      simp [Operation.defineEntity]

/-- **Declaring a class and defining it** adds the definition of a class that had none. -/
theorem Tracked.defineClass (hd : d.Tracked) (h : d.declareClass name type line = .ok d') :
    (d'.write (.defineEntityClass name type line)).Tracked ∧
      (d'.write (.defineEntityClass name type line)).operations =
        d.operations ++ [.defineEntityClass name type line] ∧
      ∀ op ∈ d.operations, ¬ op.DefinesClass name := by
  obtain ⟨rfl, -, -, hclass⟩ := declareClass_ok h
  have hops := hd.operations_write (.defineEntityClass name type line)
  refine ⟨⟨hd.wf.push _, fun use huse => (hd.awaited use huse).push hd.wf _, ?_⟩, hops, ?_⟩
  · intro other
    show ((d.declarations.addClass ⟨name, type, line⟩).class? other).isSome ↔
      ∃ op ∈ (d.write (.defineEntityClass name type line)).operations, op.DefinesClass other
    rw [hops, Declarations.class?_addClass]
    by_cases hother : name = other
    · rw [if_pos hother]
      exact iff_of_true rfl ⟨_, List.mem_append_right _ (List.mem_singleton_self _), rfl, hother⟩
    · have hnew : ¬ (Operation.defineEntityClass name type line).DefinesClass other :=
        fun hdefines => hother hdefines.2
      rw [if_neg hother, definesClass_concat hnew]
      exact hd.classes other
  · intro op hop hdefines
    have hsome := (hd.classes name).mpr ⟨op, hop, hdefines⟩
    rw [hclass] at hsome
    exact absurd hsome nofun

end Draft

end Adventure
