/-
Drafts whose operations will pass.

While a program is written, the draft knows what it has declared so far.  When the
program runs, the same names are declared at the same places, so whatever the draft
could tell then about an operation the check will find now.  A draft is kept such that
all its operations pass one after the other; each way to write one keeps it so.  As long as
nothing is awaited, each way to write also leaves what was written before as it is.
-/
import Adventure.Draft
import Adventure.Proofs.Acceptance
import Adventure.Proofs.Program

namespace Adventure

namespace Draft

variable {v : Vocabulary} {d d' : Draft} {op : Operation} {name className : String}
variable {type : EntityType} {line : Nat} {ops : List Operation}

/-- The operations written so far. -/
abbrev operations (d : Draft) : List Operation :=
  d.program.operations

/-- What was written, in order; nothing is awaited. -/
structure Says (d : Draft) (ops : List Operation) : Prop where
  wf : d.program.WF
  awaited : d.awaited = []
  operations : d.operations = ops

theorem says_empty : empty.Says [] :=
  ⟨.empty, rfl, rfl⟩

theorem Says.write (h : d.Says ops) (op : Operation) : (d.write op).Says (ops ++ [op]) := by
  refine ⟨h.wf.push op, h.awaited, ?_⟩
  rw [← h.operations]
  exact h.wf.operations_push op

theorem Says.foldl_write (h : d.Says ops) (more : List Operation) :
    (more.foldl Draft.write d).Says (ops ++ more) := by
  induction more generalizing d ops with
  | nil => rwa [List.append_nil]
  | cons op rest ih =>
    rw [List.append_cons]
    exact ih (h.write op)

/-- Steps that write something each write it one after the other. -/
theorem Says.foldlM {α : Type} {f : Draft → α → Except Error Draft} {written : α → List Operation}
    {as : List α}
    (hf : ∀ a ∈ as, ∀ d d' ops, d.Says ops → f d a = .ok d' → d'.Says (ops ++ written a))
    (h : d.Says ops) (hd : as.foldlM f d = .ok d') : d'.Says (ops ++ as.flatMap written) := by
  induction as generalizing d ops with
  | nil =>
    rw [List.foldlM_nil] at hd
    rwa [pure_ok_iff.mp hd, List.flatMap_nil, List.append_nil]
  | cons a rest ih =>
    rw [List.foldlM_cons] at hd
    obtain ⟨d₁, hfirst, hrest⟩ := bind_ok_iff.mp hd
    rw [List.flatMap_cons, ← List.append_assoc]
    exact ih (fun b hb => hf b (List.mem_cons_of_mem _ hb))
      (hf a (List.mem_cons_self ..) d d₁ ops h hfirst) hrest

/-! ### Operations that pass -/

/-- The operations of a draft pass one after the other, and declare what the draft
declares.  Nothing is awaited. -/
structure Checked (v : Vocabulary) (d : Draft) : Prop where
  wf : d.program.WF
  accepted : ∃ e, Declarations.empty.Accepts v d.operations e ∧ d.declarations.SameNames e
  sure : ∀ op ∈ d.operations, op.isSure
  awaited : d.awaited = []

theorem Checked.empty : Draft.empty.Checked v :=
  ⟨.empty, ⟨_, .nil _, .refl _⟩, nofun, rfl⟩

/-- What may be written next without declaring anything: an operation that passes
wherever the same names are declared. -/
structure Permits (v : Vocabulary) (d : Draft) (op : Operation) : Prop where
  sure : op.isSure
  entity : op.opcode ≠ .defineEntity
  entityClass : op.opcode ≠ .defineEntityClass
  passes : ∀ e, d.declarations.SameNames e → ∃ value, Validation.check v e op = .ok value

theorem Checked.written (hd : d.Checked v) : d.Says d.operations :=
  ⟨hd.wf, hd.awaited, rfl⟩

theorem operations_write (hd : d.Checked v) (op : Operation) :
    (d.write op).operations = d.operations ++ [op] :=
  (hd.written.write op).operations

/-- An operation that passes, and after which the draft declares what the operation
notes. -/
theorem Checked.push (hd : d.Checked v) (declarations : Declarations) (hsure : op.isSure)
    (hcheck : ∀ e, d.declarations.SameNames e → ∃ value, Validation.check v e op = .ok value ∧
      declarations.SameNames (e.note op value)) :
    ({ d.write op with declarations } : Draft).Checked v := by
  obtain ⟨e, haccepts, hsame⟩ := hd.accepted
  obtain ⟨value, hvalue, hnote⟩ := hcheck e hsame
  have hops : ({ d.write op with declarations } : Draft).operations = d.operations ++ [op] :=
    operations_write hd op
  refine ⟨hd.wf.push op, ⟨_, ?_, hnote⟩, ?_, hd.awaited⟩
  · rw [hops]
    exact haccepts.concat hvalue
  · intro other hother
    rw [hops, List.mem_append, List.mem_singleton] at hother
    rcases hother with hother | rfl
    · exact hd.sure other hother
    · exact hsure

theorem Checked.write (hd : d.Checked v) (hop : d.Permits v op) : (d.write op).Checked v := by
  refine hd.push d.declarations hop.sure ?_
  intro e he
  obtain ⟨value, hvalue⟩ := hop.passes e he
  exact ⟨value, hvalue, he.trans (e.note_sameNames hop.entity hop.entityClass value)⟩

/-- What may be written next may also be written later. -/
theorem Permits.write {other : Operation} (h : d.Permits v other) :
    (d.write op).Permits v other :=
  ⟨h.sure, h.entity, h.entityClass, h.passes⟩

/-- **Whatever may be written next may be written one after the other.** -/
theorem Checked.foldl_write {ops : List Operation} (hd : d.Checked v)
    (hops : ∀ op ∈ ops, d.Permits v op) : (ops.foldl Draft.write d).Checked v := by
  induction ops generalizing d with
  | nil => exact hd
  | cons op rest ih =>
    refine ih (hd.write (hops op (List.mem_cons_self ..))) ?_
    intro other hother
    exact (hops other (List.mem_cons_of_mem _ hother)).write

theorem declarations_foldl_write (ops : List Operation) (d : Draft) :
    (ops.foldl Draft.write d).declarations = d.declarations := by
  induction ops generalizing d with
  | nil => rfl
  | cons op rest ih => exact ih _

theorem awaited_of_finish {u : Unit} (h : d.finish = .ok u) : d.awaited = [] := by
  unfold finish at h
  split at h
  · exact List.isEmpty_iff.mp ‹_›
  · exact absurd h nofun

/-! ### Declaring -/

theorem checkUnused_ok_iff {e : Declarations} {u : Unit} :
    e.checkUnused name = .ok u ↔ e.entity? name = none ∧ e.class? name = none := by
  rw [Declarations.checkUnused]
  cases e.entity? name <;> cases e.class? name <;> simp

theorem checkEntity_ok_iff {u : Unit} :
    d.checkEntity name type className = .ok u ↔
      EntityType.ofName? name = none ∧ d.declarations.entity? name = none ∧
        d.declarations.class? name = none ∧ d.declarations.classAllows className type := by
  simp [checkEntity, checkUnused_ok_iff, and_assoc]

theorem declareClass_ok (h : d.declareClass name type line = .ok d') :
    d' = { d with declarations := d.declarations.addClass ⟨name, type, line⟩ } ∧
      EntityType.ofName? name = none ∧ d.declarations.entity? name = none ∧
        d.declarations.class? name = none := by
  unfold declareClass at h
  cases hdeclare : d.declarations.declareClass name type line with
  | error refusal => simp [hdeclare] at h
  | ok declarations =>
    rw [hdeclare] at h
    simp only [Declarations.declareClass, guard_ok_iff, bind_ok_iff, checkUnused_ok_iff,
      pure_ok_iff, throw_bind, exists_const, Option.not_isSome_iff_eq_none] at hdeclare
    obtain ⟨hreserved, ⟨hentity, hclass⟩, rfl⟩ := hdeclare
    exact ⟨(Except.ok.inj h).symm, hreserved, hentity, hclass⟩

theorem Says.declareClass (h : d.Says ops) (hd : d.declareClass name type line = .ok d') :
    d'.Says ops := by
  obtain ⟨rfl, -⟩ := declareClass_ok hd
  exact ⟨h.wf, h.awaited, h.operations⟩

theorem Says.declareEntity {index : Nat} (h : d.Says ops)
    (hd : d.declareEntity name type className none line = (.ok index, d')) :
    d'.Says (ops ++ [.defineEntity name type className none line]) := by
  have hnone : d.awaited? name = none := by simp [awaited?, h.awaited]
  unfold Draft.declareEntity at hd
  split at hd
  · simp at hd
  · simp only [hnone, Prod.mk.injEq] at hd
    obtain ⟨-, rfl⟩ := hd
    have hwritten := h.write (.defineEntity name type className none line)
    exact ⟨hwritten.wf, hwritten.awaited, hwritten.operations⟩

/-- **A class that was declared can be defined at once.** -/
theorem Checked.defineClass (hd : d.Checked v) (h : d.declareClass name type line = .ok d')
    (hname : name ≠ "") (htype : type.isInstantiable) :
    (d'.write (.defineEntityClass name type line)).Checked v ∧
      (d'.write (.defineEntityClass name type line)).operations =
        d.operations ++ [.defineEntityClass name type line] := by
  obtain ⟨rfl, hreserved, hentity, hclass⟩ := declareClass_ok h
  refine ⟨hd.push _ rfl fun e he => ⟨none, ?_, ?_⟩, operations_write hd _⟩
  · refine Validation.defineEntityClass_ok_iff.mpr
      ⟨rfl, ⟨type, EntityType.ofName?_name type, htype⟩, hname, hreserved, ?_, ?_, rfl⟩
    · exact (he.entity? name).trans hentity
    · exact (he.class? name).trans hclass
  · have hnote : e.note (.defineEntityClass name type line) none = e.addClass ⟨name, type, line⟩ :=
      Declarations.note_defineEntityClass rfl (EntityType.ofName?_name type)
    rw [hnote]
    exact he.addClass _

/-- **An entity that was declared is defined at once**, if its name was not awaited. -/
theorem Checked.declareEntity {index : Nat} (hd : d.Checked v)
    (h : d.declareEntity name type className none line = (.ok index, d')) (hname : name ≠ "")
    (htype : type.isInstantiable) :
    d'.Checked v ∧ d'.operations = d.operations ++ [.defineEntity name type className none line] ∧
      d'.declarations = d.declarations.addEntity ⟨name, type, className, line⟩ ∧
      d.declarations.entity? name = none := by
  have hnone : d.awaited? name = none := by simp [awaited?, hd.awaited]
  unfold Draft.declareEntity at h
  cases hcheck : d.checkEntity name type className with
  | error refusal => simp [hcheck] at h
  | ok _ =>
    obtain ⟨hreserved, hentity, hclass, hallows⟩ := checkEntity_ok_iff.mp hcheck
    simp only [hcheck, hnone, Prod.mk.injEq, Except.ok.injEq] at h
    obtain ⟨rfl, rfl⟩ := h
    refine ⟨hd.push _ rfl fun e he => ⟨none, ?_, ?_⟩, operations_write hd _, rfl, hentity⟩
    · refine Validation.defineEntity_ok_iff.mpr
        ⟨rfl, ⟨type, EntityType.ofName?_name type, htype, ?_, by simp [Operation.defineEntity]⟩,
          hname, hreserved, ?_, ?_, rfl⟩
      · rw [he.classAllows]
        exact hallows
      · exact (he.entity? name).trans hentity
      · exact (he.class? name).trans hclass
    · have hnote : e.note (.defineEntity name type className none line) none =
          e.addEntity ⟨name, type, className, line⟩ :=
        Declarations.note_defineEntity rfl (EntityType.ofName?_name type)
      rw [hnote]
      exact he.addEntity _

end Draft

end Adventure
