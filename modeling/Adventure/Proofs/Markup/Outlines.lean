/-
The order in which classes and entities are written.

A game in markup writes its classes first.  Each class is defined and then described in
one go, and so an operation about a class stands between the definition of that class
and that of the next one.  The exits of a class may use rooms that no one has declared
so far.  Such a room is defined on the spot, before the exit that uses it; what class it
is made from is filled in much later.  All other entities are defined when no class is
written any more.

Whether the class of an entity is there before the entity can therefore be read off the
operation behind the entity's definition.
-/
import Adventure.Operation
import Adventure.Proofs.Checks

namespace Adventure

namespace Operation

variable {op : Operation} {name : String}

/-- The operation without what a later declaration may fill in: the definition of an
entity keeps no more than the name. -/
def outline (op : Operation) : Operation :=
  if op.opcode = .defineEntity then { op with arguments := op.arguments.take 1 } else op

/-- Whether the operation defines the class of a name. -/
def DefinesClass (op : Operation) (name : String) : Prop :=
  op.opcode = .defineEntityClass ∧ op.argument 0 = name

/-- Whether the operation defines the class of a name or acts on it. -/
def ConcernsClass (op : Operation) (name : String) : Prop :=
  op.DefinesClass name ∨ op.subject? = some (.entityClass name)

instance (op : Operation) (name : String) : Decidable (op.DefinesClass name) :=
  inferInstanceAs (Decidable (_ ∧ _))

instance (op : Operation) (name : String) : Decidable (op.ConcernsClass name) :=
  inferInstanceAs (Decidable (_ ∨ _))

theorem outline_of_ne (h : op.opcode ≠ .defineEntity) : op.outline = op :=
  if_neg h

@[simp] theorem opcode_outline (op : Operation) : op.outline.opcode = op.opcode := by
  unfold outline
  split <;> rfl

@[simp] theorem argument_zero_outline (op : Operation) : op.outline.argument 0 = op.argument 0 := by
  unfold outline
  split
  · cases hargs : op.arguments <;> simp [argument, hargs]
  · rfl

/-- Only the definitions of entities have anything left to fill in. -/
theorem eq_of_outline_eq {op' : Operation} (h : op'.outline = op.outline)
    (hop : op.opcode ≠ .defineEntity) : op' = op := by
  have hop' : op'.opcode ≠ .defineEntity := by rwa [← opcode_outline, h, opcode_outline]
  rwa [outline_of_ne hop, outline_of_ne hop'] at h

theorem subject?_outline (op : Operation) : op.outline.subject? = op.subject? := by
  by_cases h : op.opcode = .defineEntity
  · rw [subject?_eq_none (by rw [opcode_outline, h]; rfl), subject?_eq_none (by rw [h]; rfl)]
  · rw [outline_of_ne h]

@[simp] theorem definesClass_outline : op.outline.DefinesClass name ↔ op.DefinesClass name := by
  rw [DefinesClass, DefinesClass, opcode_outline, argument_zero_outline]

@[simp] theorem concernsClass_outline : op.outline.ConcernsClass name ↔ op.ConcernsClass name := by
  rw [ConcernsClass, ConcernsClass, definesClass_outline, subject?_outline]

theorem DefinesClass.unique {other : String} (h : op.DefinesClass name)
    (h' : op.ConcernsClass other) : other = name := by
  rcases h' with h' | h'
  · exact h'.2.symm.trans h.2
  · rw [subject?_eq_none (by rw [h.1]; rfl)] at h'
    exact absurd h' nofun

theorem not_definesClass_of_subject? {subject : Subject} (h : op.subject? = some subject) :
    ¬ op.DefinesClass name := by
  intro hdefines
  rw [subject?_eq_none (by rw [hdefines.1]; rfl)] at h
  exact absurd h nofun

theorem not_concernsClass_of_defineEntity (h : op.opcode = .defineEntity) :
    ¬ op.ConcernsClass name := by
  rintro (⟨hop, -⟩ | hsubject)
  · rw [h] at hop
    exact absurd hop nofun
  · rw [subject?_eq_none (by rw [h]; rfl)] at hsubject
    exact absurd hsubject nofun

theorem concernsClass_of_subject? {other : String} (h : op.subject? = some (.entityClass name)) :
    op.ConcernsClass other ↔ other = name := by
  rw [ConcernsClass, h]
  simp [not_definesClass_of_subject? h, eq_comm]

theorem subject?_connectRooms (subject : Subject) (direction room : String) (line : Nat) :
    (connectRooms subject direction room line).subject? = some subject :=
  subject?_acting nofun

end Operation

/-! ### Every place in a list -/

/-- What holds of every member of a list together with those before and behind it. -/
def EverySplit {α : Type} (Q : List α → α → List α → Prop) (l : List α) : Prop :=
  ∀ before x after, l = before ++ x :: after → Q before x after

theorem everySplit_nil {α : Type} {Q : List α → α → List α → Prop} : EverySplit Q [] :=
  fun _ _ _ h => absurd h.symm (List.append_ne_nil_of_right_ne_nil _ (List.cons_ne_nil _ _))

theorem EverySplit.mono {α : Type} {Q Q' : List α → α → List α → Prop} {l : List α}
    (h : EverySplit Q l) (himp : ∀ before x after, Q before x after → Q' before x after) :
    EverySplit Q' l :=
  fun before x after hl => himp before x after (h before x after hl)

theorem everySplit_concat {α : Type} {Q : List α → α → List α → Prop} {l : List α} {last : α} :
    EverySplit Q (l ++ [last]) ↔
      EverySplit (fun before x after => Q before x (after ++ [last])) l ∧ Q l last [] := by
  constructor
  · intro h
    refine ⟨?_, h l last [] rfl⟩
    intro before x after hl
    exact h before x (after ++ [last]) (by rw [hl, List.append_assoc, List.cons_append])
  · rintro ⟨hold, hlast⟩ before x after hl
    rcases List.eq_nil_or_concat after with rfl | ⟨rest, z, rfl⟩
    · obtain ⟨rfl, hx⟩ := List.append_inj' hl rfl
      exact List.head_eq_of_cons_eq hx ▸ hlast
    · rw [List.concat_eq_append, ← List.cons_append, ← List.append_assoc] at hl
      obtain ⟨rfl, hz⟩ := List.append_inj' hl rfl
      rw [List.concat_eq_append, ← List.head_eq_of_cons_eq hz]
      exact hold before x rest rfl

/-! ### How operations follow one another -/

/-- What a game is writing. -/
inductive Stage where
  /-- Classes, the last of them the one of this name, if there is one yet. -/
  | classes (latest : Option String)
  /-- Entities. -/
  | entities
  deriving DecidableEq, Repr

/-- Operations as a game may have written them when it has come to a stage. -/
inductive Ordered : List Operation → Stage → Prop
  | nil : Ordered [] (.classes none)
  /-- Something that concerns no class. -/
  | plain {ops : List Operation} {stage : Stage} {op : Operation} (h : Ordered ops stage)
    (hentity : op.opcode ≠ .defineEntity) (hclass : ∀ name, ¬ op.ConcernsClass name) :
    Ordered (ops ++ [op]) stage
  /-- A class that was not defined so far. -/
  | define {ops : List Operation} {latest : Option String} {name : String} {op : Operation}
    (h : Ordered ops (.classes latest)) (hop : op.DefinesClass name)
    (hnew : ∀ other ∈ ops, ¬ other.DefinesClass name) : Ordered (ops ++ [op]) (.classes (some name))
  /-- Something about the latest class. -/
  | describe {ops : List Operation} {name : String} {op : Operation}
    (h : Ordered ops (.classes (some name))) (hop : op.subject? = some (.entityClass name)) :
    Ordered (ops ++ [op]) (.classes (some name))
  /-- An exit of the latest class to a room that is defined for it. -/
  | exit {ops : List Operation} {name : String} {op : Operation}
    (h : Ordered ops (.classes (some name))) (hop : op.opcode = .defineEntity)
    (direction : String) (line : Nat) :
    Ordered (ops ++ [op] ++ [.connectRooms (.entityClass name) direction (op.argument 0) line])
      (.classes (some name))
  /-- There are no more classes. -/
  | close {ops : List Operation} {latest : Option String} (h : Ordered ops (.classes latest)) :
    Ordered ops .entities
  | entity {ops : List Operation} {op : Operation} (h : Ordered ops .entities)
    (hop : op.opcode = .defineEntity) : Ordered (ops ++ [op]) .entities

namespace Ordered

variable {ops before after : List Operation} {stage : Stage} {op : Operation} {name : String}

/-- The latest class was defined. -/
theorem latest_defined (h : Ordered ops stage) (hstage : stage = .classes (some name)) :
    ∃ d ∈ ops, d.DefinesClass name := by
  induction h with
  | nil => exact absurd hstage nofun
  | plain _ _ _ ih | describe _ _ ih =>
    obtain ⟨d, hd, hdefines⟩ := ih hstage
    exact ⟨d, List.mem_append_left _ hd, hdefines⟩
  | @define _ _ _ op _ hop =>
    obtain rfl := Option.some.inj (Stage.classes.inj hstage)
    exact ⟨op, List.mem_append_right _ (List.mem_singleton_self op), hop⟩
  | exit _ _ _ _ ih =>
    obtain ⟨d, hd, hdefines⟩ := ih hstage
    exact ⟨d, List.mem_append_left _ (List.mem_append_left _ hd), hdefines⟩
  | close | entity => exact absurd hstage nofun

/-- **What concerns a class does not come before its definition.** -/
theorem defined_first (h : Ordered ops stage) :
    EverySplit (fun before op _ => ∀ name, op.ConcernsClass name →
      ∃ d ∈ before ++ [op], d.DefinesClass name) ops := by
  have hdescribe : ∀ {ops : List Operation} {name other : String} {op : Operation},
      Ordered ops (.classes (some name)) → op.subject? = some (.entityClass name) →
      op.ConcernsClass other → ∃ d ∈ ops, d.DefinesClass other := by
    intro ops name other op h hop hconcerns
    rw [(Operation.concernsClass_of_subject? hop).mp hconcerns]
    exact h.latest_defined rfl
  induction h with
  | nil => exact everySplit_nil
  | plain _ _ hclass ih =>
    exact everySplit_concat.mpr ⟨ih, fun name hconcerns => absurd hconcerns (hclass name)⟩
  | define _ hop _ ih =>
    refine everySplit_concat.mpr ⟨ih, ?_⟩
    intro other hconcerns
    rw [hop.unique hconcerns]
    exact ⟨_, List.mem_append_right _ (List.mem_singleton_self _), hop⟩
  | describe h hop ih =>
    refine everySplit_concat.mpr ⟨ih, ?_⟩
    intro other hconcerns
    obtain ⟨d, hd, hdefines⟩ := hdescribe h hop hconcerns
    exact ⟨d, List.mem_append_left _ hd, hdefines⟩
  | exit h hop direction line ih =>
    refine everySplit_concat.mpr ⟨everySplit_concat.mpr ⟨ih, ?_⟩, ?_⟩
    · intro other hconcerns
      exact absurd hconcerns (Operation.not_concernsClass_of_defineEntity hop)
    · intro other hconcerns
      obtain ⟨d, hd, hdefines⟩ :=
        hdescribe h (Operation.subject?_connectRooms _ _ _ _) hconcerns
      exact ⟨d, List.mem_append_left _ (List.mem_append_left _ hd), hdefines⟩
  | close _ ih => exact ih
  | entity _ hop ih =>
    refine everySplit_concat.mpr ⟨ih, ?_⟩
    intro name hconcerns
    exact absurd hconcerns (Operation.not_concernsClass_of_defineEntity hop)

/-- Nothing concerns a class that is not defined. -/
theorem not_concernsClass (h : Ordered ops stage) (hnew : ∀ d ∈ ops, ¬ d.DefinesClass name)
    (hop : op ∈ ops) : ¬ op.ConcernsClass name := by
  intro hconcerns
  obtain ⟨before, after, rfl⟩ := List.append_of_mem hop
  obtain ⟨d, hd, hdefines⟩ := h.defined_first before op after rfl name hconcerns
  have hprefix : d ∈ before ++ op :: after := by
    rcases List.mem_append.mp hd with hd | hd
    · exact List.mem_append_left _ hd
    · exact List.mem_append_right _ (List.mem_singleton.mp hd ▸ List.mem_cons_self ..)
  exact hnew d hprefix hdefines

/-- Nothing concerns the latest class before any definition of a class. -/
theorem latest_untouched (h : Ordered ops stage) (hstage : stage = .classes (some name)) :
    EverySplit (fun before d _ => ∀ other, d.DefinesClass other →
      ∀ op ∈ before, ¬ op.ConcernsClass name) ops := by
  induction h with
  | nil => exact absurd hstage nofun
  | plain _ _ hclass ih =>
    refine everySplit_concat.mpr ⟨ih hstage, ?_⟩
    intro other hdefines
    exact absurd (Or.inl hdefines) (hclass other)
  | @define ops _ _ _ h hop hnew _ =>
    obtain rfl := Option.some.inj (Stage.classes.inj hstage)
    have hnone := fun op (hop : op ∈ ops) => h.not_concernsClass hnew hop
    refine everySplit_concat.mpr ⟨?_, fun _ _ => hnone⟩
    rintro before d after rfl other - op hop
    exact hnone op (List.mem_append_left _ hop)
  | describe _ hop ih =>
    refine everySplit_concat.mpr ⟨ih hstage, ?_⟩
    intro other hdefines
    exact absurd hdefines (Operation.not_definesClass_of_subject? hop)
  | exit _ hop direction line ih =>
    refine everySplit_concat.mpr ⟨everySplit_concat.mpr ⟨ih hstage, ?_⟩, ?_⟩
    · intro other hdefines
      exact absurd (Or.inl hdefines) (Operation.not_concernsClass_of_defineEntity hop)
    · intro other hdefines
      exact absurd hdefines
        (Operation.not_definesClass_of_subject? (Operation.subject?_connectRooms _ _ _ _))
  | close | entity => exact absurd hstage nofun

/-- Whatever concerns a class was written when that class was the latest. -/
theorem untouched (h : Ordered ops stage) :
    EverySplit (fun before op _ => ∀ name, op.ConcernsClass name →
      EverySplit (fun before d _ => ∀ other, d.DefinesClass other →
        ∀ op ∈ before, ¬ op.ConcernsClass name) (before ++ [op])) ops := by
  induction h with
  | nil => exact everySplit_nil
  | plain _ _ hclass ih =>
    exact everySplit_concat.mpr ⟨ih, fun name hconcerns => absurd hconcerns (hclass name)⟩
  | define h hop hnew ih =>
    refine everySplit_concat.mpr ⟨ih, ?_⟩
    intro name hconcerns
    rw [hop.unique hconcerns]
    exact (define h hop hnew).latest_untouched rfl
  | describe h hop ih =>
    refine everySplit_concat.mpr ⟨ih, ?_⟩
    intro name hconcerns
    rw [(Operation.concernsClass_of_subject? hop).mp hconcerns]
    exact (describe h hop).latest_untouched rfl
  | exit h hop direction line ih =>
    refine everySplit_concat.mpr ⟨everySplit_concat.mpr ⟨ih, ?_⟩, ?_⟩
    · intro name hconcerns
      exact absurd hconcerns (Operation.not_concernsClass_of_defineEntity hop)
    · intro name hconcerns
      rw [(Operation.concernsClass_of_subject? (Operation.subject?_connectRooms _ _ _ _)).mp
        hconcerns]
      exact (exit h hop direction line).latest_untouched rfl
  | close _ ih => exact ih
  | entity _ hop ih =>
    refine everySplit_concat.mpr ⟨ih, ?_⟩
    intro name hconcerns
    exact absurd hconcerns (Operation.not_concernsClass_of_defineEntity hop)

/-- **No class is spoken of any more once another one is defined.** -/
theorem closed {d earlier : Operation} {other : String} (h : Ordered ops stage)
    (hops : ops = before ++ d :: after) (hd : d.DefinesClass other) (hearlier : earlier ∈ before)
    (hconcerns : earlier.ConcernsClass name) : ∀ op ∈ d :: after, ¬ op.ConcernsClass name := by
  intro op hop hop'
  rcases List.mem_cons.mp hop with rfl | hop
  · exact h.untouched before op after hops name hop' before op [] rfl other hd earlier hearlier
      hconcerns
  · obtain ⟨between, rest, rfl⟩ := List.append_of_mem hop
    have hsplit := h.untouched (before ++ d :: between) op rest (by simp [hops]) name hop'
    exact hsplit before d (between ++ [op]) (by simp) other hd earlier hearlier hconcerns

/-- What stands behind the definition of an entity: the exit that it was written for, or
nothing about classes once entities are written. -/
def Follows (stage : Stage) (op : Operation) (after : List Operation) : Prop :=
  (∃ name direction line rest,
    after = .connectRooms (.entityClass name) direction (op.argument 0) line :: rest) ∨
  stage = .entities ∧ ∀ later ∈ after, ∀ name, ¬ later.ConcernsClass name

theorem Follows.concat {last : Operation} (h : Follows stage op after)
    (hlast : stage = .entities → ∀ name, ¬ last.ConcernsClass name) :
    Follows stage op (after ++ [last]) := by
  rcases h with ⟨name, direction, line, rest, rfl⟩ | ⟨hstage, hafter⟩
  · exact Or.inl ⟨name, direction, line, rest ++ [last], rfl⟩
  · refine Or.inr ⟨hstage, ?_⟩
    intro later hlater
    rcases List.mem_append.mp hlater with hlater | hlater
    · exact hafter later hlater
    · exact List.mem_singleton.mp hlater ▸ hlast hstage

theorem Follows.of_classes {latest : Option String} (h : Follows (.classes latest) op after)
    (stage : Stage) : Follows stage op after :=
  Or.inl (h.resolve_right fun hstage => absurd hstage.1 nofun)

/-- **An entity is defined for an exit of a class, or when there are no more classes.** -/
theorem followed (h : Ordered ops stage) :
    EverySplit (fun _ op after => op.opcode = .defineEntity → Follows stage op after) ops := by
  induction h with
  | nil => exact everySplit_nil
  | plain _ hentity hclass ih =>
    refine everySplit_concat.mpr ⟨ih.mono ?_, fun hop => absurd hop hentity⟩
    intro before op after hfollows hop
    exact (hfollows hop).concat fun _ => hclass
  | define _ hdefines _ ih =>
    refine everySplit_concat.mpr ⟨ih.mono ?_, ?_⟩
    · intro before op after hfollows hop
      exact ((hfollows hop).of_classes _).concat nofun
    · intro hop
      exact absurd (Or.inl hdefines) (Operation.not_concernsClass_of_defineEntity hop)
  | describe _ hsubject ih =>
    refine everySplit_concat.mpr ⟨ih.mono ?_, ?_⟩
    · intro before op after hfollows hop
      exact (hfollows hop).concat nofun
    · intro hop
      exact absurd (Or.inr hsubject) (Operation.not_concernsClass_of_defineEntity hop)
  | @exit _ name _ _ hentity direction line ih =>
    refine everySplit_concat.mpr ⟨everySplit_concat.mpr ⟨ih.mono ?_, ?_⟩, ?_⟩
    · intro before op after hfollows hop
      exact ((hfollows hop).concat nofun).concat nofun
    · intro _
      exact Or.inl ⟨name, direction, line, [], rfl⟩
    · intro hop
      exact absurd hop nofun
  | close _ ih =>
    refine ih.mono ?_
    intro before op after hfollows hop
    exact (hfollows hop).of_classes _
  | entity _ hentity ih =>
    refine everySplit_concat.mpr ⟨ih.mono ?_, fun _ => Or.inr ⟨rfl, nofun⟩⟩
    intro before op after hfollows hop
    exact (hfollows hop).concat fun _ _ => Operation.not_concernsClass_of_defineEntity hentity

/-- Operations with the same outlines end in operations with the same outline. -/
theorem exists_of_outlines_concat {ops' : List Operation}
    (h : ops'.map Operation.outline = (ops ++ [op]).map Operation.outline) :
    ∃ init last, ops' = init ++ [last] ∧ init.map Operation.outline = ops.map Operation.outline ∧
      last.outline = op.outline := by
  rw [List.map_append] at h
  obtain ⟨init, rest, rfl, hinit, hrest⟩ := List.map_eq_append_iff.mp h
  obtain ⟨last, rfl, hlast⟩ := List.map_eq_singleton_iff.mp hrest
  exact ⟨init, last, rfl, hinit, hlast⟩

/-- What a later declaration fills in does not matter to the order. -/
theorem congr (h : Ordered ops stage) {ops' : List Operation}
    (houtlines : ops'.map Operation.outline = ops.map Operation.outline) : Ordered ops' stage := by
  induction h generalizing ops' with
  | nil => exact List.map_eq_nil_iff.mp houtlines ▸ nil
  | plain _ hentity hclass ih =>
    obtain ⟨init, last, rfl, hinit, hlast⟩ := exists_of_outlines_concat houtlines
    obtain rfl := Operation.eq_of_outline_eq hlast hentity
    exact plain (ih hinit) hentity hclass
  | @define ops _ name op _ hop hnew ih =>
    obtain ⟨init, last, rfl, hinit, hlast⟩ := exists_of_outlines_concat houtlines
    obtain rfl := Operation.eq_of_outline_eq hlast (by rw [hop.1]; nofun)
    refine define (ih hinit) hop ?_
    intro other hother hdefines
    have hmem : other.outline ∈ ops.map Operation.outline := hinit ▸ List.mem_map_of_mem hother
    obtain ⟨old, hold, heq⟩ := List.mem_map.mp hmem
    rw [← Operation.definesClass_outline, ← heq, Operation.definesClass_outline] at hdefines
    exact hnew old hold hdefines
  | describe _ hop ih =>
    obtain ⟨init, last, rfl, hinit, hlast⟩ := exists_of_outlines_concat houtlines
    rw [← Operation.subject?_outline, ← hlast, Operation.subject?_outline] at hop
    exact describe (ih hinit) hop
  | exit _ hop direction line ih =>
    obtain ⟨init, exit', rfl, hinit, hexit⟩ := exists_of_outlines_concat houtlines
    obtain ⟨init, last, rfl, hinit, hlast⟩ := exists_of_outlines_concat hinit
    obtain rfl := Operation.eq_of_outline_eq hexit nofun
    rw [← Operation.opcode_outline, ← hlast, Operation.opcode_outline] at hop
    rw [← Operation.argument_zero_outline, ← hlast, Operation.argument_zero_outline]
    exact exit (ih hinit) hop direction line
  | close _ ih => exact close (ih houtlines)
  | entity _ hop ih =>
    obtain ⟨init, last, rfl, hinit, hlast⟩ := exists_of_outlines_concat houtlines
    rw [← Operation.opcode_outline, ← hlast, Operation.opcode_outline] at hop
    exact entity (ih hinit) hop

end Ordered

/-! ### Classes that are complete -/

/-- Whether all about a class stands before a place: its definition does, and nothing
behind concerns it. -/
def CompleteBetween (name : String) (before after : List Operation) : Prop :=
  (∃ d ∈ before, d.DefinesClass name) ∧ ∀ op ∈ after, ¬ op.ConcernsClass name

/-- Whether a class is defined before another one. -/
def DefinesBefore (name other : String) (ops : List Operation) : Prop :=
  ∃ earlier d later, ops = earlier ++ d :: later ∧ d.DefinesClass other ∧
    ∃ c ∈ earlier, c.DefinesClass name

/-- **A class is complete before an entity, unless the entity was defined for an exit of
that class or of one before it.** -/
theorem Ordered.completeBetween_iff {ops before after : List Operation} {stage : Stage}
    {op : Operation} {name : String} (h : Ordered ops stage) (hops : ops = before ++ op :: after)
    (hop : op.opcode = .defineEntity) (hdefined : ∃ d ∈ ops, d.DefinesClass name) :
    CompleteBetween name before after ↔
      ∀ other direction line rest,
        after = .connectRooms (.entityClass other) direction (op.argument 0) line :: rest →
          DefinesBefore name other before := by
  constructor
  · rintro ⟨⟨c, hc, hcname⟩, hcomplete⟩ other direction line rest rfl
    have hexit :=
      Operation.subject?_connectRooms (.entityClass other) direction (op.argument 0) line
    -- the class with the exit was defined before the entity
    obtain ⟨d, hd, hdother⟩ := h.defined_first (before ++ [op]) _ rest (by simp [hops]) other
      (Or.inr hexit)
    have hdbefore : d ∈ before := by
      simp only [List.mem_append, List.mem_singleton] at hd
      rcases hd with (hd | rfl) | rfl
      · exact hd
      · exact absurd (Or.inl hdother) (Operation.not_concernsClass_of_defineEntity hop)
      · exact absurd hdother (Operation.not_definesClass_of_subject? hexit)
    obtain ⟨earlier, later, rfl⟩ := List.append_of_mem hdbefore
    refine ⟨earlier, d, later, rfl, hdother, ?_⟩
    rcases List.mem_append.mp hc with hc | hc
    · exact ⟨c, hc, hcname⟩
    exfalso
    rcases List.mem_cons.mp hc with rfl | hc
    · -- the exit concerns the class itself
      obtain rfl : other = name := hcname.unique (Or.inl hdother)
      exact hcomplete _ (List.mem_cons_self ..) (Or.inr hexit)
    · -- the exit concerns a class that was closed by then
      obtain ⟨between, later, rfl⟩ := List.append_of_mem hc
      have hsplit : ops = (earlier ++ d :: between) ++ c :: (later ++ op ::
          .connectRooms (.entityClass other) direction (op.argument 0) line :: rest) := by
        simp [hops]
      exact h.closed hsplit hcname (List.mem_append_right _ (List.mem_cons_self ..))
        (Or.inl hdother) _ (by simp) (Or.inr hexit)
  · intro hearlier
    have hcomplete : ∀ later ∈ after, ¬ later.ConcernsClass name := by
      rcases h.followed before op after hops hop with
        ⟨other, direction, line, rest, rfl⟩ | ⟨-, hnone⟩
      · obtain ⟨earlier, d, later, rfl, hdother, c, hc, hcname⟩ := hearlier _ _ _ _ rfl
        have hsplit : ops = earlier ++ d :: (later ++ op ::
            .connectRooms (.entityClass other) direction (op.argument 0) line :: rest) := by
          simp [hops]
        intro last hlast
        exact h.closed hsplit hdother hc (Or.inl hcname) last (List.mem_cons_of_mem _
          (List.mem_append_right _ (List.mem_cons_of_mem _ hlast)))
      · exact fun later hlater => hnone later hlater name
    refine ⟨?_, hcomplete⟩
    obtain ⟨d, hd, hdname⟩ := hdefined
    rw [hops, List.mem_append, List.mem_cons] at hd
    rcases hd with hd | rfl | hd
    · exact ⟨d, hd, hdname⟩
    · exact absurd (Or.inl hdname) (Operation.not_concernsClass_of_defineEntity hop)
    · exact absurd (Or.inl hdname) (hcomplete d hd)

end Adventure
