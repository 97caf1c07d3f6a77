/-
The shape of operations.

An opcode says which sorts of subjects it acts on, and how many arguments it takes for each.
An operation that is well shaped keeps to that: it begins with the word for a sort of subject
that its opcode accepts, unless the opcode acts on none, and it has the right number of
arguments.

In a draft every operation is well shaped from the moment it is written.  The one that is
changed later is the definition of an awaited name, and whether a plural is added to it or
not, it has as many arguments as a definition may have.
-/
import Adventure.Proofs.Steps

namespace Adventure

variable {v : Vocabulary} {op : Operation} {name className : String} {type : EntityType}
variable {plural : Option String} {line : Nat}

/-! ### Operations -/

theorem Target.name_of_ofName? {word : String} {target : Target} (h : ofName? word = some target) :
    target.name = word :=
  by simpa using List.find?_some h

namespace Operation

/-- Whether an operation has the shape that its opcode asks for. -/
structure WellShaped (op : Operation) : Prop where
  /-- It begins with a sort of subject that the opcode accepts, if it acts on any. -/
  subject : op.opcode.targets = [] ∨
    ∃ target ∈ op.opcode.targets, op.arguments.head? = some target.name
  /-- The number of arguments is one that the opcode takes with that subject. -/
  count : ∃ arity, op.arity = some arity ∧ arity.accepts op.arguments.length

/-- **The check of the number of arguments tells whether an operation is well shaped.** -/
theorem wellShaped_iff : op.WellShaped ↔ Validation.checkArity op = .ok () := by
  rw [Validation.checkArity_ok_iff]
  refine ⟨WellShaped.count, fun hcount => ⟨?_, hcount⟩⟩
  by_cases htargets : op.opcode.targets = []
  · exact .inl htargets
  · obtain ⟨subject, hsubject, hmem, -⟩ :=
      (Validation.checkArity_of_targets htargets).mp (Validation.checkArity_ok_iff.mpr hcount)
    have htarget := target_of_subject? hsubject
    rw [target?, if_neg (by simpa using htargets)] at htarget
    obtain ⟨word, hword, hname⟩ := Option.bind_eq_some_iff.mp htarget
    exact .inr ⟨subject.target, hmem, hword.trans (congrArg some (Target.name_of_ofName? hname).symm)⟩

theorem wellShaped_acting {opcode : Opcode} {subject : Subject} {payload : List String}
    (hmem : subject.target ∈ opcode.targets) (hpayload : payload.length = opcode.payloadCount) :
    (acting opcode subject payload line).WellShaped :=
  wellShaped_iff.mpr (Validation.checkArity_acting hmem hpayload)

/-- A definition may have a plural. -/
theorem wellShaped_defineEntity : (defineEntity name type className plural line).WellShaped := by
  rw [wellShaped_iff]
  cases plural with
  | none => rfl
  | some plural => rfl

end Operation

/-! ### Drafts -/

namespace Draft

variable {d d' : Draft}

/-- A draft of well-shaped operations. -/
structure Shaped (d : Draft) : Prop where
  placed : d.Placed
  operations : ∀ op ∈ d.operations, op.WellShaped

theorem Shaped.empty : Draft.empty.Shaped :=
  ⟨.empty, nofun⟩

theorem Shaped.withDeclarations (hd : d.Shaped) (declarations : Declarations) :
    ({ d with declarations } : Draft).Shaped :=
  ⟨hd.placed.withDeclarations declarations, hd.operations⟩

theorem Shaped.write (hd : d.Shaped) (hop : op.WellShaped) : (d.write op).Shaped := by
  refine ⟨hd.placed.write op, ?_⟩
  rw [hd.placed.operations_write]
  intro other hother
  rcases List.mem_append.mp hother with hother | hother
  · exact hd.operations other hother
  · exact List.mem_singleton.mp hother ▸ hop

/-- **Declaring an entity keeps a draft well shaped**, also if it fills in a definition. -/
theorem Shaped.declareEntity {index : Nat} (hd : d.Shaped)
    (h : d.declareEntity name type className plural line = (.ok index, d')) : d'.Shaped := by
  obtain ⟨hplaced, hdeclares⟩ := hd.placed.declareEntity h
  refine ⟨hplaced, ?_⟩
  have hsettled := hdeclares.operations
  generalize d'.operations = ops at hsettled
  cases hsettled with
  | new =>
    intro op hop
    rcases List.mem_append.mp hop with hop | hop
    · exact hd.operations op hop
    · exact List.mem_singleton.mp hop ▸ Operation.wellShaped_defineEntity
  | filled _ _ _ hold =>
    have hothers := hd.operations
    rw [hold] at hothers
    intro op hop
    rcases List.mem_append.mp hop with hop | hop
    · exact hothers op (List.mem_append_left _ hop)
    · rcases List.mem_cons.mp hop with rfl | hop
      · exact Operation.wellShaped_defineEntity
      · exact hothers op (List.mem_append_right _ (List.mem_cons_of_mem _ hop))

theorem Shaped.usesEntity (hd : d.Shaped) (h : d.UsesEntity name type line d') : d'.Shaped := by
  refine ⟨hd.placed.usesEntity h, ?_⟩
  cases h with
  | declared | again => exact hd.operations
  | first => exact (hd.write Operation.wellShaped_defineEntity).operations

/-- **Writing a well-shaped operation keeps a draft well shaped**, whatever comes before the
writing. -/
theorem Shaped.adds (hd : d.Shaped) (h : d.Adds v op d') (hop : op.WellShaped) : d'.Shaped := by
  suffices ∃ d₁ : Draft, d₁.Shaped ∧ d' = d₁.write op by
    obtain ⟨d₁, hd₁, rfl⟩ := this
    exact hd₁.write hop
  cases h with
  | plain => exact ⟨d, hd, rfl⟩
  | mentioning hmentions => exact ⟨_, hd.usesEntity (usesEntity_of_ok hmentions), rfl⟩
  | entityClass hdeclare =>
    obtain ⟨rfl, -⟩ := declareClass_ok hdeclare
    exact ⟨_, hd.withDeclarations _, rfl⟩
  | direction hdeclare =>
    obtain rfl := declareDirection_ok hdeclare
    exact ⟨_, hd.withDeclarations _, rfl⟩
  | directionSynonym hdeclare =>
    obtain rfl := declareDirectionSynonym_ok hdeclare
    exact ⟨_, hd.withDeclarations _, rfl⟩
  | verbSynonym hdeclare =>
    obtain rfl := declareVerbSynonym_ok hdeclare
    exact ⟨_, hd.withDeclarations _, rfl⟩

end Draft

end Adventure
