/-
What it means that an operation passes its check.

Each check is a sequence of guards; here each is turned into the plain conditions it
stands for, in both directions.  Whoever runs a checked operation reads off what the
check promised, and whoever writes an operation shows that it will pass.

An operation that acts on a subject spells that subject first.  Once the number of its
arguments is right, the subject is one its opcode can act on, and what follows it is
exactly the payload that the opcode reads.
-/
import Adventure.Proofs.Outcome
import Adventure.Validation

namespace Adventure

/-! ### Subjects -/

namespace Operation

section Acting

variable {opcode : Opcode} {subject : Subject} {payload : List String} {line : Nat}

theorem target?_acting (h : opcode.targets ≠ []) :
    (acting opcode subject payload line).target? = some subject.target := by
  have hempty : opcode.targets.isEmpty = false := by simpa using h
  cases subject <;>
    simp [target?, acting, hempty, Subject.arguments, Target.ofName?_name, Subject.target]

theorem subject?_acting (h : opcode.targets ≠ []) :
    (acting opcode subject payload line).subject? = some subject := by
  rw [subject?, target?_acting h]
  cases subject <;> rfl

theorem payload_acting (h : opcode.targets ≠ []) :
    (acting opcode subject payload line).payload = payload := by
  rw [Operation.payload, target?_acting h]
  cases subject <;> rfl

theorem payloadAt_acting (h : opcode.targets ≠ []) (index : Nat) :
    (acting opcode subject payload line).payloadAt index = payload.getD index "" := by
  rw [payloadAt, payload_acting h]

end Acting

theorem subject?_eq_none {op : Operation} (h : op.opcode.targets = []) : op.subject? = none := by
  simp [subject?, target?, h]

theorem targets_ne_nil {op : Operation} {subject : Subject} (h : op.subject? = some subject) :
    op.opcode.targets ≠ [] := by
  intro hnil
  rw [subject?_eq_none hnil] at h
  exact absurd h nofun

/-- The sort of subject comes with the subject. -/
theorem target_of_subject? {op : Operation} {subject : Subject} (h : op.subject? = some subject) :
    op.target? = some subject.target := by
  obtain ⟨target, htarget, rfl⟩ := Option.map_eq_some_iff.mp h
  rw [htarget]
  cases target <;> rfl

theorem exists_subject {op : Operation} {target : Target} (h : op.target? = some target) :
    ∃ subject, op.subject? = some subject ∧ subject.target = target := by
  refine ⟨_, by rw [subject?, h]; rfl, ?_⟩
  cases target <;> rfl

end Operation

/-- What a subject is, as far as it was declared: its type, which the game has not. -/
def Declarations.HasSubject (d : Declarations) (subject : Subject) (type : Option EntityType) :
    Prop :=
  match subject with
  | .entity name => ∃ t, d.entityType? name = some t ∧ type = some t
  | .entityClass name => ∃ t, d.classType? name = some t ∧ type = some t
  | .defaultPlayer => type = some .player
  | .game => type = none

namespace Validation

/-! ### Arguments and subjects -/

theorem checkArity_ok_iff {op : Operation} :
    checkArity op = .ok () ↔
      ∃ arity, op.arity = some arity ∧ arity.accepts op.arguments.length := by
  rw [checkArity]
  cases op.arity with
  | none => simp
  | some arity =>
    cases h : arity.accepts op.arguments.length <;> simp [h]

/-- An opcode that acts on subjects takes the subject and the payload behind it. -/
theorem arity_of_targets {opcode : Opcode} (h : opcode.targets ≠ []) (target : Option Target) :
    opcode.arity target =
      (target.filter (opcode.targets.contains ·)).map fun t =>
        .exactly (opcode.payloadCount + if t.isNamed then 2 else 1) := by
  cases opcode <;> first | rfl | exact absurd rfl h

/-- **The number of arguments is right just when the subject is one the opcode can act
on and the payload is complete.** -/
theorem checkArity_of_targets {op : Operation} (h : op.opcode.targets ≠ []) :
    checkArity op = .ok () ↔
      ∃ subject, op.subject? = some subject ∧ subject.target ∈ op.opcode.targets ∧
        op.arguments.length =
          op.opcode.payloadCount + if subject.target.isNamed then 2 else 1 := by
  rw [checkArity_ok_iff, Operation.arity, arity_of_targets h]
  constructor
  · rintro ⟨arity, harity, haccepts⟩
    obtain ⟨target, hfilter, rfl⟩ := Option.map_eq_some_iff.mp harity
    obtain ⟨htarget, hmem⟩ := Option.filter_eq_some_iff.mp hfilter
    obtain ⟨subject, hsubject, rfl⟩ := Operation.exists_subject htarget
    exact ⟨subject, hsubject, by simpa using hmem, by simpa [Arity.accepts] using haccepts⟩
  · rintro ⟨subject, hsubject, hmem, hlength⟩
    refine ⟨.exactly op.arguments.length, ?_, by simp [Arity.accepts]⟩
    have hfilter : op.target?.filter (op.opcode.targets.contains ·) = some subject.target := by
      rw [Operation.target_of_subject? hsubject]
      simpa using hmem
    rw [hfilter, hlength, Option.map_some]

theorem checkArity_acting {opcode : Opcode} {subject : Subject} {payload : List String} {line : Nat}
    (hmem : subject.target ∈ opcode.targets) (hpayload : payload.length = opcode.payloadCount) :
    checkArity (.acting opcode subject payload line) = .ok () := by
  have htargets : opcode.targets ≠ [] := List.ne_nil_of_mem hmem
  refine (checkArity_of_targets htargets).mpr
    ⟨subject, Operation.subject?_acting htargets, hmem, ?_⟩
  cases subject <;>
    simp [Operation.acting, Subject.arguments, Subject.target, Target.isNamed, hpayload]

theorem checkSubject_ok_iff {d : Declarations} {op : Operation} {subject : Subject}
    (h : op.subject? = some subject) {type : Option EntityType} :
    checkSubject d op = .ok type ↔ checkArity op = .ok () ∧ d.HasSubject subject type := by
  have htarget := Operation.target_of_subject? h
  have hname : ∀ name, (subject = .entity name ∨ subject = .entityClass name) →
      op.argument 1 = name := by
    rintro name (rfl | rfl) <;>
      (rw [Operation.subject?, htarget] at h; simpa [Subject.target] using h)
  rw [checkSubject, check_bind_ok_iff, htarget]
  refine and_congr_right ?_
  intro _
  cases subject with
  | entity name =>
    rw [hname name (.inl rfl)]
    cases htype : d.entityType? name with
    | none => simp [Subject.target, Declarations.HasSubject, htype]
    | some t =>
      simp [Subject.target, Declarations.HasSubject, htype]
  | entityClass name =>
    rw [hname name (.inr rfl)]
    cases htype : d.classType? name with
    | none => simp [Subject.target, Declarations.HasSubject, htype]
    | some t =>
      simp [Subject.target, Declarations.HasSubject, htype]
  | defaultPlayer => exact pure_ok_iff
  | game => exact pure_ok_iff

/-- A check of the subject that passes names a subject, and one that was declared. -/
theorem exists_subject_of_checkSubject {d : Declarations} {op : Operation}
    {type : Option EntityType} (htargets : op.opcode.targets ≠ [])
    (h : checkSubject d op = .ok type) :
    ∃ subject, op.subject? = some subject ∧ subject.target ∈ op.opcode.targets ∧
      d.HasSubject subject type := by
  have harity : checkArity op = .ok () := by
    rw [checkSubject, check_bind_ok_iff] at h
    exact h.1
  obtain ⟨subject, hsubject, hmem, -⟩ := (checkArity_of_targets htargets).mp harity
  exact ⟨subject, hsubject, hmem, ((checkSubject_ok_iff hsubject).mp h).2⟩

/-! ### Names and types -/

theorem checkEntity_ok_iff {d : Declarations} {op : Opcode} {name : String} {type : EntityType}
    {u : Unit} :
    checkEntity d op name type = .ok u ↔
      ∃ actual, d.entityType? name = some actual ∧ actual.isA type := by
  rw [checkEntity]
  cases d.entityType? name with
  | none => simp
  | some actual => cases h : actual.isA type <;> simp [h]

theorem checkNewName_ok_iff {d : Declarations} {op : Opcode} {name : String} {u : Unit} :
    checkNewName d op name = .ok u ↔
      name ≠ "" ∧ EntityType.ofName? name = none ∧ d.entity? name = none := by
  simp [checkNewName, not_or, and_assoc]

theorem instantiableType_ok_iff {op : Opcode} {word : String} {type : EntityType} :
    instantiableType op word = .ok type ↔
      EntityType.ofName? word = some type ∧ type.isInstantiable := by
  rw [instantiableType]
  cases h : (EntityType.ofName? word).filter (·.isInstantiable) with
  | none =>
    simp only [throw_ok_iff, false_iff, not_and]
    intro hname htype
    simp [hname, htype] at h
  | some other =>
    obtain ⟨hname, htype⟩ := Option.filter_eq_some_iff.mp h
    simp only [pure_ok_iff, hname, Option.some.injEq]
    exact ⟨fun he => ⟨he.symm, he ▸ htype⟩, fun h => h.1.symm⟩

theorem readValue_ok_iff {rule : Rule} {property text : String} {v : Value} :
    readValue rule property text = .ok v ↔ rule.read? text = some v := by
  rw [readValue, mapError_ok_iff, Rule.read]
  cases rule.read? text <;> simp

/-! ### What each check asks for -/

theorem defineDirection_ok_iff {v : Vocabulary} {d : Declarations} {op : Operation}
    {value : Option Value} :
    defineDirection v d op = .ok value ↔
      checkArity op = .ok () ∧ d.resolveDirection v (op.argument 0) = none ∧ value = none := by
  simp [defineDirection]

theorem defineDirectionSynonym_ok_iff {v : Vocabulary} {d : Declarations} {op : Operation}
    {value : Option Value} :
    defineDirectionSynonym v d op = .ok value ↔
      checkArity op = .ok () ∧ d.resolveDirection v (op.argument 0) = some (op.argument 0) ∧
        d.resolveDirection v (op.argument 1) = none ∧ value = none := by
  simp [defineDirectionSynonym]

theorem defineVerbSynonym_ok_iff {d : Declarations} {op : Operation} {value : Option Value} :
    defineVerbSynonym d op = .ok value ↔
      checkArity op = .ok () ∧ d.verbFor? (op.argument 1) = none ∧ value = none := by
  rw [defineVerbSynonym, check_bind_ok_iff]
  cases h : d.verbFor? (op.argument 1) <;> simp [h]

theorem defineEntityClass_ok_iff {d : Declarations} {op : Operation} {value : Option Value} :
    defineEntityClass d op = .ok value ↔
      checkArity op = .ok () ∧
        (∃ type, EntityType.ofName? (op.argument 1) = some type ∧ type.isInstantiable) ∧
        op.argument 0 ≠ "" ∧ EntityType.ofName? (op.argument 0) = none ∧
        d.entity? (op.argument 0) = none ∧ d.class? (op.argument 0) = none ∧ value = none := by
  rw [defineEntityClass, check_bind_ok_iff]
  refine and_congr_right ?_
  intro _
  cases hclass : d.class? (op.argument 0) with
  | none =>
    simp only [bind_ok_iff, instantiableType_ok_iff, checkNewName_ok_iff, Declarations.classType?,
      hclass, Option.map_none, pure_ok_iff, true_and, exists_const]
    constructor
    · rintro ⟨type, htype, ⟨hne, hreserved, hentity⟩, hvalue⟩
      exact ⟨⟨type, htype⟩, hne, hreserved, hentity, hvalue⟩
    · rintro ⟨⟨type, htype⟩, hne, hreserved, hentity, hvalue⟩
      exact ⟨type, htype, ⟨hne, hreserved, hentity⟩, hvalue⟩
  | some existing =>
    -- a class of that name is refused, whatever its type
    refine iff_of_false ?_ (by simp)
    simp only [bind_ok_iff, Declarations.classType?, hclass, Option.map_some]
    rintro ⟨type, -, -, -, h⟩
    by_cases htype : existing.type = type <;> simp [htype] at h

theorem defineEntity_ok_iff {d : Declarations} {op : Operation} {value : Option Value} :
    defineEntity d op = .ok value ↔
      checkArity op = .ok () ∧
        (∃ type, EntityType.ofName? (op.argument 1) = some type ∧ type.isInstantiable ∧
          d.classAllows (op.argument 2) type ∧
          (op.arguments.length = 4 → type = .resource)) ∧
        op.argument 0 ≠ "" ∧ EntityType.ofName? (op.argument 0) = none ∧
        d.entity? (op.argument 0) = none ∧ d.class? (op.argument 0) = none ∧ value = none := by
  rw [defineEntity, check_bind_ok_iff]
  refine and_congr_right ?_
  intro _
  simp only [bind_ok_iff, instantiableType_ok_iff, checkNewName_ok_iff, guard_ok_iff, throw_bind,
    exists_const, Option.not_isSome_iff_eq_none]
  constructor
  · rintro ⟨type, ⟨htype, hinst⟩, ⟨hne, hreserved, hentity⟩, hclass, h⟩
    by_cases hallows : d.classAllows (op.argument 2) type = true
    · simp only [hallows, Bool.not_true, Bool.false_eq_true, if_false, guard_ok_iff, not_and,
        ne_eq, not_not, pure_ok_iff] at h
      exact ⟨⟨type, htype, hinst, hallows, h.1⟩, hne, hreserved, hentity, hclass, h.2⟩
    · cases hother : d.classType? (op.argument 2) <;> simp [hallows, hother] at h
  · rintro ⟨⟨type, htype, hinst, hallows, hplural⟩, hne, hreserved, hentity, hclass, hvalue⟩
    refine ⟨type, ⟨htype, hinst⟩, ⟨hne, hreserved, hentity⟩, hclass, ?_⟩
    simpa [hallows, hvalue] using hplural

theorem setProperty_ok_iff {d : Declarations} {op : Operation} {value : Option Value} :
    setProperty d op = .ok value ↔
      ∃ type, checkSubject d op = .ok type ∧
        ∃ rule, propertyRule type (op.payloadAt 0) = .ok rule ∧
          ∃ v, rule.read? (op.payloadAt 1) = some v ∧ value = some v := by
  simp [setProperty, readValue_ok_iff]

theorem setNamed_ok_iff {d : Declarations} {op : Operation} {value : Option Value} :
    setNamed d op = .ok value ↔
      (∃ type, checkSubject d op = .ok type) ∧ Text.isBlankText (op.payloadAt 0) = false ∧
        value = none := by
  simp [setNamed]

theorem loadScript_ok_iff {d : Declarations} {op : Operation} {value : Option Value} :
    loadScript d op = .ok value ↔
      (∃ type, checkSubject d op = .ok type) ∧ (ScriptMode.ofName? (op.payloadAt 0)).isSome ∧
        value = none := by
  simp [loadScript, ← Option.isSome_iff_ne_none]

theorem setAlias_ok_iff {d : Declarations} {op : Operation} {value : Option Value} :
    setAlias d op = .ok value ↔
      ∃ type, checkSubject d op = .ok (some type) ∧ type.isA .thing ∧ value = none := by
  simp [setAlias, Option.exists]

theorem setAttribute_ok_iff {d : Declarations} {op : Operation} {value : Option Value} :
    setAttribute d op = .ok value ↔
      ∃ type, checkSubject d op = .ok (some type) ∧ type.isA .being ∧
        ∃ v, Rule.integer.read? (op.payloadAt 1) = some v ∧ value = some v := by
  simp [setAttribute, readValue_ok_iff, Option.exists]

theorem insertIntoInventory_ok_iff {d : Declarations} {op : Operation} {value : Option Value} :
    insertIntoInventory d op = .ok value ↔
      checkArity op = .ok () ∧
        (∃ t, d.entityType? (op.argument 0) = some t ∧ t.isA .object) ∧
        (∃ t, d.entityType? (op.argument 1) = some t ∧ t.isA .being) ∧ value = none := by
  simp [insertIntoInventory, checkEntity_ok_iff]

theorem insertIntoPlace_ok_iff {d : Declarations} {op : Operation} {value : Option Value} :
    insertIntoPlace d op = .ok value ↔
      checkArity op = .ok () ∧
        (∃ t, d.entityType? (op.argument 0) = some t ∧ t.isA .thing) ∧
        (∃ t, d.entityType? (op.argument 1) = some t ∧ t.isA .place) ∧ value = none := by
  simp [insertIntoPlace, checkEntity_ok_iff]

theorem connectRooms_ok_iff {v : Vocabulary} {d : Declarations} {op : Operation}
    {value : Option Value} :
    connectRooms v d op = .ok value ↔
      checkSubject d op = .ok (some .room) ∧
        ∃ direction, d.resolveDirection v (op.argument 2) = some direction ∧
          (∃ t, d.entityType? (op.argument 3) = some t ∧ t.isA .room) ∧
          value = some (.string direction) := by
  cases hdirection : d.resolveDirection v (op.argument 2) with
  | none => simp [connectRooms, hdirection]
  | some direction =>
    simp only [connectRooms, hdirection, bind_ok_iff, throw_bind, guard_ok_iff, checkEntity_ok_iff,
      pure_ok_iff, Option.some.injEq, exists_eq_left', exists_const, ne_eq, not_not]
    constructor
    · rintro ⟨_, hsubject, rfl, h⟩
      exact ⟨hsubject, h⟩
    · rintro ⟨hsubject, h⟩
      exact ⟨_, hsubject, rfl, h⟩

theorem allocateResource_ok_iff {d : Declarations} {op : Operation} {value : Option Value} :
    allocateResource d op = .ok value ↔
      checkArity op = .ok () ∧
        (∃ t, d.entityType? (op.argument 0) = some t ∧ t.isA .resource) ∧
        (∃ t, d.entityType? (op.argument 1) = some t ∧ t.isA .tangible) ∧
        ∃ v, Rule.nonNegative.read? (op.argument 2) = some v ∧
          (d.requiresWhole (op.argument 0) → isWhole v) ∧ value = some v := by
  simp [allocateResource, checkEntity_ok_iff, readValue_ok_iff]

theorem setTimerPeriod_ok_iff {op : Operation} {value : Option Value} :
    setTimerPeriod op = .ok value ↔
      checkArity op = .ok () ∧
        ∃ v, Rule.integer.read? (op.argument 0) = some v ∧ (∀ i, v.integer? = some i → 0 < i) ∧
          value = some v := by
  have hpositive (v : Value) :
      v.integer?.any (· ≤ 0) = false ↔ ∀ i, v.integer? = some i → 0 < i := by
    cases v.integer? <;> simp
  simp [setTimerPeriod, readValue_ok_iff, hpositive]

end Validation

end Adventure
