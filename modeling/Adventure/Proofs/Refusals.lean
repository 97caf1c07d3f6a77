/-
Calls that are refused.

A draft is changed in place, and an error undoes nothing: what a call wrote before it was
refused stays written.  So each call is followed here step by step, with its checks where
they stand among its writes, and what it comes to is shown to be what a draft says of it.

Five of the six calls make all their checks before they write anything, and leave no trace
if they are refused.  The sixth is the declaration of an entity.  It takes the name from
those that are awaited before it looks at the type the name was used as, so when that type
is another one the name is forgotten: it is not declared, its definition stays in the
program, and nothing will miss it at the end.
-/
import Adventure.Proofs.References
import Adventure.Proofs.Steps

namespace Adventure

/-- A call that changes a draft step by step. -/
abbrev Drafting := EStateM Error Draft

namespace Drafting

open Declarations (Refusal)

variable {α : Type}

/-- Refuses what a line says. -/
def refuse (line : Nat) (r : Refusal) : Drafting α :=
  throw (r.onLine line)

/-- Changes what is declared. -/
def declare (f : Declarations → Declarations) : Drafting Unit :=
  modify fun d => { d with declarations := f d.declarations }

/-- Appends an operation and gives its index. -/
def write (op : Operation) : Drafting Nat := do
  let index := (← get).program.indexAfter op
  modify (·.write op)
  pure index

/-- Takes a name from those that are awaited. -/
def takeAwaited (name : String) : Drafting (Option Awaited) := do
  match (← get).awaited? name with
  | none => pure none
  | some use =>
    modify fun d => { d with awaited := d.awaited.filter (·.name != name) }
    pure (some use)

/-- Passes if neither an entity nor a class has the name. -/
def checkUnused (name : String) (line : Nat) : Drafting Unit := do
  let declared := (← get).declarations
  match declared.entity? name with
  | some entity => refuse line (.entityTaken name entity.line)
  | none =>
    match declared.class? name with
    | some declared => refuse line (.classTaken name declared.line)
    | none => pure ()

def declareClass (name : String) (type : EntityType) (line : Nat) : Drafting Unit := do
  if (EntityType.ofName? name).isSome then refuse line (.reservedForClass name)
  checkUnused name line
  declare (·.addClass ⟨name, type, line⟩)

/-- The checks of a declaration that come before anything is written. -/
def checkEntity (name : String) (type : EntityType) (className : String) (line : Nat) :
    Drafting Unit := do
  if (EntityType.ofName? name).isSome then refuse line (.reservedForEntity name)
  checkUnused name line
  if !(← get).declarations.classAllows className type then
    refuse line (.wrongClass className type name)

def declareEntity (name : String) (type : EntityType) (className : String)
    (plural : Option String) (line : Nat) : Drafting Nat := do
  checkEntity name type className line
  let definition ← match ← takeAwaited name with
    | some use =>
      if use.type ≠ type then refuse line (.referencedAs name type use.type use.lines)
      modify fun d => { d with program := Draft.fillIn d.program use className plural }
      pure use.definition
    | none => write (.defineEntity name type className plural line)
  declare (·.addEntity ⟨name, type, className, line⟩)
  pure definition

def useEntity (name : String) (type : EntityType) (line : Nat) : Drafting Unit := do
  let d ← get
  match d.declarations.entity? name with
  | some declared =>
    if !declared.type.isA type then
      refuse line (.declaredAs name declared.type declared.line type)
  | none =>
    if (d.declarations.class? name).isSome then refuse line (.namesClass name)
    match d.awaited? name with
    | some use =>
      if use.type ≠ type then refuse line (.usedAs name use.type (use.lines.headD 0) type)
      modify fun d => { d with awaited := d.awaited.map (Draft.usedOn name line) }
    | none =>
      let definition ← write (.defineEntity name type type.name none line)
      modify fun d => { d with awaited := d.awaited ++ [⟨name, type, definition, [line]⟩] }

def declareDirection (v : Vocabulary) (word : String) (line : Nat) : Drafting Unit := do
  if ((← get).declarations.resolveDirection v word).isSome then
    refuse line (.directionTaken word)
  declare (·.addDirection word)

def declareDirectionSynonym (v : Vocabulary) (direction word : String) (line : Nat) :
    Drafting Unit := do
  let declared := (← get).declarations
  if declared.resolveDirection v direction ≠ some direction then
    refuse line (.notDirection direction)
  if (declared.resolveDirection v word).isSome then refuse line (.wordNamesDirection word)
  declare (·.addDirectionSynonym direction word)

def declareVerbSynonym (verb word : String) (line : Nat) : Drafting Unit := do
  match (← get).declarations.verbFor? word with
  | some existing => refuse line (.verbTaken word existing)
  | none => declare (·.addVerbSynonym verb word)

/-! ### What a call comes to -/

/-- A call that either succeeds or leaves the draft as it is. -/
def outcome (d : Draft) : Except Error Draft → EStateM.Result Error Draft Unit
  | .ok d' => .ok () d'
  | .error e => .error e d

theorem outcome_error_iff {d d' : Draft} {x : Except Error Draft} {e : Error} :
    outcome d x = .error e d' ↔ x = .error e ∧ d = d' := by
  cases x <;> simp [outcome]

variable {d : Draft} {name className word : String} {type : EntityType} {line : Nat}

theorem checkUnused_run (d : Draft) (name : String) (line : Nat) :
    checkUnused name line d =
      match d.declarations.checkUnused name with
      | .ok () => .ok () d
      | .error r => .error (r.onLine line) d := by
  rw [Declarations.checkUnused]
  simp only [checkUnused, bind, EStateM.bind, run_get]
  cases d.declarations.entity? name <;> cases d.declarations.class? name <;> rfl

theorem declareClass_run :
    declareClass name type line d = outcome d (d.declareClass name type line) := by
  rw [Draft.declareClass, Declarations.declareClass]
  cases hreserved : (EntityType.ofName? name).isSome with
  | true =>
    simp only [declareClass, hreserved]
    rfl
  | false =>
    have hrun : declareClass name type line d =
        (checkUnused name line >>= fun _ => declare (·.addClass ⟨name, type, line⟩)) d := by
      simp only [declareClass, hreserved]
      rfl
    rw [hrun]
    cases hunused : d.declarations.checkUnused name with
    | error r => exact run_bind_of_error (by rw [checkUnused_run, hunused])
    | ok =>
      rw [run_bind_of_ok (by rw [checkUnused_run, hunused])]
      rfl

theorem declareDirection_run (v : Vocabulary) :
    declareDirection v word line d = outcome d (d.declareDirection v word line) := by
  rw [Draft.declareDirection, Declarations.declareDirection, declareDirection,
    run_bind_of_ok (run_get d)]
  cases (d.declarations.resolveDirection v word).isSome <;> rfl

theorem declareDirectionSynonym_run (v : Vocabulary) {direction : String} :
    declareDirectionSynonym v direction word line d =
      outcome d (d.declareDirectionSynonym v direction word line) := by
  rw [Draft.declareDirectionSynonym, Declarations.declareDirectionSynonym, declareDirectionSynonym,
    run_bind_of_ok (run_get d)]
  by_cases hdirection : d.declarations.resolveDirection v direction = some direction
  · rw [if_neg (not_not.mpr hdirection), if_neg (not_not.mpr hdirection)]
    cases (d.declarations.resolveDirection v word).isSome <;> rfl
  · rw [if_pos hdirection, if_pos hdirection]
    rfl

theorem declareVerbSynonym_run {verb : String} :
    declareVerbSynonym verb word line d = outcome d (d.declareVerbSynonym verb word line) := by
  rw [Draft.declareVerbSynonym, Declarations.declareVerbSynonym, declareVerbSynonym,
    run_bind_of_ok (run_get d)]
  cases d.declarations.verbFor? word <;> rfl

theorem useEntity_run :
    useEntity name type line d = outcome d (d.referenceEntity name type line) := by
  rw [Draft.referenceEntity, useEntity, run_bind_of_ok (run_get d)]
  cases d.declarations.entity? name with
  | some declared => cases hfits : declared.type.isA type <;> simp only [hfits] <;> rfl
  | none =>
    cases (d.declarations.class? name).isSome with
    | true => rfl
    | false =>
      cases d.awaited? name with
      | none => rfl
      | some use =>
        by_cases htype : use.type = type
        · simp only [htype, ne_eq, not_true_eq_false, ↓reduceIte]
          rfl
        · simp only [htype, ne_eq, not_false_eq_true, ↓reduceIte]
          rfl

theorem checkEntity_run :
    checkEntity name type className line d =
      match d.checkEntity name type className with
      | .ok () => .ok () d
      | .error r => .error (r.onLine line) d := by
  rw [Draft.checkEntity]
  cases hreserved : (EntityType.ofName? name).isSome with
  | true =>
    simp only [checkEntity, hreserved]
    rfl
  | false =>
    have hrun : checkEntity name type className line d = (checkUnused name line >>= fun _ => do
        if !(← get).declarations.classAllows className type then
          refuse line (.wrongClass className type name)) d := by
      simp only [checkEntity, hreserved]
      rfl
    rw [hrun]
    cases hunused : d.declarations.checkUnused name with
    | error r => exact run_bind_of_error (by rw [checkUnused_run, hunused])
    | ok =>
      rw [run_bind_of_ok (by rw [checkUnused_run, hunused]), run_bind_of_ok (run_get d)]
      cases d.declarations.classAllows className type <;> rfl

theorem takeAwaited_run (d : Draft) (name : String) :
    takeAwaited name d = .ok (d.awaited? name) (match d.awaited? name with
      | none => d
      | some _ => { d with awaited := d.awaited.filter (·.name != name) }) := by
  rw [takeAwaited, run_bind_of_ok (run_get d)]
  cases d.awaited? name <;> rfl

/-- **Declaring an entity is declaring it in the draft**, and what a refusal leaves is what
the draft says it leaves. -/
theorem declareEntity_run {plural : Option String} :
    declareEntity name type className plural line d =
      match d.declareEntity name type className plural line with
      | (.ok definition, d') => .ok definition d'
      | (.error e, d') => .error e d' := by
  rw [Draft.declareEntity, declareEntity]
  cases hcheck : d.checkEntity name type className with
  | error r => exact run_bind_of_error (by rw [checkEntity_run, hcheck])
  | ok =>
    rw [run_bind_of_ok (by rw [checkEntity_run, hcheck])]
    rw [run_bind_of_ok (takeAwaited_run d name)]
    cases d.awaited? name with
    | none => rfl
    | some use =>
      by_cases htype : use.type = type
      · simp only [htype, ne_eq, not_true_eq_false, ↓reduceIte]
        rfl
      · simp only [htype, ne_eq, not_false_eq_true, ↓reduceIte]
        rfl

end Drafting

/-! ### A refused declaration of an entity -/

namespace Draft

variable {d d' : Draft} {name className : String} {type : EntityType} {plural : Option String}
variable {line : Nat} {e : Error} {use : Awaited}

/-- The draft when a name is no longer awaited. -/
def forget (d : Draft) (name : String) : Draft :=
  { d with awaited := d.awaited.filter (·.name != name) }

/-- The name of the entity is awaited as another type, and nothing else is wrong with its
declaration. -/
structure Mistypes (d : Draft) (name : String) (type : EntityType) (className : String)
    (use : Awaited) : Prop where
  check : d.checkEntity name type className = .ok ()
  awaited : d.awaited? name = some use
  type : use.type ≠ type

/-- A declaration that mistypes the name is refused, and the name is forgotten. -/
theorem declareEntity_of_mistypes (h : d.Mistypes name type className use) :
    d.declareEntity name type className plural line =
      (.error ((Declarations.Refusal.referencedAs name type use.type use.lines).onLine line),
        d.forget name) := by
  rw [declareEntity, h.check]
  simp only [h.awaited, ne_eq, h.type, not_false_eq_true, ↓reduceIte]
  rfl

/-- Any other declaration that is refused leaves everything as it is. -/
theorem eq_of_declareEntity_error (hc : ∀ use, ¬ d.Mistypes name type className use)
    (h : d.declareEntity name type className plural line = (.error e, d')) : d' = d := by
  unfold declareEntity at h
  split at h
  · exact (Prod.mk.inj h).2.symm
  rename_i hcheck
  dsimp only at h
  split at h
  · rename_i use huse
    split at h
    · rename_i htype
      exact absurd ⟨hcheck, huse, htype⟩ (hc use)
    · exact absurd (congrArg Prod.fst h) nofun
  · exact absurd (congrArg Prod.fst h) nofun

theorem Placed.forget (hd : d.Placed) (name : String) : (d.forget name).Placed :=
  ⟨hd.wf, fun use huse => hd.placeholder use (List.mem_of_mem_filter huse),
    hd.distinct.sublist (List.filter_sublist.map _)⟩

/-- What is left of a name that was forgotten. -/
structure Forgotten (d : Draft) (use : Awaited) : Prop where
  /-- It is not declared. -/
  undeclared : d.declarations.entity? use.name = none
  /-- The definition that its first use wrote stands as it was written. -/
  defined : ∃ line, .defineEntity use.name use.type use.type.name none line ∈ d.operations
  /-- It is not among the names that are missed at the end. -/
  unmissed : ∀ names, d.finish = .error (.of (.unresolved names)) → ∀ n ∈ names, n.name ≠ use.name

/-- Only names that are awaited are missed at the end. -/
theorem awaited_of_missed {names : List UnresolvedName} {n : UnresolvedName}
    (h : d.finish = .error (.of (.unresolved names))) (hn : n ∈ names) :
    ∃ use ∈ d.awaited, use.name = n.name := by
  unfold finish at h
  split at h
  · exact absurd h nofun
  obtain rfl := Cause.unresolved.inj (congrArg Error.cause (Except.error.inj h))
  obtain ⟨use, huse, rfl⟩ := List.mem_map.mp hn
  exact ⟨use, huse, rfl⟩

/-- Every name that is awaited is missed at the end. -/
theorem missed_of_awaited (h : use ∈ d.awaited) :
    ∃ names, d.finish = .error (.of (.unresolved names)) ∧ ∃ n ∈ names, n.name = use.name := by
  unfold finish
  rw [if_neg (by simpa using List.ne_nil_of_mem h)]
  exact ⟨_, rfl, _, List.mem_map_of_mem h, rfl⟩

theorem Mistypes.forgotten (h : d.Mistypes name type className use) (hd : d.Placed) :
    (d.forget use.name).Forgotten use := by
  obtain ⟨hmem, rfl⟩ := eq_of_awaited? h.awaited
  refine ⟨(checkEntity_ok_iff.mp h.check).2.1, ?_, ?_⟩
  · obtain ⟨hroot, line, hop⟩ := hd.placeholder use hmem
    exact ⟨line, List.mem_filterMap.mpr ⟨use.definition, hroot, hop⟩⟩
  · intro names hfinish n hn heq
    obtain ⟨other, hother, hname⟩ := awaited_of_missed hfinish hn
    have hne := (List.mem_filter.mp hother).2
    simp [hname, heq] at hne

/-- A name that is forgotten was missed before. -/
theorem finish_forget_ne (huse : use ∈ d.awaited) : (d.forget use.name).finish ≠ d.finish := by
  obtain ⟨names, hfinish, n, hn, hname⟩ := missed_of_awaited huse
  intro hsame
  obtain ⟨other, hother, heq⟩ := awaited_of_missed (hsame.trans hfinish) hn
  have hne := (List.mem_filter.mp hother).2
  simp [heq, hname] at hne

/-! ### A draft after many calls -/

/-- A call on a draft. -/
inductive Call where
  | mention (m : Mention)
  | direction (v : Vocabulary) (word : String) (line : Nat)
  | directionSynonym (v : Vocabulary) (known word : String) (line : Nat)
  | verbSynonym (verb word : String) (line : Nat)

namespace Call

open Drafting

/-- Makes the call. -/
def make : Call → Drafting Unit
  | mention (.entityClass name type line) => Drafting.declareClass name type line
  | mention (.entity name type className plural line) =>
    discard (Drafting.declareEntity name type className plural line)
  | mention (.use name type line) => Drafting.useEntity name type line
  | direction v word line => Drafting.declareDirection v word line
  | directionSynonym v known word line => Drafting.declareDirectionSynonym v known word line
  | verbSynonym verb word line => Drafting.declareVerbSynonym verb word line

/-- What a draft is after a call, whether the call was refused or not. -/
def next (d : Draft) (c : Call) : Draft :=
  match c.make d with
  | .ok _ d' | .error _ d' => d'

/-- What the empty draft becomes by calls, some of which may have been refused. -/
def reached (calls : List Call) : Draft :=
  calls.foldl next .empty

/-- The call declares an entity that is awaited as another type, and nothing else is wrong
with it. -/
inductive Mistypes (d : Draft) : Call → Awaited → Prop
  | intro {name className : String} {type : EntityType} {plural : Option String} {line : Nat}
    {use : Awaited} (h : d.Mistypes name type className use) :
    Mistypes d (.mention (.entity name type className plural line)) use

variable {d d' : Draft} {c : Call} {e : Error} {use : Awaited} {calls : List Call}

theorem Mistypes.mem (h : c.Mistypes d use) : use ∈ d.awaited := by
  obtain ⟨h⟩ := h
  exact (Draft.eq_of_awaited? h.awaited).1

/-! ### One call -/

/-- What a draft says of a call. -/
def attempt (d : Draft) : Call → Except Error Draft
  | mention m => m.apply d
  | direction v word line => d.declareDirection v word line
  | directionSynonym v known word line => d.declareDirectionSynonym v known word line
  | verbSynonym verb word line => d.declareVerbSynonym verb word line

theorem make_entity {name className : String} {type : EntityType} {plural : Option String}
    {line : Nat} :
    (mention (.entity name type className plural line)).make d =
      match d.declareEntity name type className plural line with
      | (.ok _, d') => .ok () d'
      | (.error e, d') => .error e d' := by
  show discard (Drafting.declareEntity name type className plural line) d = _
  cases h : d.declareEntity name type className plural line with
  | mk result d' =>
    cases result with
    | ok definition => exact run_bind_of_ok (by rw [declareEntity_run, h])
    | error e => exact run_bind_of_error (by rw [declareEntity_run, h])

/-- **A call that mistypes no name leaves no trace if it is refused.** -/
theorem make_eq_outcome (hc : ∀ use, ¬ c.Mistypes d use) : c.make d = outcome d (c.attempt d) := by
  cases c with
  | direction v => exact declareDirection_run v
  | directionSynonym v => exact declareDirectionSynonym_run v
  | verbSynonym => exact declareVerbSynonym_run
  | mention m =>
    cases m with
    | entityClass => exact declareClass_run
    | use => exact useEntity_run
    | entity name type className plural line =>
      rw [make_entity, attempt, Mention.apply]
      cases h : d.declareEntity name type className plural line with
      | mk result d' =>
        cases result with
        | ok definition => rfl
        | error e =>
          obtain rfl := Draft.eq_of_declareEntity_error (fun use hmis => hc use (.intro hmis)) h
          rfl

/-- **A call that mistypes a name is refused, and the name is forgotten.** -/
theorem make_mistyped (hc : c.Mistypes d use) : ∃ e, c.make d = .error e (d.forget use.name) := by
  obtain ⟨hmis⟩ := hc
  rw [(Draft.eq_of_awaited? hmis.awaited).2, make_entity, Draft.declareEntity_of_mistypes hmis]
  exact ⟨_, rfl⟩

/-! ### Many calls -/

theorem placed_attempt (hd : d.Placed) (h : c.attempt d = .ok d') : d'.Placed := by
  cases c with
  | direction => exact Draft.declareDirection_ok h ▸ hd.withDeclarations _
  | directionSynonym => exact Draft.declareDirectionSynonym_ok h ▸ hd.withDeclarations _
  | verbSynonym => exact Draft.declareVerbSynonym_ok h ▸ hd.withDeclarations _
  | mention m =>
    cases m with
    | entityClass => exact (Draft.declareClass_ok h).1 ▸ hd.withDeclarations _
    | use => exact hd.usesEntity (Draft.usesEntity_of_ok h)
    | entity name type className plural line =>
      rw [attempt, Mention.apply] at h
      cases hdeclare : d.declareEntity name type className plural line with
      | mk result next =>
        rw [hdeclare] at h
        cases result with
        | error e => exact absurd h nofun
        | ok definition =>
          obtain rfl := Except.ok.inj h
          exact (hd.declareEntity hdeclare).1

/-- **Every call keeps every placeholder in its place**, also one that is refused. -/
theorem placed_next (hd : d.Placed) (c : Call) : (next d c).Placed := by
  unfold next
  by_cases hc : ∃ use, c.Mistypes d use
  · obtain ⟨use, hmis⟩ := hc
    obtain ⟨e, hmake⟩ := make_mistyped hmis
    rw [hmake]
    exact hd.forget _
  · rw [make_eq_outcome (not_exists.mp hc)]
    cases h : c.attempt d with
    | ok d' => exact placed_attempt hd h
    | error e => exact hd

theorem placed_reached (calls : List Call) : (reached calls).Placed := by
  induction calls using List.reverseRecOn with
  | nil => exact .empty
  | append_singleton calls c ih =>
    rw [reached, List.foldl_append]
    exact placed_next ih c

/-- **A refused call leaves no trace, unless it declares an entity that is awaited as another
type.**  It never touches what is declared and what is written; but such a declaration, and
no other call, changes what is missed at the end. -/
theorem refused_traceless_iff (h : c.make (reached calls) = .error e d') :
    d'.declarations = (reached calls).declarations ∧ d'.program = (reached calls).program ∧
      (d' = reached calls ↔ ∀ use, ¬ c.Mistypes (reached calls) use) ∧
      (d'.finish = (reached calls).finish ↔ ∀ use, ¬ c.Mistypes (reached calls) use) ∧
      ∀ use, c.Mistypes (reached calls) use → d'.Forgotten use := by
  have hforget {use : Awaited} (hmis : c.Mistypes (reached calls) use) :
      d' = (reached calls).forget use.name := by
    obtain ⟨e', hmake⟩ := make_mistyped hmis
    exact (EStateM.Result.error.inj (h.symm.trans hmake)).2
  by_cases hc : ∃ use, c.Mistypes (reached calls) use
  · obtain ⟨use, hmis⟩ := hc
    have hnot : ¬ ∀ use, ¬ c.Mistypes (reached calls) use := fun hnone => hnone use hmis
    have hfinish : d'.finish ≠ (reached calls).finish :=
      hforget hmis ▸ Draft.finish_forget_ne hmis.mem
    refine ⟨?_, ?_, iff_of_false (fun heq => hfinish (heq ▸ rfl)) hnot,
      iff_of_false hfinish hnot, fun use hmis => hforget hmis ▸ ?_⟩
    · rw [hforget hmis, Draft.forget]
    · rw [hforget hmis, Draft.forget]
    · obtain ⟨hmis⟩ := hmis
      exact hmis.forgotten (placed_reached calls)
  · have hnone := not_exists.mp hc
    rw [make_eq_outcome hnone] at h
    obtain rfl := (outcome_error_iff.mp h).2
    exact ⟨rfl, rfl, iff_of_true rfl hnone, iff_of_true rfl hnone,
      fun use hmis => absurd hmis (hnone use)⟩

/-- A second use as another type is refused without a trace: the first one is missed as before. -/
theorem misused_room_kept :
    ∃ e d', (mention (.use "x" .object 2)).make (reached [mention (.use "x" .room 1)]) =
        .error e d' ∧
      d' = reached [mention (.use "x" .room 1)] ∧
      d'.finish = (reached [mention (.use "x" .room 1)]).finish := by
  obtain ⟨e, d', h⟩ : ∃ e d', (mention (.use "x" .object 2)).make
      (reached [mention (.use "x" .room 1)]) = .error e d' := ⟨_, _, rfl⟩
  obtain ⟨-, -, hsame, hfinish, -⟩ := refused_traceless_iff h
  exact ⟨e, d', h, hsame.mpr nofun, hfinish.mpr nofun⟩

/-- A name is used for a room and then declared as an object.  That is refused, but now
nothing is missed any more, and the room that nobody declared is still defined. -/
theorem mistyped_room_forgotten :
    ∃ e d', (mention (.entity "x" .object "object" none 3)).make
        (reached [mention (.use "x" .room 1)]) = .error e d' ∧
      (reached [mention (.use "x" .room 1)]).finish =
        .error (.of (.unresolved [⟨"x", .room, [1]⟩])) ∧
      d'.finish = .ok () ∧ d'.operations = [.defineEntity "x" .room "room" none 1] :=
  ⟨_, _, rfl, rfl, rfl, rfl⟩

end Call

end Draft

end Adventure
