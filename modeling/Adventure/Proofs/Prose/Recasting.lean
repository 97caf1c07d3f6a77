/-
The case of letters does not matter to what is read from prose.

A story and its retelling in small letters are cast alike: the roles are the same but for
the names of their things as they were written, and of these only the titles of entities are
made.  So the two drafts are written step by step with the same operations, the titles and
the author aside, and where one step fails the other does, on the same line.  Two sources
that differ in case have one lowered form, and each is read like that.
-/
import Adventure.Proofs.Prose.Retelling
import Adventure.Proofs.Prose.Writing

namespace Adventure

/-- An operation with its text in small letters, if that text is the title of an entity or
the author of the game. -/
def Operation.lowered : Operation → Operation
  | ⟨.setProperty, ["entity", name, "title", text], line⟩ =>
    ⟨.setProperty, ["entity", name, "title", text.toLower], line⟩
  | ⟨.setMeta, ["game", "author", text], line⟩ => ⟨.setMeta, ["game", "author", text.toLower], line⟩
  | op => op

/-! ### Alike computations -/

/-- Two computations that both succeed, with results that go together, or both fail, with
errors that differ in their words at most. -/
inductive Alike {α : Type} (R : α → α → Prop) : Except Error α → Except Error α → Prop
  | ok {a a' : α} (h : R a a') : Alike R (.ok a) (.ok a')
  | error {e e' : Error} (h : e'.unworded = e.unworded) : Alike R (.error e) (.error e')

section Alike

variable {α β γ : Type} {R : α → α → Prop} {S : β → β → Prop} {x x' : Except Error α}

theorem Alike.bind {f f' : α → Except Error β} (hx : Alike R x x')
    (hf : ∀ a a', R a a' → Alike S (f a) (f' a')) : Alike S (x >>= f) (x' >>= f') := by
  cases hx with
  | ok h => exact hf _ _ h
  | error h => exact .error h

theorem alike_foldlM {w : γ → γ} {f f' : α → γ → Except Error α}
    (hf : ∀ c a a', R a a' → Alike R (f a c) (f' a' (w c))) {a a' : α} (h : R a a')
    (cs : List γ) : Alike R (cs.foldlM f a) ((cs.map w).foldlM f' a') := by
  induction cs generalizing a a' with
  | nil => exact .ok h
  | cons c rest ih =>
    rw [List.map_cons, List.foldlM_cons, List.foldlM_cons]
    exact (hf c a a' h).bind fun _ _ h => ih h

end Alike

namespace Draft

/-- A draft and another that says the same with its titles in small letters. -/
structure Recast (d d' : Draft) : Prop where
  operations : ∃ ops, d.Says ops ∧ d'.Says (ops.map Operation.lowered)
  declarations : d'.declarations = d.declarations

variable {d d' : Draft}

theorem recast_empty : empty.Recast empty :=
  ⟨⟨[], says_empty, says_empty⟩, rfl⟩

theorem Recast.foldl_write (h : d.Recast d') (ops : List Operation) :
    (ops.foldl Draft.write d).Recast ((ops.map Operation.lowered).foldl Draft.write d') := by
  obtain ⟨before, hd, hd'⟩ := h.operations
  refine ⟨⟨before ++ ops, hd.foldl_write ops, ?_⟩, ?_⟩
  · rw [List.map_append]
    exact hd'.foldl_write _
  · rw [declarations_foldl_write, declarations_foldl_write, h.declarations]

theorem Recast.map_lowered_operations (h : d.Recast d') :
    d'.operations = d.operations.map Operation.lowered := by
  obtain ⟨ops, hd, hd'⟩ := h.operations
  rw [hd.operations, hd'.operations]

theorem Recast.awaited (h : d.Recast d') : d.awaited = [] ∧ d'.awaited = [] := by
  obtain ⟨_, hd, hd'⟩ := h.operations
  exact ⟨hd.awaited, hd'.awaited⟩

theorem Recast.withDeclarations (h : d.Recast d') (declarations : Declarations) :
    Recast { d with declarations } { d' with declarations } := by
  obtain ⟨ops, hd, hd'⟩ := h.operations
  exact ⟨⟨ops, ⟨hd.wf, hd.awaited, hd.operations⟩, ⟨hd'.wf, hd'.awaited, hd'.operations⟩⟩, rfl⟩

theorem Recast.declareClass (h : d.Recast d') (name : String) (type : EntityType) (line : Nat) :
    Alike Recast (d.declareClass name type line) (d'.declareClass name type line) := by
  unfold Draft.declareClass
  rw [h.declarations]
  cases d.declarations.declareClass name type line with
  | error refusal => exact .error rfl
  | ok declarations => exact .ok (h.withDeclarations declarations)

/-- An entity is declared in both drafts, or refused in both. -/
theorem Recast.declareEntity (h : d.Recast d') (name : String) (type : EntityType)
    (className : String) (line : Nat) :
    (∃ e d₁ d₁', d.declareEntity name type className none line = (.error e, d₁) ∧
      d'.declareEntity name type className none line = (.error e, d₁')) ∨
    ∃ i i' d₁ d₁', d.declareEntity name type className none line = (.ok i, d₁) ∧
      d'.declareEntity name type className none line = (.ok i', d₁') ∧ d₁.Recast d₁' := by
  have hcheck : d'.checkEntity name type className = d.checkEntity name type className := by
    unfold checkEntity
    rw [h.declarations]
  have hnone : d.awaited? name = none := by rw [awaited?, h.awaited.1]; rfl
  have hnone' : d'.awaited? name = none := by rw [awaited?, h.awaited.2]; rfl
  simp only [Draft.declareEntity, hcheck, hnone, hnone']
  cases d.checkEntity name type className with
  | error refusal => exact .inl ⟨_, d, d', rfl, rfl⟩
  | ok _ =>
    have hwritten := h.foldl_write [.defineEntity name type className none line]
    refine .inr ⟨_, _, _, _, rfl, rfl, ?_⟩
    rw [h.declarations]
    exact hwritten.withDeclarations _

end Draft

namespace Prose

open Draft (Recast)

variable {d d' : Draft} {role : Role}

/-! ### Roles -/

/-- A role with the name of its thing in small letters. -/
def Role.lowered (role : Role) : Role :=
  { role with record := role.record.lowered }

@[simp] theorem Role.record_lowered (role : Role) : role.lowered.record = role.record.lowered := rfl

@[simp] theorem Role.kind_lowered (role : Role) : role.lowered.kind = role.kind := rfl

@[simp] theorem Role.name_lowered (role : Role) : role.lowered.name = role.name := rfl

/-- The same things are cast for the same parts. -/
theorem castFrom_lowered (started : Bool) (rs : List Record) :
    castFrom started (rs.map Record.lowered) =
      (castFrom started rs).map (List.map Role.lowered) := by
  induction rs generalizing started with
  | nil => rfl
  | cons r rs ih =>
    have hkind : r.lowered.settledKind = r.settledKind := rfl
    rw [List.map_cons, castFrom, castFrom]
    simp only [hkind, Record.line_lowered, Record.key_lowered, ih]
    split
    · rfl
    · cases castFrom (started || !started && r.settledKind.isA .room) rs <;> rfl

/-- What defines a class is written alike. -/
theorem map_lowered_classOperations (role : Role) :
    role.classOperations.map Operation.lowered = role.classOperations := by
  rw [Role.classOperations, List.map_cons, List.map_map]
  rfl

theorem alike_writeClass (role : Role) (h : d.Recast d') :
    Alike Recast (Role.writeClass d role) (Role.writeClass d' role.lowered) := by
  unfold Role.writeClass
  simp only [Role.kind_lowered, Role.record_lowered, Record.line_lowered, h.declarations]
  split
  · exact .ok h
  · refine (h.declareClass _ _ _).bind fun d₁ d₁' h₁ => .ok ?_
    have hwritten := h₁.foldl_write role.classOperations
    rwa [map_lowered_classOperations, Role.classOperations, List.map_map] at hwritten

/-- Of what there is to say of an entity itself, only the title has its letters lowered. -/
theorem details_lowered (role : Role) :
    role.lowered.details = role.details.map Operation.lowered := by
  simp only [Role.details, Role.record_lowered, Record.description_lowered,
    Record.assertions_lowered, List.map_append, List.map_map]
  refine congrArg₂ (· ++ ·) (congrArg₂ (· ++ ·) rfl ?_) (List.map_congr_left fun a _ => ?_)
  · cases role.record.description <;> rfl
  · simp only [Function.comp_apply]
    split <;> rfl

theorem alike_writeEntity (role : Role) (h : d.Recast d') :
    Alike Recast (Role.writeEntity d role) (Role.writeEntity d' role.lowered) := by
  unfold Role.writeEntity
  rw [details_lowered, Role.kind_lowered, Role.name_lowered, Role.record_lowered,
    Record.line_lowered]
  obtain ⟨e, d₁, d₁', hd, hd'⟩ | ⟨i, i', d₁, d₁', hd, hd', h₁⟩ := h.declareEntity role.name
    role.kind.entityType role.kind.className role.record.line
  · rw [hd, hd']
    exact .error rfl
  · rw [hd, hd']
    exact .ok (h₁.foldl_write role.details)

theorem alike_checkPlacement (role target : Role) (p : Placement) :
    Alike (fun _ _ => True) (Role.checkPlacement role target p)
      (Role.checkPlacement role.lowered target.lowered p) := by
  rw [Role.checkPlacement, Role.checkPlacement, Role.kind_lowered, Role.kind_lowered]
  split
  · exact .error (Error.unworded_parse _ _ _)
  · split
    · exact .ok trivial
    · split
      · exact .error (Error.unworded_parse _ _ _)
      · exact .error (Error.unworded_parse _ _ _)

/-- The exits lead to rooms of the same names. -/
theorem recast_exits (roles : List Role) (name : String) (exits : List Exit) (h : d.Recast d') :
    (exits.foldl (fun d x =>
      match roles.find? (·.record.key == x.destination) with
      | none => d
      | some room => d.write (.connectRooms (.entity name) x.direction room.name x.line)) d).Recast
    (exits.foldl (fun d x =>
      match (roles.find? (·.record.key == x.destination)).map Role.lowered with
      | none => d
      | some room => d.write (.connectRooms (.entity name) x.direction room.name x.line)) d') := by
  induction exits generalizing d d' with
  | nil => exact h
  | cons x rest ih =>
    rw [List.foldl_cons, List.foldl_cons]
    cases roles.find? (·.record.key == x.destination) with
    | none => exact ih h
    | some room =>
      exact ih (h.foldl_write [.connectRooms (.entity name) x.direction room.name x.line])

theorem alike_writeLinks (roles : List Role) (role : Role) (h : d.Recast d') :
    Alike Recast (Role.writeLinks roles d role)
      (Role.writeLinks (roles.map Role.lowered) d' role.lowered) := by
  have hknown : ∀ key, (roles.map Role.lowered).find? (·.record.key == key) =
      (roles.find? (·.record.key == key)).map Role.lowered := by
    intro key
    have hkey : (fun other : Role => other.record.key == key) ∘ Role.lowered =
        fun other => other.record.key == key :=
      funext fun other => congrArg (· == key) (Record.key_lowered other.record)
    rw [List.find?_map, hkey]
  unfold Role.writeLinks
  simp only [hknown, Role.name_lowered, Role.record_lowered, Record.placement_lowered,
    Record.exits_lowered]
  cases role.record.placement with
  | none => exact .ok (recast_exits roles role.name role.record.exits h)
  | some p =>
    dsimp only
    cases roles.find? (·.record.key == p.target) with
    | none => exact .ok (recast_exits roles role.name role.record.exits h)
    | some target =>
      refine (alike_checkPlacement role target p).bind fun _ _ _ => .ok ?_
      refine recast_exits roles role.name role.record.exits ?_
      exact h.foldl_write [.insertIntoPlace role.name target.name p.line]

namespace Story

theorem credits_lowered (s : Story) : s.lowered.credits = s.credits.map Operation.lowered := by
  have htitle : s.lowered.title = s.title := rfl
  have hauthor : s.lowered.author = s.author.map String.toLower := rfl
  rw [credits, credits, htitle, hauthor, List.map_append]
  cases s.title <;> cases s.author <;> rfl

theorem alike_draft (s : Story) : Alike Recast s.draft s.lowered.draft := by
  have hcredits : (s.credits.foldl Draft.write .empty).Recast
      (s.lowered.credits.foldl Draft.write .empty) := by
    rw [credits_lowered]
    exact Draft.recast_empty.foldl_write s.credits
  have hcast : Alike (fun roles roles' => roles' = roles.map Role.lowered) s.cast
      s.lowered.cast := by
    rw [cast, cast, lowered, castFrom_lowered]
    cases castFrom false s.records with
    | ok roles => exact .ok rfl
    | error e => exact .error rfl
  refine hcast.bind fun roles _ hroles => ?_
  subst hroles
  refine (alike_foldlM (fun role _ _ h => alike_writeClass role h) hcredits roles).bind
    fun _ _ h => ?_
  refine (alike_foldlM (fun role _ _ h => alike_writeEntity role h) h roles).bind fun _ _ h => ?_
  refine (alike_foldlM (fun role _ _ h => alike_writeLinks roles role h) h roles).bind
    fun d d' h => ?_
  have hfinish : ∀ d : Draft, d.awaited = [] → d.finish = .ok () := by
    intro d hd
    rw [Draft.finish, hd]
    rfl
  rw [hfinish d h.awaited.1, hfinish d' h.awaited.2]
  exact .ok h

end Story

/-- **Reading a source in small letters** gives the same draft but for the titles, or fails
for the same reason. -/
theorem alike_readText (v : Vocabulary) (maxWords : Nat) (source : String) :
    Alike Recast (readText v maxWords source)
      (readText v maxWords (String.ofList (lowerProse .prose source.toList))) := by
  have hstory := Story.retold_ofSource v maxWords source
  unfold readText
  cases hread : Story.ofSource v maxWords source with
  | ok u s =>
    rw [hread] at hstory
    rw [hstory.of_ok]
    exact s.alike_draft
  | error e s =>
    rw [hread] at hstory
    obtain ⟨e', s', hread', he⟩ := hstory.of_error
    rw [hread']
    exact .error he

/-- **The case of letters outside quotes does not matter.**  Two sources that differ in
nothing else are both refused, with errors of one kind and on one line, or both give drafts
with the same declarations and the same operations, save for the text of titles and of the
author. -/
theorem readText_ignores_case (v : Vocabulary) (maxWords : Nat) {source source' : String}
    (h : lowerProse .prose source.toList = lowerProse .prose source'.toList) :
    (∃ e e', readText v maxWords source = .error e ∧ readText v maxWords source' = .error e' ∧
      e.unworded = e'.unworded) ∨
    ∃ d d', readText v maxWords source = .ok d ∧ readText v maxWords source' = .ok d' ∧
      d.program.operations.map Operation.lowered = d'.program.operations.map Operation.lowered ∧
      d.declarations = d'.declarations := by
  have hleft := alike_readText v maxWords source
  have hright := alike_readText v maxWords source'
  rw [h] at hleft
  -- both are compared with the lowered source
  generalize readText v maxWords (String.ofList (lowerProse .prose source'.toList)) = x
    at hleft hright
  generalize readText v maxWords source = left, readText v maxWords source' = right
    at hleft hright
  cases hleft with
  | error he =>
    cases hright with
    | error he' => exact .inl ⟨_, _, rfl, rfl, he.symm.trans he'⟩
  | @ok d pivot hd =>
    cases hright with
    | @ok d' _ hd' =>
      refine .inr ⟨d, d', rfl, rfl, ?_, hd.declarations.symm.trans hd'.declarations⟩
      exact hd.map_lowered_operations.symm.trans hd'.map_lowered_operations

set_option maxRecDepth 100000 in
/-- A room and another below it, in either case. -/
theorem hall_in_either_case :
    let source := "Hall is up from den. \"It is DARK.\""
    let source' := "HALL is Up FROM Den. \"It is DARK.\""
    lowerProse .prose source.toList = lowerProse .prose source'.toList ∧
    ∃ d d', readText .english 1 source = .ok d ∧ readText .english 1 source' = .ok d' ∧
      d.program.operations.map Operation.lowered = d'.program.operations.map Operation.lowered ∧
      d.declarations = d'.declarations := by
  have h : lowerProse .prose "Hall is up from den. \"It is DARK.\"".toList =
      lowerProse .prose "HALL is Up FROM Den. \"It is DARK.\"".toList := by
    decide
  have hread : (readText .english 1 "Hall is up from den. \"It is DARK.\"").isOk = true := by
    decide +kernel
  refine ⟨h, ?_⟩
  obtain ⟨e, -, herror, -⟩ | hboth := readText_ignores_case .english 1 h
  · rw [herror] at hread
    cases hread
  · exact hboth

end Prose

end Adventure
