/-
Names that are used before they are declared.

What a draft should hold can be read off the calls made on it, without looking at any
draft: a name is defined where it is first mentioned, with the class and the plural of its
declaration if there is one and with its bare type otherwise; and the names that are used
but not declared are missing, in the order of their first uses.  One call changes these
descriptions in one place, and the draft keeps up with them call by call.
-/
import Adventure.Proofs.Placeholders

namespace Adventure

/-- A call on a draft that mentions a name. -/
inductive Mention where
  | entityClass (name : String) (type : EntityType) (line : Nat)
  | entity (name : String) (type : EntityType) (className : String) (plural : Option String)
    (line : Nat)
  | use (name : String) (type : EntityType) (line : Nat)
  deriving DecidableEq, Repr

/-- What a declaration says of an entity. -/
structure Declaration where
  type : EntityType
  className : String
  plural : Option String
  deriving DecidableEq, Repr

namespace Mention

/-- Makes the call. -/
def apply (d : Draft) : Mention → Except Error Draft
  | entityClass name type line => d.declareClass name type line
  | entity name type className plural line =>
    let (declared, d') := d.declareEntity name type className plural line
    declared.map fun _ => d'
  | use name type line => d.referenceEntity name type line

/-- Makes one call after the other, from the empty draft on. -/
def applyAll (ms : List Mention) : Except Error Draft :=
  ms.foldlM apply Draft.empty

/-! ### What the calls say -/

/-- The name of an entity that is declared or used. -/
def entityName? : Mention → Option String
  | entityClass .. => none
  | entity name .. | use name .. => some name

/-- The name of an entity that is used. -/
def usedName? : Mention → Option String
  | use name .. => some name
  | _ => none

/-- The line on which the entity of a name is declared or used. -/
def lineFor? (name : String) : Mention → Option Nat
  | entityClass .. => none
  | entity other _ _ _ line | use other _ line => if other = name then some line else none

/-- What is declared about the entity of a name. -/
def declarationFor? (name : String) : Mention → Option Declaration
  | entity other type className plural _ =>
    if other = name then some ⟨type, className, plural⟩ else none
  | _ => none

/-- The type and the line of a use of a name. -/
def useFor? (name : String) : Mention → Option (EntityType × Nat)
  | use other type line => if other = name then some (type, line) else none
  | _ => none

/-- The names of the entities, in the order of their first mention. -/
def entityNames (ms : List Mention) : List String :=
  (ms.filterMap entityName?).eraseDups

/-- The declaration of a name as an entity. -/
def declaration? (ms : List Mention) (name : String) : Option Declaration :=
  ms.findSome? (declarationFor? name)

/-- The uses of a name, in order. -/
def uses (ms : List Mention) (name : String) : List (EntityType × Nat) :=
  ms.filterMap (useFor? name)

/-- The names that are used but not declared, in the order of their first use. -/
def undeclared (ms : List Mention) : List String :=
  (ms.filterMap usedName?).eraseDups.filter fun name => (declaration? ms name).isNone

/-- The definition that a name should have.  It stands on the line of the first mention. -/
def definition? (ms : List Mention) (name : String) : Option Operation :=
  (ms.findSome? (lineFor? name)).bind fun line =>
    match declaration? ms name with
    | some d => some (.defineEntity name d.type d.className d.plural line)
    | none => (uses ms name).head?.map fun use => .defineEntity name use.1 use.1.name none line

/-- How a name should be reported if it is not declared: with its type and all lines. -/
def unresolved? (ms : List Mention) (name : String) : Option UnresolvedName :=
  (uses ms name).head?.map fun use => ⟨name, use.1, (uses ms name).map Prod.snd⟩

/-! ### One more call -/

variable {ms : List Mention} {m : Mention} {name other className : String} {type : EntityType}
variable {plural : Option String} {line : Nat} {op : Operation}

theorem nodup_eraseDups (l : List String) : l.eraseDups.Nodup := by
  induction l using List.reverseRecOn with
  | nil => simp
  | append_singleton l a ih =>
    rw [eraseDups_concat]
    split
    · exact ih
    · rename_i h
      rw [List.nodup_append]
      refine ⟨ih, List.nodup_singleton _, ?_⟩
      intro b hb c hc heq
      rw [heq, List.mem_singleton.mp hc] at hb
      exact h (List.mem_eraseDups.mp hb)

theorem declaration?_concat (ms : List Mention) (m : Mention) (name : String) :
    declaration? (ms ++ [m]) name = (declaration? ms name).or (m.declarationFor? name) := by
  simp [declaration?]

theorem declaration?_concat_use (ms : List Mention) (other : String) :
    declaration? (ms ++ [.use name type line]) other = declaration? ms other := by
  simp [declaration?_concat, declarationFor?]

theorem usedNames_concat_use (ms : List Mention) :
    (ms ++ [Mention.use name type line]).filterMap usedName? = ms.filterMap usedName? ++ [name] := by
  simp [usedName?]

theorem uses_concat (ms : List Mention) (m : Mention) (name : String) :
    uses (ms ++ [m]) name = uses ms name ++ (m.useFor? name).toList := by
  cases h : m.useFor? name <;> simp [uses, h]

/-- A call that does not mention a name says nothing of it. -/
theorem says_nothing (h : m.entityName? ≠ some name) :
    m.lineFor? name = none ∧ m.declarationFor? name = none ∧ m.useFor? name = none := by
  cases m with
  | entityClass => exact ⟨rfl, rfl, rfl⟩
  | entity other | use other =>
    have hne : other ≠ name := fun heq => h (congrArg some heq)
    simp [lineFor?, declarationFor?, useFor?, hne]

theorem definition?_concat_of_ne (h : m.entityName? ≠ some name) :
    definition? (ms ++ [m]) name = definition? ms name := by
  obtain ⟨hline, hdeclaration, huse⟩ := says_nothing h
  simp [definition?, declaration?_concat, uses_concat, hline, hdeclaration, huse]

theorem unresolved?_concat_of_none (h : m.useFor? name = none) :
    unresolved? (ms ++ [m]) name = unresolved? ms name := by
  simp [unresolved?, uses_concat, h]

/-- One more use of a name that was used before adds its line. -/
theorem unresolved?_concat_use {u : UnresolvedName} (h : unresolved? ms name = some u) :
    unresolved? (ms ++ [.use name type line]) name = some { u with lines := u.lines ++ [line] } := by
  obtain ⟨use, huse, rfl⟩ := Option.map_eq_some_iff.mp h
  simp [unresolved?, uses_concat, useFor?, List.head?_append, huse]

/-- A use does not change a definition that is there. -/
theorem definition?_concat_use (h : definition? ms name = some op) :
    definition? (ms ++ [.use other type line]) name = some op := by
  unfold definition? at h ⊢
  obtain ⟨first, hfirst, hop⟩ := Option.bind_eq_some_iff.mp h
  rw [List.findSome?_append, hfirst, declaration?_concat]
  cases hdeclaration : declaration? ms name with
  | some declared =>
    rw [hdeclaration] at hop
    exact hop
  | none =>
    rw [hdeclaration] at hop
    obtain ⟨use, huse, rfl⟩ := Option.map_eq_some_iff.mp hop
    simp [declarationFor?, uses_concat, List.head?_append, huse]

theorem mem_entityNames_iff :
    name ∈ entityNames ms ↔
      (declaration? ms name).isSome ∨ name ∈ (ms.filterMap usedName?).eraseDups := by
  rw [entityNames, List.mem_eraseDups, List.mem_eraseDups, List.mem_filterMap, List.mem_filterMap,
    declaration?, List.findSome?_isSome_iff]
  constructor
  · rintro ⟨m, hm, hname⟩
    cases m with
    | entityClass => exact absurd hname nofun
    | entity other =>
      obtain rfl := Option.some.inj hname
      exact Or.inl ⟨_, hm, by simp [declarationFor?]⟩
    | use other => exact Or.inr ⟨_, hm, hname⟩
  · rintro (⟨m, hm, hsome⟩ | ⟨m, hm, hname⟩)
    · cases m with
      | entity other =>
        refine ⟨_, hm, ?_⟩
        by_cases heq : other = name
        · exact congrArg some heq
        · simp [declarationFor?, heq] at hsome
      | entityClass | use => exact absurd hsome nofun
    · cases m with
      | use => exact ⟨_, hm, hname⟩
      | entityClass | entity => exact absurd hname nofun

theorem line_eq_none (h : name ∉ entityNames ms) : ms.findSome? (lineFor? name) = none := by
  rw [List.findSome?_eq_none_iff]
  intro m hm
  refine (says_nothing ?_).1
  intro hname
  exact h (List.mem_eraseDups.mpr (List.mem_filterMap.mpr ⟨m, hm, hname⟩))

/-- A declaration defines a name that was not mentioned before. -/
theorem definition?_concat_entity_new (h : name ∉ entityNames ms)
    (hundeclared : declaration? ms name = none) :
    definition? (ms ++ [.entity name type className plural line]) name =
      some (.defineEntity name type className plural line) := by
  simp [definition?, declaration?_concat, hundeclared, declarationFor?, lineFor?, line_eq_none h]

/-- A declaration takes over the line of an earlier mention. -/
theorem definition?_concat_entity (h : definition? ms name = some op)
    (hundeclared : declaration? ms name = none) :
    definition? (ms ++ [.entity name type className plural line]) name =
      some (.defineEntity name type className plural op.line) := by
  unfold definition? at h ⊢
  obtain ⟨first, hfirst, hop⟩ := Option.bind_eq_some_iff.mp h
  rw [hundeclared] at hop
  obtain ⟨use, -, rfl⟩ := Option.map_eq_some_iff.mp hop
  simp [declaration?_concat, hundeclared, declarationFor?, hfirst, Operation.defineEntity]

/-- A use defines a name that was not mentioned before, with its bare type for a class. -/
theorem definition?_concat_use_new (h : name ∉ entityNames ms)
    (hundeclared : declaration? ms name = none) (hunused : uses ms name = []) :
    definition? (ms ++ [.use name type line]) name =
      some (.defineEntity name type type.name none line) := by
  simp [definition?, declaration?_concat_use, hundeclared, uses_concat, hunused, useFor?, lineFor?,
    line_eq_none h]

theorem mem_used_iff : name ∈ (ms.filterMap usedName?).eraseDups ↔ uses ms name ≠ [] := by
  rw [List.mem_eraseDups, List.mem_filterMap, uses, ne_eq, List.filterMap_eq_nil_iff]
  constructor
  · rintro ⟨m, hm, hname⟩ hnone
    cases m with
    | use other =>
      obtain rfl := Option.some.inj hname
      simpa [useFor?] using hnone _ hm
    | entityClass | entity => exact absurd hname nofun
  · intro hsome
    obtain ⟨m, hm, huse⟩ : ∃ m ∈ ms, m.useFor? name ≠ none := by simpa using hsome
    cases m with
    | use other =>
      refine ⟨_, hm, ?_⟩
      by_cases heq : other = name
      · exact congrArg some heq
      · simp [useFor?, heq] at huse
    | entityClass | entity => exact absurd rfl huse

theorem mem_undeclared_iff :
    name ∈ undeclared ms ↔ uses ms name ≠ [] ∧ declaration? ms name = none := by
  rw [undeclared, List.mem_filter, mem_used_iff, Option.isNone_iff_eq_none]

/-- Whatever is mentioned is declared or missing. -/
theorem mem_entityNames_iff_undeclared :
    name ∈ entityNames ms ↔ (declaration? ms name).isSome ∨ name ∈ undeclared ms := by
  rw [mem_entityNames_iff, mem_undeclared_iff, mem_used_iff]
  cases declaration? ms name <;> simp

theorem entityNames_concat_of_mem (h : ∀ name, m.entityName? = some name → name ∈ entityNames ms) :
    entityNames (ms ++ [m]) = entityNames ms := by
  unfold entityNames at h ⊢
  cases hname : m.entityName? with
  | none => simp [hname]
  | some name =>
    have hmem := List.mem_eraseDups.mp (h name hname)
    rw [List.filterMap_append, List.filterMap_cons_some hname, List.filterMap_nil,
      eraseDups_concat, if_pos hmem]

theorem entityNames_concat_of_not_mem (hname : m.entityName? = some name)
    (h : name ∉ entityNames ms) : entityNames (ms ++ [m]) = entityNames ms ++ [name] := by
  unfold entityNames at h ⊢
  rw [List.filterMap_append, List.filterMap_cons_some hname, List.filterMap_nil,
    eraseDups_concat, if_neg fun hmem => h (List.mem_eraseDups.mpr hmem)]

theorem undeclared_concat_of_not_use (huse : m.usedName? = none) :
    undeclared (ms ++ [m]) = (undeclared ms).filter fun name => (m.declarationFor? name).isNone := by
  unfold undeclared
  rw [List.filterMap_append, List.filterMap_cons_none huse, List.filterMap_nil, List.append_nil,
    List.filter_filter]
  refine List.filter_congr ?_
  intro name _
  rw [declaration?_concat]
  cases declaration? ms name <;> simp

theorem undeclared_concat_use_of_mem (h : name ∈ entityNames ms) :
    undeclared (ms ++ [.use name type line]) = undeclared ms := by
  unfold undeclared
  simp only [declaration?_concat_use, usedNames_concat_use, eraseDups_concat]
  split
  · rfl
  · rename_i hnew
    -- a name that is mentioned but not used is declared
    have hdeclared := (mem_entityNames_iff.mp h).resolve_right fun hmem =>
      hnew (List.mem_eraseDups.mp hmem)
    obtain ⟨declared, hsome⟩ := Option.isSome_iff_exists.mp hdeclared
    rw [List.filter_append, List.filter_singleton]
    simp [hsome]

theorem undeclared_concat_use_of_not_mem (h : name ∉ entityNames ms) :
    undeclared (ms ++ [.use name type line]) = undeclared ms ++ [name] := by
  rw [mem_entityNames_iff, not_or, Option.not_isSome_iff_eq_none] at h
  unfold undeclared
  simp only [declaration?_concat_use, usedNames_concat_use, eraseDups_concat]
  rw [if_neg fun hmem => h.2 (List.mem_eraseDups.mpr hmem), List.filter_append,
    List.filter_singleton]
  simp [h.1]

end Mention

/-! ### Drafts that keep up with the calls -/

open Mention

/-- A draft holds what the calls made on it say. -/
structure Agrees (ms : List Mention) (d : Draft) : Prop where
  placed : d.Placed
  /-- Every entity is defined once, in the order of their first mention. -/
  names : d.operations.map (·.argument 0) = entityNames ms
  definitions : ∀ op ∈ d.operations, definition? ms (op.argument 0) = some op
  declared : ∀ name, d.declarations.entity? name = none ↔ declaration? ms name = none
  /-- The names that are awaited are those that are missing. -/
  awaited : d.awaited.map Awaited.name = undeclared ms
  reports : ∀ use ∈ d.awaited, unresolved? ms use.name = some ⟨use.name, use.type, use.lines⟩

namespace Agrees

variable {ms : List Mention} {d d' : Draft} {name className : String} {type : EntityType}
variable {plural : Option String} {line : Nat}

theorem empty : Agrees [] Draft.empty := by
  refine ⟨.empty, rfl, ?_, ?_, rfl, nofun⟩
  · intro op hop
    exact absurd hop nofun
  · intro name
    simp [Draft.empty, Declarations.empty, Declarations.entity?, declaration?]

theorem mem_names_iff (h : Agrees ms d) :
    name ∈ entityNames ms ↔ ∃ op ∈ d.operations, op.argument 0 = name := by
  rw [← h.names, List.mem_map]

theorem mem_undeclared_iff (h : Agrees ms d) :
    name ∈ undeclared ms ↔ ∃ use ∈ d.awaited, use.name = name := by
  rw [← h.awaited, List.mem_map]

/-- A name that is neither declared nor awaited was not mentioned. -/
theorem not_mem_names (h : Agrees ms d) (hentity : d.declarations.entity? name = none)
    (hnone : ∀ use ∈ d.awaited, use.name ≠ name) : name ∉ entityNames ms := by
  rw [mem_entityNames_iff_undeclared, h.mem_undeclared_iff, (h.declared name).mp hentity]
  rintro (hsome | ⟨use, huse, hname⟩)
  · exact absurd hsome nofun
  · exact hnone use huse hname

theorem entityClass (h : Agrees ms d) (hd : d.declareClass name type line = .ok d') :
    Agrees (ms ++ [.entityClass name type line]) d' := by
  obtain ⟨rfl, -, -, -⟩ := Draft.declareClass_ok hd
  have hunnamed : ∀ other, (Mention.entityClass name type line).entityName? ≠ some other :=
    fun _ => nofun
  have hdeclaration : ∀ other,
      declaration? (ms ++ [.entityClass name type line]) other = declaration? ms other := by
    intro other
    simp [declaration?_concat, declarationFor?]
  refine ⟨h.placed.withDeclarations _, ?_, ?_, ?_, ?_, ?_⟩
  · rw [entityNames_concat_of_mem fun other hname => absurd hname (hunnamed other)]
    exact h.names
  · intro op hop
    rw [definition?_concat_of_ne (hunnamed _)]
    exact h.definitions op hop
  · intro other
    rw [hdeclaration]
    exact h.declared other
  · rw [undeclared_concat_of_not_use rfl]
    simpa [declarationFor?] using h.awaited
  · intro use huse
    rw [unresolved?_concat_of_none rfl]
    exact h.reports use huse

/-- Nothing but its definition is under a name. -/
theorem argument_ne (h : Agrees ms d) {before after : List Operation} {op : Operation}
    (hops : d.operations = before ++ op :: after) :
    ∀ other, other ∈ before ∨ other ∈ after → other.argument 0 ≠ op.argument 0 := by
  have hnodup : (d.operations.map (·.argument 0)).Nodup := h.names ▸ nodup_eraseDups _
  rw [hops, List.map_append, List.map_cons, List.nodup_middle, List.nodup_cons,
    List.mem_append, not_or] at hnodup
  rintro other (hother | hother) heq
  · exact hnodup.1.1 (heq ▸ List.mem_map_of_mem hother)
  · exact hnodup.1.2 (heq ▸ List.mem_map_of_mem hother)

/-- What becomes of the definitions when an entity is declared. -/
theorem definitions_entity {ops : List Operation} (h : Agrees ms d)
    (hentity : d.declarations.entity? name = none)
    (hops : d.Settled name type className plural line ops) :
    ∀ op ∈ ops, definition? (ms ++ [.entity name type className plural line]) (op.argument 0) =
      some op := by
  have hundeclared := (h.declared name).mp hentity
  -- a definition under another name is not touched
  have hrest : ∀ op ∈ d.operations, op.argument 0 ≠ name →
      definition? (ms ++ [.entity name type className plural line]) (op.argument 0) = some op := by
    intro op hop hne
    have hother : (Mention.entity name type className plural line).entityName? ≠
        some (op.argument 0) := fun heq => hne (Option.some.inj heq).symm
    rw [definition?_concat_of_ne hother]
    exact h.definitions op hop
  cases hops with
  | new hnone =>
    have hnew := h.not_mem_names hentity hnone
    intro op hop
    obtain hop | hop := List.mem_append.mp hop
    · exact hrest op hop fun heq => hnew (h.mem_names_iff.mpr ⟨op, hop, heq⟩)
    · obtain rfl := List.mem_singleton.mp hop
      exact definition?_concat_entity_new hnew hundeclared
  | @filled use before after first huse hname _ hold =>
    have hne := h.argument_ne hold
    intro op hop
    obtain hop | hop := List.mem_append.mp hop
    · exact hrest op (hold ▸ List.mem_append_left _ hop) (hne op (Or.inl hop))
    obtain rfl | hop := List.mem_cons.mp hop
    · have hplaceholder := h.definitions (.defineEntity name type type.name none first)
        (hold ▸ List.mem_append_right _ (List.mem_cons_self ..))
      exact definition?_concat_entity hplaceholder hundeclared
    · exact hrest op (hold ▸ List.mem_append_right _ (List.mem_cons_of_mem _ hop))
        (hne op (Or.inr hop))

/-- What becomes of the names when an entity is declared. -/
theorem names_entity {ops : List Operation} (h : Agrees ms d)
    (hentity : d.declarations.entity? name = none)
    (hops : d.Settled name type className plural line ops) :
    ops.map (·.argument 0) = entityNames (ms ++ [.entity name type className plural line]) := by
  cases hops with
  | new hnone =>
    rw [entityNames_concat_of_not_mem rfl (h.not_mem_names hentity hnone), ← h.names,
      List.map_append]
    rfl
  | filled huse hname _ hold =>
    have hmem : name ∈ entityNames ms := by
      rw [mem_entityNames_iff_undeclared, h.mem_undeclared_iff]
      exact Or.inr ⟨_, huse, hname⟩
    rw [entityNames_concat_of_mem fun other hsome => Option.some.inj hsome ▸ hmem, ← h.names,
      hold, List.map_append, List.map_append]
    rfl

theorem entity (h : Agrees ms d) (hplaced : d'.Placed)
    (hd : d.DeclaresEntity name type className plural line d') :
    Agrees (ms ++ [.entity name type className plural line]) d' := by
  refine ⟨hplaced, h.names_entity hd.entity hd.operations,
    h.definitions_entity hd.entity hd.operations, ?_, ?_, ?_⟩
  · intro other
    rw [hd.declarations, Declarations.entity?_addEntity, declaration?_concat]
    by_cases hother : name = other
    · simp [hother, declarationFor?]
    · simp [hother, declarationFor?, h.declared other]
  · rw [hd.awaited, undeclared_concat_of_not_use rfl, ← h.awaited, List.filter_map]
    congr 1
    refine List.filter_congr ?_
    intro use _
    by_cases hname : use.name = name
    · simp [hname, declarationFor?]
    · simp [hname, declarationFor?, Ne.symm hname]
  · intro use huse
    rw [hd.awaited] at huse
    rw [unresolved?_concat_of_none rfl]
    exact h.reports use (List.mem_of_mem_filter huse)

/-- Using what was mentioned before changes no more than the lines of its uses. -/
theorem use_of_mem (h : Agrees ms d) (hmem : name ∈ entityNames ms) {awaited : List Awaited}
    (hplaced : ({ d with awaited } : Draft).Placed)
    (hnames : awaited.map Awaited.name = d.awaited.map Awaited.name)
    (hreports : ∀ use ∈ awaited, unresolved? (ms ++ [.use name type line]) use.name =
      some ⟨use.name, use.type, use.lines⟩) :
    Agrees (ms ++ [.use name type line]) { d with awaited } := by
  refine ⟨hplaced, ?_, ?_, ?_, ?_, hreports⟩
  · rw [entityNames_concat_of_mem fun other hsome => Option.some.inj hsome ▸ hmem]
    exact h.names
  · intro op hop
    exact definition?_concat_use (h.definitions op hop)
  · intro other
    rw [declaration?_concat_use]
    exact h.declared other
  · rw [undeclared_concat_use_of_mem hmem, ← h.awaited]
    exact hnames

theorem use (h : Agrees ms d) (hd : d.UsesEntity name type line d') :
    Agrees (ms ++ [.use name type line]) d' := by
  have hplaced := h.placed.usesEntity hd
  have hother : ∀ other, other ≠ name →
      unresolved? (ms ++ [.use name type line]) other = unresolved? ms other := by
    intro other hne
    exact unresolved?_concat_of_none (if_neg (Ne.symm hne))
  cases hd with
  | @declared e hentity htype =>
    have hdeclared : declaration? ms name ≠ none := by
      rw [ne_eq, ← h.declared, hentity]
      exact nofun
    refine h.use_of_mem (mem_entityNames_iff_undeclared.mpr ?_) hplaced rfl ?_
    · exact Or.inl (Option.isSome_iff_ne_none.mpr hdeclared)
    · intro use huse
      -- what is awaited is not declared
      have hawaited := (Mention.mem_undeclared_iff.mp (h.mem_undeclared_iff.mpr ⟨use, huse, rfl⟩)).2
      rw [hother use.name fun heq => hdeclared (heq ▸ hawaited)]
      exact h.reports use huse
  | @again use hentity huse hname htype =>
    refine h.use_of_mem (mem_entityNames_iff_undeclared.mpr ?_) hplaced ?_ ?_
    · exact Or.inr (h.mem_undeclared_iff.mpr ⟨use, huse, hname⟩)
    · rw [List.map_map]
      exact List.map_congr_left fun old _ => Draft.usedOn_name old
    · intro new hnew
      obtain ⟨old, hold, rfl⟩ := List.mem_map.mp hnew
      have hreport := h.reports old hold
      rw [Draft.usedOn_name, Draft.usedOn_type]
      unfold Draft.usedOn
      by_cases hsame : old.name = name
      · rw [if_pos hsame]
        subst hsame
        exact unresolved?_concat_use hreport
      · rw [if_neg hsame, hother _ hsame]
        exact hreport
  | first hentity hclass hnone =>
    have hnew := h.not_mem_names hentity hnone
    have hundeclared := (h.declared name).mp hentity
    have hunused : uses ms name = [] := by
      by_contra hused
      exact hnew (mem_entityNames_iff.mpr (Or.inr (mem_used_iff.mpr hused)))
    have hops : (d.write (.defineEntity name type type.name none line)).operations =
        d.operations ++ [.defineEntity name type type.name none line] :=
      h.placed.operations_write _
    refine ⟨hplaced, ?_, ?_, ?_, ?_, ?_⟩
    · show (d.write (.defineEntity name type type.name none line)).operations.map _ = _
      rw [hops, entityNames_concat_of_not_mem rfl hnew, ← h.names, List.map_append]
      rfl
    · show ∀ op ∈ (d.write (.defineEntity name type type.name none line)).operations, _
      rw [hops]
      intro op hop
      obtain hop | hop := List.mem_append.mp hop
      · exact definition?_concat_use (h.definitions op hop)
      · obtain rfl := List.mem_singleton.mp hop
        exact definition?_concat_use_new hnew hundeclared hunused
    · intro other
      rw [declaration?_concat_use]
      exact h.declared other
    · rw [undeclared_concat_use_of_not_mem hnew, ← h.awaited, List.map_append]
      rfl
    · intro use huse
      obtain huse | huse := List.mem_append.mp huse
      · rw [hother use.name (hnone use huse)]
        exact h.reports use huse
      · obtain rfl := List.mem_singleton.mp huse
        simp [unresolved?, uses_concat, hunused, useFor?]

/-- **The draft keeps up with every call.** -/
theorem apply {m : Mention} (h : Agrees ms d) (hd : m.apply d = .ok d') :
    Agrees (ms ++ [m]) d' := by
  cases m with
  | entityClass name type line => exact h.entityClass hd
  | use name type line => exact h.use (Draft.usesEntity_of_ok hd)
  | entity name type className plural line =>
    unfold Mention.apply at hd
    dsimp only at hd
    cases hdeclare : d.declareEntity name type className plural line with
    | mk declared next =>
      rw [hdeclare] at hd
      cases declared with
      | error e => exact absurd hd nofun
      | ok index =>
        obtain rfl := Except.ok.inj hd
        obtain ⟨hplaced, hdeclares⟩ := h.placed.declareEntity hdeclare
        exact h.entity hplaced hdeclares

/-- **After any calls the draft holds what they say.** -/
theorem applyAll (h : Mention.applyAll ms = .ok d) : Agrees ms d := by
  induction ms using List.reverseRecOn generalizing d with
  | nil =>
    obtain rfl := Except.ok.inj h
    exact .empty
  | append_singleton ms m ih =>
    unfold Mention.applyAll at h
    rw [List.foldlM_append] at h
    obtain ⟨before, hbefore, hlast⟩ := bind_ok_iff.mp h
    obtain ⟨after, hafter, hd⟩ := bind_ok_iff.mp hlast
    obtain rfl := Except.ok.inj hd
    exact (ih hbefore).apply hafter

/-- Nothing is missing exactly if whatever is used is declared. -/
theorem finish_ok_iff (h : Agrees ms d) :
    d.finish = .ok () ↔ ∀ name, uses ms name ≠ [] → (declaration? ms name).isSome := by
  have hfinish : d.finish = .ok () ↔ undeclared ms = [] := by
    unfold Draft.finish
    rw [← h.awaited, List.map_eq_nil_iff, ← List.isEmpty_iff]
    cases d.awaited.isEmpty <;> simp
  rw [hfinish, List.eq_nil_iff_forall_not_mem]
  refine forall_congr' fun name => ?_
  rw [Mention.mem_undeclared_iff, not_and, Option.isSome_iff_ne_none]

theorem finish_error (h : Agrees ms d) (hfinish : d.finish ≠ .ok ()) :
    ∃ report, d.finish = .error (.of (.unresolved report)) ∧
      report.map UnresolvedName.name = undeclared ms ∧
        ∀ u ∈ report, unresolved? ms u.name = some u := by
  unfold Draft.finish at hfinish ⊢
  split at hfinish
  · exact absurd rfl hfinish
  · rename_i hsome
    refine ⟨_, if_neg hsome, ?_, ?_⟩
    · rw [List.map_map]
      exact h.awaited
    · intro u hu
      obtain ⟨use, huse, rfl⟩ := List.mem_map.mp hu
      exact h.reports use huse

end Agrees

/-! ### Forward references -/

namespace Mention

variable {ms : List Mention} {d : Draft}

/-- **Forward references resolve exactly.**  Every entity that is declared or used is
defined once, with the class and the plural of its declaration if there is one.  The draft
is finished just when all names used are declared; otherwise those that are not are
reported, in the order of their first use, each with its type and the lines of its uses. -/
theorem references_resolve (h : applyAll ms = .ok d) :
    d.operations.map (·.argument 0) = entityNames ms ∧
      (∀ op ∈ d.operations, definition? ms (op.argument 0) = some op) ∧
      (d.finish = .ok () ↔ ∀ name, uses ms name ≠ [] → (declaration? ms name).isSome) ∧
      (d.finish ≠ .ok () → ∃ report, d.finish = .error (.of (.unresolved report)) ∧
        report.map UnresolvedName.name = undeclared ms ∧
          ∀ u ∈ report, unresolved? ms u.name = some u) := by
  have hagrees := Agrees.applyAll h
  exact ⟨hagrees.names, hagrees.definitions, hagrees.finish_ok_iff, hagrees.finish_error⟩

/-- A cave that is used before it is declared with its class, and a lamp that never is. -/
def caveWithLamp : List Mention :=
  [.use "lamp" .object 1, .use "cave" .room 2, .entityClass "grotto" .room 3, .use "cave" .room 5,
    .entity "cave" .room "grotto" none 7, .use "lamp" .object 8]

set_option maxRecDepth 10000 in
theorem lamp_unresolved :
    ∃ d, applyAll caveWithLamp = .ok d ∧
      d.operations.map (·.argument 0) = ["lamp", "cave"] ∧
      .defineEntity "cave" .room "grotto" none 2 ∈ d.operations ∧
      d.finish = .error (.of (.unresolved [⟨"lamp", .object, [1, 8]⟩])) := by
  have hcalls : (applyAll caveWithLamp).isOk = true := by
    decide +kernel
  obtain ⟨d, hd⟩ := exists_ok_of_isOk hcalls
  obtain ⟨hnames, hdefinitions, hfinish, hreport⟩ := references_resolve hd
  have hmentioned : entityNames caveWithLamp = ["lamp", "cave"] := by
    decide +kernel
  rw [hmentioned] at hnames
  refine ⟨d, hd, hnames, ?_, ?_⟩
  · have hcave : "cave" ∈ d.operations.map (·.argument 0) := by
      rw [hnames]
      exact List.mem_cons_of_mem _ (List.mem_cons_self ..)
    obtain ⟨op, hop, hname⟩ := List.mem_map.mp hcave
    have hdefinition := hdefinitions op hop
    rw [hname] at hdefinition
    exact Option.some.inj hdefinition ▸ hop
  · have hmissing : d.finish ≠ .ok () := fun hok =>
      absurd (hfinish.mp hok "lamp" (by decide +kernel)) (by decide +kernel)
    obtain ⟨report, herror, hundeclared, hlines⟩ := hreport hmissing
    have hlamp : undeclared caveWithLamp = ["lamp"] := by
      decide +kernel
    rw [hlamp] at hundeclared
    obtain ⟨u, rfl, hu⟩ := List.map_eq_singleton_iff.mp hundeclared
    have hentry := hlines u (List.mem_singleton_self u)
    rw [hu] at hentry
    rw [herror, ← Option.some.inj hentry]
    rfl

end Mention

end Adventure
