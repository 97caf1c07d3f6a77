/-
Statements in another order.

Most of what makes statements about a thing go together has nothing to do with their order:
that the kinds stand below each other, that no two assertions contradict each other, and
that some kind is left for all properties.  One thing has: a property is measured against
the kinds that were stated up to then, so it must not meet a kind that is too general for
it before a more special one is stated.  Both together are just what it takes to be
accepted, so of two orders of the same statements only the second condition is left to
compare; and the record that comes of accepted statements does not depend on their order at
all, because its kind is the lowest and its assertions are the ones that were made.
-/
import Adventure.Proofs.Prose.Statements

namespace Adventure.Prose

/-! ### Statements that go together -/

/-- What statements must satisfy in whatever order they are made. -/
structure Harmonious (said : List Statement) : Prop where
  /-- There are entities of each kind. -/
  supported : ∀ k l, .kind k l ∈ said → k.type?.isSome = true
  /-- Of two kinds one stands below the other. -/
  related : ∀ k l k' l', .kind k l ∈ said → .kind k' l' ∈ said → k.related k' = true
  /-- No two assertions contradict each other. -/
  agree : ∀ a b, .property a ∈ said → .property b ∈ said → a.contradicts b = false
  /-- There is a kind that every asserted property fits. -/
  possible : ∃ k, ∀ a, .property a ∈ said → a.negated = false → a.property.fits k = true

/-- If a kind was stated, then for each asserted property one that it fits. -/
def SpecialEnough (said : List Statement) : Prop :=
  (∃ k l, .kind k l ∈ said) → ∀ a, .property a ∈ said → a.negated = false →
    ∃ k l, .kind k l ∈ said ∧ a.property.fits k = true

theorem Harmonious.mono {part said : List Statement} (h : Harmonious said) (hpart : part ⊆ said) :
    Harmonious part where
  supported k l hk := h.supported k l (hpart hk)
  related k l k' l' hk hk' := h.related k l k' l' (hpart hk) (hpart hk')
  agree a b ha hb := h.agree a b (hpart ha) (hpart hb)
  possible := by
    obtain ⟨k, hk⟩ := h.possible
    exact ⟨k, fun a ha => hk a (hpart ha)⟩

namespace Record.Reflects

variable {r r' : Record} {name : String} {said : List Statement}

/-! ### What was accepted goes together -/

/-- The kind of a thing is below every kind that was stated. -/
theorem isA_of_kind (hr : r.Reflects name said) {k k' : Kind} {l l' : Nat}
    (hkind : r.kind = some (k, l)) (h : .kind k' l' ∈ said) : k.isA k' = true := by
  obtain ⟨k₁, l₁, hk₁, hisA⟩ := hr.lowest k' l' h
  rw [hkind] at hk₁
  cases hk₁
  exact hisA

/-- Every property that was asserted is among those that the record keeps. -/
theorem exists_plain (hr : r.Reflects name said) {a : Assertion} (ha : .property a ∈ said)
    (hplain : a.negated = false) : ∃ b ∈ r.plain, b.property = a.property := by
  obtain ⟨b, hb, hagrees⟩ := hr.asserted a ha
  obtain ⟨hproperty, hnegated⟩ := Assertion.agrees_iff.mp hagrees
  exact ⟨b, mem_plain_iff.mpr ⟨hb, hnegated.symm.trans hplain⟩, hproperty.symm⟩

/-- Every property that was asserted fits the kind of the thing. -/
theorem fits_of_kind (hr : r.Reflects name said) {k : Kind} {l : Nat}
    (hkind : r.kind = some (k, l)) {a : Assertion} (ha : .property a ∈ said)
    (hplain : a.negated = false) : a.property.fits k = true := by
  obtain ⟨b, hb, hproperty⟩ := hr.exists_plain ha hplain
  exact hproperty ▸ hr.coherent.kind k l hkind b hb

/-- **What a record reflects goes together.** -/
theorem harmonious (hr : r.Reflects name said) (hknown : ∀ s ∈ said, s.Known) :
    Harmonious said where
  supported k l hk := hknown _ hk
  related := by
    intro k l k' l' hk hk'
    obtain ⟨lowest, line, hkind, hisA⟩ := hr.lowest k l hk
    rw [Kind.related, Bool.or_eq_true]
    exact Kind.isA_or_isA hisA (hr.isA_of_kind hkind hk')
  agree := by
    intro a b ha hb
    obtain ⟨a', ha', hagrees⟩ := hr.asserted a ha
    obtain ⟨b', hb', hagrees'⟩ := hr.asserted b hb
    rw [Assertion.contradicts_congr hagrees hagrees']
    exact hr.agree a' ha' b' hb'
  possible := by
    cases hkind : r.kind with
    | some given =>
      obtain ⟨k, l⟩ := given
      exact ⟨k, fun a ha hplain => hr.fits_of_kind hkind ha hplain⟩
    | none =>
      by_cases hnone : r.plain = []
      · refine ⟨.thing, fun a ha hplain => ?_⟩
        obtain ⟨b, hb, -⟩ := hr.exists_plain ha hplain
        rw [hnone] at hb
        cases hb
      · obtain ⟨k, hk⟩ := (candidates_ne_nil_iff (by simpa using hnone)).mp
          (hr.coherent.candidates hkind hnone)
        refine ⟨k, fun a ha hplain => ?_⟩
        obtain ⟨b, hb, hproperty⟩ := hr.exists_plain ha hplain
        exact hproperty ▸ hk b.property (List.mem_map_of_mem hb)

/-- The kind of a thing is one that was stated, and every property fits it. -/
theorem specialEnough (hr : r.Reflects name said) : SpecialEnough said := by
  rintro ⟨k, l, hk⟩ a ha hplain
  obtain ⟨lowest, line, hkind, -⟩ := hr.lowest k l hk
  exact ⟨lowest, line, hr.kind lowest line hkind, hr.fits_of_kind hkind ha hplain⟩

/-! ### What goes together is accepted -/

/-- A kind is accepted if it goes with what was said and is special enough, together with
the kinds that were stated, for every property. -/
theorem accepts_kind {k : Kind} {l : Nat} (hr : r.Reflects name said)
    (hharmonious : Harmonious (said ++ [.kind k l]))
    (hspecial : SpecialEnough (said ++ [.kind k l])) : ∃ r', r.setKind k l = .ok r' := by
  have hnew : .kind k l ∈ said ++ [.kind k l] := List.mem_append_right _ (List.mem_singleton_self _)
  obtain ⟨merged, hmerge⟩ : ∃ merged, r.mergeKind k = .ok merged := by
    cases hkind : r.kind with
    | none => exact ⟨k, mergeKind_of_none hkind⟩
    | some given =>
      obtain ⟨earlier, line⟩ := given
      have hrelated : earlier.related k = true :=
        hharmonious.related _ _ _ _ (List.mem_append_left _ (hr.kind earlier line hkind)) hnew
      rw [mergeKind, hkind]
      dsimp only
      rw [if_neg (by simp [hrelated])]
      exact ⟨_, rfl⟩
  obtain ⟨hisA, hearlier, -⟩ := mergeKind_ok hmerge
  -- what is kept is below every kind that was stated, hence below the one that suffices
  have hbelow : ∀ k' l', .kind k' l' ∈ said ++ [.kind k l] → merged.isA k' = true := by
    intro k' l' hk'
    rcases List.mem_append.mp hk' with hk' | hk'
    · obtain ⟨lowest, line, hkind, hlowest⟩ := hr.lowest k' l' hk'
      exact Kind.isA_trans (hearlier lowest line hkind) hlowest
    · cases List.mem_singleton.mp hk'
      exact hisA
  refine ⟨_, setKind_ok_iff.mpr ⟨hharmonious.supported k l hnew, merged, hmerge, ?_, rfl⟩⟩
  intro a ha
  obtain ⟨hmem, hplain⟩ := mem_plain_iff.mp ha
  obtain ⟨k', l', hk', hfits⟩ := hspecial ⟨k, l, hnew⟩ a
    (List.mem_append_left _ (hr.assertions a hmem)) hplain
  exact Property.fits_of_isA hfits (hbelow k' l' hk')

/-- An assertion is accepted if it goes with what was said and, if kinds were stated, fits
one of them. -/
theorem accepts_property {a : Assertion} (hr : r.Reflects name said)
    (ha : a.property ∈ Property.all) (hharmonious : Harmonious (said ++ [.property a]))
    (hspecial : SpecialEnough (said ++ [.property a])) : ∃ r', r.claim a = .ok r' := by
  have hnew : .property a ∈ said ++ [.property a] :=
    List.mem_append_right _ (List.mem_singleton_self _)
  have hold : ∀ b ∈ r.assertions, .property b ∈ said ++ [.property a] :=
    fun b hb => List.mem_append_left _ (hr.assertions b hb)
  refine ⟨_, claim_ok_iff.mpr
    ⟨fun b hb => hharmonious.agree a b hnew (hold b hb), fun hplain => ?_, rfl⟩⟩
  cases hkind : r.kind with
  | some given =>
    obtain ⟨k, l⟩ := given
    rw [checkFits_ok_iff_of_some hkind]
    have hstated := List.mem_append_left [.property a] (hr.kind k l hkind)
    obtain ⟨k', l', hk', hfits⟩ := hspecial ⟨k, l, hstated⟩ a hnew hplain
    rcases List.mem_append.mp hk' with hk' | hk'
    · exact Property.fits_of_isA hfits (hr.isA_of_kind hkind hk')
    · cases List.mem_singleton.mp hk'
  | none =>
    rw [checkFits_ok_iff_of_none ha hkind]
    obtain ⟨k, hk⟩ := hharmonious.possible
    refine (candidates_ne_nil_iff (by simp)).mpr ⟨k, ?_⟩
    refine List.forall_mem_append.mpr ⟨?_, List.forall_mem_singleton.mpr (hk a hnew hplain)⟩
    intro p hp
    obtain ⟨b, hb, rfl⟩ := List.mem_map.mp hp
    obtain ⟨hmem, hplain'⟩ := mem_plain_iff.mp hb
    exact hk b (hold b hmem) hplain'

/-- **A statement that goes with what was said is accepted.** -/
theorem accepts {s : Statement} (hr : r.Reflects name said) (hs : s.Known)
    (hharmonious : Harmonious (said ++ [s])) (hspecial : SpecialEnough (said ++ [s])) :
    ∃ r', r.tell s = .ok r' := by
  cases s with
  | kind k l =>
    obtain ⟨r', h⟩ := hr.accepts_kind hharmonious hspecial
    exact ⟨r', mapError_ok_iff.mpr h⟩
  | property a =>
    obtain ⟨r', h⟩ := hr.accepts_property hs hharmonious hspecial
    exact ⟨r', mapError_ok_iff.mpr h⟩

end Record.Reflects

namespace Record

variable {r r' : Record} {name : String} {line : Nat} {said said' : List Statement}

theorem exists_tellAll_of_prefix {part : List Statement} (hpart : part <+: said)
    (h : r.tellAll said = .ok r') : ∃ r₁, r.tellAll part = .ok r₁ := by
  obtain ⟨rest, rfl⟩ := hpart
  rw [tellAll, List.foldlM_append] at h
  obtain ⟨r₁, hr₁, -⟩ := bind_ok_iff.mp h
  exact ⟨r₁, hr₁⟩

/-- **What it takes to be accepted**: one condition on all the statements, in whatever
order, and one on those that were made up to each point. -/
theorem tellAll_ok_iff (hknown : ∀ s ∈ said, s.Known) :
    (∃ r, (fresh name line).tellAll said = .ok r) ↔
      Harmonious said ∧ ∀ part, part <+: said → SpecialEnough part := by
  constructor
  · rintro ⟨r, hr⟩
    refine ⟨(reflects_of_tellAll hknown hr).harmonious hknown, fun part hpart => ?_⟩
    obtain ⟨r₁, hr₁⟩ := exists_tellAll_of_prefix hpart hr
    exact (reflects_of_tellAll (fun s hs => hknown s (hpart.subset hs)) hr₁).specialEnough
  · rintro ⟨hharmonious, hspecial⟩
    induction said using List.reverseRecOn with
    | nil => exact ⟨_, rfl⟩
    | append_singleton said s ih =>
      obtain ⟨hsaid, hs⟩ := List.forall_mem_append.mp hknown
      obtain ⟨r, hr⟩ := ih hsaid (hharmonious.mono (List.subset_append_left _ _))
        fun part hpart => hspecial part (hpart.trans (List.prefix_append _ _))
      obtain ⟨r', hr'⟩ := (reflects_of_tellAll hsaid hr).accepts
        (List.forall_mem_singleton.mp hs) hharmonious (hspecial _ (List.prefix_refl _))
      exact ⟨r', by rw [tellAll_concat, hr]; exact hr'⟩

/-- The properties that were asserted and denied, without the lines. -/
def verdicts (r : Record) : List (Property × Bool) :=
  r.assertions.map fun a => (a.property, a.negated)

theorem Reflects.mem_verdicts_iff (hr : r.Reflects name said) {x : Property × Bool} :
    x ∈ r.verdicts ↔ ∃ a, .property a ∈ said ∧ x = (a.property, a.negated) := by
  rw [verdicts, List.mem_map]
  constructor
  · rintro ⟨a, ha, rfl⟩
    exact ⟨a, hr.assertions a ha, rfl⟩
  · rintro ⟨a, ha, rfl⟩
    obtain ⟨b, hb, hagrees⟩ := hr.asserted a ha
    obtain ⟨hproperty, hnegated⟩ := Assertion.agrees_iff.mp hagrees
    exact ⟨b, hb, by rw [hproperty, hnegated]⟩

/-- Records of the same statements have the same kind. -/
theorem Reflects.kind_eq (hr : r.Reflects name said) (hr' : r'.Reflects name said')
    (h : ∀ s, s ∈ said ↔ s ∈ said') : r'.kind.map Prod.fst = r.kind.map Prod.fst := by
  cases hkind : r.kind with
  | none =>
    cases hkind' : r'.kind with
    | none => rfl
    | some given' =>
      obtain ⟨k', l', hk', -⟩ := hr.lowest _ _ ((h _).mpr (hr'.kind given'.1 given'.2 hkind'))
      rw [hkind] at hk'
      cases hk'
  | some given =>
    obtain ⟨k, l⟩ := given
    have hstated := hr.kind k l hkind
    obtain ⟨k', l', hkind', hisA⟩ := hr'.lowest k l ((h _).mp hstated)
    have hisA' := hr.isA_of_kind hkind ((h _).mpr (hr'.kind k' l' hkind'))
    rw [hkind', Option.map_some, Option.map_some, Kind.isA_antisymm hisA hisA']

/-- **Statements in another order.**  Statements that were accepted in one order are
accepted in another just if, at each point of it, every property asserted up to then fits
one of the kinds stated up to then, if there are any; and if they are, the thing is of the
same kind and the same is asserted and denied of it.  So every order is accepted just if
every asserted property fits every stated kind. -/
theorem accepted_in_order_iff (hknown : ∀ s ∈ said, s.Known)
    (h : (fresh name line).tellAll said = .ok r) :
    (∀ said', said.Perm said' →
      ((∃ r', (fresh name line).tellAll said' = .ok r') ↔
        ∀ part, part <+: said' → SpecialEnough part) ∧
      ∀ r', (fresh name line).tellAll said' = .ok r' →
        r'.kind.map Prod.fst = r.kind.map Prod.fst ∧ ∀ x, x ∈ r'.verdicts ↔ x ∈ r.verdicts) ∧
    ((∀ said', said.Perm said' → ∃ r', (fresh name line).tellAll said' = .ok r') ↔
      ∀ k l a, .kind k l ∈ said → .property a ∈ said → a.negated = false →
        a.property.fits k = true) := by
  have hr := reflects_of_tellAll hknown h
  have hharmonious := hr.harmonious hknown
  have hother : ∀ said', said.Perm said' →
      ((∃ r', (fresh name line).tellAll said' = .ok r') ↔
        ∀ part, part <+: said' → SpecialEnough part) := by
    intro said' hperm
    rw [tellAll_ok_iff fun s hs => hknown s (hperm.mem_iff.mpr hs)]
    exact and_iff_right (hharmonious.mono hperm.symm.subset)
  refine ⟨fun said' hperm => ⟨hother said' hperm, fun r' hr' => ?_⟩, ?_, ?_⟩
  · have hr' := reflects_of_tellAll (fun s hs => hknown s (hperm.mem_iff.mpr hs)) hr'
    refine ⟨hr.kind_eq hr' fun s => hperm.mem_iff, fun x => ?_⟩
    rw [hr.mem_verdicts_iff, hr'.mem_verdicts_iff]
    exact exists_congr fun a => and_congr_left fun _ => hperm.mem_iff.symm
  · intro hall k l a hk ha hplain
    -- the order in which the kind comes first and the property next
    have hrest : Statement.property a ∈ said.erase (.kind k l) :=
      (List.mem_erase_of_ne (by simp)).mpr ha
    have hperm := (List.perm_cons_erase hk).trans ((List.perm_cons_erase hrest).cons _)
    have hfirst := (hother _ hperm).mp (hall _ hperm) [.kind k l, .property a]
      ⟨_, rfl⟩ ⟨k, l, by simp⟩ a (by simp) hplain
    obtain ⟨k', l', hk', hfits⟩ := hfirst
    have hsame : k' = k ∧ l' = l := by simpa using hk'
    exact hsame.1 ▸ hfits
  · intro hall said' hperm
    refine (hother said' hperm).mpr fun part hpart => ?_
    rintro ⟨k, l, hk⟩ a ha hplain
    have hmem : ∀ s ∈ part, s ∈ said := fun s hs => hperm.mem_iff.mpr (hpart.subset hs)
    exact ⟨k, l, hk, hall k l a (hmem _ hk) (hmem _ ha) hplain⟩

/-- A box is a thing, it is a container, and it is open. -/
def openBox : List Statement :=
  [.kind .thing 1, .kind .container 2,
    .property ⟨⟨"open", [.container, .door], ["closed"]⟩, false, 3⟩]

/-- The same of the box, but that it is open comes before the kind that allows it. -/
def boxOpenedEarly : List Statement :=
  [.kind .thing 1, .property ⟨⟨"open", [.container, .door], ["closed"]⟩, false, 3⟩,
    .kind .container 2]

/-- What is said of the box is accepted in the one order and refused in the other. -/
theorem box_opened_early_refused :
    (∀ s ∈ openBox, s.Known) ∧ openBox.Perm boxOpenedEarly ∧
      (∃ r, (fresh "box" 1).tellAll openBox = .ok r) ∧
      (fresh "box" 1).tellAll boxOpenedEarly =
        .error (.parse "\"box\" cannot be open because it was made a thing on line 1" 3) := by
  refine ⟨by decide, .cons _ (.swap _ _ _), exists_ok_of_isOk (by decide), by rfl⟩

/-- The box in any order of what is said of it. -/
theorem box_in_some_order :
    ∃ r, (fresh "box" 1).tellAll openBox = .ok r ∧
      (∀ said', openBox.Perm said' →
        ((∃ r', (fresh "box" 1).tellAll said' = .ok r') ↔
          ∀ part, part <+: said' → SpecialEnough part) ∧
        ∀ r', (fresh "box" 1).tellAll said' = .ok r' →
          r'.kind.map Prod.fst = r.kind.map Prod.fst ∧ ∀ x, x ∈ r'.verdicts ↔ x ∈ r.verdicts) ∧
      ((∀ said', openBox.Perm said' → ∃ r', (fresh "box" 1).tellAll said' = .ok r') ↔
        ∀ k l a, .kind k l ∈ openBox → .property a ∈ openBox → a.negated = false →
          a.property.fits k = true) := by
  have hknown : ∀ s ∈ openBox, s.Known := by decide
  obtain ⟨r, hr⟩ := exists_ok_of_isOk
    (by decide : ((fresh "box" 1).tellAll openBox).isOk = true)
  exact ⟨r, hr, accepted_in_order_iff hknown hr⟩

end Record

end Adventure.Prose
