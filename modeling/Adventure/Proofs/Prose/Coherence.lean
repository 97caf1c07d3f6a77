/-
Tables that stay coherent.

Kinds and properties are said of a thing in any order, and each statement is checked only
against what was said before.  That is enough: a property is checked against every other
one, and against the kind or else the kinds that are still possible; a kind, also one that
only comes of a place, is checked against every property.  So what is said of a thing is
coherent after every statement, and each step of a story keeps it so for all things.

What a thing refers to is known from the soundness of stories.  Both together are followed
along the sentences of a source, so they hold at every point between two of them; and when
the source has ended, the properties of a thing that was given no kind leave one that makes
entities, since a door is the only kind that makes none and whatever may be a door may be
a container.
-/
import Adventure.Proofs.Prose.Facts
import Adventure.Proofs.Prose.Mentions

namespace Adventure.Prose

/-! ### The table of properties -/

namespace Property

variable {p q : Property}

theorem name_not_mem_contraries (hp : p ∈ all) : p.name ∉ p.contraries := by
  have hself : ∀ p ∈ all, p.name ∉ p.contraries := by decide
  exact hself p hp

/-- If a property is contrary to another then so is the other to it. -/
theorem contraries_symm (hp : p ∈ all) (hq : q ∈ all) (h : q.name ∈ p.contraries) :
    p.name ∈ q.contraries := by
  have hsymm : ∀ p ∈ all, ∀ q ∈ all, q.name ∈ p.contraries → p.name ∈ q.contraries := by
    decide
  exact hsymm p hp q hq h

theorem areOpposite_comm (p q : Property) : p.areOpposite q = q.areOpposite p :=
  Bool.and_comm _ _

/-- Every property holds of some kind of thing. -/
theorem candidates_singleton_ne_nil (hp : p ∈ all) : candidates [p] ≠ [] := by
  have hsome : ∀ p ∈ all, candidates [p] ≠ [] := by decide
  exact hsome p hp

/-- The kinds of a property make entities, apart from doors, which come with containers. -/
theorem kinds_supported (hp : p ∈ all) {k : Kind} (hk : k ∈ p.kinds) :
    k.type?.isSome = true ∨ k = .door ∧ .container ∈ p.kinds := by
  have hkinds : ∀ p ∈ all, ∀ k ∈ p.kinds,
      k.type?.isSome = true ∨ k = .door ∧ .container ∈ p.kinds := by
    decide
  exact hkinds p hp k hk

theorem fits_container_of_door (hp : p ∈ all) (h : p.fits .door = true) :
    p.fits .container = true := by
  have hfits : ∀ p ∈ all, p.fits .door = true → p.fits .container = true := by decide
  exact hfits p hp h

end Property

theorem mem_candidates_iff {properties : List Property} {k : Kind} :
    k ∈ candidates properties ↔
      (∃ p ∈ properties, k ∈ p.kinds) ∧ ∀ p ∈ properties, p.fits k = true := by
  simp [candidates]

/-- **Of the kinds that properties leave one makes entities**, if they leave any. -/
theorem exists_supported_candidate {properties : List Property}
    (hall : ∀ p ∈ properties, p ∈ Property.all) (h : candidates properties ≠ []) :
    ∃ k ∈ candidates properties, k.type?.isSome = true := by
  obtain ⟨k, hk⟩ := List.exists_mem_of_ne_nil _ h
  obtain ⟨⟨p, hp, hkp⟩, hfits⟩ := mem_candidates_iff.mp hk
  rcases Property.kinds_supported (hall p hp) hkp with hsupported | ⟨rfl, hcontainer⟩
  · exact ⟨k, hk, hsupported⟩
  · refine ⟨.container, mem_candidates_iff.mpr ⟨⟨p, hp, hcontainer⟩, ?_⟩, rfl⟩
    intro q hq
    exact Property.fits_container_of_door (hall q hq) (hfits q hq)

/-! ### What is said of one thing -/

/-- The properties that are said of a thing can hold together, and of its kind. -/
structure Record.Coherent (r : Record) : Prop where
  properties : ∀ a ∈ r.assertions, a.property ∈ Property.all
  /-- No two that hold are contraries. -/
  contraries : ∀ a ∈ r.plain, ∀ b ∈ r.plain, b.property.name ∉ a.property.contraries
  /-- No two that do not hold are each other's only contrary. -/
  opposites : ∀ a ∈ r.assertions, ∀ b ∈ r.assertions, a.negated = true → b.negated = true →
    a.property.areOpposite b.property = false
  kind : ∀ k line, r.kind = some (k, line) → ∀ a ∈ r.plain, a.property.fits k = true
  /-- Some kind is still possible. -/
  candidates : r.kind = none → r.plain ≠ [] → candidates (r.plain.map (·.property)) ≠ []

namespace Assertion

variable {a b : Assertion}

theorem contradicts_self (a : Assertion) : a.contradicts a = false := by
  simp [contradicts]

/-- Assertions that hold beside each other are no contraries. -/
theorem not_mem_contraries (ha : a.property ∈ Property.all) (hcontradicts : a.contradicts b = false)
    (hplain : a.negated = false) (hplain' : b.negated = false) :
    b.property.name ∉ a.property.contraries := by
  by_cases hsame : b.property = a.property
  · rw [hsame]
    exact Property.name_not_mem_contraries ha
  · simpa [contradicts, hsame, hplain, hplain'] using hcontradicts

/-- Denials that hold beside each other are not of each other's only contraries. -/
theorem not_areOpposite (ha : a.property ∈ Property.all) (hcontradicts : a.contradicts b = false)
    (hnegated : a.negated = true) (hnegated' : b.negated = true) :
    a.property.areOpposite b.property = false := by
  by_cases hsame : b.property = a.property
  · have hself := Property.name_not_mem_contraries ha
    rw [hsame]
    simp only [Property.areOpposite, Bool.and_self, decide_eq_false_iff_not]
    intro heq
    exact hself (heq ▸ List.mem_singleton_self _)
  · simpa [contradicts, hsame, hnegated, hnegated'] using hcontradicts

end Assertion

namespace Record

variable {r r' : Record} {a b : Assertion}

theorem mem_plain_iff : a ∈ r.plain ↔ a ∈ r.assertions ∧ a.negated = false := by
  simp [plain]

theorem coherent_fresh (name : String) (line : Nat) : (fresh name line).Coherent where
  properties := nofun
  contraries := nofun
  opposites := nofun
  kind := nofun
  candidates _ hne := absurd rfl hne

/-- Whatever else is said of a thing does not bear on its kind and properties. -/
theorem Coherent.congr (h : r.Coherent) (hkind : r'.kind = r.kind)
    (hassertions : r'.assertions = r.assertions) : r'.Coherent := by
  have hplain : r'.plain = r.plain := by rw [plain, hassertions, plain]
  refine ⟨?_, ?_, ?_, ?_, ?_⟩
  · rw [hassertions]
    exact h.properties
  · rw [hplain]
    exact h.contraries
  · rw [hassertions]
    exact h.opposites
  · rw [hkind, hplain]
    exact h.kind
  · rw [hkind, hplain]
    exact h.candidates

/-- **A thing that is given a kind has only properties that fit it.** -/
theorem Coherent.setKind {kind : Kind} {line : Nat} (h : r.Coherent)
    (hset : r.setKind kind line = .ok r') : r'.Coherent := by
  simp only [Record.setKind, throw_bind, guard_ok_iff, bind_ok_iff] at hset
  obtain ⟨-, merged, -, hset⟩ := hset
  split at hset
  · simp at hset
  · rename_i hfits
    obtain rfl := pure_ok_iff.mp hset
    refine ⟨h.properties, h.contraries, h.opposites, ?_, ?_⟩
    · rintro k l ⟨⟩ a ha
      simpa using List.find?_eq_none.mp hfits a ha
    · rintro ⟨⟩

/-- A property that passes leaves a kind for the thing. -/
theorem candidates_of_checkFits {p : Property} {u : Unit} (hp : p ∈ Property.all)
    (hkind : r.kind = none) (h : r.checkFits p = .ok u) :
    Prose.candidates (r.plain.map (·.property) ++ [p]) ≠ [] := by
  unfold checkFits at h
  rw [hkind] at h
  dsimp only at h
  split at h
  · simp at h
  rename_i hnone
  intro hempty
  unfold excludedBy? at hnone
  rw [hempty] at hnone
  simp only [List.isEmpty_nil, if_true, Option.orElse_eq_orElse, Option.orElse_eq_or,
    Option.or_eq_none_iff, List.head?_eq_none_iff] at hnone
  rw [hnone.2] at hempty
  exact Property.candidates_singleton_ne_nil hp hempty

theorem fits_of_checkFits {p : Property} {u : Unit} {k : Kind} {line : Nat}
    (hkind : r.kind = some (k, line)) (h : r.checkFits p = .ok u) : p.fits k = true := by
  unfold checkFits at h
  rw [hkind] at h
  dsimp only at h
  split at h
  · assumption
  · simp at h

/-- What a property that was claimed had to pass. -/
theorem checks_of_claim (h : r.claim a = .ok r') :
    (∀ b ∈ r.assertions, a.contradicts b = false) ∧
      (a.negated = false → r.checkFits a.property = .ok ()) ∧ r' = r.addAssertion a := by
  unfold claim at h
  split at h
  · simp at h
  rename_i hnone
  refine ⟨fun b hb => by simpa using List.find?_eq_none.mp hnone b hb, ?_⟩
  split at h
  · obtain ⟨u, hfits, h⟩ := bind_ok_iff.mp h
    exact ⟨fun _ => hfits, pure_ok_iff.mp h⟩
  · rename_i hnegated
    exact ⟨fun hplain => absurd hplain (by simpa using hnegated), pure_ok_iff.mp h⟩

/-- What holds between any two of a list still does when one more goes with all of them. -/
theorem forall_mem_concat₂ {α : Type} {P : α → α → Prop} {l : List α} {x : α}
    (hl : ∀ y ∈ l, ∀ z ∈ l, P y z) (hself : P x x) (hafter : ∀ y ∈ l, P x y)
    (hbefore : ∀ y ∈ l, P y x) : ∀ y ∈ l ++ [x], ∀ z ∈ l ++ [x], P y z := by
  simp only [List.forall_mem_append, List.forall_mem_singleton]
  exact ⟨fun y hy => ⟨hl y hy, hbefore y hy⟩, hafter, hself⟩

/-- A denial has only to go with the other denials. -/
theorem Coherent.deny (h : r.Coherent) (ha : a.property ∈ Property.all)
    (hnegated : a.negated = true) (hcontradicts : ∀ b ∈ r.assertions, a.contradicts b = false) :
    ({ r with assertions := r.assertions ++ [a] } : Record).Coherent := by
  have hplain : ({ r with assertions := r.assertions ++ [a] } : Record).plain = r.plain := by
    simp [plain, hnegated]
  have hafter : ∀ b ∈ r.assertions, b.negated = true →
      a.property.areOpposite b.property = false :=
    fun b hb => Assertion.not_areOpposite ha (hcontradicts b hb) hnegated
  refine ⟨?_, ?_, ?_, ?_, ?_⟩
  · exact List.forall_mem_append.mpr ⟨h.properties, List.forall_mem_singleton.mpr ha⟩
  · rw [hplain]
    exact h.contraries
  · refine forall_mem_concat₂ h.opposites ?_ (fun b hb _ => hafter b hb) ?_
    · intro _
      exact Assertion.not_areOpposite ha a.contradicts_self hnegated
    · intro b hb hnegated' _
      rw [Property.areOpposite_comm]
      exact hafter b hb hnegated'
  · rw [hplain]
    exact h.kind
  · rw [hplain]
    exact h.candidates

/-- What is asserted has to go with the other assertions, and with a kind of thing. -/
theorem Coherent.affirm (h : r.Coherent) (ha : a.property ∈ Property.all)
    (hnegated : a.negated = false) (hcontradicts : ∀ b ∈ r.assertions, a.contradicts b = false)
    (hfits : r.checkFits a.property = .ok ()) :
    ({ r with assertions := r.assertions ++ [a] } : Record).Coherent := by
  have hplain : ({ r with assertions := r.assertions ++ [a] } : Record).plain = r.plain ++ [a] := by
    simp [plain, hnegated]
  have hafter : ∀ b ∈ r.plain, b.property.name ∉ a.property.contraries := by
    intro b hb
    obtain ⟨hb, hnegated'⟩ := mem_plain_iff.mp hb
    exact Assertion.not_mem_contraries ha (hcontradicts b hb) hnegated hnegated'
  have hold : ∀ b ∈ r.assertions ++ [a], b.negated = true → b ∈ r.assertions := by
    intro b hb hnegated'
    rcases List.mem_append.mp hb with hb | hb
    · exact hb
    · rw [List.mem_singleton.mp hb, hnegated] at hnegated'
      cases hnegated'
  refine ⟨?_, ?_, ?_, ?_, ?_⟩
  · exact List.forall_mem_append.mpr ⟨h.properties, List.forall_mem_singleton.mpr ha⟩
  · rw [hplain]
    refine forall_mem_concat₂ h.contraries (Property.name_not_mem_contraries ha) hafter ?_
    intro b hb hcontrary
    have hb' := h.properties b (mem_plain_iff.mp hb).1
    exact hafter b hb (Property.contraries_symm hb' ha hcontrary)
  · intro b hb c hc hb' hc'
    exact h.opposites b (hold b hb hb') c (hold c hc hc') hb' hc'
  · intro k line hkind
    have hkind : r.kind = some (k, line) := hkind
    rw [hplain]
    exact List.forall_mem_append.mpr
      ⟨h.kind k line hkind, List.forall_mem_singleton.mpr (fits_of_checkFits hkind hfits)⟩
  · intro hkind _
    rw [hplain, List.map_append]
    exact candidates_of_checkFits ha hkind hfits

/-- **What is claimed of a thing goes with everything that was said of it.** -/
theorem Coherent.claim (h : r.Coherent) (ha : a.property ∈ Property.all)
    (hclaim : r.claim a = .ok r') : r'.Coherent := by
  obtain ⟨hcontradicts, hfits, rfl⟩ := checks_of_claim hclaim
  rw [addAssertion]
  split
  · exact h
  · cases hnegated : a.negated with
    | true => exact h.deny ha hnegated hcontradicts
    | false => exact h.affirm ha hnegated hcontradicts (hfits hnegated)

theorem Coherent.addExit {exit : Exit} (h : r.Coherent) (hadd : r.addExit exit = .ok r') :
    r'.Coherent := by
  unfold Record.addExit at hadd
  split at hadd
  · rw [pure_ok_iff.mp (guard_not_ok_iff.mp hadd).2]
    exact h
  · rw [pure_ok_iff.mp hadd]
    exact h.congr rfl rfl

theorem Coherent.place {p : Placement} (h : r.Coherent) (hplace : r.place p = .ok r') :
    r'.Coherent := by
  unfold Record.place at hplace
  split at hplace
  · rw [pure_ok_iff.mp (guard_not_ok_iff.mp hplace).2]
    exact h.congr rfl rfl
  · rw [pure_ok_iff.mp hplace]
    exact h.congr rfl rfl

/-- **A thing is settled on a kind that all its properties fit.** -/
theorem Coherent.fits_settledKind (h : r.Coherent) :
    ∀ a ∈ r.plain, a.property.fits r.settledKind = true := by
  intro a ha
  cases hkind : r.kind with
  | some given =>
    obtain ⟨k, line⟩ := given
    rw [settledKind_of_some hkind]
    exact h.kind k line hkind a ha
  | none =>
    have hproperties : ∀ p ∈ r.plain.map (·.property), p ∈ Property.all := by
      intro p hp
      obtain ⟨b, hb, rfl⟩ := List.mem_map.mp hp
      exact h.properties b (mem_plain_iff.mp hb).1
    obtain ⟨k, hk, hsupported⟩ := exists_supported_candidate hproperties
      (h.candidates hkind (List.ne_nil_of_mem ha))
    rw [settledKind, hkind]
    dsimp only
    cases hfind : (Prose.candidates (r.plain.map (·.property))).find? (·.type?.isSome) with
    | none => exact absurd hsupported (by simpa using List.find?_eq_none.mp hfind k hk)
    | some found =>
      obtain ⟨-, hfits⟩ := mem_candidates_iff.mp (List.mem_of_find?_eq_some hfind)
      exact hfits _ (List.mem_map_of_mem ha)

end Record

namespace Story

/-! ### What every step keeps -/

/-- A step after which what is said of each thing is coherent, if it was before. -/
def KeepsCoherent {α : Type} (m : EStateM Error Story α) : Prop :=
  ∀ s a t, (∀ r ∈ s.records, r.Coherent) → m s = .ok a t → ∀ r ∈ t.records, r.Coherent

section Steps

variable {α β : Type} {m : EStateM Error Story α} {f : α → EStateM Error Story β}

/-- A step that leaves the records alone. -/
theorem keepsCoherent_of_records (h : ∀ s a t, m s = .ok a t → t.records = s.records) :
    KeepsCoherent m := by
  intro s a t hs ht
  rw [h s a t ht]
  exact hs

theorem keepsCoherent_pure (a : α) : KeepsCoherent (pure a) :=
  keepsCoherent_of_records (by rintro s _ t ⟨⟩; rfl)

theorem keepsCoherent_get : KeepsCoherent get :=
  keepsCoherent_of_records (by rintro s _ t ⟨⟩; rfl)

theorem keepsCoherent_throw (e : Error) : KeepsCoherent (throw e : EStateM Error Story α) := by
  intro s a t _ ht
  cases ht

theorem keepsCoherent_modify {g : Story → Story} (h : ∀ s, (g s).records = s.records) :
    KeepsCoherent (modify g) :=
  keepsCoherent_of_records (by rintro s _ t ⟨⟩; exact h s)

theorem KeepsCoherent.bind (hm : KeepsCoherent m) (hf : ∀ a, KeepsCoherent (f a)) :
    KeepsCoherent (m >>= f) := by
  intro s b t hs ht
  obtain ⟨a, u, hu, ht⟩ := run_bind_ok_iff.mp ht
  exact hf a u b t (hm s a u hs hu) ht

theorem keepsCoherent_forM {f : α → EStateM Error Story PUnit} {as : List α}
    (h : ∀ a ∈ as, KeepsCoherent (f a)) : KeepsCoherent (as.forM f) := by
  induction as with
  | nil => exact keepsCoherent_pure ()
  | cons a rest ih =>
    exact (h a (List.mem_cons_self ..)).bind fun _ =>
      ih fun b hb => h b (List.mem_cons_of_mem _ hb)

end Steps

theorem keepsCoherent_revise (key : String) (line : Nat) {f : Record → Except Conflict Record}
    (hf : ∀ r r', r.Coherent → f r = .ok r' → r'.Coherent) : KeepsCoherent (revise key line f) := by
  intro s _ t hs h
  unfold revise at h
  split at h
  · obtain rfl := (EStateM.Result.ok.inj h).2
    exact hs
  · rename_i r hr
    split at h
    · rename_i r' hr'
      obtain rfl := (EStateM.Result.ok.inj h).2
      intro x hx
      obtain ⟨old, hold, rfl⟩ := List.mem_map.mp hx
      split
      · exact hf r r' (hs r (mem_of_record? hr)) hr'
      · exact hs old hold
    · cases h

theorem keepsCoherent_mention (m : Mention) : KeepsCoherent (mention m) := by
  intro s key t hs h
  unfold mention at h
  dsimp only at h
  split at h
  · cases h
  · split at h
    · obtain rfl := (EStateM.Result.ok.inj h).2
      exact hs
    · obtain rfl := (EStateM.Result.ok.inj h).2
      intro r hr
      rcases List.mem_append.mp hr with hr | hr
      · exact hs r hr
      · rw [List.mem_singleton.mp hr]
        exact Record.coherent_fresh m.name m.line

theorem keepsCoherent_setSubjects (things : List Mention) : KeepsCoherent (setSubjects things) := by
  have hmapM : KeepsCoherent (things.mapM mention) := by
    induction things with
    | nil => exact keepsCoherent_pure []
    | cons m rest ih =>
      rw [List.mapM_cons]
      exact (keepsCoherent_mention m).bind fun _ => ih.bind fun _ => keepsCoherent_pure _
  refine keepsCoherent_get.bind ?_
  intro s
  dsimp only
  split
  · exact keepsCoherent_throw _
  · exact hmapM.bind fun _ => keepsCoherent_modify fun _ => rfl

theorem keepsCoherent_reviseSubjects (line : Nat) {f : Record → Except Conflict Record}
    (hf : ∀ r r', r.Coherent → f r = .ok r' → r'.Coherent) :
    KeepsCoherent (reviseSubjects line f) :=
  keepsCoherent_get.bind fun _ => keepsCoherent_forM fun key _ => keepsCoherent_revise key line hf

theorem keepsCoherent_describe (key text : String) : KeepsCoherent (describe key text) := by
  refine keepsCoherent_revise key 0 ?_
  intro r r' hr h
  rw [pure_ok_iff.mp h]
  exact hr.congr rfl rfl

theorem keepsCoherent_place (p : Preposition) (target : Mention) (line : Nat) :
    KeepsCoherent (place p target line) := by
  refine (keepsCoherent_mention target).bind ?_
  intro key
  refine keepsCoherent_get.bind ?_
  intro s
  have hplaced : KeepsCoherent (s.subjects.forM fun subject => revise subject line fun r =>
      if subject = key then throw (.placedAtItself r.name p) else r.place ⟨p, key, line⟩) :=
    keepsCoherent_forM fun subject _ => keepsCoherent_revise subject line
      fun r r' hr h => hr.place (guard_ok_iff.mp h).2
  dsimp only
  split
  · exact (keepsCoherent_revise _ _ fun _ _ hr h => hr.setKind h).bind fun _ => hplaced
  · exact hplaced

theorem keepsCoherent_locate (room : Mention) (direction : String) (origin : Mention) (line : Nat) :
    KeepsCoherent (locate room direction origin line) := by
  have hroom : ∀ key line, KeepsCoherent (revise key line (·.setKind .room line)) :=
    fun key line => keepsCoherent_revise key line fun _ _ hr h => hr.setKind h
  have hexit : ∀ key exit, KeepsCoherent (revise key line (·.addExit exit)) :=
    fun key exit => keepsCoherent_revise key line fun _ _ hr h => hr.addExit h
  refine (keepsCoherent_mention origin).bind ?_
  intro here
  refine (hroom _ _).bind fun _ => (hroom _ _).bind fun _ => (hexit _ _).bind fun _ => ?_
  refine keepsCoherent_get.bind ?_
  intro s
  split
  · exact hexit _ _
  · exact keepsCoherent_pure _

theorem keepsCoherent_addKind (m : Mention) (parent : Kind) : KeepsCoherent (addKind m parent) := by
  refine keepsCoherent_of_records ?_
  intro s _ t h
  unfold addKind at h
  split at h
  · cases h
  · split at h
    · obtain rfl := (EStateM.Result.ok.inj h).2
      rfl
    · cases h

/-- **Every fact that is taken in keeps what is said of things coherent**, if the property
that it may claim is one. -/
theorem keepsCoherent_accept {f : Fact}
    (hf : ∀ p negated line, f = .property p negated line → p ∈ Property.all) :
    KeepsCoherent (accept f) := by
  cases f with
  | title text => exact keepsCoherent_modify fun _ => rfl
  | author name => exact keepsCoherent_modify fun _ => rfl
  | subjects things => exact keepsCoherent_setSubjects things
  | property p negated line =>
    exact keepsCoherent_reviseSubjects line fun _ _ hr h => hr.claim (hf p negated line rfl) h
  | kind kind line => exact keepsCoherent_reviseSubjects line fun _ _ hr h => hr.setKind h
  | placement p target line => exact keepsCoherent_place p target line
  | description text =>
    exact keepsCoherent_get.bind fun _ =>
      keepsCoherent_forM fun key _ => keepsCoherent_describe key text
  | descriptionOf thing text =>
    exact (keepsCoherent_mention thing).bind fun key =>
      (keepsCoherent_describe key text).bind fun _ => keepsCoherent_modify fun _ => rfl
  | remark text line =>
    refine keepsCoherent_get.bind ?_
    intro s
    split
    · exact keepsCoherent_describe _ text
    · exact keepsCoherent_throw _
  | location room direction origin line => exact keepsCoherent_locate room direction origin line
  | newKinds names parent =>
    exact (keepsCoherent_forM fun m _ => keepsCoherent_addKind m parent).bind fun _ =>
      keepsCoherent_modify fun _ => rfl

/-- What is read of a property is one. -/
theorem property_of_soundFacts {v : Vocabulary} {kinds : KindTree} {facts : List Fact}
    (h : SoundFacts v kinds facts) {p : Property} {negated : Bool} {line : Nat}
    (hf : .property p negated line ∈ facts) : p ∈ Property.all := by
  cases h with
  | plain hsound => exact hsound _ hf
  | location => simp at hf

theorem keepsCoherent_hear {v : Vocabulary} {kinds : KindTree} {r : Reading}
    (hr : SoundFacts v kinds r.facts) (scanning : Error) : KeepsCoherent (hear r scanning) := by
  have hfacts : KeepsCoherent (r.facts.forM accept) := by
    refine keepsCoherent_forM fun f hf => keepsCoherent_accept ?_
    rintro p negated line rfl
    exact property_of_soundFacts hr hf
  refine hfacts.bind ?_
  intro _
  split
  · exact keepsCoherent_throw _
  · exact keepsCoherent_pure _

/-! ### Between two sentences -/

/-- The stories between the sentences of a source, from a scanner and a story on: the one
at the start, and the one after each sentence that was taken in. -/
inductive Passes : Scanner → Bool → Story → Story → Prop
  | here (scanner : Scanner) (opening : Bool) (s : Story) : Passes scanner opening s s
  /-- The last sentence breaks off, but what was read of it makes sense. -/
  | broken {scanner : Scanner} {opening : Bool} {s t : Story} {ts : List Token} {e : Error}
    (hsentence : scanner.sentence s.lexicon = .broken ts e)
    (hhear : hear (readTokens s.lexicon opening ts) e s = .ok () t) : Passes scanner opening s t
  /-- The last sentence. -/
  | last {scanner rest : Scanner} {opening : Bool} {s t : Story} {ts : List Token}
    (hsentence : scanner.sentence s.lexicon = .whole ts true rest)
    (hhear : hear (readTokens s.lexicon opening ts) (.internal "a sentence has no end") s =
      .ok () t) : Passes scanner opening s t
  /-- A sentence that others follow. -/
  | next {scanner rest : Scanner} {opening : Bool} {s t u : Story} {ts : List Token}
    (hsentence : scanner.sentence s.lexicon = .whole ts false rest)
    (hhear : hear (readTokens s.lexicon opening ts) (.internal "a sentence has no end") s =
      .ok () t) (hrest : Passes rest false t u) : Passes scanner opening s u

variable {v : Vocabulary} {scanner : Scanner} {opening : Bool} {s t : Story}

/-- Reading to the end passes the story that it ends in. -/
theorem passes_of_readAll (h : readAll scanner opening s = .ok () t) :
    Passes scanner opening s t := by
  fun_induction readAll scanner opening s with
  | case1 scanner opening s ts e hsentence => exact .broken hsentence h
  | case2 => cases h
  | case3 scanner opening s ts rest u hresult hsentence =>
    obtain rfl := (EStateM.Result.ok.inj h).2
    exact .last hsentence hresult
  | case4 scanner opening s ts atEnd rest hsentence u hresult hend ih =>
    obtain rfl : atEnd = false := by simpa using hend
    exact .next hsentence hresult (ih h)

/-- A story that is sound, and in which what is said of each thing is coherent. -/
structure Steady (v : Vocabulary) (s : Story) : Prop where
  sound : s.Sound v
  coherent : ∀ r ∈ s.records, r.Coherent

theorem steady_empty (v : Vocabulary) (maxWords : Nat) : (empty v maxWords).Steady v :=
  ⟨sound_empty v maxWords, nofun⟩

/-- What a sentence makes of a steady story is steady. -/
theorem Steady.hear {ts : List Token} {e : Error} (hs : s.Steady v) (hts : ∀ t ∈ ts, t.Sound)
    (hscan : Ended ts ∨ e.isTextual = true)
    (h : hear (readTokens s.lexicon opening ts) e s = .ok () t) : t.Steady v := by
  have hreading := sound_readTokens hs.sound.lexicon opening hts
  have hadvances := advances_hear hs.sound hreading hscan
  rw [Advances, h] at hadvances
  exact ⟨hadvances.1, keepsCoherent_hear hreading.facts e s () t hs.coherent h⟩

/-- **Every story between two sentences is steady.** -/
theorem Passes.steady (h : Passes scanner opening s t) (hscanner : scanner.Sound)
    (hs : s.Steady v) : t.Steady v := by
  induction h with
  | here => exact hs
  | @broken scanner opening s t ts e hsentence hhear =>
    have hsound := Scanner.sound_sentence (l := s.lexicon) hscanner
    rw [hsentence] at hsound
    exact hs.hear hsound.1 (.inr hsound.2) hhear
  | @last scanner rest opening s t ts hsentence hhear =>
    have hsound := Scanner.sound_sentence (l := s.lexicon) hscanner
    rw [hsentence] at hsound
    exact hs.hear hsound.1 (.inl hsound.2.1) hhear
  | @next scanner rest opening s t u ts hsentence hhear _ ih =>
    have hsound := Scanner.sound_sentence (l := s.lexicon) hscanner
    rw [hsentence] at hsound
    exact ih hsound.2.2 (hs.hear hsound.1 (.inl hsound.2.1) hhear)

/-- What is said of a thing in a story is consistent. -/
structure Consistent (s : Story) (r : Record) : Prop where
  /-- No property is both asserted and denied. -/
  decided : ∀ a ∈ r.assertions, ∀ b ∈ r.assertions, a.property = b.property →
    a.negated = b.negated
  /-- No two properties that are asserted are contraries. -/
  contraries : ∀ a ∈ r.plain, ∀ b ∈ r.plain, b.property.name ∉ a.property.contraries
  /-- No two properties that are denied are each other's only contrary. -/
  opposites : ∀ a ∈ r.assertions, ∀ b ∈ r.assertions, a.negated = true → b.negated = true →
    a.property.areOpposite b.property = false
  /-- The kind, if there is one, makes entities and every property that is asserted fits
  it. -/
  kind : ∀ k line, r.kind = some (k, line) →
    k.type?.isSome = true ∧ ∀ a ∈ r.plain, a.property.fits k = true
  /-- If there is none, what is asserted still leaves one. -/
  candidates : r.kind = none → r.plain ≠ [] → candidates (r.plain.map (·.property)) ≠ []
  /-- No two exits go in one direction. -/
  exits : (r.exits.map (·.direction)).Nodup
  /-- What it is placed in or on is known. -/
  target : ∀ p, r.placement = some p → p.target ∈ s.keys
  /-- Where its exits lead is known. -/
  destinations : ∀ x ∈ r.exits, x.destination ∈ s.keys

theorem Steady.consistent (hs : s.Steady v) : ∀ r ∈ s.records, s.Consistent r := by
  intro r hr
  have hsound := hs.sound.records r hr
  have hrefers := hs.sound.refers r hr
  have hcoherent := hs.coherent r hr
  refine ⟨hsound.decided, hcoherent.contraries, hcoherent.opposites, ?_, hcoherent.candidates,
    hsound.apart, ?_, ?_⟩
  · intro k line hkind
    exact ⟨(hsound.kind k line hkind).supported, hcoherent.kind k line hkind⟩
  · intro p hp
    exact mem_keys_iff.mpr (hrefers.placement p hp)
  · intro x hx
    obtain ⟨room, hroom, -⟩ := hrefers.exits x hx
    exact mem_keys_iff.mpr (Option.isSome_iff_exists.mpr ⟨room, hroom⟩)

/-- **What is said of every thing is consistent at each point between two sentences**, of
whatever source.  If it is read to its end, each thing is settled on a kind that makes
entities and that everything asserted of it fits. -/
theorem consistent_between_sentences (v : Vocabulary) (maxWords : Nat) (source : String) :
    (∀ s, Passes (.ofSource source maxWords) true (.empty v maxWords) s →
      ∀ r ∈ s.records, s.Consistent r) ∧
    (∀ s, ofSource v maxWords source = .ok () s →
      ∀ r ∈ s.records, r.settledKind.type?.isSome = true ∧
        ∀ a ∈ r.plain, a.property.fits r.settledKind = true) := by
  have hsteady : ∀ s, Passes (.ofSource source maxWords) true (.empty v maxWords) s →
      s.Steady v := fun s hs => hs.steady nofun (steady_empty v maxWords)
  refine ⟨fun s hs => (hsteady s hs).consistent, ?_⟩
  intro s hs r hr
  have hs := hsteady s (passes_of_readAll hs)
  exact ⟨(Record.fit_settledKind (hs.sound.records r hr)).supported,
    (hs.coherent r hr).fits_settledKind⟩

/-- A thing that is given no kind, but a property of doors and containers. -/
def lockedBox : String :=
  "A box is locked."

/-- Both kinds are still possible for the box, and a container is the one it becomes. -/
theorem locked_box_is_container :
    ∃ s, ofSource .english 1000 lockedBox = .ok () s ∧ s.keys = ["box"] ∧
      ∀ r ∈ s.records, s.Consistent r ∧ r.kind = none ∧ r.settledKind = .container ∧
        ∀ a ∈ r.plain, a.property.fits .container = true := by
  have hread : (match ofSource .english 1000 lockedBox with
      | .ok _ s => decide (s.keys = ["box"] ∧
          ∀ r ∈ s.records, r.kind = none ∧ r.settledKind = .container)
      | .error .. => false) = true := by
    decide +kernel
  obtain ⟨hpasses, hsettled⟩ := consistent_between_sentences .english 1000 lockedBox
  cases hs : ofSource .english 1000 lockedBox with
  | error e t =>
    rw [hs] at hread
    cases hread
  | ok u s =>
    rw [hs] at hread
    obtain ⟨hkeys, hrecords⟩ := of_decide_eq_true hread
    refine ⟨s, rfl, hkeys, ?_⟩
    intro r hr
    obtain ⟨hkind, hcontainer⟩ := hrecords r hr
    have hfits := (hsettled s hs r hr).2
    rw [hcontainer] at hfits
    exact ⟨hpasses s (passes_of_readAll hs) r hr, hkind, hcontainer, hfits⟩

end Story

end Adventure.Prose
