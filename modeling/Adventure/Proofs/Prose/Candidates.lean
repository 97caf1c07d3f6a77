/-
The kinds that properties leave.

A property names the most general kinds that it holds of.  A kind that several properties
fit need not be named by any of them, but for each of them it stands below a kind that is
named.  The kinds above one kind form a chain, so one of these is the lowest, and all the
properties fit it.  That is why a search through the named kinds finds a kind whenever
there is one, in whatever tree of kinds.

The table of properties gives more: properties that go together two by two leave a kind
to all of them.  So if one more property leaves none then one of the others alone is in
its way.
-/
import Adventure.Proofs.Letters
import Adventure.Proofs.Prose.Coherence
import Mathlib.Data.List.Find

namespace Adventure.Prose

/-! ### Chains of kinds -/

namespace Kind

variable {a b k : Kind}

/-- Of two kinds above one kind, one is above the other. -/
theorem isA_or_isA (ha : k.isA a = true) (hb : k.isA b = true) :
    a.isA b = true ∨ b.isA a = true := by
  have hsuffix := List.suffix_or_suffix_of_suffix (lineage_suffix_of_mem (isA_iff.mp ha))
    (lineage_suffix_of_mem (isA_iff.mp hb))
  rcases hsuffix with h | h
  · exact .inr (isA_iff.mpr (h.subset a.mem_lineage_self))
  · exact .inl (isA_iff.mpr (h.subset b.mem_lineage_self))

theorem head?_lineage (k : Kind) : k.lineage.head? = some k := by
  cases k <;> rfl

/-- No two kinds stand below each other. -/
theorem isA_antisymm (hab : a.isA b = true) (hba : b.isA a = true) : a = b := by
  have hsuffix := lineage_suffix_of_mem (isA_iff.mp hab)
  have hlineage : b.lineage = a.lineage :=
    hsuffix.eq_of_length_le (lineage_suffix_of_mem (isA_iff.mp hba)).length_le
  have hhead := congrArg List.head? hlineage
  rw [head?_lineage, head?_lineage] at hhead
  exact (Option.some.inj hhead).symm

end Kind

/-! ### The kinds that properties fit -/

namespace Property

variable {p : Property} {k k' : Kind}

theorem fits_iff : p.fits k = true ↔ ∃ a ∈ p.kinds, k.isA a = true :=
  List.any_eq_true

/-- What holds of a kind may hold of what stands below it. -/
theorem fits_of_isA (h : p.fits k = true) (hk : k'.isA k = true) : p.fits k' = true := by
  obtain ⟨a, ha, hka⟩ := fits_iff.mp h
  exact fits_iff.mpr ⟨a, ha, Kind.isA_trans hk hka⟩

theorem fits_of_mem (h : k ∈ p.kinds) : p.fits k = true :=
  fits_iff.mpr ⟨k, h, k.isA_refl⟩

theorem lower_name (hp : p ∈ all) : Text.lower p.name = p.name := by
  have hsmall : (all.all fun p => p.name.toList.all Text.isSmall) = true := by decide
  exact Text.lower_of_isSmall (List.all_eq_true.mp hsmall p hp)

theorem ofName?_name (hp : p ∈ all) : ofName? p.name = some p := by
  have hsome : (ofName? p.name).isSome :=
    List.find?_isSome.mpr ⟨p, hp, by simp [lower_name hp]⟩
  obtain ⟨q, hq⟩ := Option.isSome_iff_exists.mp hsome
  have hname : q.name = p.name := by simpa [lower_name hp] using List.find?_some hq
  rw [hq, eq_of_name (mem_all_of_ofName? hq) hp hname]

end Property

/-- **Above a kind that properties fit, one of them names a kind that they all fit**: of
the named kinds above it, the lowest one. -/
theorem exists_named_fit {ps : List Property} {k : Kind} (hne : ps ≠ [])
    (h : ∀ p ∈ ps, p.fits k = true) :
    ∃ a, k.isA a = true ∧ (∃ p ∈ ps, a ∈ p.kinds) ∧ ∀ p ∈ ps, p.fits a = true := by
  induction ps with
  | nil => exact absurd rfl hne
  | cons p rest ih =>
    obtain ⟨hp, hrest⟩ := List.forall_mem_cons.mp h
    obtain ⟨a, hap, hka⟩ := Property.fits_iff.mp hp
    by_cases hnil : rest = []
    · subst hnil
      exact ⟨a, hka, ⟨p, List.mem_singleton_self p, hap⟩,
        List.forall_mem_singleton.mpr (Property.fits_of_mem hap)⟩
    obtain ⟨b, hkb, ⟨q, hq, hbq⟩, hb⟩ := ih hnil hrest
    -- the lower one of `a`, which the first property names, and `b`, which the others leave
    rcases Kind.isA_or_isA hka hkb with hab | hba
    · refine ⟨a, hka, ⟨p, List.mem_cons_self .., hap⟩, List.forall_mem_cons.mpr ?_⟩
      exact ⟨Property.fits_of_mem hap, fun q hq => Property.fits_of_isA (hb q hq) hab⟩
    · refine ⟨b, hkb, ⟨q, List.mem_cons_of_mem _ hq, hbq⟩, List.forall_mem_cons.mpr ?_⟩
      exact ⟨Property.fits_of_isA (Property.fits_of_mem hap) hba, hb⟩

/-- **Properties leave a candidate just if there is a kind that they fit.** -/
theorem candidates_ne_nil_iff {ps : List Property} (hne : ps ≠ []) :
    candidates ps ≠ [] ↔ ∃ k, ∀ p ∈ ps, p.fits k = true := by
  constructor
  · intro h
    obtain ⟨k, hk⟩ := List.exists_mem_of_ne_nil _ h
    exact ⟨k, (mem_candidates_iff.mp hk).2⟩
  · rintro ⟨k, hk⟩
    obtain ⟨a, -, hnamed, ha⟩ := exists_named_fit hne hk
    exact List.ne_nil_of_mem (mem_candidates_iff.mpr ⟨hnamed, ha⟩)

/-! ### The search in a tree of kinds -/

/-- The trees that come of the standard one by adding kinds below kinds that are there. -/
inductive KindTree.Grown : KindTree → Prop
  | standard : Grown .standard
  | insert {t : KindTree} (ht : Grown t) (name : String) {parent : Kind}
    (hparent : parent ∈ t.kinds) : Grown (t.insert name parent)

theorem KindTree.Grown.standard_subset {t : KindTree} (ht : t.Grown) :
    KindTree.standard.kinds ⊆ t.kinds := by
  induction ht with
  | standard => exact List.Subset.refl _
  | insert _ _ _ ih => exact fun k hk => List.mem_append_left _ (ih hk)

/-- The properties that are asserted plainly, each looked up by its name.  A word that
names no property says nothing. -/
def plainProperties (as : List Assertion) : List Property :=
  (as.filter (! ·.negated)).filterMap fun a => Property.ofName? a.property.name

/-- The kinds that a thing of no known kind may still be of after some assertions, each
once; if no property is asserted plainly, nothing is known of them. -/
def candidateKinds (as : List Assertion) : Option (List Kind) :=
  let ps := plainProperties as
  if ps.isEmpty then none else some (candidates ps).eraseDups

theorem plainProperties_of_known {as : List Assertion} (h : ∀ a ∈ as, a.property ∈ Property.all) :
    plainProperties as = (as.filter (! ·.negated)).map (·.property) := by
  rw [plainProperties, ← List.filterMap_eq_map]
  refine List.filterMap_congr fun a ha => ?_
  exact Property.ofName?_name (h a (List.mem_filter.mp ha).1)

theorem mem_all_of_mem_plainProperties {as : List Assertion} {p : Property}
    (hp : p ∈ plainProperties as) : p ∈ Property.all := by
  obtain ⟨a, -, ha⟩ := List.mem_filterMap.mp hp
  exact Property.mem_all_of_ofName? ha

theorem eraseDups_eq_nil_iff {l : List Kind} : l.eraseDups = [] ↔ l = [] := by
  simp only [List.eq_nil_iff_forall_not_mem, List.mem_eraseDups]

theorem candidateKinds_eq_some_nil_iff {as : List Assertion} (h : plainProperties as ≠ []) :
    candidateKinds as = some [] ↔ candidates (plainProperties as) = [] := by
  rw [candidateKinds, if_neg (by simpa using h), Option.some.injEq, eraseDups_eq_nil_iff]

/-- What the refusal of a property looks for is whether the search comes to nothing. -/
theorem Record.excludedBy?_eq {r : Record} (hr : ∀ a ∈ r.assertions, a.property ∈ Property.all)
    {new : Assertion} (hnew : new.property ∈ Property.all) (hplain : new.negated = false) :
    r.excludedBy? new.property =
      if candidateKinds (r.assertions ++ [new]) = some [] then
        r.plain.find? (fun a => candidateKinds [a, new] = some []) <|> r.plain.head?
      else none := by
  have hknown : ∀ a ∈ r.assertions ++ [new], a.property ∈ Property.all :=
    List.forall_mem_append.mpr ⟨hr, List.forall_mem_singleton.mpr hnew⟩
  have hall : plainProperties (r.assertions ++ [new]) =
      r.plain.map (·.property) ++ [new.property] := by
    rw [plainProperties_of_known hknown]
    simp [plain, hplain]
  have hpair : ∀ a ∈ r.plain, plainProperties [a, new] = [a.property, new.property] := by
    intro a ha
    obtain ⟨hmem, hnegated⟩ := mem_plain_iff.mp ha
    rw [plainProperties_of_known (by simp [hr a hmem, hnew])]
    simp [hnegated, hplain]
  have hfind : r.plain.find? (fun a => candidateKinds [a, new] = some []) =
      r.plain.find? fun a => (candidates [a.property, new.property]).isEmpty := by
    refine List.find?_congr fun a ha => ?_
    rw [Bool.eq_iff_iff, decide_eq_true_iff,
      candidateKinds_eq_some_nil_iff (by simp [hpair a ha]), hpair a ha, List.isEmpty_iff]
  have hempty : candidateKinds (r.assertions ++ [new]) = some [] ↔
      (candidates (r.plain.map (·.property) ++ [new.property])).isEmpty = true := by
    rw [candidateKinds_eq_some_nil_iff (by simp [hall]), hall, List.isEmpty_iff]
  rw [excludedBy?, hfind]
  simp only [hempty]

/-- **The search for kinds is complete.**  In every tree of kinds, if some property is
asserted plainly the search has an answer, and it is empty just if for each kind of the
tree there is a plainly asserted property that does not fit it; all such properties fit
every kind that is found, and every kind that is found is in the tree. -/
theorem candidateKinds_complete {t : KindTree} (ht : t.Grown) {as : List Assertion}
    (hplain : ∃ a ∈ as, a.negated = false ∧ (Property.ofName? a.property.name).isSome) :
    ∃ ks, candidateKinds as = some ks ∧
      (ks = [] ↔ ∀ k ∈ t.kinds, ∃ p ∈ plainProperties as, p.fits k = false) ∧
      ∀ k ∈ ks, k ∈ t.kinds ∧ ∀ p ∈ plainProperties as, p.fits k = true := by
  obtain ⟨a, ha, hnegated, hknown⟩ := hplain
  obtain ⟨p, hp⟩ := Option.isSome_iff_exists.mp hknown
  have hmem : p ∈ plainProperties as :=
    List.mem_filterMap.mpr ⟨a, List.mem_filter.mpr ⟨ha, by simp [hnegated]⟩, hp⟩
  have hne : plainProperties as ≠ [] := List.ne_nil_of_mem hmem
  have hfound : ∀ k ∈ candidates (plainProperties as),
      k ∈ t.kinds ∧ ∀ p ∈ plainProperties as, p.fits k = true := by
    intro k hk
    refine ⟨ht.standard_subset ?_, (mem_candidates_iff.mp hk).2⟩
    exact mem_standard_of_mem_candidates (fun p hp => mem_all_of_mem_plainProperties hp) hk
  refine ⟨(candidates (plainProperties as)).eraseDups, ?_, ?_, ?_⟩
  · rw [candidateKinds, if_neg (by simpa using hne)]
  · rw [eraseDups_eq_nil_iff]
    constructor
    · intro hempty k _
      by_contra hfits
      refine (candidates_ne_nil_iff hne).mpr ⟨k, fun p hp => ?_⟩ hempty
      by_contra hp'
      exact hfits ⟨p, hp, by simpa using hp'⟩
    · intro hnone
      by_contra hsome
      obtain ⟨k, hk⟩ := List.exists_mem_of_ne_nil _ hsome
      obtain ⟨htree, hfits⟩ := hfound k hk
      obtain ⟨p, hp, hp'⟩ := hnone k htree
      rw [hfits p hp] at hp'
      cases hp'
  · intro k hk
    exact hfound k (List.mem_eraseDups.mp hk)

/-- What is open and can be entered, but is not lit. -/
def openBooth : List Assertion :=
  [⟨⟨"open", [.container, .door], ["closed"]⟩, false, 1⟩,
   ⟨⟨"lit", [.thing], ["unlit"]⟩, true, 1⟩,
   ⟨⟨"enterable", [.container, .supporter], []⟩, false, 2⟩]

/-- Among the kinds with a further one below containers, only containers are left for the
booth to be named a kind of. -/
theorem booth_is_container :
    (KindTree.standard.insert "booth" .container).Grown ∧
    ∃ ks, candidateKinds openBooth = some ks ∧ ks = [.container] ∧
      (ks = [] ↔ ∀ k ∈ (KindTree.standard.insert "booth" .container).kinds,
        ∃ p ∈ plainProperties openBooth, p.fits k = false) ∧
      ∀ k ∈ ks, k ∈ (KindTree.standard.insert "booth" .container).kinds ∧
        ∀ p ∈ plainProperties openBooth, p.fits k = true := by
  have hgrown : (KindTree.standard.insert "booth" .container).Grown :=
    .insert .standard "booth" (by decide)
  have hplain : ∃ a ∈ openBooth, a.negated = false ∧
      (Property.ofName? a.property.name).isSome := by
    decide
  have hanswer : candidateKinds openBooth = some [.container] := by decide
  obtain ⟨ks, hks, hempty, hfits⟩ := candidateKinds_complete hgrown hplain
  refine ⟨hgrown, ks, hks, ?_, hempty, hfits⟩
  rw [hanswer] at hks
  exact (Option.some.inj hks).symm

/-! ### Properties that go together -/

/-- The first kind that a property names.  For the properties that name several it is the
kind that they share with other properties. -/
def Property.chief (p : Property) : Kind :=
  p.kinds.headD .thing

theorem Property.chief_mem_kinds {p : Property} (hp : p ∈ all) : p.chief ∈ p.kinds := by
  have hchief : ∀ p ∈ all, p.chief ∈ p.kinds := by decide
  exact hchief p hp

/-- The lists of kinds that properties name. -/
def namedKinds : List (List Kind) :=
  [[.container, .door], [.thing], [.room], [.device], [.person], [.container],
    [.container, .supporter]]

theorem Property.kinds_mem_namedKinds {p : Property} (hp : p ∈ all) : p.kinds ∈ namedKinds := by
  have hkinds : ∀ p ∈ all, p.kinds ∈ namedKinds := by decide
  exact hkinds p hp

/-- A property that goes with one that is not said of all things fits the chief kind of
that one. -/
theorem Property.fits_chief {p q : Property} (hp : p ∈ all) (hq : q ∈ all)
    (h : candidates [p, q] ≠ []) : q.chief = .thing ∨ p.fits q.chief = true := by
  -- it is enough to look at the lists of kinds, of which there are few
  have hlists : ∀ ks ∈ namedKinds, ∀ ls ∈ namedKinds,
      (∃ a ∈ ks, ∃ b ∈ ls, a.related b = true) →
        ls.headD .thing = .thing ∨ ks.any (ls.headD .thing).isA = true := by
    decide
  obtain ⟨k, hk⟩ := (candidates_ne_nil_iff (List.cons_ne_nil _ _)).mp h
  obtain ⟨a, ha, hka⟩ := fits_iff.mp (hk p (by simp))
  obtain ⟨b, hb, hkb⟩ := fits_iff.mp (hk q (by simp))
  refine hlists _ (kinds_mem_namedKinds hp) _ (kinds_mem_namedKinds hq) ⟨a, ha, b, hb, ?_⟩
  rw [Kind.related, Bool.or_eq_true]
  exact Kind.isA_or_isA hka hkb

/-- **Properties that leave a kind two by two leave one to all of them.** -/
theorem candidates_ne_nil_of_pairs {ps : List Property} (hne : ps ≠ [])
    (hall : ∀ p ∈ ps, p ∈ Property.all)
    (h : ∀ p ∈ ps, ∀ q ∈ ps, candidates [p, q] ≠ []) : candidates ps ≠ [] := by
  refine (candidates_ne_nil_iff hne).mpr ?_
  by_cases hchief : ∀ q ∈ ps, q.chief = .thing
  · refine ⟨.thing, fun p hp => Property.fits_of_mem ?_⟩
    exact hchief p hp ▸ Property.chief_mem_kinds (hall p hp)
  · push Not at hchief
    obtain ⟨q, hq, hthing⟩ := hchief
    refine ⟨q.chief, fun p hp => ?_⟩
    exact (Property.fits_chief (hall p hp) (hall q hq) (h p hp q hq)).resolve_left hthing

/-- **One property more that leaves no kind is excluded by one of the others alone.** -/
theorem exists_excluding {ps : List Property} {p : Property} (hps : ∀ q ∈ ps, q ∈ Property.all)
    (hp : p ∈ Property.all) (hrest : ps ≠ [] → candidates ps ≠ [])
    (h : candidates (ps ++ [p]) = []) : ∃ q ∈ ps, candidates [q, p] = [] := by
  by_contra hnone
  push Not at hnone
  have hcomm : ∀ q, candidates [q, p] ≠ [] → candidates [p, q] ≠ [] := by
    intro q hq
    rw [candidates_ne_nil_iff (List.cons_ne_nil _ _)] at hq ⊢
    obtain ⟨k, hk⟩ := hq
    exact ⟨k, by simpa [and_comm] using hk⟩
  have hold : ∀ q ∈ ps, ∀ q' ∈ ps, candidates [q, q'] ≠ [] := by
    intro q hq q' hq'
    obtain ⟨k, hk⟩ := (candidates_ne_nil_iff (List.ne_nil_of_mem hq)).mp
      (hrest (List.ne_nil_of_mem hq))
    refine (candidates_ne_nil_iff (List.cons_ne_nil _ _)).mpr ⟨k, ?_⟩
    simp [hk q hq, hk q' hq']
  have hself : candidates [p, p] ≠ [] := by
    refine (candidates_ne_nil_iff (List.cons_ne_nil _ _)).mpr ⟨p.chief, ?_⟩
    simp [Property.fits_of_mem (Property.chief_mem_kinds hp)]
  refine candidates_ne_nil_of_pairs (by simp) ?_ ?_ h
  · exact List.forall_mem_append.mpr ⟨hps, List.forall_mem_singleton.mpr hp⟩
  · exact Record.forall_mem_concat₂ hold hself (fun q hq => hcomm q (hnone q hq)) hnone

/-- **What is blamed for leaving no kind leaves none together with the new property.** -/
theorem Record.Coherent.excludes {r : Record} {p : Property} {a : Assertion} (hr : r.Coherent)
    (hkind : r.kind = none) (hp : p ∈ Property.all) (h : r.excludedBy? p = some a) :
    a ∈ r.plain ∧ Prose.candidates [a.property, p] = [] := by
  have hps : ∀ q ∈ r.plain.map (·.property), q ∈ Property.all := by
    intro q hq
    obtain ⟨b, hb, rfl⟩ := List.mem_map.mp hq
    exact hr.properties b (mem_plain_iff.mp hb).1
  unfold excludedBy? at h
  split at h
  · rename_i hempty
    obtain ⟨q, hq, hexcluded⟩ := exists_excluding hps hp
      (fun hne => hr.candidates hkind (by simpa using hne)) (List.isEmpty_iff.mp hempty)
    obtain ⟨b, hb, rfl⟩ := List.mem_map.mp hq
    -- so the search among the single ones finds one, and the fallback is not needed
    have hsome : (r.plain.find? fun b => (Prose.candidates [b.property, p]).isEmpty).isSome :=
      List.find?_isSome.mpr ⟨b, hb, List.isEmpty_iff.mpr hexcluded⟩
    obtain ⟨found, hfound⟩ := Option.isSome_iff_exists.mp hsome
    rw [hfound] at h
    obtain rfl : found = a := by simpa using h
    exact ⟨List.mem_of_find?_eq_some hfound, by simpa using List.find?_some hfound⟩
  · cases h

end Adventure.Prose
