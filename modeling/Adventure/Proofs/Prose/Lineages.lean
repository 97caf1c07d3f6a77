/-
Lines of descent.

A kind holds the kinds above it.  In a tree it can also be told by its place in the order of
adding, and the kind directly above it by the place of that one; then what a kind is a kind of
is found by going up from place to place.  That this comes to an end, and always at the root,
is no matter of how kinds are made but of how trees are: a kind stands behind the one directly
above it, because that one was there when it was added.

One induction over the kinds above a kind shows that going up passes just these.  A kind that
is added takes a place of its own behind all others, so whoever goes up from a kind that was
there before never comes to it.
-/
import Adventure.Proofs.Prose.Candidates

namespace Adventure.Prose.KindTree

variable {t : KindTree} {k a b parent : Kind} {name : String} {i j : Nat} {is js : List Nat}

/-! ### Trees of kinds -/

/-- The trees that come of the root alone, or of the standard kinds, by adding kinds below
kinds that are there. -/
inductive Built : KindTree → Prop
  | bare : Built .bare
  | standard : Built .standard
  | insert {t : KindTree} (ht : Built t) (name : String) {parent : Kind}
    (hparent : parent ∈ t.kinds) : Built (t.insert name parent)

/-- The kinds of a tree are numbered by their places, each behind the kind directly above it. -/
structure Numbered (t : KindTree) : Prop where
  index : t.kinds.map (·.index) = List.range t.size
  /-- Only the root has no kind above it. -/
  root : ∀ k ∈ t.kinds, k.parent? = none → k = .object
  parent : ∀ k ∈ t.kinds, ∀ parent ∈ k.parent?, parent ∈ t.kinds ∧ parent.index < k.index
  /-- What was added makes entities as the kind directly above it does. -/
  type : ∀ k ∈ t.kinds, k.isBuiltin = false → ∃ parent ∈ k.parent?, k.type? = parent.type?

theorem numbered_bare : bare.Numbered :=
  ⟨by decide, by decide, by decide, by decide⟩

theorem numbered_standard : standard.Numbered :=
  ⟨by decide, by decide, by decide, by decide⟩

theorem Numbered.index_eq (ht : t.Numbered) (h : t.kinds[i]? = some k) : k.index = i := by
  have hindex : (t.kinds.map (·.index))[i]? = some k.index := by
    rw [List.getElem?_map, h, Option.map_some]
  rw [ht.index] at hindex
  obtain ⟨hi, hplace⟩ := List.getElem?_eq_some_iff.mp hindex
  exact hplace.symm.trans (List.getElem_range hi)

theorem Numbered.getElem? (ht : t.Numbered) (hk : k ∈ t.kinds) : t.kinds[k.index]? = some k := by
  obtain ⟨i, h⟩ := List.mem_iff_getElem?.mp hk
  rw [ht.index_eq h, h]

theorem Numbered.index_lt (ht : t.Numbered) (hk : k ∈ t.kinds) : k.index < t.size :=
  (List.getElem?_eq_some_iff.mp (ht.getElem? hk)).1

/-- No two kinds of a tree have one place. -/
theorem Numbered.eq_of_index (ht : t.Numbered) (ha : a ∈ t.kinds) (hb : b ∈ t.kinds)
    (h : a.index = b.index) : a = b := by
  have hplace := ht.getElem? ha
  rw [h, ht.getElem? hb] at hplace
  exact (Option.some.inj hplace).symm

/-- **One more kind below a kind of the tree** takes the next place. -/
theorem Numbered.insert (ht : t.Numbered) (name : String) (hparent : parent ∈ t.kinds) :
    (t.insert name parent).Numbered := by
  have hfresh : (t.freshKind name parent).parent? = some parent := rfl
  refine ⟨?_, ?_, ?_, ?_⟩
  · rw [size_insert, List.range_succ, ← ht.index, KindTree.insert, List.map_append]
    rfl
  · intro k hk hnone
    obtain hk | hk := List.mem_append.mp hk
    · exact ht.root k hk hnone
    · rw [List.mem_singleton.mp hk, hfresh] at hnone
      cases hnone
  · intro k hk above habove
    obtain hk | hk := List.mem_append.mp hk
    · obtain ⟨hmem, hlt⟩ := ht.parent k hk above habove
      exact ⟨List.mem_append_left _ hmem, hlt⟩
    · rw [List.mem_singleton.mp hk] at habove ⊢
      obtain rfl := Option.some.inj habove
      exact ⟨List.mem_append_left _ hparent, ht.index_lt hparent⟩
  · intro k hk hbuiltin
    obtain hk | hk := List.mem_append.mp hk
    · exact ht.type k hk hbuiltin
    · rw [List.mem_singleton.mp hk]
      exact ⟨parent, hfresh, rfl⟩

/-- **The kinds of every tree are numbered by their places.** -/
theorem Built.numbered (ht : t.Built) : t.Numbered := by
  induction ht with
  | bare => exact numbered_bare
  | standard => exact numbered_standard
  | insert _ name hparent ih => exact ih.insert name hparent

/-! ### Going up -/

/-- Going up from a place, from each kind to the place of the kind directly above it, passes
some places and comes to an end at a kind with none above it. -/
inductive Climbs (t : KindTree) : Nat → List Nat → Prop
  | top {i : Nat} {k : Kind} (hk : t.kinds[i]? = some k) (h : k.parent? = none) : Climbs t i [i]
  | up {i : Nat} {k parent : Kind} {is : List Nat} (hk : t.kinds[i]? = some k)
    (h : k.parent? = some parent) (hrest : Climbs t parent.index is) : Climbs t i (i :: is)

/-- One place is another, or is come to by going up from there. -/
def Reaches (t : KindTree) (i j : Nat) : Prop :=
  ∃ is, t.Climbs i is ∧ j ∈ is

/-- There is one way up. -/
theorem Climbs.unique (h : t.Climbs i is) (h' : t.Climbs i js) : is = js := by
  induction h generalizing js with
  | top hk hnone =>
    cases h' with
    | top => rfl
    | up hk' habove =>
      obtain rfl := Option.some.inj (hk.symm.trans hk')
      rw [hnone] at habove
      cases habove
  | up hk habove _ ih =>
    cases h' with
    | top hk' hnone =>
      obtain rfl := Option.some.inj (hk.symm.trans hk')
      rw [habove] at hnone
      cases hnone
    | up hk' habove' hrest =>
      obtain rfl := Option.some.inj (hk.symm.trans hk')
      obtain rfl := Option.some.inj (habove.symm.trans habove')
      rw [ih hrest]

theorem getElem?_insert (hi : i < t.size) (name : String) (parent : Kind) :
    (t.insert name parent).kinds[i]? = t.kinds[i]? := by
  rw [KindTree.insert, List.getElem?_append_left hi]

/-- What is added is never come to. -/
theorem Climbs.insert (h : t.Climbs i is) (name : String) (parent : Kind) :
    (t.insert name parent).Climbs i is := by
  have hkept : ∀ {i : Nat} {k : Kind}, t.kinds[i]? = some k →
      (t.insert name parent).kinds[i]? = some k := fun hk =>
    (getElem?_insert (List.getElem?_eq_some_iff.mp hk).1 name parent).trans hk
  induction h with
  | top hk hnone => exact .top (hkept hk) hnone
  | up hk habove _ ih => exact .up (hkept hk) habove ih

theorem Numbered.mem_of_lineage (ht : t.Numbered) (hk : k ∈ t.kinds) :
    ∀ a ∈ k.lineage, a ∈ t.kinds := by
  induction k with
  | root label => simpa [Kind.lineage] using hk
  | under parent label ih =>
    exact List.forall_mem_cons.mpr ⟨hk, ih (ht.parent _ hk parent rfl).1⟩

theorem Numbered.climbs (ht : t.Numbered) (hk : k ∈ t.kinds) :
    t.Climbs k.index (k.lineage.map (·.index)) := by
  induction k with
  | root label => exact .top (ht.getElem? hk) rfl
  | under parent label ih => exact .up (ht.getElem? hk) rfl (ih (ht.parent _ hk parent rfl).1)

theorem Numbered.getLast?_lineage (ht : t.Numbered) (hk : k ∈ t.kinds) :
    k.lineage.getLast? = some .object := by
  induction k with
  | root label =>
    rw [ht.root _ hk rfl]
    rfl
  | under parent label ih =>
    have hne : parent.lineage ≠ [] := List.ne_nil_of_mem parent.mem_lineage_self
    rw [Kind.lineage, List.getLast?_cons_of_ne_nil hne]
    exact ih (ht.parent _ hk parent rfl).1

/-- What stands above a kind was there before it. -/
theorem Numbered.pairwise_lineage (ht : t.Numbered) (hk : k ∈ t.kinds) :
    (k.lineage.map (·.index)).Pairwise (· > ·) := by
  induction k with
  | root label => exact List.pairwise_singleton ..
  | under parent label ih =>
    obtain ⟨hparent, hlt⟩ := ht.parent _ hk parent rfl
    have hrest := ih hparent
    refine List.pairwise_cons.mpr ⟨?_, hrest⟩
    -- the kind directly above is the last of those above, so being behind it is enough
    obtain ⟨rest, hlineage⟩ : ∃ rest, parent.lineage = parent :: rest := by
      cases parent with
      | root label => exact ⟨[], rfl⟩
      | under above label => exact ⟨above.lineage, rfl⟩
    rw [hlineage, List.map_cons] at hrest ⊢
    refine List.forall_mem_cons.mpr ⟨hlt, fun i hi => ?_⟩
    exact Nat.lt_trans ((List.pairwise_cons.mp hrest).1 i hi) hlt

/-- **A kind is a kind of another just if going up from its place comes to the other's.** -/
theorem Numbered.isA_iff_reaches (ht : t.Numbered) (ha : a ∈ t.kinds) (hb : b ∈ t.kinds) :
    a.isA b = true ↔ t.Reaches a.index b.index := by
  rw [Kind.isA_iff]
  constructor
  · exact fun h => ⟨_, ht.climbs ha, List.mem_map_of_mem h⟩
  · rintro ⟨is, hclimbs, hmem⟩
    rw [hclimbs.unique (ht.climbs ha)] at hmem
    obtain ⟨c, hc, hindex⟩ := List.mem_map.mp hmem
    exact ht.eq_of_index (ht.mem_of_lineage ha c hc) hb hindex ▸ hc

/-! ### The order of kinds -/

/-- What holds of the order in which the kinds of a tree stand above each other. -/
structure Forest (t : KindTree) : Prop where
  /-- Going up from any place comes to an end, passes no place twice and ends at the root; it
  passes the kinds above the one that it begins at. -/
  lineage : ∀ i < t.size, ∃ k, t.kinds[i]? = some k ∧ t.Climbs i (k.lineage.map (·.index)) ∧
    (k.lineage.map (·.index)).Nodup ∧ k.lineage.getLast? = some .object ∧
      (k.lineage.map (·.index)).getLast? = some 0
  /-- What a kind is a kind of is what going up comes to. -/
  reaches : ∀ a ∈ t.kinds, ∀ b ∈ t.kinds, (a.isA b = true ↔ t.Reaches a.index b.index) ∧
    (a.related b = true ↔ t.Reaches a.index b.index ∨ t.Reaches b.index a.index)
  refl : ∀ a ∈ t.kinds, a.isA a = true
  antisymm : ∀ a ∈ t.kinds, ∀ b ∈ t.kinds, a.isA b = true → b.isA a = true → a = b
  trans : ∀ a ∈ t.kinds, ∀ b ∈ t.kinds, ∀ c ∈ t.kinds, a.isA b = true → b.isA c = true →
    a.isA c = true
  root : Kind.object ∈ t.kinds ∧ ∀ k ∈ t.kinds, k.isA .object = true
  /-- The kinds above one kind are a chain. -/
  chain : ∀ k ∈ t.kinds, ∀ a ∈ t.kinds, ∀ b ∈ t.kinds, k.isA a = true → k.isA b = true →
    a.related b = true
  /-- What was added makes entities as the kind directly above it does. -/
  type : ∀ k ∈ t.kinds, k.isBuiltin = false →
    ∃ parent ∈ t.kinds, k.parent? = some parent ∧ k.type? = parent.type?
  /-- One more kind changes the way up from no place, and what comes of it. -/
  insert : ∀ name, ∀ parent ∈ t.kinds, ∀ i < t.size,
    (t.insert name parent).kinds[i]? = t.kinds[i]? ∧
    (∀ is, (t.insert name parent).Climbs i is ↔ t.Climbs i is) ∧
      ∀ j < t.size, ((t.insert name parent).Reaches i j ↔ t.Reaches i j) ∧
        ((t.insert name parent).Reaches i j ∨ (t.insert name parent).Reaches j i ↔
          t.Reaches i j ∨ t.Reaches j i)

theorem Numbered.climbs_insert_iff (ht : t.Numbered) (hi : i < t.size) (name : String)
    (parent : Kind) (is : List Nat) : (t.insert name parent).Climbs i is ↔ t.Climbs i is := by
  constructor
  · intro h
    -- there is a way up already, and no other can be there afterwards
    have hk : t.kinds[i]? = some t.kinds[i] := List.getElem?_eq_getElem hi
    have hclimbs := ht.climbs (List.mem_of_getElem? hk)
    rw [ht.index_eq hk] at hclimbs
    rw [h.unique (hclimbs.insert name parent)]
    exact hclimbs
  · exact fun h => h.insert name parent

theorem Numbered.reaches_insert_iff (ht : t.Numbered) (hi : i < t.size) (name : String)
    (parent : Kind) (j : Nat) : (t.insert name parent).Reaches i j ↔ t.Reaches i j :=
  exists_congr fun is => and_congr_left' (ht.climbs_insert_iff hi name parent is)

theorem Built.object_mem (ht : t.Built) : Kind.object ∈ t.kinds := by
  induction ht with
  | bare | standard => decide
  | insert _ _ _ ih => exact List.mem_append_left _ ih

/-- **The kinds of every tree stand above each other as in a tree.**  Whatever is added below
whatever kinds, each line of descent is finite, without repetition, and ends at the root;
being a kind of another is a partial order with the root above all; what stands above one kind
is a chain; what is added makes the entities of the kind above it, and changes nothing for the
kinds that are there. -/
theorem lineages_are_chains (ht : t.Built) : t.Forest := by
  have hnumbered := ht.numbered
  have hobject := ht.object_mem
  refine ⟨?_, ?_, ?_, ?_, ?_, ⟨hobject, ?_⟩, ?_, ?_, ?_⟩
  · intro i hi
    have hk : t.kinds[i]? = some t.kinds[i] := List.getElem?_eq_getElem hi
    have hmem : t.kinds[i] ∈ t.kinds := List.getElem_mem hi
    have hclimbs := hnumbered.climbs hmem
    have hlast := hnumbered.getLast?_lineage hmem
    rw [hnumbered.index_eq hk] at hclimbs
    refine ⟨_, hk, hclimbs, ?_, hlast, ?_⟩
    · exact (hnumbered.pairwise_lineage hmem).imp fun hlt => Nat.ne_of_gt hlt
    · rw [List.getLast?_map, hlast]
      rfl
  · intro a ha b hb
    have hab := hnumbered.isA_iff_reaches ha hb
    refine ⟨hab, ?_⟩
    rw [Kind.related, Bool.or_eq_true, hab, hnumbered.isA_iff_reaches hb ha]
  · exact fun a _ => a.isA_refl
  · exact fun a _ b _ => Kind.isA_antisymm
  · exact fun a _ b _ c _ => Kind.isA_trans
  · intro k hk
    exact Kind.isA_iff.mpr (List.mem_of_getLast? (hnumbered.getLast?_lineage hk))
  · intro k _ a _ b _ ha hb
    rw [Kind.related, Bool.or_eq_true]
    exact Kind.isA_or_isA ha hb
  · intro k hk hbuiltin
    obtain ⟨parent, hparent, htype⟩ := hnumbered.type k hk hbuiltin
    exact ⟨parent, (hnumbered.parent k hk parent hparent).1, hparent, htype⟩
  · intro name parent _ i hi
    refine ⟨getElem?_insert hi name parent, hnumbered.climbs_insert_iff hi name parent,
      fun j hj => ?_⟩
    rw [hnumbered.reaches_insert_iff hi, hnumbered.reaches_insert_iff hj]
    exact ⟨Iff.rfl, Iff.rfl⟩

/-- The standard kinds with jars, and pickle jars below them. -/
def jars : KindTree :=
  let t := KindTree.standard.insert "jar" .container
  t.insert "pickle jar" (KindTree.standard.freshKind "jar" .container)

/-- A pickle jar is a container by way of the jars; from its place the way up leads to the root
in five steps. -/
theorem pickle_jar_is_container :
    jars.Built ∧ jars.Forest ∧ jars.Climbs 17 [17, 16, 6, 2, 0] ∧ jars.Reaches 17 6 := by
  have hbuilt : jars.Built :=
    .insert (.insert .standard "jar" (by decide)) "pickle jar" (by decide)
  have hforest := lineages_are_chains hbuilt
  obtain ⟨k, hk, hclimbs, -⟩ := hforest.lineage 17 (by decide)
  have hlineage : jars.kinds[17]?.map (·.lineage.map (·.index)) = some [17, 16, 6, 2, 0] := by
    decide
  rw [hk, Option.map_some] at hlineage
  rw [Option.some.inj hlineage] at hclimbs
  exact ⟨hbuilt, hforest, hclimbs, _, hclimbs, by decide⟩

end Adventure.Prose.KindTree
