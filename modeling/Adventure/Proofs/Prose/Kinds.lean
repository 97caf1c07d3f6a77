/-
Kinds that entities can be made of.

A kind that makes entities at all makes rooms if it is a kind of room, and things
otherwise, and each kind has a name that can be read.  This holds of the kinds that are
there from the beginning and of every kind that is added below one of them, so it holds
of whatever kind a sentence can mention.  No two kinds of a tree have one name, because a
name that means a kind already is refused to another.
-/
import Adventure.Proofs.Outcome
import Adventure.Proofs.Text
import Adventure.Prose.Cast
import Mathlib.Data.List.Nodup

namespace Adventure.Prose

/-! ### Sound kinds -/

namespace Kind

/-- The entities of a kind are rooms just if it is a kind of room, and can be declared;
the kind and those above it have names. -/
structure Sound (k : Kind) : Prop where
  types : ∀ t ∈ k.type?, if k.isA .room then t = .room else t = .object ∨ t = .creature
  named : ∀ a ∈ k.lineage, Text.isBlankText a.name = false

/-- A sound kind of which there are entities. -/
structure Fit (k : Kind) : Prop extends k.Sound where
  supported : k.type?.isSome

variable {k : Kind}

theorem Fit.type?_eq (h : k.Fit) : k.type? = some k.entityType := by
  obtain ⟨t, ht⟩ := Option.isSome_iff_exists.mp h.supported
  rw [entityType, ht, Option.getD_some]

theorem Fit.entityType_eq_room (h : k.Fit) (hroom : k.isA .room = true) : k.entityType = .room := by
  have htype := h.types _ h.type?_eq
  rwa [if_pos hroom] at htype

/-- What is not a kind of room makes things. -/
theorem Fit.entityType_cases (h : k.Fit) (hroom : k.isA .room = false) :
    k.entityType = .object ∨ k.entityType = .creature := by
  have htype := h.types _ h.type?_eq
  rwa [hroom, if_neg Bool.false_ne_true] at htype

theorem Fit.isInstantiable (h : k.Fit) : k.entityType.isInstantiable = true := by
  cases hroom : k.isA .room with
  | true => rw [h.entityType_eq_room hroom]; rfl
  | false => rcases h.entityType_cases hroom with htype | htype <;> rw [htype] <;> rfl

end Kind

/-! ### The kinds of a lexicon -/

namespace KindTree

/-- Every kind of the tree is sound, each has a name of its own, and the kinds of the
standard rules are there. -/
structure Sound (t : KindTree) : Prop where
  kinds : ∀ k ∈ t.kinds, k.Sound
  names : (t.kinds.map (·.name)).Nodup
  builtin : standard.kinds ⊆ t.kinds

theorem sound_standard : standard.Sound := by
  have htypes : ∀ k ∈ standard.kinds,
      ∀ t ∈ k.type?, if k.isA .room then t = .room else t = .object ∨ t = .creature := by
    decide
  have hnamed : ∀ k ∈ standard.kinds, ∀ a ∈ k.lineage, Text.isBlankText a.name = false := by
    decide
  exact ⟨fun k hk => ⟨htypes k hk, hnamed k hk⟩, by decide, List.Subset.refl _⟩

theorem defaultKind_mem_standard (p : Preposition) : p.defaultKind ∈ standard.kinds := by
  cases p <;> decide

/-- Of two kinds of a tree that have one name, one is the other. -/
theorem Sound.eq_of_name {t : KindTree} (ht : t.Sound) {k k' : Kind} (hk : k ∈ t.kinds)
    (hk' : k' ∈ t.kinds) (h : k.name = k'.name) : k = k' :=
  List.inj_on_of_nodup_map ht.names hk hk' h

/-- A kind below a sound one is sound, if it has a name. -/
theorem sound_freshKind {t : KindTree} {name : String} {parent : Kind} (hparent : parent.Sound)
    (hname : Text.EndsSolid name.toList) : (t.freshKind name parent).Sound := by
  have hroom : (t.freshKind name parent).isA .room = parent.isA .room := by
    simp [Kind.isA, freshKind, Kind.lineage, Kind.room, Kind.standard]
  refine ⟨?_, ?_⟩
  · rw [hroom]
    exact hparent.types
  · intro a ha
    rw [freshKind, Kind.lineage, List.mem_cons] at ha
    rcases ha with rfl | ha
    · exact Text.not_isBlankText_of_endsSolid (Text.endsSolid_lower hname)
    · exact hparent.named a ha

theorem name_ne_of_lookup?_eq_none {t : KindTree} {word : String} (h : t.lookup? word = none)
    {k : Kind} (hk : k ∈ t.kinds) : k.name ≠ Text.lower word := by
  simp only [lookup?, Option.orElse_eq_orElse, Option.orElse_eq_or, Option.or_eq_none_iff] at h
  intro hname
  have hnone := List.find?_eq_none.mp h.1 k (List.mem_reverse.mpr hk)
  simp [hname] at hnone

/-- **One more kind below a kind of the tree**, under a name that means none yet. -/
theorem Sound.insert {t : KindTree} (ht : t.Sound) {name : String} {parent : Kind}
    (hparent : parent ∈ t.kinds) (hname : Text.EndsSolid name.toList)
    (hfresh : t.lookup? name = none) : (t.insert name parent).Sound := by
  refine ⟨?_, ?_, fun k hk => List.mem_append_left _ (ht.builtin hk)⟩
  · intro k hk
    rw [KindTree.insert, List.mem_append, List.mem_singleton] at hk
    rcases hk with hk | rfl
    · exact ht.kinds k hk
    · exact sound_freshKind (ht.kinds parent hparent) hname
  · rw [KindTree.insert, List.map_append, List.map_singleton, List.nodup_append]
    refine ⟨ht.names, List.nodup_singleton _, ?_⟩
    intro other hother last hlast
    obtain ⟨k, hk, rfl⟩ := List.mem_map.mp hother
    rw [List.mem_singleton.mp hlast]
    exact name_ne_of_lookup?_eq_none hfresh hk

theorem mem_of_lookup? {t : KindTree} {word : String} {k : Kind} (h : t.lookup? word = some k) :
    k ∈ t.kinds := by
  simp only [lookup?, Option.orElse_eq_orElse, Option.orElse_eq_or, Option.or_eq_some_iff] at h
  rcases h with h | ⟨-, h⟩
  · exact List.mem_reverse.mp (List.mem_of_find?_eq_some h)
  · exact List.mem_reverse.mp (List.mem_of_find?_eq_some h)

end KindTree

/-- What a kind can be called. -/
theorem Lexicon.checkKindName_ok_iff {l : Lexicon} {name : String} {maxWords : Nat} :
    l.checkKindName name maxWords = .ok () ↔ (Text.words name).length ≤ maxWords ∧
      l.kind? name = none ∧ Property.ofName? name = none ∧ isWorldly name = false ∧
        EntityType.ofName? name = none := by
  simp only [checkKindName, throw_bind, guard_ok_iff, pure_ok_iff, isKind, Bool.or_eq_true,
    gt_iff_lt, Nat.not_lt, not_or, Bool.not_eq_true, Option.isSome_eq_false_iff,
    Option.isNone_iff_eq_none, and_true, and_assoc]

/-- A word that may become the name of a kind means none yet. -/
theorem Lexicon.kind?_eq_none_of_checkKindName {l : Lexicon} {name : String} {maxWords : Nat}
    {u : Unit} (h : l.checkKindName name maxWords = .ok u) : l.kind? name = none :=
  (checkKindName_ok_iff.mp h).2.1

/-! ### The kinds that properties suggest -/

namespace Property

variable {p q : Property}

/-- Properties hold of kinds of the standard rules and of what is below them. -/
theorem kinds_subset_standard (hp : p ∈ all) : p.kinds ⊆ KindTree.standard.kinds := by
  have hkinds : ∀ p ∈ all, ∀ k ∈ p.kinds, k ∈ KindTree.standard.kinds := by decide
  exact hkinds p hp

theorem eq_of_name (hp : p ∈ all) (hq : q ∈ all) (h : p.name = q.name) : p = q := by
  have hnames : (all.map (·.name)).Nodup := by decide
  exact List.inj_on_of_nodup_map hnames hp hq h

theorem mem_all_of_ofName? {word : String} (h : ofName? word = some p) : p ∈ all := by
  rw [ofName?] at h
  exact List.mem_of_find?_eq_some h

end Property

theorem mem_standard_of_mem_candidates {properties : List Property}
    (h : ∀ p ∈ properties, p ∈ Property.all) {k : Kind} (hk : k ∈ candidates properties) :
    k ∈ KindTree.standard.kinds := by
  obtain ⟨p, hp, hkp⟩ := List.mem_flatMap.mp (List.mem_filter.mp hk).1
  exact Property.kinds_subset_standard (h p hp) hkp

end Adventure.Prose
