/-
Kinds that are stated one after another.

A thing may be given a kind more than once, in any order, as in "The coffer is a
container.  The coffer is a chest."  A new kind is compared with the kind that the thing
holds, and with no other.  That is enough: the thing holds the most special of the kinds
that were stated, the others are all above it, and the kinds above one kind form a chain.
That the thing holds this kind is what one statement more preserves.
-/
import Adventure.Proofs.Prose.Statements

namespace Adventure.Prose

namespace Kind

variable {a b k : Kind}

theorem related_comm : a.related b = b.related a := by
  rw [related, related, Bool.or_comm]

theorem related_refl (k : Kind) : k.related k = true := by
  rw [related, isA_refl, Bool.or_self]

/-- Two kinds above one kind are related. -/
theorem related_of_isA (ha : k.isA a = true) (hb : k.isA b = true) : a.related b = true := by
  rw [related, Bool.or_eq_true]
  exact isA_or_isA ha hb

end Kind

/-- All that stands above a kind of a tree is in the tree. -/
theorem KindTree.Grown.lineage_subset {t : KindTree} (ht : t.Grown) :
    ∀ k ∈ t.kinds, k.lineage ⊆ t.kinds := by
  induction ht with
  | standard => decide
  | @insert t ht name parent hparent ih =>
    intro k hk a ha
    rw [KindTree.insert, List.mem_append, List.mem_singleton] at hk ⊢
    rcases hk with hk | rfl
    · exact .inl (ih k hk ha)
    · rw [freshKind, Kind.lineage, List.mem_cons] at ha
      rcases ha with rfl | ha
      · exact .inr rfl
      · exact .inl (ih parent hparent ha)

namespace Record

variable {r r' : Record} {stated : List (Kind × Nat)} {kind : Kind} {line : Nat}

/-- Gives a thing kinds one after another, each on the line that states it. -/
def setKinds (r : Record) (stated : List (Kind × Nat)) : Except Conflict Record :=
  stated.foldlM (fun r s => r.setKind s.1 s.2) r

theorem setKinds_concat :
    r.setKinds (stated ++ [(kind, line)]) = .ok r' ↔
      ∃ held, r.setKinds stated = .ok held ∧ held.setKind kind line = .ok r' := by
  simp [setKinds, List.foldlM_append, bind_ok_iff]

/-! ### The kind that a thing holds -/

/-- A record without properties holds the most special of the kinds that were stated, with
the line that stated it first. -/
structure Settled (r : Record) (stated : List (Kind × Nat)) : Prop where
  plain : r.plain = []
  unstated : stated = [] → r.kind = none
  lowest : stated ≠ [] → ∃ k line, r.kind = some (k, line) ∧
    stated.find? (·.1 = k) = some (k, line) ∧ ∀ s ∈ stated, k.isA s.1 = true

namespace Settled

/-- The kind that is held was stated. -/
theorem exists_mem (hr : r.Settled stated) {k : Kind} {l : Nat} (hkind : r.kind = some (k, l)) :
    (k, l) ∈ stated ∧ stated.find? (·.1 = k) = some (k, l) ∧ ∀ s ∈ stated, k.isA s.1 = true := by
  have hne : stated ≠ [] := fun hnil => by simp [hr.unstated hnil] at hkind
  obtain ⟨k', l', hkind', hfind, hlowest⟩ := hr.lowest hne
  rw [hkind] at hkind'
  cases hkind'
  exact ⟨List.mem_of_find?_eq_some hfind, hfind, hlowest⟩

/-- **To go with the kind that is held is to go with all that were stated.** -/
theorem accepts_iff (hr : r.Settled stated) :
    (∃ r', r.setKind kind line = .ok r') ↔
      kind.type?.isSome = true ∧ ∀ s ∈ stated, s.1.related kind = true := by
  simp only [setKind_ok_iff, hr.plain]
  constructor
  · rintro ⟨r', htype, merged, hmerge, -⟩
    obtain ⟨hkind, hearlier, -⟩ := mergeKind_ok hmerge
    refine ⟨htype, fun s hs => ?_⟩
    obtain ⟨k, l, hk, -, hlowest⟩ := hr.lowest (List.ne_nil_of_mem hs)
    exact Kind.related_of_isA (Kind.isA_trans (hearlier k l hk) (hlowest s hs)) hkind
  · rintro ⟨htype, hrelated⟩
    obtain ⟨merged, hmerge⟩ : ∃ merged, r.mergeKind kind = .ok merged := by
      cases hkind : r.kind with
      | none => exact ⟨kind, mergeKind_of_none hkind⟩
      | some held =>
        obtain ⟨k, l⟩ := held
        have hk : k.related kind = true := hrelated (k, l) (hr.exists_mem hkind).1
        simp [mergeKind, hkind, hk]
    exact ⟨_, htype, merged, hmerge, List.forall_mem_nil _, rfl⟩

/-- One more kind: the thing moves to it if it is more special, and else stays. -/
theorem setKind (hr : r.Settled stated) (h : r.setKind kind line = .ok r') :
    r'.Settled (stated ++ [(kind, line)]) := by
  obtain ⟨-, merged, hmerge, -, rfl⟩ := setKind_ok_iff.mp h
  obtain ⟨hkind, hearlier, hone⟩ := mergeKind_ok hmerge
  refine ⟨hr.plain, fun hnil => absurd hnil (by simp), fun _ => ⟨merged, _, rfl, ?_, ?_⟩⟩
  · rw [List.find?_append]
    cases hheld : r.kind with
    | none =>
      obtain rfl : merged = kind := by simpa [hheld] using hone
      have hnil : stated = [] := by
        by_contra hne
        obtain ⟨k, l, hk, -⟩ := hr.lowest hne
        simp [hheld] at hk
      simp [hnil, kindLine, hheld]
    | some held =>
      obtain ⟨k, l⟩ := held
      obtain ⟨-, hfind, hlowest⟩ := hr.exists_mem hheld
      by_cases hsame : k = merged
      · subst hsame
        simp [kindLine, hheld, hfind]
      · -- a kind that the thing moves to is below the one it held, so it was not stated before
        obtain rfl : merged = kind := by
          simpa [hheld, hsame] using hone
        have hnew : stated.find? (·.1 = merged) = none := by
          rw [List.find?_eq_none]
          intro s hs hmerged
          refine hsame (Kind.isA_antisymm ?_ (hearlier k l hheld))
          rw [← of_decide_eq_true hmerged]
          exact hlowest s hs
        simp [kindLine, hheld, hsame, hnew]
  · intro s hs
    rcases List.mem_append.mp hs with hs | hs
    · obtain ⟨k, l, hk, -, hlowest⟩ := hr.lowest (List.ne_nil_of_mem hs)
      exact Kind.isA_trans (hearlier k l hk) (hlowest s hs)
    · rw [List.mem_singleton.mp hs]
      exact hkind

end Settled

/-! ### Any number of kinds -/

/-- **After any accepted statements a thing holds the most special kind**, and nothing else
of it has changed. -/
theorem settled_of_setKinds (hkind : r.kind = none) (hplain : r.plain = [])
    (h : r.setKinds stated = .ok r') : r'.Settled stated ∧ r' = { r with kind := r'.kind } := by
  induction stated using List.reverseRecOn generalizing r' with
  | nil =>
    obtain rfl : r' = r := pure_ok_iff.mp h
    exact ⟨⟨hplain, fun _ => hkind, fun hne => absurd rfl hne⟩, rfl⟩
  | append_singleton stated s ih =>
    obtain ⟨held, hheld, hlast⟩ := setKinds_concat.mp h
    obtain ⟨hsettled, hsame⟩ := ih hheld
    refine ⟨hsettled.setKind hlast, ?_⟩
    obtain ⟨-, merged, -, -, rfl⟩ := setKind_ok_iff.mp hlast
    rw [hsame]

/-- **Kinds are accepted one after another just if any two of them are related.** -/
theorem setKinds_ok_iff (hkind : r.kind = none) (hplain : r.plain = [])
    (htypes : ∀ s ∈ stated, s.1.type?.isSome = true) :
    (∃ r', r.setKinds stated = .ok r') ↔ ∀ a ∈ stated, ∀ b ∈ stated, a.1.related b.1 = true := by
  induction stated using List.reverseRecOn with
  | nil => exact ⟨fun _ => nofun, fun _ => ⟨r, rfl⟩⟩
  | append_singleton stated s ih =>
    obtain ⟨htypes, htype⟩ := List.forall_mem_append.mp htypes
    specialize ih htypes
    have hpairs : (∀ a ∈ stated ++ [s], ∀ b ∈ stated ++ [s], a.1.related b.1 = true) ↔
        (∀ a ∈ stated, ∀ b ∈ stated, a.1.related b.1 = true) ∧
          ∀ a ∈ stated, a.1.related s.1 = true := by
      simp only [List.forall_mem_append, List.forall_mem_singleton, Kind.related_refl, and_true]
      simp only [forall_and, @Kind.related_comm s.1, and_assoc, and_self]
    rw [hpairs, ← ih]
    constructor
    · rintro ⟨r', h⟩
      obtain ⟨held, hheld, hlast⟩ := setKinds_concat.mp h
      have hsettled := (settled_of_setKinds hkind hplain hheld).1
      exact ⟨⟨held, hheld⟩, (hsettled.accepts_iff.mp ⟨r', hlast⟩).2⟩
    · rintro ⟨⟨held, hheld⟩, hrelated⟩
      have hsettled := (settled_of_setKinds hkind hplain hheld).1
      obtain ⟨r', hlast⟩ := hsettled.accepts_iff.mpr
        ⟨htype s (List.mem_singleton_self s), hrelated⟩
      exact ⟨r', setKinds_concat.mpr ⟨held, hheld, hlast⟩⟩

/-- **Kinds that are stated again and again settle on the most special one.**  In every tree
of kinds, and for a thing with no kind and no plain property, any kinds of the tree that
there are entities of are accepted one after another just if any two of them are related.
The thing then holds the one that is below all of them, on the line that stated it first;
and with every statement on the way it either stays what it was or becomes more special. -/
theorem setKinds_settle {t : KindTree} (ht : t.Grown) (hkind : r.kind = none)
    (hplain : r.plain = [])
    (hstated : ∀ s ∈ stated, s.1 ∈ t.kinds ∧ s.1.type?.isSome = true) :
    ((∃ r', r.setKinds stated = .ok r') ↔
      ∀ a ∈ stated, ∀ b ∈ stated, a.1.related b.1 = true) ∧
    (∀ r', r.setKinds stated = .ok r' →
      r' = { r with kind := r'.kind } ∧ (stated = [] → r'.kind = none) ∧
      (stated ≠ [] → ∃ k line, r'.kind = some (k, line) ∧ k.lineage ⊆ t.kinds ∧
        stated.find? (·.1 = k) = some (k, line) ∧ ∀ s ∈ stated, k.isA s.1 = true)) ∧
    ∀ part more, part <+: more → more <+: stated → ∀ r₁ r₂, r.setKinds part = .ok r₁ →
      r.setKinds more = .ok r₂ → ∀ k₁ l₁, r₁.kind = some (k₁, l₁) →
        ∃ k₂ l₂, r₂.kind = some (k₂, l₂) ∧ k₂.isA k₁ = true := by
  refine ⟨setKinds_ok_iff hkind hplain fun s hs => (hstated s hs).2, ?_, ?_⟩
  · intro r' h
    obtain ⟨hsettled, hsame⟩ := settled_of_setKinds hkind hplain h
    refine ⟨hsame, hsettled.unstated, fun hne => ?_⟩
    obtain ⟨k, l, hk, hfind, hlowest⟩ := hsettled.lowest hne
    have hmem : k ∈ t.kinds := (hstated (k, l) (List.mem_of_find?_eq_some hfind)).1
    exact ⟨k, l, hk, ht.lineage_subset k hmem, hfind, hlowest⟩
  · intro part more hpart _ r₁ r₂ h₁ h₂ k₁ l₁ hk₁
    have hsettled₁ := (settled_of_setKinds hkind hplain h₁).1
    have hsettled₂ := (settled_of_setKinds hkind hplain h₂).1
    -- what is held on the way was stated, and what is held later is below all that was stated
    have hmem : (k₁, l₁) ∈ more := hpart.subset (hsettled₁.exists_mem hk₁).1
    obtain ⟨k₂, l₂, hk₂, -, hlowest⟩ := hsettled₂.lowest (List.ne_nil_of_mem hmem)
    exact ⟨k₂, l₂, hk₂, hlowest _ hmem⟩

/-- The standard kinds with chests among the containers. -/
def chestTree : KindTree :=
  KindTree.standard.insert "chest" .container

/-- A chest among the containers. -/
def chest : Kind :=
  KindTree.standard.freshKind "chest" .container

/-- A coffer that is not lit. -/
def coffer : Record :=
  ⟨"coffer", 1, none, [⟨⟨"lit", [.thing], ["unlit"]⟩, true, 1⟩], none, [], none⟩

/-- What it is called, line by line. -/
def cofferKinds : List (Kind × Nat) :=
  [(.container, 1), (chest, 2), (.thing, 3), (chest, 4)]

/-- The coffer is a chest from the second line on. -/
theorem coffer_settles :
    chestTree.Grown ∧
      ∃ r', coffer.setKinds cofferKinds = .ok r' ∧ r'.kind = some (chest, 2) := by
  have hgrown : chestTree.Grown := .insert .standard "chest" (by decide)
  have hstated : ∀ s ∈ cofferKinds, s.1 ∈ chestTree.kinds ∧ s.1.type?.isSome = true := by
    decide +kernel
  have hbelow : ∀ s ∈ cofferKinds, chest.isA s.1 = true := by decide +kernel
  have hfirst : cofferKinds.find? (·.1 = chest) = some (chest, 2) := by decide +kernel
  have hplain : coffer.plain = [] := by decide
  obtain ⟨haccepted, hsettled, -⟩ := setKinds_settle hgrown rfl hplain hstated
  obtain ⟨r', hr'⟩ := haccepted.mpr fun a ha b hb =>
    Kind.related_of_isA (hbelow a ha) (hbelow b hb)
  obtain ⟨-, -, hlowest⟩ := hsettled r' hr'
  obtain ⟨k, l, hk, -, hfind, hlowest⟩ := hlowest (by simp [cofferKinds])
  obtain rfl : k = chest := by
    refine Kind.isA_antisymm (hlowest (chest, 2) (List.mem_of_find?_eq_some hfirst)) ?_
    exact hbelow (k, l) (List.mem_of_find?_eq_some hfind)
  rw [hfirst] at hfind
  exact ⟨hgrown, r', hr', hk.trans hfind.symm⟩

end Record

end Adventure.Prose
