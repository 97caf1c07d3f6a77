/-
The two words for a kind.

A kind is found by its singular and by its plural.  A new kind may have any name that means
none yet, so singulars never get in each other's way, and since a singular is looked for
before a plural it is always found.  But the plural of the new kind comes along unchecked,
and different nouns may have one plural, as "box" and "boxe" have, or the plural of one
may be the singular of another.  The word then means the kind that was declared last, or the
one that has it as its singular.

Kinds are numbered as they are declared, so the last one of any is the one with the highest
number; that, and that names stand in lowercase with their plurals beside them, is what
every declaration preserves.
-/
import Adventure.Proofs.Prose.Candidates
import Mathlib.Data.List.Induction

namespace Adventure.Prose

/-! ### Plurals -/

/-- The plural of a word is another word. -/
theorem pluralWord_ne (word : String) : pluralWord word ≠ word := by
  unfold pluralWord
  split
  · next plural hplural =>
    have hne : ∀ pair ∈ irregularPlurals, pair.2 ≠ pair.1 := by decide
    exact hne _ (NameTable.mem_of_lookup hplural)
  · dsimp only
    intro heq
    have hlength := congrArg String.length heq
    split at hlength
    · simp at hlength
    · split at hlength
      · next hbare =>
        -- a word that ends in `y` has one letter to lose, and gains three
        have hthree : "ies".length = 3 := rfl
        have hne : word.toList ≠ [] := by
          rintro hnil
          simp [endsInBareY, hnil] at hbare
        have hpos := List.length_pos_of_ne_nil hne
        simp only [String.length_append, String.length_ofList, List.length_dropLast,
          String.length_toList, hthree] at hlength hpos
        omega
      · simp at hlength

/-- What a plural is made of: what stands before the last word, and the plural of that. -/
theorem exists_last_word (noun : String) :
    ∃ front last, noun.toList = front ++ last ∧
      (pluralize noun).toList = front ++ (pluralWord (String.ofList last)).toList := by
  obtain ⟨front, hfront⟩ : (noun.toList.reverse.takeWhile (· ≠ ' ')).reverse <:+ noun.toList :=
    List.reverse_prefix.mp (by simpa using List.takeWhile_prefix _)
  refine ⟨front, _, hfront.symm, ?_⟩
  rw [pluralize, String.toList_append, String.toList_ofList]
  congr 1
  generalize (noun.toList.reverse.takeWhile (· ≠ ' ')).reverse = last at hfront ⊢
  rw [← hfront]
  simp

theorem pluralize_ne (noun : String) : pluralize noun ≠ noun := by
  obtain ⟨front, last, hnoun, hplural⟩ := exists_last_word noun
  intro heq
  rw [heq, hnoun] at hplural
  refine pluralWord_ne (String.ofList last) ?_
  rw [← String.toList_inj, ← List.append_cancel_left hplural, String.toList_ofList]

/-- The letters of a plural are those of the noun and some of ASCII. -/
theorem isLow_pluralWord {word : String} (h : ∀ c ∈ word.toList, Text.isLow c = true) :
    ∀ c ∈ (pluralWord word).toList, Text.isLow c = true := by
  have hsmall : ∀ ending ∈ ["es", "ies", "s"], ending.toList.all Text.isLow = true := by decide
  unfold pluralWord
  split
  · next plural hplural =>
    have hlow : ∀ pair ∈ irregularPlurals, pair.2.toList.all Text.isLow = true := by decide
    exact List.all_eq_true.mp (hlow _ (NameTable.mem_of_lookup hplural))
  · dsimp only
    split
    · rw [String.toList_append]
      exact List.forall_mem_append.mpr ⟨h, List.all_eq_true.mp (hsmall "es" (by simp))⟩
    · split
      · rw [String.toList_append, String.toList_ofList]
        exact List.forall_mem_append.mpr
          ⟨fun c hc => h c (List.dropLast_subset _ hc),
            List.all_eq_true.mp (hsmall "ies" (by simp))⟩
      · rw [String.toList_append]
        exact List.forall_mem_append.mpr ⟨h, List.all_eq_true.mp (hsmall "s" (by simp))⟩

/-- **The plural of a noun in lowercase is in lowercase.** -/
theorem lower_pluralize {noun : String} (h : Text.lower noun = noun) :
    Text.lower (pluralize noun) = pluralize noun := by
  rw [Text.lower_eq_self_iff] at h ⊢
  obtain ⟨front, last, hnoun, hplural⟩ := exists_last_word noun
  rw [hnoun, List.forall_mem_append] at h
  rw [hplural, List.forall_mem_append]
  exact ⟨h.1, isLow_pluralWord (by simpa using h.2)⟩

/-! ### Numbered kinds -/

/-- The last of numbered kinds with some mark is the one with the highest number. -/
theorem find?_reverse_eq_some_iff {kinds : List Kind} (h : kinds.Pairwise (·.index < ·.index))
    {p : Kind → Bool} {k : Kind} :
    kinds.reverse.find? p = some k ↔
      k ∈ kinds ∧ p k = true ∧ ∀ k' ∈ kinds, p k' = true → k' ≠ k → k'.index < k.index := by
  induction kinds using List.reverseRecOn with
  | nil => simp
  | append_singleton kinds last ih =>
    obtain ⟨hkinds, -, hlast⟩ := List.pairwise_append.mp h
    have hbelow : ∀ k ∈ kinds, k.index < last.index := fun k hk => hlast k hk last (by simp)
    rw [List.reverse_append, List.reverse_singleton, List.singleton_append, List.find?_cons]
    cases hp : p last with
    | true =>
      simp only [Option.some.injEq, List.mem_append, List.mem_singleton]
      constructor
      · rintro rfl
        refine ⟨.inr rfl, hp, fun k' hk' _ hne => ?_⟩
        exact hbelow k' (hk'.resolve_right hne)
      · rintro ⟨hk, -, hhighest⟩
        by_contra hne
        have hk := hbelow k (hk.resolve_right (Ne.symm hne))
        have := hhighest last (.inr rfl) hp hne
        omega
    | false =>
      rw [ih hkinds]
      simp only [List.mem_append, List.mem_singleton]
      constructor
      · rintro ⟨hk, hpk, hhighest⟩
        refine ⟨.inl hk, hpk, fun k' hk' hpk' hne => ?_⟩
        rcases hk' with hk' | rfl
        · exact hhighest k' hk' hpk' hne
        · rw [hp] at hpk'
          cases hpk'
      · rintro ⟨hk, hpk, hhighest⟩
        have hne : k ≠ last := by
          rintro rfl
          rw [hp] at hpk
          cases hpk
        exact ⟨hk.resolve_right hne, hpk, fun k' hk' => hhighest k' (.inl hk')⟩

namespace KindTree

variable {t : KindTree} {k : Kind} {word : String}

/-- Kinds are numbered in order, no two have one name, and a plural goes with each name. -/
structure Named (t : KindTree) : Prop where
  ordered : t.kinds.Pairwise (·.index < ·.index)
  numbered : ∀ k ∈ t.kinds, k.index < t.size
  distinct : ∀ k ∈ t.kinds, ∀ k' ∈ t.kinds, k.name = k'.name → k = k'
  lowered : ∀ k ∈ t.kinds, Text.lower k.name = k.name
  plurals : ∀ k ∈ t.kinds, k.plural = pluralize k.name

theorem named_standard : standard.Named where
  ordered := by decide
  numbered := by decide
  distinct := by decide
  lowered k hk := by
    have hsmall : (standard.kinds.all fun k => k.name.toList.all Text.isSmall) = true := by decide
    exact Text.lower_of_isSmall (List.all_eq_true.mp hsmall k hk)
  plurals := by decide

/-- **One more kind**, under a name that means none yet. -/
theorem Named.insert (ht : t.Named) {name : String} (parent : Kind)
    (hfresh : t.lookup? name = none) : (t.insert name parent).Named := by
  have hnew : ∀ k ∈ t.kinds, k.name ≠ (t.freshKind name parent).name :=
    fun k hk => name_ne_of_lookup?_eq_none hfresh hk
  refine ⟨?_, ?_, ?_, ?_, ?_⟩
  · exact List.pairwise_append.mpr ⟨ht.ordered, List.pairwise_singleton _ _,
      fun k hk new hnew => List.mem_singleton.mp hnew ▸ ht.numbered k hk⟩
  · rw [size_insert]
    refine List.forall_mem_append.mpr ⟨fun k hk => ?_, ?_⟩
    · exact (ht.numbered k hk).trans (Nat.lt_succ_self _)
    · exact List.forall_mem_singleton.mpr (Nat.lt_succ_self t.size)
  · simp only [KindTree.insert, List.forall_mem_append, List.forall_mem_singleton]
    exact ⟨fun k hk => ⟨ht.distinct k hk, fun heq => absurd heq (hnew k hk)⟩,
      fun k hk heq => absurd heq.symm (hnew k hk), fun _ => trivial⟩
  · exact List.forall_mem_append.mpr
      ⟨ht.lowered, List.forall_mem_singleton.mpr (Text.lower_lower name)⟩
  · exact List.forall_mem_append.mpr ⟨ht.plurals, List.forall_mem_singleton.mpr rfl⟩

theorem Named.lower_plural (ht : t.Named) (hk : k ∈ t.kinds) :
    Text.lower k.plural = k.plural := by
  rw [ht.plurals k hk]
  exact lower_pluralize (ht.lowered k hk)

theorem Named.plural_ne_name (ht : t.Named) (hk : k ∈ t.kinds) : k.plural ≠ k.name := by
  rw [ht.plurals k hk]
  exact pluralize_ne k.name

/-- **What a word means**: the kind with that singular, or else the kind with that plural that
was added last. -/
theorem Named.lookup?_eq_some_iff (ht : t.Named) :
    t.lookup? word = some k ↔ k ∈ t.kinds ∧ (k.name = Text.lower word ∨
      k.plural = Text.lower word ∧ (∀ k' ∈ t.kinds, k'.name ≠ Text.lower word) ∧
        ∀ k' ∈ t.kinds, k'.plural = Text.lower word → k' ≠ k → k'.index < k.index) := by
  simp only [lookup?, Option.orElse_eq_orElse, Option.orElse_eq_or, Option.or_eq_some_iff,
    find?_reverse_eq_some_iff ht.ordered, List.find?_eq_none, List.mem_reverse, beq_iff_eq]
  constructor
  · rintro (⟨hk, hname, -⟩ | ⟨hnone, hk, hplural, hlast⟩)
    · exact ⟨hk, .inl hname⟩
    · exact ⟨hk, .inr ⟨hplural, hnone, hlast⟩⟩
  · rintro ⟨hk, hname | ⟨hplural, hnone, hlast⟩⟩
    · refine .inl ⟨hk, hname, fun k' hk' hname' hne => ?_⟩
      exact absurd (ht.distinct k' hk' k hk (hname'.trans hname.symm)) hne
    · exact .inr ⟨hnone, hk, hplural, hlast⟩

/-- A kind is found by its singular. -/
theorem Named.lookup?_name (ht : t.Named) (hk : k ∈ t.kinds) : t.lookup? k.name = some k :=
  ht.lookup?_eq_some_iff.mpr ⟨hk, .inl (ht.lowered k hk).symm⟩

/-- A kind is found by its plural if that is no singular, and no later plural. -/
theorem Named.lookup?_plural_iff (ht : t.Named) (hk : k ∈ t.kinds) :
    t.lookup? k.plural = some k ↔ ∀ k' ∈ t.kinds, k' ≠ k →
      k'.name ≠ k.plural ∧ (k'.plural = k.plural → k'.index < k.index) := by
  have hself := ht.plural_ne_name hk
  rw [ht.lookup?_eq_some_iff, ht.lower_plural hk]
  constructor
  · rintro ⟨-, hname | ⟨-, hnone, hlast⟩⟩ k' hk' hne
    · exact absurd hname.symm hself
    · exact ⟨hnone k' hk', fun hplural => hlast k' hk' hplural hne⟩
  · intro h
    refine ⟨hk, .inr ⟨rfl, fun k' hk' => ?_, fun k' hk' hplural hne => (h k' hk' hne).2 hplural⟩⟩
    by_cases hne : k' = k
    · exact hne ▸ hself.symm
    · exact (h k' hk' hne).1

/-- **A word that means a kind still does after an insertion**, if it is not the kind's
plural and that of the new kind. -/
theorem Named.lookup?_insert_iff (ht : t.Named) {name : String} (parent : Kind)
    (hfresh : t.lookup? name = none) (hword : t.lookup? word = some k) :
    (t.insert name parent).lookup? word = some k ↔
      ¬(Text.lower word = k.plural ∧ (t.freshKind name parent).plural = k.plural) := by
  have hinserted := ht.insert parent hfresh
  have hnew : ∀ k ∈ t.kinds, k.name ≠ (t.freshKind name parent).name :=
    fun k hk => name_ne_of_lookup?_eq_none hfresh hk
  obtain ⟨hk, hmeans⟩ := ht.lookup?_eq_some_iff.mp hword
  have hkne : k ≠ t.freshKind name parent := fun heq => hnew k hk (congrArg Kind.name heq)
  have hmem : k ∈ (t.insert name parent).kinds := List.mem_append_left _ hk
  rw [hinserted.lookup?_eq_some_iff]
  rcases hmeans with hname | ⟨hplural, hnone, hlast⟩
  · refine ⟨fun _ hboth => ?_, fun _ => ⟨hmem, .inl hname⟩⟩
    exact ht.plural_ne_name hk (hboth.1.symm.trans hname.symm)
  · rw [← hplural] at hnone hlast ⊢
    constructor
    · rintro ⟨-, hname | ⟨-, -, hlast'⟩⟩ ⟨-, hsame⟩
      · exact ht.plural_ne_name hk hname.symm
      · have hindex := hlast' _ (List.mem_append_right _ (List.mem_singleton_self _)) hsame
          hkne.symm
        have := ht.numbered k hk
        have hnumber : (t.freshKind name parent).index = t.size := rfl
        omega
    · intro hapart
      have hother : (t.freshKind name parent).plural ≠ k.plural := fun hsame => hapart ⟨rfl, hsame⟩
      refine ⟨hmem, .inr ⟨rfl, ?_, ?_⟩⟩
      · refine List.forall_mem_append.mpr ⟨hnone, List.forall_mem_singleton.mpr ?_⟩
        -- a word that means a kind is not the name of the new one
        intro hsame
        have hlower : Text.lower word = Text.lower name := hplural.symm.trans hsame.symm
        rw [lookup?, hlower, ← lookup?, hfresh] at hword
        cases hword
      · exact List.forall_mem_append.mpr
          ⟨hlast, List.forall_mem_singleton.mpr fun hsame => absurd hsame hother⟩

end KindTree

namespace Lexicon

variable {l l' : Lexicon} {name : String} {parent : Kind} {maxWords : Nat}

theorem declareKind_ok_iff :
    l.declareKind name parent maxWords = .ok l' ↔
      l.checkKindName (Text.lower name) maxWords = .ok () ∧
        l' = { l with kinds := l.kinds.insert (Text.lower name) parent } := by
  simp only [declareKind, bind_ok_iff, pure_ok_iff]
  constructor
  · rintro ⟨_, hcheck, h⟩
    exact ⟨hcheck, h⟩
  · rintro ⟨hcheck, h⟩
    exact ⟨(), hcheck, h⟩

/-- The lexicons that come of a standard one by declaring kinds.  A declaration that is
refused changes nothing. -/
inductive Declared : Lexicon → Prop
  | standard (v : Vocabulary) : Declared (.standard v)
  | declare {l l' : Lexicon} {name : String} {parent : Kind} {maxWords : Nat} (hl : Declared l)
    (hparent : parent ∈ l.kinds.kinds) (h : l.declareKind name parent maxWords = .ok l') :
    Declared l'

theorem named_of_declareKind (hl : l.kinds.Named)
    (h : l.declareKind name parent maxWords = .ok l') : l'.kinds.Named := by
  obtain ⟨hcheck, rfl⟩ := declareKind_ok_iff.mp h
  exact hl.insert parent (kind?_eq_none_of_checkKindName hcheck)

theorem Declared.named (hl : l.Declared) : l.kinds.Named := by
  induction hl with
  | standard v => exact KindTree.named_standard
  | declare hl hparent h ih => exact named_of_declareKind ih h

/-- **What declaring a kind does to the words for kinds.**  After any declarations on the
standard lexicon and one more that is accepted, every kind is found by its singular; a kind is
found by its plural just if no other kind has that word as its singular, or as its plural
and was declared later; and a word keeps the kind that it meant just if it is not the plural
of that kind and of the new one. -/
theorem kind_words_kept_iff (hl : l.Declared) (hparent : parent ∈ l.kinds.kinds)
    (h : l.declareKind name parent maxWords = .ok l') :
    (∀ k ∈ l'.kinds.kinds, l'.kind? k.name = some k) ∧
    (∀ k ∈ l'.kinds.kinds, (l'.kind? k.plural = some k ↔ ∀ k' ∈ l'.kinds.kinds, k' ≠ k →
      k'.name ≠ k.plural ∧ (k'.plural = k.plural → k'.index < k.index))) ∧
    ∀ word k, l.kind? word = some k → (l'.kind? word = some k ↔
      ¬(Text.lower word = k.plural ∧ pluralize (Text.lower name) = k.plural)) := by
  have hnamed' := (hl.declare hparent h).named
  refine ⟨fun k hk => hnamed'.lookup?_name hk, fun k hk => hnamed'.lookup?_plural_iff hk, ?_⟩
  intro word k hword
  obtain ⟨hcheck, rfl⟩ := declareKind_ok_iff.mp h
  have hkept := hl.named.lookup?_insert_iff parent
    (kind?_eq_none_of_checkKindName hcheck) hword
  have hplural : (l.kinds.freshKind (Text.lower name) parent).plural =
      pluralize (Text.lower name) := by
    rw [KindTree.freshKind, Text.lower_lower]
    rfl
  rwa [hplural] at hkept

/-- The standard lexicon with boxes among the containers. -/
def boxLexicon : Lexicon :=
  ⟨KindTree.standard.insert "box" .container, .english⟩

/-- What boxes are. -/
def box : Kind :=
  KindTree.standard.freshKind "box" .container

theorem declared_boxLexicon : boxLexicon.Declared := by
  have hname : Text.lower "box" = "box" := by decide +kernel
  have hbox : (Lexicon.standard .english).declareKind "box" .container 4 = .ok boxLexicon := by
    refine declareKind_ok_iff.mpr ⟨by decide +kernel, ?_⟩
    rw [hname]
    rfl
  exact .declare (.standard .english) (by decide) hbox

/-- A lexicon that has boxes takes in chests, and boxes stay what they are. -/
theorem boxes_kept_beside_chests :
    boxLexicon.Declared ∧ ∃ l', boxLexicon.declareKind "chest" .container 4 = .ok l' ∧
      l'.kind? "boxes" = some box := by
  obtain ⟨l', hl'⟩ : ∃ l', boxLexicon.declareKind "chest" .container 4 = .ok l' :=
    ⟨_, declareKind_ok_iff.mpr ⟨by decide +kernel, rfl⟩⟩
  refine ⟨declared_boxLexicon, l', hl', ?_⟩
  have hkept := (kind_words_kept_iff declared_boxLexicon (by decide) hl').2.2 "boxes" box
    (by decide +kernel)
  exact hkept.mpr (by decide +kernel)

/-- A lexicon that has boxes takes in the boxe, whose plural is theirs; after that they are not
found by their plural any more. -/
theorem boxes_lost :
    boxLexicon.Declared ∧ boxLexicon.kind? "boxes" = some box ∧
      ∃ l', boxLexicon.declareKind "boxe" .container 4 = .ok l' ∧ box ∈ l'.kinds.kinds ∧
        box.plural = "boxes" ∧ l'.kind? "boxes" ≠ some box := by
  refine ⟨declared_boxLexicon, by decide +kernel, _,
    declareKind_ok_iff.mpr ⟨by decide +kernel, rfl⟩, ?_, ?_, ?_⟩
  · decide +kernel
  · decide +kernel
  · decide +kernel

end Lexicon

end Adventure.Prose
