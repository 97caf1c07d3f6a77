/-
Words, terms and names.

A token that is no mark is made of words with one space between them: a single word, or else
a term of the lexicon, and of several terms the longest.  A lexicon is well spoken if no kind
in it has an article among the words of its name.  Then no term of several words has one
either, whether it is the singular or the plural of a kind, a property or a direction, and
an article is always a token of its own.
-/
import Adventure.Proofs.Prose.Lookahead
import Adventure.Proofs.Prose.Plurals

namespace Adventure

namespace Text

/-! ### Words in lowercase -/

theorem not_isBlank_lowerFrom {cs : List Char} (h : ∀ c ∈ cs, isBlank c = false)
    (before : List Char) : ∀ c ∈ lowerFrom before cs, isBlank c = false := by
  induction cs generalizing before with
  | nil => nofun
  | cons c cs ih =>
    obtain ⟨hc, hcs⟩ := List.forall_mem_cons.mp h
    rw [lowerFrom, List.forall_mem_append]
    refine ⟨?_, ih hcs _⟩
    unfold lowerAt
    split
    · split <;> exact List.forall_mem_singleton.mpr (by decide)
    split
    · exact List.forall_mem_cons.mpr ⟨by decide, List.forall_mem_singleton.mpr (by decide)⟩
    · exact List.forall_mem_singleton.mpr (not_isBlank_lowerChar hc)

instance : DecidablePred IsWord := fun w =>
  decidable_of_iff (w.toList ≠ [] ∧ (w.toList.all fun c => !isBlank c) = true)
    (by simp [IsWord])

theorem IsWord.lower {w : String} (h : IsWord w) : IsWord (lower w) := by
  refine ⟨(endsSolid_lower (endsSolid_of_forall h.1 h.2)).ne_nil, ?_⟩
  rw [Text.lower, String.toList_ofList]
  exact not_isBlank_lowerFrom h.2 []

theorem isWord_of_mem_words {s w : String} (h : w ∈ words s) : IsWord w := by
  have hchars : ∀ cs, ∀ w ∈ wordChars cs, w ≠ [] ∧ ∀ c ∈ w, isBlank c = false := by
    intro cs
    fun_induction wordChars cs with
    | case1 => nofun
    | case2 c cs hblank ih => exact ih
    | case3 c cs hblank ih =>
      refine List.forall_mem_cons.mpr ⟨⟨List.cons_ne_nil _ _, ?_⟩, ih⟩
      refine List.forall_mem_cons.mpr ⟨by simpa using hblank, fun d hd => ?_⟩
      simpa using List.all_eq_true.mp List.all_takeWhile d hd
  obtain ⟨cs, hcs, rfl⟩ := List.mem_map.mp h
  rw [IsWord, String.toList_ofList]
  exact hchars _ cs hcs

/-- A text that is its words with one space between them. -/
def IsPhrase (s : String) : Prop :=
  " ".intercalate (words s) = s

theorem isPhrase_joined {ws : List String} (h : ∀ w ∈ ws, IsWord w) :
    IsPhrase (" ".intercalate ws) := by
  rw [IsPhrase, words_joined h]

/-- A phrase of one word is that word. -/
theorem IsPhrase.words_of_length {s : String} (h : IsPhrase s) (hne : words s ≠ [])
    (hlength : ¬1 < (words s).length) : words s = [s] := by
  obtain ⟨w, hw⟩ := List.length_eq_one_iff.mp
    (Nat.le_antisymm (Nat.not_lt.mp hlength) (List.length_pos_of_ne_nil hne))
  rw [IsPhrase, hw, String.intercalate_singleton] at h
  rw [hw, h]

/-- The words of a phrase in lowercase. -/
theorem IsPhrase.words_lower {s : String} (h : IsPhrase s) :
    words (lower s) = (words s).map lower := by
  have hwords : ∀ w ∈ (words s).map lower, IsWord w := by
    intro lowered hlowered
    obtain ⟨w, hw, rfl⟩ := List.mem_map.mp hlowered
    exact (isWord_of_mem_words hw).lower
  calc words (lower s) = words (lower (" ".intercalate (words s))) := by rw [h]
    _ = (words s).map lower := by rw [lower_intercalate, words_joined hwords]

theorem IsPhrase.lower {s : String} (h : IsPhrase s) : IsPhrase (lower s) := by
  rw [IsPhrase, h.words_lower, ← lower_intercalate, h]

end Text

namespace Prose

/-! ### Articles -/

/-- Whether a word is an article. -/
def isArticle (word : String) : Bool :=
  TokenKind.ofWord word = .article

@[simp] theorem TokenKind.ofWord_lower (word : String) : ofWord (Text.lower word) = ofWord word := by
  rw [ofWord, Text.lower_lower, ← ofWord]

@[simp] theorem isArticle_lower (word : String) : isArticle (Text.lower word) = isArticle word := by
  rw [isArticle, TokenKind.ofWord_lower, ← isArticle]

theorem isArticle_iff {word : String} :
    isArticle word = true ↔ Text.lower word ∈ ["a", "an", "the", "some"] := by
  rw [isArticle, TokenKind.ofWord]
  split <;> simp_all

theorem TokenKind.ofWord_eq_word {word : String}
    (h : Text.lower word ∉ ["is", "are", "a", "an", "the", "some", "and"]) :
    ofWord word = .word := by
  rw [ofWord]
  split <;> simp_all

/-- A word in lowercase is an article if it is one of them. -/
theorem isArticle_eq_false {word : String} (hlower : Text.lower word = word)
    (h : word ∉ ["a", "an", "the", "some"]) : isArticle word = false := by
  rw [← Bool.not_eq_true, isArticle_iff, hlower]
  exact h

/-! ### Plurals of phrases -/

theorem toList_intercalate_append_singleton (init : List String) (last : String) :
    (" ".intercalate (init ++ [last])).toList =
      init.flatMap (·.toList ++ [' ']) ++ last.toList := by
  induction init with
  | nil => simp
  | cons first init ih =>
    cases init with
    | nil => simp
    | cons second init =>
      rw [List.cons_append, List.cons_append, String.toList_intercalate, List.map_cons,
        List.map_cons, List.intercalate_cons_cons, ← List.map_cons, ← String.toList_intercalate,
        ← List.cons_append, ih]
      simp

/-- Only the last word of a phrase is made plural. -/
theorem pluralize_joined (init : List String) {last : String} (hlast : Text.IsWord last) :
    pluralize (" ".intercalate (init ++ [last])) = " ".intercalate (init ++ [pluralWord last]) := by
  have hspace : ∀ c ∈ last.toList.reverse, decide (c ≠ ' ') = true := by
    intro c hc
    have hsolid := hlast.2 c (List.mem_reverse.mp hc)
    rw [decide_eq_true_eq]
    rintro rfl
    exact absurd hsolid (by decide)
  have hfront : (init.flatMap (·.toList ++ [' '])).reverse.takeWhile (· ≠ ' ') = [] := by
    induction init using List.reverseRecOn with
    | nil => rfl
    | append_singleton init word _ => simp
  have htake : (" ".intercalate (init ++ [last])).toList.reverse.takeWhile (· ≠ ' ') =
      last.toList.reverse := by
    rw [toList_intercalate_append_singleton, List.reverse_append,
      List.takeWhile_append_of_pos hspace, hfront, List.append_nil]
  rw [← String.toList_inj, pluralize, htake, toList_intercalate_append_singleton,
    toList_intercalate_append_singleton, List.reverse_reverse, String.ofList_toList,
    String.toList_append, String.toList_ofList]
  simp

theorem isWord_pluralWord {word : String} (h : Text.IsWord word) :
    Text.IsWord (pluralWord word) := by
  have hends : ∀ ending ∈ ["es", "ies", "s"], Text.IsWord ending := by decide
  have happend : ∀ front : List Char, (∀ c ∈ front, Text.isBlank c = false) →
      ∀ ending ∈ ["es", "ies", "s"], Text.IsWord (String.ofList front ++ ending) := by
    intro front hfront ending hending
    obtain ⟨hne, hsolid⟩ := hends ending hending
    rw [Text.IsWord, String.toList_append, String.toList_ofList]
    exact ⟨List.append_ne_nil_of_right_ne_nil _ hne, List.forall_mem_append.mpr ⟨hfront, hsolid⟩⟩
  have hword := happend word.toList h.2
  rw [String.ofList_toList] at hword
  unfold pluralWord
  split
  · next plural hplural =>
    have hirregular : ∀ pair ∈ irregularPlurals, Text.IsWord pair.2 := by decide
    exact hirregular _ (NameTable.mem_of_lookup hplural)
  · dsimp only
    split
    · exact hword "es" (by simp)
    split
    · exact happend _ (fun c hc => h.2 c (List.dropLast_subset _ hc)) "ies" (by simp)
    · exact hword "s" (by simp)

/-- No plural is an article. -/
theorem isArticle_pluralWord {word : String} (h : ∀ c ∈ word.toList, Text.isLow c = true) :
    isArticle (pluralWord word) = false := by
  have hends : ∀ front : String, ∀ ending ∈ ["es", "ies", "s"],
      front ++ ending ∉ ["a", "an", "the", "some"] := by
    intro front ending hending harticle
    have hlast : ∃ article ∈ ["a", "an", "the", "some"],
        (front ++ ending).toList.getLast? = article.toList.getLast? := ⟨_, harticle, rfl⟩
    simp only [String.toList_append] at hlast
    revert hlast
    revert ending
    simp
  refine isArticle_eq_false (Text.lower_eq_self_iff.mpr (isLow_pluralWord h)) ?_
  unfold pluralWord
  split
  · next plural hplural =>
    have hirregular : ∀ pair ∈ irregularPlurals, pair.2 ∉ ["a", "an", "the", "some"] := by decide
    exact hirregular _ (NameTable.mem_of_lookup hplural)
  · dsimp only
    split
    · exact hends _ "es" (by simp)
    split
    · exact hends _ "ies" (by simp)
    · exact hends _ "s" (by simp)

/-! ### Names -/

/-- A name that a sentence can give: words with one space between them, none of them an
article, that are no other part of speech together. -/
structure IsName (name : String) : Prop where
  nonempty : Text.words name ≠ []
  phrase : Text.IsPhrase name
  articleless : ∀ w ∈ Text.words name, isArticle w = false
  kind : TokenKind.ofWord name = .word

theorem IsName.lower {name : String} (h : IsName name) : IsName (Text.lower name) where
  nonempty := by simpa [h.phrase.words_lower] using h.nonempty
  phrase := h.phrase.lower
  articleless := by
    rw [h.phrase.words_lower]
    intro lowered hlowered
    obtain ⟨w, hw, rfl⟩ := List.mem_map.mp hlowered
    rw [isArticle_lower, h.articleless w hw]
  kind := (TokenKind.ofWord_lower name).trans h.kind

/-- The plural of a name has as many words, and no article either. -/
theorem IsName.words_plural {name : String} (h : IsName name)
    (hlower : Text.lower name = name) :
    (Text.words (pluralize name)).length = (Text.words name).length ∧
      ∀ w ∈ Text.words (pluralize name), isArticle w = false := by
  obtain ⟨init, last, hwords⟩ : ∃ init last, Text.words name = init ++ [last] :=
    ⟨_, _, (List.dropLast_concat_getLast h.nonempty).symm⟩
  have hsolid : ∀ w ∈ init ++ [last], Text.IsWord w :=
    fun w hw => Text.isWord_of_mem_words (hwords ▸ hw)
  have hlast : Text.IsWord last := hsolid last (by simp)
  have hplural : pluralize name = " ".intercalate (init ++ [pluralWord last]) := by
    rw [← pluralize_joined init hlast, ← hwords, h.phrase]
  have hpluralWords : ∀ w ∈ init ++ [pluralWord last], Text.IsWord w :=
    List.forall_mem_append.mpr ⟨fun w hw => hsolid w (by simp [hw]),
      List.forall_mem_singleton.mpr (isWord_pluralWord hlast)⟩
  rw [hplural, Text.words_joined hpluralWords, hwords, List.forall_mem_append,
    List.forall_mem_singleton]
  refine ⟨by simp, ?_⟩
  refine ⟨fun w hw => h.articleless w (by simp [hwords, hw]), isArticle_pluralWord ?_⟩
  have hlow := Text.lower_eq_self_iff.mp hlower
  rw [← h.phrase, hwords, toList_intercalate_append_singleton, List.forall_mem_append] at hlow
  exact hlow.2

/-! ### Lexicons -/

end Prose

/-- No direction has an article in it. -/
def Vocabulary.Articleless (v : Vocabulary) : Prop :=
  ∀ d, v.isDirection d = true → ∀ w ∈ Text.words d, Prose.isArticle w = false

namespace Prose

namespace Lexicon

/-- A lexicon of kinds with names that sentences can give. -/
structure Spoken (l : Lexicon) : Prop where
  named : l.kinds.Named
  names : ∀ k ∈ l.kinds.kinds, IsName k.name
  directions : l.vocabulary.Articleless

variable {l l' : Lexicon} {phrase : String}

/-- Words of ASCII without capitals, and none of them an article. -/
def smallWords (text : String) : Bool :=
  (Text.words text).all fun w =>
    w.toList.all Text.isSmall && !(["a", "an", "the", "some"].contains w)

theorem articleless_of_smallWords {text : String} (h : smallWords text = true) :
    ∀ w ∈ Text.words text, isArticle w = false := by
  intro w hw
  have hsmall := List.all_eq_true.mp h w hw
  rw [Bool.and_eq_true] at hsmall
  exact isArticle_eq_false (Text.lower_of_isSmall hsmall.1) (by simpa using hsmall.2)

theorem spoken_standard {v : Vocabulary} (hv : v.Articleless) : (standard v).Spoken where
  named := KindTree.named_standard
  names := by
    intro k hk
    have hwords : ∀ k ∈ KindTree.standard.kinds, Text.words k.name ≠ [] ∧
        " ".intercalate (Text.words k.name) = k.name ∧ smallWords k.name = true := by
      decide +kernel
    have hreserved : ∀ k ∈ KindTree.standard.kinds,
        k.name ∉ ["is", "are", "a", "an", "the", "some", "and"] := by
      decide
    obtain ⟨hnonempty, hphrase, hsmall⟩ := hwords k hk
    refine ⟨hnonempty, hphrase, articleless_of_smallWords hsmall, ?_⟩
    refine TokenKind.ofWord_eq_word ?_
    rw [KindTree.named_standard.lowered k hk]
    exact hreserved k hk
  directions := hv

theorem Spoken.declareKind (hl : l.Spoken) {name : String} {parent : Kind} {maxWords : Nat}
    (hname : IsName name) (h : l.declareKind name parent maxWords = .ok l') : l'.Spoken where
  named := named_of_declareKind hl.named h
  names := by
    obtain ⟨-, rfl⟩ := declareKind_ok_iff.mp h
    refine List.forall_mem_append.mpr ⟨hl.names, List.forall_mem_singleton.mpr ?_⟩
    exact hname.lower.lower
  directions := by
    obtain ⟨-, rfl⟩ := declareKind_ok_iff.mp h
    exact hl.directions

/-- A phrase of which the words are, in lowercase, those of another without articles. -/
theorem articleless_of_lower {known : String} (hphrase : Text.IsPhrase phrase)
    (hlower : Text.lower phrase = known)
    (hknown : ∀ w ∈ Text.words known, isArticle w = false) :
    ∀ w ∈ Text.words phrase, isArticle w = false := by
  intro w hw
  rw [← hlower, hphrase.words_lower] at hknown
  rw [← isArticle_lower]
  exact hknown _ (List.mem_map_of_mem hw)

/-- What means a kind has no article in it. -/
theorem Spoken.articleless_of_kind? (hl : l.Spoken) (hphrase : Text.IsPhrase phrase) {k : Kind}
    (h : l.kind? phrase = some k) : ∀ w ∈ Text.words phrase, isArticle w = false := by
  obtain ⟨hk, hname | ⟨hplural, -, -⟩⟩ := hl.named.lookup?_eq_some_iff.mp h
  · exact articleless_of_lower hphrase hname.symm (hl.names k hk).articleless
  · refine articleless_of_lower hphrase hplural.symm ?_
    rw [hl.named.plurals k hk]
    exact ((hl.names k hk).words_plural (hl.named.lowered k hk)).2

/-- What means a kind has as many words as its name. -/
theorem Spoken.length_of_kind? (hl : l.Spoken) (hphrase : Text.IsPhrase phrase) {k : Kind}
    (h : l.kind? phrase = some k) : (Text.words phrase).length = (Text.words k.name).length := by
  have hlower : (Text.words phrase).length = (Text.words (Text.lower phrase)).length := by
    rw [hphrase.words_lower, List.length_map]
  obtain ⟨hk, hname | ⟨hplural, -, -⟩⟩ := hl.named.lookup?_eq_some_iff.mp h
  · rw [hlower, ← hname]
  · rw [hlower, ← hplural, hl.named.plurals k hk]
    exact ((hl.names k hk).words_plural (hl.named.lowered k hk)).1

/-- **No term has an article in it.** -/
theorem Spoken.articleless_of_isTerm (hl : l.Spoken) (hphrase : Text.IsPhrase phrase)
    (h : l.isTerm phrase = true) : ∀ w ∈ Text.words phrase, isArticle w = false := by
  simp only [isTerm, Bool.or_eq_true] at h
  rcases h with ((hdirection | hkind) | hproperty) | hworldly
  · exact articleless_of_lower hphrase rfl (hl.directions _ hdirection)
  · obtain ⟨k, hk⟩ := Option.isSome_iff_exists.mp hkind
    exact hl.articleless_of_kind? hphrase hk
  · obtain ⟨p, hp⟩ := Option.isSome_iff_exists.mp hproperty
    have hnames : ∀ p ∈ Property.all, smallWords p.name = true := by decide +kernel
    have hname : p.name = Text.lower phrase := by
      rw [Property.ofName?] at hp
      simpa using List.find?_some hp
    exact articleless_of_lower hphrase hname.symm
      (articleless_of_smallWords (hnames p (Property.mem_all_of_ofName? hp)))
  · have hadjectives : ∀ adjective ∈ worldlyAdjectives, smallWords adjective = true := by
      decide +kernel
    exact articleless_of_lower hphrase rfl
      (articleless_of_smallWords (hadjectives _ (List.contains_iff_mem.mp hworldly)))

end Lexicon

end Prose

end Adventure
