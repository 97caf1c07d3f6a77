/-
The names that sentences give.

A name is put together from the words of a sentence, and the articles among its tokens are
left out.  As every article is a token of its own, the words of the name are the words of
those tokens without the articles; so no name has an article in it, and neither has the name
of any kind that a source declares.  That is what lets the next sentence rely on it: with no
article in the terms, none is swallowed by one.
-/
import Adventure.Proofs.Prose.Phrases

namespace Adventure.Prose

/-! ### The words of tokens -/

/-- The words of a text that are no articles. -/
def bare (ws : List String) : List String :=
  ws.filter (! isArticle ·)

@[simp] theorem bare_append (ws us : List String) : bare (ws ++ us) = bare ws ++ bare us :=
  List.filter_append ..

theorem bare_cons_of_article {w : String} (h : isArticle w = true) (ws : List String) :
    bare (w :: ws) = bare ws :=
  List.filter_cons_of_neg (by simp [h])

theorem bare_cons {w : String} (h : isArticle w = false) (ws : List String) :
    bare (w :: ws) = w :: bare ws :=
  List.filter_cons_of_pos (by simp [h])

theorem bare_eq_self_iff {ws : List String} :
    bare ws = ws ↔ ∀ w ∈ ws, isArticle w = false := by
  simp [bare, List.filter_eq_self]

theorem bare_eq_nil_iff {ws : List String} : bare ws = [] ↔ ∀ w ∈ ws, isArticle w = true := by
  simp [bare, List.filter_eq_nil_iff]

/-- Articles before and behind other words. -/
theorem bare_between_articles {before core after : List String}
    (harticles : ∀ w ∈ before ++ after, isArticle w = true) (hcore : bare core = core) :
    bare (before ++ core ++ after) = core := by
  obtain ⟨hbefore, hafter⟩ := List.forall_mem_append.mp harticles
  rw [bare_append, bare_append, bare_eq_nil_iff.mpr hbefore, bare_eq_nil_iff.mpr hafter, hcore,
    List.nil_append, List.append_nil]

/-- The words that tokens are made of. -/
def wordsOf (ts : List Token) : List String :=
  ts.flatMap fun t => Text.words t.text

@[simp] theorem wordsOf_nil : wordsOf [] = [] :=
  rfl

@[simp] theorem wordsOf_cons (t : Token) (ts : List Token) :
    wordsOf (t :: ts) = Text.words t.text ++ wordsOf ts :=
  List.flatMap_cons

@[simp] theorem wordsOf_append (ts us : List Token) :
    wordsOf (ts ++ us) = wordsOf ts ++ wordsOf us :=
  List.flatMap_append

/-- Joined phrases are their words, joined. -/
theorem intercalate_phrases {phrases : List String}
    (h : ∀ p ∈ phrases, Text.words p ≠ [] ∧ Text.IsPhrase p) :
    " ".intercalate phrases = " ".intercalate (phrases.flatMap Text.words) := by
  have hspaced : ∀ {ps : List String}, (∀ p ∈ ps, Text.words p ≠ [] ∧ Text.IsPhrase p) →
      ps.flatMap (' ' :: ·.toList) = (ps.flatMap Text.words).flatMap (' ' :: ·.toList) := by
    intro ps hps
    rw [List.flatMap_assoc]
    refine List.flatMap_congr fun p hp => ?_
    obtain ⟨hne, hphrase⟩ := hps p hp
    obtain ⟨w, ws, hwords⟩ := List.exists_cons_of_ne_nil hne
    rw [Text.IsPhrase, hwords] at hphrase
    rw [hwords, ← hphrase, toList_intercalate_cons]
    simp
  cases phrases with
  | nil => rfl
  | cons first rest =>
    obtain ⟨⟨hne, hphrase⟩, hrest⟩ := List.forall_mem_cons.mp h
    obtain ⟨w, ws, hwords⟩ := List.exists_cons_of_ne_nil hne
    rw [Text.IsPhrase, hwords] at hphrase
    have hfirst : first.toList = w.toList ++ ws.flatMap (' ' :: ·.toList) := by
      rw [← hphrase, toList_intercalate_cons]
    rw [← String.toList_inj, List.flatMap_cons, hwords, List.cons_append, toList_intercalate_cons,
      toList_intercalate_cons, List.flatMap_append, hspaced hrest, hfirst, List.append_assoc]

/-- A phrase of several words is no part of speech but a word. -/
theorem TokenKind.ofWord_of_phrase {s : String} (h : Text.IsPhrase s)
    (hlength : 1 < (Text.words s).length) : ofWord s = .word := by
  refine ofWord_eq_word fun hreserved => ?_
  have hone : ∀ word ∈ ["is", "are", "a", "an", "the", "some", "and"],
      (Text.words word).length = 1 := by
    decide +kernel
  have hword := hone _ hreserved
  rw [h.words_lower, List.length_map] at hword
  omega

namespace Token.IsTerm

variable {l : Lexicon} {t : Token}

/-- Only a word to the reader may be a term of several words. -/
theorem words_of_kind_ne (ht : t.IsTerm l) (h : t.kind ≠ .word) : Text.words t.text = [t.text] :=
  ht.phrase.words_of_length ht.nonempty fun hlength =>
    h (ht.kind.trans (TokenKind.ofWord_of_phrase ht.phrase hlength))

/-- An article is a word without any that is none. -/
theorem bare_words_of_article (ht : t.IsTerm l) (h : t.kind = .article) :
    bare (Text.words t.text) = [] := by
  rw [ht.words_of_kind_ne (by simp [h]), bare_eq_nil_iff, List.forall_mem_singleton, isArticle,
    ← ht.kind, h]
  rfl

/-- **Any other token has no article in it.** -/
theorem bare_words (hl : l.Spoken) (ht : t.IsTerm l) (h : t.kind ≠ .article) :
    bare (Text.words t.text) = Text.words t.text := by
  rw [bare_eq_self_iff]
  by_cases hlength : 1 < (Text.words t.text).length
  · exact hl.articleless_of_isTerm ht.phrase (ht.known hlength)
  · rw [ht.phrase.words_of_length ht.nonempty hlength, List.forall_mem_singleton, isArticle,
      ← ht.kind]
    simpa using h

end Token.IsTerm

/-! ### Subjects -/

section Subjects

variable {l : Lexicon} {ts before rest : List Token} {done subjects : List Mention}
  {afterComma : Bool} {m : Mention}

/-- The words of a name are the words of its tokens. -/
theorem words_name_ofWords {first : Token} {more : List Token}
    (h : ∀ t ∈ first :: more, t.IsTerm l) :
    Text.IsPhrase (Mention.ofWords first more).name ∧
      Text.words (Mention.ofWords first more).name = wordsOf (first :: more) := by
  have hwords : ∀ w ∈ wordsOf (first :: more), Text.IsWord w := by
    intro w hw
    obtain ⟨t, -, hw⟩ := List.mem_flatMap.mp hw
    exact Text.isWord_of_mem_words hw
  have hname : (Mention.ofWords first more).name = " ".intercalate (wordsOf (first :: more)) := by
    rw [Mention.ofWords, intercalate_phrases, List.flatMap_map]
    · rfl
    · intro p hp
      obtain ⟨t, ht, rfl⟩ := List.mem_map.mp hp
      exact ⟨(h t ht).nonempty, (h t ht).phrase⟩
  exact ⟨hname ▸ Text.isPhrase_joined hwords, by rw [hname, Text.words_joined hwords]⟩

/-- **What words make up is a name.** -/
theorem isName_ofWords (hl : l.Spoken) {first : Token} {more : List Token}
    (h : ∀ t ∈ first :: more, t.kind = .word ∧ t.IsTerm l) :
    IsName (Mention.ofWords first more).name := by
  obtain ⟨hphrase, hwords⟩ := words_name_ofWords fun t ht => (h t ht).2
  have hfirst := h first (List.mem_cons_self ..)
  have hnonempty : wordsOf (first :: more) ≠ [] := by
    rw [wordsOf_cons]
    exact List.append_ne_nil_of_left_ne_nil hfirst.2.nonempty _
  refine ⟨hwords ▸ hnonempty, hphrase, ?_, ?_⟩
  · intro w hw
    rw [hwords] at hw
    obtain ⟨t, ht, hw⟩ := List.mem_flatMap.mp hw
    have hbare := (h t ht).2.bare_words hl (by simp [(h t ht).1])
    exact bare_eq_self_iff.mp hbare w hw
  · by_cases hlength : 1 < (Text.words (Mention.ofWords first more).name).length
    · exact TokenKind.ofWord_of_phrase hphrase hlength
    -- the one word is the one token
    · have hmore : more = [] := by
        rw [hwords, wordsOf_cons, List.length_append] at hlength
        cases more with
        | nil => rfl
        | cons second more =>
          have hone := List.length_pos_of_ne_nil hfirst.2.nonempty
          have htwo := List.length_pos_of_ne_nil (h second (by simp)).2.nonempty
          rw [wordsOf_cons, List.length_append] at hlength
          omega
      rw [hmore, Mention.ofWords, List.map_singleton, String.intercalate_singleton,
        ← hfirst.2.kind, hfirst.1]

/-- Subjects are made of words of the sentence. -/
theorem ofWords_of_readSubjects {p : Token → Prop}
    (h : readSubjects done before afterComma ts = .ok (subjects, rest))
    (hbefore : ∀ t ∈ before, t.kind = .word ∧ p t) (hts : ∀ t ∈ ts, p t) :
    ∀ m ∈ subjects, m ∈ done ∨ ∃ first more, m = .ofWords first more ∧
      ∀ t ∈ first :: more, t.kind = .word ∧ p t := by
  have hmore : ∀ {done : List Mention} {first : Token} {more : List Token},
      (∀ t ∈ first :: more, t.kind = .word ∧ p t) → ∀ m ∈ done ++ [.ofWords first more],
      m ∈ done ∨ ∃ first more, m = .ofWords first more ∧
        ∀ t ∈ first :: more, t.kind = .word ∧ p t := by
    intro done first more hwords m hm
    rcases List.mem_append.mp hm with hm | hm
    · exact .inl hm
    · exact .inr ⟨first, more, List.mem_singleton.mp hm, hwords⟩
  fun_induction readSubjects done before afterComma ts with
  | case1 | case4 | case7 | case10 => simp at h
  | case2 done before afterComma t ts harticle ih =>
    exact ih h hbefore (List.forall_mem_cons.mp hts).2
  | case3 done before afterComma t ts hword ih =>
    obtain ⟨ht, hts⟩ := List.forall_mem_cons.mp hts
    exact ih h (forall_mem_append_singleton hbefore ⟨hword, ht⟩) hts
  | case5 done afterComma t ts first more hcomma ih
  | case8 done afterComma t ts first more hand ih =>
    intro m hm
    rcases ih h (List.forall_mem_nil _) (List.forall_mem_cons.mp hts).2 m hm with hm | hm
    · exact hmore hbefore m hm
    · exact .inr hm
  | case6 done t ts hand ih =>
    exact ih h (List.forall_mem_nil _) (List.forall_mem_cons.mp hts).2
  | case9 done afterComma t ts first more hverb =>
    obtain ⟨rfl, rfl⟩ := Prod.mk.inj (pure_ok_iff.mp h)
    exact hmore hbefore

/-- **Before the verb stands a subject**, behind those that are done. -/
theorem exists_verb_of_readSubjects
    (h : readSubjects done before afterComma ts = .ok (subjects, rest)) :
    done.length < subjects.length ∧ ∃ bs verb, ts = bs ++ verb :: rest ∧
      verb.kind = .equality ∧ (before = [] → ∃ t ∈ bs, t.kind = .word) := by
  fun_induction readSubjects done before afterComma ts with
  | case1 | case4 | case7 | case10 => simp at h
  | case2 done before afterComma t ts harticle ih =>
    obtain ⟨hlength, bs, verb, rfl, hverb, hword⟩ := ih h
    refine ⟨hlength, t :: bs, verb, rfl, hverb, fun hbefore => ?_⟩
    obtain ⟨u, hu, hkind⟩ := hword hbefore
    exact ⟨u, List.mem_cons_of_mem t hu, hkind⟩
  | case3 done before afterComma t ts hword ih =>
    obtain ⟨hlength, bs, verb, rfl, hverb, -⟩ := ih h
    exact ⟨hlength, t :: bs, verb, rfl, hverb, fun _ => ⟨t, List.mem_cons_self .., hword⟩⟩
  | case5 done afterComma t ts first more hcomma ih
  | case8 done afterComma t ts first more hand ih =>
    obtain ⟨hlength, bs, verb, rfl, hverb, -⟩ := ih h
    rw [List.length_append] at hlength
    exact ⟨Nat.lt_of_le_of_lt (Nat.le_add_right ..) hlength, t :: bs, verb, rfl, hverb,
      fun hnil => absurd hnil (List.cons_ne_nil _ _)⟩
  | case6 done t ts hand ih =>
    obtain ⟨hlength, bs, verb, rfl, hverb, hword⟩ := ih h
    refine ⟨hlength, t :: bs, verb, rfl, hverb, fun hbefore => ?_⟩
    obtain ⟨u, hu, hkind⟩ := hword hbefore
    exact ⟨u, List.mem_cons_of_mem t hu, hkind⟩
  | case9 done afterComma t ts first more hverb =>
    obtain ⟨rfl, rfl⟩ := Prod.mk.inj (pure_ok_iff.mp h)
    exact ⟨by simp, [], t, rfl, hverb, fun hnil => absurd hnil (List.cons_ne_nil _ _)⟩

/-- **A single subject is made of all words before the verb.** -/
theorem single_of_readSubjects (h : readSubjects [] before false ts = .ok ([m], rest)) :
    ∃ bs verb first more, ts = bs ++ verb :: rest ∧ verb.kind = .equality ∧
      (∀ t ∈ bs, t.kind = .article ∨ t.kind = .word) ∧
      before ++ bs.filter (·.kind = .word) = first :: more ∧ m = .ofWords first more := by
  -- a subject that is done would be one more
  have hdone : ∀ {x : Mention} {afterComma : Bool} {ts : List Token},
      readSubjects [x] [] afterComma ts ≠ .ok ([m], rest) := by
    intro x afterComma ts h
    have := (exists_verb_of_readSubjects h).1
    simp at this
  induction ts generalizing before with
  | nil => cases h
  | cons t ts ih =>
    unfold readSubjects at h
    cases hkind : t.kind with
    | article =>
      simp only [hkind] at h
      obtain ⟨bs, verb, first, more, rfl, hverb, hbs, hwords, hm⟩ := ih h
      refine ⟨t :: bs, verb, first, more, rfl, hverb,
        List.forall_mem_cons.mpr ⟨.inl hkind, hbs⟩, ?_, hm⟩
      rwa [List.filter_cons_of_neg (by simp [hkind])]
    | word =>
      simp only [hkind] at h
      obtain ⟨bs, verb, first, more, rfl, hverb, hbs, hwords, hm⟩ := ih h
      refine ⟨t :: bs, verb, first, more, rfl, hverb,
        List.forall_mem_cons.mpr ⟨.inr hkind, hbs⟩, ?_, hm⟩
      rwa [List.filter_cons_of_pos (by simp [hkind]), ← List.singleton_append,
        ← List.append_assoc]
    | comma =>
      simp only [hkind] at h
      cases before with
      | nil => cases h
      | cons first more => exact absurd h hdone
    | conjunction =>
      simp only [hkind] at h
      cases before with
      | nil => cases h
      | cons first more => exact absurd h hdone
    | equality =>
      simp only [hkind] at h
      cases before with
      | nil => cases h
      | cons first more =>
        obtain ⟨hm, rfl⟩ := Prod.mk.inj (Except.ok.inj h)
        exact ⟨[], t, first, more, rfl, hkind, nofun, by simp, by simpa using hm.symm⟩
    | _ =>
      simp only [hkind] at h
      cases h

end Subjects

/-! ### Declarations -/

section Declarations

variable {l : Lexicon} {ts : List Token} {opening : Bool} {names : List Mention} {parent : Kind}

/-- A fact about kinds: a kind that is given, or new ones. -/
def Fact.isAboutKinds : Fact → Bool
  | .kind .. | .newKinds .. => true
  | _ => false

/-- Of kinds only a sentence with subjects and a verb says something. -/
theorem mem_readEquality_of_mem {f : Fact} (hf : f.isAboutKinds = true)
    (h : f ∈ (readTokens l opening ts).facts) :
    ∃ subjects rest, readSubjects [] [] false ts = .ok (subjects, rest) ∧
      f ∈ (readEquality l subjects rest).facts := by
  unfold readTokens at h
  split at h
  · cases h
  split at h
  · cases h
  split at h
  · split at h
    · rcases List.mem_cons.mp h with rfl | h
      · cases hf
      unfold readAuthor at h
      split at h
      · cases h
      split at h
      · split at h
        · obtain rfl := List.mem_singleton.mp h
          cases hf
        · cases h
      · cases h
    · obtain rfl := List.mem_singleton.mp h
      cases hf
  unfold readStatement at h
  split at h
  · cases h
  next subjects rest hsubjects =>
  split at h
  · exact ⟨subjects, rest, hsubjects, h⟩
  split at h
  · cases h
  split at h
  · obtain rfl := List.mem_singleton.mp h
    cases hf
  · cases h

/-- **How a sentence declares kinds**: subjects, a verb, the words "kind of" and a kind, and
nothing else but articles. -/
theorem readTokens_newKinds (h : .newKinds names parent ∈ (readTokens l opening ts).facts) :
    ∃ rest kindWord linkWord behind parentWord behind',
      readSubjects [] [] false ts = .ok (names, rest) ∧
      skipArticles rest = kindWord :: linkWord :: behind ∧
      kindWord.isWord "kind" = true ∧ linkWord.isWord "of" = true ∧
      skipArticles behind = parentWord :: behind' ∧ parentWord.kind = .word ∧
      l.kind? parentWord.text = some parent ∧ endFlaw? behind' = none := by
  obtain ⟨subjects, rest, hsubjects, h⟩ := mem_readEquality_of_mem rfl h
  unfold readEquality at h
  split at h
  · cases h
  next t us hskip =>
  split at h
  · next hkindWord =>
    unfold readNewKinds at h
    split at h
    · cases h
    next linkWord behind =>
    split at h
    · cases h
    next hlinkWord =>
    split at h
    · cases h
    next parentWord behind' hskip' =>
    split at h
    · cases h
    next kind hkind =>
    split at h
    · cases h
    next hend =>
    obtain ⟨rfl, rfl⟩ := Fact.newKinds.inj (List.mem_singleton.mp h)
    obtain ⟨hparent, hparentWord⟩ := Option.filter_eq_some_iff.mp hkind
    exact ⟨rest, t, linkWord, behind, parentWord, behind', hsubjects, hskip, hkindWord,
      by simpa using hlinkWord, hskip', by simpa using hparentWord, hparent, hend⟩
  · exfalso
    rcases List.mem_cons.mp h with heq | h
    · cases heq
    split at h
    · cases not_declares_readLocation _ _ _ _ h
    · cases not_declares_readDefinition _ _ _ _ _ _ h

/-- **The kinds that a sentence declares have names.** -/
theorem isName_of_newKinds (hl : l.Spoken) (hts : ∀ t ∈ ts, t.isVerbal = true → t.IsTerm l)
    (h : .newKinds names parent ∈ (readTokens l opening ts).facts) :
    ∀ m ∈ names, IsName m.name := by
  obtain ⟨rest, _, _, _, _, _, hsubjects, -⟩ := readTokens_newKinds h
  intro m hm
  rcases ofWords_of_readSubjects hsubjects nofun hts m hm with hm | ⟨first, more, rfl, hwords⟩
  · cases hm
  · refine isName_ofWords hl fun t ht => ?_
    obtain ⟨hkind, hterm⟩ := hwords t ht
    exact ⟨hkind, hterm (by simp [Token.isVerbal, hkind])⟩

end Declarations

namespace Story

variable {s t : Story} {ts : List Token}

theorem spoken_forM_addKind {names : List Mention} {parent : Kind} {u : Unit}
    (hs : s.lexicon.Spoken) (hnames : ∀ m ∈ names, IsName m.name)
    (h : names.forM (addKind · parent) s = .ok u t) : t.lexicon.Spoken := by
  induction names generalizing s with
  | nil =>
    obtain rfl := (EStateM.Result.ok.inj h).2
    exact hs
  | cons m names ih =>
    obtain ⟨hm, hnames⟩ := List.forall_mem_cons.mp hnames
    rw [run_forM_cons] at h
    obtain ⟨_, r, hr, ht⟩ := run_bind_ok_iff.mp h
    obtain ⟨-, l, hl, rfl⟩ := addKind_ok hr
    exact ih (hs.declareKind hm hl) hnames ht

/-- A sentence leaves a lexicon well spoken. -/
theorem spoken_hear {opening : Bool} {e : Error} {u : Unit} (hs : s.lexicon.Spoken)
    (hts : ∀ t ∈ ts, t.isVerbal = true → t.IsTerm s.lexicon)
    (h : hear (readTokens s.lexicon opening ts) e s = .ok u t) : t.lexicon.Spoken := by
  have hfacts := (hear_ok_iff.mp h).1
  rcases declaresAlone_readTokens s.lexicon opening ts with hnone | ⟨names, parent, hnew⟩
  · have hnames : NamesThings ((readTokens s.lexicon opening ts).facts.forM accept) :=
      namesThings_forM fun f hf => namesThings_accept (hnone f hf)
    rw [(hnames s _ t hfacts).1]
    exact hs
  · have hnames := isName_of_newKinds hs hts (hnew ▸ List.mem_singleton_self _)
    rw [hnew, run_forM_cons] at hfacts
    obtain ⟨_, r, haccept, hend⟩ := run_bind_ok_iff.mp hfacts
    obtain rfl := (EStateM.Result.ok.inj hend).2
    obtain ⟨_, w, hdeclared, hend⟩ := run_bind_ok_iff.mp haccept
    obtain rfl := (EStateM.Result.ok.inj hend).2
    have hw : w.lexicon.Spoken := spoken_forM_addKind hs hnames hdeclared
    exact hw

theorem spoken_readAll {scanner : Scanner} {opening : Bool} (hs : s.lexicon.Spoken)
    (hscanner : scanner.Sound) (h : readAll scanner opening s = .ok () t) : t.lexicon.Spoken := by
  have hterms := Scanner.isTerm_of_sentence (l := s.lexicon) hscanner
  fun_induction readAll scanner opening s with
  | case1 scanner opening s ts e hsentence =>
    rw [hsentence] at hterms
    exact spoken_hear hs hterms h
  | case2 => cases h
  | case3 scanner opening s ts rest u hresult hsentence =>
    obtain rfl := (EStateM.Result.ok.inj h).2
    rw [hsentence] at hterms
    exact spoken_hear hs hterms hresult
  | case4 scanner opening s ts atEnd rest hsentence u hresult hend ih =>
    rw [hsentence] at hterms
    have hrest := Scanner.sound_of_sentence hscanner hsentence
    exact ih (spoken_hear hs hterms hresult) hrest h (Scanner.isTerm_of_sentence hrest)

/-- **The kinds that a source declares have names without articles.** -/
theorem spoken_ofSource {v : Vocabulary} {maxWords : Nat} {source : String} (hv : v.Articleless)
    (h : ofSource v maxWords source = .ok () s) : s.lexicon.Spoken :=
  spoken_readAll (Lexicon.spoken_standard hv) (fun token howed => by cases howed) h

end Story

end Adventure.Prose
