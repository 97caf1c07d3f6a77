/-
Sentences that declare a kind.

"A jar of wine is a kind of container." declares one kind, if it declares any, and its name
is made of what stands before the verb.  The verb need not be the one that is meant: the
words before it may be swallowed by a term, as "x is" is one once there is a kind "x i".  But
then a later verb is taken, never an earlier one.  For behind the verb a declaration has two
words, a kind and articles, and as no kind has an article in it, there is no room there for
a verb with an article behind it.  So the name begins with all the words that were written
for it, but for articles.
-/
import Adventure.Proofs.Prose.Namings
import Adventure.Proofs.Prose.Origins

namespace Adventure.Prose

/-- "A ... is a kind of ..." -/
def kindSentence (name parent : List String) : String :=
  " ".intercalate ("A" :: (name ++ "is" :: "a" :: "kind" :: "of" :: parent)) ++ "."

example : kindSentence ["jar", "of", "wine"] ["container"] =
    "A jar of wine is a kind of container." := by
  decide +kernel

/-! ### Sentences of plain words -/

section Phrases

variable {l : Lexicon} {n line : Nat} {w : String} {ws : List String} {tail : List Char}

/-- The tokens of a sentence of words. -/
def phraseTokens (l : Lexicon) (n line : Nat) (ws : List String) : List Token :=
  (cut l.isTerm n ws).map (Token.ofWords · line)

theorem wordsOf_phraseTokens (l : Lexicon) (n line : Nat) (hws : ∀ w ∈ ws, IsPlain w) :
    wordsOf (phraseTokens l n line ws) = ws := by
  have hruns : ∀ run ∈ cut l.isTerm n ws, Text.words (Token.ofWords run line).text = run := by
    intro run hrun
    refine words_ofWords (fun w hw => hws w ?_) line
    rw [← flatten_cut l.isTerm n ws]
    exact List.mem_flatten_of_mem hrun hw
  rw [wordsOf, phraseTokens, List.flatMap_map, List.flatMap_congr hruns, List.flatMap_id',
    flatten_cut]

theorem isTerm_phraseTokens (l : Lexicon) (n line : Nat) (hws : ∀ w ∈ ws, IsPlain w) :
    ∀ t ∈ phraseTokens l n line ws, t.IsTerm l := by
  intro t ht
  obtain ⟨run, hrun, rfl⟩ := List.mem_map.mp ht
  obtain ⟨hne, hknown⟩ := isTerm_of_mem_cut hrun
  refine isTerm_ofWords hne (fun w hw => hws w ?_) hknown line
  rw [← flatten_cut l.isTerm n ws]
  exact List.mem_flatten_of_mem hrun hw

end Phrases

/-! ### The words of a declaration -/

section Words

variable {l : Lexicon} {t : Token} {ts : List Token}

/-- A term that is a single word but for its case. -/
theorem Token.IsTerm.words_of_isWord (ht : t.IsTerm l) {word : String}
    (hspace : ' ' ∉ word.toList) (h : t.isWord word = true) :
    Text.words t.text = [t.text] := by
  refine ht.phrase.words_of_length ht.nonempty fun hlength => hspace ?_
  obtain ⟨first, second, more, hwords⟩ : ∃ first second more,
      Text.words t.text = first :: second :: more := by
    match hwords : Text.words t.text, hlength with
    | first :: second :: more, _ => exact ⟨first, second, more, rfl⟩
  have hword : t.text.toLower = word := by
    simp only [Token.isWord, Bool.and_eq_true, beq_iff_eq] at h
    exact h.2
  have hphrase := ht.phrase
  rw [Text.IsPhrase, hwords] at hphrase
  rw [← hword, Text.toList_toLower, ← hphrase, toList_intercalate_cons]
  refine List.mem_map.mpr ⟨' ', ?_, rfl⟩
  simp

theorem bare_wordsOf_articles (hts : ∀ t ∈ ts, t.IsTerm l) (h : ∀ t ∈ ts, t.kind = .article) :
    bare (wordsOf ts) = [] := by
  induction ts with
  | nil => rfl
  | cons t ts ih =>
    obtain ⟨ht, hts⟩ := List.forall_mem_cons.mp hts
    obtain ⟨hkind, h⟩ := List.forall_mem_cons.mp h
    rw [wordsOf_cons, bare_append, ht.bare_words_of_article hkind, ih hts h, List.append_nil]

/-- What is left of articles and words are the words. -/
theorem wordsOf_filter_word (hl : l.Spoken) (hts : ∀ t ∈ ts, t.IsTerm l)
    (h : ∀ t ∈ ts, t.kind = .article ∨ t.kind = .word) :
    wordsOf (ts.filter (·.kind = .word)) = bare (wordsOf ts) := by
  induction ts with
  | nil => rfl
  | cons t ts ih =>
    obtain ⟨ht, hts⟩ := List.forall_mem_cons.mp hts
    obtain ⟨hkind, h⟩ := List.forall_mem_cons.mp h
    rw [wordsOf_cons, bare_append, ← ih hts h]
    rcases hkind with hkind | hkind
    · rw [List.filter_cons_of_neg (by simp [hkind]), ht.bare_words_of_article hkind,
        List.nil_append]
    · rw [List.filter_cons_of_pos (by simp [hkind]), wordsOf_cons,
        ht.bare_words hl (by simp [hkind])]

end Words

/-- The first of two places where a list can be cut at an element. -/
theorem eq_of_append_singleton {α : Type} {xs ys zs : List α} {a b : α} (hb : b ∉ xs)
    (h : xs ++ [a] = ys ++ b :: zs) : xs = ys := by
  rcases List.append_eq_append_iff.mp h with ⟨front, rfl, hrest⟩ | ⟨front, rfl, hrest⟩
  · cases front with
    | nil => simp
    | cons c front => simp at hrest
  · cases front with
    | nil => simp
    | cons c front =>
      obtain ⟨rfl, -⟩ := List.cons.inj hrest
      exact absurd (by simp) hb

/-- Articles are dropped from the front. -/
theorem exists_articles (ts : List Token) :
    ∃ front, ts = front ++ skipArticles ts ∧ ∀ t ∈ front, t.kind = .article := by
  refine ⟨ts.takeWhile (·.kind = .article), List.takeWhile_append_dropWhile.symm, fun t ht => ?_⟩
  simpa using List.all_eq_true.mp List.all_takeWhile t ht

section NewKinds

variable {l : Lexicon} {n line : Nat} {ws : List String} {stop : Token} {opening : Bool}
  {m : Mention} {parent : Kind}

theorem not_endsSentence_phraseTokens (hws : ∀ w ∈ ws, IsPlain w) :
    ∀ t ∈ phraseTokens l n line ws, t.endsSentence = false := by
  intro t ht
  have hverbal := Token.isVerbal_ofWord (isTerm_phraseTokens l n line hws t ht).kind
  rw [← Bool.not_eq_true]
  intro hends
  simp only [Token.endsSentence, Bool.or_eq_true, decide_eq_true_eq] at hends
  rcases hends with hkind | hkind <;> simp [Token.isVerbal, hkind] at hverbal

/-- **The words of a declaration.**  Before the verb stand the words of the name and articles;
behind it two words, the kind above and further articles. -/
theorem words_of_newKinds (hl : l.Spoken) (hws : ∀ w ∈ ws, IsPlain w)
    (h : .newKinds [m] parent ∈
      (readTokens l opening (phraseTokens l n line ws ++ [stop])).facts) :
    ∃ before verb near kindWord linkWord far above,
      ws = before ++ verb :: (near ++ kindWord :: linkWord :: (far ++ above)) ∧
      Text.words m.name = bare before ∧ (∀ w ∈ near ++ far, isArticle w = true) ∧
      kindWord.toLower = "kind" ∧ linkWord.toLower = "of" ∧
      (∀ w ∈ above, isArticle w = false) ∧ l.kind? (" ".intercalate above) = some parent := by
  have hterms := isTerm_phraseTokens l n line hws
  obtain ⟨rest, kindToken, linkToken, behind, parentToken, behind', hsubjects, hnear, hkindToken,
    hlinkToken, hfar, hparentKind, hparent, hend⟩ := readTokens_newKinds h
  obtain ⟨bs, verb, first, more, htokens, hverb, hbs, hfirst, rfl⟩ :=
    single_of_readSubjects hsubjects
  obtain ⟨near, hrest, hnearArticles⟩ := exists_articles rest
  obtain ⟨far, hbehind, hfarArticles⟩ := exists_articles behind
  obtain ⟨last, hlast⟩ : ∃ last, behind' = last :: behind'.tail ∧ last.endsSentence = true := by
    cases behind' with
    | nil => cases hend
    | cons last more =>
      refine ⟨last, rfl, ?_⟩
      rw [endFlaw?] at hend
      split at hend
      · assumption
      · cases hend
  have hall : phraseTokens l n line ws ++ [stop] =
      bs ++ verb :: (near ++ kindToken :: linkToken :: (far ++ [parentToken])) ++
        last :: behind'.tail := by
    rw [htokens, hrest, hnear, hbehind, hfar, hlast.1]
    simp
  have hphrase : phraseTokens l n line ws =
      bs ++ verb :: (near ++ kindToken :: linkToken :: (far ++ [parentToken])) := by
    refine eq_of_append_singleton (fun hmem => ?_) hall
    rw [not_endsSentence_phraseTokens hws last hmem] at hlast
    exact absurd hlast.2 Bool.false_ne_true
  have hwords := wordsOf_phraseTokens l n line hws
  rw [hphrase] at hterms hwords
  simp only [List.mem_append, List.mem_cons, List.not_mem_nil, or_false] at hterms
  have hbsTerms : ∀ t ∈ bs, t.IsTerm l := fun t ht => hterms t (.inl ht)
  have hverbTerm := hterms verb (.inr (.inl rfl))
  have hnearTerms : ∀ t ∈ near, t.IsTerm l := fun t ht => hterms t (.inr (.inr (.inl ht)))
  have hkindTerm := hterms kindToken (.inr (.inr (.inr (.inl rfl))))
  have hlinkTerm := hterms linkToken (.inr (.inr (.inr (.inr (.inl rfl)))))
  have hfarTerms : ∀ t ∈ far, t.IsTerm l :=
    fun t ht => hterms t (.inr (.inr (.inr (.inr (.inr (.inl ht))))))
  have hparentTerm := hterms parentToken (.inr (.inr (.inr (.inr (.inr (.inr rfl))))))
  have hname : Text.words (Mention.ofWords first more).name = bare (wordsOf bs) := by
    have hmem : ∀ t ∈ first :: more, t.IsTerm l := by
      rw [← hfirst]
      exact fun t ht => hbsTerms t (List.mem_of_mem_filter ht)
    rw [(words_name_ofWords hmem).2, ← hfirst]
    exact wordsOf_filter_word hl hbsTerms hbs
  refine ⟨wordsOf bs, verb.text, wordsOf near, kindToken.text, linkToken.text, wordsOf far,
    Text.words parentToken.text, ?_, hname, ?_, ?_, ?_, ?_, ?_⟩
  · rw [← hwords]
    simp only [wordsOf_append, wordsOf_cons, wordsOf_nil, List.append_nil,
      hverbTerm.words_of_kind_ne (by simp [hverb]),
      hkindTerm.words_of_isWord (by decide) hkindToken,
      hlinkTerm.words_of_isWord (by decide) hlinkToken, List.singleton_append]
  · rw [← bare_eq_nil_iff, bare_append, bare_wordsOf_articles hnearTerms hnearArticles,
      bare_wordsOf_articles hfarTerms hfarArticles, List.append_nil]
  · simp only [Token.isWord, Bool.and_eq_true, beq_iff_eq] at hkindToken
    exact hkindToken.2
  · simp only [Token.isWord, Bool.and_eq_true, beq_iff_eq] at hlinkToken
    exact hlinkToken.2
  · exact bare_eq_self_iff.mp (hparentTerm.bare_words hl (by simp [hparentKind]))
  · rw [hparentTerm.phrase]
    exact hparent

/-- The words of the sentence itself, of which one is an article. -/
theorem isArticle_of_kindSentence :
    isArticle "a" = true ∧ isArticle "is" = false ∧ isArticle "kind" = false := by
  decide +kernel

theorem isPlain_of_kindSentence {name above : List String} (hname : ∀ w ∈ name, IsPlain w)
    (habove : ∀ w ∈ above, IsPlain w) :
    ∀ w ∈ "A" :: (name ++ "is" :: "a" :: "kind" :: "of" :: above), IsPlain w := by
  have hfixed : ∀ w ∈ ["A", "is", "a", "kind", "of"], IsPlain w := by decide
  simp only [List.forall_mem_cons, List.forall_mem_append] at hfixed ⊢
  obtain ⟨hA, his, ha, hkind, hof, -⟩ := hfixed
  exact ⟨hA, hname, his, ha, hkind, hof, habove⟩

/-- **No verb is taken before the one that is meant**: behind it there would be a verb with an
article. -/
theorem before_of_kindSentence {name above before near far : List String}
    {verb kindWord linkWord : String} {parent : List String}
    (h : "A" :: (name ++ "is" :: "a" :: "kind" :: "of" :: parent) =
      before ++ verb :: (near ++ kindWord :: linkWord :: (far ++ above)))
    (harticles : ∀ w ∈ near ++ far, isArticle w = true)
    (hkind : kindWord.toLower = "kind") (hlink : linkWord.toLower = "of")
    (habove : ∀ w ∈ above, isArticle w = false) :
    ∃ more, before = "A" :: (name ++ more) ∧
      "is" :: "a" :: "kind" :: "of" :: parent =
        more ++ verb :: (near ++ kindWord :: linkWord :: (far ++ above)) := by
  obtain ⟨ha, his, -⟩ := isArticle_of_kindSentence
  rw [← List.cons_append] at h
  rcases List.append_eq_append_iff.mp h with ⟨more, rfl, hmore⟩ | ⟨late, hlate, hrest⟩
  · exact ⟨more, rfl, hmore⟩
  cases late with
  | nil =>
    rw [List.append_nil] at hlate
    exact ⟨[], by rw [← hlate, List.append_nil], hrest.symm⟩
  | cons c late =>
    -- the verb that is meant would stand among two words, articles and a kind
    exfalso
    have hbehind : near ++ kindWord :: linkWord :: (far ++ above) =
        late ++ "is" :: "a" :: "kind" :: "of" :: parent := (List.cons.inj hrest).2
    have hsplit : (near ++ kindWord :: linkWord :: far) ++ above =
        late ++ "is" :: "a" :: "kind" :: "of" :: parent := by
      rw [← hbehind]
      simp
    rcases List.append_eq_append_iff.mp hsplit with ⟨front, -, habove'⟩ | ⟨front, hfront, habove'⟩
    · have harticle := habove "a" (by simp [habove'])
      rw [ha] at harticle
      cases harticle
    · cases front with
      | nil =>
        have harticle := habove "a" (by rw [List.nil_append] at habove'; simp [← habove'])
        rw [ha] at harticle
        cases harticle
      | cons d front =>
        obtain ⟨rfl, -⟩ := List.cons.inj habove'
        have hmem : "is" ∈ near ++ kindWord :: linkWord :: far := by simp [hfront]
        simp only [List.mem_append, List.mem_cons] at hmem harticles
        rcases hmem with hmem | rfl | rfl | hmem
        · rw [harticles "is" (.inl hmem)] at his
          cases his
        · exact absurd hkind (by decide +kernel)
        · exact absurd hlink (by decide +kernel)
        · rw [harticles "is" (.inr hmem)] at his
          cases his

/-- **What a declaration makes of the words.**  The name begins with the words that were written
for it, without the articles.  Either those are all, and the kind above is what was
written for that, or further words follow. -/
theorem name_of_kindSentence (hl : l.Spoken) {name above : List String}
    (hname : ∀ w ∈ name, IsPlain w) (habove : ∀ w ∈ above, IsPlain w)
    (h : .newKinds [m] parent ∈ (readTokens l opening
      (phraseTokens l n line ("A" :: (name ++ "is" :: "a" :: "kind" :: "of" :: above)) ++
        [stop])).facts) :
    (Text.words m.name = bare name ∧
      ((∀ w ∈ above, isArticle w = false) → l.kind? (" ".intercalate above) = some parent)) ∨
    ∃ more, more ≠ [] ∧ (∀ w ∈ more, isArticle w = false) ∧
      Text.words m.name = bare name ++ more := by
  obtain ⟨ha, his, hkindWord⟩ := isArticle_of_kindSentence
  obtain ⟨before, verb, near, kindWord, linkWord, far, kindAbove, hwords, hm, harticles,
    hkind, hlink, hbare, hparent⟩ := words_of_newKinds hl (isPlain_of_kindSentence hname habove) h
  obtain ⟨more, rfl, hmore⟩ :=
    before_of_kindSentence hwords harticles hkind hlink hbare
  have hA : bare ["A"] = [] := by
    rw [bare_eq_nil_iff]
    decide +kernel
  have hm : Text.words m.name = bare name ++ bare more := by
    rw [hm, ← List.singleton_append, bare_append, bare_append, hA, List.nil_append]
  cases more with
  | nil =>
    refine .inl ⟨by simpa [bare] using hm, fun hparents => ?_⟩
    obtain ⟨-, hbehind⟩ := List.cons.inj hmore
    have habove : kindAbove = above := by
      cases near with
      | nil =>
        obtain ⟨rfl, -⟩ := List.cons.inj hbehind
        exact absurd hkind (by decide +kernel)
      | cons article near =>
        obtain ⟨-, hbehind⟩ := List.cons.inj hbehind
        cases near with
        | nil =>
          obtain ⟨-, hbehind⟩ := List.cons.inj hbehind
          obtain ⟨-, rfl⟩ := List.cons.inj hbehind
          -- no article stands before a kind without one
          cases far with
          | nil => rfl
          | cons article far =>
            have hfirst := harticles article (by simp)
            rw [hparents article (by simp)] at hfirst
            cases hfirst
        | cons second near =>
          obtain ⟨rfl, -⟩ := List.cons.inj hbehind
          rw [harticles "kind" (by simp)] at hkindWord
          cases hkindWord
    rw [← habove]
    exact hparent
  | cons first more =>
    refine .inr ⟨bare (first :: more), ?_, ?_, hm⟩
    · obtain ⟨rfl, -⟩ := List.cons.inj hmore
      simp [bare, his]
    · intro w hw
      simpa using List.of_mem_filter hw

end NewKinds

namespace Story

variable {s t : Story} {n line : Nat} {w : String} {ws : List String} {tail : List Char}

/-- Takes in a sentence of words that ends with a period. -/
def hearPhrase (n line : Nat) (ws : List String) : EStateM Error Story Unit := fun s =>
  hear (readTokens s.lexicon false (phraseTokens s.lexicon n line ws ++ [⟨.stop, ".", line⟩]))
    (.internal "a sentence has no end") s

/-- **A sentence of words is taken in**, and then what follows the period. -/
theorem readAll_spacedOut (hws : ∀ w ∈ ws, IsPlain w) :
    readAll ⟨⟨spacedOut ws tail, line⟩, n, none⟩ false s = .ok () t ↔
      ∃ u, hearPhrase n line ws s = .ok () u ∧
        readAll ⟨pastParagraph ⟨tail, line⟩, n, none⟩ false u = .ok () t :=
  readAll_ok_iff_of_whole (Scanner.sentence_spacedOut hws s.lexicon tail line n)

theorem readAll_phrase (hw : IsPlain w) (hws : ∀ w ∈ ws, IsPlain w) :
    readAll ⟨⟨w.toList ++ spacedOut ws tail, line⟩, n, none⟩ false s = .ok () t ↔
      ∃ u, hearPhrase n line (w :: ws) s = .ok () u ∧
        readAll ⟨pastParagraph ⟨tail, line⟩, n, none⟩ false u = .ok () t := by
  have hsentence := (Scanner.sentence_phrase hw hws s.lexicon tail line n).trans
    (Scanner.sentence_spacedOut (List.forall_mem_cons.mpr ⟨hw, hws⟩) s.lexicon tail line n)
  exact readAll_ok_iff_of_whole hsentence

/-- Nothing follows at the end. -/
theorem readAll_end :
    readAll ⟨pastParagraph ⟨[], line⟩, n, none⟩ false s = .ok () t ↔ s = t := by
  have hidle : Idle (pastParagraph ⟨[], line⟩) := idle_of_nil rfl
  have hend : readAll ⟨pastParagraph ⟨[], line⟩, n, none⟩ false s = .ok () s :=
    readAll_of_idle rfl hidle s false
  rw [hend]
  simp

/-- One kind for each name. -/
theorem size_forM_addKind {names : List Mention} {parent : Kind} {u : Unit}
    (h : names.forM (addKind · parent) s = .ok u t) :
    t.lexicon.kinds.size = s.lexicon.kinds.size + names.length := by
  induction names generalizing s with
  | nil =>
    obtain rfl := (EStateM.Result.ok.inj h).2
    rfl
  | cons m names ih =>
    rw [run_forM_cons] at h
    obtain ⟨_, r, hr, ht⟩ := run_bind_ok_iff.mp h
    obtain ⟨-, l, hl, rfl⟩ := addKind_ok hr
    obtain ⟨-, rfl⟩ := Lexicon.declareKind_ok_iff.mp hl
    have hsize := ih ht
    rw [KindTree.size_insert] at hsize
    rw [hsize, List.length_cons]
    omega

/-- **A sentence after which there is one kind more** declared it, and did nothing else. -/
theorem declared_of_hear {opening : Bool} {ts : List Token} {e : Error} {u : Unit} {k : Kind}
    (h : hear (readTokens s.lexicon opening ts) e s = .ok u t)
    (hkinds : t.lexicon.kinds.kinds = s.lexicon.kinds.kinds ++ [k]) :
    ∃ m parent, (readTokens s.lexicon opening ts).facts = [.newKinds [m] parent] ∧
      s.lexicon.declareKind m.name parent s.maxWords = .ok t.lexicon ∧ t.records = s.records := by
  have hfacts := (hear_ok_iff.mp h).1
  have hsize : t.lexicon.kinds.size = s.lexicon.kinds.size + 1 := by
    rw [KindTree.size, hkinds, List.length_append]
    rfl
  rcases declaresAlone_readTokens s.lexicon opening ts with hnone | ⟨names, parent, hnew⟩
  · have hnames : NamesThings ((readTokens s.lexicon opening ts).facts.forM accept) :=
      namesThings_forM fun f hf => namesThings_accept (hnone f hf)
    rw [(hnames s _ t hfacts).1] at hsize
    omega
  · rw [hnew, run_forM_cons] at hfacts
    obtain ⟨_, r, haccept, hend⟩ := run_bind_ok_iff.mp hfacts
    obtain rfl := (EStateM.Result.ok.inj hend).2
    obtain ⟨_, w, hdeclared, hend⟩ := run_bind_ok_iff.mp haccept
    obtain rfl := (EStateM.Result.ok.inj hend).2
    have hone : names.length = 1 := by
      have hw : w.lexicon.kinds.size = s.lexicon.kinds.size + 1 := hsize
      rw [size_forM_addKind hdeclared] at hw
      omega
    obtain ⟨m, rfl⟩ := List.length_eq_one_iff.mp hone
    rw [run_forM_cons] at hdeclared
    obtain ⟨_, x, hx, hend⟩ := run_bind_ok_iff.mp hdeclared
    obtain rfl := (EStateM.Result.ok.inj hend).2
    obtain ⟨-, l, hl, rfl⟩ := addKind_ok hx
    exact ⟨m, parent, hnew, hl, rfl⟩

end Story

end Adventure.Prose
