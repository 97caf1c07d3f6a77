/-
The subjects of a sentence.

Before its verb a sentence names what it is about: nouns, and between each two of them a comma, a
conjunction, or one after the other.  Articles may stand anywhere.  `Enumeration` says which
tokens these are and what they name, and says nothing of how they are read.

Reading keeps the subjects that are done, the words of the one that has begun, and whether a comma
came last.  `Resumes` says what may follow in each of these states.  The induction is on the
tokens: every token turns what may follow into what may follow next, and an enumeration can be
taken apart at the first token that is no word, because no noun reaches over it.
-/
import Adventure.Proofs.Prose.Sentences

namespace Adventure.Prose

/-! ### Enumerations -/

/-- Words in a row, and what they name: the words with one space between, on the line of the
first. -/
inductive Noun : List Token → Mention → Prop
  | intro {first : Token} {more : List Token} (h : ∀ t ∈ first :: more, t.kind = .word) :
    Noun (first :: more) ⟨" ".intercalate ((first :: more).map (·.text)), first.line⟩

/-- What stands between two nouns. -/
inductive Separator : List Token → Prop
  | comma {t : Token} (h : t.kind = .comma) : Separator [t]
  | conjunction {t : Token} (h : t.kind = .conjunction) : Separator [t]
  | both {t u : Token} (ht : t.kind = .comma) (hu : u.kind = .conjunction) : Separator [t, u]

/-- One noun, or several with a separator between each two. -/
inductive Enumeration : List Token → List Mention → Prop
  | one {words : List Token} {m : Mention} (h : Noun words m) : Enumeration words [m]
  | cons {words separator ts : List Token} {m : Mention} {ms : List Mention} (h : Noun words m)
    (hseparator : Separator separator) (hrest : Enumeration ts ms) :
    Enumeration (words ++ (separator ++ ts)) (m :: ms)

/-- The tokens that are no articles. -/
def withoutArticles (ts : List Token) : List Token :=
  ts.filter (·.kind ≠ .article)

theorem withoutArticles_cons_of_ne {t : Token} {ts : List Token} (h : t.kind ≠ .article) :
    withoutArticles (t :: ts) = t :: withoutArticles ts := by
  simp [withoutArticles, h]

theorem withoutArticles_cons_of_article {t : Token} {ts : List Token} (h : t.kind = .article) :
    withoutArticles (t :: ts) = withoutArticles ts := by
  simp [withoutArticles, h]

/-! ### An enumeration from its beginning -/

section Beginning

variable {t first : Token} {ts us ws ws' more : List Token} {m : Mention} {ms : List Mention}

theorem Noun.words (h : Noun ws m) : ∀ t ∈ ws, t.kind = .word := by
  cases h with
  | intro h => exact h

theorem noun_iff (h : ∀ t ∈ first :: more, t.kind = .word) :
    Noun (first :: more) m ↔ m = .ofWords first more := by
  constructor
  · intro hnoun
    cases hnoun
    rfl
  · intro hm
    rw [hm]
    exact .intro h

theorem not_enumeration_nil : ¬ Enumeration [] ms := by
  intro h
  generalize hts : ([] : List Token) = ts at h
  cases h with
  | one h => cases h; cases hts
  | cons h => cases h; cases hts

theorem not_enumeration_of_ne_word (h : t.kind ≠ .word) : ¬ Enumeration (t :: ts) ms := by
  intro henum
  generalize hts : t :: ts = us at henum
  have hfirst : ∀ {ws rest : List Token} {m : Mention}, Noun ws m → t :: ts ≠ ws ++ rest := by
    intro ws rest m hnoun heq
    cases hnoun with
    | intro hwords =>
      obtain ⟨rfl, -⟩ := List.cons.inj heq
      exact h (hwords t (List.mem_cons_self ..))
  cases henum with
  | one hnoun => exact hfirst hnoun (hts.trans (List.append_nil _).symm)
  | cons hnoun => exact hfirst hnoun hts

/-- Words up to a token that is none can be told from what follows. -/
theorem words_append_inj {t u : Token} (hws : ∀ t ∈ ws, t.kind = .word)
    (hws' : ∀ t ∈ ws', t.kind = .word) (ht : t.kind ≠ .word) (hu : u.kind ≠ .word)
    (h : ws ++ t :: ts = ws' ++ u :: us) : ws = ws' ∧ t :: ts = u :: us := by
  have hrun : ∀ (ws ts : List Token) (t : Token), (∀ t ∈ ws, t.kind = .word) →
      t.kind ≠ .word → (ws ++ t :: ts).takeWhile (·.kind = .word) = ws := by
    intro ws ts t hws ht
    rw [List.takeWhile_append_of_pos (by simpa using hws)]
    simp [ht]
  have heq : ws = ws' := by
    rw [← hrun ws ts t hws ht, h, hrun ws' us u hws' hu]
  exact ⟨heq, List.append_cancel_left (heq ▸ h)⟩

/-- **An enumeration that begins with words** and goes on with something else: these words are
its first noun, and a separator and the other nouns follow. -/
theorem enumeration_words_iff (hwords : ∀ t ∈ first :: more, t.kind = .word)
    (ht : t.kind ≠ .word) :
    Enumeration (first :: more ++ t :: ts) ms ↔ ∃ separator rest names, Separator separator ∧
      t :: ts = separator ++ rest ∧ Enumeration rest names ∧ ms = .ofWords first more :: names := by
  constructor
  · intro h
    generalize hus : first :: more ++ t :: ts = us at h
    cases h with
    | one hnoun =>
      -- the token would be one of the words
      have hmem : t ∈ us := by
        rw [← hus]
        exact List.mem_append_right _ (List.mem_cons_self ..)
      exact absurd (hnoun.words t hmem) ht
    | @cons words separator rest m names hnoun hseparator hrest =>
      obtain ⟨s, after, rfl, hs⟩ : ∃ s after, separator = s :: after ∧ s.kind ≠ .word := by
        cases hseparator with
        | comma h | conjunction h | both h => exact ⟨_, _, rfl, by rw [h]; decide⟩
      obtain ⟨rfl, htail⟩ := words_append_inj hwords hnoun.words ht hs hus
      obtain rfl := (noun_iff hwords).mp hnoun
      exact ⟨_, rest, names, hseparator, htail, hrest, rfl⟩
  · rintro ⟨separator, rest, names, hseparator, htail, hrest, rfl⟩
    rw [htail]
    exact .cons ((noun_iff hwords).mpr rfl) hseparator hrest

theorem enumeration_of_words (hwords : ∀ t ∈ first :: more, t.kind = .word) :
    Enumeration (first :: more) ms ↔ ms = [.ofWords first more] := by
  constructor
  · intro h
    generalize hus : first :: more = us at h
    cases h with
    | one hnoun =>
      subst hus
      rw [(noun_iff hwords).mp hnoun]
    | @cons words separator rest m names hnoun hseparator hrest =>
      -- the separator would be one of the words
      obtain ⟨s, hs, hkind⟩ : ∃ s ∈ separator, s.kind ≠ .word := by
        cases hseparator with
        | comma h | conjunction h | both h => exact ⟨_, List.mem_cons_self .., by rw [h]; decide⟩
      refine absurd (hwords s ?_) hkind
      rw [hus]
      exact List.mem_append_right _ (List.mem_append_left _ hs)
  · rintro rfl
    exact .one ((noun_iff hwords).mpr rfl)

end Beginning

/-! ### What may follow -/

/-- What may follow, articles left out, when some words of a noun have been read, or when none
have and perhaps a comma came last: a conjunction may still stand behind it. -/
def Resumes (before : List Token) (afterComma : Bool) (ts : List Token) (ms : List Mention) :
    Prop :=
  Enumeration (before ++ ts) ms ∨ before = [] ∧ afterComma = true ∧
    ∃ t us, ts = t :: us ∧ t.kind = .conjunction ∧ Enumeration us ms

section Following

variable {t first : Token} {ts before more : List Token} {afterComma : Bool} {ms : List Mention}

theorem resumes_word (h : t.kind = .word) :
    Resumes before afterComma (t :: ts) ms ↔ Resumes (before ++ [t]) false ts ms := by
  simp [Resumes, h]

theorem resumes_ended (hwords : ∀ t ∈ before, t.kind = .word) :
    Resumes before afterComma [] ms ↔ ∃ first more, before = first :: more ∧
      ms = [.ofWords first more] := by
  cases before with
  | nil => simp [Resumes, not_enumeration_nil]
  | cons first more =>
    rw [Resumes, List.append_nil, enumeration_of_words hwords]
    constructor
    · rintro (h | ⟨hnil, -⟩)
      · exact ⟨first, more, rfl, h⟩
      · exact absurd hnil (List.cons_ne_nil _ _)
    · rintro ⟨_, _, heq, h⟩
      obtain ⟨rfl, rfl⟩ := List.cons.inj heq
      exact .inl h

/-- Where no noun has begun, a token that is no word can only be a conjunction behind a comma. -/
theorem resumes_none (h : t.kind ≠ .word) : Resumes [] afterComma (t :: ts) ms ↔
    afterComma = true ∧ t.kind = .conjunction ∧ Enumeration ts ms := by
  constructor
  · rintro (henum | ⟨-, hcomma, u, us, heq, hand, henum⟩)
    · exact absurd henum (not_enumeration_of_ne_word h)
    · obtain ⟨rfl, rfl⟩ := List.cons.inj heq
      exact ⟨hcomma, hand, henum⟩
  · rintro ⟨hcomma, hand, henum⟩
    exact .inr ⟨rfl, hcomma, t, ts, rfl, hand, henum⟩

theorem resumes_comma (hwords : ∀ t ∈ first :: more, t.kind = .word) (h : t.kind = .comma) :
    Resumes (first :: more) afterComma (t :: ts) ms ↔
      ∃ names, ms = .ofWords first more :: names ∧ Resumes [] true ts names := by
  have hword : t.kind ≠ .word := by rw [h]; decide
  rw [Resumes, enumeration_words_iff hwords hword]
  constructor
  · rintro (⟨separator, rest, names, hseparator, htail, hrest, rfl⟩ | ⟨hnil, -⟩)
    · refine ⟨names, rfl, ?_⟩
      cases hseparator with
      | comma _ =>
        obtain ⟨rfl, rfl⟩ := List.cons.inj htail
        exact .inl hrest
      | conjunction hand =>
        obtain ⟨rfl, rfl⟩ := List.cons.inj htail
        exact absurd (h.symm.trans hand) (by decide)
      | @both _ u _ hand =>
        obtain ⟨rfl, rfl⟩ := List.cons.inj htail
        exact .inr ⟨rfl, rfl, u, rest, rfl, hand, hrest⟩
    · exact absurd hnil (List.cons_ne_nil _ _)
  · rintro ⟨names, rfl, hrest | ⟨-, -, u, us, rfl, hand, hrest⟩⟩
    · exact .inl ⟨[t], ts, names, .comma h, rfl, hrest, rfl⟩
    · exact .inl ⟨[t, u], us, names, .both h hand, rfl, hrest, rfl⟩

theorem resumes_conjunction (hwords : ∀ t ∈ first :: more, t.kind = .word)
    (h : t.kind = .conjunction) : Resumes (first :: more) afterComma (t :: ts) ms ↔
      ∃ names, ms = .ofWords first more :: names ∧ Resumes [] false ts names := by
  have hword : t.kind ≠ .word := by rw [h]; decide
  rw [Resumes, enumeration_words_iff hwords hword]
  constructor
  · rintro (⟨separator, rest, names, hseparator, htail, hrest, rfl⟩ | ⟨hnil, -⟩)
    · refine ⟨names, rfl, ?_⟩
      cases hseparator with
      | comma hcomma | both hcomma _ =>
        obtain ⟨rfl, rfl⟩ := List.cons.inj htail
        exact absurd (h.symm.trans hcomma) (by decide)
      | conjunction _ =>
        obtain ⟨rfl, rfl⟩ := List.cons.inj htail
        exact .inl hrest
    · exact absurd hnil (List.cons_ne_nil _ _)
  · rintro ⟨names, rfl, hrest | ⟨-, hfalse, -⟩⟩
    · exact .inl ⟨[t], ts, names, .conjunction h, rfl, hrest, rfl⟩
    · cases hfalse

/-- Nothing else may stand among the subjects. -/
theorem not_resumes (hwords : ∀ t ∈ before, t.kind = .word) (hword : t.kind ≠ .word)
    (hcomma : t.kind ≠ .comma) (hand : t.kind ≠ .conjunction) :
    ¬ Resumes before afterComma (t :: ts) ms := by
  cases before with
  | nil =>
    rw [resumes_none hword]
    exact fun h => hand h.2.1
  | cons first more =>
    rw [Resumes, enumeration_words_iff hwords hword]
    rintro (⟨separator, rest, names, hseparator, htail, -⟩ | ⟨hnil, -⟩)
    · cases hseparator with
      | comma h | both h _ =>
        obtain ⟨rfl, -⟩ := List.cons.inj htail
        exact hcomma h
      | conjunction h =>
        obtain ⟨rfl, -⟩ := List.cons.inj htail
        exact hand h
    · exact absurd hnil (List.cons_ne_nil _ _)

end Following

/-! ### Reading subjects -/

section Reading

variable {t first : Token} {ts rest before more : List Token} {done names : List Mention}
variable {afterComma : Bool}

/-- The tokens are what may follow, then a verb, then the rest; and with what may follow the
subjects are complete. -/
def Completes (done : List Mention) (before : List Token) (afterComma : Bool) (ts : List Token)
    (names : List Mention) (rest : List Token) : Prop :=
  ∃ written verb ms, ts = written ++ verb :: rest ∧ verb.kind = .equality ∧ names = done ++ ms ∧
    Resumes before afterComma (withoutArticles written) ms

/-- The first token is the verb, or it belongs to the subjects. -/
theorem completes_cons_iff : Completes done before afterComma (t :: ts) names rest ↔
    (t.kind = .equality ∧ ts = rest ∧ ∃ ms, names = done ++ ms ∧ Resumes before afterComma [] ms) ∨
      ∃ written verb ms, ts = written ++ verb :: rest ∧ verb.kind = .equality ∧
        names = done ++ ms ∧ Resumes before afterComma (withoutArticles (t :: written)) ms := by
  constructor
  · rintro ⟨written, verb, ms, heq, hverb, hnames, h⟩
    cases written with
    | nil =>
      obtain ⟨rfl, rfl⟩ := List.cons.inj heq
      exact .inl ⟨hverb, rfl, ms, hnames, h⟩
    | cons u written =>
      obtain ⟨rfl, rfl⟩ := List.cons.inj heq
      exact .inr ⟨written, verb, ms, rfl, hverb, hnames, h⟩
  · rintro (⟨hverb, rfl, ms, hnames, h⟩ | ⟨written, verb, ms, rfl, hverb, hnames, h⟩)
    · exact ⟨[], t, ms, rfl, hverb, hnames, h⟩
    · exact ⟨t :: written, verb, ms, rfl, hverb, hnames, h⟩

/-- A token that is no verb is taken in: what may follow it completes the subjects that it
leaves done. -/
theorem completes_cons_of {before' : List Token} {afterComma' : Bool} (hverb : t.kind ≠ .equality)
    (more : List Mention) (h : ∀ written ms,
      Resumes before afterComma (withoutArticles (t :: written)) ms ↔
        ∃ others, ms = more ++ others ∧ Resumes before' afterComma' (withoutArticles written) others) :
    Completes done before afterComma (t :: ts) names rest ↔
      Completes (done ++ more) before' afterComma' ts names rest := by
  rw [completes_cons_iff]
  constructor
  · rintro (⟨hkind, -⟩ | ⟨written, verb, ms, rfl, hkind, rfl, hresumes⟩)
    · exact absurd hkind hverb
    · obtain ⟨others, rfl, hothers⟩ := (h written ms).mp hresumes
      exact ⟨written, verb, others, rfl, hkind, (List.append_assoc ..).symm, hothers⟩
  · rintro ⟨written, verb, others, rfl, hkind, rfl, hothers⟩
    exact .inr ⟨written, verb, more ++ others, rfl, hkind, List.append_assoc ..,
      (h written _).mpr ⟨others, rfl, hothers⟩⟩

/-- A token that is no verb and can stand nowhere completes nothing. -/
theorem not_completes_cons (hverb : t.kind ≠ .equality)
    (h : ∀ written ms, ¬ Resumes before afterComma (withoutArticles (t :: written)) ms) :
    ¬ Completes done before afterComma (t :: ts) names rest := by
  rw [completes_cons_iff]
  rintro (⟨hkind, -⟩ | ⟨written, verb, ms, -, -, -, hresumes⟩)
  · exact hverb hkind
  · exact h written ms hresumes

/-- **Subjects are read exactly where they are completed**, from every state of reading. -/
theorem readSubjects_ok_iff (hbefore : ∀ t ∈ before, t.kind = .word) :
    readSubjects done before afterComma ts = .ok (names, rest) ↔
      Completes done before afterComma ts names rest := by
  fun_induction readSubjects done before afterComma ts with
  | case1 done before afterComma =>
    simp [Completes]
  | case2 done before afterComma t ts harticle ih =>
    rw [ih hbefore, completes_cons_of (by rw [harticle]; decide) [], List.append_nil]
    intro written ms
    rw [withoutArticles_cons_of_article harticle]
    simp
  | case3 done before afterComma t ts hword ih =>
    have hmore : ∀ u ∈ before ++ [t], u.kind = .word := by
      intro u hu
      rcases List.mem_append.mp hu with hu | hu
      · exact hbefore u hu
      · rw [List.mem_singleton.mp hu]
        exact hword
    rw [ih hmore, completes_cons_of (by rw [hword]; decide) [], List.append_nil]
    intro written ms
    rw [withoutArticles_cons_of_ne (by rw [hword]; decide), resumes_word hword]
    simp
  | case4 done afterComma t ts hcomma =>
    rw [throw_ok_iff, false_iff]
    refine not_completes_cons (by rw [hcomma]; decide) ?_
    intro written ms
    rw [withoutArticles_cons_of_ne (by rw [hcomma]; decide), resumes_none (by rw [hcomma]; decide)]
    rintro ⟨-, hand, -⟩
    exact absurd (hcomma.symm.trans hand) (by decide)
  | case5 done afterComma t ts first more hcomma ih =>
    rw [ih (List.forall_mem_nil _),
      completes_cons_of (by rw [hcomma]; decide) [Mention.ofWords first more]]
    intro written ms
    rw [withoutArticles_cons_of_ne (by rw [hcomma]; decide), resumes_comma hbefore hcomma]
    simp
  | case6 done t ts hand ih =>
    rw [ih (List.forall_mem_nil _), completes_cons_of (by rw [hand]; decide) [], List.append_nil]
    intro written ms
    rw [withoutArticles_cons_of_ne (by rw [hand]; decide), resumes_none (by rw [hand]; decide)]
    simp [Resumes, hand]
  | case7 done afterComma t ts hand hcomma =>
    rw [throw_ok_iff, false_iff]
    refine not_completes_cons (by rw [hand]; decide) ?_
    intro written ms
    rw [withoutArticles_cons_of_ne (by rw [hand]; decide), resumes_none (by rw [hand]; decide)]
    rintro ⟨htrue, -⟩
    exact hcomma htrue
  | case8 done afterComma t ts first more hand ih =>
    rw [ih (List.forall_mem_nil _),
      completes_cons_of (by rw [hand]; decide) [Mention.ofWords first more]]
    intro written ms
    rw [withoutArticles_cons_of_ne (by rw [hand]; decide), resumes_conjunction hbefore hand]
    simp
  | case9 done afterComma t ts first more hverb =>
    rw [completes_cons_iff, pure_ok_iff, Prod.mk.injEq]
    constructor
    · rintro ⟨rfl, rfl⟩
      exact .inl ⟨hverb, rfl, _, rfl, (resumes_ended hbefore).mpr ⟨first, more, rfl, rfl⟩⟩
    · rintro (⟨-, rfl, ms, rfl, hresumes⟩ | ⟨written, verb, ms, -, -, -, hresumes⟩)
      · obtain ⟨_, _, heq, rfl⟩ := (resumes_ended hbefore).mp hresumes
        obtain ⟨rfl, rfl⟩ := List.cons.inj heq
        exact ⟨rfl, rfl⟩
      · rw [withoutArticles_cons_of_ne (by rw [hverb]; decide)] at hresumes
        exact absurd hresumes
          (not_resumes hbefore (by rw [hverb]; decide) (by rw [hverb]; decide) (by rw [hverb]; decide))
  | case10 done before afterComma t ts _ hword hcomma hcomma' hand hand' hverb =>
    have hnone : t.kind ≠ .comma ∧ t.kind ≠ .conjunction := by
      cases before with
      | nil => exact ⟨fun h => hcomma h rfl, fun h => hand h rfl⟩
      | cons first more => exact ⟨fun h => hcomma' _ _ h rfl, fun h => hand' _ _ h rfl⟩
    rw [throw_ok_iff, false_iff, completes_cons_iff]
    rintro (⟨hkind, -, ms, -, hresumes⟩ | ⟨written, verb, ms, -, -, -, hresumes⟩)
    · obtain ⟨first, more, rfl, -⟩ := (resumes_ended hbefore).mp hresumes
      exact hverb first more hkind rfl
    · rw [withoutArticles_cons_of_ne (by assumption)] at hresumes
      exact not_resumes hbefore hword hnone.1 hnone.2 hresumes

end Reading

/-- **Subjects are what the grammar says.**  Whatever the tokens are, reading subjects succeeds
exactly if without their articles they begin with an enumeration and a verb.  Then the subjects
are the nouns of the enumeration in order, and what is left is what stands behind that verb. -/
theorem subjects_are_enumerations (ts : List Token) :
    ((∃ names rest, readSubjects [] [] false ts = .ok (names, rest)) ↔
      ∃ phrase verb names, phrase ++ [verb] <+: withoutArticles ts ∧ verb.kind = .equality ∧
        Enumeration phrase names) ∧
    ∀ names rest, readSubjects [] [] false ts = .ok (names, rest) ↔
      ∃ written verb, ts = written ++ verb :: rest ∧ verb.kind = .equality ∧
        Enumeration (withoutArticles written) names := by
  have hread : ∀ names rest, readSubjects [] [] false ts = .ok (names, rest) ↔
      ∃ written verb, ts = written ++ verb :: rest ∧ verb.kind = .equality ∧
        Enumeration (withoutArticles written) names := by
    intro names rest
    rw [readSubjects_ok_iff (List.forall_mem_nil _)]
    simp [Completes, Resumes]
  refine ⟨⟨?_, ?_⟩, hread⟩
  · rintro ⟨names, rest, h⟩
    obtain ⟨written, verb, rfl, hverb, henum⟩ := (hread names rest).mp h
    have hbehind : withoutArticles (verb :: rest) = verb :: withoutArticles rest :=
      withoutArticles_cons_of_ne (by rw [hverb]; decide)
    refine ⟨withoutArticles written, verb, names, ⟨withoutArticles rest, ?_⟩, hverb, henum⟩
    rw [List.append_assoc, List.singleton_append, ← hbehind]
    exact (List.filter_append ..).symm
  · rintro ⟨phrase, verb, names, ⟨others, heq⟩, hverb, henum⟩
    rw [List.append_assoc, List.singleton_append] at heq
    obtain ⟨before, behind, rfl, hbefore, hbehind⟩ := List.filter_eq_append_iff.mp heq.symm
    obtain ⟨articles, rest, rfl, harticles, -, -⟩ := List.filter_eq_cons_iff.mp hbehind
    refine ⟨names, rest, (hread names rest).mpr ⟨before ++ articles, verb, ?_, hverb, ?_⟩⟩
    · exact (List.append_assoc ..).symm
    · have hnone : articles.filter (fun t => decide (t.kind ≠ .article)) = [] :=
        List.filter_eq_nil_iff.mpr harticles
      rw [withoutArticles, List.filter_append, hbefore, hnone, List.append_nil]
      exact henum

example : readSubjects [] [] false [⟨.article, "The", 1⟩, ⟨.word, "lamp", 1⟩, ⟨.comma, ",", 1⟩,
    ⟨.article, "the", 2⟩, ⟨.conjunction, "and", 2⟩, ⟨.word, "small", 2⟩, ⟨.word, "box", 2⟩,
    ⟨.equality, "are", 2⟩, ⟨.word, "open", 2⟩] =
      .ok ([⟨"lamp", 1⟩, ⟨"small box", 2⟩], [⟨.word, "open", 2⟩]) := by
  rfl

end Adventure.Prose
