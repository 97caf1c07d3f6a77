/-
Declared kinds in use.

A kind is declared under the words that stand before a verb, and it is used by writing those
words again.  The two do not go through the same hands.  A declaration puts the name together
from tokens and leaves the articles out; a use looks the words up as they stand, as many as
make up a term.  So a name that was written with an article inside is never found again, and
neither is one that means something else where a kind is expected: a direction, a
preposition, a negation, or the word "kind".

Words are counted.  The name of the kind has at least the words that were written for it,
without the articles, and the run of words that is looked up has no article in it; so it can
have the words of the name only if it is all of them, up to articles before and behind it.
-/
import Adventure.Proofs.Prose.Declarations

namespace Adventure.Prose

/-- "The ... is a ..." -/
def thingSentence (thing : String) (kind : List String) : String :=
  " ".intercalate ("The" :: thing :: "is" :: "a" :: kind) ++ "."

example : thingSentence "vase" ["jar", "of", "wine"] = "The vase is a jar of wine." := by
  decide +kernel

/-! ### Cutting at articles -/

section Cutting

variable {l : Lexicon} {n : Nat} {w : String} {ws run front rest : List String}

theorem not_isTerm_of_isArticle (hl : l.Spoken) (hws : ∀ w ∈ ws, IsPlain w) (hw : w ∈ ws)
    (harticle : isArticle w = true) : l.isTerm (" ".intercalate ws) = false := by
  rw [← Bool.not_eq_true]
  intro hterm
  have hsolid : ∀ w ∈ ws, Text.IsWord w := fun w hw => (hws w hw).isWord
  have hbare := hl.articleless_of_isTerm (Text.isPhrase_joined hsolid) hterm
  rw [Text.words_joined hsolid] at hbare
  rw [hbare w hw] at harticle
  cases harticle

/-- Articles are cut off one by one. -/
theorem cut_articles (hl : l.Spoken) (hplain : ∀ w ∈ front ++ rest, IsPlain w)
    (harticles : ∀ w ∈ front, isArticle w = true) :
    cut l.isTerm n (front ++ rest) = front.map ([·]) ++ cut l.isTerm n rest := by
  induction front with
  | nil => rfl
  | cons w front ih =>
    obtain ⟨hw, harticles⟩ := List.forall_mem_cons.mp harticles
    have hfirst : cut l.isTerm n (w :: ([] ++ (front ++ rest))) =
        [w] :: cut l.isTerm n (front ++ rest) := by
      refine cut_append (fun h => absurd rfl h) (Nat.zero_le n) fun k _ _ _ => ?_
      refine not_isTerm_of_isArticle hl ?_ (List.mem_cons_self ..) hw
      exact fun u hu => hplain u (List.cons_subset_cons w (List.take_subset _ _) hu)
    rw [List.nil_append] at hfirst
    rw [List.cons_append, hfirst, ih (List.forall_mem_cons.mp hplain).2 harticles,
      List.map_cons, List.cons_append]

/-- **A term that an article follows**, or nothing, is cut off as it is. -/
theorem cut_term (hl : l.Spoken) (hplain : ∀ u ∈ w :: (run ++ rest), IsPlain u)
    (hterm : run ≠ [] → l.isTerm (" ".intercalate (w :: run)) = true) (hlength : run.length ≤ n)
    (hrest : rest.head?.all isArticle = true) :
    cut l.isTerm n (w :: (run ++ rest)) = (w :: run) :: cut l.isTerm n rest := by
  refine cut_append hterm hlength fun k hk _ hle => ?_
  cases rest with
  | nil =>
    rw [List.append_nil] at hle
    omega
  | cons article rest =>
    -- a longer one has the article in it
    refine not_isTerm_of_isArticle hl ?_ (w := article) ?_ (by simpa using hrest)
    · exact fun u hu => hplain u (List.cons_subset_cons w (List.take_subset _ _) hu)
    · rw [List.take_append, List.mem_cons, List.mem_append]
      obtain ⟨j, hj⟩ : ∃ j, k - run.length = j + 1 := ⟨k - run.length - 1, by omega⟩
      exact .inr (.inr (by simp [hj]))

/-- **A term between articles** is cut off in one piece. -/
theorem cut_between_articles {before core after : List String} (hl : l.Spoken)
    (hplain : ∀ u ∈ before ++ (core ++ after), IsPlain u)
    (hbefore : ∀ u ∈ before, isArticle u = true) (hafter : ∀ u ∈ after, isArticle u = true)
    (hne : core ≠ []) (hterm : l.isTerm (" ".intercalate core) = true)
    (hlength : core.length ≤ n + 1) :
    cut l.isTerm n (before ++ (core ++ after)) =
      before.map ([·]) ++ core :: after.map ([·]) := by
  have hcoreAfter := (List.forall_mem_append.mp hplain).2
  obtain ⟨first, more, rfl⟩ := List.exists_cons_of_ne_nil hne
  have hcore : cut l.isTerm n (first :: (more ++ after)) =
      (first :: more) :: cut l.isTerm n after := by
    refine cut_term hl hcoreAfter (fun _ => hterm) (by simpa using hlength) ?_
    cases after with
    | nil => rfl
    | cons u after => simpa using hafter u (List.mem_cons_self ..)
  have hend : cut l.isTerm n (after ++ []) = after.map ([·]) ++ cut l.isTerm n [] := by
    refine cut_articles hl ?_ hafter
    rw [List.append_nil]
    exact (List.forall_mem_append.mp hcoreAfter).2
  rw [List.append_nil, cut, List.append_nil] at hend
  rw [cut_articles hl hplain hbefore, List.cons_append, hcore, hend]

end Cutting

/-! ### A use, read -/

section Reading

variable {l : Lexicon} {n line : Nat} {thing : String} {before core after : List String} {k : Kind}

theorem isPlain_of_thingSentence {kind : List String} (hthing : IsPlain thing)
    (hkind : ∀ w ∈ kind, IsPlain w) : ∀ w ∈ "The" :: thing :: "is" :: "a" :: kind, IsPlain w := by
  have hfixed : ∀ w ∈ ["The", "is", "a"], IsPlain w := by decide
  simp only [List.forall_mem_cons] at hfixed ⊢
  obtain ⟨hThe, his, ha, -⟩ := hfixed
  exact ⟨hThe, hthing, his, ha, hkind⟩

/-- The tokens of a use: a single one for the kind. -/
theorem phraseTokens_thingSentence (line : Nat) (hl : l.Spoken) (hthing : IsPlain thing)
    (hplain : ∀ w ∈ before ++ core ++ after, IsPlain w)
    (harticles : ∀ w ∈ before ++ after, isArticle w = true) (hne : core ≠ [])
    (hlength : core.length ≤ n + 1) (hterm : l.isTerm (" ".intercalate core) = true)
    (halone : 0 < n → l.isTerm (" ".intercalate [thing, "is"]) = false) :
    phraseTokens l n line ("The" :: thing :: "is" :: "a" :: (before ++ core ++ after)) =
      .ofWords ["The"] line :: .ofWords [thing] line :: .ofWords ["is"] line ::
        ((("a" :: before).map fun w => .ofWords [w] line) ++
          .ofWords core line :: after.map fun w => .ofWords [w] line) := by
  have ha : isArticle "a" = true := isArticle_of_kindSentence.1
  have hThe : isArticle "The" = true := by decide +kernel
  obtain ⟨hbefore, hafter⟩ := List.forall_mem_append.mp harticles
  have hall := isPlain_of_thingSentence hthing hplain
  rw [List.append_assoc, ← List.cons_append] at hall ⊢
  have hthingPlain := (List.forall_mem_cons.mp hall).2
  have hverbPlain := (List.forall_mem_cons.mp hthingPlain).2
  have hkind := cut_between_articles hl (List.forall_mem_cons.mp hverbPlain).2
    (List.forall_mem_cons.mpr ⟨ha, hbefore⟩) hafter hne hterm hlength
  -- the verb, and the thing before it
  have hverb : cut l.isTerm n ("is" :: ([] ++ ("a" :: before ++ (core ++ after)))) =
      ["is"] :: cut l.isTerm n ("a" :: before ++ (core ++ after)) :=
    cut_term hl hverbPlain (fun h => absurd rfl h) (Nat.zero_le n) (by simpa using ha)
  have hsubject : cut l.isTerm n (thing :: ([] ++ "is" :: ("a" :: before ++ (core ++ after)))) =
      [thing] :: cut l.isTerm n ("is" :: ("a" :: before ++ (core ++ after))) := by
    refine cut_append (fun h => absurd rfl h) (Nat.zero_le n) fun j hj hjn _ => ?_
    rcases j with _ | _ | j
    · exact absurd hj (Nat.lt_irrefl 0)
    · exact halone hjn
    · refine not_isTerm_of_isArticle hl ?_ (w := "a") (by simp) ha
      exact fun u hu => hthingPlain u (List.cons_subset_cons thing (List.take_subset _ _) hu)
  have harticle : cut l.isTerm n
      (["The"] ++ thing :: "is" :: ("a" :: before ++ (core ++ after))) =
      ["The"].map ([·]) ++ cut l.isTerm n (thing :: "is" :: ("a" :: before ++ (core ++ after))) :=
    cut_articles hl hall (List.forall_mem_singleton.mpr hThe)
  rw [List.nil_append] at hverb hsubject
  rw [List.singleton_append, hsubject, hverb, hkind] at harticle
  rw [phraseTokens, harticle]
  simp [Function.comp_def]

/-- Articles in a definition say nothing. -/
theorem readDefinition_articles {front : List Token} (hfront : ∀ t ∈ front, t.kind = .article)
    (several negated started : Bool) (ts : List Token) :
    readDefinition l several negated started (front ++ ts) =
      readDefinition l several negated started ts := by
  induction front with
  | nil => rfl
  | cons t front ih =>
    obtain ⟨ht, hfront⟩ := List.forall_mem_cons.mp hfront
    rw [List.cons_append, readDefinition]
    simp only [ht]
    exact ih hfront

/-- A word that means a kind and nothing else. -/
structure Lexicon.MeansKind (l : Lexicon) (word : String) (k : Kind) : Prop where
  kind : l.kind? word = some k
  direction : l.isDirection word = false
  reserved : word.toLower ∉ ["kind", "not", "in", "on"]
  property : Property.ofName? word = none
  worldly : isWorldly word = false

theorem Lexicon.MeansKind.ofWord {t : Token} (h : l.MeansKind t.text k) :
    Predicate.ofWord l false t = .ok (.kind k) := by
  have hreserved := h.reserved
  simp only [List.mem_cons, List.not_mem_nil, or_false, not_or] at hreserved
  obtain ⟨-, hnot, hin, hon⟩ := hreserved
  have hpreposition : Preposition.ofWord? t.text.toLower = none := by
    unfold Preposition.ofWord?
    split
    · next heq => exact absurd heq hin
    · next heq => exact absurd heq hon
    · rfl
  simp only [Predicate.ofWord, hnot, if_false, hpreposition, h.worldly, h.property, h.kind]
  rfl

theorem ofWords_singleton (w : String) : Token.ofWords [w] line = ⟨.ofWord w, w, line⟩ := by
  simp [Token.ofWords]

theorem kind_of_mem_articles (line : Nat) {ws : List String} (h : ∀ w ∈ ws, isArticle w = true) :
    ∀ t ∈ ws.map fun w => Token.ofWords [w] line, t.kind = .article := by
  intro t ht
  obtain ⟨w, hw, rfl⟩ := List.mem_map.mp ht
  rw [ofWords_singleton]
  exact of_decide_eq_true (h w hw)

/-- A name of one word describes nothing. -/
theorem describedThing?_of_isWord {m : Mention} (h : Text.IsWord m.name) :
    describedThing? [m] = none := by
  rw [describedThing?, Option.map_eq_none_iff, ← Option.not_isSome_iff_eq_none]
  intro hsome
  obtain ⟨rest, hrest⟩ := Option.isSome_iff_exists.mp hsome
  have hsplit := List.isPrefixOf?_eq_some_iff_append_eq.mp hrest
  have hspace : ' ' ∈ (Text.lower m.name).toList := by
    rw [← hsplit]
    simp
  exact absurd (h.lower.2 _ hspace) (by decide)

/-- **A use says of the thing that it is of the kind**, and nothing else. -/
theorem readTokens_thingSentence (line : Nat) {kindWord stop : Token} {near far : List Token}
    (hthing : Text.IsWord thing) (hword : TokenKind.ofWord thing = .word)
    (hnear : ∀ t ∈ near, t.kind = .article) (hfar : ∀ t ∈ far, t.kind = .article)
    (hkind : kindWord.kind = .word) (hmeans : l.MeansKind kindWord.text k)
    (hstop : stop.kind = .stop) :
    readTokens l false (.ofWords ["The"] line :: .ofWords [thing] line :: .ofWords ["is"] line ::
        (near ++ kindWord :: far) ++ [stop]) =
      ⟨[.subjects [⟨thing, line⟩], .kind k kindWord.line], none⟩ := by
  have hThe : TokenKind.ofWord "The" = .article := by decide +kernel
  have his : TokenKind.ofWord "is" = .equality := by decide +kernel
  have hmention : Mention.ofWords ⟨.word, thing, line⟩ [] = ⟨thing, line⟩ := by
    simp [Mention.ofWords]
  have hskip : skipArticles (near ++ kindWord :: far ++ [stop]) = kindWord :: (far ++ [stop]) := by
    rw [skipArticles, List.append_assoc, List.dropWhile_append_of_pos (by simpa using hnear)]
    simp [hkind]
  have hkindWord : kindWord.isWord "kind" = false := by
    have hreserved := hmeans.reserved
    simp only [List.mem_cons, not_or] at hreserved
    simp [Token.isWord, hreserved.1]
  have hdefinition : readDefinition l false false false (kindWord :: (far ++ [stop])) =
      ⟨[.kind k kindWord.line], none⟩ := by
    rw [readDefinition, hkind]
    simp only [hmeans.ofWord]
    rw [readDefinition_articles hfar, readDefinition, hstop]
    rfl
  have hequality : readEquality l [⟨thing, line⟩] (near ++ kindWord :: far ++ [stop]) =
      ⟨[.subjects [⟨thing, line⟩], .kind k kindWord.line], none⟩ := by
    simp only [readEquality, hskip, hkindWord, hkind, hmeans.direction, List.length_singleton,
      ne_eq, not_true_eq_false, decide_false, Bool.and_false, Bool.false_eq_true, if_false,
      hdefinition, Reading.after]
  have hsubjects : readSubjects [] [] false (.ofWords ["The"] line :: .ofWords [thing] line ::
      .ofWords ["is"] line :: (near ++ kindWord :: far ++ [stop])) =
      .ok ([⟨thing, line⟩], near ++ kindWord :: far ++ [stop]) := by
    simp only [ofWords_singleton, readSubjects, hThe, hword, his, List.nil_append, hmention]
    rfl
  rw [List.cons_append, List.cons_append, List.cons_append, readTokens, ofWords_singleton,
    if_neg (by simp [Token.endsSentence, hThe]), if_neg (by simp [hThe]), ← ofWords_singleton,
    readStatement, hsubjects]
  simp only [describedThing?_of_isWord (m := ⟨thing, line⟩) hthing, hequality]

end Reading

/-! ### A use, taken in -/

namespace Story

variable {s : Story} {m : Mention} {k : Kind} {line : Nat}

/-- A sentence about something new begins its record. -/
theorem accept_subjects_of_fresh (hfresh : m.key ∉ s.keys)
    (hkind : s.lexicon.isKind m.name = false) :
    accept (.subjects [m]) s = .ok ()
      { s with records := s.records ++ [.fresh m.name m.line], subjects := [m.key] } := by
  have hkey : s.lexicon.isKind (Text.lower m.name) = false := by
    rw [Lexicon.isKind, Lexicon.kind?, KindTree.lookup?, Text.lower_lower]
    exact hkind
  have hnone : (s.record? (Text.lower m.name)).isSome = false := by
    rw [← Bool.not_eq_true, ← mem_keys_iff]
    exact hfresh
  have hmention : mention m s =
      .ok m.key { s with records := s.records ++ [.fresh m.name m.line] } := by
    simp only [mention, hkey, hnone, Bool.false_eq_true, if_false, Mention.key]
  have hfind : ([m] : List Mention).find? (s.lexicon.isKind ·.name) = none := by
    simp [hkind]
  have hmentions : [m].mapM mention s =
      .ok [m.key] { s with records := s.records ++ [.fresh m.name m.line] } := by
    rw [List.mapM_cons, List.mapM_nil]
    simp only [bind, EStateM.bind, hmention]
    rfl
  rw [accept, setSubjects]
  simp only [bind, EStateM.bind, run_get, hfind, hmentions]
  rfl

/-- What is said to be of a kind and has no record but of its mention is given the kind. -/
theorem accept_kind_of_fresh {name key : String} {first : Nat} (line : Nat)
    (hr : s.record? key = some (.fresh name first)) (hsubjects : s.subjects = [key])
    (htype : k.type?.isSome = true) :
    ∃ r, accept (.kind k line) s = .ok () (s.replace r) ∧ r.key = key ∧
      r.kind = some (k, line) := by
  have hkey : (Record.fresh name first).key = key := key_of_record? hr
  refine ⟨{ Record.fresh name first with kind := some (k, line) }, ?_, hkey, rfl⟩
  have hset : (Record.fresh name first).setKind k line =
      .ok { Record.fresh name first with kind := some (k, line) } := by
    have hnone : k.type?.isNone = false := by rw [← Option.not_isSome, htype]; rfl
    rw [Record.setKind, hnone]
    rfl
  have hrevise : revise key line (·.setKind k line) s = .ok ()
      (s.replace { Record.fresh name first with kind := some (k, line) }) := by
    rw [revise, hr]
    simp only [hset]
  rw [accept, reviseSubjects]
  simp only [bind, EStateM.bind, run_get, hsubjects]
  rw [run_forM_cons]
  simp only [bind, EStateM.bind, hrevise]
  rfl

/-- **Something new that is said to be of a kind is recorded with the kind.** -/
theorem hear_kind_of_fresh (line : Nat) (e : Error) (hfresh : m.key ∉ s.keys)
    (hkind : s.lexicon.isKind m.name = false) (htype : k.type?.isSome = true) :
    ∃ t r, hear ⟨[.subjects [m], .kind k line], none⟩ e s = .ok () t ∧
      t.record? m.key = some r ∧ r.kind = some (k, line) := by
  have hfresh' : s.record? m.key = none := by
    rwa [mem_keys_iff, Option.not_isSome_iff_eq_none] at hfresh
  obtain ⟨mentioned, hmentioned⟩ : ∃ mentioned : Story, mentioned = { s with
      records := s.records ++ [.fresh m.name m.line], subjects := [m.key] } := ⟨_, rfl⟩
  have hrecord : mentioned.record? m.key = some (.fresh m.name m.line) := by
    rw [record?] at hfresh'
    rw [hmentioned, record?, List.find?_append, hfresh', Option.none_or]
    simp [Record.fresh, Record.key, Mention.key]
  have hsubjects : accept (.subjects [m]) s = .ok () mentioned := by
    rw [hmentioned]
    exact accept_subjects_of_fresh hfresh hkind
  obtain ⟨r, hgiven, hkey, hr⟩ :=
    accept_kind_of_fresh line hrecord (by rw [hmentioned]) htype
  refine ⟨mentioned.replace r, r, hear_ok_iff.mpr ⟨?_, rfl⟩, ?_, hr⟩
  · rw [run_forM_cons]
    refine run_bind_ok_iff.mpr ⟨(), mentioned, hsubjects, ?_⟩
    rw [run_forM_cons]
    exact run_bind_ok_iff.mpr ⟨(), _, hgiven, rfl⟩
  · rw [record?_replace hkey hrecord, if_pos rfl]

end Story

/-! ### A kind that was given, in the words -/

section Given

variable {l : Lexicon} {t : Token} {ts : List Token} {k : Kind} {line : Nat}

theorem Predicate.ofWord_kind {negated : Bool} (h : ofWord l negated t = .ok (.kind k)) :
    l.kind? t.text = some k ∧ t.text.toLower ∉ ["not", "in", "on"] := by
  simp only [ofWord] at h
  split at h
  · cases pure_ok_iff.mp (guard_ok_iff.mp h).2
  next hnot =>
  split at h
  · cases pure_ok_iff.mp (guard_ok_iff.mp h).2
  next hpreposition =>
  rw [guard_ok_iff] at h
  obtain ⟨-, h⟩ := h
  split at h
  · cases pure_ok_iff.mp h
  split at h
  · next kind hkind =>
    obtain rfl := Predicate.kind.inj (pure_ok_iff.mp h)
    refine ⟨(Option.filter_eq_some_iff.mp hkind).1, ?_⟩
    simp only [List.mem_cons, List.not_mem_nil, or_false, not_or]
    refine ⟨hnot, ?_, ?_⟩
    · intro hin
      rw [hin] at hpreposition
      cases hpreposition
    · intro hon
      rw [hon] at hpreposition
      cases hpreposition
  · simp at h

/-- A definition gives a kind only where a word means it. -/
theorem readDefinition_kind {several negated started : Bool}
    (h : .kind k line ∈ (readDefinition l several negated started ts).facts) :
    ∃ front t behind negated', ts = front ++ t :: behind ∧ t.kind = .word ∧
      Predicate.ofWord l negated' t = .ok (.kind k) := by
  have hcons : ∀ {t : Token} {ts : List Token},
      (∃ front u behind negated', ts = front ++ u :: behind ∧ u.kind = .word ∧
        Predicate.ofWord l negated' u = .ok (.kind k)) →
      ∃ front u behind negated', t :: ts = front ++ u :: behind ∧ u.kind = .word ∧
        Predicate.ofWord l negated' u = .ok (.kind k) := by
    rintro t ts ⟨front, u, behind, negated', rfl, hu⟩
    exact ⟨t :: front, u, behind, negated', rfl, hu⟩
  fun_induction readDefinition l several negated started ts with
  | case1 | case5 | case6 | case7 | case8 | case9 | case10 | case12 | case17 => cases h
  | case2 _ _ t ts hkind ih | case3 _ _ t ts hkind ih | case4 _ _ t ts hkind ih
  | case13 _ _ t ts hword hnot ih => exact hcons (ih h)
  | case11 => cases List.mem_singleton.mp h
  | case14 _ _ t ts hword p hp =>
    unfold readPlacement at h
    split at h
    · cases List.mem_singleton.mp h
    · cases h
  | case15 _ _ t ts hword p hp ih =>
    rcases List.mem_cons.mp h with heq | h
    · cases heq
    · exact hcons (ih h)
  | case16 negated _ t ts hword k' hk' ih =>
    rcases List.mem_cons.mp h with heq | h
    · obtain ⟨rfl, -⟩ := Fact.kind.inj heq
      exact ⟨[], t, ts, negated, rfl, hword, hk'⟩
    · exact hcons (ih h)

/-- **How a sentence gives a kind**: behind its verb, unless the word "kind" or a direction comes
first there. -/
theorem readTokens_kind {opening : Bool}
    (h : .kind k line ∈ (readTokens l opening ts).facts) :
    ∃ subjects rest t us several, readSubjects [] [] false ts = .ok (subjects, rest) ∧
      skipArticles rest = t :: us ∧ t.isWord "kind" = false ∧
      (t.kind = .word → l.isDirection t.text = false) ∧
      .kind k line ∈ (readDefinition l several false false (t :: us)).facts := by
  obtain ⟨subjects, rest, hsubjects, h⟩ := mem_readEquality_of_mem rfl h
  unfold readEquality at h
  split at h
  · cases h
  next t us hskip =>
  split at h
  · unfold readNewKinds at h
    split at h
    · cases h
    split at h
    · cases h
    split at h
    · cases h
    split at h
    · cases h
    split at h
    · cases h
    · cases List.mem_singleton.mp h
  next hkindWord =>
  rcases List.mem_cons.mp h with heq | h
  · cases heq
  split at h
  · unfold readLocation at h
    split at h
    · split at h
      · cases h
      split at h
      · split at h
        · cases List.mem_singleton.mp h
        · cases h
      · cases h
    · cases h
  · next hdirection =>
    refine ⟨subjects, rest, t, us, _, hsubjects, hskip, by simpa using hkindWord, ?_, h⟩
    intro hword
    simpa [hword] using hdirection

/-- The first verb of a use is the one that is meant. -/
theorem verb_of_thingSentence {thing verb : String} {kind before behind : List String}
    (hthing : isArticle thing = false)
    (h : "The" :: thing :: "is" :: "a" :: kind = before ++ verb :: behind)
    (hone : (bare before).length = 1) :
    before = ["The", thing] ∧ behind = "a" :: kind := by
  have hThe : isArticle "The" = true := by decide +kernel
  have his : isArticle "is" = false := isArticle_of_kindSentence.2.1
  match before with
  | [] => simp [bare] at hone
  | [_] =>
    obtain ⟨rfl, -⟩ := List.cons.inj h
    simp [bare, hThe] at hone
  | [_, _] =>
    simp only [List.cons_append, List.nil_append, List.cons.injEq] at h
    obtain ⟨rfl, rfl, -, rfl⟩ := h
    exact ⟨rfl, rfl⟩
  | _ :: _ :: _ :: more =>
    simp only [List.cons_append, List.cons.injEq] at h
    obtain ⟨rfl, rfl, rfl, -⟩ := h
    simp [bare, hThe, hthing, his] at hone

/-- What stands before something else than the last of a list, without the last. -/
theorem eq_of_append_singleton_of_ne {α : Type} {xs ys zs : List α} {a b : α} (hb : b ≠ a)
    (h : xs ++ [a] = ys ++ b :: zs) : ∃ zs', xs = ys ++ b :: zs' := by
  rcases List.eq_nil_or_concat zs with rfl | ⟨zs', c, rfl⟩
  · exact absurd (List.append_inj' h rfl).2.symm (by simpa using hb)
  · have hlast : xs ++ [a] = (ys ++ b :: zs') ++ [c] := by
      rw [h]
      simp
    exact ⟨zs', (List.append_inj' hlast rfl).1⟩

/-- A thing that is a term with the verb is no token of its own. -/
theorem exists_longer_token {n : Nat} {thing : String} {kind : List String} (line : Nat)
    (hl : l.Spoken) (hplain : ∀ w ∈ "The" :: thing :: "is" :: "a" :: kind, IsPlain w) (hn : 0 < n)
    (hterm : l.isTerm (" ".intercalate [thing, "is"]) = true) :
    ∃ run ts, (∀ w ∈ thing :: "is" :: run, IsPlain w) ∧
      phraseTokens l n line ("The" :: thing :: "is" :: "a" :: kind) =
        .ofWords ["The"] line :: .ofWords (thing :: "is" :: run) line :: ts := by
  have hThe : isArticle "The" = true := by decide +kernel
  have hcut : cut l.isTerm n (["The"] ++ thing :: "is" :: "a" :: kind) =
      ["The"].map ([·]) ++ cut l.isTerm n (thing :: "is" :: "a" :: kind) :=
    cut_articles hl hplain (List.forall_mem_singleton.mpr hThe)
  rw [List.singleton_append] at hcut
  rw [phraseTokens, hcut, cut]
  generalize hcount : termLength l.isTerm thing ((("is" :: "a" :: kind).take n).map .spaced) = k
  cases k with
  | succ k =>
    refine ⟨("a" :: kind).take k, _, fun w hw => hplain w ?_, rfl⟩
    refine List.mem_cons_of_mem _ (List.cons_subset_cons _ (List.cons_subset_cons _ ?_) hw)
    exact List.take_subset _ _
  | zero =>
    have hnot := not_isTerm_of_termLength_lt (n := 1) (hcount ▸ Nat.zero_lt_one)
      (by simp; omega)
    rw [phrase_spaced, Nat.min_eq_left hn] at hnot
    rw [List.take_succ_cons, List.take_zero, hterm] at hnot
    cases hnot

/-- What starts with the thing as a token of its own has no term of the thing and the verb. -/
theorem isTerm_verb_of_isPrefix {n : Nat} {thing : String} {kind : List String} {bs : List Token}
    (hl : l.Spoken) (hplain : ∀ w ∈ "The" :: thing :: "is" :: "a" :: kind, IsPlain w)
    (hn : 0 < n) (hbs : bs <+: phraseTokens l n line ("The" :: thing :: "is" :: "a" :: kind))
    (hwords : wordsOf bs = ["The", thing]) :
    l.isTerm (" ".intercalate [thing, "is"]) = false := by
  rw [← Bool.not_eq_true]
  intro hterm
  obtain ⟨run, ts, hrun, hlonger⟩ := exists_longer_token line hl hplain hn hterm
  have hThe : ∀ w ∈ ["The"], IsPlain w := by decide
  obtain ⟨far, hfar⟩ := hbs
  rw [hlonger] at hfar
  rcases bs with _ | ⟨first, _ | ⟨second, bs⟩⟩
  · cases hwords
  · obtain ⟨rfl, -⟩ := List.cons.inj hfar
    simp [words_ofWords hThe] at hwords
  · simp only [List.cons_append, List.cons.injEq] at hfar
    obtain ⟨rfl, rfl, -⟩ := hfar
    simp [words_ofWords hThe, words_ofWords hrun] at hwords

/-- **The tokens of a sentence that gives a kind.**  There is a word before the verb; behind it
the word that means the kind comes behind articles, or else behind something that no article
begins, and in the first case it is no direction and not the word "kind". -/
theorem tokens_of_kind {opening : Bool}
    (h : .kind k line ∈ (readTokens l opening ts).facts) :
    ∃ bs verb as front b behind, ts = bs ++ verb :: (as ++ (front ++ b :: behind)) ∧
      verb.kind = .equality ∧ (∃ u ∈ bs, u.kind = .word) ∧ (∀ u ∈ as, u.kind = .article) ∧
      (∀ u us, front = u :: us → u.kind ≠ .article) ∧ b.kind = .word ∧
      l.kind? b.text = some k ∧
      (front = [] → l.isDirection b.text = false ∧
        b.text.toLower ∉ ["kind", "not", "in", "on"]) := by
  obtain ⟨subjects, rest, t, us, several, hsubjects, hskip, hkindWord, hdirection, hfact⟩ :=
    readTokens_kind h
  obtain ⟨-, bs, verb, htokens, hverb, hsubject⟩ := exists_verb_of_readSubjects hsubjects
  obtain ⟨as, hrest, has⟩ := exists_articles rest
  obtain ⟨front, b, behind, negated, hdefinition, hb, hmeans⟩ := readDefinition_kind hfact
  obtain ⟨hkindOf, hreserved⟩ := Predicate.ofWord_kind hmeans
  refine ⟨bs, verb, as, front, b, behind, ?_, hverb, hsubject rfl, has, ?_, hb, hkindOf, ?_⟩
  · rw [htokens, hrest, hskip, hdefinition]
  · rintro u us' rfl
    obtain ⟨rfl, -⟩ := List.cons.inj hdefinition
    have hhead := List.head?_dropWhile_not (fun u : Token => decide (u.kind = .article)) rest
    rw [← skipArticles, hskip] at hhead
    simpa using hhead
  · rintro rfl
    obtain ⟨rfl, rfl⟩ := List.cons.inj hdefinition
    rw [List.mem_cons, not_or]
    refine ⟨hdirection hb, fun heq => ?_, hreserved⟩
    simp [Token.isWord, hb, heq] at hkindWord

/-- **The words of a sentence that gives a kind.**  Before the verb stands some word that is no
article; behind it the word that means the kind comes behind articles, or else behind other words
too, and in the first case it is no direction and not the word "kind". -/
theorem words_of_kind {n at' : Nat} {ws : List String} {stop : Token} {opening : Bool}
    (hl : l.Spoken) (hws : ∀ w ∈ ws, IsPlain w) (hstop : stop.kind = .stop)
    (h : .kind k at' ∈ (readTokens l opening (phraseTokens l n line ws ++ [stop])).facts) :
    ∃ bs verb near front core far, bs <+: phraseTokens l n line ws ∧
      ws = wordsOf bs ++ verb :: (near ++ (front ++ (core ++ far))) ∧
      0 < (bare (wordsOf bs)).length ∧ isArticle verb = false ∧ bare near = [] ∧
      (bare front = [] → front = []) ∧ bare core = core ∧ core ≠ [] ∧
      l.kind? (" ".intercalate core) = some k ∧
      (front = [] → l.isDirection (" ".intercalate core) = false ∧
        (" ".intercalate core).toLower ∉ ["kind", "not", "in", "on"]) := by
  have hterms := isTerm_phraseTokens l n line hws
  have hwords := wordsOf_phraseTokens l n line hws
  obtain ⟨bs, verb, as, front, b, behind, hall, hverb, ⟨u, hu, huWord⟩, has, hfront, hb, hmeans,
    hfirst⟩ := tokens_of_kind h
  have hne : b ≠ stop := by
    rintro rfl
    rw [hstop] at hb
    cases hb
  have hall : phraseTokens l n line ws ++ [stop] =
      (bs ++ verb :: (as ++ front)) ++ b :: behind := by
    rw [hall]
    simp
  obtain ⟨far, hphrase⟩ := eq_of_append_singleton_of_ne hne hall
  rw [hphrase] at hterms hwords
  simp only [List.mem_append, List.mem_cons] at hterms
  have huTerm := hterms u (.inl (.inl hu))
  have hverbTerm := hterms verb (.inl (.inr (.inl rfl)))
  have hbTerm := hterms b (.inr (.inl rfl))
  refine ⟨bs, verb.text, wordsOf as, wordsOf front, Text.words b.text, wordsOf far, ?_, ?_, ?_, ?_,
    bare_wordsOf_articles (fun u hu => hterms u (.inl (.inr (.inr (.inl hu))))) has, ?_,
    hbTerm.bare_words hl (by simp [hb]), hbTerm.nonempty, ?_, ?_⟩
  · rw [hphrase, List.append_assoc]
    exact List.prefix_append ..
  · rw [← hwords]
    simp [hverbTerm.words_of_kind_ne (by simp [hverb])]
  · obtain ⟨w, ws, hw⟩ := List.exists_cons_of_ne_nil huTerm.nonempty
    have hbare := bare_eq_self_iff.mp (huTerm.bare_words hl (by simp [huWord])) w (by simp [hw])
    refine List.length_pos_of_mem (a := w) (List.mem_filter.mpr ⟨?_, by simp [hbare]⟩)
    exact List.mem_flatMap.mpr ⟨u, hu, by simp [hw]⟩
  · rw [isArticle, ← hverbTerm.kind, hverb]
    rfl
  · -- what comes first where articles were skipped has a word that is none
    intro hbare
    cases front with
    | nil => rfl
    | cons v front =>
      have hvTerm := hterms v (.inl (.inr (.inr (.inr (List.mem_cons_self ..)))))
      rw [wordsOf_cons, bare_append, List.append_eq_nil_iff,
        hvTerm.bare_words hl (hfront v front rfl)] at hbare
      exact absurd hbare.1 hvTerm.nonempty
  · rw [hbTerm.phrase]
    exact hmeans
  · intro hnil
    rw [hbTerm.phrase]
    refine hfirst ?_
    cases front with
    | nil => rfl
    | cons v front =>
      have hvTerm := hterms v (.inl (.inr (.inr (.inr (List.mem_cons_self ..)))))
      rw [wordsOf_cons, List.append_eq_nil_iff] at hnil
      exact absurd hnil.1 hvTerm.nonempty

/-- **A use that gives a kind has it where it is written.**  If the kind has at least as many
words as were written for it, without the articles, then the word that means it is all that
was written, up to articles before and behind it. -/
theorem kind_of_thingSentence {n at' : Nat} {thing : String} {kind : List String} {stop : Token}
    {opening : Bool} (hl : l.Spoken) (hthing : IsPlain thing)
    (hword : TokenKind.ofWord thing = .word) (hkind : ∀ w ∈ kind, IsPlain w)
    (hstop : stop.kind = .stop) (hlength : (bare kind).length ≤ (Text.words k.name).length)
    (h : .kind k at' ∈ (readTokens l opening
      (phraseTokens l n line ("The" :: thing :: "is" :: "a" :: kind) ++ [stop])).facts) :
    (∃ before core after, kind = before ++ core ++ after ∧
      (∀ w ∈ before ++ after, isArticle w = true) ∧ bare core = core ∧
      l.kind? (" ".intercalate core) = some k ∧ l.isDirection (" ".intercalate core) = false ∧
      (" ".intercalate core).toLower ∉ ["kind", "not", "in", "on"]) ∧
    (0 < n → l.isTerm (" ".intercalate [thing, "is"]) = false) := by
  have hThe : isArticle "The" = true := by decide +kernel
  obtain ⟨ha, his, -⟩ := isArticle_of_kindSentence
  have hthingBare : isArticle thing = false := by
    rw [isArticle, hword]
    rfl
  have hplain := isPlain_of_thingSentence hthing hkind
  obtain ⟨bs, verb, near, front, core, far, hbs, hwords, hsubject, hverb, hnear, hfront, hcore,
    hnonempty, hmeans, hfirst⟩ := words_of_kind hl hplain hstop h
  -- the subject is one word and the kind has all it can have, so nothing else is left
  have hsolid : ∀ w ∈ core, Text.IsWord w := by
    intro w hw
    refine (hplain w ?_).isWord
    rw [hwords]
    simp [hw]
  have hcoreLength := hl.length_of_kind? (Text.isPhrase_joined hsolid) hmeans
  rw [Text.words_joined hsolid] at hcoreLength
  have hcount := congrArg (fun ws => (bare ws).length) hwords
  simp only [bare_append, bare_cons_of_article hThe, bare_cons hthingBare, bare_cons his,
    bare_cons_of_article ha, bare_cons hverb, hcore, hnear, List.length_append, List.length_cons,
    List.nil_append] at hcount
  obtain ⟨hbefore, hbehind⟩ := verb_of_thingSentence hthingBare hwords (by omega)
  obtain rfl : front = [] := hfront (List.eq_nil_of_length_eq_zero (by omega))
  have hfar : bare far = [] := List.eq_nil_of_length_eq_zero (by omega)
  obtain ⟨hdirection, hreserved⟩ := hfirst rfl
  refine ⟨?_, fun hn => isTerm_verb_of_isPrefix hl hplain hn hbs hbefore⟩
  rw [List.nil_append] at hbehind
  cases near with
  | nil =>
    -- the kind itself does not begin with an article
    obtain ⟨w, core, rfl⟩ := List.exists_cons_of_ne_nil hnonempty
    obtain ⟨rfl, -⟩ := List.cons.inj hbehind
    rw [bare_eq_self_iff.mp hcore "a" (List.mem_cons_self ..)] at ha
    cases ha
  | cons article before =>
    obtain ⟨rfl, hkindWords⟩ := List.cons.inj hbehind
    refine ⟨before, core, far, by rw [List.append_assoc]; exact hkindWords.symm, ?_, hcore, hmeans,
      hdirection, hreserved⟩
    have hbare := bare_eq_nil_iff.mp hnear
    exact List.forall_mem_append.mpr
      ⟨fun w hw => hbare w (List.mem_cons_of_mem _ hw), bare_eq_nil_iff.mp hfar⟩

end Given

end Adventure.Prose
