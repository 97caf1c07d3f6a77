/-
Kinds that are declared and then used.

A source that was taken in is gone on with by a sentence that declares a kind, and then by one
that says of a new thing that it is of the kind, in the words of the declaration.  The second
is taken in, and does what it says, just if the words are the name of the kind with articles
before and behind it at most, and mean nothing else where a kind is expected; but for a thing
that together with the verb makes a term, like "x" beside a kind called "x i".

The kind has the words of the declaration as its name, or more of them, if another verb was
taken.  It is known to no thing yet, so if a thing is of it after the use, then the use said
so; and what it said it can have said only with all the words of the name.
-/
import Adventure.Proofs.Prose.Agreement
import Adventure.Proofs.Prose.Usage

namespace Adventure

theorem Vocabulary.english_articleless : english.Articleless := by
  intro direction h
  rw [isDirection, Std.ExtTreeMap.contains_eq_isSome_getElem?, english_directions] at h
  obtain ⟨opposite, hopposite⟩ := Option.isSome_iff_exists.mp h
  obtain ⟨p, hp, heq⟩ := List.mem_map.mp (NameTable.mem_of_lookup hopposite)
  obtain ⟨rfl, -⟩ := Prod.mk.inj heq
  have hsmall : ∀ p ∈ englishDirections, Prose.Lexicon.smallWords p.1 = true := by
    decide +kernel
  exact Prose.Lexicon.articleless_of_smallWords (hsmall p hp)

namespace Prose

/-- How words spell a kind: the name of it in one piece, with nothing but articles before and
behind it, that means nothing else where a kind is expected. -/
def Lexicon.Spells (l : Lexicon) (written : List String) (k : Kind) : Prop :=
  ∃ before core after, written = before ++ core ++ after ∧
    (∀ w ∈ before ++ after, isArticle w = true) ∧ Text.lower (" ".intercalate core) = k.name ∧
    l.isDirection (" ".intercalate core) = false ∧
    (" ".intercalate core).toLower ∉ ["kind", "not", "in", "on"]

/-! ### Two sentences behind a source -/

namespace Story

variable {v : Vocabulary} {maxWords n line : Nat} {source w u : String} {ws us : List String}
  {s t : Story}

theorem toList_sentence (w : String) (ws : List String) (tail : List Char) :
    (" ".intercalate (w :: ws) ++ ".").toList ++ tail = w.toList ++ spacedOut ws tail := by
  have hdot : ".".toList = ['.'] := rfl
  rw [String.toList_append, toList_intercalate_cons, hdot, spacedOut]
  simp

/-- **A source and two sentences of words**, of which each is heard by what was taken in before
it. -/
theorem exists_line_of_ofSource (h : ofSource v maxWords source = .ok () s)
    (hw : IsPlain w) (hws : ∀ w ∈ ws, IsPlain w) (hu : IsPlain u) (hus : ∀ u ∈ us, IsPlain u) :
    ∃ line, ∀ t,
      (ofSource v maxWords (source ++ "\n\n" ++ (" ".intercalate (w :: ws) ++ ".")) = .ok () t ↔
        hearPhrase (maxWords - 1) line (w :: ws) s = .ok () t) ∧
      (ofSource v maxWords (source ++ "\n\n" ++ (" ".intercalate (w :: ws) ++ ".") ++ " " ++
          (" ".intercalate (u :: us) ++ ".")) = .ok () t ↔
        ∃ s₁, hearPhrase (maxWords - 1) line (w :: ws) s = .ok () s₁ ∧
          hearPhrase (maxWords - 1) line (u :: us) s₁ = .ok () t) := by
  obtain ⟨line, hcontinued⟩ := ofSource_continued h
  have hbegins : ∀ tail : List Char, BeginsWord (w.toList ++ spacedOut ws tail) := by
    intro tail
    obtain ⟨c, cs, hcs⟩ := List.exists_cons_of_ne_nil hw.1
    exact ⟨c, cs ++ spacedOut ws tail, by rw [hcs, List.cons_append],
      hw.2 c (hcs ▸ List.mem_cons_self ..)⟩
  have hone : (" ".intercalate (w :: ws) ++ ".").toList = w.toList ++ spacedOut ws [] := by
    rw [← toList_sentence, List.append_nil]
  have hsecond : (" " ++ (" ".intercalate (u :: us) ++ ".")).toList = spacedOut (u :: us) [] := by
    have hspace : " ".toList = [' '] := rfl
    rw [String.toList_append, hspace, ← List.append_nil (" ".intercalate (u :: us) ++ ".").toList,
      toList_sentence]
    simp [spacedOut]
  have htwo : (" ".intercalate (w :: ws) ++ "." ++
      (" " ++ (" ".intercalate (u :: us) ++ "."))).toList =
      w.toList ++ spacedOut ws (spacedOut (u :: us) []) := by
    rw [← toList_sentence, String.toList_append, hsecond]
  have hassoc : source ++ "\n\n" ++ (" ".intercalate (w :: ws) ++ ".") ++ " " ++
      (" ".intercalate (u :: us) ++ ".") = source ++ "\n\n" ++ (" ".intercalate (w :: ws) ++ "." ++
        (" " ++ (" ".intercalate (u :: us) ++ "."))) := by
    simp only [String.append_assoc]
  refine ⟨line, fun t => ⟨?_, ?_⟩⟩
  · rw [hcontinued _ (hone ▸ hbegins _), hone, readAll_phrase hw hws]
    simp only [readAll_end]
    constructor
    · rintro ⟨_, hheard, rfl⟩
      exact hheard
    · exact fun hheard => ⟨t, hheard, rfl⟩
  · rw [hassoc, hcontinued _ (htwo ▸ hbegins _), htwo, readAll_phrase hw hws]
    refine exists_congr fun s₁ => and_congr_right fun _ => ?_
    rw [pastParagraph_spacedOut hu, readAll_spacedOut (List.forall_mem_cons.mpr ⟨hu, hus⟩)]
    simp only [readAll_end]
    constructor
    · rintro ⟨_, hheard, rfl⟩
      exact hheard
    · exact fun hheard => ⟨t, hheard, rfl⟩

/-! ### A kind that was just declared -/

/-- What a declaration comes to: a kind under a name that begins with the words that were
written for it. -/
structure Coined (s s₁ : Story) (name : List String) (p k : Kind) (coined : String)
    (parent : Kind) : Prop where
  isName : IsName coined
  words : Text.words coined = bare name ∧ parent = p ∨
    ∃ more, more ≠ [] ∧ Text.words coined = bare name ++ more
  kind : k = s.lexicon.kinds.freshKind (Text.lower coined) parent
  checked : s.lexicon.checkKindName (Text.lower coined) s.maxWords = .ok ()
  records : s₁.records = s.records

section Declared

variable {s₁ : Story} {name parent : List String} {p k kindAbove : Kind} {coined : String}

/-- **A declaration after which there is one kind more.** -/
theorem exists_coined (hl : s.lexicon.Spoken) (hname : ∀ w ∈ name, IsPlain w)
    (hparent : ∀ w ∈ parent, IsPlain w) (hp : s.lexicon.kind? (" ".intercalate parent) = some p)
    (h : hearPhrase n line ("A" :: (name ++ "is" :: "a" :: "kind" :: "of" :: parent)) s = .ok () s₁)
    (hkinds : s₁.lexicon.kinds.kinds = s.lexicon.kinds.kinds ++ [k]) :
    ∃ coined kindAbove, Coined s s₁ name p k coined kindAbove := by
  obtain ⟨m, kindAbove, hfacts, hdeclared, hrecords⟩ := declared_of_hear h hkinds
  have hmem := List.mem_singleton_self (Fact.newKinds [m] kindAbove)
  rw [← hfacts] at hmem
  have hsolid : ∀ w ∈ parent, Text.IsWord w := fun w hw => (hparent w hw).isWord
  have harticles := hl.articleless_of_kind? (Text.isPhrase_joined hsolid) hp
  rw [Text.words_joined hsolid] at harticles
  obtain ⟨hchecked, hlexicon⟩ := Lexicon.declareKind_ok_iff.mp hdeclared
  refine ⟨m.name, kindAbove, ?_, ?_, ?_, hchecked, hrecords⟩
  · refine isName_of_newKinds hl (fun t ht hverbal => ?_) hmem m (List.mem_singleton_self m)
    rcases List.mem_append.mp ht with ht | ht
    · exact isTerm_phraseTokens _ _ _ (isPlain_of_kindSentence hname hparent) t ht
    · rw [List.mem_singleton.mp ht] at hverbal
      cases hverbal
  · rcases name_of_kindSentence hl hname hparent hmem with ⟨hwords, habove⟩ | ⟨more, hne, -, hwords⟩
    · exact .inl ⟨hwords, Option.some.inj ((habove harticles).symm.trans hp)⟩
    · exact .inr ⟨more, hne, hwords⟩
  · rw [hlexicon, KindTree.insert] at hkinds
    simpa using hkinds.symm

theorem Coined.kind_name (h : Coined s s₁ name p k coined kindAbove) :
    k.name = Text.lower coined := by
  rw [h.kind]
  exact Text.lower_lower _

theorem Coined.words_name (h : Coined s s₁ name p k coined kindAbove) :
    Text.words k.name = (Text.words coined).map Text.lower := by
  rw [h.kind_name, h.isName.phrase.words_lower]

/-- The kind has as many words as were written for it, or more. -/
theorem Coined.length_le (h : Coined s s₁ name p k coined kindAbove) :
    (bare name).length ≤ (Text.words k.name).length := by
  rw [h.words_name, List.length_map]
  rcases h.words with ⟨hwords, -⟩ | ⟨more, -, hwords⟩ <;> simp [hwords]

/-- A name of as many words as were written for it is what was written. -/
theorem Coined.eq_of_length (h : Coined s s₁ name p k coined kindAbove)
    (hlength : (Text.words k.name).length = (bare name).length) :
    coined = " ".intercalate (bare name) ∧ kindAbove = p := by
  rw [h.words_name, List.length_map] at hlength
  rcases h.words with ⟨hwords, habove⟩ | ⟨more, hne, hwords⟩
  · exact ⟨by rw [← hwords, h.isName.phrase], habove⟩
  · rw [hwords, List.length_append] at hlength
    exact absurd (List.eq_nil_of_length_eq_zero (by omega)) hne

/-- The new kind is none of the old ones. -/
theorem not_mem_of_kinds (hl : s₁.lexicon.Spoken)
    (hkinds : s₁.lexicon.kinds.kinds = s.lexicon.kinds.kinds ++ [k]) :
    k ∉ s.lexicon.kinds.kinds := by
  intro hk
  have hordered := hl.named.ordered
  rw [hkinds, List.pairwise_append] at hordered
  exact absurd (hordered.2.2 k hk k (List.mem_singleton_self k)) (Nat.lt_irrefl _)

end Declared

/-! ### The kind in use -/

section Used

variable {s₁ s₂ : Story} {thing : String} {name : List String} {p k kindAbove : Kind}
  {coined : String}

/-- **A kind that no thing had** is given by a fact that names it, if it is not standard. -/
theorem kind_mem_facts {r : Reading} {e : Error} {x : Unit} (h : hear r e s₁ = .ok x s₂)
    (hnone : ¬s₁.HasKind k) (hnew : k ∉ KindTree.standard.kinds) (hkind : s₂.HasKind k) :
    ∃ line, .kind k line ∈ r.facts := by
  have hgiven := (givesKinds_hear r e s₁ x s₂ h).2 k hkind
  obtain ⟨fact, hfact, hk⟩ := List.mem_flatMap.mp (hgiven.resolve_left hnone)
  cases fact with
  | kind kind line =>
    obtain rfl := List.mem_singleton.mp hk
    exact ⟨line, hfact⟩
  | placement placement target line =>
    rw [List.mem_singleton.mp hk] at hnew
    exact absurd (KindTree.defaultKind_mem_standard placement) hnew
  | location room direction origin line =>
    rw [List.mem_singleton.mp hk] at hnew
    exact absurd (by decide) hnew
  | _ => cases hk

/-- A use that gives a new kind spells it. -/
theorem Coined.spells_of_use (h : Coined s s₁ name p k coined kindAbove)
    (hl : s₁.lexicon.Spoken) (hthing : IsPlain thing) (hword : TokenKind.ofWord thing = .word)
    (hname : ∀ w ∈ name, IsPlain w) (hnone : ¬s₁.HasKind k)
    (hnew : k ∉ KindTree.standard.kinds)
    (huse : hearPhrase n line ("The" :: thing :: "is" :: "a" :: name) s₁ = .ok () s₂)
    (hkind : s₂.HasKind k) :
    s₁.lexicon.Spells name k ∧
      (0 < n → s₁.lexicon.isTerm (" ".intercalate [thing, "is"]) = false) := by
  obtain ⟨at', hfact⟩ := kind_mem_facts huse hnone hnew hkind
  obtain ⟨⟨before, core, after, rfl, harticles, hbare, hmeans, hdirection, hreserved⟩, halone⟩ :=
    kind_of_thingSentence hl hthing hword hname rfl h.length_le hfact
  refine ⟨⟨before, core, after, rfl, harticles, ?_, hdirection, hreserved⟩, halone⟩
  have hsolid : ∀ w ∈ core, Text.IsWord w := fun w hw => (hname w (by simp [hw])).isWord
  have hcore := bare_between_articles harticles hbare
  have hlength := hl.length_of_kind? (Text.isPhrase_joined hsolid) hmeans
  rw [Text.words_joined hsolid] at hlength
  rw [h.kind_name, (h.eq_of_length (by rw [hcore, hlength])).1, hcore]

/-- A new kind that is spelled out is found, if that means nothing else. -/
theorem Coined.meansKind (h : Coined s s₁ name p k coined kindAbove) (hl : s₁.lexicon.Spoken)
    (hkinds : s₁.lexicon.kinds.kinds = s.lexicon.kinds.kinds ++ [k]) {core : List String}
    (hspelled : Text.lower (" ".intercalate core) = k.name)
    (hdirection : s₁.lexicon.isDirection (" ".intercalate core) = false)
    (hreserved : (" ".intercalate core).toLower ∉ ["kind", "not", "in", "on"]) :
    s₁.lexicon.MeansKind (" ".intercalate core) k := by
  obtain ⟨-, -, hproperty, hworldly, -⟩ := Lexicon.checkKindName_ok_iff.mp h.checked
  have hlower : Text.lower coined = Text.lower (" ".intercalate core) :=
    h.kind_name.symm.trans hspelled.symm
  rw [hlower, Property.ofName?, Text.lower_lower] at hproperty
  rw [hlower, isWorldly, Text.lower_lower] at hworldly
  refine ⟨?_, hdirection, hreserved, hproperty, hworldly⟩
  refine hl.named.lookup?_eq_some_iff.mpr ⟨?_, .inl hspelled.symm⟩
  rw [hkinds]
  exact List.mem_append_right _ (List.mem_singleton_self k)

/-- **A new kind that is spelled has just the words that were written for it**, and is below
the kind that was written for that. -/
theorem Coined.of_spelled (h : Coined s s₁ name p k coined kindAbove)
    {before core after : List String} (hsplit : name = before ++ core ++ after)
    (hname : ∀ w ∈ name, IsPlain w) (harticles : ∀ w ∈ before ++ after, isArticle w = true)
    (hspelled : Text.lower (" ".intercalate core) = k.name) :
    core.length = (Text.words coined).length ∧ kindAbove = p := by
  have hsolid : ∀ w ∈ core, Text.IsWord w :=
    fun w hw => (hname w (by simp [hsplit, hw])).isWord
  have hwords : (Text.words coined).map Text.lower = core.map Text.lower := by
    rw [← h.words_name, ← hspelled, (Text.isPhrase_joined hsolid).words_lower,
      Text.words_joined hsolid]
  have hlength : core.length = (Text.words coined).length := by
    simpa using (congrArg List.length hwords).symm
  have hbare : bare core = core := by
    refine bare_eq_self_iff.mpr fun w hw => ?_
    obtain ⟨u, hu, heq⟩ := List.mem_map.mp (hwords ▸ List.mem_map_of_mem hw)
    rw [← isArticle_lower w, ← heq, isArticle_lower, h.isName.articleless u hu]
  have hcore : bare name = core := by
    rw [hsplit, bare_between_articles harticles hbare]
  refine ⟨hlength, (h.eq_of_length ?_).2⟩
  rw [h.words_name, List.length_map, hcore, hlength]

/-- **A use that spells a new kind is taken in**, and gives the kind to the thing. -/
theorem Coined.use_of_spells (h : Coined s s₁ name p k coined kindAbove)
    (hl : s₁.lexicon.Spoken)
    (hkinds : s₁.lexicon.kinds.kinds = s.lexicon.kinds.kinds ++ [k])
    (htype : p.type?.isSome = true) (hwords : s.maxWords ≤ n + 1)
    (hthing : IsPlain thing) (hword : TokenKind.ofWord thing = .word)
    (hfresh : Text.lower thing ∉ s₁.keys) (hnoKind : s₁.lexicon.isKind thing = false)
    (hname : ∀ w ∈ name, IsPlain w) (hspells : s₁.lexicon.Spells name k)
    (halone : 0 < n → s₁.lexicon.isTerm (" ".intercalate [thing, "is"]) = false) :
    ∃ s₂ r first, hearPhrase n line ("The" :: thing :: "is" :: "a" :: name) s₁ = .ok () s₂ ∧
      s₂.record? (Text.lower thing) = some r ∧ r.kind = some (k, first) := by
  obtain ⟨before, core, after, rfl, harticles, hspelled, hdirection, hreserved⟩ := hspells
  obtain ⟨hlength, rfl⟩ := h.of_spelled rfl hname harticles hspelled
  have hmeans := h.meansKind hl hkinds hspelled hdirection hreserved
  have hlimit := (Lexicon.checkKindName_ok_iff.mp h.checked).1
  rw [h.isName.phrase.words_lower, List.length_map, ← hlength] at hlimit
  have hne : core ≠ [] := by
    rintro rfl
    exact h.isName.nonempty (List.eq_nil_of_length_eq_zero hlength.symm)
  have hterm : s₁.lexicon.isTerm (" ".intercalate core) = true := by
    simp [Lexicon.isTerm, Lexicon.isKind, hmeans.kind]
  -- the tokens
  have htokens := phraseTokens_thingSentence line hl hthing hname harticles hne (by omega) hterm
    halone
  obtain ⟨hbefore, hafter⟩ := List.forall_mem_append.mp harticles
  have hnear := kind_of_mem_articles line
    (List.forall_mem_cons.mpr ⟨isArticle_of_kindSentence.1, hbefore⟩)
  have hcoreWord : (Token.ofWords core line).kind = .word := by
    change TokenKind.ofWord (" ".intercalate core) = .word
    rw [← TokenKind.ofWord_lower, hspelled, h.kind_name, TokenKind.ofWord_lower, h.isName.kind]
  have hstop : (⟨.stop, ".", line⟩ : Token).kind = .stop := rfl
  have hread := readTokens_thingSentence line hthing.isWord hword hnear
    (kind_of_mem_articles line hafter) hcoreWord hmeans hstop
  rw [← htokens] at hread
  -- what they say
  have htype : k.type?.isSome = true := by
    rw [h.kind]
    exact htype
  obtain ⟨s₂, r, hhear, hr, hkind⟩ := hear_kind_of_fresh (m := ⟨thing, line⟩) line
    (.internal "a sentence has no end") hfresh hnoKind htype
  refine ⟨s₂, r, line, ?_, hr, hkind⟩
  rw [hearPhrase, hread]
  exact hhear

end Used

/-- **A kind can be used as it was declared just if the words spell it.**  A source that was
taken in is gone on with by "A ... is a kind of ...", where the kind above makes things, and
that is taken in.  A sentence "The ... is a ..." behind it, about a thing that was not known and
with the words of the declaration, is taken in and records the thing with the kind that was just
declared if and only if the words spell that kind, and the thing is no term together with the
verb. -/
theorem declared_kind_usable_iff {v : Vocabulary} {maxWords : Nat} {source thing : String}
    {name parent : List String} {s s₁ : Story} {p : Kind} (hv : v.Articleless)
    (hs : ofSource v maxWords source = .ok () s) (hname : ∀ w ∈ name, IsPlain w)
    (hparent : ∀ w ∈ parent, IsPlain w) (hp : s.lexicon.kind? (" ".intercalate parent) = some p)
    (htype : p.type?.isSome = true)
    (hs₁ : ofSource v maxWords (source ++ "\n\n" ++ kindSentence name parent) = .ok () s₁)
    (hthing : IsPlain thing) (hword : TokenKind.ofWord thing = .word)
    (hfresh : Text.lower thing ∉ s₁.keys) (hkind : s₁.lexicon.isKind thing = false) :
    (∃ k s₂ r line, s₁.lexicon.kinds.kinds = s.lexicon.kinds.kinds ++ [k] ∧
      ofSource v maxWords (source ++ "\n\n" ++ kindSentence name parent ++ " " ++
        thingSentence thing name) = .ok () s₂ ∧
      s₂.record? (Text.lower thing) = some r ∧ r.kind = some (k, line)) ↔
    (∃ k, s₁.lexicon.kinds.kinds = s.lexicon.kinds.kinds ++ [k] ∧ s₁.lexicon.Spells name k) ∧
      (1 < maxWords → s₁.lexicon.isTerm (thing ++ " is") = false) := by
  have hl : s.lexicon.Spoken := spoken_ofSource hv hs
  have hl₁ : s₁.lexicon.Spoken := spoken_ofSource hv hs₁
  have hsound : s.Sound v := by
    have hsound := sound_ofSource v maxWords source
    rwa [hs] at hsound
  have hwords : s.maxWords = max maxWords 1 := maxWords_readAll hs
  obtain ⟨hA, hdeclaration⟩ := List.forall_mem_cons.mp (isPlain_of_kindSentence hname hparent)
  obtain ⟨hThe, huse⟩ := List.forall_mem_cons.mp (isPlain_of_thingSentence hthing hname)
  obtain ⟨line, hline⟩ := exists_line_of_ofSource hs hA hdeclaration hThe huse
  have hdeclared := (hline s₁).1.mp hs₁
  have hused : ∀ s₂, ofSource v maxWords (source ++ "\n\n" ++ kindSentence name parent ++ " " ++
      thingSentence thing name) = .ok () s₂ ↔
      hearPhrase (maxWords - 1) line ("The" :: thing :: "is" :: "a" :: name) s₁ = .ok () s₂ := by
    intro s₂
    refine (hline s₂).2.trans ⟨?_, fun h => ⟨s₁, hdeclared, h⟩⟩
    rintro ⟨s', hs', h⟩
    rw [hdeclared] at hs'
    obtain rfl := (EStateM.Result.ok.inj hs').2
    exact h
  have hverb : " ".intercalate [thing, "is"] = thing ++ " is" := by
    rw [String.intercalate_cons_cons, String.intercalate_singleton, String.append_assoc]
    rfl
  rw [← hverb]
  constructor
  · rintro ⟨k, s₂, r, at', hkinds, hs₂, hr, hgiven⟩
    obtain ⟨coined, kindAbove, hcoined⟩ :=
      exists_coined hl hname hparent hp hdeclared hkinds
    have hnew : k ∉ s.lexicon.kinds.kinds := not_mem_of_kinds hl₁ hkinds
    have hnone : ¬s₁.HasKind k := by
      rintro ⟨old, hold, first, hkind⟩
      rw [hcoined.records] at hold
      exact hnew ((hsound.refers old hold).kind k first hkind)
    obtain ⟨hspells, halone⟩ := hcoined.spells_of_use hl₁ hthing hword hname hnone
      (fun hstandard => hnew (hsound.lexicon.kinds.builtin hstandard)) ((hused s₂).mp hs₂)
      ⟨r, mem_of_record? hr, at', hgiven⟩
    exact ⟨⟨k, hkinds, hspells⟩, fun hlong => halone (by omega)⟩
  · rintro ⟨⟨k, hkinds, hspells⟩, halone⟩
    obtain ⟨coined, kindAbove, hcoined⟩ :=
      exists_coined hl hname hparent hp hdeclared hkinds
    obtain ⟨s₂, r, at', hheard, hr, hgiven⟩ := hcoined.use_of_spells (n := maxWords - 1) hl₁ hkinds
      htype (by omega) hthing hword hfresh hkind hname hspells fun hn => halone (by omega)
    exact ⟨k, s₂, r, at', hkinds, (hused s₂).mpr hheard, hr, hgiven⟩

/-- A lamp, before any jars. -/
def litLamp : String :=
  "The lamp is lit."

/-- Behind the lamp, wine jars can be declared and used. -/
theorem vase_is_wine_jar :
    ∃ s s₁ k s₂ r line, ofSource .english 2 litLamp = .ok () s ∧
      ofSource .english 2 (litLamp ++ "\n\n" ++ kindSentence ["wine", "jar"] ["container"]) =
        .ok () s₁ ∧
      s₁.lexicon.kinds.kinds = s.lexicon.kinds.kinds ++ [k] ∧
      ofSource .english 2 (litLamp ++ "\n\n" ++ kindSentence ["wine", "jar"] ["container"] ++ " " ++
        thingSentence "vase" ["wine", "jar"]) = .ok () s₂ ∧
      s₂.record? "vase" = some r ∧ r.kind = some (k, line) := by
  have hread : (match ofSource .english 2 litLamp, ofSource .english 2 (litLamp ++ "\n\n" ++
        kindSentence ["wine", "jar"] ["container"]) with
      | .ok _ s, .ok _ s₁ => decide (s.lexicon.kinds = .standard ∧
          s₁.lexicon.kinds = KindTree.standard.insert "wine jar" .container ∧
          s₁.keys = ["lamp"] ∧ s₁.lexicon.isDirection "wine jar" = false ∧
          s₁.lexicon.isTerm "vase is" = false)
      | _, _ => false) = true := by
    decide +kernel
  cases hs : ofSource .english 2 litLamp with
  | error e t =>
    rw [hs] at hread
    cases hread
  | ok u s =>
    cases hs₁ : ofSource .english 2 (litLamp ++ "\n\n" ++
        kindSentence ["wine", "jar"] ["container"]) with
    | error e t =>
      rw [hs, hs₁] at hread
      cases hread
    | ok u₁ s₁ =>
      rw [hs, hs₁] at hread
      obtain ⟨hbefore, hafter, hkeys, hdirection, halone⟩ := of_decide_eq_true hread
      have hvase : IsPlain "vase" := by decide
      have hlower : Text.lower "vase" = "vase" := by decide +kernel
      have hkinds : s₁.lexicon.kinds.kinds =
          s.lexicon.kinds.kinds ++ [KindTree.standard.freshKind "wine jar" .container] := by
        rw [hbefore, hafter, KindTree.insert]
      have hspells : s₁.lexicon.Spells ["wine", "jar"]
          (KindTree.standard.freshKind "wine jar" .container) :=
        ⟨[], ["wine", "jar"], [], rfl, List.forall_mem_nil _, by decide +kernel, hdirection,
          by decide +kernel⟩
      have husable := declared_kind_usable_iff (p := .container) Vocabulary.english_articleless hs
        (by decide) (by decide) (by rw [Lexicon.kind?, hbefore]; decide +kernel) rfl hs₁ hvase
        (by decide +kernel) (by rw [hkeys, hlower]; decide)
        (by rw [Lexicon.isKind, Lexicon.kind?, hafter]; decide +kernel)
      obtain ⟨k, s₂, r, line, hnew, hs₂, hr, hkind⟩ :=
        husable.mpr ⟨⟨_, hkinds, hspells⟩, fun _ => halone⟩
      exact ⟨s, s₁, k, s₂, r, line, rfl, rfl, hnew, hs₂, hlower ▸ hr, hkind⟩

/-- A jack the lad is declared, and then the words mean nothing: what was declared is a jack
lad. -/
theorem tom_is_no_jack_the_lad :
    ∃ s s₁, ofSource .english 2 "" = .ok () s ∧ s.lexicon.kind? "man" = some .man ∧
      ofSource .english 2 ("" ++ "\n\n" ++ kindSentence ["jack", "the", "lad"] ["man"]) =
        .ok () s₁ ∧
      "tom" ∉ s₁.keys ∧ s₁.lexicon.isTerm "tom" = false ∧ TokenKind.ofWord "tom" = .word ∧
      ∃ e t, ofSource .english 2 ("" ++ "\n\n" ++ kindSentence ["jack", "the", "lad"] ["man"] ++
        " " ++ thingSentence "tom" ["jack", "the", "lad"]) = .error e t := by
  have hread : (match ofSource .english 2 "", ofSource .english 2 ("" ++ "\n\n" ++
        kindSentence ["jack", "the", "lad"] ["man"]), ofSource .english 2 ("" ++ "\n\n" ++
          kindSentence ["jack", "the", "lad"] ["man"] ++ " " ++
            thingSentence "tom" ["jack", "the", "lad"]) with
      | .ok _ s, .ok _ s₁, .error _ _ => decide (s.lexicon.kind? "man" = some .man ∧
          "tom" ∉ s₁.keys ∧ s₁.lexicon.isTerm "tom" = false)
      | _, _, _ => false) = true := by
    decide +kernel
  split at hread
  · next u s u₁ s₁ e t hs hs₁ hrefused =>
    obtain ⟨hman, hkeys, hterm⟩ := of_decide_eq_true hread
    exact ⟨s, s₁, hs, hman, hs₁, hkeys, hterm, by decide +kernel, e, t, hrefused⟩
  · cases hread

end Story

end Prose

end Adventure
