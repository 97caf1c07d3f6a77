/-
What a sentence can say.

Whatever the tokens are, the facts read from them can be taken in: the names in them are
names, the kinds are kinds that the lexicon knows, and where a room lies is only said of
the one room that the sentence is about.  A sentence with an end is never found to be
cut short, because every reader stops at the token that ends it.  Both are shown reader
by reader, along the way each one takes through the tokens.
-/
import Adventure.Proofs.Outcome
import Adventure.Proofs.Prose.Kinds
import Adventure.Proofs.Prose.Tokens
import Mathlib.Data.List.Basic

namespace Adventure.Prose

open Text (EndsSolid)

/-! ### Facts that can be taken in -/

/-- A name ends in a character of a word. -/
def Mention.Sound (m : Mention) : Prop :=
  EndsSolid m.name.toList

/-- A fact that can be taken in by itself, when there are the kinds of a tree.  Where a
room lies is not such a fact. -/
def Fact.Sound (kinds : KindTree) : Fact → Prop
  | .title _ | .author _ | .description _ | .remark .. => True
  | .subjects things => ∀ m ∈ things, m.Sound
  | .property p .. => p ∈ Property.all
  | .kind k _ => k ∈ kinds.kinds
  | .placement _ target _ => target.Sound
  | .descriptionOf thing _ => thing.Sound
  | .newKinds names parent => (∀ m ∈ names, m.Sound) ∧ parent ∈ kinds.kinds
  | .location .. => False

/-- The facts of a sentence.  Where a room lies is said right after the sentence turned
to that room, and is all that is said. -/
inductive SoundFacts (v : Vocabulary) (kinds : KindTree) : List Fact → Prop
  | plain {facts : List Fact} (h : ∀ f ∈ facts, f.Sound kinds) : SoundFacts v kinds facts
  | location {room origin : Mention} {direction : String} {line : Nat} (hroom : room.Sound)
    (horigin : origin.Sound) (hdirection : v.isDirection direction = true) :
    SoundFacts v kinds [.subjects [room], .location room direction origin line]

/-- A lexicon of sound kinds and of the directions of a vocabulary. -/
structure Lexicon.Sound (v : Vocabulary) (l : Lexicon) : Prop where
  kinds : l.kinds.Sound
  vocabulary : l.vocabulary = v

/-- A reading of tokens, all of whose facts can be taken in, and that is not cut short
before the end of the sentence. -/
structure Reading.Plain (kinds : KindTree) (ts : List Token) (r : Reading) : Prop where
  facts : ∀ f ∈ r.facts, f.Sound kinds
  flaw : Ended ts → r.flaw ≠ some .cutShort

variable {v : Vocabulary} {l : Lexicon} {kinds : KindTree} {t : Token} {ts before : List Token}

/-! ### Ends -/

theorem not_ended_nil : ¬Ended [] :=
  nofun

theorem Ended.tail (h : Ended (t :: ts)) (ht : t.endsSentence = false) : Ended ts := by
  obtain ⟨last, hlast, hends⟩ := h
  rcases List.mem_cons.mp hlast with rfl | hlast
  · rw [ht] at hends
    cases hends
  · exact ⟨last, hlast, hends⟩

theorem endsSentence_of_kind {kind : TokenKind} (h : t.kind = kind) (hstop : kind ≠ .stop)
    (hfinish : kind ≠ .finish) : t.endsSentence = false := by
  simp [Token.endsSentence, h, hstop, hfinish]

theorem kind_of_isWord {word : String} (h : t.isWord word = true) : t.kind = .word := by
  simp only [Token.isWord, Bool.and_eq_true, decide_eq_true_eq] at h
  exact h.1

theorem endsSentence_of_isWord {word : String} (h : t.isWord word = true) :
    t.endsSentence = false :=
  endsSentence_of_kind (kind_of_isWord h) nofun nofun

theorem endFlaw?_ne_cutShort (h : Ended ts) : endFlaw? ts ≠ some .cutShort := by
  cases ts with
  | nil => exact absurd h not_ended_nil
  | cons t ts =>
    rw [endFlaw?]
    split <;> nofun

theorem ended_skipArticles (h : Ended ts) : Ended (skipArticles ts) := by
  induction ts with
  | nil => exact h
  | cons t ts ih =>
    rw [skipArticles, List.dropWhile_cons]
    split
    · next harticle =>
      exact ih (h.tail (endsSentence_of_kind (of_decide_eq_true harticle) nofun nofun))
    · exact h

theorem mem_of_mem_skipArticles {u : Token} (h : u ∈ skipArticles ts) : u ∈ ts :=
  (List.dropWhile_sublist _).mem h

/-! ### Names -/

theorem sound_ofWords {first : Token} {more : List Token}
    (h : ∀ w ∈ first :: more, EndsSolid w.text.toList) : (Mention.ofWords first more).Sound := by
  refine endsSolid_joined ?_
  intro text htext
  rw [← List.map_cons] at htext
  obtain ⟨w, hw, rfl⟩ := List.mem_map.mp htext
  exact h w hw

theorem forall_mem_append_singleton {P : Token → Prop} (hbefore : ∀ w ∈ before, P w) (ht : P t) :
    ∀ w ∈ before ++ [t], P w := by
  intro w hw
  rcases List.mem_append.mp hw with hw | hw
  · exact hbefore w hw
  · rwa [List.mem_singleton.mp hw]

theorem readName_ok {m : Mention} (h : readName before ts = .ok m)
    (hbefore : ∀ w ∈ before, EndsSolid w.text.toList) (hts : ∀ t ∈ ts, t.Sound) : m.Sound := by
  fun_induction readName before ts with
  | case1 => simp at h
  | case2 before t ts harticle ih =>
    exact ih h hbefore fun u hu => hts u (List.mem_cons_of_mem _ hu)
  | case3 before t ts hword ih =>
    have ht := hts t (List.mem_cons_self ..) hword
    exact ih h (forall_mem_append_singleton hbefore ht)
      fun u hu => hts u (List.mem_cons_of_mem _ hu)
  | case4 t ts first more | case5 t ts first more =>
    rw [pure_ok_iff.mp h]
    exact sound_ofWords hbefore
  | case6 => simp at h

theorem readName_error {f : Flaw} (hend : Ended ts) (h : readName before ts = .error f) :
    f ≠ .cutShort := by
  fun_induction readName before ts with
  | case1 => exact absurd hend not_ended_nil
  | case2 before t ts harticle ih =>
    exact ih (hend.tail (endsSentence_of_kind harticle nofun nofun)) h
  | case3 before t ts hword ih =>
    exact ih (hend.tail (endsSentence_of_kind hword nofun nofun)) h
  | case4 | case5 => simp at h
  | case6 =>
    rw [← throw_error_iff.mp h]
    nofun

/-- What comes of reading subjects: names, and tokens of the same sentence behind the
verb. -/
theorem readSubjects_ok {done subjects : List Mention} {rest : List Token} {afterComma : Bool}
    (h : readSubjects done before afterComma ts = .ok (subjects, rest))
    (hdone : ∀ m ∈ done, m.Sound) (hbefore : ∀ w ∈ before, EndsSolid w.text.toList)
    (hts : ∀ t ∈ ts, t.Sound) :
    (∀ m ∈ subjects, m.Sound) ∧ (∀ t ∈ rest, t.Sound) ∧ (Ended ts → Ended rest) := by
  have hmore : ∀ {done : List Mention} {first : Token} {more : List Token},
      (∀ m ∈ done, m.Sound) → (∀ w ∈ first :: more, EndsSolid w.text.toList) →
      ∀ m ∈ done ++ [.ofWords first more], m.Sound := by
    intro done first more hdone hwords m hm
    rcases List.mem_append.mp hm with hm | hm
    · exact hdone m hm
    · rw [List.mem_singleton.mp hm]
      exact sound_ofWords hwords
  have htail : ∀ {t : Token} {ts : List Token}, (∀ u ∈ t :: ts, u.Sound) → ∀ u ∈ ts, u.Sound :=
    fun hts u hu => hts u (List.mem_cons_of_mem _ hu)
  fun_induction readSubjects done before afterComma ts with
  | case1 => simp at h
  | case2 done before afterComma t ts harticle ih =>
    obtain ⟨hsubjects, hrest, hended⟩ := ih h hdone hbefore (htail hts)
    exact ⟨hsubjects, hrest, fun he => hended (he.tail (endsSentence_of_kind harticle nofun nofun))⟩
  | case3 done before afterComma t ts hword ih =>
    have ht := hts t (List.mem_cons_self ..) hword
    obtain ⟨hsubjects, hrest, hended⟩ :=
      ih h hdone (forall_mem_append_singleton hbefore ht) (htail hts)
    exact ⟨hsubjects, hrest, fun he => hended (he.tail (endsSentence_of_kind hword nofun nofun))⟩
  | case4 => simp at h
  | case5 done afterComma t ts first more hcomma ih =>
    obtain ⟨hsubjects, hrest, hended⟩ := ih h (hmore hdone hbefore) nofun (htail hts)
    exact ⟨hsubjects, hrest, fun he => hended (he.tail (endsSentence_of_kind hcomma nofun nofun))⟩
  | case6 done t ts hand ih =>
    obtain ⟨hsubjects, hrest, hended⟩ := ih h hdone nofun (htail hts)
    exact ⟨hsubjects, hrest, fun he => hended (he.tail (endsSentence_of_kind hand nofun nofun))⟩
  | case7 => simp at h
  | case8 done afterComma t ts first more hand ih =>
    obtain ⟨hsubjects, hrest, hended⟩ := ih h (hmore hdone hbefore) nofun (htail hts)
    exact ⟨hsubjects, hrest, fun he => hended (he.tail (endsSentence_of_kind hand nofun nofun))⟩
  | case9 done afterComma t ts first more hverb =>
    obtain ⟨rfl, rfl⟩ := Prod.mk.inj (pure_ok_iff.mp h)
    exact ⟨hmore hdone hbefore, htail hts,
      fun he => he.tail (endsSentence_of_kind hverb nofun nofun)⟩
  | case10 => simp at h

theorem readSubjects_error {done : List Mention} {afterComma : Bool} {f : Flaw} (hend : Ended ts)
    (h : readSubjects done before afterComma ts = .error f) : f ≠ .cutShort := by
  fun_induction readSubjects done before afterComma ts with
  | case1 => exact absurd hend not_ended_nil
  | case2 _ _ _ t ts hkind ih | case3 _ _ _ t ts hkind ih | case5 _ _ t ts _ _ hkind ih
  | case6 _ t ts hkind ih | case8 _ _ t ts _ _ hkind ih =>
    exact ih (hend.tail (endsSentence_of_kind hkind nofun nofun)) h
  | case4 | case7 | case10 =>
    rw [← throw_error_iff.mp h]
    nofun
  | case9 => simp at h

/-! ### What is said of the subjects -/

/-- A word that means a property or a kind that there is. -/
def Predicate.Sound (kinds : KindTree) : Predicate → Prop
  | property p => p ∈ Property.all
  | kind k => k ∈ kinds.kinds
  | _ => True

theorem Predicate.sound_ofWord {negated : Bool} {p : Predicate}
    (h : ofWord l negated t = .ok p) : p.Sound l.kinds := by
  simp only [ofWord] at h
  split at h
  · rw [pure_ok_iff.mp (guard_ok_iff.mp h).2]
    trivial
  · split at h
    · rw [pure_ok_iff.mp (guard_ok_iff.mp h).2]
      trivial
    · rw [guard_ok_iff] at h
      obtain ⟨-, h⟩ := h
      split at h
      · next q hq =>
        rw [pure_ok_iff.mp h]
        exact Property.mem_all_of_ofName? hq
      · split at h
        · next k hk =>
          rw [pure_ok_iff.mp h]
          exact KindTree.mem_of_lookup? (Option.filter_eq_some_iff.mp hk).1
        · simp at h

theorem Predicate.ofWord_error {negated : Bool} {f : Flaw} (h : ofWord l negated t = .error f) :
    f ≠ .cutShort := by
  rintro rfl
  simp only [ofWord] at h
  repeat' split at h
  all_goals simp at h

theorem Reading.Plain.flawed {f : Flaw} (h : Ended ts → f ≠ .cutShort) :
    (Reading.flawed f).Plain kinds ts :=
  ⟨nofun, fun he hcut => h he (Option.some.inj hcut)⟩

theorem Reading.Plain.silent : Reading.silent.Plain kinds ts :=
  ⟨by simp [Reading.silent], by simp [Reading.silent]⟩

theorem Reading.Plain.cutShort : (Reading.flawed .cutShort).Plain kinds [] :=
  .flawed fun he => absurd he not_ended_nil

/-- A reading of what follows a token that does not end the sentence. -/
theorem Reading.Plain.of_tail {r : Reading} (h : r.Plain kinds ts)
    (ht : t.endsSentence = false) : r.Plain kinds (t :: ts) :=
  ⟨h.facts, fun he => h.flaw (he.tail ht)⟩

theorem Reading.Plain.after {r : Reading} (h : r.Plain kinds ts) (fact : Fact)
    (hfact : fact.Sound kinds) : (r.after fact).Plain kinds ts :=
  ⟨List.forall_mem_cons.mpr ⟨hfact, h.facts⟩, h.flaw⟩

theorem plain_endFlaw? (ts : List Token) (fact : Fact) (hfact : fact.Sound kinds) :
    (⟨[fact], endFlaw? ts⟩ : Reading).Plain kinds ts :=
  ⟨by simpa using hfact, endFlaw?_ne_cutShort⟩

theorem plain_readPlacement (p : Preposition) (line : Nat) (hts : ∀ t ∈ ts, t.Sound) :
    (readPlacement p line ts).Plain kinds ts := by
  unfold readPlacement
  split
  · next target htarget =>
    refine ⟨?_, nofun⟩
    intro f hf
    rw [List.mem_singleton.mp hf]
    exact readName_ok htarget nofun hts
  · next f hf => exact .flawed fun he => readName_error he hf

theorem plain_readDefinition (l : Lexicon) (several negated started : Bool)
    (hts : ∀ t ∈ ts, t.Sound) :
    (readDefinition l several negated started ts).Plain l.kinds ts := by
  have htail : ∀ {t : Token} {ts : List Token}, (∀ u ∈ t :: ts, u.Sound) → ∀ u ∈ ts, u.Sound :=
    fun hts u hu => hts u (List.mem_cons_of_mem _ hu)
  fun_induction readDefinition l several negated started ts with
  | case1 => exact .cutShort
  | case2 _ _ t ts hkind ih | case3 _ _ t ts hkind ih | case4 _ _ t ts hkind ih =>
    exact (ih (htail hts)).of_tail (endsSentence_of_kind hkind nofun nofun)
  | case5 | case7 => exact .silent
  | case6 | case8 | case9 | case10 | case17 => exact .flawed fun _ => nofun
  | case11 _ _ t ts hquoted =>
    exact (plain_endFlaw? ts (.description t.text) trivial).of_tail
      (endsSentence_of_kind hquoted nofun nofun)
  | case12 _ _ t ts hword f hf => exact .flawed fun _ => Predicate.ofWord_error hf
  | case13 _ _ t ts hword hnot ih =>
    exact (ih (htail hts)).of_tail (endsSentence_of_kind hword nofun nofun)
  | case14 _ _ t ts hword p hp =>
    exact (plain_readPlacement p t.line (htail hts)).of_tail
      (endsSentence_of_kind hword nofun nofun)
  | case15 _ _ t ts hword p hp ih =>
    have hsound := Predicate.sound_ofWord hp
    exact ((ih (htail hts)).after (.property p _ t.line) hsound).of_tail
      (endsSentence_of_kind hword nofun nofun)
  | case16 _ _ t ts hword k hk ih =>
    have hsound := Predicate.sound_ofWord hk
    exact ((ih (htail hts)).after (.kind k t.line) hsound).of_tail
      (endsSentence_of_kind hword nofun nofun)

theorem plain_readNewKinds (l : Lexicon) {subjects : List Mention}
    (hsubjects : ∀ m ∈ subjects, m.Sound) (ts : List Token) :
    (readNewKinds l subjects ts).Plain l.kinds ts := by
  unfold readNewKinds
  split
  · exact .cutShort
  · next t ts =>
    split
    · exact .flawed fun _ => nofun
    · next hof =>
      have hof : t.isWord "of" = true := by simpa using hof
      refine Reading.Plain.of_tail ?_ (endsSentence_of_isWord hof)
      split
      · next hskip =>
        exact .flawed fun he => absurd (hskip ▸ ended_skipArticles he) not_ended_nil
      · next u us hskip =>
        split
        · exact .flawed fun _ => nofun
        · next parent hparent =>
          obtain ⟨hkind, hword⟩ := Option.filter_eq_some_iff.mp hparent
          have hus : Ended ts → Ended us := by
            intro he
            have he' : Ended (u :: us) := hskip ▸ ended_skipArticles he
            exact he'.tail (endsSentence_of_kind (of_decide_eq_true hword) nofun nofun)
          split
          · next f hf =>
            exact .flawed fun he hcut => endFlaw?_ne_cutShort (hus he) (hcut ▸ hf)
          · refine ⟨?_, nofun⟩
            intro f hf
            rw [List.mem_singleton.mp hf]
            exact ⟨hsubjects, KindTree.mem_of_lookup? hkind⟩

/-- Where the one subject lies, or a flaw. -/
theorem readLocation_cases (kinds : KindTree) (subjects : List Mention) (direction : Token)
    (hts : ∀ t ∈ ts, t.Sound) :
    (readLocation subjects direction ts).Plain kinds ts ∨
      ∃ room origin line, subjects = [room] ∧ origin.Sound ∧
        readLocation subjects direction ts =
          ⟨[.location room (Text.lower direction.text) origin line], none⟩ := by
  unfold readLocation
  split
  · next room =>
    split
    · exact .inl .cutShort
    · next t ts =>
      split
      · next hof =>
        have hof : t.endsSentence = false := by
          rcases Bool.or_eq_true_iff.mp hof with hof | hof
          · exact endsSentence_of_isWord hof
          · exact endsSentence_of_isWord hof
        split
        · next origin horigin =>
          have hsound := readName_ok horigin nofun fun u hu => hts u (List.mem_cons_of_mem _ hu)
          exact .inr ⟨room, origin, direction.line, rfl, hsound, rfl⟩
        · next f hf => exact .inl (.flawed fun he => readName_error (he.tail hof) hf)
      · exact .inl (.flawed fun _ => nofun)
  · exact .inl (.flawed fun _ => nofun)

/-! ### Whole sentences -/

/-- What comes of reading tokens: facts that can be taken in, and no cut before the end. -/
structure Reading.Sound (v : Vocabulary) (kinds : KindTree) (ts : List Token) (r : Reading) :
    Prop where
  facts : SoundFacts v kinds r.facts
  flaw : Ended ts → r.flaw ≠ some .cutShort

theorem Reading.Plain.sound {r : Reading} (h : r.Plain kinds ts) : r.Sound v kinds ts :=
  ⟨.plain h.facts, h.flaw⟩

theorem sound_readEquality (hl : l.Sound v) {subjects : List Mention}
    (hsubjects : ∀ m ∈ subjects, m.Sound) (hts : ∀ t ∈ ts, t.Sound) :
    (readEquality l subjects ts).Sound v l.kinds ts := by
  unfold readEquality
  split
  · next hskip =>
    have hcut : (Reading.flawed .cutShort).Plain l.kinds ts :=
      .flawed fun he => absurd (hskip ▸ ended_skipArticles he) not_ended_nil
    exact hcut.sound
  · next t us hskip =>
    have hended : Ended ts → Ended (t :: us) := fun he => hskip ▸ ended_skipArticles he
    have hsound : ∀ u ∈ t :: us, u.Sound := fun u hu => hts u (mem_of_mem_skipArticles (hskip ▸ hu))
    have hus : ∀ u ∈ us, u.Sound := fun u hu => hsound u (List.mem_cons_of_mem _ hu)
    split
    · next hkind =>
      have hplain := (plain_readNewKinds l hsubjects us).of_tail (endsSentence_of_isWord hkind)
      exact ⟨.plain hplain.facts, fun he => hplain.flaw (hended he)⟩
    · split
      · next hdirection =>
        obtain ⟨hword, hdirection⟩ := Bool.and_eq_true_iff.mp hdirection
        have hword : t.endsSentence = false :=
          endsSentence_of_kind (of_decide_eq_true hword) nofun nofun
        rcases readLocation_cases l.kinds subjects t hus with
          hplain | ⟨room, origin, line, rfl, horigin, heq⟩
        · have hafter := (hplain.after (.subjects subjects) hsubjects).of_tail hword
          exact ⟨.plain hafter.facts, fun he => hafter.flaw (hended he)⟩
        · rw [heq]
          refine ⟨.location (hsubjects room (List.mem_singleton_self _)) horigin ?_, nofun⟩
          rw [← hl.vocabulary]
          exact hdirection
      · have hplain := plain_readDefinition l (subjects.length ≠ 1) false false hsound
        have hafter := hplain.after (.subjects subjects) hsubjects
        exact ⟨.plain hafter.facts, fun he => hafter.flaw (hended he)⟩

/-- A thing that is described has a name: no name ends where its description's would
begin. -/
theorem sound_describedThing? {subjects : List Mention} (hsubjects : ∀ m ∈ subjects, m.Sound)
    {thing : Mention} (h : describedThing? subjects = some thing) : thing.Sound := by
  unfold describedThing? at h
  split at h
  · next m =>
    obtain ⟨rest, hrest, rfl⟩ := Option.map_eq_some_iff.mp h
    have hprefix : "description of ".toList ++ rest = (Text.lower m.name).toList :=
      List.append_eq_of_isPrefixOf?_eq_some hrest
    have hlower := Text.endsSolid_lower (hsubjects m (List.mem_singleton_self _))
    rw [← hprefix] at hlower
    rw [Mention.Sound, String.toList_ofList]
    refine hlower.of_append ?_
    rintro rfl
    obtain ⟨init, c, heq, hc⟩ := hlower
    have hlast := congrArg List.getLast? heq
    simp only [List.append_nil, List.getLast?_append, List.getLast?_singleton, Option.some_or]
      at hlast
    obtain rfl := Option.some.inj hlast
    exact absurd hc (by decide)
  · cases h

theorem sound_readStatement (hl : l.Sound v) (hts : ∀ t ∈ ts, t.Sound) :
    (readStatement l ts).Sound v l.kinds ts := by
  unfold readStatement
  split
  · next f hf =>
    have hflawed : (Reading.flawed f).Plain l.kinds ts := .flawed fun he => readSubjects_error he hf
    exact hflawed.sound
  · next subjects rest hsubjects =>
    obtain ⟨hsound, hrest, hended⟩ := readSubjects_ok hsubjects nofun nofun hts
    split
    · have hequality := sound_readEquality hl hsound hrest
      exact ⟨hequality.facts, fun he => hequality.flaw (hended he)⟩
    · next thing hthing =>
      split
      · have hcut : (Reading.flawed .cutShort).Plain l.kinds ts :=
          .flawed fun he => absurd (hended he) not_ended_nil
        exact hcut.sound
      · next t rest =>
        split
        · next hquoted =>
          have hfact : (Fact.descriptionOf thing t.text).Sound l.kinds :=
            sound_describedThing? hsound hthing
          have hplain := (plain_endFlaw? rest _ hfact).of_tail
            (endsSentence_of_kind hquoted nofun nofun)
          exact ⟨.plain hplain.facts, fun he => hplain.flaw (hended he)⟩
        · have hflawed : (Reading.flawed (.unexpected t .quotedText)).Plain l.kinds ts :=
            .flawed fun _ => nofun
          exact hflawed.sound

theorem plain_readAuthor : (readAuthor ts).Plain kinds ts := by
  unfold readAuthor
  split
  · exact .cutShort
  · next t rest =>
    split
    · next hby =>
      split
      · refine ⟨?_, nofun⟩
        intro f hf
        rw [List.mem_singleton.mp hf]
        trivial
      · next f hf =>
        exact .flawed fun he => readName_error (he.tail (endsSentence_of_isWord hby)) hf
    · exact ⟨nofun, endFlaw?_ne_cutShort⟩

/-- **Whatever the tokens are, what is read from them can be taken in**, and if one of
them ends the sentence the reading is never cut short. -/
theorem sound_readTokens (hl : l.Sound v) (opening : Bool) (hts : ∀ t ∈ ts, t.Sound) :
    (readTokens l opening ts).Sound v l.kinds ts := by
  unfold readTokens
  split
  · exact Reading.Plain.cutShort.sound
  · next t ts =>
    split
    · exact Reading.Plain.silent.sound
    · split
      · next hquoted =>
        have hquoted : t.endsSentence = false := endsSentence_of_kind hquoted nofun nofun
        split
        · exact ((plain_readAuthor.after (.title (titleText t.text)) trivial).of_tail hquoted).sound
        · exact ((plain_endFlaw? ts (.remark t.text t.line) trivial).of_tail hquoted).sound
      · exact sound_readStatement hl hts

end Adventure.Prose
