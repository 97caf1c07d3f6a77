/-
Words for things and words for kinds.

Things and kinds are kept in two tables that know of each other: no thing is recorded under
a word that means a kind, and no kind is declared under a word that is the key of a thing.
But a kind brings a second word along, its plural, and that is not compared with the things.
So a word can come to mean both in one way only: a thing is mentioned under it, and later a
kind is declared with that plural.  From then on the thing cannot be mentioned any more.

A sentence that declares kinds says nothing else, so each sentence adds to one of the two
tables at most; what such a sentence does to the words is followed through the sentences of
a source.
-/
import Adventure.Proofs.Letters
import Adventure.Proofs.Prose.Coherence

namespace Adventure.Prose

/-! ### Sentences that declare kinds -/

/-- A fact that adds to the kinds. -/
def Fact.declares : Fact → Bool
  | .newKinds .. => true
  | _ => false

theorem not_declares_readPlacement (p : Preposition) (line : Nat) (ts : List Token) :
    ∀ f ∈ (readPlacement p line ts).facts, f.declares = false := by
  unfold readPlacement
  split
  · exact List.forall_mem_singleton.mpr rfl
  · nofun

theorem not_declares_readDefinition (l : Lexicon) (several negated started : Bool)
    (ts : List Token) :
    ∀ f ∈ (readDefinition l several negated started ts).facts, f.declares = false := by
  fun_induction readDefinition l several negated started ts with
  | case1 | case5 | case6 | case7 | case8 | case9 | case10 | case12 | case17 =>
    exact List.forall_mem_nil _
  | case2 _ _ _ _ _ ih | case3 _ _ _ _ _ ih | case4 _ _ _ _ _ ih | case13 _ _ _ _ _ _ ih =>
    exact ih
  | case11 => exact List.forall_mem_singleton.mpr rfl
  | case14 => exact not_declares_readPlacement _ _ _
  | case15 _ _ _ _ _ _ _ ih | case16 _ _ _ _ _ _ _ ih => exact List.forall_mem_cons.mpr ⟨rfl, ih⟩

theorem not_declares_readLocation (subjects : List Mention) (direction : Token)
    (ts : List Token) :
    ∀ f ∈ (readLocation subjects direction ts).facts, f.declares = false := by
  unfold readLocation
  split
  · split
    · nofun
    split
    · split
      · exact List.forall_mem_singleton.mpr rfl
      · nofun
    · nofun
  · nofun

/-- The facts of a sentence either add nothing to the kinds, or are one that does. -/
def DeclaresAlone (facts : List Fact) : Prop :=
  (∀ f ∈ facts, f.declares = false) ∨ ∃ names parent, facts = [.newKinds names parent]

theorem declaresAlone_readNewKinds (l : Lexicon) (subjects : List Mention) (ts : List Token) :
    DeclaresAlone (readNewKinds l subjects ts).facts := by
  unfold readNewKinds
  split
  · exact .inl nofun
  split
  · exact .inl nofun
  split
  · exact .inl nofun
  split
  · exact .inl nofun
  split
  · exact .inl nofun
  · exact .inr ⟨_, _, rfl⟩

theorem declaresAlone_readEquality (l : Lexicon) (subjects : List Mention) (ts : List Token) :
    DeclaresAlone (readEquality l subjects ts).facts := by
  unfold readEquality
  split
  · exact .inl nofun
  · split
    · exact declaresAlone_readNewKinds l subjects _
    · refine .inl (List.forall_mem_cons.mpr ⟨rfl, ?_⟩)
      split
      · exact not_declares_readLocation _ _ _
      · exact not_declares_readDefinition _ _ _ _ _

theorem not_declares_readAuthor (ts : List Token) :
    ∀ f ∈ (readAuthor ts).facts, f.declares = false := by
  unfold readAuthor
  split
  · nofun
  split
  · split
    · exact List.forall_mem_singleton.mpr rfl
    · nofun
  · nofun

/-- **A sentence that declares kinds says nothing else.** -/
theorem declaresAlone_readTokens (l : Lexicon) (opening : Bool) (ts : List Token) :
    DeclaresAlone (readTokens l opening ts).facts := by
  unfold readTokens
  split
  · exact .inl nofun
  split
  · exact .inl nofun
  split
  · split
    · exact .inl (List.forall_mem_cons.mpr ⟨rfl, not_declares_readAuthor _⟩)
    · exact .inl (List.forall_mem_singleton.mpr rfl)
  · unfold readStatement
    split
    · exact .inl nofun
    split
    · exact declaresAlone_readEquality l _ _
    · split
      · exact .inl nofun
      · split
        · exact .inl (List.forall_mem_singleton.mpr rfl)
        · exact .inl nofun

/-- A word in lowercase means a kind if it is the singular or the plural of one. -/
theorem Lexicon.isKind_iff {l : Lexicon} {word : String} (hword : Text.lower word = word) :
    l.isKind word = true ↔ ∃ k ∈ l.kinds.kinds, k.name = word ∨ k.plural = word := by
  rw [isKind, kind?, KindTree.lookup?, hword]
  simp only [Option.orElse_eq_orElse, Option.orElse_eq_or, Option.isSome_or, List.find?_isSome,
    List.mem_reverse, beq_iff_eq, Bool.or_eq_true]
  constructor
  · rintro (⟨k, hk, hname⟩ | ⟨k, hk, hplural⟩)
    · exact ⟨k, hk, .inl hname⟩
    · exact ⟨k, hk, .inr hplural⟩
  · rintro ⟨k, hk, hname | hplural⟩
    · exact .inl ⟨k, hk, hname⟩
    · exact .inr ⟨k, hk, hplural⟩

namespace Story

variable {s t : Story} {key : String}

/-- Every key is in lowercase. -/
theorem lower_of_mem_keys (h : key ∈ s.keys) : Text.lower key = key := by
  obtain ⟨r, -, rfl⟩ := List.mem_map.mp h
  exact Text.lower_lower r.name

/-! ### Steps that mention things -/

/-- A step that declares nothing, and records things only under words that mean no kind. -/
def NamesThings {α : Type} (m : EStateM Error Story α) : Prop :=
  ∀ s a t, m s = .ok a t → t.lexicon = s.lexicon ∧
    ∀ key ∈ t.keys, key ∈ s.keys ∨ s.lexicon.isKind key = false

section Steps

variable {α β : Type} {m : EStateM Error Story α} {f : α → EStateM Error Story β}

/-- A step that leaves the lexicon and the keys alone. -/
theorem namesThings_of_keys (hlexicon : ∀ s a t, m s = .ok a t → t.lexicon = s.lexicon)
    (hkeys : ∀ s a t, m s = .ok a t → t.keys = s.keys) : NamesThings m := by
  intro s a t h
  refine ⟨hlexicon s a t h, ?_⟩
  rw [hkeys s a t h]
  exact fun key hkey => .inl hkey

theorem namesThings_pure (a : α) : NamesThings (pure a) :=
  namesThings_of_keys (by rintro s _ t ⟨⟩; rfl) (by rintro s _ t ⟨⟩; rfl)

theorem namesThings_get : NamesThings get :=
  namesThings_of_keys (by rintro s _ t ⟨⟩; rfl) (by rintro s _ t ⟨⟩; rfl)

theorem namesThings_throw (e : Error) : NamesThings (throw e : EStateM Error Story α) := by
  intro s a t h
  cases h

theorem namesThings_modify {g : Story → Story} (hlexicon : ∀ s, (g s).lexicon = s.lexicon)
    (hkeys : ∀ s, (g s).keys = s.keys) : NamesThings (modify g) :=
  namesThings_of_keys (by rintro s _ t ⟨⟩; exact hlexicon s) (by rintro s _ t ⟨⟩; exact hkeys s)

theorem NamesThings.bind (hm : NamesThings m) (hf : ∀ a, NamesThings (f a)) :
    NamesThings (m >>= f) := by
  intro s b t h
  obtain ⟨a, u, hu, ht⟩ := run_bind_ok_iff.mp h
  obtain ⟨hlexicon, hkeys⟩ := hm s a u hu
  obtain ⟨hlexicon', hkeys'⟩ := hf a u b t ht
  refine ⟨hlexicon'.trans hlexicon, fun key hkey => ?_⟩
  rw [← hlexicon]
  rcases hkeys' key hkey with hkey | hkind
  · rw [hlexicon]
    exact hkeys key hkey
  · exact .inr hkind

theorem namesThings_forM {f : α → EStateM Error Story PUnit} {as : List α}
    (h : ∀ a ∈ as, NamesThings (f a)) : NamesThings (as.forM f) := by
  induction as with
  | nil => exact namesThings_pure ()
  | cons a rest ih =>
    exact (h a (List.mem_cons_self ..)).bind fun _ =>
      ih fun b hb => h b (List.mem_cons_of_mem _ hb)

theorem namesThings_mapM {f : α → EStateM Error Story β} (h : ∀ a, NamesThings (f a))
    (as : List α) : NamesThings (as.mapM f) := by
  induction as with
  | nil => exact namesThings_pure []
  | cons a rest ih =>
    rw [List.mapM_cons]
    exact (h a).bind fun _ => ih.bind fun _ => namesThings_pure _

end Steps

theorem namesThings_revise (key : String) (line : Nat) (f : Record → Except Conflict Record) :
    NamesThings (revise key line f) := by
  have hstory : ∀ s a t, revise key line f s = .ok a t →
      t.lexicon = s.lexicon ∧ t.keys = s.keys := by
    intro s a t h
    unfold revise at h
    split at h
    · obtain rfl := (EStateM.Result.ok.inj h).2
      exact ⟨rfl, rfl⟩
    · split at h
      · obtain rfl := (EStateM.Result.ok.inj h).2
        exact ⟨rfl, keys_replace s _⟩
      · cases h
  exact namesThings_of_keys (fun s a t h => (hstory s a t h).1) fun s a t h => (hstory s a t h).2

/-- A thing is recorded under its key if that means no kind. -/
theorem namesThings_mention (m : Mention) : NamesThings (mention m) := by
  intro s key t h
  unfold mention at h
  dsimp only at h
  split at h
  · cases h
  · next hkind =>
    split at h
    · obtain rfl := (EStateM.Result.ok.inj h).2
      exact ⟨rfl, fun key hkey => .inl hkey⟩
    · obtain rfl := (EStateM.Result.ok.inj h).2
      refine ⟨rfl, fun key hkey => ?_⟩
      rw [keys, List.map_append, List.map_singleton, List.mem_append, List.mem_singleton] at hkey
      rcases hkey with hkey | rfl
      · exact .inl hkey
      · exact .inr (by simpa [Record.key, Record.fresh] using hkind)

theorem namesThings_reviseSubjects (line : Nat) (f : Record → Except Conflict Record) :
    NamesThings (reviseSubjects line f) :=
  namesThings_get.bind fun _ => namesThings_forM fun key _ => namesThings_revise key line f

theorem namesThings_setSubjects (things : List Mention) : NamesThings (setSubjects things) := by
  refine namesThings_get.bind fun s => ?_
  dsimp only
  split
  · exact namesThings_throw _
  · exact (namesThings_mapM namesThings_mention things).bind fun _ =>
      namesThings_modify (fun _ => rfl) fun _ => rfl

theorem namesThings_place (p : Preposition) (target : Mention) (line : Nat) :
    NamesThings (place p target line) := by
  refine (namesThings_mention target).bind fun key => namesThings_get.bind fun s => ?_
  have hplaced : NamesThings (s.subjects.forM fun subject => revise subject line fun r =>
      if subject = key then throw (.placedAtItself r.name p) else r.place ⟨p, key, line⟩) :=
    namesThings_forM fun subject _ => namesThings_revise subject line _
  dsimp only
  split
  · exact (namesThings_revise _ _ _).bind fun _ => hplaced
  · exact hplaced

theorem namesThings_locate (room : Mention) (direction : String) (origin : Mention)
    (line : Nat) : NamesThings (locate room direction origin line) := by
  refine (namesThings_mention origin).bind fun here => (namesThings_revise _ _ _).bind fun _ =>
    (namesThings_revise _ _ _).bind fun _ => (namesThings_revise _ _ _).bind fun _ =>
      namesThings_get.bind fun s => ?_
  split
  · exact namesThings_revise _ _ _
  · exact namesThings_pure _

/-- **A fact that declares no kind gives no thing a key that means one.** -/
theorem namesThings_accept {f : Fact} (hf : f.declares = false) : NamesThings (accept f) := by
  cases f with
  | title text | author name => exact namesThings_modify (fun _ => rfl) fun _ => rfl
  | subjects things => exact namesThings_setSubjects things
  | property property negated line => exact namesThings_reviseSubjects line _
  | kind kind line => exact namesThings_reviseSubjects line _
  | placement p target line => exact namesThings_place p target line
  | description text =>
    exact namesThings_get.bind fun _ => namesThings_forM fun key _ => namesThings_revise key 0 _
  | descriptionOf thing text =>
    exact (namesThings_mention thing).bind fun key => (namesThings_revise key 0 _).bind fun _ =>
      namesThings_modify (fun _ => rfl) fun _ => rfl
  | remark text line =>
    refine namesThings_get.bind fun s => ?_
    split
    · exact namesThings_revise _ 0 _
    · exact namesThings_throw _
  | location room direction origin line => exact namesThings_locate room direction origin line
  | newKinds names parent => cases hf

/-! ### Steps that declare kinds -/

/-- A kind is declared under a word that is no key. -/
theorem addKind_ok {m : Mention} {parent : Kind} {u : Unit} (h : addKind m parent s = .ok u t) :
    m.key ∉ s.keys ∧ ∃ l, s.lexicon.declareKind m.name parent s.maxWords = .ok l ∧
      t = { s with lexicon := l } := by
  unfold addKind at h
  split at h
  · cases h
  · next hknown =>
    split at h
    · next l hl =>
      obtain rfl := (EStateM.Result.ok.inj h).2
      exact ⟨fun hkey => hknown (mem_keys_iff.mp hkey), l, hl, rfl⟩
    · cases h

/-- **New kinds leave the things alone, and none has the key of a thing as its name.** -/
theorem declared_forM {names : List Mention} {parent : Kind} {u : Unit}
    (h : names.forM (addKind · parent) s = .ok u t) :
    t.keys = s.keys ∧ ∀ k ∈ t.lexicon.kinds.kinds,
      k ∈ s.lexicon.kinds.kinds ∨ k.name ∉ s.keys := by
  induction names generalizing s with
  | nil =>
    obtain rfl := (EStateM.Result.ok.inj h).2
    exact ⟨rfl, fun k hk => .inl hk⟩
  | cons m names ih =>
    rw [run_forM_cons] at h
    obtain ⟨_, r, hr, ht⟩ := run_bind_ok_iff.mp h
    obtain ⟨hfresh, l, hl, rfl⟩ := addKind_ok hr
    obtain ⟨hkeys, hkinds⟩ := ih ht
    refine ⟨hkeys, fun k hk => ?_⟩
    rcases hkinds k hk with hk | hk
    · simp only [Lexicon.declareKind, bind_ok_iff, pure_ok_iff] at hl
      obtain ⟨-, -, rfl⟩ := hl
      rcases List.mem_append.mp hk with hk | hk
      · exact .inl hk
      · rw [List.mem_singleton.mp hk]
        exact .inr (by simpa [KindTree.freshKind, Kind.name, Kind.label, Mention.key] using hfresh)
    · exact .inr hk

/-! ### Between two sentences -/

/-- A sentence that is taken in has no flaw. -/
theorem hear_ok_iff {r : Reading} {e : Error} {u : Unit} :
    hear r e s = .ok u t ↔ r.facts.forM accept s = .ok () t ∧ r.flaw = none := by
  rw [hear, run_bind_ok_iff]
  cases r.flaw with
  | some f => simp
  | none =>
    simp only [run_pure, and_true]
    constructor
    · rintro ⟨_, w, hw, hend⟩
      exact (EStateM.Result.ok.inj hend).2 ▸ hw
    · intro h
      exact ⟨_, t, h, rfl⟩

/-- What a sentence does to the words: a thing and a kind that were not both there before have
different names, and if the key of the thing is the plural of the kind, the thing was there
and the kind was not. -/
theorem words_of_hear {l : Lexicon} {opening : Bool} {ts : List Token} {e : Error} {u : Unit}
    (h : hear (readTokens l opening ts) e s = .ok u t) :
    ∀ key ∈ t.keys, ∀ k ∈ t.lexicon.kinds.kinds,
      key ∈ s.keys ∧ k ∈ s.lexicon.kinds.kinds ∨
        k.name ≠ key ∧ (k.plural = key → key ∈ s.keys ∧ k ∉ s.lexicon.kinds.kinds) := by
  intro key hkey k hk
  have hfacts := (hear_ok_iff.mp h).1
  rcases declaresAlone_readTokens l opening ts with hnone | ⟨names, parent, hnew⟩
  · have hnames : NamesThings ((readTokens l opening ts).facts.forM accept) :=
      namesThings_forM fun f hf => namesThings_accept (hnone f hf)
    obtain ⟨hlexicon, hkeys⟩ := hnames s _ t hfacts
    rcases hkeys key hkey with hold | hkind
    · exact .inl ⟨hold, hlexicon ▸ hk⟩
    · rw [← hlexicon, Bool.eq_false_iff, Ne, Lexicon.isKind_iff (lower_of_mem_keys hkey)] at hkind
      exact .inr ⟨fun hname => hkind ⟨k, hk, .inl hname⟩,
        fun hplural => absurd ⟨k, hk, .inr hplural⟩ hkind⟩
  · rw [hnew, run_forM_cons] at hfacts
    obtain ⟨_, r, haccept, hend⟩ := run_bind_ok_iff.mp hfacts
    obtain rfl := (EStateM.Result.ok.inj hend).2
    rw [accept] at haccept
    obtain ⟨_, w, hdeclared, hend⟩ := run_bind_ok_iff.mp haccept
    obtain rfl := (EStateM.Result.ok.inj hend).2
    obtain ⟨hkeys, hkinds⟩ := declared_forM hdeclared
    have hold : key ∈ s.keys := hkeys ▸ hkey
    by_cases hbefore : k ∈ s.lexicon.kinds.kinds
    · exact .inl ⟨hold, hbefore⟩
    · have hname : k.name ∉ s.keys := (hkinds k hk).resolve_left hbefore
      exact .inr ⟨fun heq => hname (heq ▸ hold), fun _ => ⟨hold, hbefore⟩⟩

/-- **Of a thing and a kind that were not both there from the start**, the thing was mentioned
at some point before the kind was declared, if its key is the plural of the kind. -/
theorem Passes.words {scanner : Scanner} {opening : Bool} (h : Passes scanner opening s t) :
    ∀ key ∈ t.keys, ∀ k ∈ t.lexicon.kinds.kinds,
      key ∈ s.keys ∧ k ∈ s.lexicon.kinds.kinds ∨
        k.name ≠ key ∧ (k.plural = key → ∃ s₀, Passes scanner opening s s₀ ∧ key ∈ s₀.keys ∧
          k ∉ s₀.lexicon.kinds.kinds) := by
  induction h with
  | here => exact fun key hkey k hk => .inl ⟨hkey, hk⟩
  | @broken scanner opening s _ _ _ _ hhear | @last scanner _ opening s _ _ _ hhear =>
    intro key hkey k hk
    exact (words_of_hear hhear key hkey k hk).imp_right fun hwords =>
      ⟨hwords.1, fun hplural => ⟨s, .here scanner opening s, hwords.2 hplural⟩⟩
  | @next scanner rest opening s t u ts hsentence hhear _ ih =>
    intro key hkey k hk
    rcases ih key hkey k hk with ⟨hkey, hk⟩ | ⟨hname, hlater⟩
    · exact (words_of_hear hhear key hkey k hk).imp_right fun hwords =>
        ⟨hwords.1, fun hplural => ⟨s, .here scanner opening s, hwords.2 hplural⟩⟩
    · refine .inr ⟨hname, fun hplural => ?_⟩
      obtain ⟨s₀, hs₀, hknown⟩ := hlater hplural
      exact ⟨s₀, .next hsentence hhear hs₀, hknown⟩

/-- **When a word means both a thing and a kind.**  At each point between two sentences of
whatever source, no thing goes by the name of a kind; the key of a thing means a kind just if
it is the plural of one that was declared after the thing was mentioned; and just then the
thing cannot be mentioned again. -/
theorem thing_means_kind_iff (v : Vocabulary) (maxWords : Nat) (source : String) :
    ∀ s, Passes (.ofSource source maxWords) true (.empty v maxWords) s → ∀ r ∈ s.records,
      (∀ k ∈ s.lexicon.kinds.kinds, k.name ≠ r.key) ∧
      (s.lexicon.isKind r.key = true ↔ ∃ k ∈ s.lexicon.kinds.kinds, k.plural = r.key ∧
        ∃ s₀, Passes (.ofSource source maxWords) true (.empty v maxWords) s₀ ∧
          r.key ∈ s₀.keys ∧ k ∉ s₀.lexicon.kinds.kinds) ∧
      ∀ m : Mention, m.key = r.key →
        (mention m s = .ok r.key s ↔ s.lexicon.isKind r.key = false) := by
  intro s hs r hr
  have hkey : r.key ∈ s.keys := List.mem_map_of_mem hr
  have hwords : ∀ k ∈ s.lexicon.kinds.kinds, k.name ≠ r.key ∧ (k.plural = r.key →
      ∃ s₀, Passes (.ofSource source maxWords) true (.empty v maxWords) s₀ ∧ r.key ∈ s₀.keys ∧
        k ∉ s₀.lexicon.kinds.kinds) :=
    fun k hk => (hs.words r.key hkey k hk).resolve_left fun hboth => nomatch hboth.1
  refine ⟨fun k hk => (hwords k hk).1, ?_, ?_⟩
  · rw [Lexicon.isKind_iff (lower_of_mem_keys hkey)]
    constructor
    · rintro ⟨k, hk, hname | hplural⟩
      · exact absurd hname (hwords k hk).1
      · exact ⟨k, hk, hplural, (hwords k hk).2 hplural⟩
    · rintro ⟨k, hk, hplural, -⟩
      exact ⟨k, hk, .inr hplural⟩
  · intro m hm
    have hm : Text.lower m.name = r.key := hm
    rw [mention, hm]
    cases s.lexicon.isKind r.key with
    | true => simp
    | false => simp [mem_keys_iff.mp hkey]

/-- A jar, and something else that is none. -/
def jarBesideLamp : String :=
  "The lamp is a thing. A jar is a kind of thing."

/-- The lamp can be mentioned again after jars became known. -/
theorem lamp_beside_jar :
    ∃ s, Passes (.ofSource jarBesideLamp 1) true (.empty .english 1) s ∧ s.keys = ["lamp"] ∧
      s.lexicon.isKind "jars" = true ∧ mention ⟨"Lamp", 2⟩ s = .ok "lamp" s := by
  have hread : (match ofSource .english 1 jarBesideLamp with
      | .ok _ s => decide (s.keys = ["lamp"] ∧ s.lexicon.isKind "jars" = true ∧
          s.lexicon.isKind "lamp" = false)
      | .error .. => false) = true := by
    decide +kernel
  cases hs : ofSource .english 1 jarBesideLamp with
  | error e t =>
    rw [hs] at hread
    cases hread
  | ok u s =>
    rw [hs] at hread
    obtain ⟨hkeys, hjars, hlamp⟩ := of_decide_eq_true hread
    have hpasses := passes_of_readAll hs
    obtain ⟨r, hr, hkey⟩ := List.mem_map.mp (hkeys ▸ List.mem_singleton_self "lamp")
    have hmention := (thing_means_kind_iff .english 1 jarBesideLamp s hpasses r hr).2.2 ⟨"Lamp", 2⟩
    rw [hkey] at hmention
    exact ⟨s, hpasses, hkeys, hjars, (hmention (by decide +kernel)).mpr hlamp⟩

/-- A thing that has the plural of a kind as its name. -/
def thingNamedJars : String :=
  "The jars is a thing. A jar is a kind of thing."

/-- What is called jars is a thing and a kind at the end, and cannot be mentioned again. -/
theorem jars_are_both :
    ∃ s, Passes (.ofSource thingNamedJars 1) true (.empty .english 1) s ∧ "jars" ∈ s.keys ∧
      s.lexicon.isKind "jars" = true ∧ ∃ e, mention ⟨"jars", 2⟩ s = .error e s := by
  have hread : (match ofSource .english 1 thingNamedJars with
      | .ok _ s => decide ("jars" ∈ s.keys ∧ s.lexicon.isKind "jars" = true)
      | .error .. => false) = true := by
    decide +kernel
  cases hs : ofSource .english 1 thingNamedJars with
  | error e t =>
    rw [hs] at hread
    cases hread
  | ok u s =>
    rw [hs] at hread
    obtain ⟨hkey, hkind⟩ := of_decide_eq_true hread
    refine ⟨s, passes_of_readAll hs, hkey, hkind,
      (Objection.kindNotThing "jars").onLine 2, ?_⟩
    have hlower : Text.lower "jars" = "jars" := by decide +kernel
    rw [mention, hlower, hkind]
    rfl

end Story

end Adventure.Prose
