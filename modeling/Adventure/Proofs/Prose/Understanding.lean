/-
What is listened to is what is read.

Whoever listens token by token comes to the same as whoever reads whole sentences: to the same
names and subjects, to the same facts in the same order, to the same flaw.  It is shown for each
listener in turn, along the tokens that are on offer, and then for a whole source, sentence by
sentence.  As reading whole sentences ends, so does listening.
-/
import Adventure.Proofs.Prose.Homonyms
import Adventure.Proofs.Prose.Listening

namespace Adventure.Prose

namespace Listening

variable {α : Type} {m : Nat → Listening Unit} {s s' : Story} {fact : Fact} {r : Reading}
  {l : Lexicon} {lx lx' : Lexer} {t : Token} {ts : List Token} {ending : Ending}

/-! ### Listening to names -/

theorem goes_of_kind {kind : TokenKind} (hkind : t.kind = kind)
    (hgoes : kind ≠ .stop ∧ kind ≠ .finish) : t.endsSentence = false := by
  subst hkind
  simp [Token.endsSentence, hgoes]

/-- **A name** up to the end of the sentence, which is on offer then. -/
theorem yields_name (h : Lexer.Offers s.lexicon lx ts ending) (before : List Token) :
    Yields (name · before) (readName before ts)
      (fun m a lx' => a = m ∧ ∃ t, t.endsSentence = true ∧ Lexer.Offers s.lexicon lx' [t] ending)
      ending lx s := by
  induction ts generalizing lx before with
  | nil => exact .of_succ (yields_broken h)
  | cons t ts ih =>
    rw [readName.eq_def]
    refine .of_succ (yields_next h fun lx' htook => ?_)
    dsimp only
    have hnamed : t.endsSentence = true → ∀ m : Mention,
        Yields (fun _ => do putBack t; pure m) (.ok m)
        (fun m a lx' => a = m ∧ ∃ t, t.endsSentence = true ∧ Lexer.Offers s.lexicon lx' [t] ending)
        ending lx' s := by
      intro hends m
      obtain ⟨rfl, -⟩ := htook.ended hends
      exact ⟨m, _, gives_bind (gives_putBack t _) (gives_pure m _), rfl, t, hends, htook.push⟩
    cases hkind : t.kind with
    | article | word => exact ih (htook.rest (goes_of_kind hkind (by decide))) _
    | stop | finish =>
      cases before with
      | nil => exact yields_refuse rfl
      | cons first more => exact hnamed (by simp [Token.endsSentence, hkind]) _
    | _ => exact yields_refuse rfl

/-- **The subjects** up to the verb, which is on offer then. -/
theorem yields_subjects (h : Lexer.Offers s.lexicon lx ts ending) (done : List Mention)
    (before : List Token) (afterComma : Bool) :
    Yields (subjects · done before afterComma) (readSubjects done before afterComma ts)
      (fun read things lx' => things = read.1 ∧ ∃ verb, verb.kind = .equality ∧
        Lexer.Offers s.lexicon lx' (verb :: read.2) ending) ending lx s := by
  induction ts generalizing lx done before afterComma with
  | nil => exact .of_succ (yields_broken h)
  | cons t ts ih =>
    rw [readSubjects.eq_def]
    refine .of_succ (yields_next h fun lx' htook => ?_)
    dsimp only
    cases hkind : t.kind with
    | article | word => exact ih (htook.rest (goes_of_kind hkind (by decide))) _ _ _
    | comma =>
      cases before with
      | nil => exact yields_refuse rfl
      | cons => exact ih (htook.rest (goes_of_kind hkind (by decide))) _ _ _
    | conjunction =>
      cases before with
      | cons => exact ih (htook.rest (goes_of_kind hkind (by decide))) _ _ _
      | nil =>
        cases afterComma with
        | true => exact ih (htook.rest (goes_of_kind hkind (by decide))) _ _ _
        | false => exact yields_refuse rfl
    | equality =>
      cases before with
      | nil => exact yields_refuse rfl
      | cons =>
        exact ⟨_, _, gives_bind (gives_putBack t _) (gives_pure _ _), rfl, t, hkind, htook.push⟩
    | _ => exact yields_refuse rfl

/-- The first token that is no article. -/
theorem yields_pastArticles (h : Lexer.Offers s.lexicon lx ts ending) :
    Yields pastArticles (match skipArticles ts with
      | [] => .error .cutShort
      | t :: ts => .ok (t, ts))
      (fun read t lx' => t = read.1 ∧ Lexer.Took s.lexicon t read.2 ending lx') ending lx s := by
  induction ts generalizing lx with
  | nil => exact .of_succ (yields_broken h)
  | cons t ts ih =>
    refine .of_succ (yields_next h fun lx' htook => ?_)
    by_cases hkind : t.kind = .article
    · have hskip : skipArticles (t :: ts) = skipArticles ts :=
        List.dropWhile_cons_of_pos (decide_eq_true hkind)
      simp only [if_pos hkind, hskip]
      exact ih (htook.rest (goes_of_kind hkind (by decide)))
    · have hskip : skipArticles (t :: ts) = t :: ts :=
        List.dropWhile_cons_of_neg (by simpa using hkind)
      simp only [if_neg hkind, hskip]
      exact ⟨t, lx', gives_pure t _, rfl, htook⟩

/-- The end of the sentence, or something else. -/
theorem yields_expectEnd (h : Lexer.Offers s.lexicon lx ts ending) :
    Yields (fun _ => expectEnd) (match endFlaw? ts with
      | some f => .error f
      | none => .ok ()) (fun _ _ lx' => Lexer.Behind ending lx') ending lx s := by
  cases ts with
  | nil => exact yields_broken h
  | cons t ts =>
    refine yields_next h fun lx' htook => ?_
    rw [endFlaw?]
    cases hends : t.endsSentence with
    | true =>
      obtain ⟨lx'', hgives, hbehind⟩ := gives_leave htook hends s
      exact ⟨(), lx'', hgives, hbehind⟩
    | false => exact yields_refuse rfl

/-! ### Listening to what is said -/

/-- What is listened to first is read first. -/
theorem Yields.follows {γ : Type} {result : Except Flaw γ} {P : γ → α → Lexer → Prop}
    {m : Nat → Listening α} {k : α → Nat → Listening Unit} (hm : Yields m result P ending lx s)
    (hflawed : ∀ f, result = .error f → r = .flawed f)
    (hk : ∀ c a lx', result = .ok c → P c a lx' → Follows (k a) r ending lx' s) :
    Follows (fun n => m n >>= fun a => k a n) r ending lx s := by
  cases result with
  | error f =>
    obtain ⟨lx', hgives⟩ := hm
    rw [hflawed f rfl]
    exact follows_flawed (gives_bind_error hgives)
  | ok c =>
    obtain ⟨a, lx', hgives, hP⟩ := hm
    exact .bind hgives (hk c a lx' rfl hP)

/-- The next token is read first. -/
theorem follows_next {k : Token → Nat → Listening Unit}
    (h : Lexer.Offers s.lexicon lx ts ending)
    (hflawed : ts = [] → r = .flawed .cutShort)
    (hk : ∀ t ts' lx', ts = t :: ts' → Lexer.Took s.lexicon t ts' ending lx' →
      Follows (k t) r ending lx' s) :
    Follows (fun n => next >>= fun t => k t n) r ending lx s := by
  cases ts with
  | nil =>
    obtain ⟨e, lx', rfl, hnext⟩ := h.broken_of_nil
    rw [hflawed rfl]
    exact follows_flawed (gives_bind_error (gives_next_error hnext))
  | cons t ts =>
    obtain ⟨lx', hnext, htook⟩ := h.took
    exact .bind (gives_next hnext) (hk t ts lx' rfl htook)

theorem follows_refuse {f : Flaw} (hf : isCut f = false) :
    Follows (fun _ => refuse f) (.flawed f) ending lx s :=
  follows_flawed (gives_refuse hf _ _)

theorem follows_expectEnd (h : Lexer.Offers s.lexicon lx ts ending) :
    Follows (fun _ => expectEnd) ⟨[], endFlaw? ts⟩ ending lx s := by
  have hyields := yields_expectEnd h
  cases hflaw : endFlaw? ts with
  | some f =>
    rw [hflaw] at hyields
    obtain ⟨lx', hgives⟩ := hyields
    exact follows_flawed hgives
  | none =>
    rw [hflaw] at hyields
    obtain ⟨_, lx', hgives, hbehind⟩ := hyields
    exact follows_silent hgives hbehind

/-- What is said of the subjects leaves the words alone. -/
theorem offers_learnt {fact : Fact} (hfact : fact.declares = false)
    (h : Lexer.Offers s.lexicon lx ts ending) (haccept : Story.accept fact s = .ok () s') :
    Lexer.Offers s'.lexicon lx ts ending := by
  rwa [(Story.namesThings_accept hfact s () s' haccept).1]

/-- Something is learnt, and then the sentence has to be at its end. -/
theorem follows_learn_expectEnd (hfact : fact.declares = false)
    (h : Lexer.Offers s.lexicon lx ts ending) :
    Follows (fun _ => do
      learn fact
      expectEnd) ⟨[fact], endFlaw? ts⟩ ending lx s :=
  Follows.learn (r := ⟨[], endFlaw? ts⟩) fun _ haccept =>
    follows_expectEnd (offers_learnt hfact h haccept)

/-- The first token that is no article is read first. -/
theorem follows_pastArticles {k : Token → Nat → Listening Unit}
    (h : Lexer.Offers s.lexicon lx ts ending)
    (hflawed : skipArticles ts = [] → r = .flawed .cutShort)
    (hk : ∀ t ts' lx', skipArticles ts = t :: ts' → Lexer.Took s.lexicon t ts' ending lx' →
      Follows (k t) r ending lx' s) :
    Follows (fun n => pastArticles n >>= fun t => k t n) r ending lx s := by
  have hyields := yields_pastArticles h
  cases hskip : skipArticles ts with
  | nil =>
    rw [hskip] at hyields
    obtain ⟨lx', hgives⟩ := hyields
    rw [hflawed hskip]
    exact follows_flawed (gives_bind_error hgives)
  | cons t ts' =>
    rw [hskip] at hyields
    obtain ⟨_, lx', hgives, rfl, htook⟩ := hyields
    exact .bind hgives (hk _ _ lx' hskip htook)

/-- A name that ends the sentence, and what is learnt of it. -/
theorem follows_name {k : Mention → Fact} (h : Lexer.Offers s.lexicon lx ts ending)
    (hflawed : ∀ f, readName [] ts = .error f → r = .flawed f)
    (hnamed : ∀ m, readName [] ts = .ok m → r = ⟨[k m], none⟩) :
    Follows (fun n => do
      let m ← name n []
      expectEnd
      learn (k m)) r ending lx s := by
  refine (yields_name h []).follows hflawed ?_
  rintro m _ lx' hm ⟨rfl, t, hends, hoffers⟩
  have hend := yields_expectEnd hoffers
  rw [endFlaw?, if_pos hends] at hend
  obtain ⟨_, lx'', hgives, hbehind⟩ := hend
  rw [hnamed _ hm]
  exact .bind hgives (follows_learn hbehind _)

theorem follows_placement (p : Preposition) (line : Nat)
    (h : Lexer.Offers s.lexicon lx ts ending) :
    Follows (placement p line) (readPlacement p line ts) ending lx s := by
  unfold readPlacement
  exact follows_name h (fun f hf => by rw [hf]) fun m hm => by rw [hm]

/-- What begins a word is no end of a sentence. -/
theorem goes_of_isWord {word : String} (h : t.isWord word = true) : t.endsSentence = false := by
  rw [Token.isWord, Bool.and_eq_true, decide_eq_true_eq] at h
  exact goes_of_kind h.1 (by decide)

theorem follows_location (things : List Mention) (direction : Token)
    (h : Lexer.Offers s.lexicon lx ts ending) :
    Follows (location things direction) (readLocation things direction ts) ending lx s := by
  rcases things with - | ⟨room, - | -⟩
  · exact follows_refuse rfl
  · refine follows_next h (by rintro rfl; rfl) ?_
    rintro t ts' lx' rfl htook
    rw [readLocation]
    split
    · next hword =>
      have hgoes : t.endsSentence = false := by
        rw [Bool.or_eq_true] at hword
        exact hword.elim goes_of_isWord goes_of_isWord
      exact follows_name (htook.rest hgoes) (fun f hf => by rw [hf]) fun m hm => by rw [hm]
    · exact follows_refuse rfl
  · exact follows_refuse rfl

theorem follows_newKinds (things : List Mention) (h : Lexer.Offers s.lexicon lx ts ending) :
    Follows (newKinds things) (readNewKinds s.lexicon things ts) ending lx s := by
  refine follows_next h (by rintro rfl; rfl) ?_
  rintro t ts' lx' rfl htook
  rw [readNewKinds]
  cases hof : t.isWord "of" with
  | false => exact follows_refuse rfl
  | true =>
    refine follows_pastArticles (htook.rest (goes_of_isWord hof)) (fun hnil => ?_) ?_
    · rw [hnil]
      rfl
    intro t ts'' lx'' hskip htook
    rw [hskip]
    refine .bind (gives_lexicon _) ?_
    dsimp only
    rw [if_neg (by decide)]
    cases hparent : (s.lexicon.kind? t.text).filter fun _ => t.kind = .word with
    | none => exact follows_refuse rfl
    | some parent =>
      have hword : t.kind = .word := by simpa using (Option.filter_eq_some_iff.mp hparent).2
      have hend := yields_expectEnd (htook.rest (goes_of_kind hword (by decide)))
      dsimp only
      cases hflaw : endFlaw? ts'' with
      | some f =>
        rw [hflaw] at hend
        obtain ⟨lx₃, hgives⟩ := hend
        exact follows_flawed (gives_bind_error hgives)
      | none =>
        rw [hflaw] at hend
        obtain ⟨_, lx₃, hgives, hbehind⟩ := hend
        exact .bind hgives (follows_learn hbehind _)

theorem not_isCut_of_ofWord {negated : Bool} {f : Flaw}
    (h : Predicate.ofWord l negated t = .error f) : isCut f = false := by
  simp only [Predicate.ofWord] at h
  repeat' split at h
  all_goals cases h <;> rfl

/-- **What is said of the subjects** is listened to as it is read. -/
theorem follows_definition (h : Lexer.Offers s.lexicon lx ts ending)
    (several negated started : Bool) :
    Follows (definition several · negated started)
      (readDefinition s.lexicon several negated started ts) ending lx s := by
  induction ts generalizing lx s negated started with
  | nil =>
    refine .of_succ (follows_next h (fun _ => by rw [readDefinition]) ?_)
    rintro _ _ _ ⟨⟩
  | cons t ts ih =>
    refine .of_succ (follows_next h (by rintro ⟨⟩) ?_)
    rintro _ _ lx' ⟨⟩ htook
    rw [readDefinition.eq_def]
    dsimp only
    have hended : t.endsSentence = true →
        Follows (fun _ => if started && !negated then leave t
            else refuse (.unexpected t .kindOrProperty))
          (if started && !negated then .silent else .flawed (.unexpected t .kindOrProperty))
          ending lx' s := by
      intro hends
      split
      · obtain ⟨lx'', hgives, hbehind⟩ := gives_leave htook hends s
        exact follows_silent hgives hbehind
      · exact follows_refuse rfl
    cases hkind : t.kind with
    | article | comma | conjunction =>
      exact ih (htook.rest (goes_of_kind hkind (by decide))) _ _
    | stop | finish => exact hended (by simp [Token.endsSentence, hkind])
    | quoted =>
      cases started with
      | false => exact follows_refuse rfl
      | true =>
        cases several with
        | true => exact follows_refuse rfl
        | false =>
          exact follows_learn_expectEnd rfl (htook.rest (goes_of_kind hkind (by decide)))
    | word =>
      have hrest := htook.rest (goes_of_kind hkind (by decide))
      dsimp only
      refine .bind (gives_lexicon _) ?_
      dsimp only
      cases hmeans : Predicate.ofWord s.lexicon negated t with
      | error f => exact follows_refuse (not_isCut_of_ofWord hmeans)
      | ok predicate =>
        cases predicate with
        | negation => exact ih hrest _ _
        | placement p => exact follows_placement p t.line hrest
        | property p =>
          -- what is learnt here declares no kind, so the tokens on offer stay the same
          refine Follows.learn fun s' haccept => ?_
          have hwords := (Story.namesThings_accept rfl s () s' haccept).1
          rw [← hwords] at hrest ⊢
          exact ih hrest _ _
        | kind k =>
          refine Follows.learn fun s' haccept => ?_
          have hwords := (Story.namesThings_accept rfl s () s' haccept).1
          rw [← hwords] at hrest ⊢
          exact ih hrest _ _
    | _ => exact follows_refuse rfl

/-- **What is said behind the verb** is listened to as it is read. -/
theorem follows_equality (things : List Mention) (h : Lexer.Offers s.lexicon lx ts ending) :
    Follows (equality things) (readEquality s.lexicon things ts) ending lx s := by
  unfold readEquality
  refine follows_pastArticles h (fun hnil => by rw [hnil]) ?_
  intro t ts' lx' hskip htook
  rw [hskip]
  dsimp only
  cases hkind : t.isWord "kind" with
  | true => exact follows_newKinds things (htook.rest (goes_of_isWord hkind))
  | false =>
    refine Follows.learn fun s' haccept => ?_
    have hwords := (Story.namesThings_accept rfl s () s' haccept).1
    refine .bind (gives_lexicon _) ?_
    dsimp only
    rw [← hwords] at htook ⊢
    split
    · next hdirection =>
      rw [Bool.and_eq_true, decide_eq_true_eq] at hdirection
      exact follows_location things t (htook.rest (goes_of_kind hdirection.1 (by decide)))
    · exact .bind (gives_putBack t _) (follows_definition htook.push _ _ _)

/-- **A statement** is listened to as it is read. -/
theorem follows_statement (h : Lexer.Offers s.lexicon lx ts ending) :
    Follows statement (readStatement s.lexicon ts) ending lx s := by
  unfold readStatement
  refine (yields_subjects h [] [] false).follows (fun f hf => by rw [hf]) ?_
  rintro ⟨things, rest⟩ heard lx' hread ⟨hheard, verb, hverb, hoffers⟩
  obtain rfl : heard = things := hheard
  rw [hread]
  obtain ⟨lx'', hnext, htook⟩ := hoffers.took
  refine .bind (gives_next hnext) ?_
  have hrest := htook.rest (goes_of_kind hverb (by decide))
  simp only [if_neg (not_not_intro hverb)]
  cases describedThing? heard with
  | none => exact follows_equality heard hrest
  | some thing =>
    refine follows_next hrest (fun hnil => by rw [show rest = [] from hnil]) ?_
    intro t ts' lx₃ hcons hquote
    obtain rfl : rest = t :: ts' := hcons
    dsimp only
    split
    · next hquoted =>
      exact follows_learn_expectEnd rfl (hquote.rest (goes_of_kind hquoted (by decide)))
    · exact follows_refuse rfl

/-- **The title and the author** are listened to as they are read. -/
theorem follows_opening (h : Lexer.Offers s.lexicon lx (t :: ts) ending)
    (hquoted : t.kind = .quoted) :
    Follows opening ((readAuthor ts).after (.title (titleText t.text))) ending lx s := by
  obtain ⟨lx', hnext, htook⟩ := h.took
  refine .bind (gives_next hnext) ?_
  simp only [if_pos hquoted]
  refine Follows.learn fun s' haccept => ?_
  have hrest := offers_learnt rfl (htook.rest (goes_of_kind hquoted (by decide))) haccept
  refine follows_next hrest (by rintro rfl; rfl) ?_
  rintro t' ts' lx'' rfl htook
  rw [readAuthor]
  split
  · next hby =>
    refine (yields_name (htook.rest (goes_of_isWord hby)) []).follows
      (fun f hf => by rw [hf]) ?_
    rintro m _ lx₃ hm ⟨rfl, last, hends, hoffers⟩
    rw [hm]
    have hend : endFlaw? [last] = none := if_pos hends
    rw [← hend]
    exact follows_learn_expectEnd rfl hoffers
  · exact .bind (gives_putBack t' _) (follows_expectEnd htook.push)

/-! ### Listening to a source -/

/-- Listening comes to an end, and the story is then as told. -/
def Tells (m : Nat → Listening Unit) (told : EStateM.Result Error Story Unit) (lx : Lexer)
    (s : Story) : Prop :=
  ∃ result p, Gives m ⟨lx, s⟩ result p ∧ Listener.told (result, p) = told

variable {told : EStateM.Result Error Story Unit}

theorem Tells.of_succ (h : Tells (fun n => m (n + 1)) told lx s) : Tells m told lx s := by
  obtain ⟨result, p, hgives, htold⟩ := h
  exact ⟨result, p, hgives.of_succ, htold⟩

theorem Tells.bind {first : Nat → Listening α} {f : α → Nat → Listening Unit} {a : α}
    (hfirst : Gives first ⟨lx, s⟩ (.ok a) ⟨lx', s⟩) (h : Tells (f a) told lx' s) :
    Tells (fun n => first n >>= fun a => f a n) told lx s := by
  obtain ⟨result, p, hgives, htold⟩ := h
  exact ⟨result, p, gives_bind hfirst hgives, htold⟩

/-- Whoever has listened to a sentence goes on behind it. -/
theorem Follows.tells {f : Unit → Nat → Listening Unit} (hm : Follows m r ending lx s)
    (hgo : ∀ lx' s', Lexer.Behind ending lx' → Tells (f ()) (ending.goOn s') lx' s') :
    Tells (fun n => m n >>= fun u => f u n) (ending.tell r s) lx s := by
  obtain ⟨result, p, hgives, htold, hbehind⟩ := hm
  unfold Ending.tell
  rw [← htold]
  cases result with
  | error e => exact ⟨_, _, gives_bind_error hgives, rfl⟩
  | ok _ =>
    obtain ⟨result, q, hrest, htold⟩ := hgo p.lexer p.story (hbehind rfl)
    exact ⟨result, q, gives_bind hgives hrest, htold⟩

/-- The end of the source ends the story, also where it was put back. -/
theorem tells_behind (h : Lexer.Behind ending lx)
    (hgo : lx.replay.held = [] → Tells sentences (Story.readAll lx.source false s) lx s) :
    Tells sentences (ending.goOn s) lx s := by
  cases h with
  | within hheld => exact hgo hheld
  | @atEnd _ t hheld hkind =>
    obtain ⟨source, held, last⟩ := lx
    obtain rfl : held = [t] := hheld
    have hnext : Lexer.next s.lexicon ⟨source, [t], last⟩ = .ok t ⟨source, [], some t⟩ := rfl
    refine .of_succ (.bind (gives_next hnext) ?_)
    simp only [hkind]
    exact ⟨_, _, gives_pure () _, rfl⟩

/-- **A sentence within the source** is listened to as it is read, and then the listener goes
on. -/
theorem tells_sentence (h : Lexer.Offers s.lexicon lx ts ending)
    (hgo : ∀ lx' s', lx'.replay.held = [] → ending = .ok (false, lx'.source) →
      Tells sentences (Story.readAll lx'.source false s') lx' s') :
    Tells sentences (ending.tell (readTokens s.lexicon false ts) s) lx s := by
  have hbehind : ∀ lx' s', Lexer.Behind ending lx' → Tells sentences (ending.goOn s') lx' s' := by
    intro lx' s' hbehind
    refine tells_behind hbehind fun hheld => hgo lx' s' hheld ?_
    cases hbehind with
    | within => rfl
    | atEnd hheld' => simp [hheld] at hheld'
  refine .of_succ ?_
  cases ts with
  | nil =>
    obtain ⟨e, lx', rfl, hnext⟩ := h.broken_of_nil
    exact ⟨_, _, gives_bind_error (gives_next_error hnext), rfl⟩
  | cons t ts =>
    obtain ⟨lx', hnext, htook⟩ := h.took
    refine .bind (gives_next hnext) ?_
    by_cases hends : t.endsSentence = true
    · obtain ⟨rfl, hheld, hending⟩ := htook.ended hends
      rw [readTokens, if_pos hends]
      cases hkind : t.kind with
      | finish =>
        rw [hkind] at hending
        subst hending
        exact ⟨_, _, gives_pure () _, rfl⟩
      | stop =>
        rw [hkind] at hending
        subst hending
        exact hgo lx' s hheld rfl
      | _ => simp [Token.endsSentence, hkind] at hends
    · rw [readTokens, if_neg hends]
      by_cases hquoted : t.kind = .quoted
      · have hsaid : Follows (fun _ => do learn (.remark t.text t.line); expectEnd)
            ⟨[.remark t.text t.line], endFlaw? ts⟩ ending lx' s :=
          follows_learn_expectEnd rfl (htook.rest (goes_of_kind hquoted (by decide)))
        have hround := hsaid.tells (f := fun _ => sentences) hbehind
        rw [if_pos hquoted, if_neg Bool.false_ne_true]
        simp only [hquoted]
        simpa only [bind_assoc] using hround
      · have hround := (follows_statement htook.push).tells (f := fun _ => sentences) hbehind
        have hstated : Tells (fun n => do putBack t; statement n; sentences n)
            (ending.tell (readStatement s.lexicon (t :: ts)) s) lx' s :=
          .bind (gives_putBack t _) hround
        rw [if_neg hquoted]
        cases hkind : t.kind with
        | finish | stop => simp [Token.endsSentence, hkind] at hends
        | quoted => exact absurd hkind hquoted
        | _ => exact hstated

/-- **Listening ends, and tells what is told by reading whole sentences.** -/
theorem tells_sentences (hheld : lx.replay.held = []) (s : Story) :
    Tells sentences (Story.readAll lx.source false s) lx s := by
  -- each sentence that does not end the source takes something away from what remains
  induction hn : lx.source.remaining using Nat.strongRecOn generalizing lx s with
  | ind n ih =>
    rw [Ending.readAll_eq]
    refine tells_sentence (lx.offers_sentence s.lexicon hheld) fun lx' s' hheld' hending => ?_
    refine ih _ ?_ hheld' s' rfl
    cases hsentence : lx.source.sentence s.lexicon with
    | broken =>
      rw [hsentence] at hending
      cases hending
    | whole ts atEnd rest =>
      rw [hsentence] at hending
      cases hending
      exact hn ▸ Scanner.remaining_sentence hsentence

theorem tells_source (hheld : lx.replay.held = []) (s : Story) :
    Tells source (Story.readAll lx.source true s) lx s := by
  have hbehind : ∀ ending lx' s', Lexer.Behind ending lx' →
      Tells sentences (ending.goOn s') lx' s' := fun ending lx' s' hbehind =>
    tells_behind hbehind fun hheld' => tells_sentences hheld' s'
  have hoffers := lx.offers_sentence s.lexicon hheld
  rw [Ending.readAll_eq]
  generalize (lx.source.sentence s.lexicon).ending = ending at hoffers ⊢
  cases hts : (lx.source.sentence s.lexicon).tokens with
  | nil =>
    rw [hts] at hoffers
    obtain ⟨e, lx', rfl, hnext⟩ := hoffers.broken_of_nil
    exact ⟨_, _, gives_bind_error (gives_bind_error (gives_next_error hnext)), rfl⟩
  | cons t ts =>
    rw [hts] at hoffers
    by_cases hquoted : t.kind = .quoted
    · have hgoes := goes_of_kind hquoted (by decide)
      rw [readTokens, if_neg (by rw [hgoes]; decide), if_pos hquoted, if_pos rfl]
      exact (follows_opening hoffers hquoted).tells (hbehind _)
    · -- the token is put back, and is the first of an ordinary sentence then
      obtain ⟨lx', hnext, htook⟩ := hoffers.took
      have hsame : readTokens s.lexicon true (t :: ts) = readTokens s.lexicon false (t :: ts) := by
        rw [readTokens, readTokens, if_neg hquoted, if_neg hquoted]
      have hopening : Gives opening ⟨lx, s⟩ (.ok ()) ⟨lx'.push t, s⟩ := by
        refine gives_bind (gives_next hnext) ?_
        simp only [if_neg hquoted]
        exact gives_putBack t _
      rw [hsame]
      exact .bind hopening (tells_sentence htook.push fun lx'' s' hheld' _ =>
        tells_sentences hheld' s')

end Listening

/-- Listens to a source. -/
def listen (v : Vocabulary) (maxWords : Nat) (source : String) (n : Nat) :
    Option (EStateM.Result Error Story Unit) :=
  ((Listening.source n).run.run ⟨.ofSource source maxWords, .empty v maxWords⟩).map Listener.told

/-- **Listening to a source ends, whatever is written there**, and tells its story. -/
theorem listen_ends (v : Vocabulary) (maxWords : Nat) (source : String) :
    Ultimately (listen v maxWords source) (Story.ofSource v maxWords source) := by
  have htells : Listening.Tells Listening.source (Story.ofSource v maxWords source)
      (.ofSource source maxWords) (.empty v maxWords) :=
    Listening.tells_source (rfl : (Lexer.ofSource source maxWords).replay.held = []) _
  obtain ⟨result, p, hgives, htold⟩ := htells
  rw [← htold]
  exact hgives.map Listener.told

end Adventure.Prose