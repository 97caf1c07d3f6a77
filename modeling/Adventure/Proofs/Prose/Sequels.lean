/-
Sequels: a source that was taken in, and what is put behind it.

A blank line and more text behind a source that was taken in change nothing of the story so
far.  All sentences but the last are the same.  The last ended with the source and ends with
the blank line now; a reader that found nothing wrong with it treats the two ends alike.  So
what the longer source says is what the text behind the blank line says to that story, and
to that alone.

The readers are gone through one after the other, the later ones from those that they call;
the story then follows by induction on what is left to scan.
-/
import Adventure.Proofs.Prose.Continuations

namespace Adventure.Prose

open Text (Cursor)

/-! ### Sentences -/

namespace Scanner

variable {s s' t rest : Scanner} {l : Lexicon} {token : Token} {next : List Char} {line : Nat}
  {ts : List Token}

theorem moreWords_readQuoted (h : s.readQuoted = .ok token t) : t.moreWords = s.moreWords := by
  unfold readQuoted at h
  dsimp only at h
  split at h
  · cases h
  · obtain ⟨-, rfl⟩ := EStateM.Result.ok.inj h
    split <;> rfl

theorem moreWords_readToken (h : s.readToken l = .ok token t) : t.moreWords = s.moreWords := by
  simp only [readToken] at h
  split at h
  · obtain ⟨-, rfl⟩ := EStateM.Result.ok.inj h
    rfl
  split at h
  · obtain ⟨-, rfl⟩ := EStateM.Result.ok.inj h
    rfl
  split at h
  · obtain ⟨-, rfl⟩ := EStateM.Result.ok.inj h
    rfl
  split at h
  · obtain ⟨-, rfl⟩ := EStateM.Result.ok.inj h
    rfl
  split at h
  · exact moreWords_readQuoted h
  split at h
  · obtain ⟨-, rfl⟩ := EStateM.Result.ok.inj h
    rfl
  · cases h

/-- Terms may always have the same number of words. -/
theorem moreWords_scan (h : s.scan l = .ok token t) : t.moreWords = s.moreWords := by
  unfold scan at h
  split at h
  · obtain ⟨-, rfl⟩ := EStateM.Result.ok.inj h
    rfl
  · split at h
    · cases h
    · next cursor hidle => exact moreWords_readToken (s := { s with cursor }) h

theorem moreWords_sentence {atEnd : Bool} (h : s.sentence l = .whole ts atEnd rest) :
    rest.moreWords = s.moreWords := by
  fun_induction sentence l s generalizing ts with
  | case1 => cases h
  | case2 s token t hscan | case3 s token t hscan =>
    obtain ⟨-, -, rfl⟩ := Sentence.whole.inj h
    exact moreWords_scan hscan
  | case4 s token t hscan hfinish hstop ih =>
    cases hs : t.sentence l with
    | broken => rw [hs] at h; cases h
    | whole inner =>
      rw [hs] at h
      obtain ⟨-, rfl, rfl⟩ := Sentence.whole.inj h
      exact (ih hs).trans (moreWords_scan hscan)

theorem sound_of_sentence {atEnd : Bool} (hs : s.Sound)
    (h : s.sentence l = .whole ts atEnd rest) : rest.Sound := by
  have hsound := sound_sentence (l := l) hs
  rw [h] at hsound
  exact hsound.2.2

/-- **A sentence that ends within the shorter text is a sentence of the longer.** -/
theorem sentence_continued (hnext : BeginsWord next) (hs : Trails next line s s')
    (hsound : s.Sound) (h : s.sentence l = .whole ts false rest) :
    ∃ rest', s'.sentence l = .whole ts false rest' ∧ Reaches next line rest rest' := by
  fun_induction sentence l s generalizing s' ts with
  | case1 => cases h
  | case2 => cases h
  | case3 s token t hscan hfinish hstop =>
    obtain ⟨t', hscan', hreaches⟩ := scan_continued hnext hs hsound hscan hfinish
    obtain ⟨rfl, -, rfl⟩ := Sentence.whole.inj h
    refine ⟨t', ?_, hreaches.elim .trails (·.2)⟩
    rw [sentence_of_scan hscan', if_neg hfinish, if_pos hstop]
  | case4 s token t hscan hfinish hstop ih =>
    obtain ⟨t', hscan', hreaches⟩ := scan_continued hnext hs hsound hscan hfinish
    have htrails := hreaches.resolve_right fun hr => hstop hr.1
    cases hinner : t.sentence l with
    | broken => rw [hinner] at h; cases h
    | whole inner =>
      rw [hinner] at h
      obtain ⟨rfl, rfl, rfl⟩ := Sentence.whole.inj h
      obtain ⟨rest', hinner', hrest⟩ := ih htrails (sound_of_scan hsound hscan) hinner
      refine ⟨rest', ?_, hrest⟩
      rw [sentence_of_scan hscan', if_neg hfinish, if_neg hstop, hinner']
      rfl

/-- **The sentence with which the shorter text ends** ends with the blank line in the
longer. -/
theorem sentence_finish_continued (hnext : BeginsWord next) (hs : Trails next line s s')
    (hsound : s.Sound) (h : s.sentence l = .whole ts true rest) :
    ∃ init last stop, ts = init ++ [last] ∧ last.kind = .finish ∧ stop.kind = .stop ∧
      s'.sentence l = .whole (init ++ [stop]) false ⟨⟨next, line⟩, s.moreWords, none⟩ := by
  fun_induction sentence l s generalizing s' ts with
  | case1 => cases h
  | case2 s token t hscan hfinish =>
    obtain ⟨stop, hstop, hscan'⟩ := scan_finish_continued hnext hs hsound hscan hfinish
    obtain ⟨rfl, -, -⟩ := Sentence.whole.inj h
    refine ⟨[], token, stop, rfl, hfinish, hstop, ?_⟩
    rw [sentence_of_scan hscan', if_neg (by simp [hstop]), if_pos hstop]
    rfl
  | case3 => cases h
  | case4 s token t hscan hfinish hstop ih =>
    obtain ⟨t', hscan', hreaches⟩ := scan_continued hnext hs hsound hscan hfinish
    have htrails := hreaches.resolve_right fun hr => hstop hr.1
    cases hinner : t.sentence l with
    | broken => rw [hinner] at h; cases h
    | whole inner =>
      rw [hinner] at h
      obtain ⟨rfl, rfl, rfl⟩ := Sentence.whole.inj h
      obtain ⟨init, last, stop, rfl, hlast, hend, hinner'⟩ :=
        ih htrails (sound_of_scan hsound hscan) hinner
      refine ⟨token :: init, last, stop, rfl, hlast, hend, ?_⟩
      rw [sentence_of_scan hscan', if_neg hfinish, if_neg hstop, hinner',
        moreWords_scan hscan]
      rfl

/-- Where nothing is left but what stands between words there is no further sentence. -/
theorem sentence_of_idle (howed : s.owed = none) (hidle : Idle s.cursor) (l : Lexicon) :
    ∃ last t, last.kind = .finish ∧ s.sentence l = .whole [last] true t := by
  obtain ⟨c, hc, hrest⟩ := hidle
  have hread : ({ s with cursor := c } : Scanner).readToken l =
      .ok ⟨.finish, "", c.line⟩ { s with cursor := c } := by
    unfold readToken
    simp only [hrest]
  refine ⟨⟨.finish, "", c.line⟩, { s with cursor := c }, rfl, ?_⟩
  rw [sentence_of_scan ((scan_of_idle howed hc).trans hread), if_pos rfl]

end Scanner

/-! ### The two ends of a sentence -/

variable {l : Lexicon} {last stop : Token} {init before : List Token}

/-- A reading is another, unless the other has a flaw. -/
def Reading.Unflawed (r r' : Reading) : Prop :=
  r.flaw = none → r' = r

theorem Reading.Unflawed.after {r r' : Reading} (h : r.Unflawed r') (fact : Fact) :
    (r.after fact).Unflawed (r'.after fact) :=
  fun hflaw => congrArg (Reading.after · fact) (h hflaw)

theorem Reading.unflawed_flawed (f : Flaw) (r : Reading) : (Reading.flawed f).Unflawed r :=
  fun hflaw => nomatch hflaw

theorem Reading.Unflawed.refl (r : Reading) : r.Unflawed r :=
  fun _ => rfl

theorem readName_stop (hlast : last.kind = .finish) (hstop : stop.kind = .stop) {m : Mention}
    (h : readName before (init ++ [last]) = .ok m) :
    readName before (init ++ [stop]) = .ok m := by
  induction init generalizing before with
  | nil =>
    simp only [List.nil_append, readName, hlast, hstop] at h ⊢
    cases before with
    | nil => cases h
    | cons first more => exact h
  | cons t ts ih =>
    rw [List.cons_append] at h ⊢
    unfold readName at h ⊢
    cases hkind : t.kind with
    | article | word =>
      simp only [hkind] at h ⊢
      exact ih h
    | stop | finish =>
      simp only [hkind] at h ⊢
      cases before with
      | nil => cases h
      | cons first more => exact h
    | _ =>
      simp only [hkind] at h
      cases h

theorem readSubjects_stop (hlast : last.kind = .finish) {done subjects : List Mention}
    {afterComma : Bool} {rest : List Token}
    (h : readSubjects done before afterComma (init ++ [last]) = .ok (subjects, rest))
    (stop : Token) :
    ∃ init', rest = init' ++ [last] ∧
      readSubjects done before afterComma (init ++ [stop]) = .ok (subjects, init' ++ [stop]) := by
  induction init generalizing done before afterComma with
  | nil =>
    simp only [List.nil_append, readSubjects, hlast] at h
    cases h
  | cons t ts ih =>
    rw [List.cons_append] at h ⊢
    unfold readSubjects at h ⊢
    cases hkind : t.kind with
    | article | word =>
      simp only [hkind] at h ⊢
      exact ih h
    | comma =>
      simp only [hkind] at h ⊢
      cases before with
      | nil => cases h
      | cons first more => exact ih h
    | conjunction =>
      simp only [hkind] at h ⊢
      cases before with
      | nil =>
        cases afterComma with
        | false => cases h
        | true => exact ih h
      | cons first more => exact ih h
    | equality =>
      simp only [hkind] at h ⊢
      cases before with
      | nil => cases h
      | cons first more =>
        obtain ⟨rfl, rfl⟩ := Prod.mk.inj (Except.ok.inj h)
        exact ⟨ts, rfl, rfl⟩
    | _ =>
      simp only [hkind] at h
      cases h

theorem endFlaw?_stop (hstop : stop.kind = .stop) (h : endFlaw? (init ++ [last]) = none) :
    endFlaw? (init ++ [stop]) = none := by
  cases init with
  | nil => simp [endFlaw?, Token.endsSentence, hstop]
  | cons t ts => exact h

theorem skipArticles_stop (hlast : last.kind = .finish) (hstop : stop.kind = .stop)
    (init : List Token) :
    ∃ init', skipArticles (init ++ [last]) = init' ++ [last] ∧
      skipArticles (init ++ [stop]) = init' ++ [stop] := by
  induction init with
  | nil => exact ⟨[], by simp [skipArticles, hlast], by simp [skipArticles, hstop]⟩
  | cons t ts ih =>
    by_cases harticle : t.kind = .article
    · obtain ⟨init', hinit⟩ := ih
      exact ⟨init', by simpa [skipArticles, harticle] using hinit⟩
    · exact ⟨t :: ts, by simp [skipArticles, harticle], by simp [skipArticles, harticle]⟩

theorem readPlacement_stop (hlast : last.kind = .finish) (hstop : stop.kind = .stop)
    (p : Preposition) (line : Nat) :
    (readPlacement p line (init ++ [last])).Unflawed (readPlacement p line (init ++ [stop])) := by
  unfold readPlacement
  cases hname : readName [] (init ++ [last]) with
  | error f => exact Reading.unflawed_flawed f _
  | ok m =>
    rw [readName_stop hlast hstop hname]
    exact .refl _

theorem readDefinition_stop (hlast : last.kind = .finish) (hstop : stop.kind = .stop)
    (several negated started : Bool) :
    (readDefinition l several negated started (init ++ [last])).Unflawed
      (readDefinition l several negated started (init ++ [stop])) := by
  induction init generalizing negated started with
  | nil =>
    simp only [List.nil_append, readDefinition, hlast, hstop]
    split
    · exact .refl _
    · exact Reading.unflawed_flawed _ _
  | cons t ts ih =>
    rw [List.cons_append, List.cons_append]
    unfold readDefinition
    cases hkind : t.kind with
    | article | comma | conjunction => exact ih negated started
    | stop | finish => exact .refl _
    | quoted =>
      dsimp only
      split
      · exact .refl _
      split
      · exact .refl _
      · intro hflaw
        rw [endFlaw?_stop hstop hflaw, show endFlaw? (ts ++ [last]) = none from hflaw]
    | word =>
      dsimp only
      cases Predicate.ofWord l negated t with
      | error f => exact Reading.unflawed_flawed f _
      | ok predicate =>
        cases predicate with
        | negation => exact ih true started
        | placement p => exact readPlacement_stop hlast hstop p t.line
        | property p => exact (ih false true).after _
        | kind k => exact (ih negated true).after _
    | _ => exact .refl _

theorem readLocation_stop (hlast : last.kind = .finish) (hstop : stop.kind = .stop)
    (subjects : List Mention) (direction : Token) :
    (readLocation subjects direction (init ++ [last])).Unflawed
      (readLocation subjects direction (init ++ [stop])) := by
  unfold readLocation
  split
  · next room =>
    cases init with
    | nil =>
      simp only [List.nil_append, Token.isWord, hlast]
      exact Reading.unflawed_flawed _ _
    | cons t ts =>
      simp only [List.cons_append]
      split
      · cases hname : readName [] (ts ++ [last]) with
        | error f => exact Reading.unflawed_flawed f _
        | ok origin =>
          rw [readName_stop hlast hstop hname]
          exact .refl _
      · exact .refl _
  · exact .refl _

theorem readNewKinds_stop (hlast : last.kind = .finish) (hstop : stop.kind = .stop)
    (subjects : List Mention) :
    (readNewKinds l subjects (init ++ [last])).Unflawed
      (readNewKinds l subjects (init ++ [stop])) := by
  unfold readNewKinds
  cases init with
  | nil =>
    simp only [List.nil_append, Token.isWord, hlast]
    exact Reading.unflawed_flawed _ _
  | cons t ts =>
    simp only [List.cons_append]
    split
    · exact .refl _
    obtain ⟨rest, hskip, hskip'⟩ := skipArticles_stop hlast hstop ts
    rw [hskip, hskip']
    cases rest with
    | nil =>
      simp only [List.nil_append, hlast]
      cases l.kind? last.text <;> exact Reading.unflawed_flawed _ _
    | cons kind rest =>
      simp only [List.cons_append]
      split
      · exact .refl _
      · cases hend : endFlaw? (rest ++ [last]) with
        | some f => exact Reading.unflawed_flawed f _
        | none =>
          rw [endFlaw?_stop hstop hend]
          exact .refl _

theorem readEquality_stop (hlast : last.kind = .finish) (hstop : stop.kind = .stop)
    (subjects : List Mention) :
    (readEquality l subjects (init ++ [last])).Unflawed
      (readEquality l subjects (init ++ [stop])) := by
  unfold readEquality
  obtain ⟨rest, hskip, hskip'⟩ := skipArticles_stop hlast hstop init
  rw [hskip, hskip']
  cases rest with
  | nil =>
    -- the verb alone says nothing
    intro hflaw
    simp [Token.isWord, readDefinition, hlast, Reading.after, Reading.flawed] at hflaw
  | cons t rest =>
    simp only [List.cons_append]
    split
    · exact readNewKinds_stop hlast hstop subjects
    · refine Reading.Unflawed.after ?_ _
      split
      · exact readLocation_stop hlast hstop subjects t
      · simp only [← List.cons_append]
        exact readDefinition_stop hlast hstop _ false false

theorem readStatement_stop (hlast : last.kind = .finish) (hstop : stop.kind = .stop) :
    (readStatement l (init ++ [last])).Unflawed (readStatement l (init ++ [stop])) := by
  unfold readStatement
  cases hsubjects : readSubjects [] [] false (init ++ [last]) with
  | error f => exact Reading.unflawed_flawed f _
  | ok r =>
    obtain ⟨subjects, rest⟩ := r
    obtain ⟨init', rfl, hsubjects'⟩ := readSubjects_stop hlast hsubjects stop
    rw [hsubjects']
    dsimp only
    cases describedThing? subjects with
    | none => exact readEquality_stop hlast hstop subjects
    | some thing =>
      cases init' with
      | nil =>
        simp only [List.nil_append, hlast]
        exact Reading.unflawed_flawed _ _
      | cons t rest =>
        simp only [List.cons_append]
        split
        · intro hflaw
          rw [endFlaw?_stop hstop hflaw, show endFlaw? (rest ++ [last]) = none from hflaw]
        · exact .refl _

theorem readAuthor_stop (hlast : last.kind = .finish) (hstop : stop.kind = .stop) :
    (readAuthor (init ++ [last])).Unflawed (readAuthor (init ++ [stop])) := by
  unfold readAuthor
  cases init with
  | nil =>
    intro _
    simp [Token.isWord, endFlaw?, Token.endsSentence, hlast, hstop]
  | cons t rest =>
    simp only [List.cons_append]
    split
    · cases hname : readName [] (rest ++ [last]) with
      | error f => exact Reading.unflawed_flawed f _
      | ok author =>
        rw [readName_stop hlast hstop hname]
        exact .refl _
    · exact .refl _

/-- **A sentence without a flaw says the same** whether the source ends with it or not. -/
theorem readTokens_stop (hlast : last.kind = .finish) (hstop : stop.kind = .stop)
    (opening : Bool) :
    (readTokens l opening (init ++ [last])).Unflawed
      (readTokens l opening (init ++ [stop])) := by
  cases init with
  | nil =>
    intro _
    simp [readTokens, Token.endsSentence, hlast, hstop]
  | cons t rest =>
    simp only [List.cons_append, readTokens]
    split
    · exact .refl _
    split
    · split
      · exact (readAuthor_stop hlast hstop).after _
      · intro hflaw
        rw [endFlaw?_stop hstop hflaw, show endFlaw? (rest ++ [last]) = none from hflaw]
    · simp only [← List.cons_append]
      exact readStatement_stop hlast hstop

/-! ### Sentences without an end -/

theorem Ended.mono {ts us : List Token} (h : Ended ts) (hsub : ts ⊆ us) : Ended us :=
  h.imp fun _ ht => ⟨hsub ht.1, ht.2⟩

variable {ts : List Token}

theorem ended_of_readName {m : Mention} (h : readName before ts = .ok m) : Ended ts := by
  induction ts generalizing before with
  | nil => cases h
  | cons t ts ih =>
    unfold readName at h
    cases hkind : t.kind with
    | article | word =>
      simp only [hkind] at h
      exact (ih h).mono (List.subset_cons_self t ts)
    | stop | finish => exact ⟨t, List.mem_cons_self .., by simp [Token.endsSentence, hkind]⟩
    | _ =>
      simp only [hkind] at h
      cases h

theorem suffix_of_readSubjects {done subjects : List Mention} {afterComma : Bool}
    {rest : List Token} (h : readSubjects done before afterComma ts = .ok (subjects, rest)) :
    rest <:+ ts := by
  induction ts generalizing done before afterComma with
  | nil => cases h
  | cons t ts ih =>
    unfold readSubjects at h
    cases hkind : t.kind with
    | article | word =>
      simp only [hkind] at h
      exact (ih h).trans (List.suffix_cons t ts)
    | comma =>
      simp only [hkind] at h
      cases before with
      | nil => cases h
      | cons first more => exact (ih h).trans (List.suffix_cons t ts)
    | conjunction =>
      simp only [hkind] at h
      cases before with
      | nil =>
        cases afterComma with
        | false => cases h
        | true => exact (ih h).trans (List.suffix_cons t ts)
      | cons first more => exact (ih h).trans (List.suffix_cons t ts)
    | equality =>
      simp only [hkind] at h
      cases before with
      | nil => cases h
      | cons first more =>
        obtain ⟨-, rfl⟩ := Prod.mk.inj (Except.ok.inj h)
        exact List.suffix_cons t ts
    | _ =>
      simp only [hkind] at h
      cases h

theorem ended_of_endFlaw? (h : endFlaw? ts = none) : Ended ts := by
  cases ts with
  | nil => cases h
  | cons t ts =>
    refine ⟨t, List.mem_cons_self .., ?_⟩
    rw [endFlaw?] at h
    split at h
    · assumption
    · cases h

theorem skipArticles_subset (ts : List Token) : skipArticles ts ⊆ ts :=
  List.dropWhile_subset _

theorem ended_of_readPlacement {p : Preposition} {line : Nat}
    (h : (readPlacement p line ts).flaw = none) : Ended ts := by
  unfold readPlacement at h
  split at h
  · next hname => exact ended_of_readName hname
  · cases h

theorem ended_of_readDefinition {several negated started : Bool}
    (h : (readDefinition l several negated started ts).flaw = none) : Ended ts := by
  induction ts generalizing negated started with
  | nil => cases h
  | cons t ts ih =>
    have hcons : Ended ts → Ended (t :: ts) := fun hts => hts.mono (List.subset_cons_self t ts)
    unfold readDefinition at h
    cases hkind : t.kind with
    | article | comma | conjunction =>
      simp only [hkind] at h
      exact hcons (ih h)
    | stop | finish => exact ⟨t, List.mem_cons_self .., by simp [Token.endsSentence, hkind]⟩
    | quoted =>
      simp only [hkind] at h
      split at h
      · cases h
      split at h
      · cases h
      · exact hcons (ended_of_endFlaw? h)
    | word =>
      simp only [hkind] at h
      split at h
      · cases h
      · exact hcons (ih h)
      · exact hcons (ended_of_readPlacement h)
      · exact hcons (ih h)
      · exact hcons (ih h)
    | _ =>
      simp only [hkind] at h
      cases h

theorem ended_of_readLocation {subjects : List Mention} {direction : Token}
    (h : (readLocation subjects direction ts).flaw = none) : Ended ts := by
  unfold readLocation at h
  split at h
  · cases ts with
    | nil => cases h
    | cons t ts =>
      dsimp only at h
      split at h
      · split at h
        · next hname => exact (ended_of_readName hname).mono (List.subset_cons_self t ts)
        · cases h
      · cases h
  · cases h

theorem ended_of_readNewKinds {subjects : List Mention}
    (h : (readNewKinds l subjects ts).flaw = none) : Ended ts := by
  unfold readNewKinds at h
  cases ts with
  | nil => cases h
  | cons t ts =>
    dsimp only at h
    split at h
    · cases h
    split at h
    · cases h
    · next kind rest hskip =>
      split at h
      · cases h
      split at h
      · cases h
      · next hend =>
        refine (ended_of_endFlaw? hend).mono fun u hu => List.mem_cons_of_mem t ?_
        exact skipArticles_subset ts (hskip ▸ List.mem_cons_of_mem kind hu)

theorem ended_of_readEquality {subjects : List Mention}
    (h : (readEquality l subjects ts).flaw = none) : Ended ts := by
  unfold readEquality at h
  cases hskip : skipArticles ts with
  | nil =>
    rw [hskip] at h
    cases h
  | cons t rest =>
    have hts : t :: rest ⊆ ts := hskip ▸ skipArticles_subset ts
    rw [hskip] at h
    dsimp only at h
    split at h
    · exact (ended_of_readNewKinds h).mono (List.Subset.trans (List.subset_cons_self t rest) hts)
    · split at h
      · exact (ended_of_readLocation h).mono (List.Subset.trans (List.subset_cons_self t rest) hts)
      · exact (ended_of_readDefinition h).mono hts

theorem ended_of_readStatement (h : (readStatement l ts).flaw = none) : Ended ts := by
  unfold readStatement at h
  split at h
  · cases h
  · next subjects rest hsubjects =>
    have hts : rest ⊆ ts := (suffix_of_readSubjects hsubjects).subset
    split at h
    · exact (ended_of_readEquality h).mono hts
    · split at h
      · cases h
      · next t rest =>
        split at h
        · exact (ended_of_endFlaw? h).mono (List.Subset.trans (List.subset_cons_self t rest) hts)
        · cases h

/-- **A sentence without a flaw has an end.** -/
theorem ended_of_readTokens {opening : Bool} (h : (readTokens l opening ts).flaw = none) :
    Ended ts := by
  unfold readTokens at h
  cases ts with
  | nil => cases h
  | cons t ts =>
    have hcons : Ended ts → Ended (t :: ts) := fun hts => hts.mono (List.subset_cons_self t ts)
    dsimp only at h
    split at h
    · next hends => exact ⟨t, List.mem_cons_self .., hends⟩
    split at h
    · split at h
      · unfold readAuthor at h
        refine hcons ?_
        cases ts with
        | nil => cases h
        | cons u rest =>
          dsimp only at h
          split at h
          · split at h
            · next hname => exact (ended_of_readName hname).mono (List.subset_cons_self u rest)
            · cases h
          · exact ended_of_endFlaw? h
      · exact hcons (ended_of_endFlaw? h)
    · exact ended_of_readStatement h

/-- A sentence that breaks off has none. -/
theorem Scanner.not_ended_of_broken {s : Scanner} {e : Error}
    (h : s.sentence l = .broken ts e) : ¬Ended ts := by
  fun_induction Scanner.sentence l s generalizing ts with
  | case1 =>
    obtain ⟨rfl, -⟩ := Sentence.broken.inj h
    exact not_ended_nil
  | case2 => cases h
  | case3 => cases h
  | case4 s token t hscan hfinish hstop ih =>
    cases hinner : t.sentence l with
    | whole => rw [hinner] at h; cases h
    | broken inner e' =>
      rw [hinner] at h
      obtain ⟨rfl, rfl⟩ := Sentence.broken.inj h
      exact fun hended => ih hinner (hended.tail (by simp [Token.endsSentence, hfinish, hstop]))

/-! ### Stories -/

namespace Story

variable {s t : Story} {scanner scanner' : Scanner} {opening : Bool} {next : List Char}
  {line : Nat}

/-- A story that was heard is heard with either end. -/
theorem hear_stop (hlast : last.kind = .finish) (hstop : stop.kind = .stop) {e : Error} {u : Unit}
    (h : hear (readTokens l opening (init ++ [last])) e s = .ok u t) :
    hear (readTokens l opening (init ++ [stop])) e s = .ok u t := by
  rw [readTokens_stop hlast hstop opening (hear_ok_iff.mp h).2]
  exact h

/-- A sentence that others follow is taken in, and then they are. -/
theorem readAll_ok_iff_of_whole {tokens : List Token} {rest : Scanner}
    (hsentence : scanner.sentence s.lexicon = .whole tokens false rest) :
    readAll scanner opening s = .ok () t ↔ ∃ u,
      hear (readTokens s.lexicon opening tokens) (.internal "a sentence has no end") s = .ok () u ∧
        readAll rest false u = .ok () t := by
  rw [readAll_of_whole hsentence]
  cases hear (readTokens s.lexicon opening tokens) (.internal "a sentence has no end") s <;> simp

theorem readAll_of_heard {tokens : List Token} {rest : Scanner} {u : Story} {atEnd : Bool}
    (hsentence : scanner.sentence s.lexicon = .whole tokens atEnd rest)
    (hhear : hear (readTokens s.lexicon opening tokens) (.internal "a sentence has no end") s =
      .ok () u) :
    readAll scanner opening s = if atEnd = true then .ok () u else readAll rest false u := by
  rw [readAll_of_whole hsentence, hhear]

/-- Where nothing is left but white space the story has come to its end. -/
theorem readAll_of_idle (howed : scanner.owed = none) (hidle : Idle scanner.cursor) (s : Story)
    (opening : Bool) : readAll scanner opening s = .ok () s := by
  obtain ⟨last, rest, hlast, hsentence⟩ := Scanner.sentence_of_idle howed hidle s.lexicon
  have hread : readTokens s.lexicon opening [last] = .silent := by
    rw [readTokens, if_pos (by simp [Token.endsSentence, hlast])]
  rw [readAll_of_whole hsentence, hread]
  rfl

/-- **What was taken in stays as it was**, from the beginning of a sentence on. -/
theorem readAll_trailed (hnext : BeginsWord next) (hsound : scanner.Sound)
    (hs : Scanner.Trails next line scanner scanner') (h : readAll scanner opening s = .ok () t) :
    readAll scanner' opening s = readAll ⟨⟨next, line⟩, scanner.moreWords, none⟩ false t := by
  fun_induction readAll scanner opening s generalizing scanner' with
  | case1 scanner opening s ts e hsentence =>
    exact absurd (ended_of_readTokens (hear_ok_iff.mp h).2)
      (Scanner.not_ended_of_broken hsentence)
  | case2 => cases h
  | case3 scanner opening s ts rest u hresult hsentence =>
    obtain rfl := (EStateM.Result.ok.inj h).2
    obtain ⟨init, last, stop, rfl, hlast, hstop, hsentence'⟩ :=
      Scanner.sentence_finish_continued hnext hs hsound hsentence
    rw [readAll_of_heard hsentence' (hear_stop hlast hstop hresult), if_neg Bool.false_ne_true]
  | case4 scanner opening s ts atEnd rest hsentence u hresult hend ih =>
    obtain rfl : atEnd = false := by simpa using hend
    obtain ⟨rest', hsentence', hrest⟩ :=
      Scanner.sentence_continued hnext hs hsound hsentence
    rw [readAll_of_heard hsentence' hresult, if_neg Bool.false_ne_true,
      ← Scanner.moreWords_sentence hsentence]
    cases hrest with
    | trails htrails => exact ih (Scanner.sound_of_sentence hsound hsentence) htrails h
    | beyond howed hidle =>
      -- the rest of the shorter text says nothing
      rw [readAll_of_idle howed hidle] at h
      obtain rfl := (EStateM.Result.ok.inj h).2
      rw [Scanner.beyond, howed]

/-- **A source that was taken in can be gone on with.**  Whatever text stands behind a blank
line, it is taken in by the story so far, on a line that does not depend on it. -/
theorem ofSource_continued {v : Vocabulary} {maxWords : Nat} {source : String}
    (h : ofSource v maxWords source = .ok () s) :
    ∃ line, ∀ text : String, BeginsWord text.toList →
      ofSource v maxWords (source ++ "\n\n" ++ text) =
        readAll ⟨⟨text.toList, line⟩, maxWords - 1, none⟩ false s := by
  refine ⟨lineBehind (.ofText source), fun text htext => ?_⟩
  have hsound : (Scanner.ofSource source maxWords).Sound := fun token howed => by cases howed
  have hcontinued : Scanner.ofSource (source ++ "\n\n" ++ text) maxWords =
      (Scanner.ofSource source maxWords).continued text.toList := by
    simp [Scanner.ofSource, Scanner.continued, continued, followedBy, Cursor.ofText,
      String.toList_append]
  rw [ofSource, hcontinued]
  exact readAll_trailed htext hsound (.within rfl) h

end Story

end Adventure.Prose
