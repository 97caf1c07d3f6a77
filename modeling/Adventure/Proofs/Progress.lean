/-
Every scan comes to an end and on.

A scanner that is asked for a token fails, or the source is at its end, or it hands out what it
owes, or something of the text is gone that was there before.  What was looked ahead to does not
count: only what the token is written with is taken away, and every token but the last is written
with something.

So whoever asks for tokens up to the last one does not ask for ever.  This is said of a loop that
would not have to end by the way it is written, but for its patience: there is always enough.  So
it is with the ways to read a whole source: to go down into the sections of a document, and to
listen to prose token by token.
-/
import Adventure.Proofs.Lines
import Adventure.Proofs.Markup.Descent
import Adventure.Proofs.Prose.Understanding

namespace Adventure

/-! ### One scan -/

namespace Markup

theorem Token.Written.ne_nil {token : Token} {written rest : List Char}
    (h : token.Written written rest) (hfinish : token.isFinish = false) : written ≠ [] := by
  cases h with
  | opening | closing | characterData => exact List.cons_ne_nil _ _
  | text _ hsolid =>
    rintro rfl
    cases hsolid
  | finish => cases hfinish

theorem Token.Written.finish_rest {token : Token} {written rest : List Char}
    (h : token.Written written rest) (hfinish : token.isFinish = true) : rest = [] := by
  cases h with
  | finish => rfl
  | opening | closing | text | characterData => cases hfinish

/-- What may come of asking a scanner for a token. -/
inductive Scanner.Progress (s : Scanner) : EStateM.Result Error Scanner Token → Prop
  | failed {e : Error} {t : Scanner} : Progress s (.error e t)
  | finished {token : Token} {t : Scanner} (hfinish : token.isFinish = true)
    (hrest : t.cursor.rest = []) : Progress s (.ok token t)
  | owed {token : Token} (howed : s.owed = some token) :
    Progress s (.ok token { s with owed := none })
  | forward {token : Token} {t : Scanner} {taken : List Char} (howed : s.owed = none)
    (hne : taken ≠ []) (hrest : s.cursor.rest = taken ++ t.cursor.rest) : Progress s (.ok token t)

theorem Scanner.progress_scan (s : Scanner) : s.Progress s.scan := by
  cases howed : s.owed with
  | some owed =>
    rw [scan, howed]
    exact .owed howed
  | none =>
    cases hscan : s.scan with
    | error => exact .failed
    | ok token t =>
      obtain ⟨-, -, -, place, hbegins, -⟩ := begins_scan (lined_here howed) hscan
      cases hbegins with
      | owed howed' =>
        rw [howed] at howed'
        cases howed'
      | @written passed written _ hrest _ hwritten =>
        cases hfinish : token.isFinish with
        | true => exact .finished hfinish (hwritten.finish_rest hfinish)
        | false =>
          rw [← List.append_assoc] at hrest
          have hne := List.append_ne_nil_of_right_ne_nil passed (hwritten.ne_nil hfinish)
          exact .forward howed hne hrest

end Markup

namespace Prose

theorem Token.Written.ne_nil {token : Token} {written rest : List Char}
    (h : token.Written written rest) (hfinish : token.kind ≠ .finish) : written ≠ [] := by
  cases h with
  | finish => exact absurd rfl hfinish
  | mark | period | blankLine | quoted => exact List.cons_ne_nil _ _
  | words hopens =>
    obtain ⟨c, cs, hcons, -⟩ := hopens.row.beginsWord []
    rintro rfl
    cases hcons

theorem Token.Written.finish_rest {token : Token} {written rest : List Char}
    (h : token.Written written rest) (hfinish : token.kind = .finish) : rest = [] := by
  cases h with
  | finish => rfl
  | mark hmark =>
    obtain rfl : _ = TokenKind.finish := hfinish
    unfold TokenKind.ofMark? at hmark
    split at hmark <;> cases hmark
  | period | blankLine | quoted => cases hfinish
  | words => exact absurd hfinish (TokenKind.ofWord_ne_finish _)

/-- What may come of asking a scanner for a token. -/
inductive Scanner.Progress (s : Scanner) : EStateM.Result Error Scanner Token → Prop
  | failed {e : Error} {t : Scanner} : Progress s (.error e t)
  | finished {token : Token} {t : Scanner} (hfinish : token.kind = .finish)
    (hrest : t.cursor.rest = []) : Progress s (.ok token t)
  | owed {token : Token} (howed : s.owed = some token) :
    Progress s (.ok token { s with owed := none })
  | forward {token : Token} {t : Scanner} {taken : List Char} (howed : s.owed = none)
    (hne : taken ≠ []) (hrest : s.cursor.rest = taken ++ t.cursor.rest) : Progress s (.ok token t)

theorem Scanner.progress_scan (s : Scanner) (l : Lexicon) : s.Progress (s.scan l) := by
  cases howed : s.owed with
  | some owed =>
    rw [scan_of_owed howed]
    exact .owed howed
  | none =>
    cases hscan : s.scan l with
    | error => exact .failed
    | ok token t =>
      obtain ⟨-, -, -, place, hbegins, -⟩ := begins_scan (lined_here howed) hscan
      cases hbegins with
      | owed howed' =>
        rw [howed] at howed'
        cases howed'
      | @written passed written blanks _ hrest _ hwritten =>
        by_cases hfinish : token.kind = .finish
        · have hnothing := hwritten.finish_rest hfinish
          exact .finished hfinish (List.append_eq_nil_iff.mp hnothing).2
        · rw [← List.append_assoc, ← List.append_assoc] at hrest
          have hne := List.append_ne_nil_of_left_ne_nil
            (List.append_ne_nil_of_right_ne_nil passed (hwritten.ne_nil hfinish)) blanks
          exact .forward howed hne hrest

end Prose

/-! ### All the tokens -/

section

variable {α σ τ ε : Type}

/-- Asks for tokens until the last one comes, and puts each behind those taken before, with
patience for so many tokens. -/
def collect (next : α → EStateM.Result ε α τ) (isLast : τ → Bool) :
    Nat → List τ → α → Option (Except ε (List τ))
  | 0, _, _ => none
  | n + 1, taken, a =>
    match next a with
    | .error e _ => some (.error e)
    | .ok token b =>
      if isLast token then some (.ok (taken ++ [token]))
      else collect next isLast n (taken ++ [token]) b

/-- **The last token comes** if every other one takes something away. -/
theorem collect_ends {scan : σ → EStateM.Result ε σ τ} {isLast : τ → Bool}
    (tokens : σ → Except ε (List τ)) (size : σ → Nat)
    (hsize : ∀ {s t token}, scan s = .ok token t → isLast token = false → size t < size s)
    (hfails : ∀ {s t e}, scan s = .error e t → tokens s = .error e)
    (hgoes : ∀ {s t token}, scan s = .ok token t →
      tokens s = if isLast token then .ok [token] else (tokens t).map (token :: ·))
    {f : Feed σ τ} (hheld : f.replay.held = []) (taken : List τ) :
    Ultimately (collect (Feed.next scan) isLast · taken f)
      ((tokens f.source).map (taken ++ ·)) := by
  induction hn : size f.source using Nat.strongRecOn generalizing f taken with
  | ind n ih =>
    obtain ⟨s, held, last⟩ := f
    obtain rfl : held = [] := hheld
    refine .of_succ ?_
    simp only [collect, Feed.next, Replay.pop?]
    cases hscan : scan s with
    | error e t =>
      rw [hfails hscan]
      exact .of_forall fun _ => rfl
    | ok token t =>
      rw [hgoes hscan]
      dsimp only
      cases hlast : isLast token with
      | true => exact .of_forall fun _ => rfl
      | false =>
        have hrest := ih (size t) (hn ▸ hsize hscan hlast)
          (f := ⟨t, Replay.produced ⟨[], last⟩ token⟩) rfl (taken ++ [token]) rfl
        simp only [if_neg Bool.false_ne_true]
        cases htokens : tokens t with
        | error e =>
          rw [htokens] at hrest
          exact hrest
        | ok more =>
          rw [htokens] at hrest
          simpa only [Except.map, List.append_assoc, List.singleton_append] using hrest

/-- Nothing was taken before. -/
theorem map_nil_append (r : Except ε (List τ)) : r.map ([] ++ ·) = r := by
  cases r <;> rfl

end

/-- **The end of every document comes**, unless its text is at fault. -/
theorem Markup.collect_ends_tokens (source : String) :
    Ultimately (collect Lexer.next Token.isFinish · [] (.ofSource source)) (tokens source) := by
  rw [← map_nil_append (tokens source)]
  refine collect_ends Scanner.tokens Scanner.remaining ?_ ?_ Scanner.tokens_of_scan rfl []
  · intro s t token hscan hfinish
    refine (Scanner.remaining_scan hscan).resolve_right fun hlast => ?_
    rw [hlast.1] at hfinish
    cases hfinish
  · intro s t e hscan
    rw [Scanner.tokens]
    split <;> rename_i hnext <;> rw [hscan] at hnext <;> cases hnext
    rfl

/-- **The end of every source comes**, unless its text is at fault. -/
theorem Prose.collect_ends_tokens (l : Lexicon) (source : String) (maxWords : Nat) :
    Ultimately (collect (Lexer.next l) (·.kind = .finish) · [] (.ofSource source maxWords))
      (tokens l source maxWords) := by
  rw [← map_nil_append (tokens l source maxWords)]
  refine collect_ends (Scanner.tokens l) Scanner.remaining ?_ Scanner.tokens_of_error ?_ rfl []
  · intro s t token hscan hkind
    rw [decide_eq_false_iff_not] at hkind
    exact (Scanner.remaining_scan hscan).resolve_right fun hlast => hkind hlast.1
  · intro s t token hscan
    by_cases hkind : token.kind = .finish
    · rw [Scanner.tokens_of_finish hscan hkind, if_pos (decide_eq_true hkind)]
    · rw [Scanner.tokens_of_scan hscan hkind, if_neg (by simpa using hkind)]

/-! ### Whole sources -/

/-- **All reading ends.**  Every scan fails, or is at the end of its text, or hands out what was
owed, or goes forward; and asking for all the tokens, going down into a document and listening to
prose come to an end on every source, where the readers that end by the way they are written do. -/
theorem reading_ends :
    (∀ s : Markup.Scanner, s.Progress s.scan) ∧
      (∀ (s : Prose.Scanner) (l : Prose.Lexicon), s.Progress (s.scan l)) ∧
      (∀ source, Ultimately
        (collect Markup.Lexer.next Markup.Token.isFinish · [] (.ofSource source))
        (Markup.tokens source)) ∧
      (∀ l source maxWords, Ultimately
        (collect (Prose.Lexer.next l) (·.kind = .finish) · [] (.ofSource source maxWords))
        (Prose.tokens l source maxWords)) ∧
      (∀ v source,
        Ultimately (Markup.goThroughDocument v source) (Markup.readDocument v source)) ∧
      ∀ v maxWords source,
        Ultimately (Prose.listen v maxWords source) (Prose.Story.ofSource v maxWords source) :=
  ⟨Markup.Scanner.progress_scan, Prose.Scanner.progress_scan, Markup.collect_ends_tokens,
    Prose.collect_ends_tokens, Markup.goThroughDocument_ends, Prose.listen_ends⟩

end Adventure
