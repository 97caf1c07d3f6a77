/-
Lines.

The line of a token and the line of a lexer come from one count that is never taken up again:
it goes on with every character that is passed.  So it has to be shown that it never goes wrong,
not when a term was looked for beyond its words, not when a token is handed out that was passed
before, and not when tokens are put back.

What is counted is told by the source alone.  The source is what lies before the lexer and what
is left; what lies before it settles its line, and the place of a token settles the token's.
-/
import Adventure.Proofs.Markup.Lines
import Adventure.Proofs.Prose.Lines
import Adventure.Proofs.Replays

namespace Adventure

/-! ### Lexers that were asked for tokens -/

section

variable {ρ σ τ ε : Type} {scan : ρ → σ → EStateM.Result ε σ τ} {source : σ} {f g : Feed σ τ}
  {handed : List τ} {token : τ}

/-- What a lexer comes to when it is asked for tokens, in whatever manner each time, and tokens
that it handed out are put back; with the tokens it has handed out, the last one first. -/
inductive Feed.Reached (scan : ρ → σ → EStateM.Result ε σ τ) (source : σ) :
    Feed σ τ → List τ → Prop
  | start : Reached scan source (.ofSource source) []
  | next {f g : Feed σ τ} {handed : List τ} {token : τ} (manner : ρ)
    (h : Reached scan source f handed) (hnext : f.next (scan manner) = .ok token g) :
    Reached scan source g (token :: handed)
  | push {f : Feed σ τ} {handed : List τ} {token : τ} (h : Reached scan source f handed)
    (htoken : token ∈ handed) : Reached scan source (f.push token) handed

/-- A token was put back, or else it is scanned. -/
theorem Feed.of_next {scan : σ → EStateM.Result ε σ τ} (h : f.next scan = .ok token g) :
    f.replay.held = token :: g.replay.held ∧ g.source = f.source ∨
      f.replay.held = [] ∧ g.replay.held = [] ∧ scan f.source = .ok token g.source := by
  obtain ⟨s, held, last⟩ := f
  cases held with
  | cons first held =>
    obtain ⟨rfl, rfl⟩ := EStateM.Result.ok.inj h
    exact .inl ⟨rfl, rfl⟩
  | nil =>
    simp only [Feed.next, Replay.pop?] at h
    split at h
    · next hscan =>
      obtain ⟨rfl, rfl⟩ := EStateM.Result.ok.inj h
      exact .inr ⟨rfl, rfl, hscan⟩
    · cases h

namespace Feed.Reached

/-- Nothing is put back that was not handed out. -/
theorem held_subset (h : Reached scan source f handed) : f.replay.held ⊆ handed := by
  induction h with
  | start => exact List.nil_subset _
  | next _ _ hnext ih =>
    rcases of_next hnext with ⟨hheld, -⟩ | ⟨-, hheld, -⟩
    · rw [hheld] at ih
      exact fun held hmem => List.mem_cons_of_mem _ (ih (List.mem_cons_of_mem _ hmem))
    · rw [hheld]
      exact List.nil_subset _
  | push _ htoken ih => exact List.cons_subset.mpr ⟨htoken, ih⟩

/-- **What is told of each scan by what lies before it is told of every token.**  What a scanner
has left, what holds of it by what lies before it, and what holds of the token it hands out then
are taken as given; `Begins` is asked of the scanner that the lexer has come to. -/
theorem scanned {rest : σ → List Char} {Lined : List Char → σ → Prop}
    {Begins : List Char → σ → τ → σ → Prop} (hstart : Lined [] source)
    (hscan : ∀ {before manner s token t}, Lined before s → scan manner s = .ok token t →
      ∃ taken, rest s = taken ++ rest t ∧ Lined (before ++ taken) t ∧ Begins before s token t)
    (h : Reached scan source f handed) :
    ∃ before, rest source = before ++ rest f.source ∧ Lined before f.source ∧
      ∀ manner token g, f.next (scan manner) = .ok token g →
        token ∈ f.replay.held ∧ token ∈ handed ∨
          f.replay.held = [] ∧ Begins before f.source token g.source := by
  have hplace : ∃ before, rest source = before ++ rest f.source ∧ Lined before f.source := by
    induction h with
    | start => exact ⟨[], rfl, hstart⟩
    | next _ _ hnext ih =>
      obtain ⟨before, hwhole, hline⟩ := ih
      rcases of_next hnext with ⟨-, hsource⟩ | ⟨-, -, hnext⟩
      · exact ⟨before, by rw [hwhole, hsource], by rwa [hsource]⟩
      · obtain ⟨taken, htaken, hafter, -⟩ := hscan hline hnext
        exact ⟨before ++ taken, by rw [hwhole, htaken, List.append_assoc], hafter⟩
    | push _ _ ih => exact ih
  obtain ⟨before, hwhole, hline⟩ := hplace
  refine ⟨before, hwhole, hline, fun manner token g hnext => ?_⟩
  rcases of_next hnext with ⟨hheld, -⟩ | ⟨hheld, -, hnext⟩
  · have hmem : token ∈ f.replay.held := by
      rw [hheld]
      exact List.mem_cons_self ..
    exact .inl ⟨hmem, h.held_subset hmem⟩
  · obtain ⟨taken, -, -, hbegins⟩ := hscan hline hnext
    exact .inr ⟨hheld, hbegins⟩

end Feed.Reached

end

/-- What a lexer of markup comes to. -/
abbrev Markup.Lexer.Reached (source : String) : Markup.Lexer → List Markup.Token → Prop :=
  Feed.Reached (fun _ : Unit => Markup.Scanner.scan) (.ofSource source)

/-- What a lexer of prose comes to, with whatever lexicon it is given each time. -/
abbrev Prose.Lexer.Reached (source : String) (maxWords : Nat) :
    Prose.Lexer → List Prose.Token → Prop :=
  Feed.Reached Prose.Scanner.scan (.ofSource source maxWords)

/-- **Lines are one more than the line breaks before.**  Whatever a lexer was asked for and
whatever was put back into it, its line is one more than the number of line breaks it has
passed.  The next token was put back and handed out before, or it begins behind a place, and its
line is one more than the number of line breaks up to there. -/
theorem lines_count_breaks :
    (∀ source lexer handed, Markup.Lexer.Reached source lexer handed →
      ∃ before, source.toList = before ++ lexer.source.cursor.rest ∧
        lexer.source.cursor.line = 1 + before.count '\n' ∧
        ∀ token after, Markup.Lexer.next lexer = .ok token after →
          token ∈ lexer.replay.held ∧ token ∈ handed ∨
            lexer.replay.held = [] ∧ ∃ place, lexer.source.Begins before token after.source place ∧
              token.line = 1 + place.count '\n') ∧
      ∀ source maxWords lexer handed, Prose.Lexer.Reached source maxWords lexer handed →
        ∃ before, source.toList = before ++ lexer.source.cursor.rest ∧
          lexer.source.cursor.line = 1 + before.count '\n' ∧
          ∀ l token after, Prose.Lexer.next l lexer = .ok token after →
            token ∈ lexer.replay.held ∧ token ∈ handed ∨
              lexer.replay.held = [] ∧
                ∃ place, lexer.source.Begins before token after.source place ∧
                  token.line = 1 + place.count '\n' := by
  constructor
  · intro source lexer handed h
    obtain ⟨before, hsource, hline, hnext⟩ :=
      h.scanned (Markup.Scanner.lined_ofSource source) Markup.Scanner.begins_scan
    exact ⟨before, hsource, hline.line, hnext ()⟩
  · intro source maxWords lexer handed h
    obtain ⟨before, hsource, hline, hnext⟩ :=
      h.scanned (Prose.Scanner.lined_ofSource source maxWords) Prose.Scanner.begins_scan
    exact ⟨before, hsource, hline.line, hnext⟩

set_option maxRecDepth 100000 in
/-- The end of an element that closes itself stands on the line where its tag ends.  Behind quoted
text, a blank line and a comment over two lines there is a lamp, on the fourth line. -/
theorem lamp_on_fourth_line :
    (∃ lexer before place after, Markup.Lexer.Reached "<a\n/>" lexer [.opening "a" [] 0 1] ∧
      Markup.Lexer.next lexer = .ok (.closing "a" 0 2) after ∧
      "<a\n/>".toList = before ++ lexer.source.cursor.rest ∧
      lexer.source.Begins before (.closing "a" 0 2) after.source place ∧
      2 = 1 + place.count '\n') ∧
      ∃ lexer before place after,
        Prose.Lexer.Reached "\"Dark.\"\n\n[a\nb] lamp" 1 lexer
          [⟨.stop, ".", 1⟩, ⟨.quoted, "Dark.", 1⟩] ∧
        Prose.Lexer.next (.standard .english) lexer = .ok ⟨.word, "lamp", 4⟩ after ∧
        "\"Dark.\"\n\n[a\nb] lamp".toList = before ++ lexer.source.cursor.rest ∧
        lexer.source.Begins before ⟨.word, "lamp", 4⟩ after.source place ∧
        4 = 1 + place.count '\n' := by
  constructor
  · have hmarkup : Markup.tokens "<a\n/>" =
        .ok [.opening "a" [] 0 1, .closing "a" 0 2, .finish 2] :=
      ok_of_toOption (by decide +kernel)
    obtain ⟨first, rest, hts, hahead⟩ :=
      Markup.Scanner.ahead_of_tokens (Markup.Scanner.around_ofSource _) hmarkup
    obtain ⟨rfl, rfl⟩ := List.cons_eq_cons.mp hts
    obtain ⟨lexer, hopening, hlexer⟩ := (Feed.resembles_ofSource hahead).next
    obtain ⟨after, hclosing, hafter⟩ := hlexer.next
    have hreached : Markup.Lexer.Reached "<a\n/>" lexer [.opening "a" [] 0 1] :=
      .next () .start hopening
    obtain ⟨before, hsource, -, hnext⟩ := lines_count_breaks.1 _ _ _ hreached
    have hheld : lexer.replay.held = [] := hlexer.held
    obtain ⟨hmem, -⟩ | ⟨-, place, hbegins, hline⟩ := hnext _ _ hclosing
    · rw [hheld] at hmem
      cases hmem
    · exact ⟨lexer, before, place, after, hreached, hclosing, hsource, hbegins, hline⟩
  · have hprose : Prose.tokens (.standard .english) "\"Dark.\"\n\n[a\nb] lamp" 1 =
        .ok [⟨.quoted, "Dark.", 1⟩, ⟨.stop, ".", 1⟩, ⟨.word, "lamp", 4⟩, ⟨.finish, "", 4⟩] :=
      ok_of_toOption (by decide +kernel)
    obtain ⟨first, rest, hts, hahead⟩ :=
      Prose.Scanner.ahead_of_tokens (fun _ howed => by cases howed) hprose
    obtain ⟨rfl, rfl⟩ := List.cons_eq_cons.mp hts
    obtain ⟨middle, hquoted, hmiddle⟩ := (Feed.resembles_ofSource hahead).next
    obtain ⟨lexer, hstop, hlexer⟩ := hmiddle.next
    obtain ⟨after, hlamp, hafter⟩ := hlexer.next
    have hreached : Prose.Lexer.Reached "\"Dark.\"\n\n[a\nb] lamp" 1 lexer
        [⟨.stop, ".", 1⟩, ⟨.quoted, "Dark.", 1⟩] :=
      .next (.standard .english) (.next (.standard .english) .start hquoted) hstop
    obtain ⟨before, hsource, -, hnext⟩ := lines_count_breaks.2 _ _ _ _ hreached
    have hheld : lexer.replay.held = [] := hlexer.held
    obtain ⟨hmem, -⟩ | ⟨-, place, hbegins, hline⟩ := hnext _ _ _ hlamp
    · rw [hheld] at hmem
      cases hmem
    · exact ⟨lexer, before, place, after, hreached, hlamp, hsource, hbegins, hline⟩

end Adventure
