/-
Putting tokens back.

A lexer takes its next token from what was put back, from what its scanner owes, or from the
text.  Whoever asks for tokens cannot tell the last two apart: to them a lexer is a stack on
top of a list, which holds all the tokens of the source and whose last element comes again and
again.

What carries the induction over requests is how far the scanner has come: scanning on from
there gives what is left of the list.  Only a token that the stack cannot give moves it.
-/
import Adventure.Markup.Reader
import Adventure.Proofs.Markup.Nesting
import Adventure.Proofs.Prose.Lookahead

namespace Adventure

/-! ### Requests -/

/-- What can be asked of a lexer. -/
inductive Request (τ : Type) where
  | next
  | peek
  | push (token : τ)
  deriving DecidableEq, Repr

/-- What a lexer answers. -/
inductive Reply (ε τ : Type) where
  /-- The next token, or why there is none. -/
  | handed (result : Except ε τ)
  /-- The token that was handed out last. -/
  | shown (last : Option τ)
  /-- A token was put back. -/
  | noted

section

variable {σ τ ε α : Type}

/-- The replies to requests, one after the other. -/
def replies (reply : α → Request τ → Reply ε τ × α) (a : α) : List (Request τ) → List (Reply ε τ)
  | [] => []
  | request :: rest => (reply a request).1 :: replies reply (reply a request).2 rest

/-- How a lexer replies, given how it takes its next token. -/
def Feed.reply (next : EStateM ε (Feed σ τ) τ) (s : Feed σ τ) :
    Request τ → Reply ε τ × Feed σ τ
  | .next =>
    match next s with
    | .ok token s => (.handed (.ok token), s)
    | .error e s => (.handed (.error e), s)
  | .peek => (.shown s.peek?, s)
  | .push token => (.noted, s.push token)

/-! ### A stack on top of a list -/

/-- A stack on top of a list of tokens, the last of which comes again and again. -/
structure TokenStack (τ : Type) where
  pushed : List τ
  /-- What comes next when nothing is pushed. -/
  first : τ
  /-- What comes after that. -/
  rest : List τ
  last : Option τ

namespace TokenStack

/-- The list, with nothing pushed and nothing handed out. -/
def ofTokens (first : τ) (rest : List τ) : TokenStack τ :=
  ⟨[], first, rest, none⟩

/-- Takes the token pushed last, or else the next one of the list. -/
def next (m : TokenStack τ) : τ × TokenStack τ :=
  match m.pushed, m.rest with
  | token :: pushed, _ => (token, { m with pushed, last := some token })
  | [], [] => (m.first, { m with last := some m.first })
  | [], second :: rest => (m.first, { m with first := second, rest, last := some m.first })

/-- How the stack replies; it never fails. -/
def reply (m : TokenStack τ) : Request τ → Reply ε τ × TokenStack τ
  | .next => (.handed (.ok m.next.1), m.next.2)
  | .peek => (.shown m.last, m)
  | .push token => (.noted, { m with pushed := token :: m.pushed })

end TokenStack

/-- Scanning gives a list of tokens from a place on, and the last of them ever after. -/
def Ahead (scan : σ → EStateM.Result ε σ τ) (s : σ) (first : τ) : List τ → Prop
  | [] => ∃ t, scan s = .ok first t ∧ scan t = .ok first t
  | second :: rest => ∃ t, scan s = .ok first t ∧ Ahead scan t second rest

/-- A lexer looks like a stack on top of a list. -/
structure Feed.Resembles (scan : σ → EStateM.Result ε σ τ) (s : Feed σ τ) (m : TokenStack τ) :
    Prop where
  held : s.replay.held = m.pushed
  last : s.replay.last = m.last
  ahead : Ahead scan s.source m.first m.rest

namespace Feed.Resembles

variable {scan : σ → EStateM.Result ε σ τ} {s : Feed σ τ} {m : TokenStack τ}

theorem next (h : s.Resembles scan m) :
    ∃ s', s.next scan = .ok m.next.1 s' ∧ s'.Resembles scan m.next.2 := by
  obtain ⟨source, held, last⟩ := s
  obtain ⟨pushed, first, rest, shown⟩ := m
  obtain ⟨rfl, rfl, hahead⟩ := h
  cases held with
  | cons token held => exact ⟨_, rfl, rfl, rfl, hahead⟩
  | nil =>
    cases rest with
    | nil =>
      obtain ⟨t, hscan, hagain⟩ := hahead
      refine ⟨⟨t, ⟨[], some first⟩⟩, ?_, rfl, rfl, t, hagain, hagain⟩
      simp only [Feed.next, Replay.pop?, hscan]
      rfl
    | cons second rest =>
      obtain ⟨t, hscan, hrest⟩ := hahead
      refine ⟨⟨t, ⟨[], some first⟩⟩, ?_, rfl, rfl, hrest⟩
      simp only [Feed.next, Replay.pop?, hscan]
      rfl

/-- One request gets the same reply, and leaves a lexer that looks like the stack again. -/
theorem reply (h : s.Resembles scan m) (request : Request τ) :
    (s.reply (Feed.next scan) request).1 = (m.reply request).1 ∧
      (s.reply (Feed.next scan) request).2.Resembles scan
        (m.reply request : Reply ε τ × TokenStack τ).2 := by
  cases request with
  | next =>
    obtain ⟨s', hnext, hs'⟩ := h.next
    simp only [Feed.reply, hnext, TokenStack.reply]
    exact ⟨trivial, hs'⟩
  | peek => exact ⟨congrArg Reply.shown h.last, h⟩
  | push token => exact ⟨rfl, congrArg (token :: ·) h.held, h.last, h.ahead⟩

/-- **All requests get the same replies.** -/
theorem replies (h : s.Resembles scan m) (requests : List (Request τ)) :
    replies (Feed.reply (Feed.next scan)) s requests = replies TokenStack.reply m requests := by
  induction requests generalizing s m with
  | nil => rfl
  | cons request rest ih =>
    obtain ⟨hsame, hafter⟩ := h.reply request
    exact congrArg₂ (· :: ·) hsame (ih hafter)

end Feed.Resembles

/-- A lexer from which nothing was taken looks like the list of what its scanner gives. -/
theorem Feed.resembles_ofSource {scan : σ → EStateM.Result ε σ τ} {source : σ} {first : τ}
    {rest : List τ} (h : Ahead scan source first rest) :
    (Feed.ofSource source).Resembles scan (.ofTokens first rest) :=
  ⟨rfl, rfl, h⟩

end

/-! ### The end of a source -/

namespace Markup.Scanner

variable {s t : Scanner} {token : Token}

/-- The end of a document is handed out where nothing remains and no element is open. -/
theorem finish_of_scanText (h : s.scanText = .ok token t) (hfinish : token.isFinish = true) :
    t.cursor.rest = [] ∧ t.opened = [] ∧ t.owed = s.owed ∧ token = .finish t.cursor.line := by
  have hgiveText : ∀ {s : Scanner} {content line}, s.giveText content line ≠ .ok token t := by
    intro s content line h
    unfold giveText at h
    split at h
    · cases h
    · cases h
      cases hfinish
  fun_induction scanText s with
  | case1 | case3 | case5 | case7 | case13 => cases h
  | case2 s hrest hopened =>
    cases h
    exact ⟨hrest, hopened, rfl, rfl⟩
  | case4 s _ _ cursor _ ih | case6 s _ _ cursor _ ih | case8 s _ _ cursor _ ih => exact ih h
  | case12 s _ _ _ _ _ ih => exact ih h
  | case9 s =>
    unfold readCharacterData at h
    dsimp only at h
    split at h
    · cases h
    · exact absurd h hgiveText
  | case10 s =>
    unfold closeElement at h
    dsimp only at h
    split at h
    · cases h
    · split at h
      · cases h
      · split at h
        · cases h
          cases hfinish
        · cases h
  | case11 s =>
    unfold openElement at h
    dsimp only at h
    split at h
    · cases h
    · split at h
      · cases h
      · cases h
        cases hfinish
  | case14 => exact absurd h hgiveText

theorem scan_of_even (howed : s.owed = none) : s.scan = s.scanText := by
  rw [scan, howed]

/-- **The end of a document comes again.** -/
theorem scan_again {names : List String} (hs : s.Around names) (h : s.scan = .ok token t)
    (hfinish : token.isFinish = true) : t.scan = .ok token t := by
  obtain ⟨after, hhanded⟩ := handed_scan hs h
  have hturns := hhanded.turns
  cases hturns with
  | opening | closing | text => cases hfinish
  | finish =>
    obtain ⟨-, howed⟩ := hs.eq_nil
    rw [scan_of_even howed] at h
    obtain ⟨hrest, hopened, hsame, hline⟩ := finish_of_scanText h hfinish
    rw [scan_of_even (hsame.trans howed), scanText_end hrest hopened, ← hline]

/-- **Scanning gives the tokens of a document one by one**, the last of them ever after. -/
theorem ahead_of_tokens {names : List String} {ts : List Token} (hs : s.Around names)
    (h : s.tokens = .ok ts) : ∃ first rest, ts = first :: rest ∧ Ahead scan s first rest := by
  fun_induction tokens s generalizing names ts with
  | case1 => cases h
  | case2 s token t hscan hfinish =>
    obtain rfl := Except.ok.inj h
    exact ⟨token, [], rfl, t, hscan, scan_again hs hscan hfinish⟩
  | case3 s token t hscan hfinish ih =>
    obtain ⟨after, hhanded⟩ := handed_scan hs hscan
    cases hrest : t.tokens with
    | error e =>
      rw [hrest] at h
      cases h
    | ok rest =>
      rw [hrest] at h
      obtain rfl := Except.ok.inj h
      obtain ⟨second, rest, rfl, hahead⟩ := ih hhanded.around hrest
      exact ⟨token, second :: rest, rfl, t, hscan, hahead⟩

end Markup.Scanner

namespace Prose.Scanner

variable {s t : Scanner} {l : Lexicon} {token : Token}

theorem kind_of_readQuoted (h : s.readQuoted = .ok token t) : token.kind = .quoted := by
  unfold readQuoted at h
  dsimp only at h
  split at h
  · cases h
  · cases h
    rfl

/-- The end of a source is handed out where nothing remains. -/
theorem finish_of_readToken (h : s.readToken l = .ok token t) (hfinish : token.kind = .finish) :
    s.cursor.rest = [] ∧ t = s := by
  unfold readToken at h
  split at h
  · next hrest =>
    cases h
    exact ⟨hrest, rfl⟩
  · exfalso
    split at h
    · next kind hmark =>
      cases h
      subst hfinish
      unfold TokenKind.ofMark? at hmark
      split at hmark <;> cases hmark
    · split at h
      · cases h
        cases hfinish
      · split at h
        · cases h
          cases hfinish
        · split at h
          · rw [kind_of_readQuoted h] at hfinish
            cases hfinish
          · split at h
            · have htoken : (s.readTerm l).1 = token := (EStateM.Result.ok.inj h).1
              rw [← htoken, readTerm] at hfinish
              dsimp only at hfinish
              exact TokenKind.ofWord_ne_finish _ hfinish
            · cases h

/-- **The end of a source comes again.** -/
theorem scan_again (hs : s.Sound) (h : s.scan l = .ok token t) (hfinish : token.kind = .finish) :
    t.scan l = .ok token t := by
  cases howed : s.owed with
  | some owed =>
    rw [scan_of_owed howed] at h
    obtain ⟨rfl, -⟩ := EStateM.Result.ok.inj h
    rw [hs _ howed] at hfinish
    cases hfinish
  | none =>
    cases hidle : skipIdle s.cursor with
    | error e cursor =>
      rw [scan, howed] at h
      simp only [hidle] at h
      cases h
    | ok _ c =>
      rw [scan_of_idle howed hidle] at h
      obtain ⟨hrest, rfl⟩ := finish_of_readToken h hfinish
      rw [scan_of_idle (s := { s with cursor := c }) howed (skipIdle_nil hrest)]
      exact h

/-- **Scanning gives the tokens of a source one by one**, the last of them ever after. -/
theorem ahead_of_tokens {ts : List Token} (hs : s.Sound) (h : s.tokens l = .ok ts) :
    ∃ first rest, ts = first :: rest ∧ Ahead (scan l) s first rest := by
  fun_induction tokens l s generalizing ts with
  | case1 => cases h
  | case2 s token t hscan hfinish =>
    obtain rfl := Except.ok.inj h
    exact ⟨token, [], rfl, t, hscan, scan_again hs hscan hfinish⟩
  | case3 s token t hscan hfinish ih =>
    cases hrest : t.tokens l with
    | error e =>
      rw [hrest] at h
      cases h
    | ok rest =>
      rw [hrest] at h
      obtain rfl := Except.ok.inj h
      obtain ⟨second, rest, rfl, hahead⟩ := ih (sound_of_scan hs hscan) hrest
      exact ⟨token, second :: rest, rfl, t, hscan, hahead⟩

end Prose.Scanner

/-! ### Lexers -/

/-- **Putting back is a stack on top of the tokens of the source**, for markup and for prose.
Whatever a lexer is asked for in whatever order, and whatever is put back into it, it replies
as the stack does: no token that was scanned is lost or comes twice or out of order, and the
end of the source comes again and again. -/
theorem putting_back_is_a_stack :
    (∀ source ts, Markup.tokens source = .ok ts → ∃ first rest, ts = first :: rest ∧
      ∀ requests, replies (Feed.reply Markup.Lexer.next) (Markup.Lexer.ofSource source) requests =
        replies TokenStack.reply (.ofTokens first rest) requests) ∧
      ∀ l source maxWords ts, Prose.tokens l source maxWords = .ok ts →
        ∃ first rest, ts = first :: rest ∧
          ∀ requests, replies (Feed.reply (Prose.Lexer.next l))
              (Prose.Lexer.ofSource source maxWords) requests =
            replies TokenStack.reply (.ofTokens first rest) requests := by
  constructor
  · intro source ts h
    obtain ⟨first, rest, hts, hahead⟩ :=
      Markup.Scanner.ahead_of_tokens (Markup.Scanner.around_ofSource source) h
    exact ⟨first, rest, hts, (Feed.resembles_ofSource hahead).replies⟩
  · intro l source maxWords ts h
    have hsound : (Prose.Scanner.ofSource source maxWords).Sound := fun _ howed => by cases howed
    obtain ⟨first, rest, hts, hahead⟩ := Prose.Scanner.ahead_of_tokens hsound h
    exact ⟨first, rest, hts, (Feed.resembles_ofSource hahead).replies⟩

set_option maxRecDepth 100000 in
/-- What is owed comes after what was put back: the end of an element that closes itself, and
the end of a sentence between quotes. -/
theorem owed_comes_after_put_back :
    (Markup.tokens "<a/>" = .ok [.opening "a" [] 0 1, .closing "a" 0 1, .finish 1] ∧
      replies (Feed.reply Markup.Lexer.next) (Markup.Lexer.ofSource "<a/>")
          [.next, .push (.finish 7), .next, .peek, .next, .next, .next] =
        [.handed (.ok (.opening "a" [] 0 1)), .noted, .handed (.ok (.finish 7)),
          .shown (some (.finish 7)), .handed (.ok (.closing "a" 0 1)),
          .handed (.ok (.finish 1)), .handed (.ok (.finish 1))]) ∧
      Prose.tokens (.standard .english) "\"Dark.\"" 1 =
        .ok [⟨.quoted, "Dark.", 1⟩, ⟨.stop, ".", 1⟩, ⟨.finish, "", 1⟩] ∧
      replies (Feed.reply (Prose.Lexer.next (.standard .english)))
          (Prose.Lexer.ofSource "\"Dark.\"" 1) [.next, .push ⟨.comma, ",", 1⟩, .next, .next] =
        [.handed (.ok ⟨.quoted, "Dark.", 1⟩), .noted, .handed (.ok ⟨.comma, ",", 1⟩),
          .handed (.ok ⟨.stop, ".", 1⟩)] := by
  have hmarkup : Markup.tokens "<a/>" =
      .ok [.opening "a" [] 0 1, .closing "a" 0 1, .finish 1] :=
    ok_of_toOption (by decide +kernel)
  have hprose : Prose.tokens (.standard .english) "\"Dark.\"" 1 =
      .ok [⟨.quoted, "Dark.", 1⟩, ⟨.stop, ".", 1⟩, ⟨.finish, "", 1⟩] :=
    ok_of_toOption (by decide +kernel)
  obtain ⟨first, rest, hts, hreplies⟩ := putting_back_is_a_stack.1 _ _ hmarkup
  obtain ⟨first', rest', hts', hreplies'⟩ := putting_back_is_a_stack.2 _ _ _ _ hprose
  obtain ⟨rfl, rfl⟩ := List.cons_eq_cons.mp hts
  obtain ⟨rfl, rfl⟩ := List.cons_eq_cons.mp hts'
  exact ⟨⟨hmarkup, hreplies _⟩, hprose, hreplies' _⟩

end Adventure
