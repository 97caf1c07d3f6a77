/-
How tags nest, and what may follow the outermost one.

A scanner keeps the names of the open elements, but a tag that closes itself is open too
until its second token has been asked for.  Counted this way, every token turns the
stack of open elements into the next one: an opening tag puts its name on top, a closing
tag takes the same name away again, text leaves the stack alone, and the end of the
document comes only when nothing is open.

Once the document's element has ended there is nothing left that a tag or text could
belong to.  Scanning on then comes to the end of the document exactly if all that remains
are comments, instructions, declarations and blank text.
-/
import Adventure.Markup.Scanner
import Adventure.Proofs.Outcome
import Adventure.Proofs.Text

namespace Adventure.Markup

open Text (Cursor)

/-! ### Names -/

theorem not_isBlank_of_isNameChar {c : Char} (h : isNameChar c = true) :
    Text.isBlank c = false := by
  simp only [isNameChar, Bool.or_eq_true, decide_eq_true_eq] at h
  obtain (((h | rfl) | rfl) | rfl) | rfl := h
  · exact Text.not_isBlank_of_isAlphanumeric h
  all_goals decide

theorem not_isBlankText_of_scanName {c d : Cursor} {name : String}
    (h : scanName c = .ok name d) : Text.isBlankText name = false := by
  unfold scanName at h
  dsimp only at h
  split at h
  · exact absurd h nofun
  · rename_i hne
    obtain ⟨rfl, -⟩ := EStateM.Result.ok.inj h
    obtain ⟨first, rest, hrun⟩ := List.exists_cons_of_ne_nil
      (fun hnil => hne (List.isEmpty_iff.mpr hnil))
    have hall : ∀ x ∈ c.run isNameChar, isNameChar x = true :=
      List.all_eq_true.mp List.all_takeWhile
    have hfirst : isNameChar first = true := hall first (hrun ▸ List.mem_cons_self ..)
    rw [Text.isBlankText, String.toList_ofList, hrun, List.all_cons,
      not_isBlank_of_isNameChar hfirst, Bool.false_and]

/-- The name in an opening tag is read as names are. -/
theorem exists_scanName_of_scanOpening {c d : Cursor} {name : String}
    {attributes : List (String × String)} {closed : Bool}
    (h : scanOpening c = .ok (name, attributes, closed) d) :
    ∃ c' d', scanName c' = .ok name d' := by
  unfold scanOpening at h
  obtain ⟨_, _, -, h⟩ := run_bind_ok_iff.mp h
  obtain ⟨found, _, hname, h⟩ := run_bind_ok_iff.mp h
  obtain ⟨_, _, -, h⟩ := run_bind_ok_iff.mp h
  obtain ⟨hfound, -⟩ := EStateM.Result.ok.inj h
  obtain rfl : found = name := congrArg Prod.fst hfound
  exact ⟨_, _, hname⟩

/-- What a token makes of the names of the open elements, innermost first. -/
inductive Token.Turns : Token → List String → List String → Prop
  | opening (name : String) (attributes : List (String × String)) (names : List String)
    (line : Nat) : Turns (.opening name attributes names.length line) names (name :: names)
  | closing (name : String) (outer : List String) (line : Nat) :
    Turns (.closing name outer.length line) (name :: outer) outer
  | text (content : String) (names : List String) (line : Nat) (h : names ≠ []) :
    Turns (.text content names.length line) names names
  | finish (line : Nat) : Turns (.finish line) [] []

theorem Token.Turns.not_finish {token : Token} {names names' : List String}
    (h : token.Turns names names') (hne : names ≠ []) : token.isFinish = false := by
  cases h with
  | opening | closing | text => rfl
  | finish => exact absurd rfl hne

namespace Scanner

variable {s t u : Scanner} {token : Token} {names : List String}

/-! ### The open elements -/

/-- The names of the elements that are still to be closed, innermost first.  The element
whose closing token is owed is one of them. -/
inductive Around (s : Scanner) : List String → Prop
  | even (howed : s.owed = none) : Around s s.opened
  | owing {name : String} {line : Nat}
    (howed : s.owed = some (.closing name s.opened.length line)) : Around s (name :: s.opened)

/-- The document's element has ended as soon as none is open. -/
def Marked (s : Scanner) : Prop :=
  s.finished = s.opened.isEmpty

theorem around_ofSource (source : String) : (Scanner.ofSource source).Around [] :=
  .even rfl

theorem Around.eq_nil (h : s.Around []) : s.opened = [] ∧ s.owed = none := by
  generalize hnames : ([] : List String) = names at h
  cases h with
  | even howed => exact ⟨rfl, howed⟩
  | owing => exact absurd hnames nofun

/-- What a scanner whose open elements are `before` has done when it has handed out a
token: the token fits them, and the end of the document's element is noticed. -/
structure Handed (s : Scanner) (before : List String) (token : Token) (t : Scanner)
    (after : List String) : Prop where
  turns : token.Turns before after
  around : t.Around after
  /-- Noticing begins with the first tag. -/
  marked : s.Marked ∨ token.isOpening = true → t.Marked
  named : token.isOpening = true → Text.isBlankText token.tagName = false

theorem handed_openElement (howed : s.owed = none) (h : s.openElement = .ok token t) :
    ∃ after, Handed s s.opened token t after := by
  unfold openElement at h
  dsimp only at h
  split at h
  · exact absurd h nofun
  · rename_i hfinished
    split at h
    · exact absurd h nofun
    · rename_i name attributes closed cursor hscan
      simp only [EStateM.Result.ok.injEq] at h
      obtain ⟨rfl, rfl⟩ := h
      obtain ⟨_, _, hname⟩ := exists_scanName_of_scanOpening hscan
      refine ⟨name :: s.opened, .opening name attributes s.opened _, ?_, ?_,
        fun _ => not_isBlankText_of_scanName hname⟩
      · cases closed with
        | true => exact .owing rfl
        | false => exact .even howed
      · intro _
        cases closed with
        | true =>
          cases s.opened <;> simp [Marked, hfinished]
        | false => simpa [Marked] using hfinished

theorem handed_closeElement (howed : s.owed = none) (h : s.closeElement = .ok token t) :
    ∃ after, Handed s s.opened token t after := by
  unfold closeElement at h
  dsimp only at h
  split at h
  · exact absurd h nofun
  · split at h
    · exact absurd h nofun
    · rename_i wanted outer hopened
      split at h
      · rename_i hname
        simp only [EStateM.Result.ok.injEq] at h
        obtain ⟨rfl, rfl⟩ := h
        refine ⟨outer, ?_, .even howed, ?_, nofun⟩
        · rw [hopened, ← hname]
          exact .closing wanted outer _
        · intro hmarked
          have hfinished : s.finished = false := by
            simpa [Marked, hopened, Token.isOpening] using hmarked
          simp [Marked, hfinished]
      · exact absurd h nofun

theorem handed_giveText {content : List Char} {line : Nat}
    (h : s.giveText content line = .ok token t) (howed : s.owed = none) :
    ∃ after, Handed s s.opened token t after := by
  unfold giveText at h
  split at h
  · exact absurd h nofun
  · rename_i hopened
    simp only [EStateM.Result.ok.injEq] at h
    obtain ⟨rfl, rfl⟩ := h
    refine ⟨s.opened, .text _ _ _ ?_, .even howed, ?_, nofun⟩
    · simpa using hopened
    · intro hmarked
      exact hmarked.resolve_right nofun

/-- Passing over something does not change what is handed out next. -/
theorem Handed.moved {cursor : Cursor} {after : List String}
    (h : Handed { s with cursor } names token t after) : Handed s names token t after :=
  ⟨h.turns, h.around, h.marked, h.named⟩

theorem handed_scanText (howed : s.owed = none) (h : s.scanText = .ok token t) :
    ∃ after, Handed s s.opened token t after := by
  fun_induction scanText s with
  | case1 | case3 | case5 | case7 | case13 => cases h
  | case2 s _ hopened =>
    simp only [EStateM.Result.ok.injEq] at h
    obtain ⟨rfl, rfl⟩ := h
    refine ⟨s.opened, ?_, .even howed, fun hmarked => hmarked.resolve_right (by rintro ⟨⟩), by rintro ⟨⟩⟩
    rw [hopened]
    exact .finish _
  | case4 s _ _ cursor _ ih | case6 s _ _ cursor _ ih | case8 s _ _ cursor _ ih =>
    obtain ⟨after, hafter⟩ := ih howed h
    exact ⟨after, hafter.moved⟩
  | case9 s =>
    unfold readCharacterData at h
    dsimp only at h
    split at h
    · cases h
    · obtain ⟨after, hafter⟩ := handed_giveText h howed
      exact ⟨after, hafter.moved⟩
  | case10 s => exact handed_closeElement howed h
  | case11 s => exact handed_openElement howed h
  | case12 s _ _ _ _ _ ih =>
    obtain ⟨after, hafter⟩ := ih howed h
    exact ⟨after, hafter.moved⟩
  | case14 s =>
    obtain ⟨after, hafter⟩ := handed_giveText h howed
    exact ⟨after, hafter.moved⟩

/-- **Every token fits the elements that are open.** -/
theorem handed_scan (hs : s.Around names) (h : s.scan = .ok token t) :
    ∃ after, Handed s names token t after := by
  unfold scan at h
  cases hs with
  | even howed =>
    rw [howed] at h
    exact handed_scanText howed h
  | @owing name line howed =>
    rw [howed] at h
    simp only [EStateM.Result.ok.injEq] at h
    obtain ⟨rfl, rfl⟩ := h
    refine ⟨s.opened, .closing name s.opened line, .even rfl, ?_, nofun⟩
    intro hmarked
    exact hmarked.resolve_right nofun

/-! ### Scanning part of the way -/

/-- Handing out tokens, none of which is the end of the document. -/
inductive Scans (s : Scanner) : List Token → Scanner → Prop
  | start : Scans s [] s
  | concat {ts : List Token} {t u : Scanner} {token : Token} (h : Scans s ts t)
    (hscan : t.scan = .ok token u) (hmore : token.isFinish = false) : Scans s (ts ++ [token]) u

/-- The next token comes first. -/
theorem tokens_of_scan (h : s.scan = .ok token t) :
    s.tokens = if token.isFinish then .ok [token] else t.tokens.map (token :: ·) := by
  rw [tokens]
  split
  · rename_i hfault
    rw [h] at hfault
    cases hfault
  · rename_i hnext
    rw [h] at hnext
    obtain ⟨rfl, rfl⟩ := EStateM.Result.ok.inj hnext
    rfl

theorem exists_scan_of_tokens {ts : List Token} (h : s.tokens = .ok ts) :
    ∃ token t, s.scan = .ok token t := by
  rw [tokens] at h
  split at h
  · cases h
  · rename_i token t hscan
    exact ⟨token, t, hscan⟩

/-- **All tokens are those of the first part and those of the rest.** -/
theorem Scans.tokens_eq {ts : List Token} (h : s.Scans ts t) :
    s.tokens = t.tokens.map (ts ++ ·) := by
  induction h with
  | start =>
    cases s.tokens <;> rfl
  | @concat ts t u token _ hscan hmore ih =>
    rw [ih, tokens_of_scan hscan, hmore, if_neg Bool.false_ne_true]
    cases u.tokens with
    | error e => rfl
    | ok rest => simp [Except.map]

end Scanner

/-! ### What follows the document's element -/

/-- The text that ends a piece which is passed over. -/
def Piece.ending? : Piece → Option String
  | comment => some "-->"
  | instruction => some "?>"
  | declaration => some ">"
  | _ => none

/-- Nothing remains but comments, instructions, declarations and blank text. -/
inductive Ignorable : Cursor → Prop
  | nothing {c : Cursor} (h : c.rest = []) : Ignorable c
  | passed {c d : Cursor} {ending : String} (hpiece : (Piece.next c).ending? = some ending)
    (hpast : c.past? ending = some d) (rest : Ignorable d) : Ignorable c
  | blank {c : Cursor} (hpiece : Piece.next c = .text)
    (hblank : (c.run (· ≠ '<')).all Text.isBlank = true)
    (rest : Ignorable (c.skip (c.run (· ≠ '<')).length)) : Ignorable c

namespace Scanner

variable {s t : Scanner} {token : Token}

/-- The document's element has ended, and its closing token has been handed out. -/
structure Ended (s : Scanner) : Prop where
  opened : s.opened = []
  owed : s.owed = none
  finished : s.finished = true

theorem Ended.moved {cursor : Cursor} (h : s.Ended) : Ended { s with cursor } :=
  ⟨h.opened, h.owed, h.finished⟩

theorem Ended.giveText_ne_ok {content : List Char} {line : Nat} (h : s.Ended) :
    s.giveText content line ≠ .ok token t := by
  unfold giveText
  simp [h.opened]

theorem Ended.openElement_ne_ok (h : s.Ended) : s.openElement ≠ .ok token t := by
  unfold openElement
  simp [h.finished]

theorem Ended.closeElement_ne_ok (h : s.Ended) : s.closeElement ≠ .ok token t := by
  unfold closeElement
  dsimp only
  split
  · exact nofun
  · simp [h.opened]

theorem Ended.readCharacterData_ne_ok (h : s.Ended) : s.readCharacterData ≠ .ok token t := by
  unfold readCharacterData
  dsimp only
  split
  · exact nofun
  · exact Ended.giveText_ne_ok h.moved

/-- After the document's element only its end can be handed out, and only if nothing of
weight comes before it. -/
theorem Ended.ignorable_of_scanText (hs : s.Ended) (h : s.scanText = .ok token t) :
    token.isFinish = true ∧ Ignorable s.cursor := by
  fun_induction scanText s with
  | case1 | case3 | case5 | case7 | case13 => cases h
  | case2 s hrest =>
    simp only [EStateM.Result.ok.injEq] at h
    exact ⟨h.1 ▸ rfl, .nothing hrest⟩
  | case4 s _ hpiece cursor hpast ih | case6 s _ hpiece cursor hpast ih
  | case8 s _ hpiece cursor hpast ih =>
    obtain ⟨hfinish, hrest⟩ := ih hs.moved h
    refine ⟨hfinish, .passed ?_ hpast hrest⟩
    rw [hpiece]
    rfl
  | case9 s => exact absurd h hs.readCharacterData_ne_ok
  | case10 s => exact absurd h hs.closeElement_ne_ok
  | case11 s => exact absurd h hs.openElement_ne_ok
  | case12 s _ hpiece _ _ hblank ih =>
    obtain ⟨hfinish, hrest⟩ := ih hs.moved h
    exact ⟨hfinish, .blank hpiece hblank hrest⟩
  | case14 s => exact absurd h (Ended.giveText_ne_ok hs.moved)

theorem scanText_passed {ending : String} {cursor : Cursor} (hrest : s.cursor.rest ≠ [])
    (hpiece : (Piece.next s.cursor).ending? = some ending)
    (hpast : s.cursor.past? ending = some cursor) :
    s.scanText = scanText { s with cursor } := by
  rw [scanText, dif_neg hrest]
  cases hnext : Piece.next s.cursor with
  | comment | instruction | declaration =>
    rw [hnext] at hpiece
    obtain rfl := Option.some.inj hpiece
    dsimp only
    split
    · rename_i hnone
      rw [hpast] at hnone
      cases hnone
    · rename_i found hfound
      rw [hpast] at hfound
      exact Option.some.inj hfound ▸ rfl
  | characterData | closingTag | openingTag | text =>
    rw [hnext] at hpiece
    cases hpiece

theorem scanText_blank (hrest : s.cursor.rest ≠ []) (hpiece : Piece.next s.cursor = .text)
    (hblank : (s.cursor.run (· ≠ '<')).all Text.isBlank = true) :
    s.scanText =
      scanText { s with cursor := s.cursor.skip (s.cursor.run (· ≠ '<')).length } := by
  rw [scanText, dif_neg hrest, hpiece]
  exact if_pos hblank

theorem scanText_end (hrest : s.cursor.rest = []) (hopened : s.opened = []) :
    s.scanText = .ok (.finish s.cursor.line) s := by
  rw [scanText, dif_pos hrest, hopened]

theorem scanText_of_ignorable {c : Cursor} (h : Ignorable c) (hc : s.cursor = c)
    (hopened : s.opened = []) : ∃ line t, s.scanText = .ok (.finish line) t := by
  induction h generalizing s with
  | nothing hrest => exact ⟨_, s, scanText_end (hc ▸ hrest) hopened⟩
  | @passed c d ending hpiece hpast _ ih =>
    subst hc
    by_cases hrest : s.cursor.rest = []
    · exact ⟨_, s, scanText_end hrest hopened⟩
    · rw [scanText_passed hrest hpiece hpast]
      exact ih rfl hopened
  | @blank c hpiece hblank _ ih =>
    subst hc
    by_cases hrest : s.cursor.rest = []
    · exact ⟨_, s, scanText_end hrest hopened⟩
    · rw [scanText_blank hrest hpiece hblank]
      exact ih rfl hopened

/-- **After the document's element, scanning reaches the end exactly if nothing remains
but comments, instructions, declarations and blank text.** -/
theorem Ended.tokens_ok_iff (hs : s.Ended) :
    (∃ ts, s.tokens = .ok ts) ↔ Ignorable s.cursor := by
  have hscan : s.scan = s.scanText := by
    unfold scan
    rw [hs.owed]
  constructor
  · rintro ⟨ts, h⟩
    obtain ⟨token, t, hnext⟩ := exists_scan_of_tokens h
    exact (hs.ignorable_of_scanText (hscan ▸ hnext)).2
  · intro h
    obtain ⟨line, t, ht⟩ := scanText_of_ignorable h rfl hs.opened
    exact ⟨[.finish line], tokens_of_scan (hscan.trans ht)⟩

end Scanner

end Adventure.Markup
