/-
Tokens on offer.

A lexer offers the tokens of a sentence one after the other, and then it stands behind the
sentence; or it fails where the text is at fault.  A token that was handed out and is put back is
on offer again, with those behind it.  The end of the source is put back by whoever ends a
sentence with it, so that it comes once more.
-/
import Adventure.Prose.Story

namespace Adventure.Prose

/-- What follows a sentence: the rest of the source, if there is one, or a fault of the text. -/
abbrev Ending := Except Error (Bool × Scanner)

/-- The ending of a sentence. -/
def Sentence.ending : Sentence → Ending
  | whole _ atEnd rest => .ok (atEnd, rest)
  | broken _ e => .error e

theorem Sentence.tokens_cons (t : Token) (s : Sentence) : (s.cons t).tokens = t :: s.tokens := by
  cases s <;> rfl

theorem Sentence.ending_cons (t : Token) (s : Sentence) : (s.cons t).ending = s.ending := by
  cases s <;> rfl

/-- The error of a sentence that is cut short. -/
def Ending.scanning : Ending → Error
  | .ok _ => .internal "a sentence has no end"
  | .error e => e

/-- What is told from the end of a sentence on. -/
def Ending.goOn : Ending → Story → EStateM.Result Error Story Unit
  | .ok (false, rest), s => Story.readAll rest false s
  | _, s => .ok () s

/-- What is told by a sentence and from its end on. -/
def Ending.tell (ending : Ending) (r : Reading) (s : Story) : EStateM.Result Error Story Unit :=
  match Story.hear r ending.scanning s with
  | .error e t => .error e t
  | .ok () t => ending.goOn t

/-- A source is told sentence by sentence. -/
theorem Ending.readAll_eq (scanner : Scanner) (opening : Bool) (s : Story) :
    Story.readAll scanner opening s = (scanner.sentence s.lexicon).ending.tell
      (readTokens s.lexicon opening (scanner.sentence s.lexicon).tokens) s := by
  cases hsentence : scanner.sentence s.lexicon with
  | whole ts atEnd rest =>
    rw [Story.readAll_of_whole hsentence]
    cases atEnd <;> rfl
  | broken ts e =>
    rw [Story.readAll]
    split
    · next hbroken =>
      cases hsentence.symm.trans hbroken
      cases htold : Story.hear (readTokens s.lexicon opening ts) e s <;>
        simp only [Sentence.tokens, Sentence.ending, Ending.tell, Ending.scanning, Ending.goOn,
          htold]
    · next hwhole => cases hsentence.symm.trans hwhole

/-- A lexer offers the tokens of a sentence that ends in some way. -/
inductive Lexer.Offers (l : Lexicon) : Lexer → List Token → Ending → Prop
  | broken {lx lx' : Lexer} {e : Error} (hnext : Lexer.next l lx = .error e lx') :
    Offers l lx [] (.error e)
  | last {lx lx' : Lexer} {t : Token} (hnext : Lexer.next l lx = .ok t lx')
    (hends : t.endsSentence = true) (hheld : lx'.replay.held = []) :
    Offers l lx [t] (.ok (decide (t.kind = .finish), lx'.source))
  | more {lx lx' : Lexer} {t : Token} {ts : List Token} {ending : Ending}
    (hnext : Lexer.next l lx = .ok t lx') (hgoes : t.endsSentence = false)
    (h : Offers l lx' ts ending) : Offers l lx (t :: ts) ending

/-- A lexer stands behind a sentence.  The end of the source comes once more. -/
inductive Lexer.Behind : Ending → Lexer → Prop
  | within {lx : Lexer} (hheld : lx.replay.held = []) : Behind (.ok (false, lx.source)) lx
  | atEnd {lx : Lexer} {t : Token} (hheld : lx.replay.held = [t]) (hkind : t.kind = .finish) :
    Behind (.ok (true, lx.source)) lx

variable {l l' : Lexicon} {lx lx' : Lexer} {t : Token} {ts : List Token} {ending : Ending}

/-- What was handed out and put back comes again, and leaves the lexer where it was. -/
theorem Lexer.next_push (h : Lexer.next l lx = .ok t lx') :
    Lexer.next l' (lx'.push t) = .ok t lx' := by
  obtain ⟨source, held, last⟩ := lx
  cases held with
  | cons first held =>
    obtain ⟨rfl, rfl⟩ := EStateM.Result.ok.inj h
    rfl
  | nil =>
    simp only [Lexer.next, Feed.next, Replay.pop?] at h
    split at h
    · obtain ⟨rfl, rfl⟩ := EStateM.Result.ok.inj h
      rfl
    · cases h

/-- A lexer has just handed out the first of the tokens on offer. -/
def Lexer.Took (l : Lexicon) (t : Token) (ts : List Token) (ending : Ending) (lx' : Lexer) :
    Prop :=
  ∃ lx, Lexer.next l lx = .ok t lx' ∧ Lexer.Offers l lx (t :: ts) ending

theorem Lexer.Offers.broken_of_nil (h : Lexer.Offers l lx [] ending) :
    ∃ e lx', ending = .error e ∧ Lexer.next l lx = .error e lx' := by
  cases h with
  | broken hnext => exact ⟨_, _, rfl, hnext⟩

theorem Lexer.Offers.took (h : Lexer.Offers l lx (t :: ts) ending) :
    ∃ lx', Lexer.next l lx = .ok t lx' ∧ Lexer.Took l t ts ending lx' := by
  cases h with
  | last hnext hends hheld => exact ⟨_, hnext, lx, hnext, .last hnext hends hheld⟩
  | more hnext hgoes h => exact ⟨_, hnext, lx, hnext, .more hnext hgoes h⟩

namespace Lexer.Took

/-- **A token that was put back is offered again.** -/
theorem push (h : Lexer.Took l t ts ending lx') :
    Lexer.Offers l (lx'.push t) (t :: ts) ending := by
  obtain ⟨lx, htook, hoffers⟩ := h
  cases hoffers with
  | last hnext hends hheld =>
    obtain ⟨-, rfl⟩ := EStateM.Result.ok.inj (htook.symm.trans hnext)
    exact .last (next_push hnext) hends hheld
  | more hnext hgoes h =>
    obtain ⟨-, rfl⟩ := EStateM.Result.ok.inj (htook.symm.trans hnext)
    exact .more (next_push hnext) hgoes h

/-- Within a sentence the others are on offer. -/
theorem rest (h : Lexer.Took l t ts ending lx') (hgoes : t.endsSentence = false) :
    Lexer.Offers l lx' ts ending := by
  obtain ⟨lx, htook, hoffers⟩ := h
  cases hoffers with
  | last hnext hends =>
    rw [hgoes] at hends
    cases hends
  | more hnext _ h =>
    obtain ⟨-, rfl⟩ := EStateM.Result.ok.inj (htook.symm.trans hnext)
    exact h

/-- The last token of a sentence. -/
theorem ended (h : Lexer.Took l t ts ending lx') (hends : t.endsSentence = true) :
    ts = [] ∧ lx'.replay.held = [] ∧ ending = .ok (decide (t.kind = .finish), lx'.source) := by
  obtain ⟨lx, htook, hoffers⟩ := h
  cases hoffers with
  | last hnext _ hheld =>
    obtain ⟨-, rfl⟩ := EStateM.Result.ok.inj (htook.symm.trans hnext)
    exact ⟨rfl, hheld, rfl⟩
  | more _ hgoes =>
    rw [hgoes] at hends
    cases hends

end Lexer.Took

theorem Lexer.next_of_scan {t : Scanner} {token : Token} (hheld : lx.replay.held = [])
    (h : lx.source.scan l = .ok token t) :
    Lexer.next l lx = .ok token ⟨t, ⟨[], some token⟩⟩ := by
  obtain ⟨source, held, last⟩ := lx
  obtain rfl : held = [] := hheld
  simp only [Lexer.next, Feed.next, Replay.pop?, h]
  rfl

theorem Lexer.next_of_scan_error {t : Scanner} {e : Error} (hheld : lx.replay.held = [])
    (h : lx.source.scan l = .error e t) : ∃ lx', Lexer.next l lx = .error e lx' := by
  obtain ⟨source, held, last⟩ := lx
  obtain rfl : held = [] := hheld
  simp only [Lexer.next, Feed.next, Replay.pop?, h]
  exact ⟨_, rfl⟩

/-- **A lexer offers the sentence that its scanner comes to.** -/
theorem Lexer.offers_sentence (l : Lexicon) (hheld : lx.replay.held = []) :
    Lexer.Offers l lx (lx.source.sentence l).tokens (lx.source.sentence l).ending := by
  generalize hs : lx.source = s
  fun_induction Scanner.sentence l s generalizing lx with
  | case1 s e t hscan =>
    obtain ⟨lx', hnext⟩ := next_of_scan_error hheld (hs ▸ hscan)
    exact .broken hnext
  | case2 s token t hscan hfinish =>
    have hoffers := Offers.last (next_of_scan hheld (hs ▸ hscan))
      (by simp [Token.endsSentence, hfinish]) rfl
    rwa [decide_eq_true hfinish] at hoffers
  | case3 s token t hscan hfinish hstop =>
    have hoffers := Offers.last (next_of_scan hheld (hs ▸ hscan))
      (by simp [Token.endsSentence, hstop]) rfl
    rwa [decide_eq_false hfinish] at hoffers
  | case4 s token t hscan hfinish hstop ih =>
    rw [Sentence.tokens_cons, Sentence.ending_cons]
    exact .more (next_of_scan hheld (hs ▸ hscan)) (by simp [Token.endsSentence, hfinish, hstop])
      (ih rfl rfl)

end Adventure.Prose
