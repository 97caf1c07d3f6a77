/-
What the scanner hands out.

Every word ends in a character that words are made of, so none is empty and none ends
in white space, however many words a term joins.  The tokens of a whole sentence hold
one that ends it.  And where the scanner gives up, the fault lies in the text.
-/
import Adventure.Proofs.Text
import Adventure.Prose.Sentence

namespace Adventure

/-- Whether the text itself is to blame: it cannot be cut into tokens, or the tokens say
nothing that could be meant. -/
def Error.isTextual (e : Error) : Bool :=
  match e.cause with
  | .lex .. | .parse .. => true
  | _ => false

namespace Prose

open Text (Cursor EndsSolid)

/-! ### Words -/

theorem not_isBlank_of_isWordChar {c : Char} (h : isWordChar c = true) :
    Text.isBlank c = false := by
  simp only [isWordChar, Bool.or_eq_true, decide_eq_true_eq] at h
  rcases h with ((h | rfl) | rfl) | rfl
  · exact Text.not_isBlank_of_isAlphanumeric h
  · decide
  · decide
  · decide

/-- The characters of a word up to its end. -/
theorem endsSolid_takeWhile {cs rest : List Char} {c : Char} (h : cs = c :: rest)
    (hc : isWordChar c = true) : EndsSolid (cs.takeWhile isWordChar) := by
  refine Text.endsSolid_of_forall ?_ fun d hd => ?_
  · rw [h, List.takeWhile_cons_of_pos hc]
    exact List.cons_ne_nil _ _
  · exact not_isBlank_of_isWordChar (List.all_eq_true.mp List.all_takeWhile d hd)

/-- Behind the gap before a word stands the word. -/
theorem drop_of_gap? {cs : List Char} {n : Nat} (h : gap? cs = some n) :
    ∃ c rest, cs.drop n = c :: rest ∧ isWordChar c = true := by
  induction cs generalizing n with
  | nil => simp [gap?] at h
  | cons c cs ih =>
    rw [gap?] at h
    split at h
    · obtain ⟨m, hm, rfl⟩ := Option.map_eq_some_iff.mp h
      exact ih hm
    · split at h
      · next hword =>
        obtain rfl := Option.some.inj h
        exact ⟨c, cs, rfl, hword⟩
      · cases h

theorem endsSolid_of_mem_followers {n : Nat} {cs : List Char} {f : Follower}
    (h : f ∈ followers n cs) : EndsSolid f.word.toList := by
  induction n generalizing cs with
  | zero => simp [followers] at h
  | succ n ih =>
    rw [followers] at h
    split at h
    · simp at h
    · next gap hgap =>
      obtain ⟨c, rest, hdrop, hc⟩ := drop_of_gap? hgap
      rcases List.mem_cons.mp h with rfl | h
      · rw [String.toList_ofList]
        exact endsSolid_takeWhile hdrop hc
      · exact ih h

/-- Words that are joined by single spaces end as the last of them does. -/
theorem endsSolid_joined {first : String} {more : List String}
    (h : ∀ w ∈ first :: more, EndsSolid w.toList) :
    EndsSolid (" ".intercalate (first :: more)).toList := by
  rw [String.toList_intercalate, List.map_cons]
  refine Text.endsSolid_intercalate _ ?_
  intro cs hcs
  rw [← List.map_cons] at hcs
  obtain ⟨w, hw, rfl⟩ := List.mem_map.mp hcs
  exact h w hw

theorem endsSolid_phrase {first : String} {more : List Follower} (hfirst : EndsSolid first.toList)
    (hmore : ∀ f ∈ more, EndsSolid f.word.toList) : EndsSolid (phrase first more).toList := by
  refine endsSolid_joined ?_
  intro w hw
  rcases List.mem_cons.mp hw with rfl | hw
  · exact hfirst
  · obtain ⟨f, hf, rfl⟩ := List.mem_map.mp hw
    exact hmore f hf

/-! ### Single tokens -/

/-- A word ends in a character of a word. -/
def Token.Sound (t : Token) : Prop :=
  t.kind = .word → EndsSolid t.text.toList

/-- A scanner owes nothing but the end of a sentence. -/
def Scanner.Sound (s : Scanner) : Prop :=
  ∀ t, s.owed = some t → t.kind = .stop

theorem Token.sound_of_kind {t : Token} (h : t.kind ≠ .word) : t.Sound :=
  fun hword => absurd hword h

theorem isTextual_of_skipIdle {c d : Cursor} {e : Error} (h : skipIdle c = .error e d) :
    e.isTextual = true := by
  fun_induction skipIdle c with
  | case1 => cases h
  | case2 c first cs hrest hgap ih => exact ih h
  | case3 c cs hpast hrest hgap =>
    cases h
    rfl
  | case4 c cs e hpast hrest hgap ih => exact ih h
  | case5 => cases h

namespace Scanner

variable {s t : Scanner} {l : Lexicon}

/-- What comes of asking for a token: a sound one, or a fault of the text. -/
def Delivers (r : EStateM.Result Error Scanner Token) : Prop :=
  match r with
  | .ok token t => token.Sound ∧ t.Sound
  | .error e _ => e.isTextual = true

theorem sound_readTerm {c : Char} {cs : List Char} (hrest : s.cursor.rest = c :: cs)
    (hc : isWordChar c = true) : (s.readTerm l).1.Sound := by
  intro _
  refine endsSolid_phrase ?_ fun f hf => ?_
  · rw [String.toList_ofList]
    exact endsSolid_takeWhile hrest hc
  · exact endsSolid_of_mem_followers (List.mem_of_mem_take hf)

theorem delivers_readQuoted (howed : s.owed = none) : Delivers s.readQuoted := by
  simp only [readQuoted]
  split
  · rfl
  · refine ⟨Token.sound_of_kind (by simp), ?_⟩
    split
    · intro token htoken
      cases htoken
      rfl
    · intro token htoken
      simp [howed] at htoken

theorem delivers_readToken (howed : s.owed = none) : Delivers (s.readToken l) := by
  have hsound : ∀ cursor, ({ s with cursor } : Scanner).Sound := by
    intro cursor token htoken
    simp [howed] at htoken
  simp only [readToken]
  split
  · exact ⟨Token.sound_of_kind nofun, hsound _⟩
  · next c cs hrest =>
    split
    · next kind hkind =>
      refine ⟨Token.sound_of_kind ?_, hsound _⟩
      rintro rfl
      simp only [TokenKind.ofMark?] at hkind
      split at hkind <;> cases hkind
    · split
      · exact ⟨Token.sound_of_kind nofun, hsound _⟩
      · split
        · exact ⟨Token.sound_of_kind nofun, hsound _⟩
        · split
          · exact delivers_readQuoted howed
          · split
            · next hc => exact ⟨sound_readTerm hrest hc, hsound _⟩
            · rfl

/-- **Every token is sound**, and a failure is a fault of the text. -/
theorem delivers_scan (hs : s.Sound) : Delivers (s.scan l) := by
  simp only [scan]
  split
  · next token howed =>
    refine ⟨Token.sound_of_kind ?_, by rintro _ ⟨⟩⟩
    rw [hs token howed]
    decide
  · next howed =>
    split
    · next e cursor hidle => exact isTextual_of_skipIdle hidle
    · exact delivers_readToken howed

end Scanner

/-! ### Sentences -/

/-- One of the tokens ends a sentence. -/
def Ended (ts : List Token) : Prop :=
  ∃ t ∈ ts, t.endsSentence = true

namespace Sentence

/-- A sentence of sound tokens: whole, or broken off by a fault of the text. -/
def Sound : Sentence → Prop
  | whole tokens _ rest => (∀ t ∈ tokens, t.Sound) ∧ Ended tokens ∧ rest.Sound
  | broken tokens e => (∀ t ∈ tokens, t.Sound) ∧ e.isTextual = true

theorem Sound.cons {t : Token} {s : Sentence} (hs : s.Sound) (ht : t.Sound) : (s.cons t).Sound := by
  cases s with
  | whole tokens atEnd rest =>
    obtain ⟨htokens, ⟨last, hlast, hends⟩, hrest⟩ := hs
    exact ⟨List.forall_mem_cons.mpr ⟨ht, htokens⟩, ⟨last, List.mem_cons_of_mem _ hlast, hends⟩,
      hrest⟩
  | broken tokens e => exact ⟨List.forall_mem_cons.mpr ⟨ht, hs.1⟩, hs.2⟩

end Sentence

/-- **The next sentence is sound**: it has an end, or the text is at fault. -/
theorem Scanner.sound_sentence {s : Scanner} {l : Lexicon} (hs : s.Sound) :
    (s.sentence l).Sound := by
  fun_induction Scanner.sentence l s with
  | case1 s e t hscan =>
    have hdelivers := delivers_scan (l := l) hs
    rw [hscan] at hdelivers
    exact ⟨List.forall_mem_nil _, hdelivers⟩
  | case2 s token t hscan hfinish =>
    have hdelivers := delivers_scan (l := l) hs
    rw [hscan] at hdelivers
    have hends : token.endsSentence = true := by simp [Token.endsSentence, hfinish]
    exact ⟨by simpa using hdelivers.1, ⟨token, List.mem_singleton_self _, hends⟩, hdelivers.2⟩
  | case3 s token t hscan hfinish hstop =>
    have hdelivers := delivers_scan (l := l) hs
    rw [hscan] at hdelivers
    have hends : token.endsSentence = true := by simp [Token.endsSentence, hstop]
    exact ⟨by simpa using hdelivers.1, ⟨token, List.mem_singleton_self _, hends⟩, hdelivers.2⟩
  | case4 s token t hscan hfinish hstop ih =>
    have hdelivers := delivers_scan (l := l) hs
    rw [hscan] at hdelivers
    exact (ih hdelivers.2).cons hdelivers.1

end Prose

end Adventure
