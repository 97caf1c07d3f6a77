/-
Looking ahead for terms.

A scanner reads ahead for the longest term and goes back to where that term ends.  What it
has seen beyond is read again, as if it had never been looked at: between the words of a
sentence there is only white space, and nothing that the scanner does for a word depends on
the words before it.  So a scanner that takes one word at a time passes the same places, and
all that the lexicon and the bound on terms decide is which words stand together.

What carries the induction is the scanner that reads a word at a time, kept at the same
place.  A term costs it as many steps as the term has words; anything else is the same step
for both.
-/
import Adventure.Proofs.Prose.Casing
import Adventure.Proofs.Prose.Tokens

namespace Adventure

namespace Text

/-! ### Words that are joined -/

/-- A text that is a word: not empty, and without white space. -/
def IsWord (s : String) : Prop :=
  s.toList ≠ [] ∧ ∀ c ∈ s.toList, isBlank c = false

theorem wordChars_of_word {cs rest : List Char} (hne : cs ≠ [])
    (h : ∀ c ∈ cs, isBlank c = false) (hrest : rest.head?.all isBlank = true) :
    wordChars (cs ++ rest) = cs :: wordChars rest := by
  obtain ⟨c, cs, rfl⟩ := List.exists_cons_of_ne_nil hne
  obtain ⟨hc, hcs⟩ := List.forall_mem_cons.mp h
  have hsolid : ∀ d ∈ cs, (! isBlank d) = true := by simpa using hcs
  have hend : rest.takeWhile (! isBlank ·) = [] ∧ rest.dropWhile (! isBlank ·) = rest := by
    cases rest with
    | nil => simp
    | cons d ds =>
      have hd : isBlank d = true := by simpa using hrest
      simp [hd]
  rw [List.cons_append, wordChars, if_neg (by simp [hc]), List.takeWhile_append_of_pos hsolid,
    List.dropWhile_append_of_pos hsolid, hend.1, hend.2, List.append_nil]

/-- Words with one space between them are those words. -/
theorem words_joined {ws : List String} (h : ∀ w ∈ ws, IsWord w) :
    words (" ".intercalate ws) = ws := by
  have hchars : wordChars ([' '].intercalate (ws.map String.toList)) = ws.map String.toList := by
    induction ws with
    | nil => simp [wordChars]
    | cons w rest ih =>
      obtain ⟨⟨hne, hsolid⟩, hrest⟩ := List.forall_mem_cons.mp h
      cases rest with
      | nil =>
        have hlast : wordChars (w.toList ++ []) = [w.toList] := by
          rw [wordChars_of_word hne hsolid rfl, wordChars]
        simpa using hlast
      | cons next rest =>
        have hblank : isBlank ' ' = true := by decide
        have hspace : ∀ ds, wordChars (' ' :: ds) = wordChars ds := by
          intro ds
          rw [wordChars, if_pos hblank]
        rw [List.map_cons, List.map_cons, List.intercalate_cons_cons, List.append_assoc,
          List.singleton_append, wordChars_of_word hne hsolid (by simpa using hblank), hspace,
          ← List.map_cons, ih hrest]
  rw [words, String.toList_intercalate, show " ".toList = [' '] from rfl, hchars, List.map_map]
  simp [Function.comp_def, String.ofList_toList]

end Text

namespace Text.Cursor

theorem skip_skip (c : Cursor) (m n : Nat) : (c.skip m).skip n = c.skip (m + n) := by
  simp only [skip, List.drop_drop, List.take_add, List.count_append, Nat.add_assoc]

end Text.Cursor

namespace Prose

open Text (Cursor)

/-! ### Tokens in words -/

theorem TokenKind.ofWord_ne_finish (word : String) : ofWord word ≠ .finish := by
  unfold ofWord
  split <;> nofun

namespace Token

/-- Whether the token is a word or a term. -/
def isVerbal (t : Token) : Bool :=
  t.kind = .word || t.kind = .article || t.kind = .equality || t.kind = .conjunction

/-- What a token says, word by word: a word or a term is its words, each of which is what it
is on its own; any other token is itself. -/
def spelled (t : Token) : List (TokenKind × String) :=
  if t.isVerbal then (Text.words t.text).map fun w => (.ofWord w, w) else [(t.kind, t.text)]

/-- Words as one token, on the line of the first. -/
def joined (first : Token) (more : List Token) : Token :=
  let text := " ".intercalate ((first :: more).map (·.text))
  ⟨.ofWord text, text, first.line⟩

/-- A token that is one word, and no term. -/
def IsWord (t : Token) : Prop :=
  t.kind = .ofWord t.text ∧ Text.IsWord t.text

theorem isVerbal_ofWord {t : Token} (h : t.kind = .ofWord t.text) : t.isVerbal = true := by
  rw [isVerbal, h]
  unfold TokenKind.ofWord
  split <;> rfl

theorem kind_joined (first : Token) (more : List Token) :
    (first.joined more).kind = .ofWord (first.joined more).text := by
  simp only [joined]

theorem IsWord.kind_ne_finish {t : Token} (h : t.IsWord) : t.kind ≠ .finish := by
  rw [h.1]
  exact TokenKind.ofWord_ne_finish _

theorem spelled_joined {first : Token} {more : List Token} (h : ∀ t ∈ first :: more, t.IsWord) :
    (joined first more).spelled = (first :: more).map fun t => (t.kind, t.text) := by
  have hwords : Text.words (joined first more).text = (first :: more).map (·.text) := by
    refine Text.words_joined ?_
    intro w hw
    obtain ⟨t, ht, rfl⟩ := List.mem_map.mp hw
    exact (h t ht).2
  rw [spelled, if_pos (isVerbal_ofWord (kind_joined first more)), hwords, List.map_map]
  refine List.map_congr_left ?_
  intro t ht
  rw [(h t ht).1]
  rfl

end Token

/-- Tokens of which each stands for one word at most, and the same tokens with some of the
words joined to terms. -/
inductive Joins : List Token → List Token → Prop
  | nil : Joins [] []
  | keep {ws ts : List Token} (t : Token) (ht : t.isVerbal = false) (h : Joins ws ts) :
    Joins (t :: ws) (t :: ts)
  | join {ws ts : List Token} (first : Token) (more : List Token)
    (hwords : ∀ t ∈ first :: more, t.IsWord) (h : Joins ws ts) :
    Joins (first :: more ++ ws) (first.joined more :: ts)

/-- **Joining words changes nothing of what is said.** -/
theorem Joins.spelled {ws ts : List Token} (h : Joins ws ts) :
    ts.flatMap Token.spelled = ws.map fun t => (t.kind, t.text) := by
  induction h with
  | nil => rfl
  | keep t ht h ih =>
    rw [List.flatMap_cons, ih, Token.spelled, if_neg (by simp [ht])]
    rfl
  | join first more hwords h ih =>
    rw [List.flatMap_cons, ih, Token.spelled_joined hwords, List.map_append]

/-! ### A word at a time -/

variable {l l' : Lexicon} {c : Cursor}

/-- What stands before the next word of a sentence is passed over. -/
theorem skipIdle_of_gap? {gap : Nat} (h : gap? c.rest = some gap) :
    skipIdle c = .ok () (c.skip gap) := by
  generalize hrest : c.rest = cs at h
  induction cs generalizing c gap with
  | nil => simp [gap?] at h
  | cons d ds ih =>
    rw [gap?] at h
    rw [skipIdle_cons hrest]
    split at h
    · next hgap =>
      obtain ⟨n, hn, rfl⟩ := Option.map_eq_some_iff.mp h
      rw [if_pos hgap, ih (by simp [Cursor.skip, hrest]) hn, Cursor.skip_skip, Nat.add_comm]
    · next hgap =>
      obtain ⟨hword, hzero⟩ := Option.ite_none_right_eq_some.mp h
      have hbracket : d ≠ '[' := by
        rintro rfl
        exact absurd hword (by decide)
      obtain rfl := Option.some.inj hzero
      rw [if_neg hgap, if_neg hbracket]
      simp [Cursor.skip]

theorem isWord_takeWhile {d : Char} {ds : List Char} (hd : isWordChar d = true) :
    Text.IsWord (String.ofList ((d :: ds).takeWhile isWordChar)) := by
  rw [Text.IsWord, String.toList_ofList]
  refine ⟨by simp [hd], ?_⟩
  intro e he
  exact not_isBlank_of_isWordChar (List.all_eq_true.mp List.all_takeWhile e he)

namespace Scanner

variable {s t : Scanner}

/-- The same place for a scanner that takes one word at a time. -/
def wordwise (s : Scanner) : Scanner :=
  { s with moreWords := 0 }

/-- The first word from a place on. -/
def firstWord (c : Cursor) : Token :=
  let word := String.ofList (c.run isWordChar)
  ⟨.ofWord word, word, c.line⟩

theorem readTerm_wordwise (s : Scanner) (l : Lexicon) :
    s.wordwise.readTerm l = (firstWord s.cursor,
      { s.wordwise with cursor := s.cursor.skip (s.cursor.run isWordChar).length }) := by
  simp [readTerm, wordwise, followers, termLength, phrase, firstWord]

theorem kind_firstWord (c : Cursor) : (firstWord c).kind = .ofWord (firstWord c).text := by
  simp only [firstWord]

theorem isWord_firstWord {d : Char} {ds : List Char} (hrest : c.rest = d :: ds)
    (hd : isWordChar d = true) : (firstWord c).IsWord := by
  refine ⟨kind_firstWord c, ?_⟩
  rw [firstWord, Cursor.run, hrest]
  exact isWord_takeWhile hd

theorem tokens_of_scan {token : Token} (hscan : s.scan l = .ok token t)
    (hkind : token.kind ≠ .finish) : s.tokens l = (t.tokens l).map (token :: ·) := by
  rw [tokens]
  split
  · next hfail =>
    rw [hscan] at hfail
    cases hfail
  · next hother =>
    rw [hscan] at hother
    cases hother
    rw [dif_neg hkind]

theorem tokens_of_finish {token : Token} (hscan : s.scan l = .ok token t)
    (hkind : token.kind = .finish) : s.tokens l = .ok [token] := by
  rw [tokens]
  split
  · next hfail =>
    rw [hscan] at hfail
    cases hfail
  · next hother =>
    rw [hscan] at hother
    cases hother
    rw [dif_pos hkind]

/-- Single words lead a scanner that takes one at a time from one place to another. -/
structure Passes (l : Lexicon) (c : Cursor) (ws : List Token) (d : Cursor) : Prop where
  words : ∀ w ∈ ws, w.IsWord
  tokens : tokens l ⟨c, 0, none⟩ = (Scanner.tokens l ⟨d, 0, none⟩).map (ws ++ ·)

theorem scan_of_idle (howed : s.owed = none) (h : skipIdle s.cursor = .ok () c) :
    s.scan l = Scanner.readToken { s with cursor := c } l := by
  rw [scan, howed]
  simp only [h]

/-- The word that follows the end of another is the next token. -/
theorem scan_word {gap : Nat} (h : gap? c.rest = some gap) :
    scan l ⟨c, 0, none⟩ = .ok (firstWord (c.skip gap))
      ⟨c.skip (gap + ((c.rest.drop gap).takeWhile isWordChar).length), 0, none⟩ := by
  obtain ⟨d, ds, hrest, hword⟩ := drop_of_gap? h
  have hterm := readTerm_wordwise ⟨c.skip gap, 0, none⟩ l
  rw [scan_of_idle rfl (skipIdle_of_gap? h), ← Cursor.skip_skip]
  refine (readToken_of_word l hrest hword).trans ?_
  exact congrArg (fun r : Token × Scanner => EStateM.Result.ok r.1 r.2) hterm

theorem Passes.cons {gap : Nat} {ws : List Token} {d : Cursor} (hgap : gap? c.rest = some gap)
    (h : Passes l (c.skip (gap + ((c.rest.drop gap).takeWhile isWordChar).length)) ws d) :
    Passes l c (firstWord (c.skip gap) :: ws) d := by
  obtain ⟨e, es, hrest, hword⟩ := drop_of_gap? hgap
  have hfirst : (firstWord (c.skip gap)).IsWord := isWord_firstWord hrest hword
  refine ⟨List.forall_mem_cons.mpr ⟨hfirst, h.words⟩, ?_⟩
  rw [tokens_of_scan (scan_word hgap) hfirst.kind_ne_finish, h.tokens]
  cases Scanner.tokens l ⟨d, 0, none⟩ <;> rfl

theorem foldl_reach_cons (f : Follower) (more : List Follower) :
    (f :: more).foldl (· + ·.reach) 0 = f.reach + more.foldl (· + ·.reach) 0 := by
  have hsum : ∀ (fs : List Follower) (n : Nat),
      fs.foldl (· + ·.reach) n = n + fs.foldl (· + ·.reach) 0 := by
    intro fs
    induction fs with
    | nil => exact fun n => rfl
    | cons g fs ih =>
      intro n
      rw [List.foldl_cons, List.foldl_cons, ih, ih (0 + g.reach)]
      omega
  rw [List.foldl_cons, hsum, Nat.zero_add]

/-- Whether a step is the same for a scanner that takes one word at a time, and gives no word. -/
def Shared (r : EStateM.Result Error Scanner Token) : EStateM.Result Error Scanner Token → Prop
  | .error e t => r = .error e t.wordwise
  | .ok token t => token.isVerbal = false ∧ r = .ok token t.wordwise

theorem shared_readQuoted (s : Scanner) : Shared s.wordwise.readQuoted s.readQuoted := by
  unfold readQuoted
  dsimp only [wordwise]
  by_cases hopen : ((s.cursor.skip 1).run (· ≠ '"')).length = (s.cursor.skip 1).rest.length
  · rw [if_pos hopen, if_pos hopen]
    rfl
  · rw [if_neg hopen, if_neg hopen]
    refine ⟨rfl, ?_⟩
    split <;> rfl

/-- What does not begin with a word is the same for every scanner. -/
theorem shared_readToken (l l' : Lexicon) (h : s.cursor.rest.head?.all isWordChar = false ∨
    s.cursor.rest = []) : Shared (s.wordwise.readToken l') (s.readToken l) := by
  have hcursor : s.wordwise.cursor = s.cursor := rfl
  unfold readToken
  rw [hcursor]
  cases hrest : s.cursor.rest with
  | nil => exact ⟨rfl, rfl⟩
  | cons d ds =>
    have hword : isWordChar d = false := by simpa [hrest] using h
    dsimp only
    cases hmark : TokenKind.ofMark? d with
    | some kind =>
      refine ⟨?_, rfl⟩
      unfold TokenKind.ofMark? at hmark
      split at hmark
      case h_4 => cases hmark
      all_goals exact Option.some.inj hmark ▸ rfl
    | none =>
      dsimp only
      by_cases hdot : d = '.'
      · rw [if_pos hdot, if_pos hdot]
        exact ⟨rfl, rfl⟩
      rw [if_neg hdot, if_neg hdot]
      by_cases hbreak : d = '\n'
      · rw [if_pos hbreak, if_pos hbreak]
        exact ⟨rfl, rfl⟩
      rw [if_neg hbreak, if_neg hbreak]
      by_cases hquote : d = '"'
      · rw [if_pos hquote, if_pos hquote]
        exact shared_readQuoted s
      rw [if_neg hquote, if_neg hquote, if_neg (by simp [hword]), if_neg (by simp [hword])]
      rfl

/-- Whether a scanner that takes one word at a time takes the words of a term, one after the
other, and goes on at the same place. -/
def TakesTerm (l : Lexicon) (s : Scanner) (token : Token) (t : Scanner) : Prop :=
  ∃ first more c, token = first.joined more ∧ first.IsWord ∧ t.owed = none ∧
    s.wordwise.scan l = .ok first ⟨c, 0, none⟩ ∧ Passes l c more t.cursor

theorem scan_of_owed {token : Token} (h : s.owed = some token) :
    s.scan l = .ok token { s with owed := none } := by
  rw [scan, h]

end Scanner

/-! ### Whole sources -/

/-- What a scanner makes of a source that one which takes a word at a time makes something of:
the same words, some of which are joined, or the same failure. -/
def Rejoins : Except Error (List Token) → Except Error (List Token) → Prop
  | .ok ws, .ok ts => Joins ws ts
  | .error e, .error e' => e = e'
  | _, _ => False

theorem rejoins_error {e : Error} {r : Except Error (List Token)} :
    Rejoins (.error e) r ↔ r = .error e := by
  cases r with
  | error e' => simp [Rejoins, eq_comm]
  | ok ts => simp [Rejoins]

theorem rejoins_ok {ws : List Token} {r : Except Error (List Token)} :
    Rejoins (.ok ws) r ↔ ∃ ts, r = .ok ts ∧ Joins ws ts := by
  cases r with
  | error e => simp [Rejoins]
  | ok ts => simp [Rejoins]

theorem Rejoins.map {r r' : Except Error (List Token)} {f g : List Token → List Token}
    (h : Rejoins r r') (hfg : ∀ {ws ts}, Joins ws ts → Joins (f ws) (g ts)) :
    Rejoins (r.map f) (r'.map g) := by
  cases r with
  | error e =>
    rw [rejoins_error.mp h]
    rfl
  | ok ws =>
    obtain ⟨ts, rfl, hjoins⟩ := rejoins_ok.mp h
    exact hfg hjoins

namespace Scanner

variable {s : Scanner}

theorem sound_of_scan {token : Token} {t : Scanner} (hs : s.Sound)
    (h : s.scan l = .ok token t) : t.Sound := by
  have hdelivers := delivers_scan (l := l) hs
  rw [h] at hdelivers
  exact hdelivers.2

theorem TakesTerm.kind_ne_finish {token : Token} {t : Scanner} (h : s.TakesTerm l token t) :
    token.kind ≠ .finish := by
  obtain ⟨first, more, c, rfl, -⟩ := h
  rw [Token.kind_joined]
  exact TokenKind.ofWord_ne_finish _

end Scanner

end Prose

end Adventure
