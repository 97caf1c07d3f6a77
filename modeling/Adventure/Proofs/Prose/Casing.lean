/-
The case of letters in prose, up to the sentences.

Outside of quotes the case of an ASCII letter is never looked at.  Lowering these letters
first and then cutting the source into sentences gives the same sentences, their words
lowered: the same tokens on the same lines.  Which letters these are depends on where the
quotes and the comments of the source are, and the scanner finds them where `lowerProse`
does: between two tokens it always stands in prose, since the words, the marks and the white
space that it passes over hold neither quotes nor brackets.
-/
import Adventure.Proofs.Letters
import Adventure.Prose.Sentence

namespace Adventure.Prose

open Text (Cursor)

/-! ### Sources with their letters lowered -/

/-- Where a character of a source stands.  In a comment quotes mean nothing, and between quotes
brackets mean nothing. -/
inductive Place where
  | prose
  | comment
  | quote
  deriving DecidableEq, Repr

/-- Where the next character stands. -/
def Place.after (place : Place) (c : Char) : Place :=
  match place with
  | prose => if c = '"' then quote else if c = '[' then comment else prose
  | comment => if c = ']' then prose else comment
  | quote => if c = '"' then prose else quote

/-- Where one stands behind these characters. -/
def Place.behind (place : Place) (cs : List Char) : Place :=
  cs.foldl after place

/-- A character with what follows it, lowered unless it is text between quotes.  A quote that
nothing closes does not quote what follows it. -/
def lowerLetter (place : Place) (c : Char) (cs : List Char) : Char :=
  if place = .quote ∧ '"' ∈ cs then c else c.toLower

/-- A source from a place on, with its ASCII letters lowered except between quotes. -/
def lowerProse (place : Place) : List Char → List Char
  | [] => []
  | c :: cs => lowerLetter place c cs :: lowerProse (place.after c) cs

example : lowerProse .prose "The Lamp. \"Dark.\" [\"A\"] \"B".toList =
    "the lamp. \"Dark.\" [\"a\"] \"b".toList := by
  decide

variable {place : Place} {c : Char} {cs ds : List Char}

/-- What is no letter stays where it is. -/
theorem lowerLetter_eq_iff {d : Char}
    (hd : Text.capitals.all (fun c => decide (c.toLower = d) = decide (c = d)) = true) :
    lowerLetter place c cs = d ↔ c = d := by
  unfold lowerLetter
  split
  · rfl
  · exact Text.toLower_eq_iff hd

theorem lowerLetter_prose (c : Char) (cs : List Char) : lowerLetter .prose c cs = c.toLower :=
  if_neg fun h => nomatch h.1

theorem length_lowerProse (place : Place) (cs : List Char) :
    (lowerProse place cs).length = cs.length := by
  induction cs generalizing place with
  | nil => rfl
  | cons c cs ih => rw [lowerProse, List.length_cons, List.length_cons, ih]

theorem drop_lowerProse (place : Place) (cs : List Char) (n : Nat) :
    (lowerProse place cs).drop n = lowerProse (place.behind (cs.take n)) (cs.drop n) := by
  induction cs generalizing place n with
  | nil => simp [lowerProse]
  | cons c cs ih =>
    cases n with
    | zero => simp [Place.behind]
    | succ n =>
      rw [lowerProse, List.drop_succ_cons, List.drop_succ_cons, List.take_succ_cons, ih]
      rfl

theorem behind_append (place : Place) (cs ds : List Char) :
    place.behind (cs ++ ds) = (place.behind cs).behind ds :=
  List.foldl_append ..

/-- Line breaks stay where they are. -/
theorem count_take_lowerProse (place : Place) (cs : List Char) (n : Nat) :
    ((lowerProse place cs).take n).count '\n' = (cs.take n).count '\n' := by
  induction cs generalizing place n with
  | nil => rfl
  | cons c cs ih =>
    cases n with
    | zero => rfl
    | succ n =>
      have hbreak : lowerLetter place c cs = '\n' ↔ c = '\n' := lowerLetter_eq_iff (by decide)
      rw [lowerProse, List.take_succ_cons, List.take_succ_cons, List.count_cons, List.count_cons,
        ih]
      simp only [beq_iff_eq, hbreak]

/-! ### Tests that only prose passes -/

/-- A test of characters that case does not matter to, and that neither quotes nor
brackets pass. -/
structure Plain (p : Char → Bool) : Prop where
  toLower : ∀ c, p c.toLower = p c
  quote : p '"' = false
  bracket : p '[' = false

theorem plain_isSpace : Plain isSpace :=
  ⟨Text.apply_toLower (by decide), by decide, by decide⟩

theorem plain_isWordChar : Plain isWordChar :=
  ⟨Text.apply_toLower (by decide), by decide, by decide⟩

theorem plain_isBlank : Plain Text.isBlank :=
  ⟨Text.isBlank_toLower, by decide, by decide⟩

namespace Plain

variable {p : Char → Bool}

theorem after_prose (hp : Plain p) (hc : p c = true) : Place.prose.after c = .prose := by
  have hquote : c ≠ '"' := by
    rintro rfl
    rw [hp.quote] at hc
    cases hc
  have hbracket : c ≠ '[' := by
    rintro rfl
    rw [hp.bracket] at hc
    cases hc
  rw [Place.after, if_neg hquote, if_neg hbracket]

theorem behind_prose (hp : Plain p) (h : ∀ c ∈ cs, p c = true) :
    Place.prose.behind cs = .prose := by
  induction cs with
  | nil => rfl
  | cons c cs ih =>
    obtain ⟨hc, hcs⟩ := List.forall_mem_cons.mp h
    rw [Place.behind, List.foldl_cons, hp.after_prose hc]
    exact ih hcs

theorem behind_takeWhile (hp : Plain p) (cs : List Char) :
    Place.prose.behind (cs.takeWhile p) = .prose :=
  hp.behind_prose fun _ hc => List.all_eq_true.mp List.all_takeWhile _ hc

theorem takeWhile_lowerProse (hp : Plain p) (cs : List Char) :
    (lowerProse .prose cs).takeWhile p = (cs.takeWhile p).map Char.toLower := by
  induction cs with
  | nil => rfl
  | cons c cs ih =>
    rw [lowerProse, lowerLetter_prose, List.takeWhile_cons, List.takeWhile_cons, hp.toLower]
    cases hc : p c with
    | true =>
      rw [if_pos rfl, if_pos rfl, hp.after_prose hc, ih]
      rfl
    | false => rfl

theorem dropWhile_lowerProse (hp : Plain p) (cs : List Char) :
    (lowerProse .prose cs).dropWhile p = lowerProse .prose (cs.dropWhile p) := by
  induction cs with
  | nil => rfl
  | cons c cs ih =>
    rw [lowerProse, lowerLetter_prose, List.dropWhile_cons, List.dropWhile_cons, hp.toLower]
    cases hc : p c with
    | true => rw [if_pos rfl, if_pos rfl, hp.after_prose hc, ih]
    | false =>
      rw [if_neg Bool.false_ne_true, if_neg Bool.false_ne_true, lowerProse, lowerLetter_prose]

end Plain

/-! ### Cursors -/

/-- The cursor in the lowered source. -/
def lowerCursor (c : Cursor) : Cursor :=
  ⟨lowerProse .prose c.rest, c.line⟩

/-- The outcome and the state of a step, with their letters lowered. -/
def lowerResult {σ α : Type} (f : α → α) (g : σ → σ) :
    EStateM.Result Error σ α → EStateM.Result Error σ α
  | .ok a s => .ok (f a) (g s)
  | .error e s => .error e (g s)

theorem rest_lowerCursor_nil {c : Cursor} (h : c.rest = []) : (lowerCursor c).rest = [] := by
  rw [lowerCursor, h]
  rfl

theorem rest_lowerCursor_cons {c : Cursor} {first : Char} {cs : List Char}
    (h : c.rest = first :: cs) :
    (lowerCursor c).rest = first.toLower :: lowerProse (Place.prose.after first) cs := by
  rw [lowerCursor, h]
  rfl

theorem skip_lowerCursor {c : Cursor} {n : Nat} (h : Place.prose.behind (c.rest.take n) = .prose) :
    (lowerCursor c).skip n = lowerCursor (c.skip n) := by
  rw [lowerCursor, lowerCursor, Cursor.skip, Cursor.skip, drop_lowerProse, h,
    count_take_lowerProse]

namespace Plain

variable {p : Char → Bool}

theorem run_lowerCursor (hp : Plain p) (c : Cursor) :
    (lowerCursor c).run p = (c.run p).map Char.toLower :=
  hp.takeWhile_lowerProse c.rest

theorem take_length_takeWhile (p : Char → Bool) (cs : List Char) :
    cs.take (cs.takeWhile p).length = cs.takeWhile p :=
  (List.prefix_iff_eq_take.mp (List.takeWhile_prefix p)).symm

theorem skipWhile_lowerCursor (hp : Plain p) (c : Cursor) :
    (lowerCursor c).skipWhile p = lowerCursor (c.skipWhile p) := by
  rw [Cursor.skipWhile, Cursor.skipWhile, hp.run_lowerCursor, List.length_map]
  refine skip_lowerCursor ?_
  rw [Cursor.run, take_length_takeWhile]
  exact hp.behind_takeWhile c.rest

end Plain

/-! ### Between words -/

theorem head?_lowerProse_eq_break (place : Place) (cs : List Char) :
    (lowerProse place cs).head? = some '\n' ↔ cs.head? = some '\n' := by
  cases cs with
  | nil => rfl
  | cons c cs =>
    rw [lowerProse, List.head?_cons, List.head?_cons, Option.some.injEq, Option.some.injEq]
    exact lowerLetter_eq_iff (by decide)

theorem blankLineAhead_lowerProse (cs : List Char) :
    blankLineAhead (lowerProse .prose cs) = blankLineAhead cs := by
  rw [blankLineAhead, blankLineAhead, plain_isSpace.dropWhile_lowerProse]
  exact decide_eq_decide.mpr (head?_lowerProse_eq_break _ _)

/-- A gap is in prose, and so is what follows it. -/
theorem after_of_isGap (h : isGap c cs = true) : Place.prose.after c = .prose := by
  rw [isGap, Bool.or_eq_true, Bool.and_eq_true, decide_eq_true_eq] at h
  obtain h | ⟨rfl, -⟩ := h
  · exact plain_isSpace.after_prose h
  · rfl

theorem isGap_lowerProse (c : Char) (cs : List Char) :
    isGap c.toLower (lowerProse (Place.prose.after c) cs) = isGap c cs := by
  have hbreak : c.toLower = '\n' ↔ c = '\n' := Text.toLower_eq_iff (by decide)
  by_cases hc : c = '\n'
  · subst hc
    have hblank : blankLineAhead (lowerProse (Place.prose.after '\n') cs) = blankLineAhead cs :=
      blankLineAhead_lowerProse cs
    rw [isGap, isGap, hblank]
    rfl
  · have hlower : c.toLower ≠ '\n' := fun h => hc (hbreak.mp h)
    simp [isGap, hc, hlower, plain_isSpace.toLower c]

theorem gap?_lowerProse (cs : List Char) : gap? (lowerProse .prose cs) = gap? cs := by
  induction cs with
  | nil => rfl
  | cons c cs ih =>
    rw [lowerProse, lowerLetter_prose, gap?, gap?, isGap_lowerProse, plain_isWordChar.toLower]
    cases hgap : isGap c cs with
    | true => rw [if_pos rfl, if_pos rfl, after_of_isGap hgap, ih]
    | false => rfl

/-- The gap before a word is in prose. -/
theorem behind_of_gap? {n : Nat} (h : gap? cs = some n) :
    Place.prose.behind (cs.take n) = .prose := by
  induction cs generalizing n with
  | nil => cases h
  | cons c cs ih =>
    rw [gap?] at h
    cases hgap : isGap c cs with
    | true =>
      rw [hgap, if_pos rfl] at h
      obtain ⟨m, hm, rfl⟩ := Option.map_eq_some_iff.mp h
      rw [List.take_succ_cons, Place.behind, List.foldl_cons, after_of_isGap hgap]
      exact ih hm
    | false =>
      rw [hgap, if_neg Bool.false_ne_true] at h
      split at h
      · obtain rfl := Option.some.inj h
        rfl
      · cases h

theorem pastParagraph_lowerCursor (c : Cursor) :
    pastParagraph (lowerCursor c) = lowerCursor (pastParagraph c) := by
  unfold pastParagraph
  simp only [plain_isSpace.skipWhile_lowerCursor]
  generalize c.skipWhile isSpace = d
  cases hrest : d.rest with
  | nil => rw [rest_lowerCursor_nil hrest]
  | cons x xs =>
    rw [rest_lowerCursor_cons hrest]
    by_cases hx : x = '\n'
    · subst hx
      have hlower : '\n'.toLower = '\n' := rfl
      have hafter : Place.prose.after '\n' = .prose := rfl
      simp only [hlower, hafter, blankLineAhead_lowerProse, plain_isBlank.skipWhile_lowerCursor]
      split <;> rfl
    · have hlower : x.toLower ≠ '\n' := fun h => hx ((Text.toLower_eq_iff (by decide)).mp h)
      simp [hx, hlower]

/-! ### Comments -/

theorem position?_bracket (c : Char) (cs : List Char) :
    Text.position? "]".toList (c :: cs) =
      if c = ']' then some 0 else (Text.position? "]".toList cs).map (· + 1) := by
  have hprefix : "]".toList.isPrefixOf (c :: cs) = decide (c = ']') := by
    rw [Bool.eq_iff_iff, decide_eq_true_eq, eq_comm (b := ']')]
    simp [List.isPrefixOf]
  rw [Text.position?, hprefix]
  simp

/-- Comments end where they ended. -/
theorem position?_lowerProse (place : Place) (cs : List Char) :
    Text.position? "]".toList (lowerProse place cs) = Text.position? "]".toList cs := by
  induction cs generalizing place with
  | nil => rfl
  | cons c cs ih =>
    have hend : lowerLetter place c cs = ']' ↔ c = ']' := lowerLetter_eq_iff (by decide)
    rw [lowerProse, position?_bracket, position?_bracket, ih]
    simp only [hend]

/-- Behind a comment there is prose. -/
theorem behind_comment {n : Nat} (h : Text.position? "]".toList cs = some n) :
    Place.comment.behind (cs.take (n + 1)) = .prose := by
  induction cs generalizing n with
  | nil => cases h
  | cons c cs ih =>
    rw [position?_bracket] at h
    rw [List.take_succ_cons, Place.behind, List.foldl_cons]
    split at h
    · rename_i hc
      obtain rfl := Option.some.inj h
      rw [hc]
      rfl
    · rename_i hc
      obtain ⟨m, hm, rfl⟩ := Option.map_eq_some_iff.mp h
      rw [Place.after, if_neg hc]
      exact ih hm

theorem skipIdle_nil {c : Cursor} (h : c.rest = []) : skipIdle c = .ok () c := by
  rw [skipIdle]
  split
  · rfl
  · rename_i hcons
    rw [h] at hcons
    cases hcons

theorem skipIdle_cons {c : Cursor} {first : Char} {cs : List Char} (h : c.rest = first :: cs) :
    skipIdle c =
      if isGap first cs then skipIdle (c.skip 1)
      else if first = '[' then
        match c.past? "]" with
        | none => .error (LexFault.openComment.onLine c.line) (c.skip c.rest.length)
        | some d => skipIdle d
      else .ok () c := by
  rw [skipIdle]
  split
  · rename_i hnil
    rw [h] at hnil
    cases hnil
  · rename_i hcons
    rw [h] at hcons
    obtain ⟨rfl, rfl⟩ := List.cons.inj hcons
    split
    · rfl
    · split
      · split
        · rename_i hpast
          rw [hpast]
        · rename_i hpast
          rw [hpast]
      · rfl

theorem past?_lowerCursor {c : Cursor} {cs : List Char} (h : c.rest = '[' :: cs) :
    (lowerCursor c).past? "]" = (c.past? "]").map lowerCursor := by
  have hrest : (lowerCursor c).rest = lowerProse .prose c.rest := rfl
  rw [Cursor.past?, Cursor.past?, hrest, position?_lowerProse, Option.map_map]
  cases hn : Text.position? "]".toList c.rest with
  | none => rfl
  | some n =>
    refine congrArg some (skip_lowerCursor ?_)
    rw [h, position?_bracket, if_neg (by decide)] at hn
    obtain ⟨m, hm, rfl⟩ := Option.map_eq_some_iff.mp hn
    rw [h]
    exact behind_comment hm

/-- At the end of the source case makes no difference any more. -/
theorem skip_length_lowerCursor (c : Cursor) :
    (lowerCursor c).skip (lowerCursor c).rest.length = lowerCursor (c.skip c.rest.length) := by
  simp [lowerCursor, Cursor.skip, length_lowerProse, drop_lowerProse, count_take_lowerProse,
    lowerProse]

theorem skipIdle_lowerCursor (c : Cursor) :
    skipIdle (lowerCursor c) = lowerResult id lowerCursor (skipIdle c) := by
  fun_induction skipIdle c with
  | case1 c hrest =>
    rw [skipIdle_nil (rest_lowerCursor_nil hrest)]
    rfl
  | case2 c first cs hrest hgap ih =>
    rw [skipIdle_cons (rest_lowerCursor_cons hrest), isGap_lowerProse, if_pos hgap, ← ih,
      skip_lowerCursor]
    rw [hrest]
    exact after_of_isGap hgap
  | case3 c cs hpast hrest hgap =>
    rw [skipIdle_cons (rest_lowerCursor_cons hrest), isGap_lowerProse, if_neg hgap,
      if_pos (show '['.toLower = '[' from rfl),
      past?_lowerCursor hrest, hpast, skip_length_lowerCursor]
    rfl
  | case4 c cs d hpast hrest hgap ih =>
    rw [skipIdle_cons (rest_lowerCursor_cons hrest), isGap_lowerProse, if_neg hgap,
      if_pos (show '['.toLower = '[' from rfl),
      past?_lowerCursor hrest, hpast]
    exact ih
  | case5 c first cs hrest hgap hfirst =>
    have hlower : first.toLower ≠ '[' :=
      fun h => hfirst ((Text.toLower_eq_iff (by decide)).mp h)
    rw [skipIdle_cons (rest_lowerCursor_cons hrest), isGap_lowerProse, if_neg hgap, if_neg hlower]
    rfl

/-! ### Terms -/

def lowerFollower (f : Follower) : Follower :=
  ⟨f.word.toLower, f.reach⟩

/-- A word that follows another is in prose. -/
theorem behind_word {gap : Nat} (h : gap? cs = some gap) :
    Place.prose.behind (cs.take (gap + ((cs.drop gap).takeWhile isWordChar).length)) = .prose := by
  rw [List.take_add, behind_append, behind_of_gap? h, Plain.take_length_takeWhile]
  exact plain_isWordChar.behind_takeWhile _

theorem followers_lowerProse (n : Nat) (cs : List Char) :
    followers n (lowerProse .prose cs) = (followers n cs).map lowerFollower := by
  induction n generalizing cs with
  | zero => rfl
  | succ n ih =>
    rw [followers, followers, gap?_lowerProse]
    cases hgap : gap? cs with
    | none => rfl
    | some gap =>
      have hdrop : (lowerProse .prose cs).drop gap = lowerProse .prose (cs.drop gap) := by
        rw [drop_lowerProse, behind_of_gap? hgap]
      simp only [hdrop, plain_isWordChar.takeWhile_lowerProse, List.length_map, List.map_cons]
      rw [drop_lowerProse, behind_word hgap, ih, lowerFollower, Text.toLower_ofList]

theorem kind?_toLower (l : Lexicon) (word : String) : l.kind? word.toLower = l.kind? word := by
  rw [Lexicon.kind?, Lexicon.kind?, KindTree.lookup?, KindTree.lookup?, Text.lower_toLower]

theorem isKind_toLower (l : Lexicon) (word : String) : l.isKind word.toLower = l.isKind word := by
  rw [Lexicon.isKind, Lexicon.isKind, kind?_toLower]

theorem isDirection_toLower (l : Lexicon) (word : String) :
    l.isDirection word.toLower = l.isDirection word := by
  rw [Lexicon.isDirection, Lexicon.isDirection, Text.lower_toLower]

theorem ofName?_toLower (word : String) :
    Property.ofName? word.toLower = Property.ofName? word := by
  rw [Property.ofName?, Property.ofName?, Text.lower_toLower]

theorem isWorldly_toLower (word : String) : isWorldly word.toLower = isWorldly word := by
  rw [isWorldly, isWorldly, Text.lower_toLower]

theorem isTerm_toLower (l : Lexicon) (phrase : String) :
    l.isTerm phrase.toLower = l.isTerm phrase := by
  rw [Lexicon.isTerm, Lexicon.isTerm, isDirection_toLower, isKind_toLower, ofName?_toLower,
    isWorldly_toLower]

theorem phrase_lowered (first : String) (more : List Follower) :
    phrase first.toLower (more.map lowerFollower) = (phrase first more).toLower := by
  rw [phrase, phrase, Text.toLower_intercalate, List.map_cons, List.map_map, List.map_map]
  rfl

theorem termLength_lowered (l : Lexicon) (first : String) (more : List Follower) :
    termLength l.isTerm first.toLower (more.map lowerFollower) =
      termLength l.isTerm first more := by
  simp only [termLength, List.length_map, ← List.map_take, phrase_lowered, isTerm_toLower]

/-- All words of a term are in prose. -/
theorem behind_followers (n k : Nat) (cs : List Char) :
    Place.prose.behind (cs.take (((followers n cs).take k).foldl (· + ·.reach) 0)) = .prose := by
  have hsum : ∀ (fs : List Follower) (start : Nat),
      fs.foldl (· + ·.reach) start = start + fs.foldl (· + ·.reach) 0 := by
    intro fs
    induction fs with
    | nil => exact fun _ => rfl
    | cons f fs ih =>
      intro start
      rw [List.foldl_cons, List.foldl_cons, ih (start + f.reach), ih (0 + f.reach)]
      omega
  induction n generalizing k cs with
  | zero => simp [followers, Place.behind]
  | succ n ih =>
    rw [followers]
    cases hgap : gap? cs with
    | none => simp [Place.behind]
    | some gap =>
      cases k with
      | zero => rfl
      | succ k =>
        dsimp only
        rw [List.take_succ_cons, List.foldl_cons, hsum, Nat.zero_add, List.take_add, behind_append,
          behind_word hgap]
        exact ih k _

/-! ### Tokens -/

/-- A token with its letters lowered, except between quotes. -/
def Token.lowered (t : Token) : Token :=
  if t.kind = .quoted then t else { t with text := t.text.toLower }

@[simp] theorem Token.kind_lowered (t : Token) : t.lowered.kind = t.kind := by
  unfold Token.lowered
  split <;> rfl

@[simp] theorem Token.line_lowered (t : Token) : t.lowered.line = t.line := by
  unfold Token.lowered
  split <;> rfl

/-- A token without capitals is its own lowered form. -/
theorem Token.lowered_of_text {text : String} (h : text.toList.map Char.toLower = text.toList)
    (kind : TokenKind) (line : Nat) :
    (⟨kind, text, line⟩ : Token).lowered = ⟨kind, text, line⟩ := by
  unfold Token.lowered
  rw [Text.toLower_eq_self h]
  split <;> rfl

theorem TokenKind.ofWord_toLower (word : String) : ofWord word.toLower = ofWord word := by
  rw [ofWord, ofWord, Text.lower_toLower]

theorem TokenKind.ofWord_ne_quoted (word : String) : ofWord word ≠ .quoted := by
  unfold ofWord
  split <;> decide

namespace Scanner

/-- The scanner in the lowered source. -/
def lowered (s : Scanner) : Scanner :=
  { s with cursor := lowerCursor s.cursor, owed := s.owed.map Token.lowered }

theorem readTerm_lowered (s : Scanner) (l : Lexicon) :
    s.lowered.readTerm l = ((s.readTerm l).1.lowered, (s.readTerm l).2.lowered) := by
  have hletters : s.lowered.cursor.run isWordChar = (s.cursor.run isWordChar).map Char.toLower :=
    plain_isWordChar.run_lowerCursor s.cursor
  have hbehind : Place.prose.behind (s.cursor.rest.take (s.cursor.run isWordChar).length) =
      .prose := by
    rw [Cursor.run, Plain.take_length_takeWhile]
    exact plain_isWordChar.behind_takeWhile _
  have hrest : s.lowered.cursor.rest.drop (s.cursor.run isWordChar).length =
      lowerProse .prose (s.cursor.rest.drop (s.cursor.run isWordChar).length) := by
    rw [lowered, lowerCursor, drop_lowerProse, hbehind]
  have hreach : ∀ fs : List Follower, (fs.map lowerFollower).foldl (· + ·.reach) 0 =
      fs.foldl (· + ·.reach) 0 := fun fs => List.foldl_map
  have hmore : s.lowered.moreWords = s.moreWords := rfl
  have hline : s.lowered.cursor.line = s.cursor.line := rfl
  simp only [readTerm, hletters, List.length_map, hrest, hmore, hline, followers_lowerProse,
    ← Text.toLower_ofList, termLength_lowered, ← List.map_take, phrase_lowered, hreach,
    TokenKind.ofWord_toLower]
  refine Prod.ext ?_ ?_
  · rw [Token.lowered, if_neg (TokenKind.ofWord_ne_quoted _)]
  · simp only [lowered]
    rw [skip_lowerCursor]
    rw [List.take_add, behind_append, hbehind]
    exact behind_followers _ _ _

/-- Text between quotes stays as it is, and behind it there is prose again. -/
theorem lowerProse_quote (h : '"' ∈ cs) :
    (lowerProse .quote cs).takeWhile (· ≠ '"') = cs.takeWhile (· ≠ '"') ∧
      Place.quote.behind (cs.take ((cs.takeWhile (· ≠ '"')).length + 1)) = .prose := by
  induction cs with
  | nil => cases h
  | cons c cs ih =>
    by_cases hc : c = '"'
    · subst hc
      have hquote : lowerLetter .quote '"' cs = '"' := (lowerLetter_eq_iff (by decide)).mpr rfl
      rw [lowerProse, hquote]
      exact ⟨rfl, rfl⟩
    · have hcs : '"' ∈ cs := (List.mem_cons.mp h).resolve_left (Ne.symm hc)
      have hafter : Place.quote.after c = .quote := if_neg hc
      have hkept : lowerLetter .quote c cs = c := if_pos ⟨rfl, hcs⟩
      obtain ⟨hrun, hbehind⟩ := ih hcs
      rw [lowerProse, hkept, hafter, List.takeWhile_cons, List.takeWhile_cons,
        if_pos (decide_eq_true hc), if_pos (decide_eq_true hc), hrun]
      refine ⟨rfl, ?_⟩
      rw [List.length_cons, List.take_succ_cons, Place.behind, List.foldl_cons, hafter]
      exact hbehind

/-- Quotes stay where they are. -/
theorem length_takeWhile_quote (place : Place) (cs : List Char) :
    ((lowerProse place cs).takeWhile (· ≠ '"')).length = (cs.takeWhile (· ≠ '"')).length := by
  induction cs generalizing place with
  | nil => rfl
  | cons c cs ih =>
    have hquote : lowerLetter place c cs = '"' ↔ c = '"' := lowerLetter_eq_iff (by decide)
    rw [lowerProse, List.takeWhile_cons, List.takeWhile_cons]
    simp only [ne_eq, hquote]
    split
    · rw [List.length_cons, List.length_cons]
      exact congrArg (· + 1) (ih _)
    · rfl

theorem readQuoted_lowered {s : Scanner} {cs : List Char} (h : s.cursor.rest = '"' :: cs) :
    s.lowered.readQuoted = lowerResult Token.lowered lowered s.readQuoted := by
  have hinside : s.cursor.skip 1 = ⟨cs, (s.cursor.skip 1).line⟩ := by
    rw [Cursor.skip, h]
    rfl
  have hlowered : s.lowered.cursor.skip 1 = ⟨lowerProse .quote cs, (s.cursor.skip 1).line⟩ := by
    rw [Cursor.skip, Cursor.skip, lowered, rest_lowerCursor_cons h, h]
    rfl
  have hskip : ∀ n line, lowerProse (Place.quote.behind (cs.take n)) (cs.drop n) =
      lowerProse .prose (cs.drop n) →
      Cursor.skip ⟨lowerProse .quote cs, line⟩ n = lowerCursor (Cursor.skip ⟨cs, line⟩ n) := by
    intro n line hn
    rw [Cursor.skip, Cursor.skip, lowerCursor, drop_lowerProse, hn, count_take_lowerProse]
  have hline : s.lowered.cursor.line = s.cursor.line := rfl
  unfold readQuoted
  rw [hlowered, hinside, hline]
  unfold Cursor.run
  dsimp only
  rw [length_takeWhile_quote, length_lowerProse]
  by_cases hlength : (cs.takeWhile (· ≠ '"')).length = cs.length
  · have hend : cs.drop (cs.takeWhile (· ≠ '"')).length = [] :=
      List.drop_eq_nil_of_le (Nat.le_of_eq hlength.symm)
    rw [if_pos hlength, if_pos hlength, hskip _ _ (by rw [hend]; rfl)]
    rfl
  · have hclosed : '"' ∈ cs := by
      by_contra hopen
      refine hlength (congrArg List.length (List.takeWhile_eq_self_iff.mpr ?_))
      exact fun c hc => decide_eq_true fun heq => hopen (heq ▸ hc)
    obtain ⟨hrun, hbehind⟩ := lowerProse_quote hclosed
    rw [if_neg hlength, if_neg hlength, hrun, hskip _ _ (by rw [hbehind]),
      pastParagraph_lowerCursor]
    unfold lowerResult
    dsimp only
    split
    · have hstop := Token.lowered_of_text (show ".".toList.map Char.toLower = ".".toList from rfl)
      simp only [lowered, Option.map_some, hstop]
      rfl
    · rfl

/-- The character that a token begins with, if it is not of a word, stays as it is. -/
theorem toLower_of_not_isWordChar (h : isWordChar c = false) : c.toLower = c := by
  obtain hsame | hmem := Text.toLower_eq_or_mem_capitals c
  · exact hsame
  · have hword := List.all_eq_true.mp
      (show Text.capitals.all isWordChar = true by decide) c hmem
    rw [h] at hword
    cases hword

theorem readToken_of_word {s : Scanner} (l : Lexicon) (h : s.cursor.rest = c :: cs)
    (hword : isWordChar c = true) :
    s.readToken l = .ok (s.readTerm l).1 (s.readTerm l).2 := by
  have hne : ∀ d, isWordChar d = false → c ≠ d := by
    rintro d hd rfl
    rw [hword] at hd
    cases hd
  have hmark : TokenKind.ofMark? c = none := by
    unfold TokenKind.ofMark?
    split
    · exact absurd rfl (hne ',' (by decide))
    · exact absurd rfl (hne ':' (by decide))
    · exact absurd rfl (hne ';' (by decide))
    · rfl
  unfold readToken
  simp only [h, hmark, if_neg (hne '.' (by decide)), if_neg (hne '\n' (by decide)),
    if_neg (hne '"' (by decide)), if_pos hword]

/-- What begins a token that is not a word, nor text between quotes, is the same character
in the lowered source, and so is the rest behind it. -/
theorem readToken_lowered (s : Scanner) (l : Lexicon) :
    s.lowered.readToken l = lowerResult Token.lowered lowered (s.readToken l) := by
  cases hrest : s.cursor.rest with
  | nil =>
    have hlowered : s.lowered.cursor.rest = [] := rest_lowerCursor_nil hrest
    have hfinish := Token.lowered_of_text (show "".toList.map Char.toLower = "".toList from rfl)
    unfold readToken
    simp only [hlowered, hrest, lowerResult, hfinish]
    rfl
  | cons c cs =>
    have hlowered : s.lowered.cursor.rest = c.toLower :: lowerProse (Place.prose.after c) cs :=
      rest_lowerCursor_cons hrest
    cases hword : isWordChar c with
    | true =>
      rw [readToken_of_word l hrest hword, readToken_of_word l hlowered
        ((plain_isWordChar.toLower c).trans hword), readTerm_lowered, lowerResult]
    | false =>
      -- what is not of a word is no letter, so both sources go on with the same character
      have hsame := toLower_of_not_isWordChar hword
      have hskip : Place.prose.after c = .prose →
          s.lowered.cursor.skip 1 = lowerCursor (s.cursor.skip 1) := by
        intro hafter
        refine skip_lowerCursor ?_
        rw [hrest]
        exact hafter
      rw [hsame] at hlowered
      unfold readToken
      simp only [hlowered, hrest]
      cases hmark : TokenKind.ofMark? c with
      | some kind =>
        have hafter : Place.prose.after c = .prose := by
          unfold TokenKind.ofMark? at hmark
          split at hmark
          · rfl
          · rfl
          · rfl
          · cases hmark
        have hchar : (String.ofList [c]).toList.map Char.toLower = (String.ofList [c]).toList := by
          rw [String.toList_ofList, List.map_singleton, hsame]
        simp only [hskip hafter, lowerResult, Token.lowered_of_text hchar]
        rfl
      | none =>
        dsimp only
        by_cases hdot : c = '.'
        · subst hdot
          have hstop := Token.lowered_of_text
            (show ".".toList.map Char.toLower = ".".toList from rfl)
          simp only [if_pos, hskip rfl, pastParagraph_lowerCursor, lowerResult, hstop]
          rfl
        · by_cases hbreak : c = '\n'
          · subst hbreak
            have hblank := Token.lowered_of_text
              (show "\n\n".toList.map Char.toLower = "\n\n".toList from rfl)
            simp only [if_neg hdot, if_pos, lowerResult, hblank]
            rw [lowered, plain_isBlank.skipWhile_lowerCursor]
            rfl
          · by_cases hquote : c = '"'
            · subst hquote
              simp only [if_neg hdot, if_neg hbreak, if_pos]
              exact readQuoted_lowered hrest
            · simp only [if_neg hdot, if_neg hbreak, if_neg hquote, hword,
                if_neg Bool.false_ne_true]
              rfl

theorem scan_lowered (l : Lexicon) (s : Scanner) :
    s.lowered.scan l = lowerResult Token.lowered lowered (s.scan l) := by
  rw [scan, scan]
  cases howed : s.owed with
  | some token =>
    have hlowered : s.lowered.owed = some token.lowered := by rw [lowered, howed]; rfl
    rw [hlowered]
    rfl
  | none =>
    have hlowered : s.lowered.owed = none := by rw [lowered, howed]; rfl
    have hidle : skipIdle s.lowered.cursor = lowerResult id lowerCursor (skipIdle s.cursor) :=
      skipIdle_lowerCursor s.cursor
    rw [hlowered]
    dsimp only
    rw [hidle]
    cases skipIdle s.cursor with
    | error e cursor => rfl
    | ok u cursor => exact readToken_lowered ⟨cursor, s.moreWords, none⟩ l

/-- The scanner at the beginning of a source. -/
theorem ofSource_lowerProse (source : String) (maxWords : Nat) :
    ofSource (String.ofList (lowerProse .prose source.toList)) maxWords =
      (ofSource source maxWords).lowered := by
  rw [ofSource, ofSource, Cursor.ofText, String.toList_ofList]
  rfl

end Scanner

/-! ### Sentences -/

/-- A sentence with the letters of its tokens lowered, and of all that follows it. -/
def Sentence.lowered : Sentence → Sentence
  | whole tokens atEnd rest => whole (tokens.map Token.lowered) atEnd rest.lowered
  | broken tokens error => broken (tokens.map Token.lowered) error

theorem Sentence.lowered_cons (t : Token) (s : Sentence) :
    (s.cons t).lowered = s.lowered.cons t.lowered := by
  cases s <;> rfl

theorem Scanner.sentence_of_scan {s t : Scanner} {token : Token} {l : Lexicon}
    (h : s.scan l = .ok token t) :
    s.sentence l =
      if token.kind = .finish then .whole [token] true t
      else if token.kind = .stop then .whole [token] false t
      else (t.sentence l).cons token := by
  rw [Scanner.sentence, h]
  rfl

/-- **The sentences of a lowered source are the sentences of the source, lowered.** -/
theorem Scanner.sentence_lowered (l : Lexicon) (s : Scanner) :
    s.lowered.sentence l = (s.sentence l).lowered := by
  have hscan := scan_lowered l s
  fun_induction Scanner.sentence l s with
  | case1 s e t h =>
    rw [h] at hscan
    rw [Scanner.sentence, hscan]
    rfl
  | case2 s token t h hfinish =>
    rw [h] at hscan
    rw [sentence_of_scan hscan, Token.kind_lowered, if_pos hfinish]
    rfl
  | case3 s token t h hfinish hstop =>
    rw [h] at hscan
    rw [sentence_of_scan hscan, Token.kind_lowered, if_neg hfinish, if_pos hstop]
    rfl
  | case4 s token t h hfinish hstop ih =>
    rw [h] at hscan
    rw [sentence_of_scan hscan, Token.kind_lowered, if_neg hfinish, if_neg hstop,
      Sentence.lowered_cons, ih (scan_lowered l t)]

end Adventure.Prose
