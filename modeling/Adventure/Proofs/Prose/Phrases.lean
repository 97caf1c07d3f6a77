/-
Phrases, cut into terms.

The scanner takes the longest term that begins with the next word, or else the word alone.
So every token that is no mark is one word or a term of the lexicon, and a phrase of plain
words with one space between them is cut into runs of its words: which runs, depends on the
lexicon only, and together they are the phrase.
-/
import Adventure.Proofs.Prose.Sequels
import Adventure.Proofs.Prose.Terms

namespace Adventure.Prose

open Text (Cursor)

/-! ### The longest term -/

/-- The longest of the terms is taken. -/
theorem find?_longest (fits : Nat → Bool) (n : Nat) :
    let m := ((List.range' 1 n).reverse.find? fits).getD 0
    m ≤ n ∧ (0 < m → fits m = true) ∧ ∀ k, m < k → k ≤ n → fits k = false := by
  induction n with
  | zero =>
    refine ⟨Nat.le_refl 0, nofun, ?_⟩
    intro k hk hle
    omega
  | succ n ih =>
    rw [List.range'_1_concat, List.reverse_append, List.reverse_singleton, List.singleton_append,
      List.find?_cons]
    cases hfits : fits (1 + n) with
    | true =>
      refine ⟨by simp; omega, fun _ => by simpa using hfits, ?_⟩
      intro k hk hle
      simp only [Option.getD_some] at hk
      omega
    | false =>
      obtain ⟨hle, hm, hlonger⟩ := ih
      refine ⟨Nat.le_succ_of_le hle, hm, fun k hk hkn => ?_⟩
      rcases Nat.lt_or_eq_of_le hkn with hkn | rfl
      · exact hlonger k hk (by omega)
      · rwa [Nat.add_comm]

section TermLength

variable {isTerm : String → Bool} {first : String} {more : List Follower}

theorem termLength_le : termLength isTerm first more ≤ more.length :=
  (find?_longest _ more.length).1

theorem isTerm_of_termLength_pos (h : 0 < termLength isTerm first more) :
    isTerm (phrase first (more.take (termLength isTerm first more))) = true :=
  (find?_longest (fun n => isTerm (phrase first (more.take n))) more.length).2.1 h

theorem not_isTerm_of_termLength_lt {n : Nat} (h : termLength isTerm first more < n)
    (hle : n ≤ more.length) : isTerm (phrase first (more.take n)) = false :=
  (find?_longest (fun n => isTerm (phrase first (more.take n))) more.length).2.2 n h hle

end TermLength

/-! ### Words and terms -/

/-- A text that is one word to the scanner: not empty, and of the characters of words. -/
def IsPlain (word : String) : Prop :=
  word.toList ≠ [] ∧ ∀ c ∈ word.toList, isWordChar c = true

instance : DecidablePred IsPlain := fun word =>
  decidable_of_iff (word.toList ≠ [] ∧ word.toList.all isWordChar = true)
    (by rw [IsPlain, List.all_eq_true])

theorem IsPlain.isWord {word : String} (h : IsPlain word) : Text.IsWord word :=
  ⟨h.1, fun c hc => not_isBlank_of_isWordChar (h.2 c hc)⟩

theorem not_isSpace_of_isWordChar {c : Char} (h : isWordChar c = true) : isSpace c = false := by
  rw [← Bool.not_eq_true]
  intro hspace
  have hblank := isBlank_of_isSpace hspace
  rw [not_isBlank_of_isWordChar h] at hblank
  cases hblank

theorem isPlain_takeWhile {c : Char} {cs : List Char} (hc : isWordChar c = true) :
    IsPlain (String.ofList ((c :: cs).takeWhile isWordChar)) := by
  rw [IsPlain, String.toList_ofList]
  exact ⟨by simp [hc], fun d hd => List.all_eq_true.mp List.all_takeWhile d hd⟩

/-- The words behind a word are plain. -/
theorem isPlain_of_mem_followers {n : Nat} {cs : List Char} {f : Follower}
    (h : f ∈ followers n cs) : IsPlain f.word := by
  induction n generalizing cs with
  | zero => cases h
  | succ n ih =>
    rw [followers] at h
    split at h
    · cases h
    · next gap hgap =>
      obtain ⟨c, rest, hdrop, hc⟩ := drop_of_gap? hgap
      rcases List.mem_cons.mp h with rfl | h
      · rw [hdrop]
        exact isPlain_takeWhile hc
      · exact ih h

/-- Words as one token. -/
def Token.ofWords (ws : List String) (line : Nat) : Token :=
  let text := " ".intercalate ws
  ⟨.ofWord text, text, line⟩

/-- A token that is one plain word, or a term of several. -/
structure Token.IsTerm (l : Lexicon) (t : Token) : Prop where
  kind : t.kind = .ofWord t.text
  nonempty : Text.words t.text ≠ []
  phrase : Text.IsPhrase t.text
  known : 1 < (Text.words t.text).length → l.isTerm t.text = true

theorem words_ofWords {ws : List String} (h : ∀ w ∈ ws, IsPlain w) (line : Nat) :
    Text.words (Token.ofWords ws line).text = ws :=
  Text.words_joined fun w hw => (h w hw).isWord

theorem isTerm_ofWords {l : Lexicon} {ws : List String} (hne : ws ≠ [])
    (hplain : ∀ w ∈ ws, IsPlain w)
    (hknown : 1 < ws.length → l.isTerm (" ".intercalate ws) = true) (line : Nat) :
    (Token.ofWords ws line).IsTerm l where
  kind := by simp only [Token.ofWords]
  nonempty := by rwa [words_ofWords hplain]
  phrase := Text.isPhrase_joined fun w hw => (hplain w hw).isWord
  known := by
    rw [words_ofWords hplain]
    exact hknown

namespace Scanner

variable {s t : Scanner} {l : Lexicon} {token : Token}

/-- **What the scanner takes for a word is a word or a term.** -/
theorem isTerm_readTerm {c : Char} {cs : List Char} (hrest : s.cursor.rest = c :: cs)
    (hc : isWordChar c = true) : (s.readTerm l).1.IsTerm l := by
  have hfirst : IsPlain (String.ofList (s.cursor.run isWordChar)) := by
    rw [Cursor.run, hrest]
    exact isPlain_takeWhile hc
  have hplain : ∀ more : List Follower,
      more ⊆ followers s.moreWords (s.cursor.rest.drop (s.cursor.run isWordChar).length) →
      ∀ w ∈ String.ofList (s.cursor.run isWordChar) :: more.map (·.word), IsPlain w := by
    intro more hmore
    refine List.forall_mem_cons.mpr ⟨hfirst, fun w hw => ?_⟩
    obtain ⟨f, hf, rfl⟩ := List.mem_map.mp hw
    exact isPlain_of_mem_followers (hmore hf)
  refine isTerm_ofWords (List.cons_ne_nil _ _) (hplain _ (List.take_subset _ _)) ?_ s.cursor.line
  intro hlength
  refine isTerm_of_termLength_pos (Nat.pos_of_ne_zero fun hzero => ?_)
  rw [hzero] at hlength
  simp at hlength

theorem isTerm_of_scan (hs : s.Sound) (h : s.scan l = .ok token t)
    (hverbal : token.isVerbal = true) : token.IsTerm l := by
  cases howed : s.owed with
  | some owed =>
    rw [scan_of_owed howed] at h
    obtain ⟨rfl, -⟩ := EStateM.Result.ok.inj h
    simp [Token.isVerbal, hs owed howed] at hverbal
  | none =>
    cases hidle : skipIdle s.cursor with
    | error e c =>
      rw [scan, howed] at h
      simp only [hidle] at h
      cases h
    | ok _ c =>
      rw [scan_of_idle howed hidle] at h
      by_cases hword : ∃ d ds, c.rest = d :: ds ∧ isWordChar d = true
      · obtain ⟨d, ds, hrest, hd⟩ := hword
        rw [readToken_of_word l hrest hd] at h
        obtain ⟨rfl, -⟩ := EStateM.Result.ok.inj h
        exact isTerm_readTerm hrest hd
      · have hshared := shared_readToken (s := { s with cursor := c }) l l (by
          cases hrest : c.rest with
          | nil => exact .inr rfl
          | cons d ds => exact .inl (by simpa [hrest] using hword))
        rw [h] at hshared
        rw [hshared.1] at hverbal
        cases hverbal

/-- **Every word of a sentence is a word or a term.** -/
theorem isTerm_of_sentence (hs : s.Sound) :
    ∀ t ∈ (s.sentence l).tokens, t.isVerbal = true → t.IsTerm l := by
  fun_induction sentence l s with
  | case1 => exact List.forall_mem_nil _
  | case2 s token t hscan | case3 s token t hscan =>
    exact List.forall_mem_singleton.mpr (isTerm_of_scan hs hscan)
  | case4 s token t hscan hfinish hstop ih =>
    have hrest := ih (sound_of_scan hs hscan)
    cases hinner : t.sentence l with
    | whole inner atEnd rest =>
      rw [hinner] at hrest
      exact List.forall_mem_cons.mpr ⟨isTerm_of_scan hs hscan, hrest⟩
    | broken inner e =>
      rw [hinner] at hrest
      exact List.forall_mem_cons.mpr ⟨isTerm_of_scan hs hscan, hrest⟩

end Scanner

/-! ### Phrases -/

/-- A word that follows another behind one space. -/
def Follower.spaced (word : String) : Follower :=
  ⟨word, word.length + 1⟩

/-- The runs into which a scanner cuts words: each the longest term that begins with its
first word, or else that word alone. -/
def cut (isTerm : String → Bool) (moreWords : Nat) : List String → List (List String)
  | [] => []
  | w :: ws =>
    let n := termLength isTerm w ((ws.take moreWords).map .spaced)
    (w :: ws.take n) :: cut isTerm moreWords (ws.drop n)
termination_by ws => ws.length
decreasing_by
  simp only [List.length_drop, List.length_cons]
  omega

section Cut

variable {isTerm : String → Bool} {n : Nat} {w : String} {ws run rest : List String}

theorem phrase_spaced (w : String) (ws : List String) (n k : Nat) :
    phrase w (((ws.take n).map Follower.spaced).take k) =
      " ".intercalate (w :: ws.take (min k n)) := by
  rw [phrase, ← List.map_take, List.take_take, List.map_map]
  simp [Function.comp_def, Follower.spaced]

/-- Together the runs are the phrase. -/
theorem flatten_cut (isTerm : String → Bool) (n : Nat) (ws : List String) :
    (cut isTerm n ws).flatten = ws := by
  fun_induction cut isTerm n ws with
  | case1 => rfl
  | case2 w ws n ih => rw [List.flatten_cons, ih, List.cons_append, List.take_append_drop]

/-- A run of several words is a term. -/
theorem isTerm_of_mem_cut (h : run ∈ cut isTerm n ws) :
    run ≠ [] ∧ (1 < run.length → isTerm (" ".intercalate run) = true) := by
  fun_induction cut isTerm n ws with
  | case1 => cases h
  | case2 w ws k ih =>
    rcases List.mem_cons.mp h with rfl | h
    · refine ⟨List.cons_ne_nil _ _, fun hlength => ?_⟩
      have hpos : 0 < k := Nat.pos_of_ne_zero fun hzero => by simp [hzero] at hlength
      have hle : k ≤ n := by
        have : k ≤ ((ws.take n).map Follower.spaced).length := termLength_le
        simp only [List.length_map, List.length_take] at this
        omega
      have hterm : isTerm (phrase w (((ws.take n).map Follower.spaced).take k)) = true :=
        isTerm_of_termLength_pos hpos
      rwa [phrase_spaced, Nat.min_eq_left hle] at hterm
    · exact ih h

/-- **The longest term comes first**, if it is not too long, or else the first word alone. -/
theorem cut_append (hterm : run ≠ [] → isTerm (" ".intercalate (w :: run)) = true)
    (hlength : run.length ≤ n)
    (hlonger : ∀ k, run.length < k → k ≤ n → k ≤ (run ++ rest).length →
      isTerm (" ".intercalate (w :: (run ++ rest).take k)) = false) :
    cut isTerm n (w :: (run ++ rest)) = (w :: run) :: cut isTerm n rest := by
  have hcount : termLength isTerm w (((run ++ rest).take n).map .spaced) = run.length := by
    have hle : termLength isTerm w (((run ++ rest).take n).map .spaced) ≤
        (((run ++ rest).take n).map Follower.spaced).length := termLength_le
    simp only [List.length_map, List.length_take] at hle
    rcases Nat.lt_trichotomy (termLength isTerm w (((run ++ rest).take n).map .spaced)) run.length
      with hlt | heq | hlt
    · have hnot := not_isTerm_of_termLength_lt hlt (by simp; omega)
      have hne : run ≠ [] := List.ne_nil_of_length_pos (by omega)
      rw [phrase_spaced, Nat.min_eq_left hlength, List.take_left, hterm hne] at hnot
      cases hnot
    · exact heq
    · have hknown : isTerm (phrase w ((((run ++ rest).take n).map Follower.spaced).take
          (termLength isTerm w (((run ++ rest).take n).map .spaced)))) = true :=
        isTerm_of_termLength_pos (Nat.zero_lt_of_lt hlt)
      rw [phrase_spaced, Nat.min_eq_left (by omega), hlonger _ hlt (by omega) (by omega)] at hknown
      cases hknown
  rw [cut, hcount, List.take_left, List.drop_left]

end Cut

/-- The words of a sentence behind another word, and what follows it. -/
def spacedOut (ws : List String) (tail : List Char) : List Char :=
  ws.flatMap (' ' :: ·.toList) ++ '.' :: tail

theorem toList_intercalate_cons (w : String) (ws : List String) :
    (" ".intercalate (w :: ws)).toList = w.toList ++ ws.flatMap (' ' :: ·.toList) := by
  induction ws generalizing w with
  | nil => simp
  | cons next ws ih =>
    have hspace : " ".toList = [' '] := rfl
    rw [String.toList_intercalate, List.map_cons, List.map_cons, List.intercalate_cons_cons,
      ← List.map_cons, ← String.toList_intercalate, ih, hspace]
    simp

section Scanning

variable {w : String} {ws : List String} {tail : List Char} {line n : Nat}

theorem takeWhile_spacedOut (hw : IsPlain w) (ws : List String) (tail : List Char) :
    (w.toList ++ spacedOut ws tail).takeWhile isWordChar = w.toList := by
  have hspace : isWordChar ' ' = false := by decide
  have hdot : isWordChar '.' = false := by decide
  rw [List.takeWhile_append_of_pos hw.2]
  cases ws with
  | nil => simp [spacedOut, hdot]
  | cons next ws => simp [spacedOut, hspace]

theorem spacedOut_append (ws rest : List String) (tail : List Char) :
    spacedOut (ws ++ rest) tail = ws.flatMap (' ' :: ·.toList) ++ spacedOut rest tail := by
  simp [spacedOut]

/-- Nothing stands before a word. -/
theorem gap?_of_plain (hw : IsPlain w) (cs : List Char) : gap? (w.toList ++ cs) = some 0 := by
  obtain ⟨c, cs', hcs⟩ := List.exists_cons_of_ne_nil hw.1
  have hc : isWordChar c = true := hw.2 c (hcs ▸ List.mem_cons_self ..)
  have hbreak : c ≠ '\n' := by
    rintro rfl
    exact absurd hc (by decide)
  have hspace := not_isSpace_of_isWordChar hc
  rw [hcs, List.cons_append, gap?, if_neg (by simp [isGap, hspace, hbreak]), if_pos hc]

theorem gap?_spacedOut_cons (hw : IsPlain w) (ws : List String) (tail : List Char) :
    gap? (spacedOut (w :: ws) tail) = some 1 := by
  have htext : spacedOut (w :: ws) tail = ' ' :: (w.toList ++ spacedOut ws tail) := by
    simp [spacedOut]
  rw [htext, gap?, if_pos (by simp [isGap, isSpace]), gap?_of_plain hw]
  rfl

theorem followers_spacedOut (hws : ∀ w ∈ ws, IsPlain w) (tail : List Char) (n : Nat) :
    followers n (spacedOut ws tail) = (ws.take n).map .spaced := by
  induction n generalizing ws with
  | zero => rfl
  | succ n ih =>
    cases ws with
    | nil =>
      have hgap : gap? (spacedOut [] tail) = none := by
        change gap? ('.' :: tail) = none
        rw [gap?, if_neg (by simp [isGap, isSpace]), if_neg (by decide)]
      rw [followers, hgap]
      rfl
    | cons w ws =>
      obtain ⟨hw, hws⟩ := List.forall_mem_cons.mp hws
      have hdrop : (spacedOut (w :: ws) tail).drop 1 = w.toList ++ spacedOut ws tail := by
        simp [spacedOut]
      have hreach : (spacedOut (w :: ws) tail).drop (1 + w.toList.length) = spacedOut ws tail := by
        rw [← List.drop_drop, hdrop, List.drop_left]
      rw [followers, gap?_spacedOut_cons hw]
      dsimp only
      rw [hdrop, takeWhile_spacedOut hw, hreach, ih hws, String.ofList_toList, List.take_succ_cons,
        List.map_cons, Follower.spaced, String.length_toList, Nat.add_comm]

theorem reach_spaced (ws : List String) :
    (ws.map Follower.spaced).foldl (· + ·.reach) 0 = (ws.flatMap (' ' :: ·.toList)).length := by
  induction ws with
  | nil => rfl
  | cons w ws ih =>
    rw [List.map_cons, Scanner.foldl_reach_cons, ih, List.flatMap_cons, List.length_append]
    simp [Follower.spaced, String.length_toList]

theorem count_break_of_plain (hws : ∀ w ∈ ws, IsPlain w) :
    (ws.flatMap (' ' :: ·.toList)).count '\n' = 0 := by
  rw [List.count_eq_zero]
  intro hmem
  obtain ⟨w, hw, hmem⟩ := List.mem_flatMap.mp hmem
  rcases List.mem_cons.mp hmem with hspace | hmem
  · exact absurd hspace (by decide)
  · exact absurd ((hws w hw).2 _ hmem) (by decide)

/-- Behind one space a sentence is where it is. -/
theorem pastParagraph_spacedOut (hw : IsPlain w) (ws : List String) (tail : List Char)
    (line : Nat) : pastParagraph ⟨spacedOut (w :: ws) tail, line⟩ =
      ⟨spacedOut (w :: ws) tail, line⟩ := by
  obtain ⟨c, cs, hcs⟩ := List.exists_cons_of_ne_nil hw.1
  have hc : isWordChar c = true := hw.2 c (hcs ▸ List.mem_cons_self ..)
  have htext : spacedOut (w :: ws) tail = ' ' :: c :: (cs ++ spacedOut ws tail) := by
    simp [spacedOut, hcs]
  have hrest : ((⟨spacedOut (w :: ws) tail, line⟩ : Cursor).skipWhile isSpace).rest =
      c :: (cs ++ spacedOut ws tail) := by
    rw [rest_skipWhile, htext, List.dropWhile_cons_of_pos (by decide),
      List.dropWhile_cons_of_neg (by simp [not_isSpace_of_isWordChar hc])]
  unfold pastParagraph
  dsimp only
  rw [hrest]
  split
  · next heq =>
    obtain ⟨rfl, -⟩ := List.cons.inj heq
    exact absurd hc (by decide)
  · rfl

namespace Scanner

variable {l : Lexicon}

/-- The next run of words is the next token. -/
theorem readToken_phrase (hw : IsPlain w) (hws : ∀ w ∈ ws, IsPlain w) (l : Lexicon)
    (tail : List Char) (line n : Nat) :
    let k := termLength l.isTerm w ((ws.take n).map .spaced)
    readToken ⟨⟨w.toList ++ spacedOut ws tail, line⟩, n, none⟩ l =
      .ok (.ofWords (w :: ws.take k) line) ⟨⟨spacedOut (ws.drop k) tail, line⟩, n, none⟩ := by
  intro k
  obtain ⟨c, cs, hcs⟩ := List.exists_cons_of_ne_nil hw.1
  have hc : isWordChar c = true := hw.2 c (hcs ▸ List.mem_cons_self ..)
  have hrest : w.toList ++ spacedOut ws tail = c :: (cs ++ spacedOut ws tail) := by simp [hcs]
  have hrun : (⟨w.toList ++ spacedOut ws tail, line⟩ : Cursor).run isWordChar = w.toList :=
    takeWhile_spacedOut hw ws tail
  have hle : k ≤ n := by
    have : k ≤ ((ws.take n).map Follower.spaced).length := termLength_le
    simp only [List.length_map, List.length_take] at this
    omega
  have htaken : ((ws.take n).map Follower.spaced).take k = (ws.take k).map .spaced := by
    rw [← List.map_take, List.take_take, Nat.min_eq_left hle]
  have hsplit : w.toList ++ spacedOut ws tail =
      (w.toList ++ (ws.take k).flatMap (' ' :: ·.toList)) ++ spacedOut (ws.drop k) tail := by
    rw [List.append_assoc, ← spacedOut_append, List.take_append_drop]
  have hbreaks : (w.toList ++ (ws.take k).flatMap (' ' :: ·.toList)).count '\n' = 0 := by
    rw [List.count_append, count_break_of_plain fun w hw => hws w (List.mem_of_mem_take hw),
      List.count_eq_zero.mpr]
    intro hmem
    exact absurd (hw.2 _ hmem) (by decide)
  rw [readToken_of_word l hrest hc, readTerm]
  dsimp only
  rw [hrun, List.drop_left, followers_spacedOut hws, String.ofList_toList, htaken, reach_spaced]
  refine congrArg₂ EStateM.Result.ok ?_ ?_
  · simp [Token.ofWords, phrase, Function.comp_def, Follower.spaced]
  · rw [← List.length_append, Cursor.skip, hsplit, List.drop_left, List.take_left, hbreaks]
    rfl

theorem skipIdle_spacedOut_cons (hw : IsPlain w) (ws : List String) (tail : List Char)
    (line : Nat) :
    skipIdle ⟨spacedOut (w :: ws) tail, line⟩ =
      .ok () ⟨w.toList ++ spacedOut ws tail, line⟩ := by
  rw [skipIdle_of_gap? (gap?_spacedOut_cons hw ws tail)]
  simp [Cursor.skip, spacedOut]

/-- **A phrase is cut into its runs**, up to the period. -/
theorem sentence_spacedOut (hws : ∀ w ∈ ws, IsPlain w) (l : Lexicon) (tail : List Char)
    (line n : Nat) :
    sentence l ⟨⟨spacedOut ws tail, line⟩, n, none⟩ =
      .whole ((cut l.isTerm n ws).map (Token.ofWords · line) ++ [⟨.stop, ".", line⟩]) false
        ⟨pastParagraph ⟨tail, line⟩, n, none⟩ := by
  fun_induction cut l.isTerm n ws with
  | case1 =>
    have hidle : skipIdle ⟨spacedOut [] tail, line⟩ = .ok () ⟨spacedOut [] tail, line⟩ := by
      change skipIdle ⟨'.' :: tail, line⟩ = .ok () ⟨'.' :: tail, line⟩
      rw [skipIdle_cons rfl, if_neg (by simp [isGap, isSpace]), if_neg (by decide)]
    have hscan : scan l ⟨⟨spacedOut [] tail, line⟩, n, none⟩ =
        .ok ⟨.stop, ".", line⟩ ⟨pastParagraph ⟨tail, line⟩, n, none⟩ := by
      rw [scan_of_idle rfl hidle]
      rfl
    rw [sentence_of_scan hscan, if_neg (by simp), if_pos rfl]
    rfl
  | case2 w ws k ih =>
    obtain ⟨hw, hws⟩ := List.forall_mem_cons.mp hws
    have hscan := (scan_of_idle (s := ⟨⟨spacedOut (w :: ws) tail, line⟩, n, none⟩) rfl
      (skipIdle_spacedOut_cons hw ws tail line)).trans (readToken_phrase hw hws l tail line n)
    have hverbal : (Token.ofWords (w :: ws.take k) line).isVerbal = true :=
      Token.isVerbal_ofWord (by simp only [Token.ofWords])
    rw [sentence_of_scan hscan, if_neg, if_neg, ih fun w hw => hws w (List.mem_of_mem_drop hw)]
    · rfl
    · intro hstop
      rw [Token.isVerbal, hstop] at hverbal
      simp at hverbal
    · intro hfinish
      rw [Token.isVerbal, hfinish] at hverbal
      simp at hverbal

/-- A sentence may stand at the beginning of a text or behind a space. -/
theorem sentence_phrase (hw : IsPlain w) (hws : ∀ w ∈ ws, IsPlain w) (l : Lexicon)
    (tail : List Char) (line n : Nat) :
    sentence l ⟨⟨w.toList ++ spacedOut ws tail, line⟩, n, none⟩ =
      sentence l ⟨⟨spacedOut (w :: ws) tail, line⟩, n, none⟩ := by
  have hread := readToken_phrase hw hws l tail line n
  have hidle : skipIdle ⟨w.toList ++ spacedOut ws tail, line⟩ =
      .ok () ⟨w.toList ++ spacedOut ws tail, line⟩ := by
    rw [skipIdle_of_gap? (gap?_of_plain hw _)]
    simp [Cursor.skip]
  have hscan := (scan_of_idle (s := ⟨⟨w.toList ++ spacedOut ws tail, line⟩, n, none⟩) rfl
    hidle).trans hread
  have hscan' := (scan_of_idle (s := ⟨⟨spacedOut (w :: ws) tail, line⟩, n, none⟩) rfl
    (skipIdle_spacedOut_cons hw ws tail line)).trans hread
  rw [sentence_of_scan hscan, sentence_of_scan hscan']

end Scanner

end Scanning

end Adventure.Prose
