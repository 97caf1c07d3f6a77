/-
The case of letters in prose: what sentences say.

A sentence in small letters says the same with its names in small letters.  Words are
recognised by a lowercase form, which is the same for a token and its lowered one; only where
a token is quoted, or becomes part of a name, does its text itself go into what is said.  Quoted
tokens are lowered to themselves, and names are gathered from words alone.  So each reader
commutes with lowering the tokens, shown one after the other, the later ones from those that
they call.
-/
import Adventure.Proofs.Prose.Casing
import Adventure.Proofs.Prose.Sentences

namespace Adventure.Prose

variable {t : Token} {ts before : List Token} {l : Lexicon}

/-! ### Lowered facts -/

/-- The same name in small letters. -/
def Mention.lowered (m : Mention) : Mention :=
  ⟨m.name.toLower, m.line⟩

/-- In small letters a name stands for the same thing. -/
@[simp] theorem Mention.lower_name_lowered (m : Mention) :
    Text.lower m.lowered.name = Text.lower m.name :=
  Text.lower_toLower m.name

/-- What a sentence says when it is written in small letters. -/
def Fact.lowered : Fact → Fact
  | .author name => .author name.toLower
  | .subjects things => .subjects (things.map Mention.lowered)
  | .placement p target line => .placement p target.lowered line
  | .descriptionOf thing text => .descriptionOf thing.lowered text
  | .location room direction origin line => .location room.lowered direction origin.lowered line
  | .newKinds names parent => .newKinds (names.map Mention.lowered) parent
  | fact => fact

/-- What is wrong with a sentence when it is written in small letters. -/
def Flaw.lowered : Flaw → Flaw
  | .unexpected found expected => .unexpected found.lowered expected
  | .worldly word line => .worldly word.toLower line
  | .unknown word line => .unknown word.toLower line
  | flaw => flaw

/-- What comes of reading a sentence when it is written in small letters. -/
def Reading.lowered (r : Reading) : Reading :=
  ⟨r.facts.map Fact.lowered, r.flaw.map Flaw.lowered⟩

theorem Reading.lowered_after (r : Reading) (fact : Fact) :
    (r.after fact).lowered = r.lowered.after fact.lowered :=
  rfl

/-- What a reader gives, or why it gives nothing, in small letters. -/
def lowerRead {α : Type} (f : α → α) : Except Flaw α → Except Flaw α
  | .ok a => .ok (f a)
  | .error flaw => .error flaw.lowered

/-! ### Words -/

theorem Token.text_lowered_of_word (h : t.kind = .word) : t.lowered.text = t.text.toLower := by
  rw [Token.lowered, if_neg (by rw [h]; decide)]

/-- A question about words that case does not matter to. -/
theorem Token.apply_text_lowered {α : Type} {f : String → α} (hf : ∀ s : String, f s.toLower = f s)
    (t : Token) : f t.lowered.text = f t.text := by
  unfold Token.lowered
  split
  · rfl
  · exact hf t.text

theorem Token.isWord_lowered (t : Token) (word : String) :
    t.lowered.isWord word = t.isWord word := by
  rw [Token.isWord, Token.isWord, Token.kind_lowered,
    Token.apply_text_lowered Text.toLower_toLower_text]

theorem Token.endsSentence_lowered (t : Token) : t.lowered.endsSentence = t.endsSentence := by
  rw [Token.endsSentence, Token.endsSentence, Token.kind_lowered]

/-! ### Names -/

theorem ofWords_lowered {first : Token} {more : List Token}
    (h : ∀ w ∈ first :: more, w.kind = .word) :
    Mention.ofWords first.lowered (more.map Token.lowered) =
      (Mention.ofWords first more).lowered := by
  have htexts : (first.lowered :: more.map Token.lowered).map (·.text) =
      ((first :: more).map (·.text)).map String.toLower := by
    rw [← List.map_cons, List.map_map, List.map_map]
    exact List.map_congr_left fun w hw => Token.text_lowered_of_word (h w hw)
  rw [Mention.ofWords, Mention.ofWords, Mention.lowered, htexts, Text.toLower_intercalate,
    Token.line_lowered]

theorem readName_lowered_of_words (before : List Token) (hbefore : ∀ w ∈ before, w.kind = .word)
    (ts : List Token) :
    readName (before.map Token.lowered) (ts.map Token.lowered) =
      lowerRead Mention.lowered (readName before ts) := by
  induction ts generalizing before with
  | nil => rfl
  | cons t ts ih =>
    -- nothing but words is put aside for the name
    have hmore : t.kind = .word → ∀ w ∈ before ++ [t], w.kind = .word :=
      forall_mem_append_singleton hbefore
    rw [List.map_cons]
    unfold readName
    rw [Token.kind_lowered]
    cases hkind : t.kind with
    | article => exact ih before hbefore
    | word =>
      have hnext := ih (before ++ [t]) (hmore hkind)
      rwa [List.map_append] at hnext
    | stop | finish =>
      cases before with
      | nil => rfl
      | cons first more =>
        simp only [List.map_cons]
        rw [ofWords_lowered hbefore]
        rfl
    | _ => rfl

theorem readName_lowered (ts : List Token) :
    readName [] (ts.map Token.lowered) = lowerRead Mention.lowered (readName [] ts) :=
  readName_lowered_of_words [] (fun _ hw => nomatch hw) ts

theorem readSubjects_lowered (done : List Mention) (before : List Token) (afterComma : Bool)
    (hbefore : ∀ w ∈ before, w.kind = .word) (ts : List Token) :
    readSubjects (done.map Mention.lowered) (before.map Token.lowered) afterComma
        (ts.map Token.lowered) =
      lowerRead (fun r => (r.1.map Mention.lowered, r.2.map Token.lowered))
        (readSubjects done before afterComma ts) := by
  induction ts generalizing done before afterComma with
  | nil => rfl
  | cons t ts ih =>
    have hmore : t.kind = .word → ∀ w ∈ before ++ [t], w.kind = .word :=
      forall_mem_append_singleton hbefore
    have hnone : ∀ w ∈ ([] : List Token), w.kind = .word := fun _ hw => nomatch hw
    rw [List.map_cons]
    unfold readSubjects
    rw [Token.kind_lowered]
    cases hkind : t.kind with
    | article => exact ih done before afterComma hbefore
    | word =>
      have hnext := ih done (before ++ [t]) false (hmore hkind)
      rwa [List.map_append] at hnext
    | comma =>
      cases before with
      | nil => rfl
      | cons first more =>
        have hnext := ih (done ++ [.ofWords first more]) [] true hnone
        rw [List.map_append, List.map_singleton, ← ofWords_lowered hbefore] at hnext
        exact hnext
    | conjunction =>
      cases before with
      | nil =>
        cases afterComma with
        | true => exact ih done [] false hnone
        | false => rfl
      | cons first more =>
        have hnext := ih (done ++ [.ofWords first more]) [] false hnone
        rw [List.map_append, List.map_singleton, ← ofWords_lowered hbefore] at hnext
        exact hnext
    | equality =>
      cases before with
      | nil => rfl
      | cons first more =>
        simp only [List.map_cons]
        rw [ofWords_lowered hbefore]
        simp only [lowerRead, pure, Except.pure, List.map_append, List.map_singleton]
    | _ => rfl

theorem endFlaw?_lowered (ts : List Token) :
    endFlaw? (ts.map Token.lowered) = (endFlaw? ts).map Flaw.lowered := by
  cases ts with
  | nil => rfl
  | cons t ts =>
    rw [List.map_cons, endFlaw?, endFlaw?, Token.endsSentence_lowered]
    cases t.endsSentence <;> rfl

theorem skipArticles_lowered (ts : List Token) :
    skipArticles (ts.map Token.lowered) = (skipArticles ts).map Token.lowered := by
  rw [skipArticles, skipArticles, List.dropWhile_map]
  simp only [Function.comp_def, Token.kind_lowered]

/-! ### What is said of the subjects -/

theorem ofWord_lowered (l : Lexicon) (negated : Bool) (h : t.kind = .word) :
    Predicate.ofWord l negated t.lowered = lowerRead id (Predicate.ofWord l negated t) := by
  have hword : t.lowered.text.toLower = t.text.toLower :=
    Token.apply_text_lowered Text.toLower_toLower_text t
  have hworldly : isWorldly t.lowered.text = isWorldly t.text :=
    Token.apply_text_lowered isWorldly_toLower t
  have hproperty : Property.ofName? t.lowered.text = Property.ofName? t.text :=
    Token.apply_text_lowered ofName?_toLower t
  have hkind : l.kind? t.lowered.text = l.kind? t.text :=
    Token.apply_text_lowered (kind?_toLower l) t
  unfold Predicate.ofWord
  simp only [hword, hworldly, hproperty, hkind, Token.line_lowered]
  split
  · split <;> rfl
  · split
    · split <;> rfl
    · split
      · rw [Token.text_lowered_of_word h]
        rfl
      · split
        · rfl
        · split
          · rfl
          · rw [Token.text_lowered_of_word h]
            rfl

theorem readPlacement_lowered (p : Preposition) (line : Nat) (ts : List Token) :
    readPlacement p line (ts.map Token.lowered) = (readPlacement p line ts).lowered := by
  unfold readPlacement
  rw [readName_lowered]
  cases readName [] ts <;> rfl

theorem Token.lowered_of_quoted (h : t.kind = .quoted) : t.lowered = t := by
  rw [Token.lowered, if_pos h]

theorem readDefinition_lowered (l : Lexicon) (several negated started : Bool) (ts : List Token) :
    readDefinition l several negated started (ts.map Token.lowered) =
      (readDefinition l several negated started ts).lowered := by
  induction ts generalizing negated started with
  | nil => rfl
  | cons t ts ih =>
    rw [List.map_cons]
    unfold readDefinition
    rw [Token.kind_lowered]
    cases hkind : t.kind with
    | article | comma | conjunction => exact ih negated started
    | stop | finish =>
      dsimp only
      split <;> rfl
    | quoted =>
      rw [Token.lowered_of_quoted hkind, endFlaw?_lowered]
      dsimp only
      split
      · rw [Reading.lowered, Reading.flawed]
        simp [Flaw.lowered, Token.lowered_of_quoted hkind]
      · split <;> rfl
    | word =>
      dsimp only
      rw [ofWord_lowered l negated hkind]
      cases Predicate.ofWord l negated t with
      | error f => rfl
      | ok predicate =>
        cases predicate with
        | negation => exact ih true started
        | placement p =>
          rw [Token.line_lowered]
          exact readPlacement_lowered p t.line ts
        | property p =>
          simp only [lowerRead, id, ih, Token.line_lowered]
          rfl
        | kind k =>
          simp only [lowerRead, id, ih, Token.line_lowered]
          rfl
    | _ => rfl

theorem readLocation_lowered (subjects : List Mention) (direction : Token) (ts : List Token) :
    readLocation (subjects.map Mention.lowered) direction.lowered (ts.map Token.lowered) =
      (readLocation subjects direction ts).lowered := by
  have hdirection : Text.lower direction.lowered.text = Text.lower direction.text :=
    Token.apply_text_lowered Text.lower_toLower direction
  cases subjects with
  | nil =>
    simp only [List.map_nil, readLocation, Token.line_lowered]
    rfl
  | cons room others =>
    cases others with
    | nil =>
      cases ts with
      | nil => rfl
      | cons t ts =>
        simp only [List.map_cons, List.map_nil, readLocation, Token.isWord_lowered,
          readName_lowered, hdirection, Token.line_lowered]
        split
        · cases readName [] ts <;> rfl
        · rfl
    | cons second others =>
      simp only [List.map_cons, readLocation, Token.line_lowered]
      rfl

theorem readNewKinds_lowered (l : Lexicon) (subjects : List Mention) (ts : List Token) :
    readNewKinds l (subjects.map Mention.lowered) (ts.map Token.lowered) =
      (readNewKinds l subjects ts).lowered := by
  cases ts with
  | nil => rfl
  | cons t ts =>
    simp only [List.map_cons, readNewKinds, Token.isWord_lowered, skipArticles_lowered]
    split
    · rfl
    · cases skipArticles ts with
      | nil => rfl
      | cons kind ts =>
        have hkind : l.kind? kind.lowered.text = l.kind? kind.text :=
          Token.apply_text_lowered (kind?_toLower l) kind
        simp only [List.map_cons, hkind, Token.kind_lowered, endFlaw?_lowered]
        cases (l.kind? kind.text).filter fun _ => kind.kind = .word with
        | none => rfl
        | some parent => cases endFlaw? ts <;> rfl

theorem readEquality_lowered (l : Lexicon) (subjects : List Mention) (ts : List Token) :
    readEquality l (subjects.map Mention.lowered) (ts.map Token.lowered) =
      (readEquality l subjects ts).lowered := by
  rw [readEquality, readEquality, skipArticles_lowered]
  cases skipArticles ts with
  | nil => rfl
  | cons t ts =>
    have hdirection : l.isDirection t.lowered.text = l.isDirection t.text :=
      Token.apply_text_lowered (isDirection_toLower l) t
    simp only [List.map_cons, Token.isWord_lowered, Token.kind_lowered, hdirection,
      List.length_map]
    split
    · exact readNewKinds_lowered l subjects ts
    · rw [Reading.lowered_after, ← List.map_cons]
      split
      · rw [readLocation_lowered]
        rfl
      · rw [readDefinition_lowered]
        rfl

theorem describedThing?_lowered (things : List Mention) :
    describedThing? (things.map Mention.lowered) =
      (describedThing? things).map Mention.lowered := by
  cases things with
  | nil => rfl
  | cons m others =>
    cases others with
    | cons second others => rfl
    | nil =>
      simp only [List.map_cons, List.map_nil, describedThing?, Mention.lower_name_lowered,
        Option.map_map]
      cases hrest : "description of ".toList.isPrefixOf? (Text.lower m.name).toList with
      | none => rfl
      | some rest =>
        have hsplit := List.isPrefixOf?_eq_some_iff_append_eq.mp hrest
        have hcapitals := Text.toLower_lower m.name
        rw [← String.toList_inj, Text.toList_toLower, ← hsplit, List.map_append] at hcapitals
        have hsame : rest.map Char.toLower = rest := (List.append_inj' hcapitals (by simp)).2
        simp only [Option.map_some, Function.comp_def, Mention.lowered, Text.toLower_ofList, hsame]

theorem readStatement_lowered (l : Lexicon) (ts : List Token) :
    readStatement l (ts.map Token.lowered) = (readStatement l ts).lowered := by
  have hsubjects := readSubjects_lowered [] [] false (fun _ hw => nomatch hw) ts
  rw [List.map_nil, List.map_nil] at hsubjects
  rw [readStatement, readStatement, hsubjects]
  cases readSubjects [] [] false ts with
  | error f => rfl
  | ok r =>
    obtain ⟨subjects, rest⟩ := r
    simp only [lowerRead, describedThing?_lowered]
    cases describedThing? subjects with
    | none => exact readEquality_lowered l subjects rest
    | some thing =>
      cases rest with
      | nil => rfl
      | cons t rest =>
        simp only [Option.map_some, List.map_cons, Token.kind_lowered, endFlaw?_lowered]
        split
        · rename_i hquoted
          rw [Token.lowered_of_quoted hquoted]
          rfl
        · rfl

/-! ### Whole sentences -/

theorem readAuthor_lowered (ts : List Token) :
    readAuthor (ts.map Token.lowered) = (readAuthor ts).lowered := by
  cases ts with
  | nil => rfl
  | cons t rest =>
    have hend := endFlaw?_lowered (t :: rest)
    rw [List.map_cons] at hend ⊢
    simp only [readAuthor, Token.isWord_lowered, readName_lowered, hend]
    split
    · cases readName [] rest <;> rfl
    · rfl

/-- **Reading a sentence written in small letters gives the same facts with the names in small
letters.** -/
theorem readTokens_lowered (l : Lexicon) (opening : Bool) (ts : List Token) :
    readTokens l opening (ts.map Token.lowered) = (readTokens l opening ts).lowered := by
  cases ts with
  | nil => rfl
  | cons t ts =>
    rw [List.map_cons, readTokens, readTokens, Token.endsSentence_lowered, Token.kind_lowered]
    split
    · rfl
    · split
      · rename_i hquoted
        rw [Token.lowered_of_quoted hquoted, readAuthor_lowered, endFlaw?_lowered]
        split
        · rw [Reading.lowered_after]
          rfl
        · rfl
      · rw [← List.map_cons]
        exact readStatement_lowered l (t :: ts)

end Adventure.Prose
