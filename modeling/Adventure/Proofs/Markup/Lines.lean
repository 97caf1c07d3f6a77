/-
The lines of markup.

What comes before a token is blank text, comments, instructions and declarations; then the token
stands in the text as it is written.  Only the end of an element that closes itself is not
written: it is owed from the two characters on that end its tag.

Each reader moves its cursor over what it read.  So the line of a token is told by what lies
before its first character, and the line of the scanner by what it has passed.
-/
import Adventure.Proofs.Markup.Comments
import Adventure.Proofs.Passages

namespace Adventure.Markup

open Text (Cursor)

variable {c d : Cursor} {cs before place passed rest : List Char} {name tag : String}

/-! ### What is written -/

/-- What is passed over before a token: blank text up to the next bracket, and comments,
instructions and declarations, each up to the first occurrence of what ends it. -/
inductive Skipped : List Char → List Char → Prop
  | nil {rest : List Char} : Skipped [] rest
  | blank {blanks cs rest : List Char} (hne : blanks ≠ []) (hblanks : Gap blanks)
    (hend : ∀ ch ∈ (cs ++ rest).head?, ch = '<') (h : Skipped cs rest) :
    Skipped (blanks ++ cs) rest
  | aside {inside cs rest : List Char} {ending : String} {line : Nat}
    (hpiece : (Piece.next ⟨inside ++ ending.toList ++ (cs ++ rest), line⟩).ending? = some ending)
    (hfirst : ¬ ending.toList <:+: inside ++ ending.toList.dropLast) (h : Skipped cs rest) :
    Skipped (inside ++ ending.toList ++ cs) rest

/-- How a token is written, before the rest of the text. -/
inductive Token.Written : Token → List Char → List Char → Prop
  | opening {name : String} {attributes : List (String × String)} {depth line : Nat}
    {inside rest : List Char} (closed : Bool) :
    Written (.opening name attributes depth line)
      ('<' :: (name.toList ++ (inside ++ tagEnd closed))) rest
  | closing {name : String} {depth line : Nat} {gap rest : List Char} (hgap : Gap gap) :
    Written (.closing name depth line) ("</".toList ++ (name.toList ++ (gap ++ ['>']))) rest
  | text {raw content rest : List Char} {depth line : Nat} (hraw : '<' ∉ raw)
    (hsolid : raw.all Text.isBlank = false) (hcontent : decode raw = .ok content)
    (hend : ∀ ch ∈ rest.head?, ch = '<') :
    Written (.text (String.ofList content) depth line) raw rest
  | characterData {content rest : List Char} {depth line : Nat}
    (hfirst : ¬ "]]>".toList <:+: content ++ "]]>".toList.dropLast) :
    Written (.text (String.ofList content) depth line)
      ("<![CDATA[".toList ++ (content ++ "]]>".toList)) rest
  | finish {line : Nat} : Written (.finish line) [] []

/-! ### Readers move over what they read -/

theorem over_scanName (h : scanName c = .ok name d) : c.Over name.toList d := by
  unfold scanName at h
  dsimp only at h
  split at h
  · cases h
  · obtain ⟨rfl, rfl⟩ := EStateM.Result.ok.inj h
    rw [String.toList_ofList]
    exact Cursor.over_skipWhile c isNameChar

theorem over_skipBlanks {u : Unit} (h : skipBlanks c = .ok u d) :
    ∃ gap, c.Over gap d ∧ Gap gap := by
  obtain ⟨-, rfl⟩ := EStateM.Result.ok.inj h
  exact ⟨_, Cursor.over_skipWhile c Text.isBlank, fun ch hch => List.mem_takeWhile_imp hch⟩

theorem over_expect {expected : Char} {f : LexFault} {u : Unit}
    (h : expect expected f c = .ok u d) : c.Over [expected] d := by
  unfold expect at h
  split at h
  · next hhead =>
    obtain ⟨rest, hrest⟩ := List.head?_eq_some_iff.mp hhead
    obtain ⟨-, rfl⟩ := EStateM.Result.ok.inj h
    exact Cursor.over_skip hrest
  · cases h

theorem over_scanQuoted {value : String} (h : scanQuoted c = .ok value d) :
    ∃ cs, c.Over cs d := by
  unfold scanQuoted at h
  dsimp only at h
  split at h
  · cases h
  · split at h
    · cases h
    · split at h
      · cases h
      · obtain ⟨-, rfl⟩ := EStateM.Result.ok.inj h
        exact ⟨_, (Cursor.over_take _ _).trans (Cursor.over_take _ _)⟩

theorem over_scanAttribute {a : String × String} (h : scanAttribute tag c = .ok a d) :
    ∃ cs, c.Over cs d := by
  obtain ⟨key, c₁, hkey, h⟩ := run_bind_ok_iff.mp h
  obtain ⟨_, c₂, hbefore, h⟩ := run_bind_ok_iff.mp h
  obtain ⟨_, c₃, hequals, h⟩ := run_bind_ok_iff.mp h
  obtain ⟨_, c₄, hafter, h⟩ := run_bind_ok_iff.mp h
  obtain ⟨value, c₅, hvalue, h⟩ := run_bind_ok_iff.mp h
  obtain ⟨-, rfl⟩ := EStateM.Result.ok.inj h
  obtain ⟨before, hbefore, -⟩ := over_skipBlanks hbefore
  obtain ⟨after, hafter, -⟩ := over_skipBlanks hafter
  obtain ⟨quoted, hquoted⟩ := over_scanQuoted hvalue
  exact ⟨_, (over_scanName hkey).trans <| hbefore.trans <| (over_expect hequals).trans <|
    hafter.trans hquoted⟩

theorem over_startsWith {text : String} (h : c.startsWith text = true) :
    c.Over text.toList (c.skip text.length) := by
  obtain ⟨rest, hrest⟩ := List.isPrefixOf_iff_prefix.mp h
  exact Cursor.over_skip hrest.symm

theorem over_scanAttributes {attributes before : List (String × String)} {closed : Bool}
    (h : scanAttributes tag before c = .ok (attributes, closed) d) :
    ∃ inside, c.Over (inside ++ tagEnd closed) d := by
  fun_induction scanAttributes tag before c with
  | case1 before c here hend =>
    obtain ⟨hresult, rfl⟩ := EStateM.Result.ok.inj h
    obtain ⟨-, rfl⟩ := Prod.mk.inj hresult
    exact ⟨_, (Cursor.over_skipWhile c Text.isBlank).trans (over_startsWith hend)⟩
  | case2 before c here _ hend =>
    obtain ⟨hresult, rfl⟩ := EStateM.Result.ok.inj h
    obtain ⟨-, rfl⟩ := Prod.mk.inj hresult
    exact ⟨_, (Cursor.over_skipWhile c Text.isBlank).trans (over_startsWith hend)⟩
  | case3 | case4 => cases h
  | case5 before c here _ _ key value e he _ ih =>
    obtain ⟨first, hfirst⟩ := over_scanAttribute he
    obtain ⟨inside, hinside⟩ := ih h
    refine ⟨c.run Text.isBlank ++ (first ++ inside), ?_⟩
    rw [List.append_assoc, List.append_assoc]
    exact (Cursor.over_skipWhile c Text.isBlank).trans (hfirst.trans hinside)

/-- An opening tag is read from its bracket to its end. -/
theorem over_scanOpening {attributes : List (String × String)} {closed : Bool}
    (hbegins : c.rest = '<' :: rest) (h : scanOpening c = .ok (name, attributes, closed) d) :
    ∃ inside, c.Over ('<' :: (name.toList ++ (inside ++ tagEnd closed))) d := by
  rw [scanOpening, modify_bind] at h
  obtain ⟨found, c₁, hname, h⟩ := run_bind_ok_iff.mp h
  obtain ⟨⟨read, ends⟩, c₂, hattributes, h⟩ := run_bind_ok_iff.mp h
  obtain ⟨hresult, rfl⟩ := EStateM.Result.ok.inj h
  obtain ⟨rfl, hinner⟩ := Prod.mk.inj hresult
  obtain ⟨rfl, rfl⟩ := Prod.mk.inj hinner
  obtain ⟨inside, hinside⟩ := over_scanAttributes hattributes
  have hbracket : c.Over ['<'] (c.skip 1) := Cursor.over_skip hbegins
  exact ⟨inside, hbracket.trans ((over_scanName hname).trans hinside)⟩

/-- A closing tag is read from its bracket to its end. -/
theorem over_scanClosing (hbegins : c.rest = "</".toList ++ rest)
    (h : scanClosing c = .ok name d) :
    ∃ gap, Gap gap ∧ c.Over ("</".toList ++ (name.toList ++ (gap ++ ['>']))) d := by
  rw [scanClosing, modify_bind] at h
  obtain ⟨found, c₁, hname, h⟩ := run_bind_ok_iff.mp h
  obtain ⟨_, c₂, hgap, h⟩ := run_bind_ok_iff.mp h
  obtain ⟨_, c₃, hend, h⟩ := run_bind_ok_iff.mp h
  obtain ⟨rfl, rfl⟩ := EStateM.Result.ok.inj h
  obtain ⟨gap, hover, hgap⟩ := over_skipBlanks hgap
  have hbrackets : c.Over "</".toList (c.skip 2) := Cursor.over_skip hbegins
  exact ⟨gap, hgap, hbrackets.trans ((over_scanName hname).trans (hover.trans (over_expect hend)))⟩

/-! ### The scanner -/

namespace Scanner

variable {s t : Scanner} {token : Token} {first : Nat}

/-- The token that a scanner hands out next begins behind a place.  It is written there, behind
what is passed over; or it is owed, and the place is where the tag ends that it is owed for. -/
inductive Begins (before : List Char) (s : Scanner) (token : Token) (t : Scanner) :
    List Char → Prop
  | written {passed written : List Char} (howed : s.owed = none)
    (hrest : s.cursor.rest = passed ++ (written ++ t.cursor.rest))
    (hpassed : Skipped passed (written ++ t.cursor.rest))
    (hwritten : token.Written written t.cursor.rest) : Begins before s token t (before ++ passed)
  | owed {place : List Char} (howed : s.owed = some token) (hcursor : t.cursor = s.cursor)
    (hclosing : ∃ name depth line, token = .closing name depth line)
    (hbefore : before = place ++ "/>".toList) : Begins before s token t place

/-- The scanner's line is told by what it has passed of a text that begins on some line, and so is
the line of what it owes. -/
structure Lined (first : Nat) (before : List Char) (s : Scanner) : Prop where
  line : s.cursor.line = first + before.count '\n'
  owed : ∀ token ∈ s.owed, ∃ place name depth, before = place ++ "/>".toList ∧
    token = .closing name depth (first + place.count '\n')

/-- Where nothing is owed the line says all. -/
theorem lined_of_line (howed : s.owed = none) (hline : s.cursor.line = first + before.count '\n') :
    s.Lined first before where
  line := hline
  owed := by
    rw [howed]
    exact nofun

/-- Wherever a scanner stands, a text may begin there. -/
theorem lined_here (howed : s.owed = none) : s.Lined s.cursor.line [] :=
  lined_of_line howed rfl

theorem lined_ofSource (source : String) : (ofSource source).Lined 1 [] :=
  lined_of_line rfl rfl

theorem Lined.line_over (hs : s.Lined first before) (hover : s.cursor.Over cs d) :
    d.line = first + (before ++ cs).count '\n' := by
  rw [hover.line, hs.line, List.count_append, Nat.add_assoc]

theorem Lined.over (hs : s.Lined first before) (hover : s.cursor.Over cs t.cursor)
    (howed : t.owed = none) : t.Lined first (before ++ cs) :=
  lined_of_line howed (hs.line_over hover)

/-- A token is read from its first character on. -/
def Reads (first : Nat) (before : List Char) (s : Scanner) (token : Token) (t : Scanner) : Prop :=
  ∃ written, s.cursor.Over written t.cursor ∧ token.Written written t.cursor.rest ∧
    token.line = s.cursor.line ∧ t.Lined first (before ++ written)

theorem reads_openElement (hs : s.Lined first before) (howed : s.owed = none)
    (hbegins : s.cursor.rest = '<' :: rest) (h : s.openElement = .ok token t) :
    Reads first before s token t := by
  unfold openElement at h
  dsimp only at h
  split at h
  · cases h
  · split at h
    · cases h
    · next name attributes closed cursor hscan =>
      obtain ⟨inside, hover⟩ := over_scanOpening hbegins hscan
      obtain ⟨rfl, rfl⟩ := EStateM.Result.ok.inj h
      cases closed with
      | false => exact ⟨_, hover, .opening false, rfl, hs.over hover howed⟩
      | true =>
        refine ⟨_, hover, .opening true, rfl, hs.line_over hover, ?_⟩
        intro owed hmem
        obtain rfl := Option.some.inj hmem
        refine ⟨before ++ '<' :: (name.toList ++ inside), name, s.opened.length, ?_, ?_⟩
        · simp [tagEnd]
        · -- the two characters at the end of the tag break no line
          have hend : '<' :: (name.toList ++ (inside ++ tagEnd true)) =
              '<' :: (name.toList ++ inside) ++ "/>".toList := by simp [tagEnd]
          rw [hs.line_over hover, hend, ← List.append_assoc, List.count_append]
          rfl

theorem reads_closeElement (hs : s.Lined first before) (howed : s.owed = none)
    (hbegins : s.cursor.rest = "</".toList ++ rest) (h : s.closeElement = .ok token t) :
    Reads first before s token t := by
  unfold closeElement at h
  dsimp only at h
  split at h
  · cases h
  · next name cursor hscan =>
    obtain ⟨gap, hgap, hover⟩ := over_scanClosing hbegins hscan
    split at h
    · cases h
    · split at h
      · obtain ⟨rfl, rfl⟩ := EStateM.Result.ok.inj h
        exact ⟨_, hover, .closing hgap, rfl, hs.over hover howed⟩
      · cases h

theorem reads_characterData (hs : s.Lined first before) (howed : s.owed = none)
    (hbegins : s.cursor.rest = "<![CDATA[".toList ++ rest)
    (h : s.readCharacterData = .ok token t) : Reads first before s token t := by
  unfold readCharacterData at h
  dsimp only at h
  split at h
  · cases h
  · next n hn =>
    have hopen : s.cursor.Over "<![CDATA[".toList (s.cursor.skip "<![CDATA[".length) :=
      Cursor.over_skip hbegins
    obtain ⟨content, behind, hrest, rfl, hfirst⟩ := Text.append_of_position? (by decide) hn
    rw [hrest, List.take_left] at h
    have hdata : (s.cursor.skip "<![CDATA[".length).Over (content ++ "]]>".toList)
        ((s.cursor.skip "<![CDATA[".length).skip (content ++ "]]>".toList).length) :=
      Cursor.over_skip (by rw [hrest, List.append_assoc])
    rw [List.length_append] at hdata
    obtain rfl := eq_of_giveText h
    rw [text_of_giveText h]
    exact ⟨_, hopen.trans hdata, .characterData hfirst, rfl, hs.over (hopen.trans hdata) howed⟩

/-- A token is read behind what is passed over. -/
def ReadsBehind (first : Nat) (before : List Char) (s : Scanner) (token : Token) (t : Scanner) :
    Prop :=
  ∃ passed written, s.cursor.rest = passed ++ (written ++ t.cursor.rest) ∧
    Skipped passed (written ++ t.cursor.rest) ∧ token.Written written t.cursor.rest ∧
    token.line = first + (before ++ passed).count '\n' ∧ t.Lined first (before ++ passed ++ written)

theorem Reads.behind (hs : s.Lined first before) (h : Reads first before s token t) :
    ReadsBehind first before s token t := by
  obtain ⟨written, hover, hwritten, hline, ht⟩ := h
  refine ⟨[], written, hover.rest, .nil, hwritten, ?_, ?_⟩
  · rw [hline, hs.line, List.append_nil]
  · rwa [List.append_nil]

/-- One more thing is passed over before the token. -/
theorem ReadsBehind.skipped {cursor : Cursor} (hover : s.cursor.Over cs cursor)
    (h : ReadsBehind first (before ++ cs) { s with cursor } token t)
    (hskipped : ∀ {passed rest}, cursor.rest = passed ++ rest → Skipped passed rest →
      Skipped (cs ++ passed) rest) : ReadsBehind first before s token t := by
  obtain ⟨passed, written, hrest, hpassed, hwritten, hline, ht⟩ := h
  refine ⟨cs ++ passed, written, ?_, hskipped hrest hpassed, hwritten, ?_, ?_⟩
  · rw [hover.rest, hrest, List.append_assoc]
  · rw [hline, List.append_assoc]
  · rwa [List.append_assoc before] at ht

/-- A comment, an instruction or a declaration is passed over up to its end. -/
theorem ReadsBehind.aside {ending : String} {cursor : Cursor} (hs : s.Lined first before)
    (howed : s.owed = none) (hpiece : (Piece.next s.cursor).ending? = some ending)
    (hne : ending.toList ≠ []) (hpast : s.cursor.past? ending = some cursor)
    (ih : ∀ {before}, Lined first before { s with cursor } →
      ReadsBehind first before { s with cursor } token t) :
    ReadsBehind first before s token t := by
  obtain ⟨inside, hover, hfirst⟩ := Cursor.over_past? hne hpast
  refine .skipped hover (ih (hs.over hover howed)) fun {passed rest} hrest h => ?_
  have hnext : (Piece.next ⟨inside ++ ending.toList ++ (passed ++ rest), s.cursor.line⟩).ending? =
      some ending := by rwa [← hrest, ← hover.rest]
  exact .aside hnext hfirst h

/-- Text goes on up to the next bracket. -/
theorem head?_behind_text (c : Cursor) :
    ∀ ch ∈ (c.skipWhile (· ≠ '<')).rest.head?, ch = '<' := by
  intro ch hch
  have hrest : (c.skipWhile (· ≠ '<')).rest = c.rest.dropWhile (· ≠ '<') := by
    have hover := (c.over_skipWhile (· ≠ '<')).rest
    nth_rewrite 1 [← List.takeWhile_append_dropWhile (p := (· ≠ '<')) (l := c.rest)] at hover
    exact (List.append_cancel_left hover).symm
  have hnot := List.head?_dropWhile_not (· ≠ '<') c.rest
  rw [← hrest, Option.mem_def.mp hch] at hnot
  simpa using hnot

/-- **A token is read from its first character on**, behind what is passed over. -/
theorem readsBehind_scanText (hs : s.Lined first before) (howed : s.owed = none)
    (h : s.scanText = .ok token t) : ReadsBehind first before s token t := by
  fun_induction scanText s generalizing before with
  | case1 | case3 | case5 | case7 | case13 => cases h
  | case2 s hrest =>
    obtain ⟨rfl, rfl⟩ := EStateM.Result.ok.inj h
    refine Reads.behind hs ⟨[], .refl _, ?_, rfl, ?_⟩
    · rw [hrest]
      exact .finish
    · rwa [List.append_nil]
  | case4 s _ hpiece cursor hpast ih | case6 s _ hpiece cursor hpast ih
  | case8 s _ hpiece cursor hpast ih =>
    exact .aside hs howed (by rw [hpiece]; rfl) (by decide) hpast fun hline => ih hline howed h
  | case9 s _ hpiece =>
    obtain ⟨rest, hrest⟩ := exists_rest_of_next hpiece
    exact (reads_characterData hs howed hrest h).behind hs
  | case10 s _ hpiece =>
    obtain ⟨rest, hrest⟩ := exists_rest_of_next hpiece
    exact (reads_closeElement hs howed hrest h).behind hs
  | case11 s _ hpiece =>
    obtain ⟨rest, hrest⟩ := exists_rest_of_next hpiece
    exact (reads_openElement hs howed hrest h).behind hs
  | case12 s hrest hpiece raw after hblank =>
    rename_i ih
    have hover : s.cursor.Over raw after := Cursor.over_skipWhile s.cursor (· ≠ '<')
    refine .skipped hover (ih (hs.over hover howed) howed h) fun hbehind hpassed => ?_
    refine .blank ?_ (List.all_eq_true.mp hblank) ?_ hpassed
    · exact List.length_pos_iff.mp (Piece.run_pos_of_text hrest hpiece)
    · exact hbehind ▸ head?_behind_text s.cursor
  | case14 s hrest hpiece raw after hsolid content =>
    rename_i hcontent
    have hover : s.cursor.Over raw after := Cursor.over_skipWhile s.cursor (· ≠ '<')
    obtain rfl := eq_of_giveText h
    rw [text_of_giveText h]
    refine Reads.behind hs ⟨raw, hover, .text ?_ ?_ hcontent ?_, rfl, hs.over hover howed⟩
    · exact fun hmem => absurd (List.mem_takeWhile_imp hmem) (by decide)
    · exact Bool.eq_false_iff.mpr hsolid
    · exact head?_behind_text s.cursor

/-- **One token.**  A scanner whose line is told by what it has passed hands out a token whose
line is told by what lies before it, and has passed more then. -/
theorem begins_scan (hs : s.Lined first before) (h : s.scan = .ok token t) :
    ∃ taken, s.cursor.rest = taken ++ t.cursor.rest ∧ t.Lined first (before ++ taken) ∧
      ∃ place, s.Begins before token t place ∧ token.line = first + place.count '\n' := by
  cases howed : s.owed with
  | some owed =>
    rw [scan, howed] at h
    obtain ⟨rfl, rfl⟩ := EStateM.Result.ok.inj h
    obtain ⟨place, name, depth, hbefore, rfl⟩ := hs.owed owed howed
    refine ⟨[], rfl, ?_, place, .owed howed rfl ⟨_, _, _, rfl⟩ hbefore, rfl⟩
    rw [List.append_nil]
    exact lined_of_line rfl hs.line
  | none =>
    rw [scan_eq_scanText howed] at h
    obtain ⟨passed, written, hrest, hpassed, hwritten, hline, ht⟩ :=
      readsBehind_scanText hs howed h
    refine ⟨passed ++ written, ?_, ?_, before ++ passed, ?_, hline⟩
    · rw [hrest, List.append_assoc]
    · rwa [← List.append_assoc]
    · exact .written howed hrest hpassed hwritten

end Scanner

end Adventure.Markup
