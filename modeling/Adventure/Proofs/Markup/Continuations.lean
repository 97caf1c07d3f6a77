/-
Markup that goes on.

A tag ends with a bracket of its own, and nothing that is read for it depends on what stands
behind that bracket; text, a comment or a declaration does not depend on what stands behind
either, as long as something of the first part is left.  So a text that ends just after a tag
has the same tokens whatever follows, and the tokens of the whole are these and then those of
what follows.

Two scanners are compared that stand at the same place of two texts, the second of which goes
on.  Nothing is asked of their lines: with nothing behind the second, this is at once the fact
that tokens do not depend on the lines they stand on.
-/
import Adventure.Proofs.Markup.Writings

namespace Adventure.Markup

open Text (Cursor)

/-! ### Texts that go on -/

section Cursors

variable {c c' d : Cursor} {q text cs : List Char} {n : Nat}

theorem rest_skip_append (h : c'.rest = c.rest ++ q) (hq : q = [] ∨ (c.skip n).rest ≠ []) :
    (c'.skip n).rest = (c.skip n).rest ++ q := by
  rcases hq with rfl | hne
  · simp [Cursor.skip, h]
  · have hle : n ≤ c.rest.length := by
      have := List.length_pos_iff.mpr hne
      rw [Cursor.length_skip] at this
      omega
    rw [Cursor.skip, h]
    exact List.drop_append_of_le_length hle

theorem run_append {p : Char → Bool} (h : c'.rest = c.rest ++ q)
    (hq : q = [] ∨ (c.skip (c.run p).length).rest ≠ []) : c'.run p = c.run p := by
  rcases hq with rfl | hne
  · simp [Cursor.run, h]
  · rw [Cursor.run, h, List.takeWhile_append, if_neg, Cursor.run]
    intro hlength
    have := List.length_pos_iff.mpr hne
    rw [Cursor.length_skip, Cursor.run, hlength] at this
    omega

/-- What first occurs in a text does so wherever the text goes on. -/
theorem position?_append (h : Text.position? text cs = some n) (q : List Char) :
    Text.position? text (cs ++ q) = some n ∧ n + text.length ≤ cs.length := by
  induction cs generalizing n with
  | nil =>
    rw [Text.position?] at h
    split at h
    · rename_i hempty
      obtain rfl := Option.some.inj h
      obtain rfl := List.isEmpty_iff.mp hempty
      cases q with
      | nil => exact ⟨rfl, Nat.le_refl 0⟩
      | cons x q => exact ⟨rfl, Nat.le_refl 0⟩
    · cases h
  | cons x cs ih =>
    rw [Text.position?] at h
    split at h
    · rename_i hbegins
      obtain rfl := Option.some.inj h
      rw [List.isPrefixOf_iff_prefix] at hbegins
      refine ⟨?_, by simpa using hbegins.length_le⟩
      rw [List.cons_append, Text.position?, if_pos]
      exact List.isPrefixOf_iff_prefix.mpr (hbegins.trans (List.prefix_append _ _))
    · rename_i hbegins
      obtain ⟨k, hk, rfl⟩ := Option.map_eq_some_iff.mp h
      obtain ⟨hposition, hle⟩ := ih hk
      rw [List.length_cons]
      refine ⟨?_, by omega⟩
      rw [List.cons_append, Text.position?, if_neg, hposition]
      · rfl
      · rw [List.isPrefixOf_iff_prefix] at hbegins ⊢
        intro hlonger
        refine hbegins (List.prefix_of_prefix_length_le hlonger ?_ ?_)
        · exact List.prefix_append (x :: cs) q
        · rw [List.length_cons]
          omega

theorem mem_of_position? (h : Text.position? text cs = some n) : ∀ x ∈ text, x ∈ cs := by
  induction cs generalizing n with
  | nil =>
    rw [Text.position?] at h
    split at h
    · rename_i hempty
      obtain rfl := List.isEmpty_iff.mp hempty
      exact List.forall_mem_nil _
    · cases h
  | cons y cs ih =>
    rw [Text.position?] at h
    split at h
    · rename_i hbegins
      exact fun x hx => (List.isPrefixOf_iff_prefix.mp hbegins).subset hx
    · obtain ⟨k, hk, rfl⟩ := Option.map_eq_some_iff.mp h
      exact fun x hx => List.mem_cons_of_mem y (ih hk x hx)

theorem past?_append {ending : String} (h : c'.rest = c.rest ++ q)
    (hpast : c.past? ending = some d) :
    ∃ d', c'.past? ending = some d' ∧ d'.rest = d.rest ++ q := by
  obtain ⟨n, hn, rfl⟩ := Option.map_eq_some_iff.mp hpast
  obtain ⟨hposition, hle⟩ := position?_append hn q
  refine ⟨c'.skip (n + ending.length), ?_, ?_⟩
  · rw [Cursor.past?, h, hposition]
    rfl
  · rw [Cursor.skip, h]
    exact List.drop_append_of_le_length (by rwa [String.length_toList] at hle)

theorem startsWith_append {text : String} {x : Char} (h : c'.rest = c.rest ++ q)
    (hx : x ∈ c.rest) (htext : x ∉ text.toList) : c'.startsWith text = c.startsWith text := by
  rw [Cursor.startsWith, Cursor.startsWith, Bool.eq_iff_iff, List.isPrefixOf_iff_prefix,
    List.isPrefixOf_iff_prefix, h]
  refine ⟨fun hbegins => ?_, fun hbegins => hbegins.trans (List.prefix_append _ _)⟩
  -- A text that ran beyond the first part would contain it, and `x` with it.
  refine (List.prefix_or_prefix_of_prefix hbegins (List.prefix_append _ _)).resolve_right ?_
  exact fun hlonger => htext (hlonger.subset hx)

/-- How a piece begins is decided before the first closing bracket. -/
theorem next_append (h : c'.rest = c.rest ++ q) (hx : '>' ∈ c.rest) :
    Piece.next c' = Piece.next c := by
  unfold Piece.next
  rw [startsWith_append h hx (by decide), startsWith_append h hx (by decide),
    startsWith_append h hx (by decide), startsWith_append h hx (by decide),
    startsWith_append h hx (by decide), startsWith_append h hx (by decide)]

end Cursors

/-! ### Inside a tag -/

/-- Reading comes to the same where the text goes on, if it stops before its end. -/
def Local {α : Type} (m : EStateM Error Cursor α) : Prop :=
  ∀ (q : List Char) (c c' : Cursor) (a : α) (d : Cursor), c'.rest = c.rest ++ q → m c = .ok a d →
    q = [] ∨ d.rest ≠ [] → ∃ d', m c' = .ok a d' ∧ d'.rest = d.rest ++ q

/-- Reading comes to the same where the text goes on, wherever it stops. -/
def Final {α : Type} (m : EStateM Error Cursor α) : Prop :=
  ∀ (q : List Char) (c c' : Cursor) (a : α) (d : Cursor), c'.rest = c.rest ++ q → m c = .ok a d →
    d.rest.length < c.rest.length ∧ ∃ d', m c' = .ok a d' ∧ d'.rest = d.rest ++ q

section Readers

variable {α β : Type} {m : EStateM Error Cursor α} {f : α → EStateM Error Cursor β}

theorem Final.local (hm : Final m) : Local m :=
  fun q c c' a d h hd _ => (hm q c c' a d h hd).2

theorem Final.forward (hm : Final m) : Forward m := by
  intro c a d hd
  exact Nat.le_of_lt (hm [] c c a d (List.append_nil _).symm hd).1

theorem local_pure (a : α) : Local (pure a : EStateM Error Cursor α) := by
  rintro q c c' _ _ h ⟨⟩ -
  exact ⟨c', rfl, h⟩

theorem Local.bind (hm : Local m) (hf : ∀ a, Local (f a)) (hforward : ∀ a, Forward (f a)) :
    Local (m >>= f) := by
  intro q c c' b e h he hq
  obtain ⟨a, d, hd, he⟩ := run_bind_ok_iff.mp he
  have hleft : q = [] ∨ d.rest ≠ [] := by
    refine hq.imp_right fun hne => ?_
    have hlength := hforward a d b e he
    have := List.length_pos_iff.mpr hne
    rw [← List.length_pos_iff]
    omega
  obtain ⟨d', hd', hrest⟩ := hm q c c' a d h hd hleft
  obtain ⟨e', he', hend⟩ := hf a q d d' b e hrest he hq
  exact ⟨e', run_bind_ok_iff.mpr ⟨a, d', hd', he'⟩, hend⟩

/-- What ends with something final is final. -/
theorem Local.final (hm : Local m) (hforward : Forward m) (hf : ∀ a, Final (f a)) :
    Final (m >>= f) := by
  intro q c c' b e h he
  obtain ⟨a, d, hd, he⟩ := run_bind_ok_iff.mp he
  obtain ⟨hlt, -⟩ := hf a q d ⟨d.rest ++ q, 0⟩ b e rfl he
  have hne : d.rest ≠ [] := by
    rw [← List.length_pos_iff]
    omega
  obtain ⟨d', hd', hrest⟩ := hm q c c' a d h hd (.inr hne)
  obtain ⟨-, e', he', hend⟩ := hf a q d d' b e hrest he
  exact ⟨Nat.lt_of_lt_of_le hlt (hforward c a d hd),
    e', run_bind_ok_iff.mpr ⟨a, d', hd', he'⟩, hend⟩

/-- What gives its answer behind something final is final. -/
theorem Final.map {g : α → β} (hm : Final m) : Final (m >>= fun a => pure (g a)) := by
  intro q c c' b e h he
  obtain ⟨a, d, hd, he⟩ := run_bind_ok_iff.mp he
  obtain ⟨rfl, rfl⟩ := EStateM.Result.ok.inj he
  obtain ⟨hlt, d', hd', hrest⟩ := hm q c c' a d h hd
  exact ⟨hlt, d', run_bind_ok_iff.mpr ⟨a, d', hd', rfl⟩, hrest⟩

theorem local_modify_skip (n : Nat) : Local (modify (·.skip n) : EStateM Error Cursor Unit) := by
  rintro q c c' _ _ h ⟨⟩ hq
  exact ⟨c'.skip n, rfl, rest_skip_append h hq⟩

theorem forward_modify_skip (n : Nat) :
    Forward (modify (·.skip n) : EStateM Error Cursor Unit) := by
  rintro c _ _ ⟨⟩
  exact Cursor.length_skip_le c n

theorem local_scanName : Local scanName := by
  intro q c c' name d h hd hq
  unfold scanName at hd
  dsimp only at hd
  split at hd
  · cases hd
  · rename_i hne
    obtain ⟨rfl, rfl⟩ := EStateM.Result.ok.inj hd
    have hrun := run_append h hq
    refine ⟨c'.skip (c.run isNameChar).length, ?_, rest_skip_append h hq⟩
    simp [scanName, hrun, hne]

theorem local_skipBlanks : Local skipBlanks := by
  intro q c c' _ d h hd hq
  obtain rfl := (EStateM.Result.ok.inj hd).2
  refine ⟨c'.skipWhile Text.isBlank, rfl, ?_⟩
  rw [Cursor.skipWhile, run_append h hq]
  exact rest_skip_append h hq

theorem final_expect (x : Char) (fault : LexFault) : Final (expect x fault) := by
  intro q c c' _ d h hd
  unfold expect at hd
  split at hd
  · rename_i hx
    obtain rfl := (EStateM.Result.ok.inj hd).2
    obtain ⟨rest, hrest⟩ := List.head?_eq_some_iff.mp hx
    refine ⟨Cursor.length_skip_lt (by simp [hrest]) Nat.one_pos, c'.skip 1, ?_, ?_⟩
    · simp [expect, h, hrest]
    · simp [Cursor.skip, h, hrest]
  · cases hd

/-- A value ends at its second quote. -/
theorem final_scanQuoted : Final scanQuoted := by
  intro q c c' value d h hd
  unfold scanQuoted at hd
  split at hd
  · cases hd
  · rename_i quote hquote
    dsimp only at hd
    split at hd
    · cases hd
    · rename_i hclosed
      split at hd
      · cases hd
      · rename_i content hcontent
        obtain ⟨rfl, rfl⟩ := EStateM.Result.ok.inj hd
        obtain ⟨hhead, hsort⟩ := Option.filter_eq_some_iff.mp hquote
        obtain ⟨rest, hrest⟩ := List.head?_eq_some_iff.mp hhead
        have hlt : ((c.skip 1).run (· ≠ quote)).length < (c.skip 1).rest.length :=
          Nat.lt_of_le_of_ne (List.takeWhile_prefix _).length_le hclosed
        have hinside : (c'.skip 1).rest = (c.skip 1).rest ++ q := by
          simp [Cursor.skip, h, hrest]
        have hrun : (c'.skip 1).run (· ≠ quote) = (c.skip 1).run (· ≠ quote) := by
          refine run_append hinside (.inr ?_)
          rw [← List.length_pos_iff, Cursor.length_skip]
          omega
        refine ⟨?_, (c'.skip 1).skip (((c.skip 1).run (· ≠ quote)).length + 1), ?_, ?_⟩
        · exact Nat.lt_of_le_of_lt (Cursor.length_skip_le _ _)
            (Cursor.length_skip_lt (by simp [hrest]) Nat.one_pos)
        · unfold scanQuoted
          have hquote' : c'.rest.head?.filter (fun x => decide (x = '"' ∨ x = '\'')) =
              some quote := by
            rw [← hquote, h, hrest]
            rfl
          rw [hquote']
          dsimp only
          rw [hrun, hinside, hcontent, if_neg]
          rw [List.length_append]
          omega
        · rw [Cursor.skip, hinside]
          exact List.drop_append_of_le_length hlt

theorem final_scanAttribute (tag : String) : Final (scanAttribute tag) := by
  have hvalue : ∀ key : String, Final (do
      let value ← scanQuoted
      pure (key, value)) := fun key => final_scanQuoted.map
  refine Local.final local_scanName (fun c a d h => Nat.le_of_lt (length_scanName_lt h)) ?_
  intro key
  refine Local.final local_skipBlanks forward_skipBlanks fun _ => ?_
  refine Local.final (final_expect _ _).local (forward_expect _ _) fun _ => ?_
  exact Local.final local_skipBlanks forward_skipBlanks fun _ => hvalue key

/-- A name begins with a character that names are made of. -/
theorem exists_head_of_scanName {c d : Cursor} {name : String} (h : scanName c = .ok name d) :
    ∃ x rest, c.rest = x :: rest ∧ isNameChar x = true := by
  unfold scanName at h
  dsimp only at h
  split at h
  · cases h
  · rename_i hne
    cases hrest : c.rest with
    | nil => simp [Cursor.run, hrest] at hne
    | cons x rest =>
      refine ⟨x, rest, rfl, ?_⟩
      rw [← Bool.not_eq_false]
      intro hx
      simp [Cursor.run, hrest, hx] at hne

/-- Attributes end with the bracket of the tag. -/
theorem final_scanAttributes (tag : String) (before : List (String × String)) :
    Final (scanAttributes tag before) := by
  intro q c c' a d h hd
  -- What a tag ends with, and what stands there, is the same in both texts.
  have hhere : ∀ {c c' : Cursor}, c'.rest = c.rest ++ q → (c.skipWhile Text.isBlank).rest ≠ [] →
      (c'.skipWhile Text.isBlank).rest = (c.skipWhile Text.isBlank).rest ++ q := by
    intro c c' h hne
    rw [Cursor.skipWhile, run_append h (.inr hne)]
    exact rest_skip_append h (.inr hne)
  have hends : ∀ {c : Cursor} {text : String}, c.startsWith text = true → text ≠ "" →
      ∃ rest, c.rest = text.toList ++ rest ∧ c.rest ≠ [] := by
    intro c text hstarts hne
    obtain ⟨rest, hrest⟩ := List.isPrefixOf_iff_prefix.mp hstarts
    refine ⟨rest, hrest.symm, ?_⟩
    rw [← hrest]
    simp [hne]
  fun_induction scanAttributes tag before c generalizing c' with
  | case1 before c here hclosed =>
    obtain ⟨rfl, rfl⟩ := EStateM.Result.ok.inj hd
    obtain ⟨rest, hrest, hne⟩ := hends hclosed (by decide)
    have hhere' := hhere h hne
    refine ⟨?_, (c'.skipWhile Text.isBlank).skip 2, ?_, ?_⟩
    · exact Nat.lt_of_lt_of_le (Cursor.length_skip_lt hne Nat.two_pos)
        (Cursor.length_skipWhile_le _ _)
    · have hstarts : (c'.skipWhile Text.isBlank).startsWith "/>" = true := by
        simp [Cursor.startsWith, hhere', here, hrest]
      rw [scanAttributes]
      simp [hstarts]
    · simp [Cursor.skip, hhere', here, hrest]
  | case2 before c here hclosed hopen =>
    obtain ⟨rfl, rfl⟩ := EStateM.Result.ok.inj hd
    obtain ⟨rest, hrest, hne⟩ := hends hopen (by decide)
    have hhere' := hhere h hne
    refine ⟨?_, (c'.skipWhile Text.isBlank).skip 1, ?_, ?_⟩
    · exact Nat.lt_of_lt_of_le (Cursor.length_skip_lt hne Nat.one_pos)
        (Cursor.length_skipWhile_le _ _)
    · have hnot : (c'.skipWhile Text.isBlank).startsWith "/>" = false := by
        simp [Cursor.startsWith, hhere', here, hrest, List.isPrefixOf]
      have hstarts : (c'.skipWhile Text.isBlank).startsWith ">" = true := by
        simp [Cursor.startsWith, hhere', here, hrest]
      rw [scanAttributes]
      simp [hnot, hstarts]
    · simp [Cursor.skip, hhere', here, hrest]
  | case3 | case4 => cases hd
  | case5 before c here hclosed hopen key value e he hnew ih =>
    obtain ⟨_, _, hname, -⟩ := run_bind_ok_iff.mp he
    obtain ⟨x, rest, hrest, hx⟩ := exists_head_of_scanName hname
    have hhere' := hhere h (hrest ▸ List.cons_ne_nil x rest)
    obtain ⟨hlt, e', he', hmore⟩ := final_scanAttribute tag q here _ _ _ hhere' he
    obtain ⟨hless, d', hd', hend⟩ := ih e' hmore hd
    refine ⟨?_, d', ?_, hend⟩
    · exact Nat.lt_of_lt_of_le (Nat.lt_trans hless hlt) (Cursor.length_skipWhile_le _ _)
    · have hhead : (c'.skipWhile Text.isBlank).rest.head? = some x :=
        (congrArg List.head? hhere').trans (by rw [hrest]; rfl)
      rw [scanAttributes, not_startsWith_of_name hx hhead ⟨'/', ['>'], rfl, by decide⟩,
        not_startsWith_of_name hx hhead ⟨'>', [], rfl, by decide⟩]
      simp only [Bool.false_eq_true, if_false]
      rw [he']
      dsimp only
      rw [if_neg hnew, hd']

/-- **An opening tag ends with its bracket.** -/
theorem final_scanOpening : Final scanOpening := by
  refine Local.final (local_modify_skip 1) (forward_modify_skip 1) fun _ => ?_
  refine Local.final local_scanName (fun c a d h => Nat.le_of_lt (length_scanName_lt h)) ?_
  intro name
  exact (final_scanAttributes name []).map

/-- **A closing tag ends with its bracket.** -/
theorem final_scanClosing : Final scanClosing := by
  refine Local.final (local_modify_skip 2) (forward_modify_skip 2) fun _ => ?_
  refine Local.final local_scanName (fun c a d h => Nat.le_of_lt (length_scanName_lt h)) ?_
  intro name
  exact Local.final local_skipBlanks forward_skipBlanks fun _ => (final_expect _ _).map

end Readers

/-! ### Between tags -/

/-- How a piece begins. -/
def Piece.beginning : Piece → String
  | comment => "<!--"
  | characterData => "<![CDATA["
  | instruction => "<?"
  | declaration => "<!"
  | closingTag => "</"
  | openingTag => "<"
  | text => ""

theorem exists_rest_of_next {c : Cursor} {piece : Piece} (h : Piece.next c = piece) :
    ∃ rest, c.rest = piece.beginning.toList ++ rest := by
  have hstarts : c.startsWith piece.beginning = true := by
    subst h
    unfold Piece.next
    split
    · assumption
    split
    · assumption
    split
    · assumption
    split
    · assumption
    split
    · assumption
    split
    · assumption
    · rfl
  obtain ⟨rest, hrest⟩ := List.isPrefixOf_iff_prefix.mp hstarts
  exact ⟨rest, hrest.symm⟩

theorem head?_of_next_text {c : Cursor} (h : Piece.next c = .text) : c.rest.head? ≠ some '<' := by
  intro hhead
  obtain ⟨rest, hrest⟩ := List.head?_eq_some_iff.mp hhead
  have hstarts : c.startsWith "<" = true := by simp [Cursor.startsWith, hrest]
  simp only [Piece.next, hstarts, if_true] at h
  repeat' split at h
  all_goals cases h

/-- Whether the token is one of a tag. -/
def Token.isTag : Token → Bool
  | opening .. | closing .. => true
  | _ => false

theorem Token.not_isTag_of_isFinish {token : Token} (h : token.isFinish = true) :
    token.isTag = false := by
  cases token with
  | finish => rfl
  | opening | closing | text => cases h

theorem Token.isFinish_of_onLine {token token' : Token} (h : token'.onLine 0 = token.onLine 0) :
    token'.isFinish = token.isFinish := by
  cases token <;> cases token' <;> simp_all [onLine, isFinish]

namespace Scanner

variable {q : List Char} {s s' t u u' : Scanner} {token : Token} {ts : List Token}

/-- Two scanners are at the same place of two texts, on whatever lines, and the second text
goes on. -/
structure Beside (q : List Char) (s s' : Scanner) : Prop where
  rest : s'.cursor.rest = s.cursor.rest ++ q
  opened : s'.opened = s.opened
  owed : s'.owed.map (Token.onLine 0) = s.owed.map (Token.onLine 0)
  finished : s'.finished = s.finished

theorem Beside.moved {d d' : Cursor} (h : Beside q s s') (hrest : d'.rest = d.rest ++ q) :
    Beside q { s with cursor := d } { s' with cursor := d' } :=
  ⟨hrest, h.opened, h.owed, h.finished⟩

/-- Two that are beside the same one are beside each other. -/
theorem Beside.same (h : Beside q s u) (h' : Beside q s u') : Beside [] u u' := by
  refine ⟨?_, h'.opened.trans h.opened.symm, h'.owed.trans h.owed.symm,
    h'.finished.trans h.finished.symm⟩
  rw [h'.rest, h.rest, List.append_nil]

/-- A scanner at the place of another comes to the same. -/
def Matches (q : List Char) (token : Token) (t : Scanner)
    (r : EStateM.Result Error Scanner Token) : Prop :=
  ∃ token' t', r = .ok token' t' ∧ token'.onLine 0 = token.onLine 0 ∧ Beside q t t'

theorem text_of_giveText {content : List Char} {line : Nat}
    (h : s.giveText content line = .ok token t) :
    token = .text (String.ofList content) s.opened.length line := by
  unfold giveText at h
  split at h
  · cases h
  · exact (EStateM.Result.ok.inj h).1.symm

theorem matches_giveText {content : List Char} {line : Nat} (h : Beside q s s')
    (hgive : s.giveText content line = .ok token t) (line' : Nat) :
    Matches q token t (s'.giveText content line') := by
  unfold giveText at hgive
  split at hgive
  · cases hgive
  · rename_i hopened
    obtain ⟨rfl, rfl⟩ := EStateM.Result.ok.inj hgive
    refine ⟨.text (String.ofList content) s'.opened.length line', s', ?_, ?_, h⟩
    · rw [giveText, h.opened, if_neg hopened]
    · rw [h.opened]
      rfl

theorem matches_openElement (h : Beside q s s') (hopen : s.openElement = .ok token t) :
    Matches q token t s'.openElement := by
  unfold openElement at hopen
  dsimp only at hopen
  split at hopen
  · cases hopen
  · rename_i hfinished
    split at hopen
    · cases hopen
    · rename_i name attributes closed d hscan
      obtain ⟨rfl, rfl⟩ := EStateM.Result.ok.inj hopen
      obtain ⟨-, d', hd', hrest⟩ := final_scanOpening q _ s'.cursor _ _ h.rest hscan
      unfold openElement
      dsimp only
      rw [h.finished, if_neg hfinished, hd', h.opened]
      refine ⟨_, _, rfl, rfl, ?_⟩
      cases closed with
      | true => exact ⟨hrest, rfl, rfl, rfl⟩
      | false => exact ⟨hrest, rfl, h.owed, rfl⟩

theorem exists_head_of_openElement (h : s.openElement = .ok token t) :
    ∃ x rest, (s.cursor.skip 1).rest = x :: rest ∧ isNameChar x = true := by
  unfold openElement at h
  dsimp only at h
  split at h
  · cases h
  · split at h
    · cases h
    · rename_i hscan
      obtain ⟨_, d, hskip, hscan⟩ := run_bind_ok_iff.mp hscan
      obtain ⟨name, e, hname, -⟩ := run_bind_ok_iff.mp hscan
      obtain rfl := (EStateM.Result.ok.inj hskip).2
      exact exists_head_of_scanName hname

theorem matches_closeElement (h : Beside q s s') (hclose : s.closeElement = .ok token t) :
    Matches q token t s'.closeElement := by
  unfold closeElement at hclose
  dsimp only at hclose
  split at hclose
  · cases hclose
  · rename_i name d hscan
    obtain ⟨-, d', hd', hrest⟩ := final_scanClosing q _ s'.cursor _ _ h.rest hscan
    unfold closeElement
    dsimp only
    rw [hd', h.opened]
    split at hclose
    · cases hclose
    · rename_i wanted outer hopened
      split at hclose
      · rename_i hname
        obtain ⟨rfl, rfl⟩ := EStateM.Result.ok.inj hclose
        rw [hopened]
        dsimp only
        rw [if_pos hname, h.finished]
        exact ⟨_, _, rfl, rfl, hrest, rfl, h.owed, rfl⟩
      · cases hclose

theorem matches_readCharacterData (h : Beside q s s')
    (hpiece : Piece.next s.cursor = .characterData) (hread : s.readCharacterData = .ok token t) :
    Matches q token t s'.readCharacterData := by
  obtain ⟨rest, hrest⟩ := exists_rest_of_next hpiece
  have hinside : (s.cursor.skip "<![CDATA[".length).rest = rest := rest_skip hrest
  have hinside' : (s'.cursor.skip "<![CDATA[".length).rest = rest ++ q :=
    rest_skip (by rw [h.rest, hrest, List.append_assoc]; rfl)
  unfold readCharacterData at hread
  dsimp only at hread
  split at hread
  · cases hread
  · rename_i n hn
    rw [hinside] at hn hread
    obtain ⟨hposition, hle⟩ := position?_append hn q
    have hbehind : ((s'.cursor.skip "<![CDATA[".length).skip (n + "]]>".length)).rest =
        ((s.cursor.skip "<![CDATA[".length).skip (n + "]]>".length)).rest ++ q := by
      show (s'.cursor.skip _).rest.drop _ = (s.cursor.skip _).rest.drop _ ++ q
      rw [hinside, hinside']
      exact List.drop_append_of_le_length hle
    unfold readCharacterData
    dsimp only
    rw [hinside', hposition]
    dsimp only
    rw [List.take_append_of_le_length (Nat.le_of_add_right_le hle)]
    exact matches_giveText (h.moved hbehind) hread _

/-- At the end of the text there is nothing but its end. -/
theorem isFinish_of_rest_nil (hrest : s.cursor.rest = []) (h : s.scanText = .ok token t) :
    token.isFinish = true ∧ t.cursor.rest = [] := by
  rw [scanText, dif_pos hrest] at h
  split at h
  · cases h
  · obtain ⟨rfl, rfl⟩ := EStateM.Result.ok.inj h
    exact ⟨rfl, hrest⟩

/-- **The next token is the same where the text goes on**, if it is a tag, or something of the
first text is left, or nothing follows after all. -/
theorem matches_scanText (h : Beside q s s') (hscan : s.scanText = .ok token t)
    (hq : q = [] ∨ token.isTag = true ∨ t.cursor.rest ≠ []) : Matches q token t s'.scanText := by
  have hpassed : ∀ {s s' : Scanner} {ending : String} {d : Cursor}, Beside q s s' →
      s.cursor.rest ≠ [] → (Piece.next s.cursor).ending? = some ending → '>' ∈ ending.toList →
      s.cursor.past? ending = some d →
      ∃ d', s'.scanText = scanText { s' with cursor := d' } ∧ d'.rest = d.rest ++ q := by
    intro s s' ending d h hrest hpiece hbracket hpast
    have hmem : '>' ∈ s.cursor.rest := by
      obtain ⟨n, hn, -⟩ := Option.map_eq_some_iff.mp hpast
      exact mem_of_position? hn _ hbracket
    obtain ⟨d', hd', hrest'⟩ := past?_append h.rest hpast
    refine ⟨d', scanText_passed ?_ (by rwa [next_append h.rest hmem]) hd', hrest'⟩
    rw [h.rest]
    exact List.append_ne_nil_of_left_ne_nil hrest q
  have htext : ∀ {s s' : Scanner}, Beside q s s' → s.cursor.rest ≠ [] →
      Piece.next s.cursor = .text → Piece.next s'.cursor = .text := by
    intro s s' h hrest hpiece
    refine next_text ?_
    rw [h.rest, List.head?_append_of_ne_nil _ hrest]
    exact head?_of_next_text hpiece
  fun_induction scanText s generalizing s' with
  | case1 | case3 | case5 | case7 | case13 => cases hscan
  | case2 s hrest hopened =>
    obtain ⟨rfl, rfl⟩ := EStateM.Result.ok.inj hscan
    obtain rfl : q = [] := hq.resolve_right (by simp [Token.isTag, hrest])
    refine ⟨_, s', scanText_end ?_ (h.opened.trans hopened), rfl, h⟩
    rw [h.rest, hrest]
    rfl
  | case4 s hrest hpiece cursor hpast ih | case6 s hrest hpiece cursor hpast ih
  | case8 s hrest hpiece cursor hpast ih =>
    obtain ⟨d', hd', hrest'⟩ := hpassed h hrest (by rw [hpiece]; rfl) (by decide) hpast
    rw [hd']
    exact ih (h.moved hrest') hscan
  | case9 s hrest hpiece =>
    obtain ⟨rest, hrest'⟩ := exists_rest_of_next hpiece
    have hnext : s'.cursor.rest = "<![CDATA[".toList ++ (rest ++ q) := by
      rw [h.rest, hrest', List.append_assoc]
      rfl
    rw [scanText_characterData (by simp [h.rest, hrest]) (next_characterData hnext)]
    exact matches_readCharacterData h hpiece hscan
  | case10 s hrest hpiece =>
    obtain ⟨rest, hrest'⟩ := exists_rest_of_next hpiece
    have hnext : s'.cursor.rest = "</".toList ++ (rest ++ q) := by
      rw [h.rest, hrest', List.append_assoc]
      rfl
    rw [scanText_closing (by simp [h.rest, hrest]) (next_closingTag hnext)]
    exact matches_closeElement h hscan
  | case11 s hrest hpiece =>
    obtain ⟨rest, hrest'⟩ := exists_rest_of_next hpiece
    obtain ⟨x, more, hmore, hx⟩ := exists_head_of_openElement hscan
    obtain rfl : rest = x :: more := (rest_skip hrest').symm.trans hmore
    have hnext : s'.cursor.rest = '<' :: x :: (more ++ q) := by
      rw [h.rest, hrest']
      rfl
    rw [scanText_opening (by simp [h.rest, hrest]) (next_openingTag hx hnext)]
    exact matches_openElement h hscan
  | case12 s hrest hpiece raw after hblank =>
    rename_i ih
    have hleft : q = [] ∨ after.rest ≠ [] := by
      by_cases hend : after.rest = []
      · obtain ⟨hfinish, hnone⟩ := isFinish_of_rest_nil (s := { s with cursor := after }) hend hscan
        exact .inl (hq.resolve_right (by simp [Token.not_isTag_of_isFinish hfinish, hnone]))
      · exact .inr hend
    have hrun := run_append (p := (· ≠ '<')) h.rest hleft
    rw [scanText_blank (by simp [h.rest, hrest]) (htext h hrest hpiece) (by rwa [hrun]), hrun]
    exact ih (h.moved (rest_skip_append h.rest hleft)) hscan
  | case14 s hrest hpiece raw after hblank content =>
    rename_i hcontent
    have hleft : q = [] ∨ after.rest ≠ [] := by
      obtain rfl := eq_of_giveText hscan
      have htag : token.isTag = false := by
        rw [text_of_giveText hscan]
        rfl
      exact hq.imp_right fun hor => hor.resolve_left (by simp [htag])
    have hrun := run_append (p := (· ≠ '<')) h.rest hleft
    rw [scanText, dif_neg (by simp [h.rest, hrest]), htext h hrest hpiece]
    dsimp only
    rw [hrun, if_neg hblank, hcontent]
    exact matches_giveText (h.moved (rest_skip_append h.rest hleft)) hscan _

/-- **The next token is the same where the text goes on**, an owed one too. -/
theorem matches_scan (h : Beside q s s') (hscan : s.scan = .ok token t)
    (hq : q = [] ∨ token.isTag = true ∨ t.cursor.rest ≠ []) : Matches q token t s'.scan := by
  unfold scan at hscan ⊢
  have howed := h.owed
  cases hs : s.owed with
  | none =>
    rw [hs, Option.map_none, Option.map_eq_none_iff] at howed
    rw [hs] at hscan
    rw [howed]
    exact matches_scanText h hscan hq
  | some first =>
    rw [hs, Option.map_some, Option.map_eq_some_iff] at howed
    obtain ⟨token', howed', hline⟩ := howed
    rw [hs] at hscan
    obtain ⟨rfl, rfl⟩ := EStateM.Result.ok.inj hscan
    rw [howed']
    exact ⟨token', _, rfl, hline, h.rest, h.opened, rfl, h.finished⟩

/-! ### Whole texts -/

/-- Tokens do not depend on the lines they stand on. -/
theorem Beside.yields (h : Beside [] s s') (hs : s.Yields ts) : s'.Yields ts := by
  obtain ⟨us, hus, rfl⟩ := hs
  fun_induction tokens s generalizing s' us with
  | case1 => cases hus
  | case2 s token t hscan hfinish =>
    obtain rfl := Except.ok.inj hus
    obtain ⟨token', t', hscan', hline, -⟩ := matches_scan h hscan (.inl rfl)
    refine ⟨[token'], ?_, by simp [hline]⟩
    rw [tokens_of_scan hscan', Token.isFinish_of_onLine hline, hfinish, if_pos rfl]
  | case3 s token t hscan hmore ih =>
    obtain ⟨token', t', hscan', hline, hbeside⟩ := matches_scan h hscan (.inl rfl)
    cases hrest : t.tokens with
    | error e =>
      rw [hrest] at hus
      cases hus
    | ok rest =>
      rw [hrest] at hus
      obtain rfl := Except.ok.inj hus
      rw [List.map_cons, ← hline]
      exact yields_cons hscan' (by rwa [Token.isFinish_of_onLine hline, ← Bool.not_eq_true])
        (ih hbeside rest hrest)

theorem isTag_of_openElement (h : s.openElement = .ok token t) : token.isTag = true := by
  unfold openElement at h
  dsimp only at h
  split at h
  · cases h
  · split at h
    · cases h
    · obtain ⟨rfl, -⟩ := EStateM.Result.ok.inj h
      rfl

theorem isTag_of_closeElement (h : s.closeElement = .ok token t) : token.isTag = true := by
  unfold closeElement at h
  dsimp only at h
  split at h
  · cases h
  · split at h
    · cases h
    · split at h
      · obtain ⟨rfl, -⟩ := EStateM.Result.ok.inj h
        rfl
      · cases h

/-- A token is owed behind a tag only. -/
theorem isTag_of_owed (hscan : s.scan = .ok token t) (howed : t.owed ≠ none) :
    token.isTag = true := by
  unfold scan at hscan
  split at hscan
  · obtain ⟨-, rfl⟩ := EStateM.Result.ok.inj hscan
    exact absurd rfl howed
  · rename_i hnone
    fun_induction scanText s with
    | case1 | case3 | case5 | case7 | case13 => cases hscan
    | case2 s =>
      obtain ⟨-, rfl⟩ := EStateM.Result.ok.inj hscan
      exact absurd hnone howed
    | case4 s _ _ _ _ ih | case6 s _ _ _ _ ih | case8 s _ _ _ _ ih => exact ih hnone hscan
    | case9 s =>
      unfold readCharacterData at hscan
      dsimp only at hscan
      split at hscan
      · cases hscan
      · obtain rfl := eq_of_giveText hscan
        exact absurd hnone howed
    | case10 s => exact isTag_of_closeElement hscan
    | case11 s => exact isTag_of_openElement hscan
    | case12 s _ _ _ _ _ ih => exact ih hnone hscan
    | case14 s =>
      obtain rfl := eq_of_giveText hscan
      exact absurd hnone howed

/-- **The tokens so far are the same where the text goes on**, if there is more of the first text
or a tag was last. -/
theorem Scans.beside (h : s.Scans ts u) (hb : Beside q s s')
    (hend : u.cursor.rest ≠ [] ∨ ∀ token ∈ ts.getLast?, token.isTag = true) :
    ∃ ts' u', s'.Scans ts' u' ∧ ts'.map (Token.onLine 0) = ts.map (Token.onLine 0) ∧
      Beside q u u' := by
  induction h with
  | start => exact ⟨[], s', .start, rfl, hb⟩
  | @concat ts t u token h hscan hmore ih =>
    -- Where nothing is left and there is one more token, it is owed.
    have hhere : t.cursor.rest ≠ [] ∨ ∀ token ∈ ts.getLast?, token.isTag = true := by
      by_cases hrest : t.cursor.rest = []
      · right
        have howed : t.owed ≠ none := by
          intro hnone
          rw [scan, hnone] at hscan
          rw [(isFinish_of_rest_nil hrest hscan).1] at hmore
          cases hmore
        cases h with
        | start => rintro _ ⟨⟩
        | concat _ hlast _ =>
          rw [List.getLast?_concat]
          rintro _ ⟨⟩
          exact isTag_of_owed hlast howed
      · exact .inl hrest
    obtain ⟨ts', t', hscans, hline, hbeside⟩ := ih hhere
    have hq : q = [] ∨ token.isTag = true ∨ u.cursor.rest ≠ [] := by
      refine .inr (hend.symm.imp_left fun htag => htag token ?_)
      rw [List.getLast?_concat]
      rfl
    obtain ⟨token', u', hscan', hline', hbeside'⟩ := matches_scan hbeside hscan hq
    refine ⟨ts' ++ [token'], u', .concat hscans hscan' ?_, ?_, hbeside'⟩
    · rw [Token.isFinish_of_onLine hline', hmore]
    · simp [hline, hline']

/-- A text that is empty or ends just behind a tag: its tokens, and the scanner that has handed
out all of them. -/
structure EndsBehindTag (source : String) (ts : List Token) (u : Scanner) : Prop where
  scans : (ofSource source).Scans ts u
  rest : u.cursor.rest = []
  owed : u.owed = none
  tag : ∀ token ∈ ts.getLast?, token.isTag = true

theorem endsBehindTag_empty : EndsBehindTag "" [] (ofSource "") :=
  ⟨.start, rfl, rfl, nofun⟩

/-- The scanner at the beginning of what follows such a text. -/
def before (u : Scanner) (following : List Char) : Scanner :=
  { u with cursor := ⟨following, 0⟩ }

/-- **The tokens of the whole are those of the first part, and those of what follows.** -/
theorem EndsBehindTag.yields_iff {first : String} {ws : List Token}
    (h : EndsBehindTag first ts u) (following : String) :
    (ofSource (first ++ following)).Yields ws ↔
      ∃ rest, ws = ts.map (Token.onLine 0) ++ rest ∧ (u.before following.toList).Yields rest := by
  have hstart : Beside following.toList (ofSource first) (ofSource (first ++ following)) :=
    ⟨String.toList_append, rfl, rfl, rfl⟩
  obtain ⟨ts', u', hscans, hline, hbeside⟩ := h.scans.beside hstart (.inr h.tag)
  have hbefore : Beside following.toList u (u.before following.toList) :=
    ⟨by rw [h.rest]; rfl, rfl, rfl, rfl⟩
  constructor
  · rintro ⟨us, hus, rfl⟩
    rw [hscans.tokens_eq] at hus
    cases hrest : u'.tokens with
    | error e =>
      rw [hrest] at hus
      cases hus
    | ok rest =>
      rw [hrest] at hus
      obtain rfl := Except.ok.inj hus
      refine ⟨rest.map (Token.onLine 0), by rw [List.map_append, hline], ?_⟩
      exact (hbeside.same hbefore).yields ⟨rest, hrest, rfl⟩
  · rintro ⟨rest, rfl, hrest⟩
    obtain ⟨us, hus, rfl⟩ := (hbefore.same hbeside).yields hrest
    refine ⟨ts' ++ us, ?_, by rw [List.map_append, hline]⟩
    rw [hscans.tokens_eq, hus]
    rfl

end Scanner

end Adventure.Markup
