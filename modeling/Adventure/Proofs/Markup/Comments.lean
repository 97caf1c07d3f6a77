/-
Comments.

A comment stands for nothing: wherever one is put behind a tag, the tokens are those of the
text without it.  That holds of every comment but those whose text begins with a bracket, or
with a dash and a bracket.  The end of a comment is looked for from its first character on, and
the two dashes it opens with may already belong to the end that is found; so such a comment
ends before its text does, and what is left of its text is read as markup.
-/
import Adventure.Proofs.Markup.Continuations

namespace Adventure.Markup

open Text (Cursor)

/-- A comment with a text. -/
def commented (content : String) : String :=
  "<!--" ++ content ++ "-->"

/-- The text of a comment begins in such a way that the comment ends there, and this is the rest
of the text. -/
def CutShort (content rest : String) : Prop :=
  content = ">" ++ rest ∨ content = "->" ++ rest

/-! ### Where a comment ends -/

section Ends

variable {pattern front content rest : List Char} {c : Cursor}

/-- A text first occurs where it stands, if it does not occur before. -/
theorem position?_first (rest : List Char) (hne : pattern ≠ [])
    (h : ¬ pattern <:+: front ++ pattern.dropLast) :
    Text.position? pattern (front ++ (pattern ++ rest)) = some front.length := by
  induction front with
  | nil =>
    obtain ⟨x, xs, rfl⟩ := List.exists_cons_of_ne_nil hne
    rw [List.nil_append, List.cons_append, Text.position?, if_pos]
    · rfl
    · exact List.isPrefixOf_iff_prefix.mpr (List.prefix_append (x :: xs) rest)
  | cons x front ih =>
    rw [List.cons_append, Text.position?, if_neg, ih fun hinside => h (List.infix_cons hinside)]
    · rfl
    rw [List.isPrefixOf_iff_prefix]
    intro hbegins
    -- It would end before the place where it stands does.
    have hbefore : x :: front ++ pattern.dropLast <+: x :: (front ++ (pattern ++ rest)) := by
      rw [List.cons_append, List.cons_prefix_cons, List.prefix_append_right_inj]
      exact ⟨rfl, (List.dropLast_prefix pattern).trans (List.prefix_append _ _)⟩
    refine h (List.prefix_of_prefix_length_le hbegins hbefore ?_).isInfix
    rw [List.length_append, List.length_dropLast, List.length_cons]
    omega

/-- Dashes behind a text do not make an end of a comment in it. -/
theorem infix_of_infix_dash (h : "-->".toList <:+: content ++ ['-']) :
    "-->".toList <:+: content := by
  refine (List.infix_concat_iff.mp h).resolve_left ?_
  intro hsuffix
  have hlast := hsuffix.getLast (by decide)
  rw [List.getLast_concat] at hlast
  exact absurd hlast (by decide)

/-- A comment has no end before the one it is written with, unless its text begins so. -/
theorem not_infix_opening (h : ¬ "-->".toList <:+: content)
    (hbracket : ∀ rest, content ≠ '>' :: rest) (hdash : ∀ rest, content ≠ '-' :: '>' :: rest) :
    ¬ "-->".toList <:+: "<!--".toList ++ content ++ "-->".toList.dropLast := by
  have hends : ¬ "-->".toList <:+: content ++ ['-', '-'] := by
    intro hinside
    rw [show content ++ ['-', '-'] = content ++ ['-'] ++ ['-'] by simp] at hinside
    exact h (infix_of_infix_dash (infix_of_infix_dash hinside))
  have hone : ¬ ['>'] <+: content ++ ['-', '-'] := by
    cases content with
    | nil => simp
    | cons x xs =>
      intro hbegins
      obtain ⟨hx, -⟩ := List.cons_prefix_cons.mp hbegins
      exact hbracket xs (by rw [hx])
  have htwo : ¬ ['-', '>'] <+: content ++ ['-', '-'] := by
    match content with
    | [] => simp
    | [x] => simp
    | x :: y :: xs =>
      intro hbegins
      obtain ⟨hx, hbegins⟩ := List.cons_prefix_cons.mp hbegins
      obtain ⟨hy, -⟩ := List.cons_prefix_cons.mp hbegins
      exact hdash xs (by rw [hx, hy])
  intro hinside
  change ['-', '-', '>'] <:+: '<' :: '!' :: '-' :: '-' :: (content ++ ['-', '-']) at hinside
  simp only [List.infix_cons_iff, List.cons_prefix_cons] at hinside
  obtain ⟨hopen, -⟩ | ⟨hopen, -⟩ | ⟨-, -, hbegins⟩ | ⟨-, hbegins⟩ | hinside := hinside
  · exact absurd hopen (by decide)
  · exact absurd hopen (by decide)
  · exact hone hbegins
  · exact htwo hbegins
  · exact hends hinside

/-- A comment that is not cut short ends where it is written to end. -/
theorem past?_comment (h : ¬ "-->".toList <:+: content)
    (hbracket : ∀ rest, content ≠ '>' :: rest) (hdash : ∀ rest, content ≠ '-' :: '>' :: rest)
    (hrest : c.rest = "<!--".toList ++ (content ++ ("-->".toList ++ rest))) :
    ∃ d, c.past? "-->" = some d ∧ d.rest = rest := by
  have hposition := position?_first rest (by decide) (not_infix_opening h hbracket hdash)
  have hwhole : c.rest = ("<!--".toList ++ content ++ "-->".toList) ++ rest := by
    rw [hrest]
    simp only [List.append_assoc]
  rw [List.append_assoc, ← hrest] at hposition
  refine ⟨c.skip (("<!--".toList ++ content).length + "-->".length), ?_, ?_⟩
  · rw [Cursor.past?, hposition]
    rfl
  · have hlength : ("<!--".toList ++ content).length + "-->".length =
        ("<!--".toList ++ content ++ "-->".toList).length :=
      List.length_append.symm
    rw [hlength]
    exact rest_skip hwhole

/-- A comment that is cut short ends at the first bracket of its text. -/
theorem past?_cutShort (hrest : c.rest = "<!--".toList ++ ('>' :: rest) ∨
    c.rest = "<!--".toList ++ ('-' :: '>' :: rest)) :
    ∃ d, c.past? "-->" = some d ∧ d.rest = rest := by
  rcases hrest with hrest | hrest
  · refine ⟨c.skip 5, ?_, ?_⟩
    · rw [Cursor.past?, hrest]
      rfl
    · simp [Cursor.skip, hrest]
  · refine ⟨c.skip 6, ?_, ?_⟩
    · rw [Cursor.past?, hrest]
      rfl
    · simp [Cursor.skip, hrest]

end Ends

/-! ### What is read behind a comment -/

namespace Scanner

variable {s u : Scanner} {ts ws : List Token}

theorem Yields.unique {ts' : List Token} (h : s.Yields ts) (h' : s.Yields ts') : ts = ts' := by
  obtain ⟨us, hus, rfl⟩ := h
  obtain ⟨us', hus', rfl⟩ := h'
  rw [Except.ok.inj (hus.symm.trans hus')]

theorem scan_eq_scanText (howed : s.owed = none) : s.scan = s.scanText := by
  rw [scan, howed]

/-- A comment is passed over, up to where it ends. -/
theorem yields_behind_comment {d : Cursor} {inside : List Char} (howed : s.owed = none)
    (hrest : s.cursor.rest = "<!--".toList ++ inside) (hpast : s.cursor.past? "-->" = some d) :
    s.Yields ts ↔ (s.before d.rest).Yields ts := by
  have hpiece : (Piece.next s.cursor).ending? = some "-->" := by
    have hnext : Piece.next s.cursor = .comment := by
      simp [Piece.next, Cursor.startsWith, hrest]
    rw [hnext]
    rfl
  have hscan : s.scan = ({ s with cursor := d } : Scanner).scan := by
    rw [scan_eq_scanText howed, scan_eq_scanText (s := { s with cursor := d }) howed]
    exact scanText_passed (by simp [hrest]) hpiece hpast
  have hbeside : Beside [] { s with cursor := d } (s.before d.rest) :=
    ⟨(List.append_nil _).symm, rfl, rfl, rfl⟩
  have hbeside' : Beside [] (s.before d.rest) { s with cursor := d } :=
    ⟨(List.append_nil _).symm, rfl, rfl, rfl⟩
  exact ⟨fun h => hbeside.yields (yields_congr hscan.symm h),
    fun h => yields_congr hscan (hbeside'.yields h)⟩

/-- Text that is not blank is a token of its own. -/
theorem yields_behind_text {raw rest : List Char} (howed : s.owed = none)
    (hrest : s.cursor.rest = raw ++ rest) (hraw : '<' ∉ raw) (hend : rest = [] ∨ rest.head? = some '<')
    (hsolid : raw.all Text.isBlank = false) (h : s.Yields ws) :
    ∃ token more, ws = token :: more ∧ (s.before rest).Yields more := by
  obtain ⟨us, hus, rfl⟩ := h
  obtain ⟨token, t, hscan⟩ := exists_scan_of_tokens hus
  have hrun : s.cursor.run (· ≠ '<') = raw := by
    refine run_eq hrest ?_ ?_
    · intro x hx
      rw [decide_eq_true_eq]
      rintro rfl
      exact hraw hx
    · intro x hx
      rcases hend with rfl | hhead
      · cases hx
      · rw [hhead] at hx
        obtain rfl := Option.some.inj hx
        decide
  have hne : raw ≠ [] := by
    rintro rfl
    cases hsolid
  have hpiece : Piece.next s.cursor = .text := by
    refine next_text ?_
    rw [hrest, List.head?_append_of_ne_nil _ hne]
    exact fun hhead => hraw (List.mem_of_head? hhead)
  have hgiven : ∃ t', t = { s with cursor := t' } ∧ t'.rest = rest ∧ token.isFinish = false := by
    rw [scan_eq_scanText howed, scanText, dif_neg (by simp [hrest, hne]), hpiece] at hscan
    dsimp only at hscan
    rw [hrun, hsolid, if_neg Bool.false_ne_true] at hscan
    split at hscan
    · cases hscan
    · obtain rfl := eq_of_giveText hscan
      refine ⟨s.cursor.skip raw.length, rfl, rest_skip hrest, ?_⟩
      rw [text_of_giveText hscan]
      rfl
  obtain ⟨d, rfl, hd, hmore⟩ := hgiven
  rw [tokens_of_scan hscan, hmore, if_neg Bool.false_ne_true] at hus
  cases hothers : ({ s with cursor := d } : Scanner).tokens with
  | error e =>
    rw [hothers] at hus
    cases hus
  | ok others =>
    rw [hothers] at hus
    obtain rfl := Except.ok.inj hus
    have hbeside : Beside [] { s with cursor := d } (s.before rest) :=
      ⟨by rw [hd, List.append_nil]; rfl, rfl, rfl, rfl⟩
    exact ⟨_, _, rfl, hbeside.yields ⟨others, hothers, rfl⟩⟩

/-- **When a comment stands for nothing.**  Behind a tag, or at the beginning, a comment whose
text has no end of a comment in it and is not cut short changes no token of what it is put
before.  One that is cut short is passed over up to there, so that the rest of its text is read
as markup; and unless a tag begins in that rest, the tokens are then others. -/
theorem comment_passed_unless_cut_short {first content following : String}
    (hfirst : EndsBehindTag first ts u)
    (hfollowing : following = "" ∨ following.toList.head? = some '<')
    (hcontent : ¬ "-->".toList <:+: content.toList)
    (h : (ofSource (first ++ following)).Yields ws) :
    ((∀ rest, ¬ CutShort content rest) →
      (ofSource (first ++ (commented content ++ following))).Yields ws) ∧
    ∀ rest, CutShort content rest →
      (∀ ws', (ofSource (first ++ (commented content ++ following))).Yields ws' ↔
        (ofSource (first ++ (rest ++ "-->" ++ following))).Yields ws') ∧
      ('<' ∉ rest.toList →
        ¬ (ofSource (first ++ (commented content ++ following))).Yields ws) := by
  have hend : following.toList = [] ∨ following.toList.head? = some '<' :=
    hfollowing.imp_left fun hnone => by rw [hnone]; rfl
  have hinside : (commented content ++ following).toList =
      "<!--".toList ++ (content.toList ++ ("-->".toList ++ following.toList)) := by
    simp only [commented, String.toList_append, List.append_assoc]
  have howed : ∀ text, (u.before text).owed = none := fun _ => hfirst.owed
  -- What is read behind the comment, wherever it ends.
  have hcomment : ∀ {d : Cursor} (more : List Token),
      (u.before (commented content ++ following).toList).cursor.past? "-->" = some d →
      ((u.before (commented content ++ following).toList).Yields more ↔
        (u.before d.rest).Yields more) :=
    fun _ hpast => yields_behind_comment (howed _) hinside hpast
  obtain ⟨behind, rfl, hbehind⟩ := (hfirst.yields_iff following).mp h
  constructor
  · intro hplain
    refine (hfirst.yields_iff _).mpr ⟨behind, rfl, ?_⟩
    have hbracket : ∀ rest, content.toList ≠ '>' :: rest := fun rest heq =>
      hplain (String.ofList rest) (.inl (String.toList_inj.mp (by simp [heq])))
    have hdash : ∀ rest, content.toList ≠ '-' :: '>' :: rest := fun rest heq =>
      hplain (String.ofList rest) (.inr (String.toList_inj.mp (by simp [heq])))
    obtain ⟨d, hd, hrest⟩ := past?_comment hcontent hbracket hdash
      (c := (u.before (commented content ++ following).toList).cursor) hinside
    rw [hcomment behind hd, hrest]
    exact hbehind
  · intro rest hcut
    have hrest : (rest ++ "-->" ++ following).toList =
        rest.toList ++ ("-->".toList ++ following.toList) := by
      simp only [String.toList_append, List.append_assoc]
    have hleft : ∀ more, (u.before (commented content ++ following).toList).Yields more ↔
        (u.before (rest ++ "-->" ++ following).toList).Yields more := by
      intro more
      have hopening : (u.before (commented content ++ following).toList).cursor.rest =
          "<!--".toList ++ ('>' :: (rest ++ "-->" ++ following).toList) ∨
          (u.before (commented content ++ following).toList).cursor.rest =
          "<!--".toList ++ ('-' :: '>' :: (rest ++ "-->" ++ following).toList) := by
        refine hcut.imp (fun heq => hinside.trans ?_) fun heq => hinside.trans ?_
        · rw [heq, hrest, String.toList_append]
          rfl
        · rw [heq, hrest, String.toList_append]
          rfl
      obtain ⟨d, hd, hleft⟩ := past?_cutShort hopening
      rw [hcomment more hd, hleft]
    constructor
    · intro ws'
      rw [hfirst.yields_iff, hfirst.yields_iff]
      simp only [hleft]
    · intro hbracket hsame
      obtain ⟨others, hothers, hyields⟩ := (hfirst.yields_iff _).mp hsame
      obtain rfl := List.append_cancel_left hothers
      have hsolid : (rest.toList ++ "-->".toList).all Text.isBlank = false :=
        List.all_eq_false.mpr ⟨'-', by simp, by decide⟩
      obtain ⟨token, more, hmore, hyields⟩ := yields_behind_text (howed _)
        (hrest.trans (List.append_assoc ..).symm) (by simp [hbracket]) hend hsolid
        ((hleft _).mp hyields)
      obtain rfl : more = behind := Yields.unique hyields hbehind
      have := congrArg List.length hmore
      rw [List.length_cons] at this
      omega

theorem one_tag_ends_behind_tag : ∃ u, EndsBehindTag "<a>" [.opening "a" [] 0 1] u := by
  have hscan : (match (ofSource "<a>").scan with
      | .ok token u => decide (token = .opening "a" [] 0 1 ∧ u.cursor.rest = [] ∧ u.owed = none)
      | .error .. => false) = true := by
    decide +kernel
  cases hu : (ofSource "<a>").scan with
  | error e u =>
    rw [hu] at hscan
    cases hscan
  | ok token u =>
    rw [hu] at hscan
    obtain ⟨rfl, hrest, howed⟩ := of_decide_eq_true hscan
    refine ⟨u, .concat .start hu rfl, hrest, howed, ?_⟩
    rintro _ ⟨⟩
    rfl

/-- A comment with a bracket and dashes in it, between two tags. -/
theorem comment_in_note :
    (∃ u, EndsBehindTag "<a>" [.opening "a" [] 0 1] u) ∧
      "</a>".toList.head? = some '<' ∧ ¬ "-->".toList <:+: " > --".toList ∧
      (ofSource ("<a>" ++ "</a>")).Yields [.opening "a" [] 0 0, .closing "a" 0 0, .finish 0] ∧
      (∀ rest, ¬ CutShort " > --" rest) ∧
      (ofSource ("<a>" ++ (commented " > --" ++ "</a>"))).Yields
        [.opening "a" [] 0 0, .closing "a" 0 0, .finish 0] := by
  obtain ⟨u, hu⟩ := one_tag_ends_behind_tag
  have hfollowing : "</a>".toList.head? = some '<' := by decide
  have hcontent : ¬ "-->".toList <:+: " > --".toList := by decide
  have hplain : (ofSource ("<a>" ++ "</a>")).Yields
      [.opening "a" [] 0 0, .closing "a" 0 0, .finish 0] :=
    ⟨[.opening "a" [] 0 1, .closing "a" 0 1, .finish 1], by decide +kernel, rfl⟩
  have hwhole : ∀ rest, ¬ CutShort " > --" rest := by
    rintro rest (heq | heq)
    · have := congrArg (fun text => text.toList.head?) heq
      simp at this
    · have := congrArg (fun text => text.toList.head?) heq
      simp at this
  exact ⟨⟨u, hu⟩, hfollowing, hcontent, hplain, hwhole,
    (comment_passed_unless_cut_short hu (.inr hfollowing) hcontent hplain).1 hwhole⟩

/-- A comment whose text is a bracket changes the tokens: its end is taken for text. -/
theorem bracket_comment_is_text :
    (∃ u, EndsBehindTag "<a>" [.opening "a" [] 0 1] u) ∧ ¬ "-->".toList <:+: ">".toList ∧
      (ofSource ("<a>" ++ "</a>")).Yields [.opening "a" [] 0 0, .closing "a" 0 0, .finish 0] ∧
      (ofSource ("<a>" ++ (commented ">" ++ "</a>"))).Yields
        [.opening "a" [] 0 0, .text "-->" 1 0, .closing "a" 0 0, .finish 0] :=
  ⟨one_tag_ends_behind_tag, by decide,
    ⟨[.opening "a" [] 0 1, .closing "a" 0 1, .finish 1], by decide +kernel, rfl⟩,
    ⟨[.opening "a" [] 0 1, .text "-->" 1 1, .closing "a" 0 1, .finish 1], by decide +kernel, rfl⟩⟩

end Scanner

end Adventure.Markup
