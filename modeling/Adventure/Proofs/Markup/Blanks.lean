/-
Values that must not be blank.

An element that is read must have a text, and some elements must have an attribute; where
either is missing or blank the document is refused at once, with an error of parsing.  For a
direction nobody looks whether it is blank, but what is none is refused, and no direction is
untidy.  To say so for every element of every document, read or not, follow the walk up to the
element: from there on reading the document goes as it does from the tag at hand.

What the document gives in the plural of an entity, the file of a script and the verb of a
synonym is not looked at, whether it is blank or not.
-/
import Adventure.Proofs.Markup.Faults
import Adventure.Proofs.Markup.Values

namespace Adventure.Markup

open Text (Tidy)

variable {v : Vocabulary} {source : String} {page page' : Page} {levels outer : List Level}
variable {level : Level} {r s t : Reader} {plan : Plan} {more : Bool}

/-! ### Readings that fail -/

/-- An attribute that is missing or blank is not given. -/
theorem Token.attribute_ne_ok {token : Token} {key : String}
    (h : ∀ value, token.attribute? key = some value → Text.isBlankText value = true)
    (value : String) : token.attribute key ≠ .ok value := by
  intro hvalue
  obtain ⟨text, htext, rfl⟩ := Option.map_eq_some_iff.mp (Token.attribute?_of_attribute hvalue)
  have hblank := Token.not_isBlankText_attribute hvalue
  rw [Text.trim_of_isBlankText (h text htext)] at hblank
  exact absurd hblank (by decide)

theorem Reader.tidy_leafValue {value : String} (h : r.leafValue = .ok value s) : Tidy value := by
  obtain ⟨content, _, _, _, -, hblank, rfl, -⟩ := leafValue_ok h
  exact Text.tidy_trim (Text.not_isBlankText_trim hblank)

theorem Plan.Directs.of_carryOut {next : Option Section} (h : plan.Directs v)
    (hplan : plan.carryOut page r = .ok (next, page', s)) :
    page'.draft.declarations.TidyDirections v := by
  cases plan with
  | enter inner page'' =>
    simp only [carryOut, Except.ok.injEq, Prod.mk.injEq] at hplan
    obtain ⟨-, rfl, -⟩ := hplan
    exact h
  | read write =>
    obtain ⟨-, value, draft, hleaf, hwrite, rfl⟩ := carryOut_read_ok hplan
    exact h value draft (Reader.tidy_leafValue hleaf) hwrite
  | pass draft =>
    unfold carryOut at hplan
    dsimp only at hplan
    split at hplan
    · cases hplan
    · simp only [Except.ok.injEq, Prod.mk.injEq] at hplan
      obtain ⟨-, rfl, -⟩ := hplan
      exact h

/-! ### Up to an element -/

/-- The walk goes on with the plan for the next element. -/
theorem walk_child (hnext : r.nextTag = .ok more s)
    (hat : (more && s.isChildAt level.depth) = true) :
    walk v page r (level :: outer) =
      (level.within.child v level.tag page s.current).bind fun plan =>
        (plan.carryOut page s).bind fun (inner, page, t) =>
          walk v page t (match inner with
            | none => level :: outer
            | some inner => ⟨inner, s.current.tagName, level.depth + 1⟩ :: level :: outer) := by
  rw [walk]
  split
  · rename_i hfault
    rw [hnext] at hfault
    cases hfault
  rename_i hfound
  obtain ⟨rfl, rfl⟩ := EStateM.Result.ok.inj (hnext.symm.trans hfound)
  rw [dif_pos hat]
  cases level.within.child v level.tag page s.current with
  | error e => rfl
  | ok plan =>
    dsimp only [Except.bind]
    split <;> rename_i hplan <;> rw [hplan]

theorem walk_leave (hnext : r.nextTag = .ok more s)
    (hat : ¬ (more && s.isChildAt level.depth) = true)
    (hclose : Reader.checkClosing level.tag s = .ok () t) :
    walk v page r (level :: outer) = walk v page t outer := by
  rw [walk]
  split
  · rename_i hfault
    rw [hnext] at hfault
    cases hfault
  rename_i hfound
  obtain ⟨rfl, rfl⟩ := EStateM.Result.ok.inj (hnext.symm.trans hfound)
  rw [dif_neg hat]
  split
  · rename_i hfault
    rw [hclose] at hfault
    cases hfault
  · rename_i hdone
    obtain ⟨-, rfl⟩ := EStateM.Result.ok.inj (hclose.symm.trans hdone)
    rfl

/-- **From anywhere on the way, reading the document is walking on.** -/
theorem Reaches.readDocument_eq (h : Reaches v source page levels r) :
    readDocument v source = (do
      let final ← walk v page r levels
      final.draft.finish
      pure final.draft) := by
  induction h with
  | start hnext hgame =>
    unfold readDocument
    rw [hnext]
    exact if_pos hgame
  | stay _ hnext hat hchild hplan ih =>
    rw [ih, walk_child hnext hat, hchild]
    simp only [Except.bind, hplan]
  | enter _ hnext hat hchild hplan ih =>
    rw [ih, walk_child hnext hat, hchild]
    simp only [Except.bind, hplan]
  | leave _ hnext hat hclose ih => rw [ih, walk_leave hnext hat hclose]

/-- **On the way, whatever a word means is tidy.** -/
theorem Reaches.tidyDirections (hv : v.TidyDirections) (h : Reaches v source page levels r) :
    page.draft.declarations.TidyDirections v := by
  induction h with
  | start => exact Declarations.tidyDirections_empty hv
  | stay _ _ _ hchild hplan ih | enter _ _ _ hchild hplan ih =>
    exact (Section.directs_child hchild ih).of_carryOut hplan
  | leave _ _ _ _ ih => exact ih

/-- **A document is refused as soon as an element in it cannot be dealt with.** -/
theorem Meets.refused (h : Meets v source page level s)
    (hfails : ∀ plan, level.within.child v level.tag page s.current = .ok plan →
      ∀ next page' t, plan.carryOut page s ≠ .ok (next, page', t)) :
    ∃ e, readDocument v source = .error e ∧ e.isParse = true := by
  obtain ⟨outer, r, more, hreaches, hnext, hat⟩ := h
  have hread := hreaches.readDocument_eq
  rw [walk_child hnext hat] at hread
  have herror : ∃ e, readDocument v source = .error e := by
    cases hchild : level.within.child v level.tag page s.current with
    | error e =>
      rw [hchild] at hread
      exact ⟨e, hread⟩
    | ok plan =>
      rw [hchild] at hread
      cases hplan : plan.carryOut page s with
      | error e =>
        simp only [Except.bind, hplan] at hread
        exact ⟨e, hread⟩
      | ok out => exact absurd hplan (hfails plan hchild out.1 out.2.1 out.2.2)
  obtain ⟨e, he⟩ := herror
  exact ⟨e, he, isParse_of_readDocument he⟩

/-! ### What must not be blank -/

namespace Section

variable {around : Section} {parent : String} {key : String}

/-- The attribute that an element must have, given its name and the section around it. -/
def requiredKey? (around : Section) (tag : String) : Option String :=
  match around with
  | classGroup _ => some "class"
  | instances _ | messages _ => some "name"
  | allocations _ => some "amount"
  | events _ => if tag = "event" then some "name" else none
  | _ => none

/-- An element lacks what an argument is made of: its text or a required attribute is missing
or blank, or what it names as a direction is untidy. -/
inductive Lacks (v : Vocabulary) (around : Section) (parent : String) (page : Page) (s : Reader) :
    Prop
  | text {write : String → Except Error Draft}
    (hchild : around.child v parent page s.current = .ok (.read write))
    (htext : ∀ content depth line t, s.take = .ok (.text content depth line) t →
      Text.isBlankText content = true)
  | required {key : String} (hkey : around.requiredKey? s.current.tagName = some key)
    (hvalue : ∀ value, s.current.attribute? key = some value → Text.isBlankText value = true)
  | direction {value : String} (haround : around = .synonyms)
    (hvalue : s.current.attribute? "direction" = some value) (huntidy : ¬ Tidy value)

/-- Nothing is planned for an element without an attribute that it must have. -/
theorem attribute_of_child {token : Token} (hkey : around.requiredKey? token.tagName = some key)
    (h : around.child v parent page token = .ok plan) :
    ∃ value, token.attribute key = .ok value := by
  unfold child at h
  dsimp only at h
  cases around with
  | classGroup type =>
    obtain rfl := Option.some.inj hkey
    simp only [classChild, throw_bind, guard_ok_iff, bind_ok_iff] at h
    obtain ⟨-, name, hname, -⟩ := h
    exact ⟨name, hname⟩
  | instances type =>
    obtain rfl := Option.some.inj hkey
    simp only [instanceChild, throw_bind, guard_ok_iff, bind_ok_iff] at h
    obtain ⟨-, name, hname, -⟩ := h
    exact ⟨name, hname⟩
  | messages subject | allocations owner =>
    obtain rfl := Option.some.inj hkey
    obtain ⟨-, h⟩ := guard_not_ok_iff.mp h
    obtain ⟨value, hvalue, -⟩ := bind_ok_iff.mp h
    exact ⟨value, hvalue⟩
  | events subject =>
    obtain ⟨htag, hname⟩ := Option.ite_none_right_eq_some.mp hkey
    obtain rfl := Option.some.inj hname
    simp only [eventChild, htag] at h
    obtain ⟨name, hname, -⟩ := bind_ok_iff.mp h
    exact ⟨name, hname⟩
  | _ => cases hkey

/-- A synonym is not written for an untidy direction. -/
theorem tidy_of_synonyms {direction : String} {next : Option Section}
    (hdirections : page.draft.declarations.TidyDirections v)
    (h : synonyms.child v parent page s.current = .ok plan)
    (hplan : plan.carryOut page s = .ok (next, page', t))
    (hdirection : s.current.attribute? "direction" = some direction) : Tidy direction := by
  obtain ⟨-, h⟩ := guard_not_ok_iff.mp h
  obtain rfl := Except.ok.inj h
  obtain ⟨-, word, draft, -, hwrite, -⟩ := Plan.carryOut_read_ok hplan
  rw [hdirection] at hwrite
  split at hwrite
  · rename_i hnone
    cases hnone
  · rename_i hsome
    obtain rfl := Option.some.inj hsome
    obtain ⟨declared, hdeclared, -⟩ := bind_ok_iff.mp hwrite
    exact hdirections _ _ (Draft.resolved_of_declareDirectionSynonym hdeclared).1
  · cases hwrite

end Section

/-- **An element that lacks a value keeps the document from being read.** -/
theorem Meets.refused_of_lacks (hv : v.TidyDirections) (h : Meets v source page level s)
    (hlacks : level.within.Lacks v level.tag page s) :
    ∃ e, readDocument v source = .error e ∧ e.isParse = true := by
  have hdirections : page.draft.declarations.TidyDirections v := by
    obtain ⟨_, _, _, hreaches, -, -⟩ := h
    exact hreaches.tidyDirections hv
  refine h.refused ?_
  intro plan hchild next page' t hplan
  cases hlacks with
  | text hread htext =>
    obtain rfl := Except.ok.inj (hchild.symm.trans hread)
    obtain ⟨-, _, _, hleaf, -⟩ := Plan.carryOut_read_ok hplan
    obtain ⟨content, depth, line, u, htake, hblank, -⟩ := Reader.leafValue_ok hleaf
    exact absurd (htext content depth line u htake) (by simp [hblank])
  | required hkey hvalue =>
    obtain ⟨value, hattribute⟩ := Section.attribute_of_child hkey hchild
    exact Token.attribute_ne_ok hvalue value hattribute
  | direction haround hvalue huntidy =>
    rw [haround] at hchild
    exact huntidy (Section.tidy_of_synonyms hdirections hchild hplan hvalue)

/-- **The arguments that operations of a document have are tidy, apart from what stands in the
source as the plural of an entity, the file of a script or the verb of a synonym**: a text
that is not tidy is an argument exactly if it was written in one of these places.  Whatever
else an argument is made of is trimmed, and may not be blank: every element of a document that
is read was dealt with, and a document in which one is met that lacks its text or an attribute
is refused with an error of parsing. -/
theorem untidy_as_written (hv : v.TidyDirections) (source : String) :
    (∀ d, readDocument v source = .ok d → ∃ attributes first inner last s,
      (Scanner.ofSource source).Scans
          (.opening "game" attributes 0 first :: inner ++ [.closing "game" 0 last]) s ∧
        (∀ t ∈ inner, 0 < t.depth) ∧
        (∀ el ∈ elements ["game"] inner, DealsWith v source el.tag) ∧
        ∀ text, ¬ Tidy text → ((∃ op ∈ d.operations, text ∈ op.arguments) ↔
          ∃ el ∈ elements ["game"] inner, text ∈ el.raw)) ∧
    ∀ page level s, Meets v source page level s → level.within.Lacks v level.tag page s →
      ∃ e, readDocument v source = .error e ∧ e.isParse = true := by
  refine ⟨?_, fun page level s hmeets hlacks => hmeets.refused_of_lacks hv hlacks⟩
  intro d hd
  obtain ⟨attributes, first, inner, last, s, hscans, hinner, hdeals, horigin, hraw⟩ :=
    held_of_readDocument hv hd
  refine ⟨attributes, first, inner, last, s, hscans, hinner, hdeals, ?_⟩
  intro text huntidy
  refine ⟨fun hheld => (horigin text hheld).resolve_left huntidy, ?_⟩
  rintro ⟨el, hel, htext⟩
  exact hraw el hel text htext

/-- A game that adds a word for a verb. -/
def synonymFor (verb : String) : String :=
  "<game><vocabulary><synonyms><synonym verb=\"" ++ verb ++
    "\">grab</synonym></synonyms></vocabulary></game>"

set_option maxRecDepth 100000 in
/-- The verb is an argument together with the space before it, so the space is found in the
source. -/
theorem spaced_verb_is_raw : ∃ d inner, readDocument .english (synonymFor " take") = .ok d ∧
    d.operations = [.defineVerbSynonym " take" "grab" 1] ∧
    ∃ el ∈ elements ["game"] inner, " take" ∈ el.raw := by
  have hread : (readDocument .english (synonymFor " take")).toOption.map Draft.operations =
      some [.defineVerbSynonym " take" "grab" 1] := by
    decide +kernel
  obtain ⟨d, hd, hops⟩ := Option.map_eq_some_iff.mp hread
  obtain ⟨_, _, inner, _, _, -, -, -, huntidy⟩ :=
    (untidy_as_written Vocabulary.tidyDirections_english _).1 d (ok_of_toOption hd)
  refine ⟨d, inner, ok_of_toOption hd, hops, (huntidy " take" (by decide +kernel)).mp ?_⟩
  rw [hops]
  exact ⟨_, List.mem_singleton_self _, List.mem_cons_self ..⟩

set_option maxRecDepth 100000 in
/-- A document is read although the verb of a synonym is empty, and the empty text becomes an
argument. -/
theorem empty_verb_is_read : ∃ d, readDocument .english (synonymFor "") = .ok d ∧
    ∃ op ∈ d.operations, "" ∈ op.arguments := by
  have hread : (readDocument .english (synonymFor "")).toOption.map Draft.operations =
      some [.defineVerbSynonym "" "grab" 1] := by
    decide +kernel
  obtain ⟨d, hd, hops⟩ := Option.map_eq_some_iff.mp hread
  refine ⟨d, ok_of_toOption hd, .defineVerbSynonym "" "grab" 1, ?_, List.mem_cons_self ..⟩
  rw [hops]
  exact List.mem_singleton_self _

end Adventure.Markup
