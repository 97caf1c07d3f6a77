/-
What the arguments of operations are made of.

An argument comes from the text of an element, from an attribute that the element must have,
from the name of a tag, or from a word of the program's own; and all of these are tidy: texts
and such attributes are trimmed when they are read and may not be blank, and names hold no
white space.  Three attributes are taken another way.  The plural of an entity, the file of a
script and the verb of a synonym may be missing, so they are asked for without being
required, and what is found goes into the operation as it was written.

The walk is followed element by element.  Each brings into the draft what is tidy, and of the
three attributes the one that it has; so an argument that is not tidy can always be found in
the source, and nothing that was written in one of these attributes gets lost.
-/
import Adventure.Proofs.Markup.Elements
import Adventure.Proofs.Tidiness

namespace Adventure.Markup

open Text (Cursor Tidy)

variable {v : Vocabulary} {page : Page} {plan : Plan} {token : Token}

/-! ### Names -/

/-- A name holds no white space at all. -/
theorem tidy_of_scanName {c d : Cursor} {name : String} (h : scanName c = .ok name d) :
    Tidy name := by
  unfold scanName at h
  dsimp only at h
  split at h
  · exact absurd h nofun
  · rename_i hne
    obtain ⟨rfl, -⟩ := EStateM.Result.ok.inj h
    refine Text.tidy_of_forall ?_ ?_
    · simpa using hne
    · intro x hx
      rw [String.toList_ofList] at hx
      exact not_isBlank_of_isNameChar (List.all_eq_true.mp List.all_takeWhile x hx)

namespace Scanner

variable {s t : Scanner} {names : List String}

theorem tidy_openElement (h : s.openElement = .ok token t) : Tidy token.tagName := by
  unfold openElement at h
  dsimp only at h
  split at h
  · exact absurd h nofun
  · split at h
    · exact absurd h nofun
    · rename_i hscan
      obtain ⟨rfl, -⟩ := EStateM.Result.ok.inj h
      obtain ⟨_, _, hname⟩ := exists_scanName_of_scanOpening hscan
      exact tidy_of_scanName hname

theorem not_isOpening_closeElement (h : s.closeElement = .ok token t) :
    token.isOpening = false := by
  unfold closeElement at h
  dsimp only at h
  split at h
  · cases h
  · split at h
    · cases h
    · split at h
      · obtain ⟨rfl, -⟩ := EStateM.Result.ok.inj h
        rfl
      · cases h

theorem not_isOpening_giveText {content : List Char} {line : Nat}
    (h : s.giveText content line = .ok token t) : token.isOpening = false := by
  unfold giveText at h
  split at h
  · exact absurd h nofun
  · obtain ⟨rfl, -⟩ := EStateM.Result.ok.inj h
    rfl

theorem tidy_scanText (h : s.scanText = .ok token t) (hopening : token.isOpening = true) :
    Tidy token.tagName := by
  fun_induction scanText s with
  | case1 | case3 | case5 | case7 | case13 => cases h
  | case2 s =>
    obtain ⟨rfl, -⟩ := EStateM.Result.ok.inj h
    cases hopening
  | case4 s _ _ cursor _ ih | case6 s _ _ cursor _ ih | case8 s _ _ cursor _ ih => exact ih h
  | case9 s =>
    unfold readCharacterData at h
    dsimp only at h
    split at h
    · cases h
    · exact absurd hopening (by simp [not_isOpening_giveText h])
  | case10 s => exact absurd hopening (by simp [not_isOpening_closeElement h])
  | case11 s => exact tidy_openElement h
  | case12 s _ _ _ _ _ ih => exact ih h
  | case14 s => exact absurd hopening (by simp [not_isOpening_giveText h])

/-- The name in an opening tag is tidy. -/
theorem tidy_scan (hs : s.Around names) (h : s.scan = .ok token t)
    (hopening : token.isOpening = true) : Tidy token.tagName := by
  unfold scan at h
  cases hs with
  | even howed =>
    rw [howed] at h
    exact tidy_scanText h hopening
  | owing howed =>
    rw [howed] at h
    obtain ⟨rfl, -⟩ := EStateM.Result.ok.inj h
    cases hopening

/-- **The name of every element that is opened on the way is tidy.** -/
theorem Scans.tidy {ts : List Token} (h : s.Scans ts t) (hs : s.Around names) :
    (∃ names', t.Around names') ∧
      ∀ token ∈ ts, token.isOpening = true → Tidy token.tagName := by
  induction h with
  | start => exact ⟨⟨names, hs⟩, nofun⟩
  | @concat ts t u token _ hscan _ ih =>
    obtain ⟨⟨names', ht⟩, hnames⟩ := ih
    obtain ⟨after, hhanded⟩ := handed_scan ht hscan
    refine ⟨⟨after, hhanded.around⟩, ?_⟩
    intro other hother
    rcases List.mem_append.mp hother with hother | hother
    · exact hnames other hother
    · exact List.mem_singleton.mp hother ▸ tidy_scan ht hscan

end Scanner

/-! ### Values -/

/-- An attribute that a tag must have is trimmed. -/
theorem Token.tidy_attribute {key value : String} (h : token.attribute key = .ok value) :
    Tidy value := by
  have hblank := Token.not_isBlankText_attribute h
  obtain ⟨text, -, rfl⟩ := Option.map_eq_some_iff.mp (Token.attribute?_of_attribute h)
  exact Text.tidy_trim hblank

theorem tidy_leafProperty? {type : EntityType} {tag property : String}
    (h : leafProperty? type tag = some property) : Tidy property := by
  have hall : ∀ type ∈ EntityType.all, ∀ leaf ∈ commonLeaves ++ typeLeaves type,
      Tidy leaf.2 := by
    decide +kernel
  exact hall type type.mem_all _ (NameTable.mem_of_lookup h)

/-! ### Sections -/

namespace Section

/-- The texts that a section adds to what its elements say. -/
def texts : Section → List String
  | body subject _ | messages subject | tags subject | metadata subject | aliases subject
  | attributes subject | inventory subject | events subject => subject.arguments
  | group subject stem fields => subject.arguments ++ fields.map (stem ++ "." ++ ·)
  | contents room => [room]
  | allocations owner => [owner]
  | _ => []

/-- What an element in a section gives as it is written: the plural of an entity, the verb of
a synonym, the file of a script. -/
def raw (around : Section) (token : Token) : List String :=
  match around with
  | instances _ => (token.attribute? "plural").toList
  | synonyms => (token.attribute? "verb").toList
  | events _ => if token.tagName = "script" then (token.attribute? "src").toList else []
  | _ => []

/-- What the name of an element tells about the words in it, given the section around it. -/
structure IntoWords (around : Section) (tag : String) (inner : Section) : Prop where
  vocabulary : inner = .vocabulary ↔ around = .game ∧ tag = "vocabulary"
  synonyms : inner = .synonyms ↔ around = .vocabulary ∧ tag = "synonyms"

end Section

/-- What a plan for the element of a tag brings in is tidy, but for what the section takes as
it is written. -/
def Plan.Neat (around : Section) (page : Page) (token : Token) : Plan → Prop
  | .enter inner page' =>
    page.draft.Brings (around.raw token) page'.draft ∧ (∀ text ∈ inner.texts, Tidy text) ∧
      around.IntoWords token.tagName inner
  | .read write => ∀ value draft, Tidy value → write value = .ok draft →
    page.draft.Brings (around.raw token) draft
  | .pass draft => page.draft.Brings (around.raw token) draft

namespace Section

variable {around inner : Section} {type : EntityType} {tag parent : String}
variable {line : Nat} {subject : Subject} {opOf : String → Operation}

/-! ### The usual elements -/

theorem neat_enter (h : enter page inner = .ok plan) (hplaced : page.draft.Placed)
    (hraw : around.raw token = []) (hinner : ∀ text ∈ inner.texts, Tidy text)
    (hinto : around.IntoWords token.tagName inner) : plan.Neat around page token := by
  obtain rfl := Except.ok.inj h
  exact ⟨hraw ▸ .refl hplaced, hinner, hinto⟩

theorem neat_leaf (h : leaf page opOf = .ok plan) (hplaced : page.draft.Placed)
    (hraw : around.raw token = [])
    (hop : ∀ value, Tidy value → ∀ text ∈ (opOf value).arguments, Tidy text) :
    plan.Neat around page token := by
  obtain rfl := Except.ok.inj h
  intro value draft hvalue hdraft
  obtain rfl := Except.ok.inj hdraft
  exact hraw ▸ hplaced.brings_tidy (hop value hvalue)

theorem neat_reference (h : reference page type line opOf = .ok plan)
    (hplaced : page.draft.Placed) (hraw : around.raw token = [])
    (hop : ∀ value, Tidy value → ∀ text ∈ (opOf value).arguments, Tidy text) :
    plan.Neat around page token := by
  obtain rfl := Except.ok.inj h
  intro name draft hname hdraft
  obtain ⟨used, hused, hwrite⟩ := bind_ok_iff.mp hdraft
  obtain rfl := Except.ok.inj hwrite
  have huse := hplaced.brings_usesEntity hname (Draft.usesEntity_of_ok hused)
  exact hraw ▸ huse.trans (huse.placed.brings_tidy (hop name hname))

theorem tidy_acting {opcode : Opcode} {payload : List String}
    (hsubject : ∀ text ∈ subject.arguments, Tidy text) (hpayload : ∀ text ∈ payload, Tidy text) :
    ∀ text ∈ (Operation.acting opcode subject payload line).arguments, Tidy text :=
  List.forall_mem_append.mpr ⟨hsubject, hpayload⟩

/-- The usual leaf: it sets something of a subject to what it reads. -/
theorem neat_setting {opcode : Opcode} {key : String}
    (h : leaf page (fun value => .acting opcode subject [key, value] line) = .ok plan)
    (hplaced : page.draft.Placed) (hraw : around.raw token = [])
    (hsubject : ∀ text ∈ subject.arguments, Tidy text) (hkey : Tidy key) :
    plan.Neat around page token :=
  neat_leaf h hplaced hraw fun value hvalue => tidy_acting hsubject (by simp [hkey, hvalue])

/-! ### Every element -/

theorem neat_gameChild (h : gameChild page token.tagName parent line = .ok plan)
    (hplaced : page.draft.Placed) : plan.Neat .game page token := by
  unfold gameChild at h
  split at h
  case h_1 =>
    rename_i htag
    split at h
    · exact absurd h nofun
    · exact neat_enter h hplaced rfl nofun ⟨by simp [htag], by simp⟩
  case h_2 | h_3 | h_6 =>
    rename_i htag
    exact neat_enter h hplaced rfl nofun ⟨by simp [htag], by simp⟩
  case h_4 | h_5 | h_7 =>
    rename_i htag
    exact neat_enter h hplaced rfl (by decide +kernel) ⟨by simp [htag], by simp⟩
  case h_8 =>
    rename_i hvocabulary _ _ _ _ _
    split at h
    · obtain rfl := Except.ok.inj h
      exact ⟨.refl hplaced, nofun, by simpa using hvocabulary, by simp⟩
    · exact absurd h nofun

theorem neat_classChild (h : classChild page type token = .ok plan)
    (hplaced : page.draft.Placed) : plan.Neat (.classGroup type) page token := by
  simp only [classChild, throw_bind, guard_ok_iff, bind_ok_iff] at h
  obtain ⟨-, name, hname, draft, hdraft, h⟩ := h
  obtain rfl := Except.ok.inj h
  obtain ⟨rfl, -⟩ := Draft.declareClass_ok hdraft
  have htidy := Token.tidy_attribute hname
  refine ⟨(hplaced.brings_tidy ?_).withDeclarations _, ?_, by simp, by simp⟩
  · simp [Operation.defineEntityClass, htidy, type.tidy_name]
  · simp [texts, Subject.arguments, htidy, Target.tidy_name]

theorem neat_instanceChild (h : instanceChild page type parent token = .ok plan)
    (hplaced : page.draft.Placed) (htag : Tidy token.tagName) :
    plan.Neat (.instances type) page token := by
  simp only [instanceChild, throw_bind, guard_ok_iff, bind_ok_iff] at h
  obtain ⟨-, name, hname, index, hindex, h⟩ := h
  obtain rfl := Except.ok.inj h
  have htidy := Token.tidy_attribute hname
  refine ⟨hplaced.brings_declareEntity htidy htag (Prod.ext hindex rfl), ?_, by simp, by simp⟩
  simp [texts, Subject.arguments, htidy, Target.tidy_name]

/-- The sections in a body add the words for its subject, and names that are built in. -/
theorem tidy_bodySection? (h : bodySection? subject type tag = some inner)
    (hsubject : ∀ text ∈ subject.arguments, Tidy text) :
    (∀ text ∈ inner.texts, Tidy text) ∧ inner ≠ .vocabulary ∧ inner ≠ .synonyms := by
  unfold bodySection? at h
  dsimp only at h
  split at h
  case h_1 | h_2 | h_3 => exact Option.some.inj h ▸ ⟨hsubject, nofun, nofun⟩
  case h_4 =>
    obtain ⟨-, h⟩ := Option.ite_none_left_eq_some.mp h
    exact Option.some.inj h ▸ ⟨hsubject, nofun, nofun⟩
  case h_5 =>
    split at h
    · obtain ⟨-, h⟩ := Option.ite_none_left_eq_some.mp h
      exact Option.some.inj h ▸ ⟨(List.forall_mem_cons.mp hsubject).2, nofun, nofun⟩
    · exact absurd h nofun
  case h_6 =>
    split at h
    · obtain ⟨-, h⟩ := Option.ite_none_right_eq_some.mp h
      exact Option.some.inj h ▸ ⟨(List.forall_mem_cons.mp hsubject).2, nofun, nofun⟩
    · exact absurd h nofun
  case h_7 | h_8 | h_9 =>
    obtain ⟨-, h⟩ := Option.ite_none_right_eq_some.mp h
    exact Option.some.inj h ▸ ⟨hsubject, nofun, nofun⟩
  case h_13 => exact absurd h nofun
  all_goals
    obtain ⟨-, h⟩ := Option.ite_none_right_eq_some.mp h
    refine Option.some.inj h ▸ ⟨List.forall_mem_append.mpr ⟨hsubject, ?_⟩, nofun, nofun⟩
    decide +kernel

theorem neat_bodyChild
    (h : bodyChild v page subject type token.tagName parent line = .ok plan)
    (hplaced : page.draft.Placed) (hdirections : page.draft.declarations.TidyDirections v)
    (hsubject : ∀ text ∈ subject.arguments, Tidy text) :
    plan.Neat (.body subject type) page token := by
  unfold bodyChild at h
  split at h
  · rename_i hproperty
    exact neat_setting h hplaced rfl hsubject (tidy_leafProperty? hproperty)
  split at h
  · rename_i hinner
    obtain ⟨htexts, hvocabulary, hsynonyms⟩ := tidy_bodySection? hinner hsubject
    exact neat_enter h hplaced rfl htexts ⟨by simp [hvocabulary], by simp [hsynonyms]⟩
  split at h
  · split at h
    · exact absurd h nofun
    · unfold exitChild at h
      split at h
      · rename_i direction hdirection
        have htidy := hdirections _ _ hdirection
        exact neat_reference h hplaced rfl fun room hroom =>
          tidy_acting hsubject (by simp [htidy, hroom])
      · exact absurd h nofun
  · exact absurd h nofun

theorem neat_inventoryChild
    (h : inventoryChild page subject token.tagName parent line = .ok plan)
    (hplaced : page.draft.Placed) (hsubject : ∀ text ∈ subject.arguments, Tidy text) :
    plan.Neat (.inventory subject) page token := by
  unfold inventoryChild at h
  split at h
  · exact neat_setting h hplaced rfl hsubject (by decide +kernel)
  · have hbeing := (List.forall_mem_cons.mp hsubject).2
    exact neat_reference h hplaced rfl fun object hobject =>
      List.forall_mem_cons.mpr ⟨hobject, hbeing⟩
  · exact absurd h nofun
  · exact absurd h nofun

theorem neat_eventChild (h : eventChild page subject parent token = .ok plan)
    (hplaced : page.draft.Placed) (hsubject : ∀ text ∈ subject.arguments, Tidy text) :
    plan.Neat (.events subject) page token := by
  unfold eventChild at h
  dsimp only at h
  split at h
  · rename_i htag
    split at h
    · rename_i path hpath
      obtain rfl := Except.ok.inj h
      have hraw : (events subject).raw token = [path] := by simp [raw, htag, hpath]
      refine hplaced.brings_write ?_ ?_
      · intro text htext
        rw [hraw]
        rcases List.mem_append.mp htext with htext | htext
        · exact .inr (hsubject text htext)
        · rcases List.mem_pair.mp htext with rfl | rfl
          · exact .inr (ScriptMode.tidy_name _)
          · exact .inl (List.mem_singleton_self _)
      · rw [hraw]
        simp [Operation.loadScript, Operation.acting]
    · rename_i hpath
      exact neat_setting h hplaced (by simp [raw, htag, hpath]) hsubject (ScriptMode.tidy_name _)
  · rename_i htag
    obtain ⟨name, hname, h⟩ := bind_ok_iff.mp h
    exact neat_setting h hplaced (by simp [raw, htag]) hsubject (Token.tidy_attribute hname)
  · cases h

theorem neat_synonymChild (h : synonymChild v page token = .ok plan)
    (hplaced : page.draft.Placed) (hdirections : page.draft.declarations.TidyDirections v) :
    plan.Neat .synonyms page token := by
  obtain rfl := Except.ok.inj h
  intro word draft hword hdraft
  split at hdraft
  · rename_i verb hverb _
    obtain ⟨declared, hdeclared, hwrite⟩ := bind_ok_iff.mp hdraft
    obtain rfl := Except.ok.inj hwrite
    obtain rfl := Draft.declareVerbSynonym_ok hdeclared
    refine (hplaced.brings_write ?_ ?_).withDeclarations _
    · simp [Operation.defineVerbSynonym, raw, hverb, hword]
    · simp [Operation.defineVerbSynonym, raw, hverb]
  · rename_i direction hverb _
    obtain ⟨declared, hdeclared, hwrite⟩ := bind_ok_iff.mp hdraft
    obtain rfl := Except.ok.inj hwrite
    have htidy := hdirections _ _ (Draft.resolved_of_declareDirectionSynonym hdeclared).1
    obtain rfl := Draft.declareDirectionSynonym_ok hdeclared
    refine (hplaced.brings_write ?_ ?_).withDeclarations _
    · simp [Operation.defineDirectionSynonym, htidy, hword]
    · simp [raw, hverb]
  · cases hdraft

/-- **Whatever an element is, what is written for it is tidy**, but for the attribute that is
taken as it is. -/
theorem neat_child (h : around.child v parent page token = .ok plan)
    (hplaced : page.draft.Placed) (hdirections : page.draft.declarations.TidyDirections v)
    (htag : Tidy token.tagName) (haround : ∀ text ∈ around.texts, Tidy text) :
    plan.Neat around page token := by
  unfold child at h
  dsimp only at h
  cases around with
  | game => exact neat_gameChild h hplaced
  | classes =>
    dsimp only at h
    split at h
    · exact neat_enter h hplaced rfl nofun ⟨by simp, by simp⟩
    · exact absurd h nofun
  | classGroup type => exact neat_classChild h hplaced
  | instances type => exact neat_instanceChild h hplaced htag
  | player =>
    obtain ⟨-, h⟩ := guard_not_ok_iff.mp h
    exact neat_enter h hplaced rfl (by decide +kernel) ⟨by simp, by simp⟩
  | body subject type => exact neat_bodyChild h hplaced hdirections haround
  | messages subject =>
    obtain ⟨-, h⟩ := guard_not_ok_iff.mp h
    obtain ⟨name, hname, h⟩ := bind_ok_iff.mp h
    exact neat_setting h hplaced rfl haround (Token.tidy_attribute hname)
  | tags subject | aliases subject =>
    obtain ⟨-, h⟩ := guard_not_ok_iff.mp h
    exact neat_leaf h hplaced rfl fun value hvalue => tidy_acting haround (by simp [hvalue])
  | metadata subject | attributes subject => exact neat_setting h hplaced rfl haround htag
  | group subject stem fields =>
    obtain ⟨hfield, h⟩ := guard_not_ok_iff.mp h
    obtain ⟨hsubject, hfields⟩ := List.forall_mem_append.mp haround
    refine neat_setting h hplaced rfl hsubject (hfields _ (List.mem_map_of_mem ?_))
    simpa using hfield
  | inventory subject => exact neat_inventoryChild h hplaced haround
  | contents room =>
    dsimp only at h
    split at h
    iterate 2
      exact neat_reference h hplaced rfl fun thing hthing =>
        List.forall_mem_cons.mpr ⟨hthing, haround⟩
    exact absurd h nofun
  | allocations owner =>
    obtain ⟨-, h⟩ := guard_not_ok_iff.mp h
    obtain ⟨amount, hamount, h⟩ := bind_ok_iff.mp h
    have htidy := Token.tidy_attribute hamount
    have howner := List.forall_mem_singleton.mp haround
    exact neat_reference h hplaced rfl fun resource hresource => by
      simp [Operation.allocateResource, hresource, howner, htidy]
  | events subject => exact neat_eventChild h hplaced haround
  | vocabulary =>
    dsimp only at h
    split at h
    iterate 2
      rename_i htag
      exact neat_enter h hplaced rfl nofun ⟨by simp, by simp [htag]⟩
    exact absurd h nofun
  | directions =>
    obtain ⟨-, h⟩ := guard_not_ok_iff.mp h
    obtain rfl := Except.ok.inj h
    intro word draft hword hdraft
    obtain ⟨declared, hdeclared, hwrite⟩ := bind_ok_iff.mp hdraft
    obtain rfl := Except.ok.inj hwrite
    obtain rfl := Draft.declareDirection_ok hdeclared
    exact (hplaced.brings_tidy (List.forall_mem_singleton.mpr hword)).withDeclarations _
  | synonyms =>
    obtain ⟨-, h⟩ := guard_not_ok_iff.mp h
    exact neat_synonymChild h hplaced hdirections
  | timer =>
    obtain ⟨-, h⟩ := guard_not_ok_iff.mp h
    exact neat_leaf h hplaced rfl fun period hperiod => List.forall_mem_singleton.mpr hperiod

end Section

/-! ### Directions -/

/-- What a plan leaves of directions: whatever a word means is tidy. -/
def Plan.Directs (v : Vocabulary) : Plan → Prop
  | .enter _ page' => page'.draft.declarations.TidyDirections v
  | .read write => ∀ value draft, Tidy value → write value = .ok draft →
    draft.declarations.TidyDirections v
  | .pass draft => draft.declarations.TidyDirections v

/-- **Only what was read becomes a direction.** -/
theorem Section.directs_child {around : Section} {parent : String}
    (h : around.child v parent page token = .ok plan)
    (hpage : page.draft.declarations.TidyDirections v) : plan.Directs v := by
  have hdoes := does_child h
  cases hdoes with
  | goes _ _ _ _ hdraft =>
    rw [Plan.Directs, hdraft]
    exact hpage
  | defines _ _ hadds => exact Draft.tidyDirections_adds hpage hadds nofun
  | declares _ _ hdeclare => exact Draft.tidyDirections_declareEntity hpage hdeclare
  | writes _ _ hwrites =>
    intro value draft hvalue hwrite
    obtain ⟨op, hadds, hrecords⟩ := hwrites value draft hwrite
    refine Draft.tidyDirections_adds hpage hadds ?_
    intro word hword
    have hmem := hrecords.value
    rw [hword, List.mem_singleton] at hmem
    exact hmem ▸ hvalue
  | loads => exact hpage

/-! ### Elements -/

/-- What an element gives as it is written, as it shows in the tokens. -/
def Element.raw (el : Element) : List String :=
  if el.instanceType?.isSome then (el.tag.attribute? "plural").toList
  else if el.outer = ["synonyms", "vocabulary", "game"] then (el.tag.attribute? "verb").toList
  else if el.text.isNone then el.scriptPath?.toList
  else []

section Elements

variable {around inner : Section} {parent tag : String} {page' : Page} {path : List String}
variable {taken rest : List Token} {text : Option String}

/-- The sections for words lie where the names of the elements around say. -/
structure Section.AtWords (around : Section) (path : List String) : Prop where
  vocabulary : around = .vocabulary ↔ path = ["vocabulary", "game"]
  synonyms : around = .synonyms ↔ path = ["synonyms", "vocabulary", "game"]

theorem Section.AtWords.start : Section.game.AtWords ["game"] :=
  ⟨by simp, by simp⟩

theorem Section.AtWords.into (h : around.AtWords path) (hat : around.At path)
    (hinto : around.IntoWords tag inner) : inner.AtWords (tag :: path) := by
  refine ⟨?_, ?_⟩
  · rw [hinto.vocabulary, hat.game, List.cons_eq_cons, and_comm]
  · rw [hinto.synonyms, h.vocabulary, List.cons_eq_cons, and_comm]

/-- Among the classes of a type there are no scripts. -/
theorem Section.At.scriptPath?_of_classGroup {type : EntityType}
    (h : (Section.classGroup type).At path) :
    (⟨path, token, text⟩ : Element).scriptPath? = none := by
  obtain ⟨around, rfl, htype⟩ := (h.classGroup type).mp rfl
  have hne : around ≠ "events" := by
    rintro rfl
    cases htype
  simp [Element.scriptPath?, hne]

/-- What holds further elements is no script. -/
theorem scriptPath?_of_enter (hat : around.At path)
    (hchild : around.child v parent page token = .ok (.enter inner page')) :
    (⟨path, token, text⟩ : Element).scriptPath? = none := by
  have hdoes := Section.does_child hchild
  cases hdoes with
  | goes _ _ _ htag => simp [Element.scriptPath?, htag]
  | defines haround =>
    subst haround
    exact hat.scriptPath?_of_classGroup
  | declares haround =>
    subst haround
    exact hat.scriptPath?_eq_none

namespace Section

theorem raw_eq_nil (hinstance : ∀ type, around ≠ .instances type) (hsynonyms : around ≠ .synonyms)
    (hevents : ∀ subject, around ≠ .events subject) : around.raw token = [] := by
  unfold raw
  split
  · exact absurd rfl (hinstance _)
  · exact absurd rfl hsynonyms
  · exact absurd rfl (hevents _)
  · rfl

/-- A script that names its file is not read. -/
theorem raw_of_read {subject : Subject} {write : String → Except Error Draft}
    (hchild : (events subject).child v parent page token = .ok (.read write)) :
    (events subject).raw token = [] := by
  by_cases htag : token.tagName = "script"
  · cases hpath : token.attribute? "src" with
    | none => simp [raw, htag, hpath]
    | some file => simp [child, eventChild, htag, hpath, pure, Except.pure] at hchild
  · simp [raw, htag]

end Section

/-- **What an element gives as it is written shows in the tokens.** -/
theorem raw_element {next : Option Section} (rest : List Token) (hat : around.At path)
    (hwords : around.AtWords path) (hchild : around.child v parent page token = .ok plan)
    (htakes : plan.Takes page token.tagName taken next page') :
    (⟨path, token, leadingText (taken ++ rest)⟩ : Element).raw = around.raw token := by
  by_cases hinstance : ∃ type, around = .instances type
  · obtain ⟨type, rfl⟩ := hinstance
    rw [Element.raw, hat.instanceType?_eq_some_iff.mpr rfl]
    rfl
  have hnone : (⟨path, token, leadingText (taken ++ rest)⟩ : Element).instanceType? = none :=
    Option.eq_none_iff_forall_ne_some.mpr fun type htype =>
      hinstance ⟨type, hat.instanceType?_eq_some_iff.mp htype⟩
  rw [Element.raw, hnone, if_neg (by simp)]
  by_cases hsynonyms : around = .synonyms
  · subst hsynonyms
    rw [if_pos (hwords.synonyms.mp rfl)]
    rfl
  rw [if_neg (mt hwords.synonyms.mpr hsynonyms)]
  by_cases hevents : ∃ subject, around = .events subject
  · obtain ⟨subject, rfl⟩ := hevents
    cases htakes with
    | enter =>
      cases Section.does_child hchild with
      | goes _ _ _ htag => simp [Element.scriptPath?, Section.raw, htag]
      | defines haround | declares haround => cases haround
    | read => exact (Section.raw_of_read hchild).symm
    | pass =>
      cases Section.does_child hchild with
      | loads _ htag hpath =>
        have hhead := hat.events subject rfl
        simp [leadingText, Element.scriptPath?, Section.raw, hhead, htag, hpath]
  · rw [Section.raw_eq_nil (not_exists.mp hinstance) hsynonyms (not_exists.mp hevents)]
    cases htakes with
    | enter => rw [scriptPath?_of_enter hat hchild, Option.toList_none, ite_self]
    | read => rfl
    | pass =>
      cases Section.does_child hchild with
      | loads haround => exact absurd ⟨_, haround⟩ hevents

end Elements

/-! ### A whole walk -/

/-- Every section that is open lies among the words only if the names say so, and adds nothing
but tidy texts. -/
def Worded : List Level → Prop
  | [] => True
  | level :: outer => level.within.AtWords ((level :: outer).map Level.tag) ∧
      (∀ text ∈ level.within.texts, Tidy text) ∧ Worded outer

/-- **A walk brings in what is tidy, and what its elements give as it is written.** -/
theorem Walks.brings {page final : Page} {levels : List Level} {ts : List Token}
    (h : Walks v page levels ts final) (hlocated : Located levels) (hworded : Worded levels)
    (hnames : ∀ token ∈ ts, token.isOpening = true → Tidy token.tagName)
    (hplaced : page.draft.Placed) (hdirections : page.draft.declarations.TidyDirections v) :
    page.draft.Brings ((elements (levels.map Level.tag) ts).flatMap Element.raw) final.draft := by
  induction h with
  | done page => exact .refl hplaced
  | @stay page page' final level outer token plan taken rest hopens hchild htakes _ ih =>
    obtain ⟨hname, hrest⟩ := List.forall_mem_cons.mp hnames
    have hneat := Section.neat_child hchild hplaced hdirections (hname hopens.1) hworded.2.1
    have hdirects := Section.directs_child hchild hdirections
    have hraw := raw_element rest hlocated.1 hworded.1 hchild htakes
    rw [elements_opening hopens.1, elements_taken htakes, List.flatMap_cons, hraw]
    have hnames' := (List.forall_mem_append.mp hrest).2
    cases htakes with
    | read hvalue hwrite =>
      have htidy := Text.tidy_trim hvalue
      have hfirst := hneat _ _ htidy hwrite
      exact hfirst.trans (ih hlocated hworded hnames' hfirst.placed (hdirects _ _ htidy hwrite))
    | pass => exact hneat.trans (ih hlocated hworded hnames' hneat.placed hdirects)
  | @enter page page' final level outer token plan inner taken rest hopens hchild htakes _ ih =>
    obtain ⟨hname, hrest⟩ := List.forall_mem_cons.mp hnames
    have hneat := Section.neat_child hchild hplaced hdirections (hname hopens.1) hworded.2.1
    have hdirects := Section.directs_child hchild hdirections
    have hraw := raw_element rest hlocated.1 hworded.1 hchild htakes
    have hat := at_enter hlocated.1 hchild htakes
    rw [elements_opening hopens.1, List.flatMap_cons, hraw]
    cases htakes with
    | enter =>
      obtain ⟨hfirst, htexts, hinto⟩ := hneat
      have hworded' := hworded.1.into hlocated.1 hinto
      exact hfirst.trans
        (ih ⟨hat, hlocated⟩ ⟨hworded', htexts, hworded⟩ hrest hfirst.placed hdirects)
  | leave depth line _ ih =>
    exact ih hlocated.2 hworded.2.2 (List.forall_mem_cons.mp hnames).2 hplaced hdirections

/-- **An argument of an operation is tidy, or it can be found in the source**: it is the
plural of an entity, the file of a script or the verb of a synonym.  Each of these is an
argument as it is written, and every element was dealt with. -/
theorem held_of_readDocument {source : String} {d : Draft} (hv : v.TidyDirections)
    (h : readDocument v source = .ok d) :
    ∃ attributes first inner last s,
      (Scanner.ofSource source).Scans
          (.opening "game" attributes 0 first :: inner ++ [.closing "game" 0 last]) s ∧
        (∀ t ∈ inner, 0 < t.depth) ∧
        (∀ el ∈ elements ["game"] inner, DealsWith v source el.tag) ∧
        (∀ text, d.Holds text → Tidy text ∨ ∃ el ∈ elements ["game"] inner, text ∈ el.raw) ∧
        ∀ el ∈ elements ["game"] inner, ∀ text ∈ el.raw, d.Holds text := by
  obtain ⟨s, page, attributes, first, rest, rfl, -, hwalks, hs, hdeals⟩ := deals_of_readDocument h
  obtain ⟨_, _, inner, last, hcons, hinner⟩ := hs.game.eq_element
  obtain ⟨hfirst, rfl⟩ := List.cons_eq_cons.mp hcons
  obtain ⟨-, hnames⟩ := hs.scans.tidy (Scanner.around_ofSource source)
  have hbrings : Draft.empty.Brings
      ((elements ["game"] (inner ++ [.closing "game" 0 last])).flatMap Element.raw) page.draft :=
    hwalks.brings ⟨.start, trivial⟩ ⟨.start, nofun, trivial⟩ (List.forall_mem_cons.mp hnames).2
      .empty (Declarations.tidyDirections_empty hv)
  rw [elements_concat_closing] at hbrings
  refine ⟨attributes, first, inner, last, s.lexer.source, hs.scans, hinner, ?_, ?_, ?_⟩
  · intro el hel
    obtain ⟨hmem, hopening⟩ := tag_of_mem_elements hel
    exact hdeals el.tag (List.mem_append_left _ hmem) hopening
  · intro text htext
    rcases hbrings.origin text htext with hempty | hraw | htidy
    · exact absurd hempty (Draft.not_holds_empty text)
    · exact .inr (List.mem_flatMap.mp hraw)
    · exact .inl htidy
  · intro el hel text htext
    exact hbrings.holds text (.inr (List.mem_flatMap.mpr ⟨el, hel, htext⟩))

end Adventure.Markup
