/-
What every element does to the draft.

There are five sorts of elements.  Most elements with further elements in them leave the
draft alone; the one of a class writes the definition of its class, and the one of an entity
declares it.  An element that is read as a whole writes one operation, which holds what was
read and stems from the line of the tag, and so does a script that names its file.

Which elements define classes and declare entities depends on the names of the elements
around them alone.
-/
import Adventure.Proofs.Faithfulness
import Adventure.Proofs.Markup.Endings

namespace Adventure.Markup

variable {v : Vocabulary} {value : String} {line : Nat} {op : Operation}

/-- An operation that says something that was read on a line, and defines neither an entity
nor a class. -/
structure Records (op : Operation) (value : String) (line : Nat) : Prop where
  notClass : op.opcode ≠ .defineEntityClass
  value : value ∈ op.arguments
  line : op.line = line

theorem records_acting {opcode : Opcode} {subject : Subject} {payload : List String}
    (hop : opcode.declares = false) (hvalue : value ∈ payload) :
    Records (.acting opcode subject payload line) value line := by
  refine ⟨?_, List.mem_append_right _ hvalue, rfl⟩
  rintro rfl
  cases hop

namespace Section

/-! ### Where sections lie -/

/-- Whether the section is one of those in which classes and entities are declared, or one
around them. -/
def isOuter : Section → Bool
  | game | classes | classGroup _ | instances _ => true
  | _ => false

/-- What the name of an element tells about the section in it, given the one around it. -/
structure Into (around : Section) (tag : String) (inner : Section) : Prop where
  game : inner ≠ .game
  classes : inner = .classes ↔ around = .game ∧ tag = "classes"
  classGroup : ∀ type, inner = .classGroup type ↔ around = .classes ∧ sectionType? tag = some type
  instances : ∀ type, inner = .instances type ↔ around = .game ∧ sectionType? tag = some type
  events : ∀ subject, inner = .events subject → tag = "events"

variable {around inner : Section} {tag parent : String} {page : Page} {plan : Plan}
variable {type : EntityType} {subject : Subject} {token : Token}

/-- Any other section lies where no classes and entities are declared. -/
theorem into_inner (hinner : inner.isOuter = false) (hgame : around = .game → tag ≠ "classes")
    (hnone : around = .game ∨ around = .classes → sectionType? tag = none)
    (hevents : ∀ subject, inner = .events subject → tag = "events") : around.Into tag inner := by
  have hne : ∀ outer : Section, outer.isOuter = true → inner ≠ outer := by
    rintro outer houter rfl
    exact absurd (houter.symm.trans hinner) nofun
  refine ⟨hne _ rfl, iff_of_false (hne _ rfl) ?_, fun type => iff_of_false (hne _ rfl) ?_,
    fun type => iff_of_false (hne _ rfl) ?_, hevents⟩
  · rintro ⟨haround, htag⟩
    exact hgame haround htag
  · rintro ⟨haround, htype⟩
    exact absurd ((hnone (Or.inr haround)).symm.trans htype) nofun
  · rintro ⟨haround, htype⟩
    exact absurd ((hnone (Or.inl haround)).symm.trans htype) nofun

/-- Everything deeper than the sections of the game is such a section. -/
theorem into_deep (hinner : inner.isOuter = false) (hgame : around ≠ .game)
    (hclasses : around ≠ .classes) (hevents : ∀ subject, inner = .events subject → tag = "events") :
    around.Into tag inner := by
  refine into_inner hinner (fun haround => absurd haround hgame) ?_ hevents
  rintro (haround | haround)
  · exact absurd haround hgame
  · exact absurd haround hclasses

end Section

open Section

/-! ### What plans do -/

/-- What a plan for the element of a tag does to the draft of the page. -/
inductive Plan.Does (v : Vocabulary) (around : Section) (page : Page) (token : Token) :
    Plan → Prop
  /-- An element that only holds others. -/
  | goes {inner : Section} {page' : Page} (hinto : around.Into token.tagName inner)
    (hclass : ∀ type, around ≠ .classGroup type) (hinstance : ∀ type, around ≠ .instances type)
    (htag : token.tagName ≠ "script") (hdraft : page'.draft = page.draft) :
    Does v around page token (.enter inner page')
  /-- A class. -/
  | defines {type : EntityType} {name : String} {page' : Page} (haround : around = .classGroup type)
    (hname : token.attribute "class" = .ok name)
    (hadds : page.draft.Adds v (.defineEntityClass name type token.line) page'.draft) :
    Does v around page token (.enter (.body (.entityClass name) type) page')
  /-- An entity. -/
  | declares {type : EntityType} {name : String} {index : Nat} {page' : Page}
    (haround : around = .instances type) (hname : token.attribute "name" = .ok name)
    (hdeclare : page.draft.declareEntity name type token.tagName (token.attribute? "plural")
      token.line = (.ok index, page'.draft)) :
    Does v around page token (.enter (.body (.entity name) type) page')
  /-- An element that is read as a whole. -/
  | writes {write : String → Except Error Draft} (hclass : ∀ type, around ≠ .classGroup type)
    (hinstance : ∀ type, around ≠ .instances type)
    (hwrite : ∀ value draft, write value = .ok draft →
      ∃ op, page.draft.Adds v op draft ∧ Records op value token.line) :
    Does v around page token (.read write)
  /-- A script in a file. -/
  | loads {subject : Subject} {path : String} (haround : around = .events subject)
    (htag : token.tagName = "script") (hpath : token.attribute? "src" = some path) :
    Does v around page token (.pass (page.draft.write (.loadScript subject .file path token.line)))

namespace Section

variable {around inner : Section} {tag parent : String} {page : Page} {plan : Plan}
variable {type : EntityType} {subject : Subject} {token : Token} {opOf : String → Operation}

theorem does_leaf (h : leaf page opOf = .ok plan) (hclass : ∀ type, around ≠ .classGroup type)
    (hinstance : ∀ type, around ≠ .instances type)
    (hop : ∀ value, (opOf value).opcode.declares = false)
    (hrecords : ∀ value, Records (opOf value) value token.line) :
    plan.Does v around page token := by
  obtain rfl := Except.ok.inj h
  refine .writes hclass hinstance ?_
  intro value draft hdraft
  obtain rfl := Except.ok.inj hdraft
  exact ⟨opOf value, .plain (hop value), hrecords value⟩

/-- The usual leaf: it sets something of a subject. -/
theorem does_acting {opcode : Opcode} {subject : Subject} {payload : String → List String}
    (h : leaf page (fun value => .acting opcode subject (payload value) token.line) = .ok plan)
    (hclass : ∀ type, around ≠ .classGroup type) (hinstance : ∀ type, around ≠ .instances type)
    (hop : opcode.declares = false) (hpayload : ∀ value, value ∈ payload value) :
    plan.Does v around page token :=
  does_leaf h hclass hinstance (fun _ => hop) fun value => records_acting hop (hpayload value)

theorem does_reference (h : reference page type token.line opOf = .ok plan)
    (hclass : ∀ type, around ≠ .classGroup type) (hinstance : ∀ type, around ≠ .instances type)
    (hop : ∀ value, (opOf value).opcode.declares = false)
    (hrecords : ∀ value, Records (opOf value) value token.line) :
    plan.Does v around page token := by
  obtain rfl := Except.ok.inj h
  refine .writes hclass hinstance ?_
  intro value draft hdraft
  obtain ⟨used, hused, hwrite⟩ := bind_ok_iff.mp hdraft
  obtain rfl := Except.ok.inj hwrite
  exact ⟨opOf value, .mentioning hused (hop value), hrecords value⟩

theorem does_enter (h : enter page inner = .ok plan) (hinto : around.Into token.tagName inner)
    (hclass : ∀ type, around ≠ .classGroup type) (hinstance : ∀ type, around ≠ .instances type)
    (htag : token.tagName ≠ "script") : plan.Does v around page token := by
  obtain rfl := Except.ok.inj h
  exact .goes hinto hclass hinstance htag rfl

/-! ### Every element -/

theorem does_gameChild (h : gameChild page token.tagName parent token.line = .ok plan) :
    plan.Does v .game page token := by
  unfold gameChild at h
  split at h
  · rename_i htag
    split at h
    · exact absurd h nofun
    · refine does_enter h ?_ nofun nofun (by rw [htag]; decide)
      rw [htag]
      refine ⟨nofun, by simp, ?_, ?_, nofun⟩
      · simp
      · simp [sectionType?]
  case h_8 =>
    rename_i hclasses _ _ hevents _ _ _
    split at h
    · rename_i type htype
      obtain rfl := Except.ok.inj h
      refine .goes ⟨nofun, ?_, by simp, ?_, nofun⟩ nofun nofun ?_ rfl
      · simpa using hclasses
      · intro other
        simp [htype]
      · intro htag
        rw [htag] at htype
        cases htype
    · exact absurd h nofun
  all_goals
    rename_i htag
    refine does_enter h (into_inner rfl ?_ ?_ ?_) nofun nofun ?_
    · intro _ hclasses
      rw [htag] at hclasses
      revert hclasses
      decide
    · intro _
      rw [htag]
      rfl
    · intro _ hinner
      cases hinner <;> exact htag
    · rw [htag]
      decide

theorem does_classChild (h : classChild page type token = .ok plan) :
    plan.Does v (.classGroup type) page token := by
  simp only [classChild, throw_bind, guard_ok_iff, bind_ok_iff] at h
  obtain ⟨-, name, hname, draft, hdraft, h⟩ := h
  obtain rfl := Except.ok.inj h
  exact .defines rfl hname (.entityClass hdraft rfl)

theorem does_instanceChild (h : instanceChild page type parent token = .ok plan) :
    plan.Does v (.instances type) page token := by
  simp only [instanceChild, throw_bind, guard_ok_iff, bind_ok_iff] at h
  obtain ⟨-, name, hname, index, hindex, h⟩ := h
  obtain rfl := Except.ok.inj h
  exact .declares rfl hname (Prod.ext hindex rfl)

/-- A section in a body is entered by an element of its own name. -/
theorem into_bodySection? (h : bodySection? subject type tag = some inner) (other : Subject)
    (otherType : EntityType) : (body other otherType).Into tag inner ∧ tag ≠ "script" := by
  suffices inner.isOuter = false ∧ (∀ subject, inner = .events subject → tag = "events") ∧
      tag ≠ "script" from ⟨into_deep this.1 nofun nofun this.2.1, this.2.2⟩
  unfold bodySection? at h
  dsimp only at h
  split at h
  case h_1 | h_2 | h_3 =>
    obtain rfl := Option.some.inj h
    exact ⟨rfl, nofun, by decide⟩
  case h_4 =>
    obtain ⟨-, h⟩ := Option.ite_none_left_eq_some.mp h
    exact Option.some.inj h ▸ ⟨rfl, fun _ _ => rfl, by decide⟩
  case h_5 =>
    split at h
    · obtain ⟨-, h⟩ := Option.ite_none_left_eq_some.mp h
      exact Option.some.inj h ▸ ⟨rfl, nofun, by decide⟩
    · exact absurd h nofun
  case h_6 =>
    split at h
    · obtain ⟨-, h⟩ := Option.ite_none_right_eq_some.mp h
      exact Option.some.inj h ▸ ⟨rfl, nofun, by decide⟩
    · exact absurd h nofun
  case h_13 => exact absurd h nofun
  all_goals
    obtain ⟨-, h⟩ := Option.ite_none_right_eq_some.mp h
    exact Option.some.inj h ▸ ⟨rfl, nofun, by decide⟩

theorem does_bodyChild
    (h : bodyChild v page subject type token.tagName parent token.line = .ok plan) :
    plan.Does v (.body subject type) page token := by
  unfold bodyChild at h
  split at h
  · exact does_acting h nofun nofun rfl (by simp)
  split at h
  · rename_i hinner
    obtain ⟨hinto, htag⟩ := into_bodySection? hinner subject type
    exact does_enter h hinto nofun nofun htag
  split at h
  · split at h
    · exact absurd h nofun
    · unfold exitChild at h
      split at h
      · exact does_reference h nofun nofun (fun _ => rfl) fun room =>
          records_acting rfl (by simp)
      · exact absurd h nofun
  · exact absurd h nofun

theorem does_inventoryChild
    (h : inventoryChild page subject token.tagName parent token.line = .ok plan) :
    plan.Does v (.inventory subject) page token := by
  unfold inventoryChild at h
  split at h
  · exact does_acting h nofun nofun rfl (by simp)
  · exact does_reference h nofun nofun (fun _ => rfl) fun object =>
      ⟨nofun, List.mem_cons_self .., rfl⟩
  · exact absurd h nofun
  · exact absurd h nofun

theorem does_eventChild (h : eventChild page subject parent token = .ok plan) :
    plan.Does v (.events subject) page token := by
  unfold eventChild at h
  dsimp only at h
  split at h
  · rename_i htag
    split at h
    · rename_i hpath
      obtain rfl := Except.ok.inj h
      exact .loads rfl htag hpath
    · exact does_acting h nofun nofun rfl (by simp)
  · obtain ⟨name, -, h⟩ := bind_ok_iff.mp h
    exact does_acting h nofun nofun rfl (by simp)
  · exact absurd h nofun

theorem does_synonymChild (h : synonymChild v page token = .ok plan) :
    plan.Does v .synonyms page token := by
  obtain rfl := Except.ok.inj h
  refine .writes nofun nofun ?_
  intro word draft hdraft
  split at hdraft
  · obtain ⟨declared, hdeclared, hwrite⟩ := bind_ok_iff.mp hdraft
    obtain rfl := Except.ok.inj hwrite
    exact ⟨_, .verbSynonym hdeclared rfl, nofun, by simp [Operation.defineVerbSynonym], rfl⟩
  · obtain ⟨declared, hdeclared, hwrite⟩ := bind_ok_iff.mp hdraft
    obtain rfl := Except.ok.inj hwrite
    exact ⟨_, .directionSynonym hdeclared rfl, nofun,
      by simp [Operation.defineDirectionSynonym], rfl⟩
  · exact absurd hdraft nofun

/-- **Every element does one of five things to the draft.** -/
theorem does_child (h : around.child v parent page token = .ok plan) :
    plan.Does v around page token := by
  unfold child at h
  cases around with
  | game => exact does_gameChild h
  | classes =>
    dsimp only at h
    split at h
    · rename_i type htype
      refine does_enter h ⟨nofun, by simp, ?_, by simp, nofun⟩ nofun nofun ?_
      · intro other
        simp [htype]
      · intro htag
        rw [htag] at htype
        cases htype
    · exact absurd h nofun
  | classGroup type => exact does_classChild h
  | instances type => exact does_instanceChild h
  | player =>
    obtain ⟨htag, h⟩ := guard_not_ok_iff.mp h
    exact does_enter h (into_deep rfl nofun nofun nofun) nofun nofun (by rw [htag]; decide)
  | body subject type => exact does_bodyChild h
  | messages subject =>
    obtain ⟨-, h⟩ := guard_not_ok_iff.mp h
    obtain ⟨name, -, h⟩ := bind_ok_iff.mp h
    exact does_acting h nofun nofun rfl (by simp)
  | tags subject | aliases subject | group subject stem fields =>
    obtain ⟨-, h⟩ := guard_not_ok_iff.mp h
    exact does_acting h nofun nofun rfl (by simp)
  | metadata subject | attributes subject => exact does_acting h nofun nofun rfl (by simp)
  | inventory subject => exact does_inventoryChild h
  | contents room =>
    dsimp only at h
    split at h
    iterate 2
      exact does_reference h nofun nofun (fun _ => rfl) fun thing =>
        ⟨nofun, List.mem_cons_self .., rfl⟩
    exact absurd h nofun
  | allocations owner =>
    obtain ⟨-, h⟩ := guard_not_ok_iff.mp h
    obtain ⟨amount, -, h⟩ := bind_ok_iff.mp h
    exact does_reference h nofun nofun (fun _ => rfl) fun resource =>
      ⟨nofun, List.mem_cons_self .., rfl⟩
  | events subject => exact does_eventChild h
  | vocabulary =>
    dsimp only at h
    split at h
    iterate 2
      rename_i htag
      exact does_enter h (into_deep rfl nofun nofun nofun) nofun nofun (by rw [htag]; decide)
    exact absurd h nofun
  | directions =>
    obtain ⟨-, h⟩ := guard_not_ok_iff.mp h
    obtain rfl := Except.ok.inj h
    refine .writes nofun nofun ?_
    intro word draft hdraft
    obtain ⟨declared, hdeclared, hwritten⟩ := bind_ok_iff.mp hdraft
    obtain rfl := Except.ok.inj hwritten
    exact ⟨_, .direction hdeclared rfl, nofun, List.mem_cons_self .., rfl⟩
  | synonyms =>
    obtain ⟨-, h⟩ := guard_not_ok_iff.mp h
    exact does_synonymChild h
  | timer =>
    obtain ⟨-, h⟩ := guard_not_ok_iff.mp h
    exact does_leaf h nofun nofun (fun _ => rfl) fun period =>
      ⟨nofun, List.mem_cons_self .., rfl⟩

end Section

/-! ### A whole document -/

theorem kept_built : Kept v fun page _ => page.draft.Built v where
  stay := by
    intro page page' level outer token plan h _ hplan hgives
    have hdoes := Section.does_child hplan
    cases hgives with
    | read _ _ hwrite =>
      cases hdoes with
      | writes _ _ hwrites =>
        obtain ⟨op, hadds, -⟩ := hwrites _ _ hwrite
        exact h.adds hadds
    | pass =>
      cases hdoes with
      | loads => exact h.adds (.plain rfl)
  enter := by
    intro page page' level outer token plan inner h _ hplan hgives
    have hdoes := Section.does_child hplan
    cases hgives with
    | enter =>
      cases hdoes with
      | goes _ _ _ _ hdraft => exact hdraft ▸ h
      | defines _ _ hadds => exact h.adds hadds
      | declares _ _ hdeclare => exact h.declares hdeclare
  leave := fun h => h

/-- **The draft of a document was built step by step**, until nothing was awaited. -/
theorem built_readDocument {source : String} {d : Draft} (h : readDocument v source = .ok d) :
    d.Built v ∧ d.awaited = [] := by
  obtain ⟨page, rfl, hbuilt, hawaited, -⟩ := kept_built.of_readDocument h .empty
  exact ⟨hbuilt, hawaited⟩

end Adventure.Markup
