/-
What the sections of a document write, and when.

The classes of a game come first, because once entities were declared no more classes
are let in.  So a section that is about classes is open only while classes are written,
and what it writes concerns the latest class; and a section that is about entities is
open only afterwards, and writes nothing about a class.  Sections are nested the same
way in every document, which is why going from one stage to the next does not happen
within a section that belongs to the first.
-/
import Adventure.Proofs.Markup.Tracking
import Adventure.Proofs.Markup.Endings

namespace Adventure

variable {v : Vocabulary} {d d' : Draft} {op : Operation} {stage : Stage}

/-- Whether there are operations on a subject at a stage. -/
def Subject.Fits (stage : Stage) : Subject → Prop
  | .entity _ => stage = .entities
  | .entityClass name => stage = .classes (some name)
  | .defaultPlayer | .game => True

namespace Draft

/-- A draft whose operations are in order, at a stage. -/
structure InOrder (d : Draft) (stage : Stage) : Prop where
  tracked : d.Tracked
  ordered : Ordered d.operations stage

theorem InOrder.empty : Draft.empty.InOrder (.classes none) :=
  ⟨.empty, .nil⟩

/-- Writes something that is neither a definition nor about a class. -/
theorem InOrder.writePlain (hd : d.InOrder stage) (hentity : op.opcode ≠ .defineEntity)
    (hdefine : op.opcode ≠ .defineEntityClass)
    (hsubject : ∀ name, op.subject? ≠ some (.entityClass name)) : (d.write op).InOrder stage := by
  refine ⟨hd.tracked.write hdefine, ?_⟩
  rw [hd.tracked.operations_write]
  exact hd.ordered.plain hentity fun name hconcerns =>
    hconcerns.elim (fun h => hdefine h.1) (hsubject name)

/-- Writes something about a subject that fits. -/
theorem InOrder.writeAbout {subject : Subject} (hd : d.InOrder stage)
    (hfits : subject.Fits stage) (hop : op.subject? = some subject) :
    (d.write op).InOrder stage := by
  have hopcode : ∀ opcode : Opcode, opcode.targets = [] → op.opcode ≠ opcode := by
    rintro opcode htargets rfl
    rw [Operation.subject?_eq_none htargets] at hop
    exact absurd hop nofun
  cases subject with
  | entityClass name =>
    obtain rfl : stage = .classes (some name) := hfits
    refine ⟨hd.tracked.write (hopcode _ rfl), ?_⟩
    rw [hd.tracked.operations_write]
    exact hd.ordered.describe hop
  | _ =>
    refine hd.writePlain (hopcode _ rfl) (hopcode _ rfl) ?_
    intro name hname
    rw [hop] at hname
    exact absurd hname nofun

/-- Writes something without a subject that defines neither an entity nor a class. -/
theorem InOrder.writeGeneral (hd : d.InOrder stage) (htargets : op.opcode.targets = [])
    (hentity : op.opcode ≠ .defineEntity) (hclass : op.opcode ≠ .defineEntityClass) :
    (d.write op).InOrder stage := by
  refine hd.writePlain hentity hclass ?_
  intro name hname
  rw [Operation.subject?_eq_none htargets] at hname
  exact absurd hname nofun

/-- Declares what is not a class. -/
theorem InOrder.withDeclarations (hd : d.InOrder stage) {e : Declarations}
    (he : ∀ name, e.class? name = d.declarations.class? name) :
    ({ d with declarations := e } : Draft).InOrder stage :=
  ⟨hd.tracked.withDeclarations he, hd.ordered⟩

theorem InOrder.declareDirection {word : String} {line : Nat} (hd : d.InOrder stage)
    (h : d.declareDirection v word line = .ok d') : d'.InOrder stage := by
  unfold Draft.declareDirection at h
  split at h
  · exact absurd h nofun
  · rename_i hdeclared
    simp only [Declarations.declareDirection, throw_bind, guard_ok_iff, pure_ok_iff] at hdeclared
    obtain ⟨-, rfl⟩ := hdeclared
    exact Except.ok.inj h ▸ hd.withDeclarations fun _ => rfl

theorem InOrder.declareDirectionSynonym {direction word : String} {line : Nat}
    (hd : d.InOrder stage) (h : d.declareDirectionSynonym v direction word line = .ok d') :
    d'.InOrder stage := by
  unfold Draft.declareDirectionSynonym at h
  split at h
  · exact absurd h nofun
  · rename_i hdeclared
    simp only [Declarations.declareDirectionSynonym, throw_bind, guard_ok_iff, pure_ok_iff]
      at hdeclared
    obtain ⟨-, -, rfl⟩ := hdeclared
    exact Except.ok.inj h ▸ hd.withDeclarations fun _ => rfl

theorem InOrder.declareVerbSynonym {verb word : String} {line : Nat} (hd : d.InOrder stage)
    (h : d.declareVerbSynonym verb word line = .ok d') : d'.InOrder stage := by
  unfold Draft.declareVerbSynonym at h
  split at h
  · exact absurd h nofun
  · rename_i hdeclared
    unfold Declarations.declareVerbSynonym at hdeclared
    split at hdeclared
    · exact absurd hdeclared nofun
    · obtain rfl := Except.ok.inj hdeclared
      exact Except.ok.inj h ▸ hd.withDeclarations fun _ => rfl

/-- Uses an entity when entities are written. -/
theorem InOrder.reference {name : String} {type : EntityType} {line : Nat}
    (hd : d.InOrder .entities) (h : d.referenceEntity name type line = .ok d') :
    d'.InOrder .entities := by
  obtain ⟨htracked, hops⟩ := hd.tracked.referenceEntity h
  refine ⟨htracked, ?_⟩
  rcases hops with hops | hops
  · exact hops ▸ hd.ordered
  · exact hops ▸ hd.ordered.entity rfl

/-- Uses a room for an exit of the latest class. -/
theorem InOrder.exit {name room direction : String} {line : Nat}
    (hd : d.InOrder (.classes (some name))) (h : d.referenceEntity room .room line = .ok d') :
    (d'.write (.connectRooms (.entityClass name) direction room line)).InOrder
      (.classes (some name)) := by
  obtain ⟨htracked, hops⟩ := hd.tracked.referenceEntity h
  refine ⟨htracked.write nofun, ?_⟩
  rw [htracked.operations_write]
  rcases hops with hops | hops
  · rw [hops]
    exact hd.ordered.describe (Operation.subject?_connectRooms ..)
  · rw [hops]
    exact hd.ordered.exit rfl direction line

/-- Declares and defines a class. -/
theorem InOrder.defineClass {latest : Option String} {name : String} {type : EntityType}
    {line : Nat} (hd : d.InOrder (.classes latest)) (h : d.declareClass name type line = .ok d') :
    (d'.write (.defineEntityClass name type line)).InOrder (.classes (some name)) := by
  obtain ⟨htracked, hops, hnew⟩ := hd.tracked.defineClass h
  refine ⟨htracked, ?_⟩
  rw [hops]
  exact hd.ordered.define ⟨rfl, rfl⟩ hnew

/-- Declares an entity when entities are written. -/
theorem InOrder.declareEntity {name className : String} {type : EntityType}
    {plural : Option String} {line index : Nat} (hd : d.InOrder .entities)
    (h : d.declareEntity name type className plural line = (.ok index, d')) :
    d'.InOrder .entities := by
  obtain ⟨htracked, houtlines | hops⟩ := hd.tracked.declareEntity h
  · exact ⟨htracked, hd.ordered.congr houtlines⟩
  · refine ⟨htracked, ?_⟩
    rw [hops]
    exact hd.ordered.entity rfl

/-- Comes to the entities. -/
theorem InOrder.close (hd : d.InOrder stage) : d.InOrder .entities := by
  cases stage with
  | classes latest => exact ⟨hd.tracked, hd.ordered.close⟩
  | entities => exact hd

end Draft

namespace Markup

/-! ### Which sections are open when -/

namespace Section

/-- Whether a section may be open at a stage. -/
def Fits (stage : Stage) : Section → Prop
  | classes | classGroup _ => stage ≠ .entities
  | instances _ | contents _ | allocations _ => stage = .entities
  | body subject type => subject.Fits stage ∧ (type = .room → subject.target.isNamed)
  | messages subject | tags subject | metadata subject | aliases subject | attributes subject
  | group subject _ _ | inventory subject | events subject => subject.Fits stage
  | game | player | vocabulary | directions | synonyms | timer => True

/-- Whether a section may be open inside another one. -/
def Within (inner outer : Section) : Prop :=
  match inner with
  | game => False
  | classes | instances _ => outer = game
  | classGroup _ => outer = game ∨ outer = classes
  | _ => True

theorem Within.trans {inner around outer : Section} (h : inner.Within around)
    (h' : around.Within outer) : inner.Within outer := by
  cases inner with
  | game => exact h.elim
  | classes | instances =>
    obtain rfl : around = game := h
    exact h'.elim
  | classGroup =>
    rcases h with rfl | rfl
    · exact h'.elim
    · exact Or.inl h'
  | _ => trivial

end Section

/-- A page whose draft is in order at a stage. -/
structure Page.InOrder (page : Page) (stage : Stage) : Prop where
  draft : page.draft.InOrder stage
  seen : page.entitiesSeen = true ↔ stage = .entities

/-- What a plan made in a section does: it keeps the page in order, and when it goes into
another section at another stage then all sections that are open fit that stage. -/
def Plan.Sound (around : Section) (stage : Stage) : Plan → Prop
  | .enter inner page =>
    inner.Within around ∧ ∃ stage', page.InOrder stage' ∧ inner.Fits stage' ∧
      ∀ outer, outer = around ∨ around.Within outer → outer.Fits stage → outer.Fits stage'
  | .read write => ∀ value draft, write value = .ok draft → draft.InOrder stage
  | .pass draft => draft.InOrder stage

namespace Section

variable {page : Page} {plan : Plan} {around inner : Section} {type : EntityType}
variable {tag parent : String} {line : Nat} {token : Token} {subject : Subject}

theorem sound_enter (h : enter page inner = .ok plan) (hpage : page.InOrder stage)
    (hwithin : inner.Within around) (hfits : inner.Fits stage) : plan.Sound around stage := by
  obtain rfl := Except.ok.inj h
  exact ⟨hwithin, stage, hpage, hfits, fun _ _ hfits => hfits⟩

theorem sound_leaf {op : String → Operation} (h : leaf page op = .ok plan)
    (hop : ∀ value, (page.draft.write (op value)).InOrder stage) : plan.Sound around stage := by
  obtain rfl := Except.ok.inj h
  intro value draft hdraft
  obtain rfl := Except.ok.inj hdraft
  exact hop value

theorem sound_reference {op : String → Operation} (h : reference page type line op = .ok plan)
    (hop : ∀ name draft, page.draft.referenceEntity name type line = .ok draft →
      (draft.write (op name)).InOrder stage) : plan.Sound around stage := by
  obtain rfl := Except.ok.inj h
  intro value draft hdraft
  obtain ⟨used, hused, hwrite⟩ := bind_ok_iff.mp hdraft
  obtain rfl := Except.ok.inj hwrite
  exact hop value used hused

theorem sound_gameChild (h : gameChild page tag parent line = .ok plan)
    (hpage : page.InOrder stage) : plan.Sound game stage := by
  unfold gameChild at h
  split at h
  · split at h
    · exact absurd h nofun
    · rename_i hseen
      exact sound_enter h hpage rfl fun hstage => hseen (hpage.seen.mpr hstage)
  iterate 6 exact sound_enter h hpage trivial trivial
  split at h
  · obtain rfl := Except.ok.inj h
    refine ⟨rfl, .entities, ⟨hpage.draft.close, by simp⟩, rfl, ?_⟩
    rintro outer (rfl | hwithin) -
    · trivial
    · exact hwithin.elim
  · exact absurd h nofun

theorem sound_classChild (h : classChild page type token = .ok plan) (hpage : page.InOrder stage)
    (hstage : stage ≠ .entities) : plan.Sound (classGroup type) stage := by
  simp only [classChild, throw_bind, guard_ok_iff, bind_ok_iff] at h
  obtain ⟨-, name, -, draft, hdraft, h⟩ := h
  obtain rfl := Except.ok.inj h
  cases stage with
  | entities => exact absurd rfl hstage
  | classes latest =>
    have hdefine := hpage.draft.defineClass hdraft
    have hseen : page.entitiesSeen ≠ true := fun hseen => hstage (hpage.seen.mp hseen)
    refine ⟨trivial, _, ⟨hdefine, iff_of_false hseen (by rintro ⟨⟩)⟩, ⟨rfl, fun _ => rfl⟩, ?_⟩
    rintro outer (rfl | rfl | rfl) -
    · rintro ⟨⟩
    · trivial
    · rintro ⟨⟩

theorem sound_instanceChild (h : instanceChild page type parent token = .ok plan)
    (hpage : page.InOrder .entities) : plan.Sound (instances type) .entities := by
  simp only [instanceChild, throw_bind, guard_ok_iff, bind_ok_iff] at h
  obtain ⟨-, name, -, index, hindex, h⟩ := h
  obtain rfl := Except.ok.inj h
  exact ⟨trivial, .entities, ⟨hpage.draft.declareEntity (Prod.ext hindex rfl), hpage.seen⟩,
    ⟨rfl, fun _ => rfl⟩, fun _ _ hfits => hfits⟩

theorem sound_exitChild (h : exitChild v page subject tag parent line = .ok plan)
    (hpage : page.InOrder stage) (hfits : subject.Fits stage) (hnamed : subject.target.isNamed) :
    plan.Sound around stage := by
  unfold exitChild at h
  split at h
  · refine sound_reference h ?_
    intro room draft hdraft
    cases subject with
    | entity name =>
      have hstage : stage = .entities := hfits
      subst hstage
      exact (hpage.draft.reference hdraft).writeAbout hfits (Operation.subject?_connectRooms ..)
    | entityClass name =>
      obtain rfl : stage = .classes (some name) := hfits
      exact hpage.draft.exit hdraft
    | defaultPlayer | game => exact absurd hnamed nofun
  · exact absurd h nofun

theorem fits_bodySection? (h : bodySection? subject type tag = some inner)
    (hfits : subject.Fits stage) : inner.Within around ∧ inner.Fits stage := by
  unfold bodySection? at h
  dsimp only at h
  split at h
  case h_1 | h_2 | h_3 =>
    obtain rfl := Option.some.inj h
    exact ⟨trivial, hfits⟩
  case h_4 =>
    obtain ⟨-, h⟩ := Option.ite_none_left_eq_some.mp h
    exact Option.some.inj h ▸ ⟨trivial, hfits⟩
  case h_5 =>
    split at h
    · obtain ⟨-, h⟩ := Option.ite_none_left_eq_some.mp h
      exact Option.some.inj h ▸ ⟨trivial, hfits⟩
    · exact absurd h nofun
  case h_6 =>
    split at h
    · obtain ⟨-, h⟩ := Option.ite_none_right_eq_some.mp h
      exact Option.some.inj h ▸ ⟨trivial, hfits⟩
    · exact absurd h nofun
  case h_13 => exact absurd h nofun
  all_goals
    obtain ⟨-, h⟩ := Option.ite_none_right_eq_some.mp h
    exact Option.some.inj h ▸ ⟨trivial, hfits⟩

theorem sound_bodyChild (h : bodyChild v page subject type tag parent line = .ok plan)
    (hpage : page.InOrder stage) (hfits : subject.Fits stage)
    (hnamed : type = .room → subject.target.isNamed) : plan.Sound around stage := by
  unfold bodyChild at h
  split at h
  · exact sound_leaf h fun value => hpage.draft.writeAbout hfits (Operation.subject?_acting nofun)
  split at h
  · rename_i hinner
    obtain ⟨hwithin, hfits⟩ := fits_bodySection? hinner hfits
    exact sound_enter h hpage hwithin hfits
  split at h
  · rename_i hroom
    split at h
    · exact absurd h nofun
    · exact sound_exitChild h hpage hfits (hnamed hroom)
  · exact absurd h nofun

theorem sound_inventoryChild (h : inventoryChild page subject tag parent line = .ok plan)
    (hpage : page.InOrder stage) (hfits : subject.Fits stage) : plan.Sound around stage := by
  unfold inventoryChild at h
  split at h
  · exact sound_leaf h fun value => hpage.draft.writeAbout hfits (Operation.subject?_acting nofun)
  · obtain rfl : stage = .entities := hfits
    exact sound_reference h fun name draft hdraft =>
      (hpage.draft.reference hdraft).writeGeneral rfl nofun nofun
  · exact absurd h nofun
  · exact absurd h nofun

theorem sound_eventChild (h : eventChild page subject parent token = .ok plan)
    (hpage : page.InOrder stage) (hfits : subject.Fits stage) : plan.Sound around stage := by
  have hwrite : ∀ opcode payload line, opcode.targets ≠ [] →
      (page.draft.write (.acting opcode subject payload line)).InOrder stage :=
    fun _ _ _ htargets => hpage.draft.writeAbout hfits (Operation.subject?_acting htargets)
  unfold eventChild at h
  dsimp only at h
  split at h
  · split at h
    · obtain rfl := Except.ok.inj h
      exact hwrite _ _ _ nofun
    · exact sound_leaf h fun value => hwrite _ _ _ nofun
  · obtain ⟨name, -, h⟩ := bind_ok_iff.mp h
    exact sound_leaf h fun value => hwrite _ _ _ nofun
  · exact absurd h nofun

theorem sound_synonymChild (h : synonymChild v page token = .ok plan) (hpage : page.InOrder stage) :
    plan.Sound around stage := by
  obtain rfl := Except.ok.inj h
  intro word draft hdraft
  dsimp only at hdraft
  split at hdraft
  · obtain ⟨declared, hdeclared, hwrite⟩ := bind_ok_iff.mp hdraft
    obtain rfl := Except.ok.inj hwrite
    exact (hpage.draft.declareVerbSynonym hdeclared).writeGeneral rfl nofun nofun
  · obtain ⟨declared, hdeclared, hwrite⟩ := bind_ok_iff.mp hdraft
    obtain rfl := Except.ok.inj hwrite
    exact (hpage.draft.declareDirectionSynonym hdeclared).writeGeneral rfl nofun nofun
  · exact absurd hdraft nofun

/-- **Whatever an element is, carrying out its plan keeps the page in order.** -/
theorem sound_child (h : around.child v parent page token = .ok plan) (hpage : page.InOrder stage)
    (hfits : around.Fits stage) : plan.Sound around stage := by
  unfold child at h
  dsimp only at h
  have hwrite : ∀ {subject : Subject} opcode payload line, subject.Fits stage →
      opcode.targets ≠ [] →
        (page.draft.write (.acting opcode subject payload line)).InOrder stage :=
    fun _ _ _ hsubject htargets =>
      hpage.draft.writeAbout hsubject (Operation.subject?_acting htargets)
  cases around with
  | game => exact sound_gameChild h hpage
  | classes =>
    dsimp only at h
    split at h
    · exact sound_enter h hpage (Or.inr rfl) hfits
    · exact absurd h nofun
  | classGroup type => exact sound_classChild h hpage hfits
  | instances type =>
    obtain rfl : stage = .entities := hfits
    exact sound_instanceChild h hpage
  | player =>
    obtain ⟨-, h⟩ := guard_not_ok_iff.mp h
    exact sound_enter h hpage trivial ⟨trivial, nofun⟩
  | body subject type => exact sound_bodyChild h hpage hfits.1 hfits.2
  | messages subject =>
    obtain ⟨-, h⟩ := guard_not_ok_iff.mp h
    obtain ⟨name, -, h⟩ := bind_ok_iff.mp h
    exact sound_leaf h fun value => hwrite _ _ _ hfits nofun
  | tags subject =>
    obtain ⟨-, h⟩ := guard_not_ok_iff.mp h
    exact sound_leaf h fun value => hwrite _ _ _ hfits nofun
  | metadata subject => exact sound_leaf h fun value => hwrite _ _ _ hfits nofun
  | aliases subject =>
    obtain ⟨-, h⟩ := guard_not_ok_iff.mp h
    exact sound_leaf h fun value => hwrite _ _ _ hfits nofun
  | attributes subject => exact sound_leaf h fun value => hwrite _ _ _ hfits nofun
  | group subject stem fields =>
    obtain ⟨-, h⟩ := guard_not_ok_iff.mp h
    exact sound_leaf h fun value => hwrite _ _ _ hfits nofun
  | inventory subject => exact sound_inventoryChild h hpage hfits
  | contents room =>
    obtain rfl : stage = .entities := hfits
    dsimp only at h
    split at h
    iterate 2
      exact sound_reference h fun name draft hdraft =>
        (hpage.draft.reference hdraft).writeGeneral rfl nofun nofun
    exact absurd h nofun
  | allocations owner =>
    obtain rfl : stage = .entities := hfits
    obtain ⟨-, h⟩ := guard_not_ok_iff.mp h
    obtain ⟨amount, -, h⟩ := bind_ok_iff.mp h
    exact sound_reference h fun name draft hdraft =>
      (hpage.draft.reference hdraft).writeGeneral rfl nofun nofun
  | events subject => exact sound_eventChild h hpage hfits
  | vocabulary =>
    dsimp only at h
    split at h
    iterate 2 exact sound_enter h hpage trivial trivial
    exact absurd h nofun
  | directions =>
    obtain ⟨-, h⟩ := guard_not_ok_iff.mp h
    obtain rfl := Except.ok.inj h
    intro word draft hdraft
    obtain ⟨declared, hdeclared, hwritten⟩ := bind_ok_iff.mp hdraft
    obtain rfl := Except.ok.inj hwritten
    exact (hpage.draft.declareDirection hdeclared).writeGeneral rfl nofun nofun
  | synonyms =>
    obtain ⟨-, h⟩ := guard_not_ok_iff.mp h
    exact sound_synonymChild h hpage
  | timer =>
    obtain ⟨-, h⟩ := guard_not_ok_iff.mp h
    exact sound_leaf h fun value => hpage.draft.writeGeneral rfl nofun nofun

end Section

/-! ### A whole document -/

/-- What holds during a walk: the page is in order at a stage that all open sections fit,
and these are nested as they may be. -/
def Staged (page : Page) (levels : List Level) : Prop :=
  ∃ stage, page.InOrder stage ∧ (∀ level ∈ levels, level.within.Fits stage) ∧
    levels.Pairwise fun inner outer => inner.within.Within outer.within

theorem kept_staged : Kept v Staged where
  stay := by
    rintro page page' level outer token plan ⟨stage, hpage, hfits, hnested⟩ - hplan hgives
    have hsound := Section.sound_child hplan hpage (hfits level (List.mem_cons_self ..))
    refine ⟨stage, ?_, hfits, hnested⟩
    cases hgives with
    | read _ _ hwrite => exact ⟨hsound _ _ hwrite, hpage.seen⟩
    | pass => exact ⟨hsound, hpage.seen⟩
  enter := by
    rintro page page' level outer token plan inner ⟨stage, hpage, hfits, hnested⟩ - hplan hgives
    have hsound := Section.sound_child hplan hpage (hfits level (List.mem_cons_self ..))
    cases hgives with
    | enter =>
      obtain ⟨hwithin, stage', hpage', hinner, hshift⟩ := hsound
      have hall : ∀ other ∈ level :: outer, inner.Within other.within := by
        intro other hother
        rcases List.mem_cons.mp hother with rfl | hother
        · exact hwithin
        · exact hwithin.trans (List.rel_of_pairwise_cons hnested hother)
      refine ⟨stage', hpage', fun other hother => ?_, List.pairwise_cons.mpr ⟨hall, hnested⟩⟩
      rcases List.mem_cons.mp hother with rfl | hother
      · exact hinner
      · refine hshift _ ?_ (hfits other hother)
        rcases List.mem_cons.mp hother with rfl | hother
        · exact Or.inl rfl
        · exact Or.inr (List.rel_of_pairwise_cons hnested hother)
  leave := by
    rintro page level outer ⟨stage, hpage, hfits, hnested⟩
    exact ⟨stage, hpage, fun other hother => hfits other (List.mem_cons_of_mem _ hother),
      (List.pairwise_cons.mp hnested).2⟩

/-- **The operations of a document are in order.** -/
theorem inOrder_readDocument {source : String} (h : readDocument v source = .ok d) :
    ∃ stage, d.InOrder stage := by
  have hempty : Page.InOrder ⟨.empty, false⟩ (.classes none) := ⟨.empty, by simp⟩
  obtain ⟨page, rfl, ⟨stage, hpage, -⟩, -⟩ := kept_staged.of_readDocument h
    ⟨_, hempty, by simp [Section.Fits], List.pairwise_singleton _ _⟩
  exact ⟨stage, hpage.draft⟩

end Markup

end Adventure
