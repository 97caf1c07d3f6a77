/-
The shape of what a document writes.

What an element writes is about the subject of the section around it, and a section is only
entered for subjects that the opcodes of its elements accept.  That is decided where the
section is entered: the body of an entity, a class or the default player has no section for
what its subject cannot have.  So no element has to look at its subject again.
-/
import Adventure.Proofs.Markup.Plans
import Adventure.Proofs.Shapes

namespace Adventure.Markup

variable {v : Vocabulary} {page : Page} {plan : Plan}

namespace Section

/-- The opcodes that the elements of a section use accept its subject. -/
def Addresses : Section → Prop
  | body subject type =>
    subject ≠ .game ∧ (type = .room → subject.target ∈ Opcode.connectRooms.targets)
  | tags subject => subject.target ∈ Opcode.setTag.targets
  | attributes subject => subject.target ∈ Opcode.setAttribute.targets
  | aliases subject => subject.target ∈ Opcode.setAlias.targets
  | events subject => subject.target ∈ Opcode.setEvent.targets
  | _ => True

end Section

/-- What a plan keeps: the draft stays well shaped, and a section that is entered is for a
subject it can be about. -/
def Plan.Shapes (page : Page) : Plan → Prop
  | .enter inner page' => (page.draft.Shaped → page'.draft.Shaped) ∧ inner.Addresses
  | .read write => ∀ value draft, write value = .ok draft → page.draft.Shaped → draft.Shaped
  | .pass draft => page.draft.Shaped → draft.Shaped

namespace Section

variable {around inner : Section} {type : EntityType} {tag parent : String} {line : Nat}
variable {token : Token} {subject : Subject} {opOf : String → Operation}

/-! ### Subjects -/

/-- Every subject has properties, messages and notes about it. -/
theorem target_mem_all (subject : Subject) : subject.target ∈ Opcode.setProperty.targets := by
  cases subject <;> simp [Subject.target, Opcode.targets]

theorem target_mem_of_ne_game (h : subject ≠ .game) :
    subject.target ∈ Opcode.setTag.targets := by
  cases subject with
  | game => exact absurd rfl h
  | _ => simp [Subject.target, Opcode.targets]

theorem target_mem_of_ne_defaultPlayer (h : subject ≠ .defaultPlayer) :
    subject.target ∈ Opcode.setEvent.targets := by
  cases subject with
  | defaultPlayer => exact absurd rfl h
  | _ => simp [Subject.target, Opcode.targets]

theorem target_mem_of_ne (hgame : subject ≠ .game) (hplayer : subject ≠ .defaultPlayer) :
    subject.target ∈ Opcode.setAlias.targets := by
  cases subject with
  | game => exact absurd rfl hgame
  | defaultPlayer => exact absurd rfl hplayer
  | _ => simp [Subject.target, Opcode.targets]

/-! ### The usual elements -/

theorem shapes_enter (h : enter page inner = .ok plan) (hinner : inner.Addresses) :
    plan.Shapes page := by
  obtain rfl := Except.ok.inj h
  exact ⟨id, hinner⟩

theorem shapes_leaf (h : leaf page opOf = .ok plan) (hop : ∀ value, (opOf value).WellShaped) :
    plan.Shapes page := by
  obtain rfl := Except.ok.inj h
  intro value draft hdraft hpage
  obtain rfl := Except.ok.inj hdraft
  exact hpage.write (hop value)

/-- The usual leaf: it sets something of a subject. -/
theorem shapes_acting {opcode : Opcode} {payload : String → List String}
    (h : leaf page (fun value => .acting opcode subject (payload value) line) = .ok plan)
    (hmem : subject.target ∈ opcode.targets)
    (hpayload : ∀ value, (payload value).length = opcode.payloadCount) : plan.Shapes page :=
  shapes_leaf h fun value => Operation.wellShaped_acting hmem (hpayload value)

theorem shapes_reference (h : reference page type line opOf = .ok plan)
    (hop : ∀ name, (opOf name).WellShaped) : plan.Shapes page := by
  obtain rfl := Except.ok.inj h
  intro name draft hdraft hpage
  obtain ⟨used, hused, hwrite⟩ := bind_ok_iff.mp hdraft
  obtain rfl := Except.ok.inj hwrite
  exact (hpage.usesEntity (Draft.usesEntity_of_ok hused)).write (hop name)

/-! ### Every element -/

theorem shapes_gameChild (h : gameChild page tag parent line = .ok plan) : plan.Shapes page := by
  unfold gameChild at h
  split at h
  · split at h
    · exact absurd h nofun
    · exact shapes_enter h trivial
  · exact shapes_enter h trivial
  · exact shapes_enter h trivial
  · exact shapes_enter h (target_mem_of_ne_defaultPlayer nofun)
  · exact shapes_enter h trivial
  · exact shapes_enter h trivial
  · exact shapes_enter h trivial
  split at h
  · obtain rfl := Except.ok.inj h
    exact ⟨id, trivial⟩
  · exact absurd h nofun

theorem shapes_classChild (h : classChild page type token = .ok plan) : plan.Shapes page := by
  simp only [classChild, throw_bind, guard_ok_iff, bind_ok_iff] at h
  obtain ⟨-, name, -, draft, hdraft, h⟩ := h
  obtain rfl := Except.ok.inj h
  obtain ⟨rfl, -⟩ := Draft.declareClass_ok hdraft
  refine ⟨?_, by simp, fun _ => target_mem_of_ne (by simp) (by simp)⟩
  exact fun hpage => (hpage.withDeclarations _).write (Operation.wellShaped_iff.mpr rfl)

theorem shapes_instanceChild (h : instanceChild page type parent token = .ok plan) :
    plan.Shapes page := by
  simp only [instanceChild, throw_bind, guard_ok_iff, bind_ok_iff] at h
  obtain ⟨-, name, -, index, hindex, h⟩ := h
  obtain rfl := Except.ok.inj h
  refine ⟨?_, by simp, fun _ => target_mem_of_ne (by simp) (by simp)⟩
  exact fun hpage => hpage.declareEntity (Prod.ext hindex rfl)

/-- **A body has only sections that are for its subject.** -/
theorem addresses_bodySection? (h : bodySection? subject type tag = some inner)
    (hgame : subject ≠ .game) : inner.Addresses := by
  unfold bodySection? at h
  dsimp only at h
  split at h
  case h_1 | h_3 => exact Option.some.inj h ▸ trivial
  case h_2 => exact Option.some.inj h ▸ target_mem_of_ne_game hgame
  case h_4 =>
    obtain ⟨hplayer, h⟩ := Option.ite_none_left_eq_some.mp h
    exact Option.some.inj h ▸ target_mem_of_ne_defaultPlayer hplayer
  case h_5 =>
    split at h
    · obtain ⟨-, h⟩ := Option.ite_none_left_eq_some.mp h
      exact Option.some.inj h ▸ trivial
    · exact absurd h nofun
  case h_6 =>
    split at h
    · obtain ⟨-, h⟩ := Option.ite_none_right_eq_some.mp h
      exact Option.some.inj h ▸ trivial
    · exact absurd h nofun
  case h_7 =>
    obtain ⟨⟨-, hplayer⟩, h⟩ := Option.ite_none_right_eq_some.mp h
    exact Option.some.inj h ▸ target_mem_of_ne hgame hplayer
  case h_9 =>
    obtain ⟨-, h⟩ := Option.ite_none_right_eq_some.mp h
    exact Option.some.inj h ▸ target_mem_of_ne_game hgame
  case h_13 => exact absurd h nofun
  all_goals
    obtain ⟨-, h⟩ := Option.ite_none_right_eq_some.mp h
    exact Option.some.inj h ▸ trivial

theorem shapes_bodyChild (h : bodyChild v page subject type tag parent line = .ok plan)
    (haround : (body subject type).Addresses) : plan.Shapes page := by
  obtain ⟨hgame, hroom⟩ := haround
  unfold bodyChild at h
  split at h
  · exact shapes_acting h (target_mem_all subject) fun _ => rfl
  split at h
  · rename_i hinner
    exact shapes_enter h (addresses_bodySection? hinner hgame)
  split at h
  · rename_i htype
    split at h
    · exact absurd h nofun
    · unfold exitChild at h
      split at h
      · exact shapes_reference h fun _ =>
          Operation.wellShaped_acting (hroom htype) rfl
      · exact absurd h nofun
  · exact absurd h nofun

theorem shapes_inventoryChild (h : inventoryChild page subject tag parent line = .ok plan) :
    plan.Shapes page := by
  unfold inventoryChild at h
  split at h
  · exact shapes_acting h (target_mem_all subject) fun _ => rfl
  · exact shapes_reference h fun _ => Operation.wellShaped_iff.mpr rfl
  · exact absurd h nofun
  · exact absurd h nofun

theorem shapes_eventChild (h : eventChild page subject parent token = .ok plan)
    (haround : (events subject).Addresses) : plan.Shapes page := by
  unfold eventChild at h
  dsimp only at h
  split at h
  · split at h
    · obtain rfl := Except.ok.inj h
      exact fun hpage => hpage.write (Operation.wellShaped_acting haround rfl)
    · exact shapes_acting h haround fun _ => rfl
  · obtain ⟨name, -, h⟩ := bind_ok_iff.mp h
    exact shapes_acting h haround fun _ => rfl
  · exact absurd h nofun

theorem shapes_synonymChild (h : synonymChild v page token = .ok plan) : plan.Shapes page := by
  obtain rfl := Except.ok.inj h
  intro word draft hdraft hpage
  split at hdraft
  · obtain ⟨declared, hdeclared, hwrite⟩ := bind_ok_iff.mp hdraft
    obtain rfl := Except.ok.inj hwrite
    exact hpage.adds (v := v) (.verbSynonym hdeclared rfl) (Operation.wellShaped_iff.mpr rfl)
  · obtain ⟨declared, hdeclared, hwrite⟩ := bind_ok_iff.mp hdraft
    obtain rfl := Except.ok.inj hwrite
    exact hpage.adds (.directionSynonym hdeclared rfl) (Operation.wellShaped_iff.mpr rfl)
  · exact absurd hdraft nofun

/-- **Whatever an element is, what is written for it is well shaped.** -/
theorem shapes_child (h : around.child v parent page token = .ok plan)
    (haround : around.Addresses) : plan.Shapes page := by
  unfold child at h
  dsimp only at h
  cases around with
  | game => exact shapes_gameChild h
  | classes =>
    dsimp only at h
    split at h
    · exact shapes_enter h trivial
    · exact absurd h nofun
  | classGroup type => exact shapes_classChild h
  | instances type => exact shapes_instanceChild h
  | player =>
    obtain ⟨-, h⟩ := guard_not_ok_iff.mp h
    exact shapes_enter h ⟨nofun, nofun⟩
  | body subject type => exact shapes_bodyChild h haround
  | messages subject =>
    obtain ⟨-, h⟩ := guard_not_ok_iff.mp h
    obtain ⟨name, -, h⟩ := bind_ok_iff.mp h
    exact shapes_acting h (target_mem_all subject) fun _ => rfl
  | tags subject | aliases subject =>
    obtain ⟨-, h⟩ := guard_not_ok_iff.mp h
    exact shapes_acting h haround fun _ => rfl
  | metadata subject => exact shapes_acting h (target_mem_all subject) fun _ => rfl
  | attributes subject => exact shapes_acting h haround fun _ => rfl
  | group subject stem fields =>
    obtain ⟨-, h⟩ := guard_not_ok_iff.mp h
    exact shapes_acting h (target_mem_all subject) fun _ => rfl
  | inventory subject => exact shapes_inventoryChild h
  | contents room =>
    dsimp only at h
    split at h
    iterate 2
      exact shapes_reference h fun _ => Operation.wellShaped_iff.mpr rfl
    exact absurd h nofun
  | allocations owner =>
    obtain ⟨-, h⟩ := guard_not_ok_iff.mp h
    obtain ⟨amount, -, h⟩ := bind_ok_iff.mp h
    exact shapes_reference h fun _ => Operation.wellShaped_iff.mpr rfl
  | events subject => exact shapes_eventChild h haround
  | vocabulary =>
    dsimp only at h
    split at h
    iterate 2 exact shapes_enter h trivial
    exact absurd h nofun
  | directions =>
    obtain ⟨-, h⟩ := guard_not_ok_iff.mp h
    obtain rfl := Except.ok.inj h
    intro word draft hdraft hpage
    obtain ⟨declared, hdeclared, hwrite⟩ := bind_ok_iff.mp hdraft
    obtain rfl := Except.ok.inj hwrite
    exact hpage.adds (.direction hdeclared rfl) (Operation.wellShaped_iff.mpr rfl)
  | synonyms =>
    obtain ⟨-, h⟩ := guard_not_ok_iff.mp h
    exact shapes_synonymChild h
  | timer =>
    obtain ⟨-, h⟩ := guard_not_ok_iff.mp h
    exact shapes_leaf h fun _ => Operation.wellShaped_iff.mpr rfl

end Section

/-! ### A whole document -/

/-- What holds during a walk: the draft is well shaped, and all open sections are for their
subjects. -/
def Fitted (page : Page) (levels : List Level) : Prop :=
  page.draft.Shaped ∧ ∀ level ∈ levels, level.within.Addresses

theorem kept_fitted : Kept v Fitted where
  stay := by
    intro page page' level outer token plan h _ hplan hgives
    have hshapes := Section.shapes_child hplan (h.2 level (List.mem_cons_self ..))
    cases hgives with
    | read _ _ hwrite => exact ⟨hshapes _ _ hwrite h.1, h.2⟩
    | pass => exact ⟨hshapes h.1, h.2⟩
  enter := by
    intro page page' level outer token plan inner h _ hplan hgives
    have hshapes := Section.shapes_child hplan (h.2 level (List.mem_cons_self ..))
    cases hgives with
    | enter => exact ⟨hshapes.1 h.1, List.forall_mem_cons.mpr ⟨hshapes.2, h.2⟩⟩
  leave := by
    intro page level outer h
    exact ⟨h.1, fun other hother => h.2 other (List.mem_cons_of_mem _ hother)⟩

/-- **Every operation of a document is well shaped.** -/
theorem shaped_readDocument {source : String} {d : Draft} (h : readDocument v source = .ok d) :
    d.Shaped := by
  have hempty : Fitted ⟨.empty, false⟩ [⟨.game, "game", 1⟩] :=
    ⟨.empty, List.forall_mem_singleton.mpr trivial⟩
  obtain ⟨page, rfl, hpage, -⟩ := kept_fitted.of_readDocument h hempty
  exact hpage.1

end Adventure.Markup
