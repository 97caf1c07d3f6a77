/-
The ground that a section stands on.

A section is about a subject that was defined when it was entered, and it is entered only
if the subject is of a type for what is written there.  Definitions stay, so the subject is
still there for everything in the section.  Other entities that an element names are
defined by their first use, and a word for a direction means one that is known by then.
So whatever an element is, what is written for it is grounded.
-/
import Adventure.Proofs.Markup.Endings
import Adventure.Proofs.Preparation

namespace Adventure.Markup

variable {v : Vocabulary} {page : Page} {plan : Plan} {e e' : Declarations}

/-! ### Sections and their subjects -/

/-- A section holds what a game can declare. -/
theorem isInstantiable_of_sectionType? {tag : String} {type : EntityType}
    (h : sectionType? tag = some type) : type.isInstantiable := by
  unfold sectionType? at h
  split at h
  case h_5 => exact absurd h nofun
  all_goals exact Option.some.inj h ▸ rfl

namespace Section

/-- What was defined and suits a section when it was entered. -/
def Grounds (e : Declarations) : Section → Prop
  | classGroup type | instances type => type.isInstantiable
  | body subject type =>
    e.HasSubject subject (some type) ∧ (type.isInstantiable ∨ type = .player)
  | messages subject | metadata subject => ∃ type, e.HasSubject subject type
  | tags subject => ∃ type, e.HasSubject subject (some type)
  | aliases subject =>
    subject ≠ .defaultPlayer ∧ ∃ type, e.HasSubject subject (some type) ∧ type.isA .thing
  | attributes subject | inventory subject =>
    ∃ type, e.HasSubject subject (some type) ∧ type.isA .being
  | group subject stem fields =>
    ∃ type, e.HasSubject subject type ∧ ∀ field ∈ fields,
      (Validation.propertyRule type (stem ++ "." ++ field)).isOk
  | contents room => e.HasSubject (.entity room) (some .room)
  | allocations owner => ∃ type, e.HasSubject (.entity owner) (some type) ∧ type.isA .tangible
  | events subject => subject ≠ .defaultPlayer ∧ ∃ type, e.HasSubject subject type
  | game | classes | player | vocabulary | directions | synonyms | timer => True

/-- What was defined stays. -/
theorem Grounds.mono {around : Section} (h : around.Grounds e) (he : e.Grows e') :
    around.Grounds e' := by
  cases around with
  | body => exact ⟨he _ _ h.1, h.2⟩
  | messages | metadata | tags =>
    obtain ⟨type, hsubject⟩ := h
    exact ⟨type, he _ _ hsubject⟩
  | aliases =>
    obtain ⟨hplayer, type, hsubject, hthing⟩ := h
    exact ⟨hplayer, type, he _ _ hsubject, hthing⟩
  | events =>
    obtain ⟨hplayer, type, hsubject⟩ := h
    exact ⟨hplayer, type, he _ _ hsubject⟩
  | attributes | inventory | allocations | group =>
    obtain ⟨type, hsubject, hrest⟩ := h
    exact ⟨type, he _ _ hsubject, hrest⟩
  | contents room => exact he (.entity room) (some .room) h
  | _ => exact h

end Section

/-! ### Properties that a type has -/

/-- A tag that sets a property sets one that the type has. -/
theorem isOk_leafProperty? {type : EntityType} {tag property : String}
    (h : leafProperty? type tag = some property) :
    (Validation.propertyRule (some type) property).isOk := by
  have htable : ∀ type ∈ EntityType.all, ∀ leaf ∈ commonLeaves ++ typeLeaves type,
      (Validation.propertyRule (some type) leaf.2).isOk := by
    decide
  exact htable type type.mem_all _ (NameTable.mem_of_lookup h)

theorem isOk_introduction : ∀ field ∈ ["enabled", "text", "pause"],
    (Validation.propertyRule none ("introduction" ++ "." ++ field)).isOk := by
  decide

theorem isOk_respawn {type : EntityType} (h : type.isA .being) :
    ∀ field ∈ ["enabled", "interval", "lives"],
      (Validation.propertyRule (some type) ("respawn" ++ "." ++ field)).isOk := by
  revert h
  cases type <;> decide

theorem isOk_inventory {type : EntityType} (h : type.isA .being) :
    (Validation.propertyRule (some type) "inventory.weight").isOk := by
  revert h
  cases type <;> decide

theorem isOk_autoAttack : ∀ field ∈ ["enabled", "repeat", "interval"],
    (Validation.propertyRule (some .creature) ("autoAttack" ++ "." ++ field)).isOk := by
  decide

theorem isOk_wandering : ∀ field ∈ ["enabled", "interval", "wanderlust"],
    (Validation.propertyRule (some .creature) ("wandering" ++ "." ++ field)).isOk := by
  decide

/-! ### Plans -/

/-- What a plan comes to: the draft leads on, and a section that is entered has its
ground. -/
def Plan.Leads (v : Vocabulary) (page : Page) : Plan → Prop
  | .enter inner page' =>
    page.draft.Leads v page'.draft ∧ inner.Grounds page'.draft.noted
  | .read write => ∀ value draft, Text.isBlankText value = false → write value = .ok draft →
    page.draft.Leads v draft
  | .pass draft => page.draft.Leads v draft

namespace Section

variable {around inner : Section} {type : EntityType} {tag parent : String} {line : Nat}
variable {token : Token} {subject : Subject}

theorem leads_enter (h : enter page inner = .ok plan) (hpage : page.draft.Named v)
    (hinner : inner.Grounds page.draft.noted) : plan.Leads v page := by
  obtain rfl := Except.ok.inj h
  exact ⟨⟨hpage, .refl _⟩, hinner⟩

theorem leads_leaf {op : String → Operation} (h : leaf page op = .ok plan)
    (hpage : page.draft.Named v) (hop : ∀ value, Text.isBlankText value = false →
      (op value).opcode.declares = false ∧ (op value).Grounded v page.draft.noted) :
    plan.Leads v page := by
  obtain rfl := Except.ok.inj h
  intro value draft hvalue hdraft
  obtain rfl := Except.ok.inj hdraft
  obtain ⟨hdeclares, hgrounded⟩ := hop value hvalue
  exact hpage.write hdeclares hgrounded

/-- What is written with an entity comes after its definition. -/
theorem leads_reference {op : String → Operation} (h : reference page type line op = .ok plan)
    (hpage : page.draft.Named v) (hdeclares : ∀ name, (op name).opcode.declares = false)
    (hop : ∀ name (draft : Draft), page.draft.Leads v draft →
      draft.declarations = page.draft.declarations →
        (∃ t, draft.noted.entityType? name = some t ∧ t.isA type) →
          (op name).Grounded v draft.noted) :
    plan.Leads v page := by
  obtain rfl := Except.ok.inj h
  intro name draft _ hdraft
  obtain ⟨used, hused, hwrite⟩ := bind_ok_iff.mp hdraft
  obtain rfl := Except.ok.inj hwrite
  obtain ⟨hleads, hname⟩ := hpage.referenceEntity hused
  have hsame := (Draft.usesEntity_of_ok hused).declarations
  exact hleads.trans (hleads.1.write (hdeclares name) (hop name used hleads hsame hname))

theorem leads_gameChild (h : gameChild page tag parent line = .ok plan)
    (hpage : page.draft.Named v) : plan.Leads v page := by
  unfold gameChild at h
  split at h
  · split at h
    · exact absurd h nofun
    · exact leads_enter h hpage trivial
  · exact leads_enter h hpage trivial
  · exact leads_enter h hpage trivial
  · exact leads_enter h hpage ⟨nofun, none, rfl⟩
  · exact leads_enter h hpage ⟨none, rfl, isOk_introduction⟩
  · exact leads_enter h hpage trivial
  · exact leads_enter h hpage ⟨none, rfl⟩
  split at h
  · rename_i type htype
    obtain rfl := Except.ok.inj h
    exact ⟨⟨hpage, .refl _⟩, isInstantiable_of_sectionType? htype⟩
  · exact absurd h nofun

theorem leads_classChild (h : classChild page type token = .ok plan) (hpage : page.draft.Named v)
    (htype : type.isInstantiable) : plan.Leads v page := by
  simp only [classChild, throw_bind, guard_ok_iff, bind_ok_iff] at h
  obtain ⟨-, name, hname, draft, hdraft, h⟩ := h
  obtain rfl := Except.ok.inj h
  have hblank := Token.not_isBlankText_attribute hname
  obtain ⟨hleads, hsubject⟩ := hpage.defineClass hdraft hblank htype
  exact ⟨hleads, hsubject, Or.inl htype⟩

theorem leads_instanceChild (h : instanceChild page type parent token = .ok plan)
    (hpage : page.draft.Named v) (htype : type.isInstantiable) : plan.Leads v page := by
  simp only [instanceChild, throw_bind, guard_ok_iff, bind_ok_iff] at h
  obtain ⟨-, name, -, index, hindex, h⟩ := h
  obtain rfl := Except.ok.inj h
  obtain ⟨hleads, hsubject⟩ := hpage.declareEntity (Prod.ext hindex rfl)
  exact ⟨hleads, hsubject, Or.inl htype⟩

/-- An exit leads in a direction that is known, into a room. -/
theorem leads_exitChild (h : exitChild v page subject tag parent line = .ok plan)
    (hpage : page.draft.Named v) (hsubject : page.draft.noted.HasSubject subject (some .room)) :
    plan.Leads v page := by
  unfold exitChild at h
  split at h
  · rename_i direction hdirection
    refine leads_reference h hpage (fun _ => rfl) ?_
    intro room draft hleads hsame hroom
    have hresolves := hpage.canonical tag direction hdirection
    rw [← hsame, ← hleads.1.covers.words.resolveDirection] at hresolves
    exact Operation.grounded_connectRooms (hleads.2 _ _ hsubject) ⟨direction, hresolves⟩ hroom
  · exact absurd h nofun

theorem grounds_bodySection? (h : bodySection? subject type tag = some inner)
    (hsubject : e.HasSubject subject (some type)) (htype : type.isInstantiable ∨ type = .player) :
    inner.Grounds e := by
  unfold bodySection? at h
  dsimp only at h
  split at h
  case h_1 | h_3 => exact Option.some.inj h ▸ ⟨some type, hsubject⟩
  case h_2 => exact Option.some.inj h ▸ ⟨type, hsubject⟩
  case h_4 =>
    obtain ⟨hplayer, h⟩ := Option.ite_none_left_eq_some.mp h
    exact Option.some.inj h ▸ ⟨hplayer, some type, hsubject⟩
  case h_5 =>
    split at h
    · obtain ⟨hresource, h⟩ := Option.ite_none_left_eq_some.mp h
      have htangible : type.isA .tangible := by
        revert htype hresource
        cases type <;> decide
      exact Option.some.inj h ▸ ⟨type, hsubject, htangible⟩
    · exact absurd h nofun
  case h_6 =>
    split at h
    · obtain ⟨rfl, h⟩ := Option.ite_none_right_eq_some.mp h
      exact Option.some.inj h ▸ hsubject
    · exact absurd h nofun
  case h_7 =>
    obtain ⟨⟨hthing, hplayer⟩, h⟩ := Option.ite_none_right_eq_some.mp h
    exact Option.some.inj h ▸ ⟨hplayer, type, hsubject, hthing⟩
  case h_8 | h_9 =>
    obtain ⟨hbeing, h⟩ := Option.ite_none_right_eq_some.mp h
    exact Option.some.inj h ▸ ⟨type, hsubject, hbeing⟩
  case h_10 =>
    obtain ⟨hbeing, h⟩ := Option.ite_none_right_eq_some.mp h
    exact Option.some.inj h ▸ ⟨some type, hsubject, isOk_respawn hbeing⟩
  case h_11 =>
    obtain ⟨rfl, h⟩ := Option.ite_none_right_eq_some.mp h
    exact Option.some.inj h ▸ ⟨some .creature, hsubject, isOk_autoAttack⟩
  case h_12 =>
    obtain ⟨rfl, h⟩ := Option.ite_none_right_eq_some.mp h
    exact Option.some.inj h ▸ ⟨some .creature, hsubject, isOk_wandering⟩
  case h_13 => exact absurd h nofun

theorem leads_bodyChild (h : bodyChild v page subject type tag parent line = .ok plan)
    (hpage : page.draft.Named v) (hsubject : page.draft.noted.HasSubject subject (some type))
    (htype : type.isInstantiable ∨ type = .player) : plan.Leads v page := by
  unfold bodyChild at h
  split at h
  · rename_i property hproperty
    exact leads_leaf h hpage fun value _ => ⟨rfl, Operation.grounded_setProperty hsubject
      (exists_ok_of_isOk (isOk_leafProperty? hproperty))⟩
  split at h
  · rename_i hinner
    exact leads_enter h hpage (grounds_bodySection? hinner hsubject htype)
  split at h
  · rename_i hroom
    split at h
    · exact absurd h nofun
    · exact leads_exitChild h hpage (hroom ▸ hsubject)
  · exact absurd h nofun

theorem leads_inventoryChild (h : inventoryChild page subject tag parent line = .ok plan)
    (hpage : page.draft.Named v) (hsubject : page.draft.noted.HasSubject subject (some type))
    (hbeing : type.isA .being) : plan.Leads v page := by
  unfold inventoryChild at h
  split at h
  · exact leads_leaf h hpage fun value _ => ⟨rfl, Operation.grounded_setProperty hsubject
      (exists_ok_of_isOk (isOk_inventory hbeing))⟩
  · refine leads_reference h hpage (fun _ => rfl) ?_
    intro name draft hleads _ hobject
    have hknown := Declarations.entityType?_of_hasSubject (hleads.2 _ _ hsubject)
    exact Operation.grounded_insertIntoInventory hobject ⟨type, hknown, hbeing⟩
  · exact absurd h nofun
  · exact absurd h nofun

theorem leads_eventChild (h : eventChild page subject parent token = .ok plan)
    (hpage : page.draft.Named v) {subjectType : Option EntityType}
    (hsubject : page.draft.noted.HasSubject subject subjectType)
    (hplayer : subject ≠ .defaultPlayer) : plan.Leads v page := by
  unfold eventChild at h
  dsimp only at h
  split at h
  · split at h
    · obtain rfl := Except.ok.inj h
      exact hpage.write rfl (Operation.grounded_loadScript hplayer hsubject)
    · exact leads_leaf h hpage fun value _ =>
        ⟨rfl, Operation.grounded_loadScript hplayer hsubject⟩
  · obtain ⟨name, hname, h⟩ := bind_ok_iff.mp h
    have hmem : subject.target ∈ Opcode.setEvent.targets := by
      cases subject with
      | defaultPlayer => exact absurd rfl hplayer
      | _ => simp [Subject.target, Opcode.targets]
    exact leads_leaf h hpage fun value _ => ⟨rfl, Operation.grounded_named (by decide) hmem rfl
      hsubject rfl (Token.not_isBlankText_attribute hname)⟩
  · cases h

theorem leads_synonymChild (h : synonymChild v page token = .ok plan)
    (hpage : page.draft.Named v) : plan.Leads v page := by
  obtain rfl := Except.ok.inj h
  intro word draft _ hdraft
  dsimp only at hdraft
  split at hdraft
  · obtain ⟨declared, hdeclared, hwrite⟩ := bind_ok_iff.mp hdraft
    obtain rfl := Except.ok.inj hwrite
    exact hpage.defineVerbSynonym hdeclared
  · obtain ⟨declared, hdeclared, hwrite⟩ := bind_ok_iff.mp hdraft
    obtain rfl := Except.ok.inj hwrite
    exact hpage.defineDirectionSynonym hdeclared
  · exact absurd hdraft nofun

/-- **Whatever an element is, what is written for it is grounded.** -/
theorem leads_child (h : around.child v parent page token = .ok plan) (hopens : token.Opens)
    (hpage : page.draft.Named v) (haround : around.Grounds page.draft.noted) :
    plan.Leads v page := by
  unfold child at h
  dsimp only at h
  cases around with
  | game => exact leads_gameChild h hpage
  | classes =>
    dsimp only at h
    split at h
    · rename_i htype
      exact leads_enter h hpage (isInstantiable_of_sectionType? htype)
    · cases h
  | classGroup type => exact leads_classChild h hpage haround
  | instances type => exact leads_instanceChild h hpage haround
  | player =>
    obtain ⟨-, h⟩ := guard_not_ok_iff.mp h
    exact leads_enter h hpage ⟨rfl, Or.inr rfl⟩
  | body subject type => exact leads_bodyChild h hpage haround.1 haround.2
  | messages subject =>
    obtain ⟨type, hsubject⟩ := haround
    obtain ⟨-, h⟩ := guard_not_ok_iff.mp h
    obtain ⟨name, hname, h⟩ := bind_ok_iff.mp h
    have hmem : subject.target ∈ Opcode.setMessage.targets := by
      cases subject <;> simp [Subject.target, Opcode.targets]
    exact leads_leaf h hpage fun value _ => ⟨rfl, Operation.grounded_named (by decide) hmem rfl
      hsubject rfl (Token.not_isBlankText_attribute hname)⟩
  | tags subject =>
    obtain ⟨type, hsubject⟩ := haround
    obtain ⟨-, h⟩ := guard_not_ok_iff.mp h
    have hmem : subject.target ∈ Opcode.setTag.targets := by
      cases subject with
      | game => cases hsubject
      | _ => simp [Subject.target, Opcode.targets]
    exact leads_leaf h hpage fun value hvalue => ⟨rfl, Operation.grounded_named (by decide) hmem
      rfl hsubject rfl hvalue⟩
  | metadata subject =>
    obtain ⟨type, hsubject⟩ := haround
    have hmem : subject.target ∈ Opcode.setMeta.targets := by
      cases subject <;> simp [Subject.target, Opcode.targets]
    exact leads_leaf h hpage fun value _ => ⟨rfl, Operation.grounded_named (by decide) hmem rfl
      hsubject rfl hopens.2⟩
  | aliases subject =>
    obtain ⟨hplayer, type, hsubject, hthing⟩ := haround
    obtain ⟨-, h⟩ := guard_not_ok_iff.mp h
    exact leads_leaf h hpage fun value _ =>
      ⟨rfl, Operation.grounded_setAlias hplayer hsubject hthing⟩
  | attributes subject =>
    obtain ⟨type, hsubject, hbeing⟩ := haround
    exact leads_leaf h hpage fun value _ => ⟨rfl, Operation.grounded_setAttribute hsubject hbeing⟩
  | group subject stem fields =>
    obtain ⟨type, hsubject, hfields⟩ := haround
    obtain ⟨hfield, h⟩ := guard_not_ok_iff.mp h
    exact leads_leaf h hpage fun value _ => ⟨rfl, Operation.grounded_setProperty hsubject
      (exists_ok_of_isOk (hfields _ (List.contains_iff_mem.mp hfield)))⟩
  | inventory subject =>
    obtain ⟨type, hsubject, hbeing⟩ := haround
    exact leads_inventoryChild h hpage hsubject hbeing
  | contents room =>
    have hplace : ∀ {draft : Draft}, page.draft.Leads v draft →
        ∃ t, draft.noted.entityType? room = some t ∧ t.isA .place := by
      intro draft hleads
      have hroom := hleads.2 (.entity room) (some .room) haround
      exact ⟨.room, Declarations.entityType?_of_hasSubject hroom, rfl⟩
    have hthing : ∀ {draft : Draft} {name type}, type.isA .thing →
        (∃ t, draft.noted.entityType? name = some t ∧ t.isA type) →
          ∃ t, draft.noted.entityType? name = some t ∧ t.isA .thing := by
      rintro draft name type htype ⟨t, ht, hisA⟩
      exact ⟨t, ht, EntityType.isA_trans hisA htype⟩
    dsimp only at h
    split at h
    · exact leads_reference h hpage (fun _ => rfl) fun name draft hleads _ hname =>
        Operation.grounded_insertIntoPlace (hthing rfl hname) (hplace hleads)
    · exact leads_reference h hpage (fun _ => rfl) fun name draft hleads _ hname =>
        Operation.grounded_insertIntoPlace (hthing rfl hname) (hplace hleads)
    · cases h
  | allocations owner =>
    obtain ⟨type, hsubject, htangible⟩ := haround
    obtain ⟨-, h⟩ := guard_not_ok_iff.mp h
    obtain ⟨amount, -, h⟩ := bind_ok_iff.mp h
    refine leads_reference h hpage (fun _ => rfl) ?_
    intro name draft hleads _ hresource
    have hknown := Declarations.entityType?_of_hasSubject (hleads.2 _ _ hsubject)
    exact Operation.grounded_allocateResource hresource ⟨type, hknown, htangible⟩
  | events subject =>
    obtain ⟨hplayer, type, hsubject⟩ := haround
    exact leads_eventChild h hpage hsubject hplayer
  | vocabulary =>
    dsimp only at h
    split at h
    iterate 2 exact leads_enter h hpage trivial
    cases h
  | directions =>
    obtain ⟨-, h⟩ := guard_not_ok_iff.mp h
    obtain rfl := Except.ok.inj h
    intro word draft _ hdraft
    obtain ⟨declared, hdeclared, hwritten⟩ := bind_ok_iff.mp hdraft
    obtain rfl := Except.ok.inj hwritten
    exact hpage.defineDirection hdeclared
  | synonyms =>
    obtain ⟨-, h⟩ := guard_not_ok_iff.mp h
    exact leads_synonymChild h hpage
  | timer =>
    obtain ⟨-, h⟩ := guard_not_ok_iff.mp h
    exact leads_leaf h hpage fun value _ =>
      ⟨rfl, ⟨rfl, trivial⟩, fun hne => absurd rfl hne, List.forall_mem_nil _, by rintro ⟨⟩, trivial⟩

end Section

/-! ### A whole document -/

/-- What holds during a walk: the draft is named, and all open sections have their
ground. -/
def Founded (v : Vocabulary) (page : Page) (levels : List Level) : Prop :=
  page.draft.Named v ∧ ∀ level ∈ levels, level.within.Grounds page.draft.noted

theorem Founded.leads {page' : Page} {levels : List Level} (h : Founded v page levels)
    (hleads : page.draft.Leads v page'.draft) : Founded v page' levels :=
  ⟨hleads.1, fun level hlevel => (h.2 level hlevel).mono hleads.2⟩

theorem kept_founded : Kept v (Founded v) where
  stay := by
    intro page page' level outer token plan h hopens hplan hgives
    have hleads := Section.leads_child hplan hopens h.1 (h.2 level (List.mem_cons_self ..))
    cases hgives with
    | read _ hvalue hwrite => exact h.leads (hleads _ _ hvalue hwrite)
    | pass => exact h.leads hleads
  enter := by
    intro page page' level outer token plan inner h hopens hplan hgives
    have hleads := Section.leads_child hplan hopens h.1 (h.2 level (List.mem_cons_self ..))
    cases hgives with
    | enter =>
      obtain ⟨hpage, hinner⟩ := hleads
      obtain ⟨hnamed, hlevels⟩ := h.leads hpage
      exact ⟨hnamed, List.forall_mem_cons.mpr ⟨hinner, hlevels⟩⟩
  leave := by
    intro page level outer h
    exact ⟨h.1, fun other hother => h.2 other (List.mem_cons_of_mem _ hother)⟩

theorem named_readDocument {source : String} {d : Draft} (hv : v.Canonical)
    (h : readDocument v source = .ok d) : d.Named v ∧ d.awaited = [] := by
  have hempty : Founded v ⟨.empty, false⟩ [⟨.game, "game", 1⟩] :=
    ⟨.empty hv, List.forall_mem_singleton.mpr trivial⟩
  obtain ⟨page, rfl, hpage, hawaited, -⟩ := kept_founded.of_readDocument h hempty
  exact ⟨hpage.1, hawaited⟩

/-- What is defined is declared, where every declaration is defined once. -/
theorem declared_of_defines {ops : List Operation} {op : Operation} {opcode : Opcode}
    {name : String} {declared : Bool}
    (h : ops.countP (·.defines opcode name) = if declared then 1 else 0) (hop : op ∈ ops)
    (hdefines : op.defines opcode name) : declared = true := by
  have hpos := List.countP_pos_iff.mpr ⟨op, hop, hdefines⟩
  cases declared with
  | true => rfl
  | false =>
    rw [h] at hpos
    exact absurd hpos nofun

/-- **Names come before their uses.**  A document defines every entity and every class that
it declares once.  Whatever else an operation names was defined before it, with the type
that its check demands, and its properties and directions are known.  So once the operations
before it were carried out, nothing can stop it but the text of a value, a resource that
has run out, or a script that cannot be read. -/
theorem names_come_first {source : String} {d : Draft} (hv : v.Canonical)
    (h : readDocument v source = .ok d) :
    (∀ name, d.operations.countP (·.defines .defineEntity name) =
        if (d.declarations.entity? name).isSome then 1 else 0) ∧
      (∀ name, d.operations.countP (·.defines .defineEntityClass name) =
        if (d.declarations.class? name).isSome then 1 else 0) ∧
      ∀ before op after, d.operations = before ++ op :: after → op.opcode ≠ .defineEntity →
        (∀ name, op.NamesEntity name → ∃ other ∈ before, other.defines .defineEntity name) ∧
          (∀ name, op.subject? = some (.entityClass name) →
            ∃ other ∈ before, other.defines .defineEntityClass name) ∧
          op.Grounded v (Declarations.empty.noting before) ∧
          ∀ config files x,
            before.forM (Execution.execute (World.builder ⟨config, files, .standard⟩) v)
                .emptyWorld = .ok () x →
              Execution.Achieves op x
                (Execution.execute (World.builder ⟨config, files, .standard⟩) v op x) := by
  obtain ⟨hd, hawaited⟩ := named_readDocument hv h
  have hentities : ∀ name, d.operations.countP (·.defines .defineEntity name) =
      if (d.declarations.entity? name).isSome then 1 else 0 := by
    intro name
    have hknown : d.noted.entityType? name = d.declarations.entityType? name := by
      ext type
      rw [hd.covers.entityType?, hawaited]
      simp
    rw [hd.orderly.entities]
    show (d.noted.entityType? name).isSome.toNat = _
    rw [hknown, Declarations.entityType?]
    cases d.declarations.entity? name <;> rfl
  have hclasses : ∀ name, d.operations.countP (·.defines .defineEntityClass name) =
      if (d.declarations.class? name).isSome then 1 else 0 := by
    intro name
    rw [hd.orderly.classes]
    show (d.noted.classType? name).isSome.toNat = _
    rw [hd.covers.classType?, Declarations.classType?]
    cases d.declarations.class? name <;> rfl
  refine ⟨hentities, hclasses, ?_⟩
  intro before op after hops hop
  have hgrounded : op.Grounded v (Declarations.empty.noting before) := by
    have hprepared := hd.orderly.prepared
    rw [hops] at hprepared
    exact hprepared.grounded hop
  refine ⟨?_, ?_, hgrounded, ?_⟩
  · intro name hname
    exact Declarations.exists_defines_entity (hgrounded.entityType? hname)
  · intro name hname
    exact Declarations.exists_defines_class (hgrounded.classType? hname)
  · intro config files x hrun
    obtain ⟨hsound, halike⟩ := Execution.alike_of_forM Execution.sound_emptyWorld (.refl _) hrun
    refine Execution.achieves_of_passes rfl hsound ?_
    refine Validation.passes_of_grounded (hgrounded.congr halike) hop ?_
    intro hclass
    rw [halike.entityType?]
    -- a class of this name is declared, so no entity of this name is ever defined
    have hmem : op ∈ d.operations := by simp [hops]
    have hdeclared : (d.declarations.class? (op.argument 0)).isSome :=
      declared_of_defines (hclasses _) hmem (by simp [Operation.defines, hclass])
    rw [← Option.not_isSome_iff_eq_none]
    intro hsome
    obtain ⟨other, hother, hdefines⟩ := Declarations.exists_defines_entity hsome
    have hentity := declared_of_defines (hentities _) (hops ▸ List.mem_append_left _ hother) hdefines
    have hnone := hd.apart (op.argument 0) (by simpa [Declarations.classType?] using hdeclared)
    rw [Declarations.entityType?, Option.map_eq_none_iff] at hnone
    rw [hnone] at hentity
    cases hentity

/-- Two rooms, of which the first has an exit to the second. -/
def twoRooms : String :=
  "<game><rooms><room name=\"start\"><n>hall</n></room><room name=\"hall\"/></rooms></game>"

/-- What is written for the rooms themselves. -/
def twoDefinitions : List Operation :=
  [.defineEntity "start" .room "room" none 1, .defineEntity "hall" .room "room" none 1]

set_option maxRecDepth 100000 in
/-- A room that is used before it is declared is defined once, and before its use. -/
theorem hall_comes_first :
    Vocabulary.english.Canonical ∧ ∃ d, readDocument .english twoRooms = .ok d ∧
      d.operations = twoDefinitions ++ .connectRooms (.entity "start") "north" "hall" 1 :: [] ∧
      (if (d.declarations.entity? "hall").isSome then 1 else 0) =
        twoDefinitions.countP (·.defines .defineEntity "hall") ∧
      (∃ other ∈ twoDefinitions, other.defines .defineEntity "hall") ∧
      ∀ files, ∃ x, twoDefinitions.forM
          (Execution.execute (World.builder ⟨.strict, files, .standard⟩) .english) .emptyWorld =
            .ok () x ∧
        Execution.Achieves (.connectRooms (.entity "start") "north" "hall" 1) x
          (Execution.execute (World.builder ⟨.strict, files, .standard⟩) .english
            (.connectRooms (.entity "start") "north" "hall" 1) x) := by
  have hread : (readDocument .english twoRooms).toOption.map Draft.operations = some
      (twoDefinitions ++ .connectRooms (.entity "start") "north" "hall" 1 :: []) := by
    decide +kernel
  cases hd : readDocument .english twoRooms with
  | error e =>
    rw [hd] at hread
    exact absurd hread nofun
  | ok d =>
    rw [hd] at hread
    have hops := Option.some.inj hread
    obtain ⟨hentities, -, huses⟩ := names_come_first Vocabulary.canonical_english hd
    obtain ⟨hnamed, -, -, hachieves⟩ := huses _ _ _ hops nofun
    refine ⟨Vocabulary.canonical_english, d, rfl, hops, ?_, ?_, ?_⟩
    · have hcount := hentities "hall"
      rw [show d.operations = _ from hops] at hcount
      exact hcount.symm
    · exact hnamed "hall" (Or.inr ⟨.room, List.mem_singleton_self _⟩)
    · intro files
      exact ⟨_, rfl, hachieves _ _ _ rfl⟩

end Adventure.Markup
