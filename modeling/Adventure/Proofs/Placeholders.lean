/-
What declaring and using an entity do to a draft.

The first use of a name that is not declared writes a definition with the bare type for
a class.  As long as the name is awaited that definition stays as it is, so the
declaration finds it again and turns it into what it would have written itself.  Said in
terms of the operations alone: a declaration either appends a definition or replaces one,
a use either appends a definition or leaves the operations as they are.
-/
import Adventure.Proofs.Markup.Tracking

namespace Adventure

namespace Draft

variable {d d' : Draft} {p : Program} {op : Operation} {name className : String}
variable {type : EntityType} {plural : Option String} {line : Nat}

/-! ### Filling in, seen in the operations -/

/-- **Filling in a definition replaces it in the operations.** -/
theorem operations_fillIn {use : Awaited} (className : String) (plural : Option String)
    (hp : p.WF) (huse : use.definition ∈ p.root) (hop : p.operation? use.definition = some op) :
    ∃ before after, p.operations = before ++ op :: after ∧
      (fillIn p use className plural).operations =
        before ++ filled className plural op :: after := by
  have hfilled : ∀ i ∈ p.root, (fillIn p use className plural).operation? i = _ :=
    fun i hi => operation?_fillIn hp huse hi
  have hnodup := hp.root_nodup
  obtain ⟨before, after, hroot⟩ := List.append_of_mem huse
  rw [hroot, List.nodup_middle, List.nodup_cons, List.mem_append, not_or] at hnodup
  obtain ⟨⟨hbefore, hafter⟩, -⟩ := hnodup
  have hrest : ∀ i ∈ p.root, i ≠ use.definition →
      (fillIn p use className plural).operation? i = p.operation? i := by
    intro i hi hne
    rw [hfilled i hi]
    simp [hne]
  have hhere : (fillIn p use className plural).operation? use.definition =
      some (filled className plural op) := by
    rw [hfilled _ huse, hop]
    simp
  refine ⟨before.filterMap p.operation?, after.filterMap p.operation?, ?_, ?_⟩
  · rw [Program.operations, hroot, List.filterMap_append, List.filterMap_cons_some hop]
  · rw [Program.operations, root_fillIn hp huse, hroot, List.filterMap_append,
      List.filterMap_cons_some hhere]
    congr 1
    · refine List.filterMap_congr fun i hi => hrest i ?_ fun heq => hbefore (heq ▸ hi)
      rw [hroot]
      exact List.mem_append_left _ hi
    · congr 1
      refine List.filterMap_congr fun i hi => hrest i ?_ fun heq => hafter (heq ▸ hi)
      rw [hroot]
      exact List.mem_append_right _ (List.mem_cons_of_mem _ hi)

/-! ### Drafts whose placeholders can be found -/

/-- What is awaited has its definition where the draft will look for it. -/
structure Placed (d : Draft) : Prop where
  wf : d.program.WF
  /-- The definition of an awaited name has the bare type for a class. -/
  placeholder : ∀ use ∈ d.awaited, use.definition ∈ d.program.root ∧ ∃ line,
    d.program.operation? use.definition =
      some (.defineEntity use.name use.type use.type.name none line)
  /-- No name is awaited twice. -/
  distinct : (d.awaited.map Awaited.name).Nodup

theorem Placed.empty : Draft.empty.Placed :=
  ⟨.empty, nofun, List.nodup_nil⟩

theorem Placed.operations_write (hd : d.Placed) (op : Operation) :
    (d.write op).operations = d.operations ++ [op] :=
  hd.wf.operations_push op

theorem Placed.write (hd : d.Placed) (op : Operation) : (d.write op).Placed := by
  refine ⟨hd.wf.push op, ?_, hd.distinct⟩
  intro use huse
  obtain ⟨hroot, line, hop⟩ := hd.placeholder use huse
  refine ⟨List.mem_append_left _ hroot, line, ?_⟩
  rw [← hop]
  exact hd.wf.operation?_push_of_mem op hroot

theorem Placed.withDeclarations (hd : d.Placed) (declarations : Declarations) :
    ({ d with declarations } : Draft).Placed :=
  ⟨hd.wf, hd.placeholder, hd.distinct⟩

theorem eq_of_awaited? {use : Awaited} (h : d.awaited? name = some use) :
    use ∈ d.awaited ∧ use.name = name :=
  ⟨List.mem_of_find?_eq_some h, by simpa using List.find?_some h⟩

theorem awaited?_eq_none_iff : d.awaited? name = none ↔ ∀ use ∈ d.awaited, use.name ≠ name := by
  simp [awaited?]

/-! ### Declaring an entity -/

/-- What becomes of the operations of a draft when an entity is declared. -/
inductive Settled (d : Draft) (name : String) (type : EntityType) (className : String)
    (plural : Option String) (line : Nat) : List Operation → Prop
  /-- Its name was not used before. -/
  | new (hnone : ∀ use ∈ d.awaited, use.name ≠ name) :
    Settled d name type className plural line
      (d.operations ++ [.defineEntity name type className plural line])
  /-- Its name was used before as the same type. -/
  | filled {use : Awaited} {before after : List Operation} {first : Nat} (huse : use ∈ d.awaited)
    (hname : use.name = name) (htype : use.type = type)
    (hops : d.operations = before ++ .defineEntity name type type.name none first :: after) :
    Settled d name type className plural line
      (before ++ .defineEntity name type className plural first :: after)

/-- What declaring an entity does. -/
structure DeclaresEntity (d : Draft) (name : String) (type : EntityType) (className : String)
    (plural : Option String) (line : Nat) (d' : Draft) : Prop where
  reserved : EntityType.ofName? name = none
  entity : d.declarations.entity? name = none
  entityClass : d.declarations.class? name = none
  allows : d.declarations.classAllows className type
  declarations : d'.declarations = d.declarations.addEntity ⟨name, type, className, line⟩
  awaited : d'.awaited = d.awaited.filter (·.name != name)
  operations : d.Settled name type className plural line d'.operations

/-- **Declaring an entity appends its definition or fills in the one that is there.** -/
theorem Placed.declareEntity {index : Nat} (hd : d.Placed)
    (h : d.declareEntity name type className plural line = (.ok index, d')) :
    d'.Placed ∧ d.DeclaresEntity name type className plural line d' := by
  unfold Draft.declareEntity at h
  split at h
  · exact absurd (congrArg Prod.fst h) nofun
  rename_i hcheck
  obtain ⟨hreserved, hentity, hclass, hallows⟩ := checkEntity_ok_iff.mp hcheck
  dsimp only at h
  split at h
  · rename_i use huse
    obtain ⟨hmem, hname⟩ := eq_of_awaited? huse
    split at h
    · exact absurd (congrArg Prod.fst h) nofun
    rename_i htype
    obtain rfl : use.type = type := not_not.mp htype
    obtain ⟨-, rfl⟩ := Prod.mk.inj h
    obtain ⟨hroot, first, hop⟩ := hd.placeholder use hmem
    obtain ⟨before, after, hbefore, hafter⟩ :=
      operations_fillIn className plural hd.wf hroot hop
    rw [hname] at hbefore hafter
    refine ⟨⟨wf_fillIn hd.wf hroot, ?_, ?_⟩, hreserved, hentity, hclass, hallows, rfl, rfl, ?_⟩
    · intro other hother
      obtain ⟨hother, hne⟩ := List.mem_filter.mp hother
      obtain ⟨hindex, line', hop'⟩ := hd.placeholder other hother
      refine ⟨root_fillIn hd.wf hroot ▸ hindex, line', ?_⟩
      -- another name is defined at another place
      have hplace : other.definition ≠ use.definition := by
        intro heq
        rw [heq, hop] at hop'
        have hnames := congrArg (Operation.argument · 0) (Option.some.inj hop')
        exact absurd ((show use.name = other.name from hnames).symm.trans hname) (by simpa using hne)
      show (fillIn d.program use className plural).operation? other.definition = _
      rw [operation?_fillIn hd.wf hroot hindex, hop']
      simp [hplace]
    · exact hd.distinct.sublist (List.filter_sublist.map _)
    · show Settled d name use.type className plural line
        (fillIn d.program use className plural).operations
      rw [hafter]
      exact .filled hmem hname rfl hbefore
  · rename_i hnone
    obtain ⟨-, rfl⟩ := Prod.mk.inj h
    have hnone := awaited?_eq_none_iff.mp hnone
    refine ⟨(hd.write _).withDeclarations _, hreserved, hentity, hclass, hallows, rfl, ?_, ?_⟩
    · refine (List.filter_eq_self.mpr ?_).symm
      intro use huse
      simpa using hnone use huse
    · show Settled d name type className plural line
        (d.write (.defineEntity name type className plural line)).operations
      rw [hd.operations_write]
      exact .new hnone

/-! ### Using an entity -/

/-- One more use of what is awaited under a name. -/
def usedOn (name : String) (line : Nat) (use : Awaited) : Awaited :=
  if use.name = name then { use with lines := use.lines ++ [line] } else use

@[simp] theorem usedOn_name (use : Awaited) : (usedOn name line use).name = use.name := by
  unfold usedOn
  split <;> rfl

@[simp] theorem usedOn_type (use : Awaited) : (usedOn name line use).type = use.type := by
  unfold usedOn
  split <;> rfl

@[simp] theorem usedOn_definition (use : Awaited) :
    (usedOn name line use).definition = use.definition := by
  unfold usedOn
  split <;> rfl

/-- What using an entity does. -/
inductive UsesEntity (d : Draft) (name : String) (type : EntityType) (line : Nat) : Draft → Prop
  | declared {e : DeclaredEntity} (hentity : d.declarations.entity? name = some e)
    (htype : e.type.isA type = true) : UsesEntity d name type line d
  | again {use : Awaited} (hentity : d.declarations.entity? name = none)
    (huse : use ∈ d.awaited) (hname : use.name = name) (htype : use.type = type) :
    UsesEntity d name type line { d with awaited := d.awaited.map (usedOn name line) }
  | first (hentity : d.declarations.entity? name = none)
    (hclass : d.declarations.class? name = none) (hnone : ∀ use ∈ d.awaited, use.name ≠ name) :
    UsesEntity d name type line
      { d.write (.defineEntity name type type.name none line) with
        awaited := d.awaited ++ [⟨name, type,
          d.program.indexAfter (.defineEntity name type type.name none line), [line]⟩] }

/-- Using an entity declares nothing. -/
theorem UsesEntity.declarations (h : d.UsesEntity name type line d') :
    d'.declarations = d.declarations := by
  cases h <;> rfl

theorem usesEntity_of_ok (h : d.referenceEntity name type line = .ok d') :
    d.UsesEntity name type line d' := by
  unfold Draft.referenceEntity at h
  split at h
  · rename_i e hentity
    split at h
    · rename_i htype
      exact Except.ok.inj h ▸ .declared hentity htype
    · exact absurd h nofun
  rename_i hentity
  split at h
  · exact absurd h nofun
  rename_i hclass
  split at h
  · rename_i use huse
    obtain ⟨hmem, hname⟩ := eq_of_awaited? huse
    split at h
    · rename_i htype
      exact Except.ok.inj h ▸ .again hentity hmem hname htype
    · exact absurd h nofun
  · rename_i hnone
    exact Except.ok.inj h ▸
      .first hentity (by simpa using hclass) (awaited?_eq_none_iff.mp hnone)

/-- **Using an entity keeps every placeholder in its place.** -/
theorem Placed.usesEntity (hd : d.Placed) (h : d.UsesEntity name type line d') : d'.Placed := by
  cases h with
  | declared => exact hd
  | again =>
    refine ⟨hd.wf, ?_, ?_⟩
    · intro use huse
      obtain ⟨old, hold, rfl⟩ := List.mem_map.mp huse
      simpa using hd.placeholder old hold
    · have hnames : Awaited.name ∘ usedOn name line = Awaited.name := funext usedOn_name
      show ((d.awaited.map (usedOn name line)).map Awaited.name).Nodup
      rw [List.map_map, hnames]
      exact hd.distinct
  | first hentity hclass hnone =>
    have hwrite := hd.write (.defineEntity name type type.name none line)
    refine ⟨hwrite.wf, ?_, ?_⟩
    · intro use huse
      rcases List.mem_append.mp huse with huse | huse
      · exact hwrite.placeholder use huse
      · obtain rfl := List.mem_singleton.mp huse
        exact ⟨List.mem_append_right _ (List.mem_singleton_self _), line,
          Program.operation?_push _ _⟩
    · show ((d.awaited ++ [_]).map Awaited.name).Nodup
      rw [List.map_append, List.nodup_append]
      refine ⟨hd.distinct, List.nodup_singleton _, ?_⟩
      intro other hother _ hlast
      obtain ⟨use, huse, rfl⟩ := List.mem_map.mp hother
      rw [List.mem_singleton.mp hlast]
      exact hnone use huse

end Draft

end Adventure
