/-
What comes of running the draft of a story.

The classes are made first and look like their kinds; no two kinds have one name, so every
class looks like the kind of every role that has it.  Each entity is then a copy of its
class, or new if it has none, and is told what there is to say of it alone.  The links come
last and change one entity each.  As the entities have different names, no entity changes
by what is said of another.  So in the end the gallery shows one likeness for each thing,
in order, and the likeness can be read off the thing.
-/
import Adventure.Proofs.Prose.Writing

namespace Adventure

namespace Prose

/-! ### How things look -/

namespace Kind

/-- The tags that its class gives to the entities of a kind: the kind and those above it. -/
def classTags (k : Kind) : List String :=
  if k.hasOwnClass then k.lineage.map (·.name) else []

/-- How a new entity of a kind looks. -/
def newcomer (k : Kind) (name : String) : Portrait :=
  let fresh := Portrait.fresh name k.entityType
  { fresh with tags := k.classTags.foldl (·.insert ·) fresh.tags }

theorem newcomer_of_type {k : Kind} (h : k.hasOwnClass = false) (name : String) :
    k.newcomer name = .fresh name k.entityType := by
  simp [newcomer, classTags, h]

end Kind

/-- The tags after a property was asserted or denied. -/
def Assertion.mark (tags : NameSet) (a : Assertion) : NameSet :=
  if a.negated then tags.erase a.property.name else tags.insert a.property.name

namespace Role

/-- How the entity of a role looks when everything was said. -/
def likeness (nameOf : String → String) (role : Role) : Portrait where
  name := role.name
  type := role.kind.entityType
  title := some role.record.name
  longDescription := role.record.description
  tags := role.record.assertions.foldl Assertion.mark (role.kind.newcomer role.name).tags
  location := role.record.placement.map fun p => nameOf p.target
  exits := .ofPairs (role.record.exits.map fun x => (x.direction, nameOf x.destination))

theorem giveAll_assertions (assertions : List Assertion) (p : Portrait) :
    Trait.giveAll (assertions.map fun a => (.tagged a.property.name !a.negated, a.line)) p =
      { p with tags := assertions.foldl Assertion.mark p.tags } := by
  induction assertions generalizing p with
  | nil => rfl
  | cons a rest ih =>
    rw [List.map_cons, Trait.giveAll, List.foldl_cons]
    refine (ih _).trans ?_
    rw [List.foldl_cons, Assertion.mark]
    cases a.negated with
    | true => rfl
    | false => rfl

theorem giveAll_exits (nameOf : String → String) (exits : List Exit) (p : Portrait) :
    Trait.giveAll (exits.map fun x => (.leading x.direction (nameOf x.destination), x.line)) p =
      { p with
        exits := (exits.map fun x => (x.direction, nameOf x.destination)).foldl
          (fun exits (direction, room) => exits.insert direction room) p.exits } := by
  induction exits generalizing p with
  | nil => rfl
  | cons x rest ih => exact ih _

/-- **A newcomer of whom all was said has the likeness of the role.** -/
theorem giveAll_newcomer (nameOf : String → String) (role : Role) :
    Trait.giveAll (role.links nameOf) (Trait.giveAll role.traits (role.kind.newcomer role.name)) =
      role.likeness nameOf := by
  rw [traits, links, Trait.giveAll_append, Trait.giveAll_append, Trait.giveAll_append,
    giveAll_assertions, giveAll_exits, likeness]
  cases role.record.description <;> cases role.record.placement <;> rfl

theorem directed_traits {v : Vocabulary} (role : Role) : ∀ t ∈ role.traits, t.1.Directed v := by
  intro t ht
  simp only [traits, List.mem_append, List.mem_singleton, Option.mem_toList,
    Option.map_eq_some_iff, List.mem_map] at ht
  rcases ht with (rfl | ⟨_, -, rfl⟩) | ⟨_, -, rfl⟩ <;> trivial

/-- The exits of a sound thing go in directions that there are. -/
theorem directed_links {v : Vocabulary} {role : Role} (hv : v.LeadsBack) (h : role.record.Sound v)
    (nameOf : String → String) : ∀ t ∈ role.links nameOf, t.1.Directed v := by
  intro t ht
  simp only [links, List.mem_append, Option.mem_toList, Option.map_eq_some_iff,
    List.mem_map] at ht
  rcases ht with ⟨_, -, rfl⟩ | ⟨x, hx, rfl⟩
  · trivial
  · exact h.directions hv x hx

/-- A copy of the class of a role, or a new entity if the class is none, looks like a newcomer
of its kind. -/
def LooksLikeClass (w : World) (role : Role) : Prop :=
  ((w.classPortrait? role.kind.className).getD (.fresh role.name role.kind.entityType)).copyAs
    role.name = role.kind.newcomer role.name

end Role

/-! ### Classes and kinds -/

theorem Kind.className_of_hasOwnClass {k : Kind} (h : k.hasOwnClass = true) :
    k.className = k.name := by
  unfold hasOwnClass at h
  rw [className] at h ⊢
  split at h
  · rw [EntityType.ofName?_name] at h
    cases h
  · next hname => rw [if_neg hname]

/-- **The classes that were written look like the kinds of all roles**, because a kind is
known by its name. -/
theorem looksLikeClass_of_written {v : Vocabulary} {s : Story} (hs : s.Sound v) {w : World}
    {written : List Role} (hsubset : written ⊆ s.records.map s.role)
    (hown : ∀ role ∈ written, role.kind.hasOwnClass = true)
    (hfound : ∀ role ∈ s.records.map s.role, role.kind.hasOwnClass = true →
      ∃ other ∈ written, other.kind.className = role.kind.className)
    (hclasses : ∀ name, w.classPortrait? name =
      (written.reverse.find? (·.kind.className == name)).map (·.kind.newcomer name)) :
    ∀ role ∈ s.records.map s.role, role.LooksLikeClass w := by
  have hkinds : ∀ role ∈ s.records.map s.role, role.kind ∈ s.lexicon.kinds.kinds := by
    intro role hrole
    obtain ⟨r, hr, rfl⟩ := List.mem_map.mp hrole
    exact Record.settledKind_mem (hs.records r hr) hs.lexicon.kinds (hs.refers r hr).kind
  intro role hrole
  rw [Role.LooksLikeClass, hclasses]
  cases hlast : written.reverse.find? (·.kind.className == role.kind.className) with
  | none =>
    have htype : role.kind.hasOwnClass = false := by
      rw [← Bool.not_eq_true]
      intro hneeds
      obtain ⟨other, hother, hname⟩ := hfound role hrole hneeds
      exact List.find?_eq_none.mp hlast other (List.mem_reverse.mpr hother) (by simpa using hname)
    rw [Kind.newcomer_of_type htype]
    rfl
  | some other =>
    have hother := List.mem_reverse.mp (List.mem_of_find?_eq_some hlast)
    have hname : other.kind.className = role.kind.className := by
      simpa using List.find?_some hlast
    have hneeds : role.kind.hasOwnClass = true := by
      rw [Kind.hasOwnClass, ← hname]
      exact hown other hother
    rw [Kind.className_of_hasOwnClass hneeds,
      Kind.className_of_hasOwnClass (hown other hother)] at hname
    have hkind : other.kind = role.kind :=
      hs.lexicon.kinds.eq_of_name (hkinds other (hsubset hother)) (hkinds role hrole) hname
    rw [Option.map_some, hkind]
    rfl

/-! ### Runs -/

section Runs

open Execution (execute step_of_execute gallery_defined classPortrait?_defined repaints_traits)

variable {env : Surroundings} {v : Vocabulary} {x x' : Execution World}

/-- What is said about the game does not show. -/
theorem gallery_about (hx : x.Sound) {key : String} {value : Option String}
    (h : (value.map fun text => Operation.setMeta .game key text 1).toList.forM
      (execute (World.builder env) v) x = .ok () x') :
    x'.Sound ∧ x'.state.gallery = x.state.gallery ∧ x'.state.classes = x.state.classes := by
  cases value with
  | none =>
    obtain rfl := (EStateM.Result.ok.inj h).2
    exact ⟨hx, rfl, rfl⟩
  | some text =>
    obtain ⟨_, y, hset, hdone⟩ := run_bind_ok_iff.mp h
    obtain rfl := (EStateM.Result.ok.inj hdone).2
    obtain ⟨hy, value, action, -, haction, hok, -⟩ := step_of_execute hx hset
    obtain rfl := Option.some.inj haction
    rw [← (EStateM.Result.ok.inj hok).2]
    exact ⟨hy, rfl, rfl⟩

theorem gallery_credits (hx : x.Sound) {s : Story}
    (h : s.credits.forM (execute (World.builder env) v) x = .ok () x') :
    x'.Sound ∧ x'.state.gallery = x.state.gallery ∧ x'.state.classes = x.state.classes := by
  obtain ⟨y, htitle, hauthor⟩ := run_forM_append_ok_iff.mp h
  obtain ⟨hy, hgallery, hclasses⟩ := gallery_about hx htitle
  obtain ⟨hx', hgallery', hclasses'⟩ := gallery_about hy hauthor
  exact ⟨hx', hgallery'.trans hgallery, hclasses'.trans hclasses⟩

/-- **The classes that were written look like their kinds**, the last of each name. -/
theorem classPortrait?_written (hx : x.Sound) {written : List Role}
    (hown : ∀ role ∈ written, role.kind.hasOwnClass = true)
    (h : (written.flatMap (·.classOperations)).forM (execute (World.builder env) v) x =
      .ok () x') :
    x'.Sound ∧ x'.state.gallery = x.state.gallery ∧ ∀ name, x'.state.classPortrait? name =
      ((written.reverse.find? (·.kind.className == name)).map (·.kind.newcomer name)).or
        (x.state.classPortrait? name) := by
  induction written generalizing x with
  | nil =>
    obtain rfl := (EStateM.Result.ok.inj h).2
    exact ⟨hx, rfl, fun _ => rfl⟩
  | cons role rest ih =>
    rw [List.flatMap_cons] at h
    obtain ⟨y, hfirst, hrest⟩ := run_forM_append_ok_iff.mp h
    obtain ⟨hy, hgallery, hclasses⟩ := classPortrait?_defined hx hfirst
    obtain ⟨hx', hgallery', hclasses'⟩ :=
      ih hy (fun other hother => hown other (List.mem_cons_of_mem _ hother)) hrest
    refine ⟨hx', hgallery'.trans hgallery, ?_⟩
    intro name
    rw [hclasses', hclasses, Trait.foldl_give_tagged, List.reverse_cons, List.find?_append]
    cases rest.reverse.find? (·.kind.className == name) with
    | some other => rfl
    | none =>
      by_cases hname : role.kind.className = name
      · subst hname
        simp [Kind.newcomer, Kind.classTags, hown role (List.mem_cons_self ..)]
      · simp [hname]

/-- **Every entity that is written is added to the gallery**, if the classes look like the
kinds of those that have them. -/
theorem gallery_written (henv : env.setters = .standard) (hx : x.Sound) {roles : List Role}
    (hclasses : ∀ role ∈ roles, role.LooksLikeClass x.state)
    (h : (roles.flatMap (·.entityOperations)).forM (execute (World.builder env) v) x =
      .ok () x') :
    x'.Sound ∧ x'.state.gallery = x.state.gallery ++
      roles.map fun role => Trait.giveAll role.traits (role.kind.newcomer role.name) := by
  induction roles generalizing x with
  | nil =>
    obtain rfl := (EStateM.Result.ok.inj h).2
    exact ⟨hx, (List.append_nil _).symm⟩
  | cons role rest ih =>
    rw [List.flatMap_cons] at h
    obtain ⟨y, hfirst, hrest⟩ := run_forM_append_ok_iff.mp h
    obtain ⟨hy, hkept, hgallery⟩ := gallery_defined henv hx role.directed_traits hfirst
    have hclasses' : ∀ other ∈ rest, other.LooksLikeClass y.state := by
      intro other hother
      have hlooks := hclasses other (List.mem_cons_of_mem _ hother)
      rwa [Role.LooksLikeClass, World.classPortrait?, World.class?, hkept]
    obtain ⟨hx', hgallery'⟩ := ih hy hclasses' hrest
    refine ⟨hx', ?_⟩
    rw [hgallery', hgallery, hclasses role (List.mem_cons_self ..), List.map_cons,
      List.append_assoc]
    rfl

/-- **Every link changes the likeness of its own entity**, because no two have one name. -/
theorem gallery_linked (henv : env.setters = .standard) (hx : x.Sound) {roles : List Role}
    {nameOf : String → String} {before : List Portrait} {look : Role → Portrait}
    (hlook : ∀ role, (look role).name = role.name)
    (hgallery : x.state.gallery = before ++ roles.map look)
    (hdirected : ∀ role ∈ roles, ∀ t ∈ role.links nameOf, t.1.Directed v)
    (h : (roles.flatMap (·.linkOperations nameOf)).forM (execute (World.builder env) v) x =
      .ok () x') :
    x'.state.gallery =
      before ++ roles.map fun role => Trait.giveAll (role.links nameOf) (look role) := by
  induction roles generalizing x before with
  | nil =>
    obtain rfl := (EStateM.Result.ok.inj h).2
    exact hgallery
  | cons role rest ih =>
    rw [List.flatMap_cons] at h
    obtain ⟨y, hfirst, hrest⟩ := run_forM_append_ok_iff.mp h
    obtain ⟨hy, hgiven⟩ :=
      repaints_traits henv hx (hdirected role (List.mem_cons_self ..)) hfirst
    -- those before and after have other names
    have hnodup := hx.names_nodup
    rw [hgallery, List.map_append, List.map_cons, List.map_cons, List.nodup_append,
      List.nodup_cons, hlook] at hnodup
    obtain ⟨-, ⟨hrestNames, -⟩, hbeforeNames⟩ := hnodup
    have hbefore : ∀ p ∈ before, Portrait.atName role.name
        (Trait.giveAll (role.links nameOf)) p = p := by
      intro p hp
      exact Portrait.atName_of_ne
        (hbeforeNames _ (List.mem_map_of_mem hp) _ (List.mem_cons_self ..))
    have hafter : ∀ p ∈ rest.map look, Portrait.atName role.name
        (Trait.giveAll (role.links nameOf)) p = p := by
      intro p hp
      refine Portrait.atName_of_ne ?_
      intro hname
      exact hrestNames (List.mem_map.mpr ⟨p, hp, hname⟩)
    have hgallery' : y.state.gallery =
        (before ++ [Trait.giveAll (role.links nameOf) (look role)]) ++ rest.map look := by
      rw [hgiven.gallery, hgallery, List.map_append, List.map_cons, List.map_cons,
        List.map_congr_left hbefore, List.map_congr_left hafter,
        Portrait.atName_of_name (hlook role), List.map_id', List.map_id', List.append_assoc]
      rfl
    rw [ih hy hgallery' (fun other hother => hdirected other (List.mem_cons_of_mem _ hother)) hrest,
      List.map_cons, List.append_assoc]
    rfl

/-- **A run of the draft of a story shows the likeness of each thing**, in order. -/
theorem gallery_of_draft (hv : v.LeadsBack) (henv : env.setters = .standard) {s : Story}
    (hs : s.Sound v) {d : Draft} (hd : s.draft = .ok d)
    (h : d.operations.forM (execute (World.builder env) v) .emptyWorld = .ok () x) :
    x.state.gallery = s.records.map fun r => (s.role r).likeness s.nameOf := by
  obtain ⟨written, hsubset, hown, hfound, hoperations⟩ := Story.operations_of_draft hs hd
  rw [hoperations] at h
  simp only [run_forM_append_ok_iff] at h
  obtain ⟨x₃, ⟨x₂, ⟨x₁, hcredits, hclasses⟩, hentities⟩, hlinks⟩ := h
  obtain ⟨h₁, hgallery₁, hclasses₁⟩ := gallery_credits Execution.sound_emptyWorld hcredits
  obtain ⟨h₂, hgallery₂, hclasses₂⟩ := classPortrait?_written h₁ hown hclasses
  have hlooks : ∀ role ∈ s.records.map s.role, role.LooksLikeClass x₂.state := by
    refine looksLikeClass_of_written hs hsubset hown hfound ?_
    intro name
    have hnone : x₁.state.classPortrait? name = none := by
      rw [World.classPortrait?, World.class?, hclasses₁]
      simp [Execution.emptyWorld, Execution.start, World.empty]
    rw [hclasses₂, hnone, Option.or_none]
  obtain ⟨h₃, hgallery₃⟩ := gallery_written henv h₂ hlooks hentities
  have hempty : x₂.state.gallery = [] := hgallery₂.trans hgallery₁
  rw [hempty] at hgallery₃
  have hdirected : ∀ role ∈ s.records.map s.role, ∀ t ∈ role.links s.nameOf, t.1.Directed v := by
    intro role hrole
    obtain ⟨r, hr, rfl⟩ := List.mem_map.mp hrole
    exact Role.directed_links hv (hs.records r hr) s.nameOf
  rw [gallery_linked henv h₃ (fun role => Trait.name_giveAll role.traits _) hgallery₃ hdirected
    hlinks, List.nil_append, List.map_map]
  refine List.map_congr_left ?_
  intro r _
  exact (s.role r).giveAll_newcomer s.nameOf

end Runs

end Prose

end Adventure
