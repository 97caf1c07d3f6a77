/-
Prose means what it says.

Of a source in prose that compiles, the story and the world are compared as wholes.  There
is one entity for each thing, in the order of first mention, and it shows what was said of
the thing: its name and kind, its description and properties, where it is and where its exits
lead.  What an entity shows was followed through the draft and its run already; here the
likeness is read back, part by part.  A property that is both asserted and denied would make
the tags depend on the order of the sentences, but no sound story has one.
-/
import Adventure.Proofs.Names
import Adventure.Proofs.Prose.Agreement
import Adventure.Proofs.Prose.Enactment
import Adventure.Proofs.Prose.Mentions

namespace Adventure

/-- A new entity of the type has the tag. -/
def EntityType.GivesTag (type : EntityType) (tag : String) : Prop :=
  ∃ e, Entity.fresh? "" type = some e ∧ e.hasTag tag = true

namespace Prose

/-- An entity shows what a story says of a thing.  The first room is named as the room where
players begin, and everything else by its name in lowercase. -/
structure Story.Portrays (s : Story) (r : Record) (e : Entity) : Prop where
  name : e.name = if s.firstRoom? = some r then startRoom else Text.lower r.name
  type : r.settledKind.type? = some e.type
  title : e.title = some r.name
  description : e.longDescription = r.description
  location : e.location = r.placement.map fun p => s.nameOf p.target
  exits : ∀ direction room, e.exits[direction]? = some room ↔
    ∃ x ∈ r.exits, x.direction = direction ∧ s.nameOf x.destination = room
  /-- The tags of its type, of its kind if that is a class, and those that were asserted,
  without those that were denied. -/
  tags : ∀ tag, e.hasTag tag = true ↔
    (e.type.GivesTag tag ∨
      (r.settledKind.hasOwnClass = true ∧ ∃ k ∈ r.settledKind.lineage, k.name = tag) ∨
      ∃ a ∈ r.assertions, a.negated = false ∧ a.property.name = tag) ∧
    ¬∃ a ∈ r.assertions, a.negated = true ∧ a.property.name = tag

/-! ### Tags -/

theorem contains_foldl_insert (names : List String) (tags : NameSet) (tag : String) :
    (names.foldl (·.insert ·) tags).contains tag = true ↔
      tags.contains tag = true ∨ tag ∈ names := by
  induction names generalizing tags with
  | nil => simp
  | cons name rest ih =>
    rw [List.foldl_cons, ih, Std.ExtTreeSet.contains_insert, List.mem_cons, Bool.or_eq_true,
      Std.LawfulEqOrd.compare_beq_iff_eq, eq_comm (a := name)]
    tauto

/-- The last word on a tag counts. -/
theorem contains_mark (tags : NameSet) (a : Assertion) (tag : String) :
    (Assertion.mark tags a).contains tag = true ↔
      if a.property.name = tag then a.negated = false else tags.contains tag = true := by
  rw [Assertion.mark]
  cases a.negated with
  | true => by_cases h : a.property.name = tag <;> simp [h]
  | false => by_cases h : a.property.name = tag <;> simp [h]

/-- **A tag is there if it was there or is asserted, and is not denied.** -/
theorem contains_foldl_mark {assertions : List Assertion}
    (hdecided : ∀ a ∈ assertions, ∀ b ∈ assertions, a.property.name = b.property.name →
      a.negated = b.negated) (tags : NameSet) (tag : String) :
    (assertions.foldl Assertion.mark tags).contains tag = true ↔
      (tags.contains tag = true ∨ ∃ a ∈ assertions, a.negated = false ∧ a.property.name = tag) ∧
        ¬∃ a ∈ assertions, a.negated = true ∧ a.property.name = tag := by
  induction assertions generalizing tags with
  | nil => simp
  | cons a rest ih =>
    have hrest := fun b hb c hc =>
      hdecided b (List.mem_cons_of_mem _ hb) c (List.mem_cons_of_mem _ hc)
    rw [List.foldl_cons, ih hrest, contains_mark, List.exists_mem_cons_iff,
      List.exists_mem_cons_iff]
    by_cases hname : a.property.name = tag
    · -- whatever is said of the tag later agrees with this
      have hagree : ∀ b ∈ rest, b.property.name = tag → b.negated = a.negated := by
        intro b hb hb'
        exact hdecided b (List.mem_cons_of_mem _ hb) a (List.mem_cons_self ..) (hb'.trans hname.symm)
      cases hnegated : a.negated with
      | true =>
        have hnone : ¬∃ b ∈ rest, b.negated = false ∧ b.property.name = tag := by
          rintro ⟨b, hb, hpositive, hb'⟩
          have hsame := hagree b hb hb'
          rw [hpositive, hnegated] at hsame
          cases hsame
        simp [hname, hnone]
      | false => simp [hname]
    · simp [hname]

/-- A new entity has the tags that its type gives. -/
theorem contains_fresh {type : EntityType} (htype : type.isInstantiable = true)
    (name tag : String) :
    (Portrait.fresh name type).tags.contains tag = true ↔ type.GivesTag tag := by
  obtain ⟨e, he, -⟩ := Entity.exists_fresh "" htype
  have htags : (Portrait.fresh name type).tags = e.tags :=
    congrArg Portrait.tags (Entity.portrait_of_fresh he).symm
  rw [htags]
  constructor
  · exact fun h => ⟨e, he, h⟩
  · rintro ⟨e', he', h⟩
    rwa [Option.some.inj (he.symm.trans he')]

theorem contains_newcomer {k : Kind} (hk : k.Fit) (name tag : String) :
    (k.newcomer name).tags.contains tag = true ↔
      k.entityType.GivesTag tag ∨ (k.hasOwnClass = true ∧ ∃ a ∈ k.lineage, a.name = tag) := by
  rw [Kind.newcomer, contains_foldl_insert, contains_fresh hk.isInstantiable, Kind.classTags]
  split
  · next hown => simp [hown]
  · next htype => simp [htype]

/-! ### Likenesses -/

/-- The first room is the only thing with its key. -/
theorem nameOf_key {s : Story} (hkeys : (s.records.map (·.key)).Nodup) {r : Record}
    (hr : r ∈ s.records) :
    s.nameOf r.key = if s.firstRoom? = some r then startRoom else Text.lower r.name := by
  rw [Story.nameOf]
  cases hfirst : s.firstRoom? with
  | none => simp [Record.key]
  | some first =>
    have hsame : first.key = r.key ↔ first = r :=
      ⟨List.inj_on_of_nodup_map hkeys (List.mem_of_find?_eq_some hfirst) hr, congrArg _⟩
    simp only [Option.any_some, beq_iff_eq, hsame, Option.some.injEq]
    rfl

/-- **What has the likeness of a thing portrays it.** -/
theorem portrays_of_likeness {v : Vocabulary} {s : Story} (hs : s.Sound v) {r : Record}
    (hr : r ∈ s.records) {e : Entity} (he : e.portrait = (s.role r).likeness s.nameOf) :
    s.Portrays r e := by
  have hsound := hs.records r hr
  have hfit : r.settledKind.Fit := Record.fit_settledKind hsound
  have htype : e.type = r.settledKind.entityType := congrArg Portrait.type he
  refine ⟨?_, ?_, congrArg Portrait.title he, congrArg Portrait.longDescription he,
    congrArg Portrait.location he, ?_, ?_⟩
  · rw [← nameOf_key hs.keys hr]
    exact congrArg Portrait.name he
  · rw [htype]
    exact hfit.type?_eq
  · intro direction room
    have hexits : e.exits =
        .ofPairs (r.exits.map fun x => (x.direction, s.nameOf x.destination)) :=
      congrArg Portrait.exits he
    have hapart : ((r.exits.map fun x => (x.direction, s.nameOf x.destination)).map
        Prod.fst).Nodup := by
      rw [List.map_map]
      exact hsound.apart
    rw [hexits, NameTable.getElem?_ofPairs hapart, NameTable.lookup_eq_some_iff hapart]
    simp
  · intro tag
    have htags : e.tags = r.assertions.foldl Assertion.mark
        (r.settledKind.newcomer (s.nameOf r.key)).tags := congrArg Portrait.tags he
    have hdecided : ∀ a ∈ r.assertions, ∀ b ∈ r.assertions, a.property.name = b.property.name →
        a.negated = b.negated := by
      intro a ha b hb hname
      exact hsound.decided a ha b hb
        (Property.eq_of_name (hsound.assertions a ha) (hsound.assertions b hb) hname)
    rw [Entity.hasTag, htags, contains_foldl_mark hdecided, contains_newcomer hfit, htype,
      or_assoc]

end Prose

namespace Compilation

variable {files : Files} {config : Config} {source : String} {w : World}

/-- A source that compiles was read, and what was read was run to its end; what happens after
that does not show. -/
theorem run_of_compile {format : SourceFormat}
    (h : compile files format config source = .ok w) :
    ∃ d x, read format config source = .ok d ∧
      d.program.operations.forM
        (Execution.execute (World.builder ⟨config, files, .standard⟩) .english) .emptyWorld =
          .ok () x ∧
      w.entities = x.state.entities := by
  obtain ⟨d, hread, hbuild⟩ := bind_ok_iff.mp (mapError_ok_iff.mp h)
  unfold build at hbuild
  dsimp only at hbuild
  split at hbuild
  · next y hrun =>
    obtain rfl := Except.ok.inj hbuild
    obtain ⟨_, x, hx, hrest⟩ := run_bind_ok_iff.mp hrun
    refine ⟨d, x, hread, hx, ?_⟩
    split at hrest
    · exact absurd hrest nofun
    · obtain rfl := (EStateM.Result.ok.inj hrest).2
      rfl
  · cases hbuild

/-- **Compiling prose is faithful.**  The story that was read from a source that compiles has
the things that the source mentions, in the order of their first mention.  The entities are
one for each of them, in that order, and each shows what the story says of its thing. -/
theorem entities_portray_story (h : compile files .prose config source = .ok w) :
    ∃ s, Prose.Story.ofSource .english config.maxWords source = .ok () s ∧
      s.keys = (Prose.Story.mentionedKeys
        (Prose.Story.factsOf .english config.maxWords source)).eraseDups ∧
      List.Forall₂ s.Portrays s.records w.entities := by
  obtain ⟨d, x, hread, hrun, hentities⟩ := run_of_compile h
  obtain ⟨s, hs⟩ := Prose.exists_story_of_readText hread
  have hsound := Prose.sound_ofSource .english config.maxWords source
  rw [hs] at hsound
  have hdraft : s.draft = .ok d := by
    have hread : Prose.readText .english config.maxWords source = .ok d := hread
    rwa [Prose.readText, hs] at hread
  have hgallery := Prose.gallery_of_draft Vocabulary.english_leadsBack rfl hsound hdraft hrun
  have hlike : List.Forall₂ (fun r e => e.portrait = (s.role r).likeness s.nameOf) s.records
      x.state.entities := by
    rw [World.gallery, ← List.forall₂_eq_eq_eq] at hgallery
    exact (List.forall₂_map_right_iff.mp (List.forall₂_map_left_iff.mp hgallery)).flip
  refine ⟨s, hs, Prose.Story.keys_ofSource hs, ?_⟩
  rw [hentities]
  refine ((List.forall₂_and_left s.records _).mpr ⟨fun r hr => hr, hlike⟩).imp ?_
  rintro r e ⟨hr, he⟩
  exact Prose.portrays_of_likeness hsound hr he

/-- A lamp, and what becomes a room only because the lamp is in it. -/
def lampInHall : String :=
  "A lamp is in the hall."

set_option maxRecDepth 100000 in
/-- The lamp was mentioned first, and the hall is where players begin. -/
theorem lamp_comes_before_hall :
    ∃ w, compile .none .prose .strict lampInHall = .ok w ∧
      w.entities.map (·.name) = ["lamp", startRoom] ∧
      ∃ s, Prose.Story.ofSource .english Config.strict.maxWords lampInHall = .ok () s ∧
        s.keys = (Prose.Story.mentionedKeys
          (Prose.Story.factsOf .english Config.strict.maxWords lampInHall)).eraseDups ∧
        List.Forall₂ s.Portrays s.records w.entities := by
  have hnames : (compile .none .prose .strict lampInHall).toOption.map
      (fun w => w.entities.map (·.name)) = some ["lamp", startRoom] := by
    decide +kernel
  cases hw : compile .none .prose .strict lampInHall with
  | error e =>
    rw [hw] at hnames
    exact absurd hnames nofun
  | ok w =>
    rw [hw] at hnames
    exact ⟨w, rfl, Option.some.inj hnames, entities_portray_story hw⟩

end Compilation

end Adventure
