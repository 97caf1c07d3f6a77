/-
What the draft of a story says, operation by operation.

The title and the author come first, then the classes that are needed, then every entity
with what there is to say of it alone, and last what links one entity to another.  The
names are settled before anything is written: the first room is the room where players
begin, and every other thing is named by its key.  Each step appends its own operations to
what was written before, so the draft as a whole is what the steps write, one after the
other.  Of the classes only this much is said: none but those of roles are written, and
every role that needs a class finds one of its name.
-/
import Adventure.Proofs.Drafts
import Adventure.Proofs.Prose.Stories
import Adventure.Proofs.Traits

namespace Adventure

namespace Prose

/-! ### Names -/

namespace Story

/-- The first thing that is settled on a kind of room. -/
def firstRoom? (s : Story) : Option Record :=
  s.records.find? (·.settledKind.isA .room)

/-- The name of the entity of the thing of a key: the first room is the room where players
begin, everything else keeps its key. -/
def nameOf (s : Story) (key : String) : String :=
  if s.firstRoom?.any (·.key == key) then startRoom else key

/-- What a thing is cast as. -/
def role (s : Story) (r : Record) : Role :=
  ⟨r, r.settledKind, s.nameOf r.key⟩

end Story

/-- Who is cast, as long as no two things go by one key. -/
theorem castFrom_ok {rs : List Record} {started : Bool} {roles : List Role}
    (hkeys : (rs.map (·.key)).Nodup) (h : castFrom started rs = .ok roles) :
    roles = rs.map fun r => ⟨r, r.settledKind,
      if !started && (rs.find? (·.settledKind.isA .room)).any (·.key == r.key) then startRoom
      else r.key⟩ := by
  induction rs generalizing started roles with
  | nil => exact pure_ok_iff.mp h
  | cons r rs ih =>
    obtain ⟨hfresh, hrest⟩ := List.nodup_cons.mp hkeys
    have hne : ∀ x ∈ rs, x.key ≠ r.key := by
      intro x hx heq
      exact hfresh (List.mem_map.mpr ⟨x, hx, heq⟩)
    rw [castFrom] at h
    simp only [throw_bind, guard_ok_iff, bind_ok_iff, pure_ok_iff] at h
    obtain ⟨-, others, hothers, rfl⟩ := h
    rw [ih hrest hothers, List.map_cons, List.find?_cons]
    cases started with
    | true => simp
    | false =>
      cases hroom : r.settledKind.isA .room with
      | true =>
        -- this is the first room, and none of the others has its key
        refine List.cons_eq_cons.mpr ⟨by simp, List.map_congr_left ?_⟩
        intro x hx
        simp [(hne x hx).symm]
      | false =>
        refine List.cons_eq_cons.mpr ⟨?_, by simp⟩
        cases hfirst : rs.find? (·.settledKind.isA .room) with
        | none => simp
        | some x => simp [hne x (List.mem_of_find?_eq_some hfirst)]

theorem cast_ok {s : Story} {roles : List Role} (hkeys : (s.records.map (·.key)).Nodup)
    (h : s.cast = .ok roles) : roles = s.records.map s.role := by
  rw [castFrom_ok hkeys h]
  rfl

/-- Whatever the story knows under a key has a role, of the name that the key stands for. -/
theorem exists_role {s : Story} {key : String} (h : (s.record? key).isSome) :
    ∃ role : Role, (s.records.map s.role).find? (·.record.key == key) = some role ∧
      role.name = s.nameOf key := by
  obtain ⟨r, hr⟩ := Option.isSome_iff_exists.mp h
  refine ⟨s.role r, ?_, ?_⟩
  · rw [List.find?_map]
    exact Option.map_eq_some_iff.mpr ⟨r, hr, rfl⟩
  · rw [Story.role, Story.key_of_record? hr]

/-! ### What is written of a role -/

/-- A kind has a class of its own if its class is no type. -/
def Kind.hasOwnClass (k : Kind) : Bool :=
  (EntityType.ofName? k.className).isNone

namespace Role

/-- The class of a role. -/
def classOperations (role : Role) : List Operation :=
  .defineEntityClass role.kind.className role.kind.entityType role.record.line ::
    (role.kind.lineage.map (·.name)).map fun tag =>
      .setTag (.entityClass role.kind.className) tag role.record.line

/-- What there is to say of the entity of a role itself. -/
def traits (role : Role) : List (Trait × Nat) :=
  let r := role.record
  [(.titled r.name, r.line)] ++ (r.description.map fun text => (.described text, r.line)).toList ++
    r.assertions.map fun a => (.tagged a.property.name !a.negated, a.line)

/-- The entity of a role, with what there is to say of it itself. -/
def entityOperations (role : Role) : List Operation :=
  .defineEntity role.name role.kind.entityType role.kind.className none role.record.line ::
    role.traits.map fun t => t.1.operation role.name t.2

/-- Where the entity of a role is and where its exits lead, in names. -/
def links (nameOf : String → String) (role : Role) : List (Trait × Nat) :=
  (role.record.placement.map fun p => (.placed (nameOf p.target), p.line)).toList ++
    role.record.exits.map fun x => (.leading x.direction (nameOf x.destination), x.line)

def linkOperations (nameOf : String → String) (role : Role) : List Operation :=
  (role.links nameOf).map fun t => t.1.operation role.name t.2

theorem details_eq (role : Role) :
    role.details = role.traits.map fun t => t.1.operation role.name t.2 := by
  have hassertions : ∀ a : Assertion,
      (if a.negated then Operation.removeTag (.entity role.name) a.property.name a.line
        else .setTag (.entity role.name) a.property.name a.line) =
      (Trait.tagged a.property.name !a.negated).operation role.name a.line := by
    intro a
    cases a.negated with
    | true => rfl
    | false => rfl
  simp only [details, traits, hassertions]
  cases role.record.description with
  | none => simp [Trait.operation]
  | some text => simp [Trait.operation]

end Role

variable {d d' : Draft} {ops : List Operation} {role : Role}

/-- The class of a role is written, or it is not needed. -/
theorem writeClass_ok (hd : d.Says ops) (h : Role.writeClass d role = .ok d') :
    (d' = d ∧ (role.kind.hasOwnClass = true →
      (d.declarations.class? role.kind.className).isSome)) ∨
    (role.kind.hasOwnClass = true ∧ d'.Says (ops ++ role.classOperations) ∧
      ∀ name, (d'.declarations.class? name).isSome →
        role.kind.className = name ∨ (d.declarations.class? name).isSome) := by
  unfold Role.writeClass at h
  dsimp only at h
  split at h
  · next hneedless =>
    refine .inl ⟨pure_ok_iff.mp h, ?_⟩
    intro hown
    rw [Bool.or_eq_true] at hneedless
    rcases hneedless with htype | hdeclared
    · simp [Option.isNone_iff_eq_none.mp hown] at htype
    · exact hdeclared
  · next hneeded =>
    obtain ⟨d₁, hdeclare, h⟩ := bind_ok_iff.mp h
    rw [Bool.or_eq_true, not_or] at hneeded
    refine .inr ⟨by simpa [Kind.hasOwnClass] using hneeded.1, ?_, ?_⟩
    · rw [pure_ok_iff.mp h, Role.classOperations, List.map_map]
      exact (hd.declareClass hdeclare).foldl_write _
    · rw [pure_ok_iff.mp h, Draft.declarations_foldl_write]
      obtain ⟨rfl, -⟩ := Draft.declareClass_ok hdeclare
      intro name hname
      rw [Declarations.class?_addClass] at hname
      split at hname
      · next heq => exact .inl heq
      · exact .inr hname

/-- **The classes that are written are those of some roles**, and every role that needs a
class finds one of its name. -/
theorem writeClasses_ok {roles : List Role} (written : List Role)
    (hd : d.Says (ops ++ written.flatMap (·.classOperations)))
    (hdeclared : ∀ name, (d.declarations.class? name).isSome →
      ∃ role ∈ written, role.kind.className = name)
    (h : roles.foldlM Role.writeClass d = .ok d') :
    ∃ more ⊆ roles, d'.Says (ops ++ (written ++ more).flatMap (·.classOperations)) ∧
      (∀ role ∈ more, role.kind.hasOwnClass = true) ∧
      ∀ role ∈ roles, role.kind.hasOwnClass = true →
        ∃ other ∈ written ++ more, other.kind.className = role.kind.className := by
  induction roles generalizing d written with
  | nil =>
    rw [List.foldlM_nil] at h
    refine ⟨[], List.Subset.refl _, ?_, nofun, nofun⟩
    rwa [pure_ok_iff.mp h, List.append_nil]
  | cons role rest ih =>
    rw [List.foldlM_cons] at h
    obtain ⟨d₁, hfirst, hrest⟩ := bind_ok_iff.mp h
    rcases writeClass_ok hd hfirst with ⟨rfl, hneedless⟩ | ⟨hown, hd₁, hdeclared₁⟩
    · obtain ⟨more, hmore, hsays, hown, hfound⟩ := ih written hd hdeclared hrest
      refine ⟨more, List.Subset.trans hmore (List.subset_cons_self ..), hsays, hown, ?_⟩
      intro other hother hneeds
      rcases List.mem_cons.mp hother with rfl | hother
      · obtain ⟨first, hfirst, hname⟩ := hdeclared _ (hneedless hneeds)
        exact ⟨first, List.mem_append_left _ hfirst, hname⟩
      · exact hfound other hother hneeds
    · have hd₁ : d₁.Says (ops ++ (written ++ [role]).flatMap (·.classOperations)) := by
        rw [List.flatMap_append, List.flatMap_singleton, ← List.append_assoc]
        exact hd₁
      have hdeclared₁ : ∀ name, (d₁.declarations.class? name).isSome →
          ∃ other ∈ written ++ [role], other.kind.className = name := by
        intro name hname
        rcases hdeclared₁ name hname with heq | hname
        · exact ⟨role, by simp, heq⟩
        · obtain ⟨other, hother, heq⟩ := hdeclared name hname
          exact ⟨other, List.mem_append_left _ hother, heq⟩
      obtain ⟨more, hmore, hsays, hmoreOwn, hfound⟩ := ih _ hd₁ hdeclared₁ hrest
      rw [List.append_assoc] at hsays
      refine ⟨role :: more, List.cons_subset_cons role hmore, hsays,
        List.forall_mem_cons.mpr ⟨hown, hmoreOwn⟩, ?_⟩
      rw [List.append_assoc] at hfound
      intro other hother hneeds
      rcases List.mem_cons.mp hother with rfl | hother
      · exact ⟨other, by simp, rfl⟩
      · exact hfound other hother hneeds

theorem writeEntity_ok (hd : d.Says ops) (h : Role.writeEntity d role = .ok d') :
    d'.Says (ops ++ role.entityOperations) := by
  unfold Role.writeEntity at h
  cases hdeclare : d.declareEntity role.name role.kind.entityType role.kind.className none
      role.record.line with
  | mk declared d₁ =>
    rw [hdeclare] at h
    cases declared with
    | error e => exact absurd h nofun
    | ok index =>
      rw [Role.entityOperations, List.append_cons, ← Role.details_eq]
      rw [pure_ok_iff.mp h]
      exact (hd.declareEntity hdeclare).foldl_write _

/-- The exits of a room, if the story knows where they lead. -/
theorem says_exits {s : Story} {exits : List Exit}
    (hexits : ∀ x ∈ exits, (s.record? x.destination).isSome) (hd : d.Says ops) (name : String) :
    Draft.Says (exits.foldl (fun d x =>
      match (s.records.map s.role).find? (·.record.key == x.destination) with
      | none => d
      | some room => d.write (.connectRooms (.entity name) x.direction room.name x.line)) d)
      (ops ++ exits.map fun x =>
        .connectRooms (.entity name) x.direction (s.nameOf x.destination) x.line) := by
  induction exits generalizing d ops with
  | nil => rwa [List.map_nil, List.append_nil]
  | cons x rest ih =>
    obtain ⟨room, hroom, hname⟩ := exists_role (hexits x (List.mem_cons_self ..))
    rw [List.foldl_cons, hroom, List.map_cons, List.append_cons, ← hname]
    exact ih (fun y hy => hexits y (List.mem_cons_of_mem _ hy)) (hd.write _)

/-- What links the entity of a thing to others, if the story knows them. -/
theorem writeLinks_ok {s : Story} {r : Record} (hr : s.Refers r) (hd : d.Says ops)
    (h : Role.writeLinks (s.records.map s.role) d (s.role r) = .ok d') :
    d'.Says (ops ++ (s.role r).linkOperations s.nameOf) := by
  have hlinks : (s.role r).linkOperations s.nameOf =
      (r.placement.map fun p =>
        Operation.insertIntoPlace (s.role r).name (s.nameOf p.target) p.line).toList ++
      r.exits.map fun x =>
        .connectRooms (.entity (s.role r).name) x.direction (s.nameOf x.destination) x.line := by
    rw [Role.linkOperations, Role.links, List.map_append, List.map_map]
    refine congrArg₂ (· ++ ·) ?_ rfl
    show (r.placement.map _).toList.map _ = _
    cases r.placement with
    | none => rfl
    | some p => rfl
  have hexits : ∀ x ∈ r.exits, (s.record? x.destination).isSome := by
    intro x hx
    obtain ⟨room, hroom, -⟩ := hr.exits x hx
    rw [hroom]
    rfl
  rw [hlinks, ← List.append_assoc]
  unfold Role.writeLinks at h
  dsimp only at h
  cases hplacement : r.placement with
  | none =>
    rw [show (s.role r).record.placement = none from hplacement] at h
    rw [pure_ok_iff.mp h, Option.map_none, Option.toList_none, List.append_nil]
    exact says_exits hexits hd _
  | some p =>
    obtain ⟨target, htarget, hname⟩ := exists_role (hr.placement p hplacement)
    rw [show (s.role r).record.placement = some p from hplacement] at h
    dsimp only at h
    rw [htarget] at h
    obtain ⟨_, -, h⟩ := bind_ok_iff.mp h
    rw [pure_ok_iff.mp h, Option.map_some, Option.toList_some, ← hname]
    exact says_exits hexits (hd.write _) _

/-! ### The draft as a whole -/

namespace Story

/-- The title and the author. -/
def credits (s : Story) : List Operation :=
  let about (key : String) (value : Option String) : List Operation :=
    (value.map fun text => .setMeta .game key text 1).toList
  about "title" s.title ++ about "author" s.author

variable {v : Vocabulary} {s : Story}

/-- **What the draft of a story says**: the credits, the classes that are needed, the entities
one by one, and what links them. -/
theorem operations_of_draft (hs : s.Sound v) (h : s.draft = .ok d) :
    ∃ written ⊆ s.records.map s.role,
      (∀ role ∈ written, role.kind.hasOwnClass = true) ∧
      (∀ role ∈ s.records.map s.role, role.kind.hasOwnClass = true →
        ∃ other ∈ written, other.kind.className = role.kind.className) ∧
      d.operations = s.credits ++ written.flatMap (·.classOperations) ++
        (s.records.map s.role).flatMap (·.entityOperations) ++
        (s.records.map s.role).flatMap (·.linkOperations s.nameOf) := by
  unfold Story.draft at h
  dsimp only at h
  obtain ⟨roles, hcast, h⟩ := bind_ok_iff.mp h
  obtain rfl := cast_ok hs.keys hcast
  obtain ⟨d₁, hclasses, h⟩ := bind_ok_iff.mp h
  obtain ⟨d₂, hentities, h⟩ := bind_ok_iff.mp h
  obtain ⟨d₃, hlinks, h⟩ := bind_ok_iff.mp h
  obtain ⟨_, -, h⟩ := bind_ok_iff.mp h
  obtain rfl := pure_ok_iff.mp h
  have hcredits := Draft.says_empty.foldl_write s.credits
  rw [List.nil_append] at hcredits
  obtain ⟨written, hsubset, hd₁, hown, hfound⟩ := writeClasses_ok []
    (by rwa [List.flatMap_nil, List.append_nil])
    (by
      rw [Draft.declarations_foldl_write]
      exact nofun) hclasses
  have hd₂ := hd₁.foldlM (fun _ _ _ _ _ hd h => writeEntity_ok hd h) hentities
  have hlinked : ∀ role ∈ s.records.map s.role, ∀ d d' ops, d.Says ops →
      Role.writeLinks (s.records.map s.role) d role = .ok d' →
      d'.Says (ops ++ role.linkOperations s.nameOf) := by
    intro role hrole d d' ops hd h
    obtain ⟨r, hr, rfl⟩ := List.mem_map.mp hrole
    exact writeLinks_ok (hs.refers r hr) hd h
  exact ⟨written, hsubset, hown, hfound, (hd₂.foldlM hlinked hlinks).operations⟩

end Story

end Prose

end Adventure
