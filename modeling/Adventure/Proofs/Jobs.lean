/-
What is to happen on its own.

When a program has been carried out, the creatures that wander and the beings that come back to
life get their jobs.  No operation touches the jobs that are there.  So the jobs are those of the
world just as it is if no earlier program has given any; else they are the earlier ones, as
things were then, and those of the world behind them.  A second program can be carried out only
where no start room is required, or was required before: the room can be defined but once.

A run is anything that operations and programs come to, one after another, whatever fails; it
remembers what was there when a program ended.  What carries the induction is that the jobs are
those of these worlds in a row.
-/
import Adventure.Proofs.Beginnings
import Adventure.Proofs.Frames

namespace Adventure

/-! ### The jobs that a world should have -/

namespace Entity

/-- The creature that an entity is, if it lives and wanders. -/
def Wanders (e : Entity) (c : Creature) : Prop :=
  e.creature? = some c ∧ c.being.alive = true ∧ c.wandering.enabled = true

/-- The being that an entity is, if it comes back to life. -/
def Respawns (e : Entity) (b : Being) : Prop :=
  e.being? = some b ∧ b.respawn.enabled = true

end Entity

/-- One job for each of those entities that should have one, in order. -/
inductive Assigned {α β : Type} (Due : Entity → α → Prop) (job : Entity → α → β) :
    List Entity → List β → Prop
  | nil : Assigned Due job [] []
  | due {e : Entity} {a : α} {es : List Entity} {js : List β} (hdue : Due e a)
    (h : Assigned Due job es js) : Assigned Due job (e :: es) (job e a :: js)
  | idle {e : Entity} {es : List Entity} {js : List β} (hidle : ∀ a, ¬ Due e a)
    (h : Assigned Due job es js) : Assigned Due job (e :: es) js

namespace World

/-- The jobs are those of the creatures that wander now and of the beings that come back to
life, each as it is now, in the order in which they were made. -/
structure JobsMatch (w : World) : Prop where
  wander : Assigned Entity.Wanders
    (fun e c => (⟨e.name, c.wandering.interval, c.wandering.wanderlust⟩ : WanderJob))
    w.entities w.wanderJobs
  respawn : Assigned Entity.Respawns
    (fun e b => (⟨e.name, b.respawn.interval, b.respawn.lives⟩ : RespawnJob))
    w.entities w.respawnJobs

/-- Nothing in the world wanders or comes back to life. -/
def Still (w : World) : Prop :=
  ∀ e ∈ w.entities, (∀ c, ¬ e.Wanders c) ∧ ∀ b, ¬ e.Respawns b

end World

section Assignments

variable {α β : Type} {Due : Entity → α → Prop} {job : Entity → α → β}
variable {job? : Entity → Option β} {es : List Entity} {js : List β}

/-- What is assigned can be found entity by entity. -/
theorem assigned_iff_filterMap
    (hjob : ∀ e j, job? e = some j ↔ ∃ a, Due e a ∧ j = job e a) :
    Assigned Due job es js ↔ js = es.filterMap job? := by
  have hnone : ∀ e, job? e = none ↔ ∀ a, ¬ Due e a := by
    intro e
    rw [Option.eq_none_iff_forall_ne_some]
    constructor
    · exact fun h a ha => h (job e a) ((hjob e _).mpr ⟨a, ha, rfl⟩)
    · rintro h j hj
      obtain ⟨a, ha, -⟩ := (hjob e j).mp hj
      exact h a ha
  constructor
  · intro h
    induction h with
    | nil => rfl
    | @due e a es js hdue _ ih =>
      rw [List.filterMap_cons_some ((hjob e _).mpr ⟨a, hdue, rfl⟩), ih]
    | @idle e es js hidle _ ih => rw [List.filterMap_cons_none ((hnone e).mpr hidle), ih]
  · rintro rfl
    induction es with
    | nil => exact .nil
    | cons e es ih =>
      cases he : job? e with
      | none =>
        rw [List.filterMap_cons_none he]
        exact .idle ((hnone e).mp he) ih
      | some j =>
        obtain ⟨a, hdue, rfl⟩ := (hjob e j).mp he
        rw [List.filterMap_cons_some he]
        exact .due hdue ih

end Assignments

namespace World

variable {w : World} {e : Entity}

theorem wanderJob?_eq_some_iff {j : WanderJob} :
    wanderJob? e = some j ↔
      ∃ c, e.Wanders c ∧ j = ⟨e.name, c.wandering.interval, c.wandering.wanderlust⟩ := by
  simp only [wanderJob?, Option.map_eq_some_iff, Option.filter_eq_some_iff, Bool.and_eq_true,
    Entity.Wanders, eq_comm (a := j)]

theorem respawnJob?_eq_some_iff {j : RespawnJob} :
    respawnJob? e = some j ↔
      ∃ b, e.Respawns b ∧ j = ⟨e.name, b.respawn.interval, b.respawn.lives⟩ := by
  simp only [respawnJob?, Option.map_eq_some_iff, Option.filter_eq_some_iff, Entity.Respawns,
    eq_comm (a := j)]

theorem jobsMatch_iff :
    w.JobsMatch ↔ w.wanderJobs = w.entities.filterMap wanderJob? ∧
      w.respawnJobs = w.entities.filterMap respawnJob? := by
  rw [← assigned_iff_filterMap fun _ _ => wanderJob?_eq_some_iff,
    ← assigned_iff_filterMap fun _ _ => respawnJob?_eq_some_iff]
  exact ⟨fun h => ⟨h.wander, h.respawn⟩, fun h => ⟨h.1, h.2⟩⟩

theorem still_iff :
    w.Still ↔ w.entities.filterMap wanderJob? = [] ∧ w.entities.filterMap respawnJob? = [] := by
  simp only [List.filterMap_eq_nil_iff, Option.eq_none_iff_forall_ne_some, ne_eq,
    wanderJob?_eq_some_iff, respawnJob?_eq_some_iff, not_exists, not_and, Still]
  constructor
  · exact fun h => ⟨fun e he j c hc _ => (h e he).1 c hc, fun e he j b hb _ => (h e he).2 b hb⟩
  · exact fun h e he => ⟨fun c hc => h.1 e he _ c hc rfl, fun b hb => h.2 e he _ b hb rfl⟩

end World

/-! ### What operations leave alone -/

namespace Execution

variable {s : Surroundings} {v : Vocabulary} {op : Operation} {ops : List Operation}
variable {x x' y : Execution World} {err : Error} {required : Bool}

/-- What an attempt leaves, whether it succeeds or fails. -/
def Leaves (r : EStateM.Result Error (Execution World) Unit) (x' : Execution World) : Prop :=
  r = .ok () x' ∨ ∃ err, r = .error err x'

/-- Operations may have come between: the jobs are the same, and a start room that was declared
still is. -/
structure GoesOn (x x' : Execution World) : Prop where
  sound : x'.Sound
  wander : x'.state.wanderJobs = x.state.wanderJobs
  respawn : x'.state.respawnJobs = x.state.respawnJobs
  start : x.declarations.entityType? startRoom = some .room →
    x'.declarations.entityType? startRoom = some .room

theorem GoesOn.refl (hx : x.Sound) : x.GoesOn x :=
  ⟨hx, rfl, rfl, id⟩

theorem GoesOn.trans (h : x.GoesOn y) (h' : y.GoesOn x') : x.GoesOn x' :=
  ⟨h'.sound, h'.wander.trans h.wander, h'.respawn.trans h.respawn, fun hs => h'.start (h.start hs)⟩

/-- **No operation touches the jobs**, whatever comes of it. -/
theorem goesOn_of_execute (hx : x.Sound) (h : Leaves (execute (World.builder s) v op x) x') :
    x.GoesOn x' := by
  rcases h with h | ⟨err, h⟩
  · obtain ⟨hx', value, -, heffect, -⟩ := effect_of_execute hx h
    obtain ⟨hwander, hrespawn⟩ := heffect.frame.jobs
    exact ⟨hx', hwander, hrespawn, fun hs => (startType_of_execute hx h).mpr (.inl hs)⟩
  · obtain rfl := eq_of_execute_error hx h
    exact .refl hx

theorem goesOn_of_forM (hx : x.Sound)
    (h : Leaves (ops.forM (execute (World.builder s) v) x) x') : x.GoesOn x' := by
  induction ops generalizing x with
  | nil =>
    rcases h with h | ⟨err, h⟩
    · obtain rfl := (EStateM.Result.ok.inj h).2
      exact .refl hx
    · cases h
  | cons op rest ih =>
    rw [run_forM_cons] at h
    cases hfirst : execute (World.builder s) v op x with
    | error e y =>
      rw [run_bind_of_error hfirst] at h
      obtain rfl : y = x' := by
        rcases h with h | ⟨err, h⟩
        · cases h
        · exact (EStateM.Result.error.inj h).2
      exact goesOn_of_execute hx (.inr ⟨e, hfirst⟩)
    | ok _ y =>
      rw [run_bind_of_ok hfirst] at h
      have hgoes : x.GoesOn y := goesOn_of_execute hx (.inl hfirst)
      exact hgoes.trans (ih hgoes.sound h)

/-- A start room is defined only where none is declared. -/
theorem not_startType_of_definesStart (hx : x.Sound)
    (h : ops.forM (execute (World.builder s) v) x = .ok () x')
    (hdefines : ops.any definesStart = true) :
    x.declarations.entityType? startRoom ≠ some .room := by
  induction ops generalizing x with
  | nil => cases hdefines
  | cons op rest ih =>
    rw [run_forM_cons] at h
    obtain ⟨_, y, hfirst, hrest⟩ := run_bind_ok_iff.mp h
    rw [List.any_cons, Bool.or_eq_true] at hdefines
    rcases hdefines with hop | hmore
    · obtain ⟨-, value, -, hcheck, -, -, -⟩ := step_of_execute hx hfirst
      simp only [definesStart, Bool.and_eq_true, decide_eq_true_eq] at hop
      obtain ⟨⟨hop, hname⟩, -⟩ := hop
      obtain ⟨_, _, -, -, hfresh⟩ := Validation.arguments_defineEntity hop hcheck
      rw [Declarations.entityType?_eq_form?, ← hname, hfresh]
      exact (Option.some_ne_none _).symm
    · intro hdeclared
      have hgoes : x.GoesOn y := goesOn_of_execute hx (.inl hfirst)
      exact ih hgoes.sound hrest hmore (hgoes.start hdeclared)

/-- Behind its operations a program can only want a start room; else the jobs are added. -/
theorem executeAll_behind (h : ops.forM (execute (World.builder s) v) x = .ok () y) :
    executeAll (World.builder s) v required ops x =
      if required && !ops.any definesStart then .error (.of .noStartRoom) y
      else .ok () { y with state := y.state.scheduleJobs } := by
  rw [executeAll, run_bind_of_ok h]
  cases required && !ops.any definesStart with
  | true => rfl
  | false => rfl

theorem executeAll_ok (h : executeAll (World.builder s) v required ops x = .ok () x') :
    ∃ y, ops.forM (execute (World.builder s) v) x = .ok () y ∧
      (required = true → ops.any definesStart = true) ∧
      x' = { y with state := y.state.scheduleJobs } := by
  cases hforM : ops.forM (execute (World.builder s) v) x with
  | error e y =>
    rw [executeAll, run_bind_of_error hforM] at h
    cases h
  | ok _ y =>
    rw [executeAll_behind hforM] at h
    split at h
    · cases h
    · rename_i hstart
      obtain rfl := (EStateM.Result.ok.inj h).2
      exact ⟨y, rfl, fun hrequired => by simpa [hrequired] using hstart, rfl⟩

/-- A program that fails adds no jobs. -/
theorem goesOn_of_executeAll_error (hx : x.Sound)
    (h : executeAll (World.builder s) v required ops x = .error err x') : x.GoesOn x' := by
  cases hforM : ops.forM (execute (World.builder s) v) x with
  | error e y =>
    rw [executeAll, run_bind_of_error hforM] at h
    obtain rfl := (EStateM.Result.error.inj h).2
    exact goesOn_of_forM hx (.inr ⟨e, hforM⟩)
  | ok _ y =>
    rw [executeAll_behind hforM] at h
    split at h
    · obtain rfl := (EStateM.Result.error.inj h).2
      exact goesOn_of_forM hx (.inl hforM)
    · cases h

theorem Sound.scheduleJobs (hx : x.Sound) :
    ({ x with state := x.state.scheduleJobs } : Execution World).Sound :=
  ⟨hx.unchecked, hx.consistent.of_keeps (.of_eq rfl rfl rfl) ⟨rfl, rfl⟩⟩

/-! ### Runs -/

/-- A program that was carried out: whether it needed a start room, and the world that it left. -/
structure Ended where
  required : Bool
  world : World

/-- What operations and programs come to, one after another, whatever fails; and the programs
that were carried out. -/
inductive Run (s : Surroundings) (v : Vocabulary) : List Ended → Execution World → Prop
  | start : Run s v [] .emptyWorld
  | operation {ended : List Ended} {x x' : Execution World} (h : Run s v ended x) (op : Operation)
    (hleft : Leaves (execute (World.builder s) v op x) x') : Run s v ended x'
  | failed {ended : List Ended} {x x' : Execution World} {err : Error} (h : Run s v ended x)
    (required : Bool) (ops : List Operation)
    (hfailed : executeAll (World.builder s) v required ops x = .error err x') : Run s v ended x'
  | program {ended : List Ended} {x x' : Execution World} (h : Run s v ended x) (required : Bool)
    (ops : List Operation)
    (hdone : executeAll (World.builder s) v required ops x = .ok () x') :
    Run s v (ended ++ [⟨required, x'.state⟩]) x'

variable {ended : List Ended}

/-- What programs have left: the jobs of the worlds in which they ended, in a row, and a start
room if one of them needed it. -/
structure Scheduled (ended : List Ended) (x : Execution World) : Prop where
  sound : x.Sound
  wander : x.state.wanderJobs = ended.flatMap (·.world.entities.filterMap World.wanderJob?)
  respawn : x.state.respawnJobs = ended.flatMap (·.world.entities.filterMap World.respawnJob?)
  start : (∃ p ∈ ended, p.required = true) →
    x.declarations.entityType? startRoom = some .room

theorem Scheduled.goesOn (hx : Scheduled ended x) (h : x.GoesOn x') : Scheduled ended x' :=
  ⟨h.sound, h.wander.trans hx.wander, h.respawn.trans hx.respawn, fun hs => h.start (hx.start hs)⟩

/-- **A program that is carried out adds the jobs of the world that it leaves.** -/
theorem Scheduled.program (hx : Scheduled ended x)
    (h : executeAll (World.builder s) v required ops x = .ok () x') :
    Scheduled (ended ++ [⟨required, x'.state⟩]) x' := by
  obtain ⟨y, hforM, hdefines, rfl⟩ := executeAll_ok h
  have hy : Scheduled ended y := hx.goesOn (goesOn_of_forM hx.sound (.inl hforM))
  refine ⟨hy.sound.scheduleJobs, ?_, ?_, ?_⟩
  · rw [List.flatMap_append, List.flatMap_singleton, ← hy.wander]
    rfl
  · rw [List.flatMap_append, List.flatMap_singleton, ← hy.respawn]
    rfl
  · rintro ⟨p, hp, hrequired⟩
    rcases List.mem_append.mp hp with hp | hp
    · exact hy.start ⟨p, hp, hrequired⟩
    · obtain rfl := List.mem_singleton.mp hp
      exact (startType_of_forM hx.sound hforM).2.mpr (.inr (hdefines hrequired))

theorem Run.scheduled (h : Run s v ended x) : Scheduled ended x := by
  induction h with
  | start =>
    refine ⟨sound_emptyWorld, rfl, rfl, ?_⟩
    rintro ⟨p, hp, -⟩
    cases hp
  | operation _ op hleft ih => exact ih.goesOn (goesOn_of_execute ih.sound hleft)
  | failed _ required ops hfailed ih =>
    exact ih.goesOn (goesOn_of_executeAll_error ih.sound hfailed)
  | program _ required ops hdone ih => exact ih.program hdone

/-- **When the jobs match the world.**  Behind a program that was carried out, in whatever run,
the jobs are those of the worlds in which programs have ended, this one last.  So they match the
world just if nothing wandered or came back to life in any of the earlier ones.  If a start room
is required throughout, there are no earlier ones. -/
theorem jobs_match_iff_still (hrun : Run s v ended x)
    (h : executeAll (World.builder s) v required ops x = .ok () x') :
    (x'.state.JobsMatch ↔ ∀ p ∈ ended, p.world.Still) ∧
      x'.state.wanderJobs = (ended.map (·.world) ++ [x'.state]).flatMap
        (·.entities.filterMap World.wanderJob?) ∧
      x'.state.respawnJobs = (ended.map (·.world) ++ [x'.state]).flatMap
        (·.entities.filterMap World.respawnJob?) ∧
      (required = true → ∀ p ∈ ended, p.required = false) := by
  have hx := hrun.scheduled
  have hx' := hx.program h
  have hwander : x'.state.wanderJobs = ended.flatMap
      (·.world.entities.filterMap World.wanderJob?) ++
        x'.state.entities.filterMap World.wanderJob? := by
    rw [hx'.wander, List.flatMap_append, List.flatMap_singleton]
  have hrespawn : x'.state.respawnJobs = ended.flatMap
      (·.world.entities.filterMap World.respawnJob?) ++
        x'.state.entities.filterMap World.respawnJob? := by
    rw [hx'.respawn, List.flatMap_append, List.flatMap_singleton]
  refine ⟨?_, ?_, ?_, ?_⟩
  · rw [World.jobsMatch_iff, hwander, hrespawn, List.append_left_eq_self, List.append_left_eq_self,
      List.flatMap_eq_nil_iff, List.flatMap_eq_nil_iff]
    simp only [World.still_iff, ← forall_and]
  · rw [hwander, List.flatMap_append, List.flatMap_singleton, List.flatMap_map]
  · rw [hrespawn, List.flatMap_append, List.flatMap_singleton, List.flatMap_map]
  · intro hrequired p hp
    obtain ⟨y, hforM, hdefines, -⟩ := executeAll_ok h
    rw [← Bool.not_eq_true]
    intro hearlier
    exact not_startType_of_definesStart hx.sound hforM (hdefines hrequired)
      (hx.start ⟨p, hp, hearlier⟩)

/-- A stone, which does nothing on its own. -/
def stoneAlone : List Operation :=
  [.defineEntity "stone" .object "object" none 1]

/-- A bat that wanders. -/
def wanderingBat : List Operation :=
  [.defineEntity "bat" .creature "creature" none 1,
    .setProperty (.entity "bat") "wandering.enabled" "1" 2]

/-- Behind a program that gave no jobs, the jobs match the world. -/
theorem bat_behind_stone :
    let builder := World.builder ⟨.strict, .none, .standard⟩
    ∃ x x', executeAll builder .english false stoneAlone .emptyWorld = .ok () x ∧
      Run ⟨.strict, .none, .standard⟩ .english [⟨false, x.state⟩] x ∧ x.state.Still ∧
      executeAll builder .english false wanderingBat x = .ok () x' ∧
      x'.state.wanderJobs.map (·.creature) = ["bat"] ∧ x'.state.JobsMatch := by
  intro builder
  have hread : (match executeAll builder .english false stoneAlone .emptyWorld with
      | .error .. => false
      | .ok _ x => (x.state.entities.filterMap World.wanderJob?).isEmpty &&
        (x.state.entities.filterMap World.respawnJob?).isEmpty &&
        match executeAll builder .english false wanderingBat x with
        | .error .. => false
        | .ok _ x' => decide (x'.state.wanderJobs.map (·.creature) = ["bat"])) = true := by
    decide +kernel
  cases hfirst : executeAll builder .english false stoneAlone .emptyWorld with
  | error e x =>
    rw [hfirst] at hread
    cases hread
  | ok _ x =>
    rw [hfirst] at hread
    simp only [Bool.and_eq_true, List.isEmpty_iff] at hread
    obtain ⟨hstill, hread⟩ := hread
    cases hsecond : executeAll builder .english false wanderingBat x with
    | error e x' =>
      rw [hsecond] at hread
      cases hread
    | ok _ x' =>
      rw [hsecond] at hread
      have hrun : Run ⟨.strict, .none, .standard⟩ .english [⟨false, x.state⟩] x :=
        .program .start false stoneAlone hfirst
      have hquiet : x.state.Still := World.still_iff.mpr hstill
      refine ⟨x, x', rfl, hrun, hquiet, hsecond, of_decide_eq_true hread, ?_⟩
      refine (jobs_match_iff_still hrun hsecond).1.mpr ?_
      rintro _ (_ | ⟨_, ⟨⟩⟩)
      exact hquiet

/-- Behind a second program, which does nothing at all, the bat has two jobs. -/
theorem bat_wanders_twice :
    let builder := World.builder ⟨.strict, .none, .standard⟩
    ∃ x x', Run ⟨.strict, .none, .standard⟩ .english [⟨false, x.state⟩] x ∧
      executeAll builder .english false [] x = .ok () x' ∧
      x'.state.entities.map (·.name) = ["bat"] ∧
      x'.state.wanderJobs.map (·.creature) = ["bat", "bat"] ∧ ¬ x'.state.JobsMatch := by
  intro builder
  have hread : (match executeAll builder .english false wanderingBat .emptyWorld with
      | .error .. => false
      | .ok _ x =>
        match executeAll builder .english false [] x with
        | .error .. => false
        | .ok _ x' => decide (x'.state.entities.map (·.name) = ["bat"] ∧
          x'.state.wanderJobs.map (·.creature) = ["bat", "bat"] ∧
          (x'.state.entities.filterMap World.wanderJob?).map (·.creature) = ["bat"])) = true := by
    decide +kernel
  cases hfirst : executeAll builder .english false wanderingBat .emptyWorld with
  | error e x =>
    rw [hfirst] at hread
    cases hread
  | ok _ x =>
    rw [hfirst] at hread
    dsimp only at hread
    cases hsecond : executeAll builder .english false [] x with
    | error e x' =>
      rw [hsecond] at hread
      cases hread
    | ok _ x' =>
      rw [hsecond] at hread
      obtain ⟨hnames, hjobs, hdue⟩ := of_decide_eq_true hread
      refine ⟨x, x', .program .start false wanderingBat hfirst, hsecond, hnames, hjobs, ?_⟩
      intro hmatch
      rw [(World.jobsMatch_iff.mp hmatch).1, hdue] at hjobs
      exact absurd hjobs (by decide)

end Execution

end Adventure
