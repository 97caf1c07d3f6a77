/-
Operations touch only what they name.

What an operation may touch is read off its arguments, with one exception: whatever holds a
thing gives it up when the thing is moved, and which entity that is only the world can
tell.  Everything else is as it was after an operation that succeeds, and no entity ever
leaves its position.  Each effect touches little, so this is seen effect by effect; that
names are distinct, as they are after any operations, turns what is known by name into
what is known by position.
-/
import Adventure.Proofs.Effects
import Adventure.Proofs.Positions

namespace Adventure

/-! ### What operations name -/

namespace Subject

/-- The name of the subject if it is an entity. -/
def entity? : Subject → Option String
  | entity name => some name
  | _ => none

/-- The name of the subject if it is a class. -/
def class? : Subject → Option String
  | entityClass name => some name
  | _ => none

end Subject

namespace Operation

/-- The class that an operation is about. -/
def classSubject? (op : Operation) : Option String :=
  match op.opcode with
  | .defineEntityClass => some (op.argument 0)
  | _ => op.subject?.bind (·.class?)

/-- Whether an operation is about the game: it names the game as its subject, or sets a word
or the timer. -/
def aboutGame (op : Operation) : Prop :=
  op.subject? = some .game ∨
    op.opcode ∈ [.defineDirection, .defineDirectionSynonym, .defineVerbSynonym, .setTimerPeriod]

/-- Whose scripts an operation adds to: a definition brings along those of the class. -/
def scriptOwner? (op : Operation) : Option Subject :=
  match op.opcode with
  | .defineEntity => some (.entity (op.argument 0))
  | .loadScript => op.subject?
  | _ => none

variable {op : Operation}

theorem insertion?_of_subject? {subject : Subject} (h : op.subject? = some subject) :
    op.insertion? = none := by
  have htargets := targets_ne_nil h
  unfold insertion?
  split
  · next hop => exact absurd (by rw [hop]; rfl) htargets
  · next hop => exact absurd (by rw [hop]; rfl) htargets
  · rfl

theorem classSubject?_of_subject? {subject : Subject} (h : op.subject? = some subject) :
    op.classSubject? = subject.class? := by
  have htargets := targets_ne_nil h
  unfold classSubject?
  split
  · next hop => exact absurd (by rw [hop]; rfl) htargets
  · rw [h, Option.bind_some]

end Operation

namespace World

/-- The entities that an operation is about: the one it defines, allocates from or names as
its subject; if it moves a thing, the thing, what gets it and what held it before. -/
def concerned (w : World) (op : Operation) : List String :=
  match op.insertion? with
  | some (thing, holder) => w.aroundMove thing holder
  | none =>
    match op.opcode with
    | .defineEntity | .allocateResource => [op.argument 0]
    | _ => (op.subject?.bind (·.entity?)).toList

variable {s : Surroundings} {op : Operation} {value : Option Value} {w w' : World}

theorem concerned_of_subject? {subject : Subject} (h : op.subject? = some subject) :
    w.concerned op = subject.entity?.toList := by
  have htargets := Operation.targets_ne_nil h
  unfold concerned
  rw [Operation.insertion?_of_subject? h]
  dsimp only
  split
  · next hop => exact absurd (by rw [hop]; rfl) htargets
  · next hop => exact absurd (by rw [hop]; rfl) htargets
  · rw [h, Option.bind_some]

/-- An operation that is about a class is about no entity. -/
theorem concerned_of_classSubject? {name : String} (h : op.classSubject? = some name) :
    w.concerned op = [] := by
  unfold Operation.classSubject? at h
  split at h
  · next hop =>
    have hsubject : op.subject? = none := Operation.subject?_eq_none (by rw [hop]; rfl)
    simp [concerned, Operation.insertion?, hop, hsubject]
  · obtain ⟨subject, hsubject, hclass⟩ := Option.bind_eq_some_iff.mp h
    rw [concerned_of_subject? hsubject]
    cases subject with
    | entityClass _ => rfl
    | _ => cases hclass

/-! ### What is touched by each effect -/

/-- Nothing was touched but what the operation is about, as far as names tell. -/
structure Frame (op : Operation) (w w' : World) : Prop where
  /-- The entities that were there are named in the same order, before any other. -/
  names : w.entities.map (·.name) <+: w'.entities.map (·.name)
  /-- A name that the operation is not about means what it meant, or still nothing. -/
  others : ∀ name ∉ w.concerned op, w'.entity? name = w.entity? name
  classes : ∀ name, op.classSubject? ≠ some name → w'.classes[name]? = w.classes[name]?
  player : op.subject? ≠ some .defaultPlayer → w'.defaultPlayer = w.defaultPlayer
  settings : ¬op.aboutGame → w'.settings = w.settings
  scripts : ∀ owner, op.scriptOwner? ≠ some owner → w'.scripts.ofOwner owner = w.scripts.ofOwner owner
  jobs : w'.wanderJobs = w.wanderJobs ∧ w'.respawnJobs = w.respawnJobs

theorem Frame.refl (op : Operation) (w : World) : Frame op w w :=
  ⟨List.prefix_refl _, fun _ _ => rfl, fun _ _ => rfl, fun _ => rfl, fun _ => rfl, fun _ _ => rfl,
    rfl, rfl⟩

/-- The scripts that come with a new entity go to no other owner. -/
theorem ofOwner_inherited (inherited : List Script) (store : ScriptStore) (owner other : Subject) :
    (inherited.foldl (·.load owner ·) store).ofOwner other =
      store.ofOwner other ++ if owner = other then inherited else [] := by
  induction inherited generalizing store with
  | nil => simp
  | cons script rest ih =>
    rw [List.foldl_cons, ih, ScriptStore.ofOwner_load]
    by_cases howner : owner = other <;> simp [howner]

/-- **Every effect touches only what the operation is about.** -/
theorem Effect.frame (h : Effect s op value w w') : Frame op w w' := by
  cases h with
  | direction hop | directionSynonym hop | verbSynonym hop =>
    refine ⟨List.prefix_refl _, fun _ _ => rfl, fun _ _ => rfl, fun _ => rfl, ?_, fun _ _ => rfl,
      rfl, rfl⟩
    exact fun hgame => absurd (.inr (by simp [hop])) hgame
  | settings hop hwords =>
    refine ⟨List.prefix_refl _, fun _ _ => rfl, fun _ _ => rfl, fun _ => rfl, ?_, fun _ _ => rfl,
      rfl, rfl⟩
    intro hgame
    refine absurd ?_ hgame
    rcases hop with ⟨hsubject, -⟩ | hop
    · exact .inl hsubject
    · exact .inr (by simp [hop])
  | classDefined hop htype he =>
    refine ⟨List.prefix_refl _, fun _ _ => rfl, ?_, fun _ => rfl, fun _ => rfl, fun _ _ => rfl,
      rfl, rfl⟩
    intro name hname
    rw [NameTable.getElem?_insert, if_neg]
    intro hsame
    exact hname (by simp [Operation.classSubject?, hop, hsame])
  | entityDefined hop hnew =>
    next e inherited =>
    have hmade := (withPlural_keeps e op.arguments[3]?).name.trans (newEntity_name hnew)
    have hconcerned : w.concerned op = [op.argument 0] := by
      simp [concerned, Operation.insertion?, hop]
    refine ⟨?_, ?_, fun _ _ => rfl, fun _ => rfl, fun _ => rfl, ?_, rfl, rfl⟩
    · rw [entities, entities, Population.toList_add, List.map_append]
      exact List.prefix_append _ _
    · intro name hname
      rw [hconcerned, List.mem_singleton] at hname
      rw [entity?_of_added rfl, hmade, if_neg (Ne.symm hname)]
    · intro owner howner
      rw [ofOwner_inherited, if_neg, List.append_nil]
      intro hsame
      exact howner (by simp [Operation.scriptOwner?, hop, hsame])
  | entity hop he hedit =>
    next name e e' =>
    have hconcerned : w.concerned op = [name] := by
      rcases hop with hsubject | ⟨hop, rfl⟩
      · exact concerned_of_subject? hsubject
      · simp [concerned, Operation.insertion?, hop]
    have hname := hedit.keeps.name
    refine ⟨?_, ?_, fun _ _ => rfl, fun _ => rfl, fun _ => rfl, fun _ _ => rfl, rfl, rfl⟩
    · exact ⟨[], by rw [List.append_nil, names_put he hname]⟩
    · intro other hother
      rw [hconcerned, List.mem_singleton] at hother
      rw [entity?_put he hname, if_neg hother]
  | prototype hop hp hedit =>
    refine ⟨List.prefix_refl _, fun _ _ => rfl, ?_, fun _ => rfl, fun _ => rfl, fun _ _ => rfl,
      rfl, rfl⟩
    intro name hname
    rw [Operation.classSubject?_of_subject? hop] at hname
    rw [NameTable.getElem?_insert, if_neg fun hsame => hname (congrArg some hsame)]
  | player hop hedit =>
    exact ⟨List.prefix_refl _, fun _ _ => rfl, fun _ _ => rfl, fun hplayer => absurd hop hplayer,
      fun _ => rfl, fun _ _ => rfl, rfl, rfl⟩
  | script hop hsubject howner hscript =>
    refine ⟨List.prefix_refl _, fun _ _ => rfl, fun _ _ => rfl, fun _ => rfl, fun _ => rfl, ?_,
      rfl, rfl⟩
    intro other hother
    rw [Operation.scriptOwner?, hop] at hother
    rw [ScriptStore.ofOwner_load, if_neg, List.append_nil]
    rintro rfl
    exact hother hsubject
  | classScript hop hsubject hp hscript =>
    refine ⟨List.prefix_refl _, fun _ _ => rfl, ?_, fun _ => rfl, fun _ => rfl, ?_, rfl, rfl⟩
    · intro name hname
      rw [Operation.classSubject?_of_subject? hsubject] at hname
      rw [NameTable.getElem?_insert, if_neg fun hsame => hname (congrArg some hsame)]
    · intro other hother
      rw [Operation.scriptOwner?, hop] at hother
      rw [ScriptStore.ofOwner_load, if_neg, List.append_nil]
      rintro rfl
      exact hother hsubject
  | moved hop hmoved =>
    have hrest := hmoved.rest
    refine ⟨?_, ?_, ?_, ?_, ?_, ?_, ?_, ?_⟩
    · exact ⟨[], by rw [List.append_nil, hmoved.names]⟩
    · intro name hname
      rw [concerned, hop] at hname
      exact hmoved.others name hname
    · intro _ _
      rw [hrest]
    · intro _
      rw [hrest]
    · intro _
      rw [hrest]
    · intro _ _
      rw [hrest]
    · rw [hrest]
    · rw [hrest]

theorem mem_names_iff {name : String} :
    name ∈ w.entities.map (·.name) ↔ ∃ e, w.entity? name = some e := by
  constructor
  · intro h
    obtain ⟨e, he, rfl⟩ := List.mem_map.mp h
    have hfound : (w.entity? e.name).isSome :=
      List.find?_isSome.mpr ⟨e, by simpa [entities, Population.toList] using he, by simp⟩
    exact Option.isSome_iff_exists.mp hfound
  · rintro ⟨e, he⟩
    exact List.mem_map.mpr ⟨e, Population.mem_of_get? he, Population.name_of_get? he⟩

/-- No entity is ever taken away. -/
theorem Frame.exists_entity (h : Frame op w w') {name : String} (he : ∃ e, w.entity? name = some e) :
    ∃ e, w'.entity? name = some e :=
  mem_names_iff.mp (h.names.subset (mem_names_iff.mpr he))

/-! ### What is touched by an operation -/

/-- Nothing was touched but what the operation is about, and every entity that was there is
where it was. -/
structure TouchesOnly (op : Operation) (w w' : World) : Prop extends Frame op w w' where
  /-- Every entity keeps its position and its name, and if the operation is not about it
  it is the same in every respect. -/
  entities : ∀ (i : Nat) (e : Entity), w.entities[i]? = some e →
    ∃ e', w'.entities[i]? = some e' ∧ e'.name = e.name ∧ (e.name ∉ w.concerned op → e' = e)
  /-- Every name leads to the position that it led to before. -/
  positions : ∀ name i, w.population.position? name = some i →
    w'.population.position? name = some i

/-- What is known by name is known by position, if names are distinct. -/
theorem Frame.touchesOnly (h : Frame op w w') (hw : (w.entities.map (·.name)).Nodup)
    (hw' : (w'.entities.map (·.name)).Nodup) : TouchesOnly op w w' := by
  have hstays : ∀ (i : Nat) (name : String), (w.entities.map (·.name))[i]? = some name →
      (w'.entities.map (·.name))[i]? = some name := by
    intro i name hname
    obtain ⟨more, hmore⟩ := h.names
    rw [← hmore, List.getElem?_append_left (List.getElem?_eq_some_iff.mp hname).1, hname]
  refine ⟨h, ?_, ?_⟩
  · intro i e he
    have hname := hstays i e.name (by rw [List.getElem?_map, he]; rfl)
    rw [List.getElem?_map] at hname
    obtain ⟨e', he', hsame⟩ := Option.map_eq_some_iff.mp hname
    refine ⟨e', he', hsame, ?_⟩
    intro hother
    have hbefore : w.entity? e.name = some e :=
      Population.get?_of_mem hw (List.mem_of_getElem? he)
    have hafter : w'.entity? e'.name = some e' :=
      Population.get?_of_mem hw' (List.mem_of_getElem? he')
    rw [hsame, h.others e.name hother, hbefore] at hafter
    exact (Option.some.inj hafter).symm
  · intro name i hi
    rw [Population.position?_eq_some_iff hw] at hi
    rw [Population.position?_eq_some_iff hw']
    exact hstays i name hi

end World

/-- **An operation that succeeds touches only what it is about**, after any operations. -/
theorem Session.touches_only_named (s : Surroundings) (v : Vocabulary) (ops : List Operation)
    (op : Operation) :
    let x := (ofOperations (World.builder s) v .empty ops).execution
    ∀ x', Execution.execute (World.builder s) v op x = .ok () x' →
      World.TouchesOnly op x.state x'.state := by
  intro x x' h
  have hx : x.Sound := sound_ofOperations s v ops
  obtain ⟨hx', value, -, heffect, -⟩ := Execution.effect_of_execute hx h
  exact heffect.frame.touchesOnly hx.consistent.names hx'.consistent.names

/-- A lamp that is moved from one room to another concerns both, and nothing else. -/
theorem Session.moved_lamp_touches_rooms :
    let builder := World.builder ⟨.strict, .none, .standard⟩
    let ops : List Operation := [.defineEntity "start" .room "room" none 1,
      .defineEntity "cellar" .room "room" none 2, .defineEntity "lamp" .object "object" none 3,
      .insertIntoPlace "lamp" "start" 4]
    let x := (ofOperations builder .english .empty ops).execution
    let op := Operation.insertIntoPlace "lamp" "cellar" 5
    x.state.concerned op = ["lamp", "start", "cellar"] ∧
      ∃ x', Execution.execute builder .english op x = .ok () x' ∧
        World.TouchesOnly op x.state x'.state := by
  intro builder ops x op
  obtain ⟨x', h⟩ : ∃ x', Execution.execute builder .english op x = .ok () x' := by
    dsimp only [builder, ops, x, op]
    exact ⟨_, rfl⟩
  have hconcerned : x.state.concerned op = ["lamp", "start", "cellar"] := by
    dsimp only [builder, ops, x, op]
    decide +kernel
  exact ⟨hconcerned, x', h,
    touches_only_named ⟨.strict, .none, .standard⟩ .english ops op x' h⟩

end Adventure
