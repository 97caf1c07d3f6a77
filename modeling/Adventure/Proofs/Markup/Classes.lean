/-
Classes and the entities made from them.

An entity copies its class when the world is built, so all that concerns the class
should come before the entity's definition.  For an entity that is defined where it is
declared this holds, and so it does for one that was first used by another entity.  But
a room can also be used first by an exit of a class.  It is then defined while that
class is being described, and it is complete only if its own class was there before.
-/
import Adventure.Proofs.Markup.Sections

namespace Adventure.Markup

variable {v : Vocabulary} {source : String} {d : Draft} {before after : List Operation}
variable {e : Operation}

/-! ### A room made from a class, and a class with an exit to it -/

/-- A game with classes of rooms, whose only room is made from one of them. -/
def oneRoom (classes : String) : String :=
  "<game><classes><rooms>" ++ classes ++
    "</rooms></classes><rooms><grand name=\"start\"/></rooms></game>"

/-- The class that the room is made from. -/
def grandClass : String :=
  "<room class=\"grand\"/>"

/-- A class with an exit to the room. -/
def porchClass : String :=
  "<room class=\"porch\"><north>start</north></room>"

/-- Whether a source is read as these operations, with a class declared. -/
def readsAs (source : String) (ops : List Operation) (className : String) : Bool :=
  match readDocument .english source with
  | .ok d => d.operations = ops && (d.declarations.class? className).isSome
  | .error _ => false

theorem exists_of_readsAs {ops : List Operation} {className : String}
    (h : readsAs source ops className = true) :
    ∃ d, readDocument .english source = .ok d ∧ d.operations = ops ∧
      (d.declarations.class? className).isSome := by
  unfold readsAs at h
  split at h
  · rename_i d hd
    rw [Bool.and_eq_true, decide_eq_true_eq] at h
    exact ⟨d, hd, h⟩
  · exact absurd h nofun

/-! ### Complete classes -/

/-- **The class of an entity is complete before the entity's definition, unless that was
written for an exit of the class itself or of one defined before it.** -/
theorem class_complete_iff (h : readDocument v source = .ok d)
    (hops : d.operations = before ++ e :: after) (hentity : e.opcode = .defineEntity)
    (hclass : (d.declarations.class? (e.argument Draft.classPosition)).isSome) :
    CompleteBetween (e.argument Draft.classPosition) before after ↔
      ∀ other direction line rest,
        after = .connectRooms (.entityClass other) direction (e.argument 0) line :: rest →
          DefinesBefore (e.argument Draft.classPosition) other before := by
  obtain ⟨stage, hd⟩ := inOrder_readDocument h
  exact hd.ordered.completeBetween_iff hops hentity ((hd.tracked.classes _).mp hclass)

set_option maxRecDepth 100000 in
/-- The class is there before the one with the exit. -/
theorem class_complete_of_early : ∃ d before e after,
    readDocument .english (oneRoom (grandClass ++ porchClass)) = .ok d ∧
      d.operations = before ++ e :: after ∧ e.opcode = .defineEntity ∧
      (d.declarations.class? (e.argument Draft.classPosition)).isSome ∧
      CompleteBetween (e.argument Draft.classPosition) before after := by
  have hreads : readsAs (oneRoom (grandClass ++ porchClass))
      ([.defineEntityClass "grand" .room 1, .defineEntityClass "porch" .room 1] ++
        .defineEntity "start" .room "grand" none 1 ::
          [.connectRooms (.entityClass "porch") "north" "start" 1]) "grand" = true := by
    decide +kernel
  obtain ⟨d, hd, hops, hclass⟩ := exists_of_readsAs hreads
  refine ⟨d, _, _, _, hd, hops, rfl, hclass, ?_⟩
  refine (class_complete_iff hd hops rfl hclass).mpr ?_
  intro other direction line rest hexit
  have hsubject := congrArg Operation.subject? (List.head_eq_of_cons_eq hexit)
  rw [Operation.subject?_connectRooms, Operation.subject?_connectRooms] at hsubject
  obtain rfl : "porch" = other := Subject.entityClass.inj (Option.some.inj hsubject)
  exact ⟨[.defineEntityClass "grand" .room 1], .defineEntityClass "porch" .room 1, [], rfl,
    ⟨rfl, rfl⟩, _, List.mem_singleton_self _, rfl, rfl⟩

set_option maxRecDepth 100000 in
/-- The class is defined after the one with the exit, and so only after the room. -/
theorem class_defined_late : ∃ d before e after,
    readDocument .english (oneRoom (porchClass ++ grandClass)) = .ok d ∧
      d.operations = before ++ e :: after ∧ e.opcode = .defineEntity ∧
      (d.declarations.class? (e.argument Draft.classPosition)).isSome ∧
      ¬ CompleteBetween (e.argument Draft.classPosition) before after := by
  have hreads : readsAs (oneRoom (porchClass ++ grandClass))
      ([.defineEntityClass "porch" .room 1] ++ .defineEntity "start" .room "grand" none 1 ::
        [.connectRooms (.entityClass "porch") "north" "start" 1,
          .defineEntityClass "grand" .room 1]) "grand" = true := by
    decide +kernel
  obtain ⟨d, hd, hops, hclass⟩ := exists_of_readsAs hreads
  refine ⟨d, _, _, _, hd, hops, rfl, hclass, ?_⟩
  intro hcomplete
  have hlate : (Operation.defineEntityClass "grand" .room 1).ConcernsClass "grand" :=
    Or.inl ⟨rfl, rfl⟩
  exact hcomplete.2 _ (List.mem_cons_of_mem _ (List.mem_singleton_self _)) hlate

end Adventure.Markup
