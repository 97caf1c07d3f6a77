/-
Each thing is in one place, the last one it was put in.

Who holds a thing is written twice, with the thing and with its holder.  That both
halves say what the history of insertions says is kept by every attempt: an insertion
that succeeds moves the thing in both halves, and nothing else touches them.
-/
import Adventure.Proofs.Sessions

namespace Adventure

/-- Everything in the world is held as the insertions say. -/
structure World.HeldAs (ins : List (String × Holder)) (w : World) : Prop where
  location : ∀ thing, w.locationOf? thing = (lastHolder ins thing).bind Holder.room?
  owner : ∀ thing, w.ownerOf? thing = (lastHolder ins thing).bind Holder.being?
  contents : ∀ name, w.contentsOf name = heldBy ins (.room name)
  inventory : ∀ name, w.inventoryOf name = heldBy ins (.being name)

namespace World

variable {ins : List (String × Holder)} {w w' : World} {thing : String} {holder : Holder}

theorem heldAs_empty : empty.HeldAs [] :=
  ⟨fun _ => rfl, fun _ => rfl, fun _ => rfl, fun _ => rfl⟩

theorem HeldAs.of_sameHolding (h : w.HeldAs ins) (hsame : w.SameHolding w') : w'.HeldAs ins :=
  ⟨fun thing => (hsame.location thing).trans (h.location thing),
    fun thing => (hsame.owner thing).trans (h.owner thing),
    fun name => (hsame.contents name).trans (h.contents name),
    fun name => (hsame.inventory name).trans (h.inventory name)⟩

theorem HeldAs.contentsWithout_eq (h : w.HeldAs ins) (thing name : String) :
    w.contentsWithout thing name = (heldBy ins (.room name)).filter (· ≠ thing) := by
  rw [contentsWithout, h.contents]
  split
  · rfl
  · next hother =>
    -- the thing was not in this room, so nothing is lost from it
    refine (filter_heldBy ?_).symm
    intro hlast
    rw [h.location, hlast] at hother
    exact hother rfl

theorem HeldAs.inventoryWithout_eq (h : w.HeldAs ins) (thing name : String) :
    w.inventoryWithout thing name = (heldBy ins (.being name)).filter (· ≠ thing) := by
  rw [inventoryWithout, h.inventory]
  split
  · rfl
  · next hother =>
    refine (filter_heldBy ?_).symm
    intro hlast
    rw [h.owner, hlast] at hother
    exact hother rfl

/-- **A move adds its insertion to what the history says.** -/
theorem HeldAs.of_moved (h : w.HeldAs ins) (hmoved : Moved thing holder w w') :
    w'.HeldAs (ins ++ [(thing, holder)]) := by
  refine ⟨?_, ?_, ?_, ?_⟩
  · intro other
    rw [hmoved.location, Function.update_apply, lastHolder_append]
    split
    · rfl
    · exact h.location other
  · intro other
    rw [hmoved.owner, Function.update_apply, lastHolder_append]
    split
    · rfl
    · exact h.owner other
  · intro name
    rw [hmoved.contents, h.contentsWithout_eq, heldBy_append]
  · intro name
    rw [hmoved.inventory, h.inventoryWithout_eq, heldBy_append]

end World

theorem insertions_append (ops : List Operation) (op : Operation) :
    insertions (ops ++ [op]) = insertions ops ++ op.insertion?.toList := by
  rw [insertions, List.filterMap_append, insertions]
  cases h : op.insertion? <;> simp [h]

namespace Session

/-- The session is sound, and everything is held as its insertions say. -/
structure Placed (s : Session World) : Prop where
  sound : s.execution.Sound
  held : s.execution.state.HeldAs (insertions s.succeeded)

theorem placed_attempt {s : Surroundings} {v : Vocabulary} {session : Session World}
    (h : session.Placed) (op : Operation) :
    (attempt (World.builder s) v session op).Placed := by
  have hcomes := Execution.execute_comes (s := s) h.sound v op
  unfold attempt
  cases hresult : Execution.execute (World.builder s) v op session.execution with
  | ok _ x' =>
    rw [hresult] at hcomes
    cases hcomes with
    | ok hsound hfollows =>
      refine ⟨hsound, ?_⟩
      show x'.state.HeldAs (insertions (session.succeeded ++ [op]))
      rw [insertions_append]
      unfold World.Follows at hfollows
      cases hinsertion : op.insertion? with
      | none =>
        rw [hinsertion] at hfollows
        rw [Option.toList_none, List.append_nil]
        exact h.held.of_sameHolding hfollows
      | some insertion =>
        rw [hinsertion] at hfollows
        exact h.held.of_moved hfollows
  | error err x' =>
    rw [hresult] at hcomes
    cases hcomes with
    | fault f => exact h
    | refused _ => exact h

theorem placed_ofOperations (s : Surroundings) (v : Vocabulary) (ops : List Operation) :
    (ofOperations (World.builder s) v .empty ops).Placed := by
  refine ofOperations_induction (P := Placed)
    ⟨Execution.sound_emptyWorld, World.heldAs_empty⟩ ?_ ops
  intro session op h
  exact placed_attempt h op

/-- **Each thing is in one place, the last one it was put in.**  After any operations, a
thing is in the room or with the being that it was last put into, never both and in
neither if it was never put anywhere, and that holder is there.  What a room holds, or a
being carries, is just what was last put into it, each thing once, in the order in which
that was done. -/
theorem held_where_put_last (s : Surroundings) (v : Vocabulary) (ops : List Operation) :
    let session := ofOperations (World.builder s) v .empty ops
    let w := session.execution.state
    let ins := insertions session.succeeded
    ∀ e ∈ w.entities,
      e.location = (lastHolder ins e.name).bind Holder.room? ∧
      e.owner? = (lastHolder ins e.name).bind Holder.being? ∧
      ¬(e.location.isSome ∧ e.owner?.isSome) ∧
      (lastHolder ins e.name = none → e.location = none ∧ e.owner? = none) ∧
      (∀ room, e.location = some room → ∃ r ∈ w.entities, r.name = room ∧ r.room?.isSome) ∧
      (∀ being, e.owner? = some being → ∃ b ∈ w.entities, b.name = being ∧ b.being?.isSome) ∧
      (∀ r, e.room? = some r → r.contents = heldBy ins (.room e.name) ∧ r.contents.Nodup) ∧
      ∀ b, e.being? = some b → b.inventory = heldBy ins (.being e.name) ∧ b.inventory.Nodup := by
  intro session w ins e he
  have hplaced : session.Placed := placed_ofOperations s v ops
  have hc : Consistent session.execution.declarations w := hplaced.sound.consistent
  have hentity : w.entity? e.name = some e := Population.get?_of_mem hc.names he
  have hlocation : e.location = (lastHolder ins e.name).bind Holder.room? := by
    rw [← World.locationOf?_of_entity? hentity]
    exact hplaced.held.location e.name
  have howner : e.owner? = (lastHolder ins e.name).bind Holder.being? := by
    rw [← World.ownerOf?_of_entity? hentity]
    exact hplaced.held.owner e.name
  have hthere : ∀ name t, w.typeOf? name = some t →
      ∃ holder ∈ w.entities, holder.name = name ∧ holder.type = t := by
    intro name t ht
    obtain ⟨holder, hholder, htype⟩ := World.exists_entity ht
    exact ⟨holder, Population.mem_of_get? hholder, Population.name_of_get? hholder, htype⟩
  refine ⟨hlocation, howner, ?_, ?_, ?_, ?_, ?_, ?_⟩
  · rw [hlocation, howner]
    rcases lastHolder ins e.name with _ | room | being <;> simp [Holder.room?, Holder.being?]
  · intro hnone
    rw [hlocation, howner, hnone]
    exact ⟨rfl, rfl⟩
  · intro room hroom
    rw [← World.locationOf?_of_entity? hentity] at hroom
    obtain ⟨t, ht, hplace⟩ := hc.located e.name room hroom
    obtain ⟨r, hr, hname, rfl⟩ := hthere room t ht
    obtain ⟨details, hdetails⟩ := Entity.exists_room hplace
    exact ⟨r, hr, hname, by rw [Entity.room?, hdetails]; rfl⟩
  · intro being hbeing
    rw [← World.ownerOf?_of_entity? hentity] at hbeing
    obtain ⟨t, ht, halive⟩ := hc.owned e.name being hbeing
    obtain ⟨b, hb, hname, rfl⟩ := hthere being t ht
    refine ⟨b, hb, hname, ?_⟩
    rcases Entity.being_cases halive with ⟨c, hdetails⟩ | ⟨b', hdetails⟩
    · rw [Entity.being?, hdetails]
      rfl
    · rw [Entity.being?, hdetails]
      rfl
  · intro r hr
    have hcontents : r.contents = heldBy ins (.room e.name) := by
      have hheld := hplaced.held.contents e.name
      rwa [World.contentsOf_of_entity? hentity, Entity.contents, hr] at hheld
    exact ⟨hcontents, by rw [hcontents]; exact heldBy_nodup ins _⟩
  · intro b hb
    have hinventory : b.inventory = heldBy ins (.being e.name) := by
      have hheld := hplaced.held.inventory e.name
      rwa [World.inventoryOf_of_entity? hentity, Entity.inventory, hb] at hheld
    exact ⟨hinventory, by rw [hinventory]; exact heldBy_nodup ins _⟩

end Session

end Adventure
