/-
What comes of a checked operation.

Every opcode has its change, and in a world that has what was declared a checked change
succeeds, or it is refused and has changed nothing.  When it succeeds the world has
what is declared from then on, and everything is held as before, unless the operation
is one that moves a thing.
-/
import Adventure.Proofs.Definitions
import Adventure.Proofs.Handlers
import Adventure.Proofs.Moves

namespace Adventure

namespace World

variable {s : Surroundings} {v : Vocabulary} {d : Declarations} {w w' : World} {op : Operation}
variable {value : Option Value} {m : Change Unit}

/-- What an operation that succeeds does to what is held. -/
def Follows (op : Operation) (w w' : World) : Prop :=
  match op.insertion? with
  | some (thing, holder) => Moved thing holder w w'
  | none => w.SameHolding w'

/-- A change comes to what the declarations will say, or is refused. -/
def Settles (s : Surroundings) (d : Declarations) (op : Operation) (value : Option Value)
    (m : Change Unit) (w : World) : Prop :=
  (∃ w', m w = .ok () w' ∧ Consistent (d.note op value) w' ∧ Follows op w w') ∨
    ∃ e, m w = .error e w ∧ Refused s op e

/-- Most opcodes neither declare an entity or a class nor move a thing. -/
theorem settles_of_comesTo (hc : Consistent d w) {opcode : Opcode} (hop : op.opcode = opcode)
    (hquiet : opcode ∉ [.defineEntity, .defineEntityClass, .insertIntoPlace, .insertIntoInventory])
    (h : ComesTo m w (Refused s op)) : Settles s d op value m w := by
  simp only [List.mem_cons, List.not_mem_nil, or_false, not_or, ← hop] at hquiet
  obtain ⟨hentity, hclass, hplace, hinventory⟩ := hquiet
  rcases h with ⟨w', hok, hkeeps⟩ | hrefused
  · refine .inl ⟨w', hok, hc.of_keeps hkeeps (d.note_sameNames hentity hclass value), ?_⟩
    have hmove : op.insertion? = none := by
      unfold Operation.insertion?
      split
      · next h => exact absurd h hplace
      · next h => exact absurd h hinventory
      · rfl
    rw [Follows, hmove]
    exact hkeeps.holding
  · exact .inr hrefused

theorem settles_of_definition (h : ∃ w', m w = .ok () w' ∧ Consistent (d.note op value) w' ∧
    w.SameHolding w') (hmove : op.insertion? = none) : Settles s d op value m w := by
  obtain ⟨w', hok, hc, hsame⟩ := h
  refine .inl ⟨w', hok, hc, ?_⟩
  rw [Follows, hmove]
  exact hsame

theorem settles_of_moved (hc : Consistent d w) {thing : String} {holder : Holder}
    (h : ∃ w', m w = .ok () w' ∧ Moved thing holder w w')
    (hroom : ∀ room, holder = .room room → ∃ t, d.entityType? room = some t ∧ t.isA .place)
    (hbeing : ∀ being, holder = .being being → ∃ t, d.entityType? being = some t ∧ t.isA .being)
    (hmove : op.insertion? = some (thing, holder)) : Settles s d op value m w := by
  obtain ⟨w', hok, hmoved⟩ := h
  have hentity : op.opcode ≠ .defineEntity := by
    intro hop
    simp [Operation.insertion?, hop] at hmove
  have hclass : op.opcode ≠ .defineEntityClass := by
    intro hop
    simp [Operation.insertion?, hop] at hmove
  refine .inl ⟨w', hok, ?_, ?_⟩
  · have hw' : Consistent d w' := hc.of_moved hmoved hroom hbeing
    exact hw'.of_keeps (.of_eq rfl rfl rfl) (d.note_sameNames hentity hclass value)
  · rw [Follows, hmove]
    exact hmoved

/-- There is something to do for every opcode. -/
theorem builder_handles (s : Surroundings) (op : Opcode) :
    ∃ action, (builder s).actionFor? op = some action := by
  cases op <;> exact ⟨_, rfl⟩

/-- **What comes of a checked operation**, whatever it is, in a world that has what was
declared. -/
theorem settles_of_check (hc : Consistent d w) (hcheck : Validation.check v d op = .ok value)
    {action : Operation → Option Value → Change Unit}
    (haction : (builder s).actionFor? op.opcode = some action) :
    Settles s d op value (action op value) w := by
  unfold Validation.check at hcheck
  cases hop : op.opcode <;> rw [hop] at hcheck haction <;> obtain rfl := Option.some.inj haction
  case defineEntity =>
    exact settles_of_definition (defineEntity_ok hc hop hcheck)
      (by simp [Operation.insertion?, hop])
  case defineEntityClass =>
    exact settles_of_definition (defineClass_ok hc hop hcheck) (by simp [Operation.insertion?, hop])
  case insertIntoPlace =>
    obtain ⟨-, -, hplace, -⟩ := Validation.insertIntoPlace_ok_iff.mp hcheck
    refine settles_of_moved hc (insertIntoPlace_ok hc hcheck) ?_ nofun
      (by simp [Operation.insertion?, hop])
    rintro room ⟨⟩
    exact hplace
  case insertIntoInventory =>
    obtain ⟨-, -, hbeing, -⟩ := Validation.insertIntoInventory_ok_iff.mp hcheck
    refine settles_of_moved hc (insertIntoInventory_ok hc hcheck) nofun ?_
      (by simp [Operation.insertion?, hop])
    rintro being ⟨⟩
    exact hbeing
  case defineDirection => exact settles_of_comesTo hc hop (by decide) (changeSettings_comesTo _ w _)
  case defineDirectionSynonym =>
    exact settles_of_comesTo hc hop (by decide) (changeSettings_comesTo _ w _)
  case defineVerbSynonym =>
    exact settles_of_comesTo hc hop (by decide) (changeSettings_comesTo _ w _)
  case setTimerPeriod =>
    exact settles_of_comesTo hc hop (by decide) (setTimerPeriod_comesTo hcheck)
  case setMessage =>
    exact settles_of_comesTo hc hop (by decide) (setMessage_comesTo hc hop hcheck)
  case setEvent => exact settles_of_comesTo hc hop (by decide) (setEvent_comesTo hc hop hcheck)
  case setMeta => exact settles_of_comesTo hc hop (by decide) (setMetadata_comesTo hc hop hcheck)
  case setTag =>
    exact settles_of_comesTo hc hop (by decide) (setTag_comesTo hc (.inl hop) hcheck true)
  case removeTag =>
    exact settles_of_comesTo hc hop (by decide) (setTag_comesTo hc (.inr hop) hcheck false)
  case setAlias => exact settles_of_comesTo hc hop (by decide) (addAlias_comesTo hc hop hcheck)
  case setAttribute =>
    exact settles_of_comesTo hc hop (by decide) (setAttribute_comesTo hc hop hcheck)
  case connectRooms =>
    exact settles_of_comesTo hc hop (by decide) (connectRooms_comesTo hc hop hcheck)
  case setProperty =>
    exact settles_of_comesTo hc hop (by decide) (setProperty_comesTo hc hop hcheck)
  case loadScript => exact settles_of_comesTo hc hop (by decide) (loadScript_comesTo hc hop hcheck)
  case allocateResource =>
    exact settles_of_comesTo hc hop (by decide) (allocateResource_comesTo hc hop hcheck)

end World

end Adventure
