/-
Players join a game.

Players come after everything else.  No operation puts them where they begin: each is a copy of
the template for players that is told to be in the start room, if there is one.  So the rest of
the game stays as it is, and the names of the entities go on leading to all their positions, but
the start room is never told about its players.

What has to be known of a compiled game is that whoever is in a room stands once in its list,
that only things are in rooms, and that the template is nowhere.  Each operation keeps this.
-/
import Adventure.Proofs.Holding
import Adventure.Proofs.Jobs
import Adventure.Proofs.Mirrors

namespace Adventure

namespace World

/-! ### Where things are -/

/-- If the entity is in a room, it stands in the list of that room once. -/
def Lists (w : World) (e : Entity) : Prop :=
  ∀ r ∈ w.entities, ∀ room, r.room? = some room → e.location = some r.name →
    room.contents.count e.name = 1

/-- Rooms and things tell the same about who is where. -/
structure Contained (w : World) : Prop where
  listed : ∀ e ∈ w.entities, w.Lists e
  /-- Whatever stands in the list of a room is a thing, and it is there. -/
  located : ∀ r ∈ w.entities, ∀ room, r.room? = some room → ∀ name ∈ room.contents,
    ∃ e ∈ w.entities, e.name = name ∧ e.type.isA .thing ∧ e.location = some r.name

/-- Everything is where it was put, and only things were put anywhere. -/
structure Settled (w : World) : Prop where
  held : ∃ ins, w.HeldAs ins
  things : ∀ name room, w.locationOf? name = some room →
    ∃ type, w.typeOf? name = some type ∧ type.isA .thing
  template : w.defaultPlayer.location = none

end World

namespace Execution

variable {s : Surroundings} {v : Vocabulary} {op : Operation} {ops : List Operation}
variable {x x' : Execution World}

end Execution

/-! ### Players -/

namespace World

variable {w w' : World} {names : List String} {name : String}

/-- The player that a name is given to: a copy of the template in the start room, if there is
one. -/
def newPlayer (w : World) (name : String) : Entity :=
  { w.defaultPlayer.copyAs name EntityType.player.name with
    location := if w.startRoom?.isSome then some startRoom else none }

/-- A world that players can join: its names tell its entities apart, and its template is a
player who is nowhere. -/
structure Hosts (w : World) : Prop where
  names : (w.entities.map (·.name)).Nodup
  template : w.defaultPlayer.type = .player
  nowhere : w.defaultPlayer.location = none

/-- The second world is the first with new players of some free names. -/
structure Joined (w w' : World) (fresh : List String) : Prop where
  rest : w' = { w with population := w'.population }
  entities : w'.entities = w.entities ++ fresh.map w.newPlayer
  known : ∀ name, w'.entity? name = if name ∈ fresh then some (w.newPlayer name) else w.entity? name
  free : ∀ name ∈ fresh, w.entity? name = none
  nodup : fresh.Nodup

section Joined

variable {fresh : List String}

theorem Joined.refl (w : World) : Joined w w [] :=
  ⟨rfl, (List.append_nil _).symm, fun _ => by simp, fun _ h => absurd h List.not_mem_nil,
    List.nodup_nil⟩

theorem room?_newPlayer (hw : w.Hosts) (name : String) : (w.newPlayer name).room? = none := by
  have htype : (w.newPlayer name).type = .player := hw.template
  unfold Entity.room?
  split
  · rename_i room hd
    rw [Entity.type, hd] at htype
    cases htype
  · rfl

/-- The rooms are those that were there, and they know nobody new. -/
theorem Joined.room (h : Joined w w' fresh) (hw : w.Hosts) {r : Entity} {room : Room}
    (hr : r ∈ w'.entities) (hroom : r.room? = some room) : r ∈ w.entities := by
  rw [h.entities, List.mem_append, List.mem_map] at hr
  rcases hr with hr | ⟨name, -, rfl⟩
  · exact hr
  · rw [room?_newPlayer hw] at hroom
    cases hroom

/-- Nobody who was there has the name of someone new. -/
theorem Joined.not_mem_fresh (h : Joined w w' fresh) (hw : w.Hosts) {e : Entity}
    (he : e ∈ w.entities) : e.name ∉ fresh := by
  intro hfresh
  have hknown := Population.get?_of_mem hw.names he
  rw [show w.population.get? e.name = none from h.free _ hfresh] at hknown
  cases hknown

/-- Whatever stands in the list of a room was there, and goes on to be there. -/
theorem Joined.located (h : Joined w w' fresh) (hw : w.Hosts) (hc : w.Contained) {r : Entity}
    (hr : r ∈ w'.entities) {room : Room} (hroom : r.room? = some room) {name : String}
    (hname : name ∈ room.contents) :
    name ∉ fresh ∧ ∃ e ∈ w'.entities, e.name = name ∧ e.type.isA .thing ∧
      e.location = some r.name := by
  obtain ⟨e, he, rfl, hrest⟩ := hc.located r (h.room hw hr hroom) room hroom name hname
  refine ⟨h.not_mem_fresh hw he, e, ?_, rfl, hrest⟩
  rw [h.entities]
  exact List.mem_append_left _ he

end Joined

end World

namespace Compilation

variable {files : Files} {format : SourceFormat} {config : Config} {source : String} {w : World}

end Compilation

end Adventure
