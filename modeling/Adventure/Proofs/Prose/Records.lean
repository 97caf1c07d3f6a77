/-
What statements about a thing keep.

A thing that was made a room stays a room, because a second kind has to be related to
the first and the more special one is kept.  Only rooms have exits, and every exit goes
in a direction of its own; it is one that there is, unless the way back from a direction is
none.  No property is both asserted and denied.  Each kind of statement is looked at once:
it sets one part of what is said of a thing, and none of them changes what the thing is
called.
-/
import Adventure.Proofs.Outcome
import Adventure.Proofs.Prose.Kinds

namespace Adventure

/-- The direction back from a direction is a direction as well. -/
def Vocabulary.LeadsBack (v : Vocabulary) : Prop :=
  ∀ direction back, v.opposite? direction = some back → v.isDirection back = true

namespace Prose

namespace Record

/-- The thing was made a room, or a kind of room. -/
def IsRoom (r : Record) : Prop :=
  ∃ k line, r.kind = some (k, line) ∧ k.isA .room = true

/-- What was said of the thing makes sense: it has a name, there are entities of its
kind, its properties are properties and each is asserted or denied, and only if it is a
room it has exits, in one direction each. -/
structure Sound (v : Vocabulary) (r : Record) : Prop where
  named : Text.EndsSolid r.name.toList
  kind : ∀ k line, r.kind = some (k, line) → k.Fit
  assertions : ∀ a ∈ r.assertions, a.property ∈ Property.all
  decided : ∀ a ∈ r.assertions, ∀ b ∈ r.assertions, a.property = b.property →
    a.negated = b.negated
  directions : v.LeadsBack → ∀ x ∈ r.exits, v.isDirection x.direction = true
  apart : (r.exits.map (·.direction)).Nodup
  exits : r.exits ≠ [] → r.IsRoom

/-- The same thing, with a kind that is no less special. -/
structure Continues (r r' : Record) : Prop where
  name : r'.name = r.name
  room : r.IsRoom → r'.IsRoom

variable {v : Vocabulary} {r r' : Record}

theorem Continues.key (h : r.Continues r') : r'.key = r.key := by
  rw [Record.key, h.name]
  rfl

theorem Continues.of_kind (hname : r'.name = r.name) (hkind : r'.kind = r.kind) :
    r.Continues r' := by
  refine ⟨hname, ?_⟩
  rintro ⟨k, line, hk, hroom⟩
  exact ⟨k, line, hkind.trans hk, hroom⟩

theorem sound_fresh {name : String} (h : Text.EndsSolid name.toList) (line : Nat) :
    (fresh name line).Sound v where
  named := h
  kind := nofun
  assertions := nofun
  decided := nofun
  directions _ := nofun
  apart := List.nodup_nil
  exits hne := absurd rfl hne

/-! ### Kinds -/

/-- The kind that is kept is of the new kind and of the earlier one, and is one of them. -/
theorem mergeKind_ok {kind merged : Kind} (h : r.mergeKind kind = .ok merged) :
    merged.isA kind = true ∧ (∀ k line, r.kind = some (k, line) → merged.isA k = true) ∧
      (merged = kind ∨ ∃ line, r.kind = some (merged, line)) := by
  unfold mergeKind at h
  split at h
  · next hnone =>
    rw [pure_ok_iff.mp h, hnone]
    exact ⟨kind.isA_refl, nofun, .inl rfl⟩
  · next earlier line hsome =>
    rw [guard_ok_iff] at h
    obtain ⟨hrelated, h⟩ := h
    rw [pure_ok_iff.mp h, hsome]
    by_cases hisA : earlier.isA kind = true
    · rw [if_pos hisA]
      refine ⟨hisA, ?_, .inr ⟨line, rfl⟩⟩
      rintro k l ⟨⟩
      exact earlier.isA_refl
    · rw [if_neg hisA]
      refine ⟨kind.isA_refl, ?_, .inl rfl⟩
      rintro k l ⟨⟩
      simpa [Kind.related, hisA] using hrelated

/-- **A thing that is given a kind has that kind from then on**, and is still what it was. -/
theorem setKind_ok {kind : Kind} {line : Nat} (hr : r.Sound v) (hkind : kind.Sound)
    (h : r.setKind kind line = .ok r') :
    r'.Sound v ∧ r.Continues r' ∧
      ∃ merged l, r' = { r with kind := some (merged, l) } ∧ merged.isA kind = true ∧
        (merged = kind ∨ ∃ l, r.kind = some (merged, l)) := by
  simp only [setKind, throw_bind, guard_ok_iff, bind_ok_iff] at h
  obtain ⟨hsupported, merged, hmerge, h⟩ := h
  obtain ⟨hnew, hearlier, hone⟩ := mergeKind_ok hmerge
  split at h
  · simp at h
  · rw [pure_ok_iff.mp h]
    have hfit : merged.Fit := by
      rcases hone with rfl | ⟨l, hl⟩
      · exact ⟨hkind, by simpa [Option.isSome_iff_ne_none] using hsupported⟩
      · exact hr.kind merged l hl
    have hroom : ∀ k l, r.kind = some (k, l) → k.isA .room = true → merged.isA .room = true :=
      fun k l hk hroom => Kind.isA_trans (hearlier k l hk) hroom
    refine ⟨⟨hr.named, ?_, hr.assertions, hr.decided, hr.directions, hr.apart, ?_⟩, ⟨rfl, ?_⟩,
      merged, _, rfl, hnew, hone⟩
    · rintro k l ⟨⟩
      exact hfit
    · intro hexits
      obtain ⟨k, l, hk, hkroom⟩ := hr.exits hexits
      exact ⟨merged, _, rfl, hroom k l hk hkroom⟩
    · rintro ⟨k, l, hk, hkroom⟩
      exact ⟨merged, _, rfl, hroom k l hk hkroom⟩

/-! ### Properties, exits and places -/

/-- What is claimed agrees with whatever was said of the same property. -/
theorem claim_agrees {a : Assertion} (h : r.claim a = .ok r') :
    r' = r.addAssertion a ∧
      ∀ b ∈ r.assertions, b.property = a.property → b.negated = a.negated := by
  unfold claim at h
  split at h
  · simp at h
  · next hnone =>
    refine ⟨?_, ?_⟩
    · split at h
      · obtain ⟨_, -, h⟩ := bind_ok_iff.mp h
        exact pure_ok_iff.mp h
      · exact pure_ok_iff.mp h
    · intro b hb hproperty
      have hcontradicts := List.find?_eq_none.mp hnone b hb
      simpa [Assertion.contradicts, hproperty] using hcontradicts

theorem claim_ok {a : Assertion} (hr : r.Sound v) (ha : a.property ∈ Property.all)
    (h : r.claim a = .ok r') :
    r'.Sound v ∧ r.Continues r' ∧ ∃ assertions, r' = { r with assertions } := by
  obtain ⟨rfl, hagrees⟩ := claim_agrees h
  rw [addAssertion]
  split
  · exact ⟨hr, .of_kind rfl rfl, r.assertions, rfl⟩
  · have hmem : ∀ b ∈ r.assertions ++ [a], b ∈ r.assertions ∨ b = a := by
      intro b hb
      rwa [List.mem_append, List.mem_singleton] at hb
    refine ⟨⟨hr.named, hr.kind, ?_, ?_, hr.directions, hr.apart, hr.exits⟩, .of_kind rfl rfl, _,
      rfl⟩
    · intro b hb
      rcases hmem b hb with hb | rfl
      · exact hr.assertions b hb
      · exact ha
    · intro b hb c hc hproperty
      rcases hmem b hb with hold | rfl
      · rcases hmem c hc with hold' | rfl
        · exact hr.decided b hold c hold' hproperty
        · exact hagrees b hold hproperty
      · rcases hmem c hc with hold | rfl
        · exact (hagrees c hold hproperty.symm).symm
        · rfl

theorem addExit_ok {exit : Exit} (hr : r.Sound v) (hroom : r.IsRoom)
    (hdirection : v.LeadsBack → v.isDirection exit.direction = true)
    (h : r.addExit exit = .ok r') :
    r'.Sound v ∧ r.Continues r' ∧
      ∃ exits, r' = { r with exits } ∧ ∀ x ∈ exits, x ∈ r.exits ∨ x = exit := by
  unfold addExit at h
  split at h
  · rw [pure_ok_iff.mp (guard_not_ok_iff.mp h).2]
    exact ⟨hr, .of_kind rfl rfl, r.exits, rfl, fun x hx => .inl hx⟩
  · next hnone =>
    rw [pure_ok_iff.mp h]
    have hmem : ∀ x ∈ r.exits ++ [exit], x ∈ r.exits ∨ x = exit := by
      intro x hx
      rwa [List.mem_append, List.mem_singleton] at hx
    refine ⟨⟨hr.named, hr.kind, hr.assertions, hr.decided, ?_, ?_, fun _ => hroom⟩,
      .of_kind rfl rfl, _, rfl, hmem⟩
    · intro hv x hx
      rcases hmem x hx with hx | rfl
      · exact hr.directions hv x hx
      · exact hdirection hv
    · rw [List.map_append, List.map_singleton, List.nodup_append]
      refine ⟨hr.apart, List.nodup_singleton _, ?_⟩
      intro other hother last hlast
      obtain ⟨x, hx, rfl⟩ := List.mem_map.mp hother
      rw [List.mem_singleton.mp hlast]
      simpa using List.find?_eq_none.mp hnone x hx

theorem place_ok {p : Placement} (hr : r.Sound v) (h : r.place p = .ok r') :
    r'.Sound v ∧ r.Continues r' ∧ r' = { r with placement := some p } := by
  have heq : r' = { r with placement := some p } := by
    unfold place at h
    split at h
    · exact pure_ok_iff.mp (guard_not_ok_iff.mp h).2
    · exact pure_ok_iff.mp h
  rw [heq]
  exact ⟨⟨hr.named, hr.kind, hr.assertions, hr.decided, hr.directions, hr.apart, hr.exits⟩,
    .of_kind rfl rfl, rfl⟩

/-! ### Kinds that are settled on -/

/-- A thing that was given no kind is settled on one of the standard rules that makes
entities. -/
theorem settledKind_of_none (hr : r.Sound v) (h : r.kind = none) :
    r.settledKind ∈ KindTree.standard.kinds ∧ r.settledKind.type?.isSome = true := by
  rw [settledKind, h]
  dsimp only
  cases hfind : (candidates (r.plain.map (·.property))).find? (·.type?.isSome) with
  | none => exact ⟨by decide, rfl⟩
  | some k =>
    refine ⟨mem_standard_of_mem_candidates ?_ (List.mem_of_find?_eq_some hfind),
      by simpa using List.find?_some hfind⟩
    intro p hp
    obtain ⟨a, ha, rfl⟩ := List.mem_map.mp hp
    exact hr.assertions a (List.mem_filter.mp ha).1

theorem settledKind_of_some {k : Kind} {line : Nat} (h : r.kind = some (k, line)) :
    r.settledKind = k := by
  rw [settledKind, h]

/-- There are entities of whatever kind a thing is settled on. -/
theorem fit_settledKind (hr : r.Sound v) : r.settledKind.Fit := by
  cases hkind : r.kind with
  | none =>
    obtain ⟨hmem, hsupported⟩ := settledKind_of_none hr hkind
    exact ⟨KindTree.sound_standard.kinds _ hmem, hsupported⟩
  | some given =>
    obtain ⟨k, line⟩ := given
    rw [settledKind_of_some hkind]
    exact hr.kind k line hkind

/-- A thing is settled on a kind of the tree from which its kind was taken. -/
theorem settledKind_mem {t : KindTree} (hr : r.Sound v) (ht : t.Sound)
    (hkind : ∀ k line, r.kind = some (k, line) → k ∈ t.kinds) : r.settledKind ∈ t.kinds := by
  cases hk : r.kind with
  | none => exact ht.builtin (settledKind_of_none hr hk).1
  | some given =>
    obtain ⟨k, line⟩ := given
    rw [settledKind_of_some hk]
    exact hkind k line hk

/-- A thing that was made a room is settled on a kind of room. -/
theorem IsRoom.settledKind (h : r.IsRoom) : r.settledKind.isA .room = true := by
  obtain ⟨k, line, hk, hroom⟩ := h
  rwa [settledKind_of_some hk]

end Record

end Prose

end Adventure
