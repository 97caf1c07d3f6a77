/-
What every story is like.

A story is sound if what it says of each thing makes sense, no two things go by one key,
and what is said of a thing refers to what the story knows: its kind is one of the kinds,
its exits lead to rooms, and it is placed in or on something.  The last is about two things
at once, so it takes a relation between stories as well: as a story goes on, nothing it
mentions is forgotten, no kind is lost, and what was a room stays one.  A step is then
judged from the story it starts in: it goes on to a sound story, or it fails and the text is
at fault.  Such judgements compose along a sequence of steps, so each fact is followed once,
in the order in which it is taken in.
-/
import Adventure.Proofs.Prose.Records
import Adventure.Proofs.Prose.Sentences
import Adventure.Prose.Story

namespace Adventure

namespace Prose

namespace Story

/-- A thing is known, and was made a room. -/
def IsRoomKey (s : Story) (key : String) : Prop :=
  ∃ r, s.record? key = some r ∧ r.IsRoom

/-- What is said of a thing refers to what the story knows. -/
structure Refers (s : Story) (r : Record) : Prop where
  kind : ∀ k line, r.kind = some (k, line) → k ∈ s.lexicon.kinds.kinds
  exits : ∀ x ∈ r.exits, s.IsRoomKey x.destination
  placement : ∀ p, r.placement = some p → (s.record? p.target).isSome

/-- What is said makes sense, of each thing under a key of its own, and refers to what is
known. -/
structure Sound (v : Vocabulary) (s : Story) : Prop where
  lexicon : s.lexicon.Sound v
  records : ∀ r ∈ s.records, r.Sound v
  keys : (s.records.map (·.key)).Nodup
  refers : ∀ r ∈ s.records, s.Refers r

/-- The story goes on: every kind and everything known is still there, and what was a room
is one. -/
structure GoesOn (s t : Story) : Prop where
  kinds : s.lexicon.kinds.kinds ⊆ t.lexicon.kinds.kinds
  records : ∀ key r, s.record? key = some r → ∃ r', t.record? key = some r' ∧ r.Continues r'

variable {v : Vocabulary} {s t u : Story} {key : String} {r r' : Record}

theorem GoesOn.of_records (hkinds : s.lexicon.kinds.kinds ⊆ t.lexicon.kinds.kinds)
    (h : t.records = s.records) : s.GoesOn t := by
  refine ⟨hkinds, ?_⟩
  intro key r hr
  refine ⟨r, ?_, .of_kind rfl rfl⟩
  rw [record?, h]
  exact hr

theorem GoesOn.refl (s : Story) : s.GoesOn s :=
  .of_records (List.Subset.refl _) rfl

theorem GoesOn.trans (hst : s.GoesOn t) (htu : t.GoesOn u) : s.GoesOn u := by
  refine ⟨List.Subset.trans hst.kinds htu.kinds, ?_⟩
  intro key r hr
  obtain ⟨r₁, hr₁, h₁⟩ := hst.records key r hr
  obtain ⟨r₂, hr₂, h₂⟩ := htu.records key r₁ hr₁
  exact ⟨r₂, hr₂, h₂.name.trans h₁.name, fun h => h₂.room (h₁.room h)⟩

theorem GoesOn.isRoomKey (h : s.GoesOn t) (hkey : s.IsRoomKey key) : t.IsRoomKey key := by
  obtain ⟨r, hr, hroom⟩ := hkey
  obtain ⟨r', hr', hcontinues⟩ := h.records key r hr
  exact ⟨r', hr', hcontinues.room hroom⟩

theorem GoesOn.isSome (h : s.GoesOn t) (hkey : (s.record? key).isSome) :
    (t.record? key).isSome := by
  obtain ⟨r, hr⟩ := Option.isSome_iff_exists.mp hkey
  obtain ⟨r', hr', -⟩ := h.records key r hr
  exact Option.isSome_iff_exists.mpr ⟨r', hr'⟩

/-- What is known stays known, so whatever referred to it still does. -/
theorem GoesOn.refers (h : s.GoesOn t) (hr : s.Refers r) : t.Refers r :=
  ⟨fun k line hk => h.kinds (hr.kind k line hk), fun x hx => h.isRoomKey (hr.exits x hx),
    fun p hp => h.isSome (hr.placement p hp)⟩

theorem sound_empty (v : Vocabulary) (maxWords : Nat) : (empty v maxWords).Sound v :=
  ⟨⟨KindTree.sound_standard, rfl⟩, nofun, List.nodup_nil, nofun⟩

theorem Sound.of_records (hs : s.Sound v) (hlexicon : t.lexicon.Sound v)
    (hkinds : s.lexicon.kinds.kinds ⊆ t.lexicon.kinds.kinds) (h : t.records = s.records) :
    t.Sound v := by
  have hgoes : s.GoesOn t := .of_records hkinds h
  refine ⟨hlexicon, ?_, ?_, ?_⟩
  · rw [h]
    exact hs.records
  · rw [h]
    exact hs.keys
  · rw [h]
    exact fun r hr => hgoes.refers (hs.refers r hr)

/-! ### Records by key -/

theorem key_of_record? (h : s.record? key = some r) : r.key = key := by
  simpa using List.find?_some h

theorem mem_of_record? (h : s.record? key = some r) : r ∈ s.records :=
  List.mem_of_find?_eq_some h

theorem record?_replace (hkey : r'.key = key) (h : s.record? key = some r) (other : String) :
    (s.replace r').record? other = if other = key then some r' else s.record? other := by
  have hcompose : ((fun old : Record => old.key == other) ∘
      fun old => if old.key = r'.key then r' else old) = fun old => old.key == other := by
    funext old
    by_cases hold : old.key = r'.key
    · simp [hold]
    · simp [hold]
  rw [record?, replace, List.find?_map, hcompose, ← record?]
  by_cases hother : other = key
  · rw [if_pos hother, hother, h, Option.map_some, if_pos ((key_of_record? h).trans hkey.symm)]
  · rw [if_neg hother]
    cases hfound : s.record? other with
    | none => rfl
    | some old =>
      have hold : old.key = other := key_of_record? hfound
      rw [Option.map_some, if_neg (by rw [hold, hkey]; exact hother)]

theorem keys_replace (s : Story) (r' : Record) :
    (s.replace r').records.map (·.key) = s.records.map (·.key) := by
  rw [replace, List.map_map]
  refine List.map_congr_left ?_
  intro old _
  by_cases hkeys : old.key = r'.key
  · simp [hkeys]
  · simp [hkeys]

/-- **A record gives way to one that continues it.** -/
theorem Sound.replace (hs : s.Sound v) (h : s.record? key = some r) (hr' : r'.Sound v)
    (hcontinues : r.Continues r') (hrefers : s.Refers r') :
    (s.replace r').Sound v ∧ s.GoesOn (s.replace r') ∧ (s.replace r').record? key = some r' := by
  have hkey : r'.key = key := hcontinues.key.trans (key_of_record? h)
  have hfound := record?_replace hkey h
  have hgoes : s.GoesOn (s.replace r') := by
    refine ⟨List.Subset.refl _, ?_⟩
    intro other old hold
    rw [hfound other]
    by_cases hother : other = key
    · rw [if_pos hother]
      rw [hother, h] at hold
      exact ⟨r', rfl, Option.some.inj hold ▸ hcontinues⟩
    · rw [if_neg hother]
      exact ⟨old, hold, .of_kind rfl rfl⟩
  have hmem : ∀ x ∈ (s.replace r').records, x = r' ∨ x ∈ s.records := by
    intro x hx
    obtain ⟨old, hold, rfl⟩ := List.mem_map.mp hx
    by_cases hkeys : old.key = r'.key
    · rw [if_pos hkeys]
      exact .inl rfl
    · rw [if_neg hkeys]
      exact .inr hold
  refine ⟨⟨hs.lexicon, ?_, ?_, ?_⟩, hgoes, by rw [hfound, if_pos rfl]⟩
  · intro x hx
    rcases hmem x hx with rfl | hx
    · exact hr'
    · exact hs.records x hx
  · rw [keys_replace]
    exact hs.keys
  · intro x hx
    rcases hmem x hx with rfl | hx
    · exact hgoes.refers hrefers
    · exact hgoes.refers (hs.refers x hx)

/-! ### Steps -/

/-- What a step comes to in a story: it goes on to a sound one, of which something holds,
or the text is at fault. -/
def Advances {α : Type} (v : Vocabulary) (m : EStateM Error Story α) (s : Story)
    (Q : α → Story → Prop) : Prop :=
  match m s with
  | .ok a t => t.Sound v ∧ s.GoesOn t ∧ Q a t
  | .error e _ => e.isTextual = true

section Steps

variable {α β : Type} {m : EStateM Error Story α} {f : α → EStateM Error Story β}
variable {Q : α → Story → Prop} {R : β → Story → Prop}

theorem Advances.bind (h : Advances v m s Q)
    (hf : ∀ a t, t.Sound v → s.GoesOn t → Q a t → Advances v (f a) t R) :
    Advances v (m >>= f) s R := by
  unfold Advances at h
  cases hm : m s with
  | error e t =>
    rw [hm] at h
    rw [Advances, run_bind_of_error hm]
    exact h
  | ok a t =>
    rw [hm] at h
    obtain ⟨ht, hst, hQ⟩ := h
    have hnext := hf a t ht hst hQ
    unfold Advances at hnext ⊢
    rw [run_bind_of_ok hm]
    cases hfa : f a t with
    | error e u =>
      rw [hfa] at hnext
      exact hnext
    | ok b u =>
      rw [hfa] at hnext
      exact ⟨hnext.1, hst.trans hnext.2.1, hnext.2.2⟩

theorem Advances.weaken {Q' : α → Story → Prop} (h : Advances v m s Q)
    (hQ : ∀ a t, Q a t → Q' a t) : Advances v m s Q' := by
  unfold Advances at h ⊢
  cases hm : m s with
  | error e t =>
    rw [hm] at h
    exact h
  | ok a t =>
    rw [hm] at h
    exact ⟨h.1, h.2.1, hQ a t h.2.2⟩

theorem advances_pure (hs : s.Sound v) {a : α} (h : Q a s) : Advances v (pure a) s Q :=
  ⟨hs, .refl s, h⟩

theorem advances_get (hs : s.Sound v) {Q : Story → Story → Prop} (h : Q s s) :
    Advances v get s Q :=
  ⟨hs, .refl s, h⟩

/-- A change that leaves the kinds and the things alone. -/
theorem advances_modify (hs : s.Sound v) {f : Story → Story} {Q : Unit → Story → Prop}
    (hlexicon : (f s).lexicon = s.lexicon) (hrecords : (f s).records = s.records)
    (h : Q () (f s)) : Advances v (modify f) s Q := by
  have hkinds : s.lexicon.kinds.kinds ⊆ (f s).lexicon.kinds.kinds := by
    rw [hlexicon]
    exact List.Subset.refl _
  refine ⟨hs.of_records ?_ hkinds hrecords, .of_records hkinds hrecords, h⟩
  rw [hlexicon]
  exact hs.lexicon

/-- **What advances the story, however far it went on, can be repeated.** -/
theorem advances_forM {f : α → EStateM Error Story PUnit} {as : List α} (hs : s.Sound v)
    (h : ∀ a ∈ as, ∀ t : Story, t.Sound v → s.GoesOn t → Advances v (f a) t fun _ _ => True) :
    Advances v (as.forM f) s fun _ _ => True := by
  induction as generalizing s with
  | nil => exact advances_pure hs trivial
  | cons a as ih =>
    refine (h a (List.mem_cons_self ..) s hs (.refl s)).bind ?_
    intro _ t ht hst _
    exact ih ht fun b hb u hu htu => h b (List.mem_cons_of_mem _ hb) u hu (hst.trans htu)

end Steps

/-- A statement about a thing that keeps what is said of it sound. -/
theorem advances_revise (hs : s.Sound v) (key : String) (line : Nat)
    {f : Record → Except Conflict Record}
    (hf : ∀ r r', s.record? key = some r → r.Sound v → s.Refers r → f r = .ok r' →
      r'.Sound v ∧ r.Continues r' ∧ s.Refers r') :
    Advances v (revise key line f) s fun _ t =>
      ∀ r, s.record? key = some r → ∃ r', f r = .ok r' ∧ t.record? key = some r' := by
  unfold Advances revise
  cases hr : s.record? key with
  | none => exact ⟨hs, .refl s, nofun⟩
  | some r =>
    dsimp only
    cases hfr : f r with
    | error c => rfl
    | ok r' =>
      have hmem := mem_of_record? hr
      obtain ⟨hr', hcontinues, hrefers⟩ := hf r r' hr (hs.records r hmem) (hs.refers r hmem) hfr
      obtain ⟨hsound, hgoes, hfound⟩ := hs.replace hr hr' hcontinues hrefers
      refine ⟨hsound, hgoes, ?_⟩
      rintro r₁ ⟨⟩
      exact ⟨r', hfr, hfound⟩

end Story

end Prose

end Adventure
