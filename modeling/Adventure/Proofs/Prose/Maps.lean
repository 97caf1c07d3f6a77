/-
Maps that run both ways.

Only a location clause connects rooms.  It says two things at once: that a room lies in a
direction from an origin, and, where the direction has an opposite, that the origin lies that
way from the room.  Each of the two exits is either there already or added, or else the clause
is refused; nothing takes an exit away.  So when a source has been read, the exits are just
those that its location clauses say, each clause both ways, however often and in whatever order
the clauses stand.

In English the opposite of an opposite is the direction itself.  What the clauses say is
therefore the same from either end, and as no two things become entities of one name, so are
the exits of the entities.
-/
import Adventure.Proofs.Prose.Coherence
import Adventure.Proofs.Prose.Portrayal

namespace Adventure

/-- Every direction is in lowercase and has an opposite, whose opposite it is. -/
def Vocabulary.Reversible (v : Vocabulary) : Prop :=
  ∀ direction, v.isDirection direction = true → Text.lower direction = direction ∧
    ∃ back, v.opposite? direction = some back ∧ v.opposite? back = some direction

theorem Vocabulary.english_reversible : english.Reversible := by
  have hdirections : ∀ p ∈ englishDirections, Text.lower p.1 = p.1 ∧
      english.opposite? p.1 = some p.2.1 ∧ english.opposite? p.2.1 = some p.1 := by
    decide +kernel
  intro direction h
  rw [isDirection, Std.ExtTreeMap.contains_eq_isSome_getElem?, english_directions] at h
  obtain ⟨opposite, hlookup⟩ := Option.isSome_iff_exists.mp h
  obtain ⟨p, hp, heq⟩ := List.mem_map.mp (NameTable.mem_of_lookup hlookup)
  obtain ⟨rfl, -⟩ := Prod.mk.inj heq
  obtain ⟨hlower, hthere, hback⟩ := hdirections p hp
  exact ⟨hlower, p.2.1, hthere, hback⟩

theorem Vocabulary.isDirection_of_opposite? {v : Vocabulary} {direction back : String}
    (h : v.opposite? direction = some back) : v.isDirection direction = true := by
  rw [opposite?, Option.join_eq_some_iff] at h
  rw [isDirection, Std.ExtTreeMap.contains_eq_isSome_getElem?, h]
  rfl

namespace Prose

/-- Two ends that a fact connects: a direction leads from the first to the second.  Where a
room lies is said of both ends. -/
inductive Fact.Connects (v : Vocabulary) : Fact → String → String → String → Prop
  | there (room : Mention) (direction : String) (origin : Mention) (line : Nat) :
    Connects v (.location room direction origin line) origin.key direction room.key
  | back (room : Mention) (direction : String) (origin : Mention) (line : Nat) {back : String}
    (h : v.opposite? direction = some back) :
    Connects v (.location room direction origin line) room.key back origin.key

namespace Story

/-- A thing has an exit in a direction to another. -/
def Leads (s : Story) (here direction there : String) : Prop :=
  ∃ r, s.record? here = some r ∧ ∃ x ∈ r.exits, x.direction = direction ∧ x.destination = there

variable {v : Vocabulary} {s t : Story} {key here direction there : String}

/-! ### Steps that connect nothing -/

/-- After the step there are the same exits as before. -/
def KeepsExits {α : Type} (m : EStateM Error Story α) : Prop :=
  ∀ s a t, m s = .ok a t → ∀ here direction there,
    t.Leads here direction there ↔ s.Leads here direction there

section Steps

variable {α β : Type} {m : EStateM Error Story α} {f : α → EStateM Error Story β}

theorem leads_of_records (h : t.records = s.records) :
    t.Leads here direction there ↔ s.Leads here direction there := by
  unfold Leads record?
  rw [h]

/-- A step that leaves the records alone. -/
theorem keepsExits_of_records (h : ∀ s a t, m s = .ok a t → t.records = s.records) :
    KeepsExits m :=
  fun s a t ht _ _ _ => leads_of_records (h s a t ht)

theorem keepsExits_pure (a : α) : KeepsExits (pure a) :=
  keepsExits_of_records (by rintro s _ t ⟨⟩; rfl)

theorem keepsExits_get : KeepsExits get :=
  keepsExits_of_records (by rintro s _ t ⟨⟩; rfl)

theorem keepsExits_throw (e : Error) : KeepsExits (throw e : EStateM Error Story α) := by
  intro s a t ht
  cases ht

theorem keepsExits_modify {g : Story → Story} (h : ∀ s, (g s).records = s.records) :
    KeepsExits (modify g) :=
  keepsExits_of_records (by rintro s _ t ⟨⟩; exact h s)

theorem KeepsExits.bind (hm : KeepsExits m) (hf : ∀ a, KeepsExits (f a)) :
    KeepsExits (m >>= f) := by
  intro s b t ht here direction there
  obtain ⟨a, u, hu, ht⟩ := run_bind_ok_iff.mp ht
  exact (hf a u b t ht here direction there).trans (hm s a u hu here direction there)

theorem keepsExits_forM {f : α → EStateM Error Story PUnit} {as : List α}
    (h : ∀ a ∈ as, KeepsExits (f a)) : KeepsExits (as.forM f) := by
  induction as with
  | nil => exact keepsExits_pure ()
  | cons a rest ih =>
    exact (h a (List.mem_cons_self ..)).bind fun _ =>
      ih fun b hb => h b (List.mem_cons_of_mem _ hb)

end Steps

/-- What is known under the key of a record that was put in the place of another. -/
theorem leads_replace {r r' : Record} (hr : s.record? key = some r) (hname : r'.name = r.name) :
    (s.replace r').Leads here direction there ↔
      if here = key then ∃ x ∈ r'.exits, x.direction = direction ∧ x.destination = there
      else s.Leads here direction there := by
  have hkey : r'.key = key := by rw [Record.key, hname, ← key_of_record? hr, Record.key]
  unfold Leads
  rw [record?_replace hkey hr]
  by_cases hhere : here = key
  · simp [hhere]
  · simp [hhere]

/-- A statement that leaves the exits of a thing alone. -/
theorem keepsExits_revise (key : String) (line : Nat) {f : Record → Except Conflict Record}
    (hf : ∀ r r', f r = .ok r' → r'.name = r.name ∧ r'.exits = r.exits) :
    KeepsExits (revise key line f) := by
  intro s _ t h here direction there
  unfold revise at h
  split at h
  · obtain rfl := (EStateM.Result.ok.inj h).2
    rfl
  · rename_i r hr
    split at h
    · rename_i r' hr'
      obtain rfl := (EStateM.Result.ok.inj h).2
      obtain ⟨hname, hexits⟩ := hf r r' hr'
      rw [leads_replace hr hname, hexits]
      by_cases hhere : here = key
      · simp [hhere, Leads, hr]
      · rw [if_neg hhere]
    · cases h

/-- A thing that is new has no exits. -/
theorem keepsExits_mention (m : Mention) : KeepsExits (mention m) := by
  intro s key t h here direction there
  unfold mention at h
  dsimp only at h
  split at h
  · cases h
  · split at h
    · obtain rfl := (EStateM.Result.ok.inj h).2
      rfl
    · obtain rfl := (EStateM.Result.ok.inj h).2
      unfold Leads record?
      rw [List.find?_append]
      cases hfound : s.records.find? (·.key == here) with
      | some r => rfl
      | none =>
        by_cases hhere : (Record.fresh m.name m.line).key = here
        · simp [Record.fresh]
        · simp [hhere]

theorem keepsExits_setSubjects (things : List Mention) : KeepsExits (setSubjects things) := by
  have hmapM : KeepsExits (things.mapM mention) := by
    induction things with
    | nil => exact keepsExits_pure []
    | cons m rest ih =>
      rw [List.mapM_cons]
      exact (keepsExits_mention m).bind fun _ => ih.bind fun _ => keepsExits_pure _
  refine keepsExits_get.bind ?_
  intro s
  dsimp only
  split
  · exact keepsExits_throw _
  · exact hmapM.bind fun _ => keepsExits_modify fun _ => rfl

/-! ### Statements about a thing -/

theorem exits_of_setKind {r r' : Record} {kind : Kind} {line : Nat}
    (h : r.setKind kind line = .ok r') : r'.name = r.name ∧ r'.exits = r.exits := by
  simp only [Record.setKind, throw_bind, guard_ok_iff, bind_ok_iff] at h
  obtain ⟨-, merged, -, h⟩ := h
  split at h
  · simp at h
  · rw [pure_ok_iff.mp h]
    exact ⟨rfl, rfl⟩

theorem exits_of_claim {r r' : Record} {a : Assertion} (h : r.claim a = .ok r') :
    r'.name = r.name ∧ r'.exits = r.exits := by
  obtain ⟨-, -, rfl⟩ := Record.checks_of_claim h
  unfold Record.addAssertion
  split
  · exact ⟨rfl, rfl⟩
  · exact ⟨rfl, rfl⟩

theorem exits_of_place {r r' : Record} {p : Placement} (h : r.place p = .ok r') :
    r'.name = r.name ∧ r'.exits = r.exits := by
  unfold Record.place at h
  split at h
  · rw [pure_ok_iff.mp (guard_not_ok_iff.mp h).2]
    exact ⟨rfl, rfl⟩
  · rw [pure_ok_iff.mp h]
    exact ⟨rfl, rfl⟩

/-- **An exit that is added leads where it says**, whether it was there or not, and every other
exit leads where it did. -/
theorem exits_of_addExit {r r' : Record} {exit : Exit} (h : r.addExit exit = .ok r')
    (direction there : String) :
    r'.name = r.name ∧ ((∃ x ∈ r'.exits, x.direction = direction ∧ x.destination = there) ↔
      (∃ x ∈ r.exits, x.direction = direction ∧ x.destination = there) ∨
        exit.direction = direction ∧ exit.destination = there) := by
  unfold Record.addExit at h
  split at h
  · rename_i earlier hfound
    obtain ⟨hsame, h⟩ := guard_not_ok_iff.mp h
    obtain rfl := pure_ok_iff.mp h
    have hdirection : earlier.direction = exit.direction := by simpa using List.find?_some hfound
    refine ⟨rfl, or_iff_left_of_imp ?_ |>.symm⟩
    rintro ⟨rfl, rfl⟩
    exact ⟨earlier, List.mem_of_find?_eq_some hfound, hdirection, hsame⟩
  · obtain rfl := pure_ok_iff.mp h
    simp [or_and_right, exists_or]

theorem keepsExits_reviseSubjects (line : Nat) {f : Record → Except Conflict Record}
    (hf : ∀ r r', f r = .ok r' → r'.name = r.name ∧ r'.exits = r.exits) :
    KeepsExits (reviseSubjects line f) :=
  keepsExits_get.bind fun _ => keepsExits_forM fun key _ => keepsExits_revise key line hf

theorem keepsExits_describe (key text : String) : KeepsExits (describe key text) := by
  refine keepsExits_revise key 0 ?_
  intro r r' h
  rw [pure_ok_iff.mp h]
  exact ⟨rfl, rfl⟩

theorem keepsExits_place (p : Preposition) (target : Mention) (line : Nat) :
    KeepsExits (place p target line) := by
  refine (keepsExits_mention target).bind ?_
  intro key
  refine keepsExits_get.bind ?_
  intro s
  have hplaced : KeepsExits (s.subjects.forM fun subject => revise subject line fun r =>
      if subject = key then throw (.placedAtItself r.name p) else r.place ⟨p, key, line⟩) :=
    keepsExits_forM fun subject _ => keepsExits_revise subject line
      fun _ _ h => exits_of_place (guard_ok_iff.mp h).2
  dsimp only
  split
  · exact (keepsExits_revise _ _ fun _ _ h => exits_of_setKind h).bind fun _ => hplaced
  · exact hplaced

theorem keepsExits_addKind (m : Mention) (parent : Kind) : KeepsExits (addKind m parent) := by
  refine keepsExits_of_records ?_
  intro s _ t h
  unfold addKind at h
  split at h
  · cases h
  · split at h
    · obtain rfl := (EStateM.Result.ok.inj h).2
      rfl
    · cases h

/-- **No fact but a location clause connects anything.** -/
theorem keepsExits_accept {f : Fact}
    (hf : ∀ room direction origin line, f ≠ .location room direction origin line) :
    KeepsExits (accept f) := by
  cases f with
  | title text => exact keepsExits_modify fun _ => rfl
  | author name => exact keepsExits_modify fun _ => rfl
  | subjects things => exact keepsExits_setSubjects things
  | property p negated line => exact keepsExits_reviseSubjects line fun _ _ h => exits_of_claim h
  | kind kind line => exact keepsExits_reviseSubjects line fun _ _ h => exits_of_setKind h
  | placement p target line => exact keepsExits_place p target line
  | description text =>
    exact keepsExits_get.bind fun _ =>
      keepsExits_forM fun key _ => keepsExits_describe key text
  | descriptionOf thing text =>
    exact (keepsExits_mention thing).bind fun key =>
      (keepsExits_describe key text).bind fun _ => keepsExits_modify fun _ => rfl
  | remark text line =>
    refine keepsExits_get.bind ?_
    intro s
    split
    · exact keepsExits_describe _ text
    · exact keepsExits_throw _
  | location room direction origin line => exact absurd rfl (hf room direction origin line)
  | newKinds names parent =>
    exact (keepsExits_forM fun m _ => keepsExits_addKind m parent).bind fun _ =>
      keepsExits_modify fun _ => rfl

/-! ### Location clauses -/

/-- A step that adds an exit to a thing that is known, and touches no other. -/
def Adds (m : EStateM Error Story Unit) (key direction there : String) : Prop :=
  ∀ s t, (s.record? key).isSome → m s = .ok () t → ∀ here d dest,
    t.Leads here d dest ↔ s.Leads here d dest ∨ here = key ∧ d = direction ∧ dest = there

theorem adds_addExit (key : String) (exit : Exit) (line : Nat) :
    Adds (revise key line (·.addExit exit)) key exit.direction exit.destination := by
  intro s t hknown h here d dest
  obtain ⟨r, hr⟩ := Option.isSome_iff_exists.mp hknown
  unfold revise at h
  rw [hr] at h
  dsimp only at h
  split at h
  · rename_i r' hr'
    obtain rfl := (EStateM.Result.ok.inj h).2
    obtain ⟨hname, hexits⟩ := exits_of_addExit hr' d dest
    rw [leads_replace hr hname]
    by_cases hhere : here = key
    · rw [if_pos hhere, hexits]
      simp [Leads, hhere, hr, eq_comm]
    · simp [hhere]
  · cases h

theorem revise_ok {line : Nat} {f : Record → Except Conflict Record}
    (h : revise key line f s = .ok () t) : t.lexicon = s.lexicon ∧ t.keys = s.keys := by
  unfold revise at h
  split at h
  · obtain rfl := (EStateM.Result.ok.inj h).2
    exact ⟨rfl, rfl⟩
  · split at h
    · obtain rfl := (EStateM.Result.ok.inj h).2
      exact ⟨rfl, keys_replace s _⟩
    · cases h

theorem mention_ok {m : Mention} (h : mention m s = .ok key t) :
    key = m.key ∧ t.lexicon = s.lexicon ∧ m.key ∈ t.keys ∧ s.keys ⊆ t.keys := by
  unfold mention at h
  dsimp only at h
  split at h
  · cases h
  · split at h
    · rename_i hknown
      obtain ⟨rfl, rfl⟩ := EStateM.Result.ok.inj h
      exact ⟨rfl, rfl, mem_keys_iff.mpr hknown, List.Subset.refl _⟩
    · obtain ⟨rfl, rfl⟩ := EStateM.Result.ok.inj h
      have hkeys : ({ s with records := s.records ++ [.fresh m.name m.line] } : Story).keys =
          s.keys ++ [m.key] := List.map_append
      rw [hkeys]
      exact ⟨rfl, rfl, by simp, List.subset_append_left _ _⟩

/-- **A location clause connects its two ends both ways, and nothing else.** -/
theorem leads_locate {room origin : Mention} {direction d : String} {line : Nat}
    (hvocabulary : s.lexicon.vocabulary = v) (hlower : Text.lower direction = direction)
    (hroom : room.key ∈ s.keys) (h : locate room direction origin line s = .ok () t) :
    t.Leads here d there ↔
      s.Leads here d there ∨
        (Fact.location room direction origin line).Connects v here d there := by
  have hrooms : ∀ key line, KeepsExits (revise key line (·.setKind .room line)) :=
    fun key line => keepsExits_revise key line fun _ _ h => exits_of_setKind h
  unfold locate at h
  obtain ⟨key, s₁, h₁, h⟩ := run_bind_ok_iff.mp h
  obtain ⟨_, s₂, h₂, h⟩ := run_bind_ok_iff.mp h
  obtain ⟨_, s₃, h₃, h⟩ := run_bind_ok_iff.mp h
  obtain ⟨_, s₄, h₄, h⟩ := run_bind_ok_iff.mp h
  obtain ⟨_, s₅, h₅, h⟩ := run_bind_ok_iff.mp h
  obtain ⟨rfl, rfl⟩ := EStateM.Result.ok.inj h₅
  obtain ⟨rfl, hlexicon₁, horigin, hkeys₁⟩ := mention_ok h₁
  obtain ⟨hlexicon₂, hkeys₂⟩ := revise_ok h₂
  obtain ⟨hlexicon₃, hkeys₃⟩ := revise_ok h₃
  obtain ⟨hlexicon₄, hkeys₄⟩ := revise_ok h₄
  -- making rooms of both ends connects nothing
  have hrooms₃ : s₃.Leads here d there ↔ s.Leads here d there :=
    ((hrooms _ _ _ _ _ h₃ here d there).trans (hrooms _ _ _ _ _ h₂ here d there)).trans
      (keepsExits_mention origin _ _ _ h₁ here d there)
  have hthere : s₄.Leads here d there ↔
      s.Leads here d there ∨ here = origin.key ∧ d = direction ∧ there = room.key := by
    rw [adds_addExit _ _ _ s₃ s₄ ?_ h₄ here d there, hrooms₃]
    · rfl
    · rw [← mem_keys_iff, hkeys₃, hkeys₂]
      exact horigin
  have hopposite : s₄.lexicon.opposite? direction = v.opposite? direction := by
    rw [hlexicon₄, hlexicon₃, hlexicon₂, hlexicon₁, Lexicon.opposite?, hvocabulary, hlower]
  rw [hopposite] at h
  cases hback : v.opposite? direction with
  | some back =>
    rw [hback] at h
    rw [adds_addExit _ _ _ s₄ t ?_ h here d there, hthere, or_assoc]
    · refine or_congr_right ⟨?_, ?_⟩
      · rintro (⟨rfl, rfl, rfl⟩ | ⟨rfl, rfl, rfl⟩)
        · exact .there room _ origin line
        · exact .back room _ origin line hback
      · intro hconnects
        cases hconnects with
        | there => exact .inl ⟨rfl, rfl, rfl⟩
        | back _ _ _ _ h =>
          obtain rfl := Option.some.inj (hback.symm.trans h)
          exact .inr ⟨rfl, rfl, rfl⟩
    · rw [← mem_keys_iff, hkeys₄, hkeys₃, hkeys₂]
      exact hkeys₁ hroom
  | none =>
    rw [hback] at h
    obtain rfl := (EStateM.Result.ok.inj h).2
    rw [hthere]
    refine or_congr_right ⟨?_, ?_⟩
    · rintro ⟨rfl, rfl, rfl⟩
      exact .there room _ origin line
    · intro hconnects
      cases hconnects with
      | there => exact ⟨rfl, rfl, rfl⟩
      | back _ _ _ _ h => cases hback.symm.trans h

/-! ### Sentences and sources -/

/-- **The facts of a sentence connect what its location clause does**, if it has one. -/
theorem leads_facts {kinds : KindTree} {facts : List Fact} {d : String} (hv : v.Reversible)
    (hs : s.Sound v) (hfacts : SoundFacts v kinds facts) (h : facts.forM accept s = .ok () t) :
    t.Leads here d there ↔ s.Leads here d there ∨ ∃ f ∈ facts, f.Connects v here d there := by
  cases hfacts with
  | plain hplain =>
    have hkeeps : KeepsExits (facts.forM accept) := by
      refine keepsExits_forM fun f hf => keepsExits_accept ?_
      rintro room direction origin line rfl
      exact hplain _ hf
    rw [hkeeps s () t h here d there, or_iff_left]
    rintro ⟨f, hf, hconnects⟩
    cases hconnects with
    | there | back => exact hplain _ hf
  | @location room origin direction line hroom horigin hdirection =>
    obtain ⟨_, s₁, h₁, h⟩ := run_bind_ok_iff.mp h
    obtain ⟨_, s₂, h₂, h⟩ := run_bind_ok_iff.mp h
    obtain rfl := (EStateM.Result.ok.inj h).2
    have hthings : ∀ m ∈ [room], m.Sound := List.forall_mem_singleton.mpr hroom
    have hadvances := advances_setSubjects hs hthings
    rw [Advances, show setSubjects [room] s = .ok () s₁ from h₁] at hadvances
    obtain ⟨hsound, -, hknown⟩ := hadvances
    have hknown : room.key ∈ s₁.keys :=
      mem_keys_iff.mpr (hknown room (List.mem_singleton_self _))
    rw [leads_locate hsound.lexicon.vocabulary (hv _ hdirection).1 hknown h₂,
      keepsExits_setSubjects [room] s () s₁ h₁ here d there]
    refine or_congr_right ⟨fun hconnects => ⟨_, by simp, hconnects⟩, ?_⟩
    rintro ⟨f, hf, hconnects⟩
    rcases List.mem_pair.mp hf with rfl | rfl
    · cases hconnects
    · exact hconnects

theorem leads_hear {ts : List Token} {opening : Bool} {e : Error} {d : String} (hv : v.Reversible)
    (hs : s.Sound v) (hts : ∀ t ∈ ts, t.Sound)
    (h : hear (readTokens s.lexicon opening ts) e s = .ok () t) :
    t.Leads here d there ↔ s.Leads here d there ∨
      ∃ f ∈ (readTokens s.lexicon opening ts).facts, f.Connects v here d there := by
  obtain ⟨_, u, hfacts, h⟩ := run_bind_ok_iff.mp h
  have hu : u = t := by
    cases hflaw : (readTokens s.lexicon opening ts).flaw with
    | none =>
      rw [hflaw] at h
      exact (EStateM.Result.ok.inj h).2
    | some f =>
      rw [hflaw] at h
      cases h
  exact leads_facts hv hs (sound_readTokens hs.lexicon opening hts).facts (hu ▸ hfacts)

/-- **When a source has been read, the exits are those before and those that its location
clauses say.** -/
theorem leads_readAll {scanner : Scanner} {opening : Bool} {d : String} (hv : v.Reversible)
    (hs : s.Sound v) (hscanner : scanner.Sound) (h : readAll scanner opening s = .ok () t) :
    t.Leads here d there ↔
      s.Leads here d there ∨ ∃ f ∈ factsFrom scanner opening s, f.Connects v here d there := by
  fun_induction readAll scanner opening s with
  | case1 scanner opening s ts e hsentence =>
    have hsound := Scanner.sound_sentence (l := s.lexicon) hscanner
    rw [hsentence] at hsound
    rw [factsFrom_of_broken hsentence]
    exact leads_hear hv hs hsound.1 h
  | case2 => cases h
  | case3 scanner opening s ts rest u hresult hsentence =>
    have hsound := Scanner.sound_sentence (l := s.lexicon) hscanner
    rw [hsentence] at hsound
    obtain rfl := (EStateM.Result.ok.inj h).2
    rw [factsFrom_of_whole hsentence hresult, if_pos rfl, List.append_nil]
    exact leads_hear hv hs hsound.1 hresult
  | case4 scanner opening s ts atEnd rest hsentence u hresult hend ih =>
    have hsound := Scanner.sound_sentence (l := s.lexicon) hscanner
    rw [hsentence] at hsound
    have hadvances := advances_hear_whole hs hscanner hsentence opening
      (.internal "a sentence has no end")
    rw [Advances, hresult] at hadvances
    rw [factsFrom_of_whole hsentence hresult, if_neg hend, ih hadvances.1 hsound.2.2 h,
      leads_hear hv hs hsound.1 hresult]
    simp only [List.mem_append, or_and_right, exists_or, or_assoc]

/-- **The exits of a story are those that the location clauses of its source say.** -/
theorem leads_ofSource {maxWords : Nat} {source d : String} (hv : v.Reversible)
    (h : ofSource v maxWords source = .ok () s) :
    s.Leads here d there ↔ ∃ f ∈ factsOf v maxWords source, f.Connects v here d there := by
  have hscanner : (Scanner.ofSource source maxWords).Sound := nofun
  rw [leads_readAll hv (sound_empty v maxWords) hscanner h, or_iff_right]
  · rfl
  · rintro ⟨r, hr, -⟩
    cases hr

end Story

/-! ### Both ways -/

/-- **What a location clause says is the same from either end.** -/
theorem Fact.Connects.symm {v : Vocabulary} (hv : v.Reversible) {f : Fact}
    {here direction there : String} (hdirection : v.isDirection direction = true)
    (h : f.Connects v here direction there) :
    ∃ back, v.opposite? direction = some back ∧ f.Connects v there back here := by
  obtain ⟨-, back, hback, hforth⟩ := hv direction hdirection
  cases h with
  | there room direction origin line => exact ⟨back, hback, .back room direction origin line hback⟩
  | back room forth origin line h =>
    obtain ⟨-, other, hother, hagain⟩ := hv forth (Vocabulary.isDirection_of_opposite? h)
    obtain rfl := Option.some.inj (h.symm.trans hother)
    exact ⟨forth, hagain, .there room forth origin line⟩

/-! ### Names -/

/-- A thing whose key is the name of the room where players begin is that room. -/
theorem first_of_castFrom {rs : List Record} {started : Bool} {roles : List Role} {r : Record}
    (h : castFrom started rs = .ok roles) (hr : r ∈ rs) (hkey : r.key = startRoom) :
    started = false ∧ rs.find? (·.settledKind.isA .room) = some r := by
  induction rs generalizing started roles with
  | nil => cases hr
  | cons first rest ih =>
    rw [castFrom] at h
    simp only [throw_bind, guard_ok_iff, bind_ok_iff, Bool.and_eq_true, decide_eq_true_eq,
      not_and] at h
    obtain ⟨hstart, others, hothers, -⟩ := h
    rcases List.mem_cons.mp hr with rfl | hr
    · have hroom : (!started && r.settledKind.isA .room) = true := by
        by_contra hnot
        exact hstart (by rw [Bool.eq_false_iff.mpr hnot]; rfl) hkey
      rw [Bool.and_eq_true, Bool.not_eq_true'] at hroom
      exact ⟨hroom.1, by rw [List.find?_cons, hroom.2]⟩
    · obtain ⟨hnone, hfind⟩ := ih hothers hr
      obtain ⟨rfl, hfirst⟩ := by simpa using hnone
      exact ⟨rfl, by rw [List.find?_cons, hfirst rfl, hfind]⟩

namespace Story

variable {v : Vocabulary} {s : Story} {roles : List Role} {r r' : Record}
variable {here direction there : String}

/-- Exits go in directions that there are. -/
theorem Leads.isDirection (hs : s.Sound v) (hv : v.LeadsBack) (h : s.Leads here direction there) :
    v.isDirection direction = true := by
  obtain ⟨r, hr, x, hx, rfl, -⟩ := h
  exact (hs.records r (mem_of_record? hr)).directions hv x hx

/-- Exits lead from rooms to rooms. -/
theorem Leads.isRoomKey (hs : s.Sound v) (h : s.Leads here direction there) :
    s.IsRoomKey here ∧ s.IsRoomKey there := by
  obtain ⟨r, hr, x, hx, -, rfl⟩ := h
  have hmem := mem_of_record? hr
  exact ⟨⟨r, hr, (hs.records r hmem).exits (List.ne_nil_of_mem hx)⟩, (hs.refers r hmem).exits x hx⟩

/-- **No two things become entities of one name.** -/
theorem eq_of_nameOf (hkeys : (s.records.map (·.key)).Nodup) (hcast : s.cast = .ok roles)
    (hr : r ∈ s.records) (hr' : r' ∈ s.records) (h : s.nameOf r.key = s.nameOf r'.key) :
    r = r' := by
  have hfirst : ∀ x ∈ s.records, x.key = startRoom → s.firstRoom? = some x :=
    fun x hx hkey => (first_of_castFrom hcast hx hkey).2
  rw [nameOf_key hkeys hr, nameOf_key hkeys hr'] at h
  by_cases hroom : s.firstRoom? = some r
  · by_cases hroom' : s.firstRoom? = some r'
    · exact Option.some.inj (hroom.symm.trans hroom')
    · rw [if_pos hroom, if_neg hroom'] at h
      exact absurd (hfirst r' hr' h.symm) hroom'
  · by_cases hroom' : s.firstRoom? = some r'
    · rw [if_neg hroom, if_pos hroom'] at h
      exact absurd (hfirst r hr h) hroom
    · rw [if_neg hroom, if_neg hroom'] at h
      exact List.inj_on_of_nodup_map hkeys hr hr' h

theorem record?_key (hkeys : (s.records.map (·.key)).Nodup) (hr : r ∈ s.records) :
    s.record? r.key = some r := by
  obtain ⟨found, hfound⟩ := Option.isSome_iff_exists.mp
    (mem_keys_iff.mp (List.mem_map_of_mem (f := (·.key)) hr) : (s.record? r.key).isSome)
  rw [hfound, List.inj_on_of_nodup_map hkeys (mem_of_record? hfound) hr (key_of_record? hfound)]

/-- The exits of an entity lead where those of its thing do. -/
theorem Portrays.exit_iff (hkeys : (s.records.map (·.key)).Nodup) (hr : r ∈ s.records)
    {e : Entity} (he : s.Portrays r e) (direction name : String) :
    e.exits[direction]? = some name ↔
      ∃ there, s.Leads r.key direction there ∧ s.nameOf there = name := by
  rw [he.exits]
  constructor
  · rintro ⟨x, hx, hdirection, hname⟩
    exact ⟨x.destination, ⟨r, record?_key hkeys hr, x, hx, hdirection, rfl⟩, hname⟩
  · rintro ⟨there, ⟨known, hknown, x, hx, hdirection, rfl⟩, hname⟩
    obtain rfl := Option.some.inj ((record?_key hkeys hr).symm.trans hknown)
    exact ⟨x, hx, hdirection, hname⟩

/-- **Between two entities there are the exits that there are between their things.** -/
theorem Portrays.leads_iff (hs : s.Sound v) (hcast : s.cast = .ok roles) (hr : r ∈ s.records)
    (hr' : r' ∈ s.records) {e e' : Entity} (he : s.Portrays r e) (he' : s.Portrays r' e')
    (direction : String) :
    e.exits[direction]? = some e'.name ↔ s.Leads r.key direction r'.key := by
  have hname : s.nameOf r'.key = e'.name := by rw [he'.name, nameOf_key hs.keys hr']
  rw [he.exit_iff hs.keys hr, ← hname]
  refine ⟨?_, fun h => ⟨r'.key, h, rfl⟩⟩
  rintro ⟨there, hlead, hsame⟩
  obtain ⟨known, hknown, -⟩ := (hlead.isRoomKey hs).2
  rw [← key_of_record? hknown] at hsame hlead
  exact eq_of_nameOf hs.keys hcast (mem_of_record? hknown) hr' hsame ▸ hlead

/-- What portrays a room is one. -/
theorem Portrays.type_eq_room (hs : s.Sound v) (hr : r ∈ s.records) (hroom : r.IsRoom)
    {e : Entity} (he : s.Portrays r e) : e.type = .room := by
  have hfit := Record.fit_settledKind (hs.records r hr)
  have htype := hfit.type?_eq.symm.trans he.type
  rw [hfit.entityType_eq_room hroom.settledKind] at htype
  exact (Option.some.inj htype).symm

section OfSource

variable {maxWords : Nat} {source : String} {here direction there : String}

/-- What leads somewhere leads back in the opposite direction. -/
theorem Leads.back (hs : ofSource .english maxWords source = .ok () s) (hsound : s.Sound .english)
    (h : s.Leads here direction there) :
    ∃ back, Vocabulary.english.opposite? direction = some back ∧ s.Leads there back here := by
  have hdirection := h.isDirection hsound Vocabulary.english_leadsBack
  obtain ⟨f, hf, hconnects⟩ := (leads_ofSource Vocabulary.english_reversible hs).mp h
  obtain ⟨back, hback, hconnects⟩ := hconnects.symm Vocabulary.english_reversible hdirection
  exact ⟨back, hback, (leads_ofSource Vocabulary.english_reversible hs).mpr ⟨f, hf, hconnects⟩⟩

/-- **Between things every way is a way back.** -/
theorem leads_iff_back (hs : ofSource .english maxWords source = .ok () s)
    (hsound : s.Sound .english) : s.Leads here direction there ↔
      ∃ back, Vocabulary.english.opposite? direction = some back ∧ s.Leads there back here := by
  refine ⟨Leads.back hs hsound, ?_⟩
  rintro ⟨back, hback, hlead⟩
  obtain ⟨forth, hforth, hlead⟩ := hlead.back hs hsound
  -- the opposite of the opposite is the direction itself
  obtain ⟨-, other, hother, hagain⟩ := Vocabulary.english_reversible direction
    (Vocabulary.isDirection_of_opposite? hback)
  obtain rfl := Option.some.inj (hback.symm.trans hother)
  obtain rfl := Option.some.inj (hforth.symm.trans hagain)
  exact hlead

/-- The exits of an entity are those that the clauses of the source say. -/
theorem Portrays.exit_iff_connects (hs : ofSource .english maxWords source = .ok () s)
    (hsound : s.Sound .english) (hcast : s.cast = .ok roles) (hr : r ∈ s.records) {e : Entity}
    (he : s.Portrays r e) (direction name : String) :
    e.exits[direction]? = some name ↔
      ∃ f ∈ factsOf .english maxWords source, ∃ here there,
        f.Connects .english here direction there ∧ s.nameOf here = e.name ∧
          s.nameOf there = name := by
  have hname : s.nameOf r.key = e.name := by rw [he.name, nameOf_key hsound.keys hr]
  rw [he.exit_iff hsound.keys hr]
  constructor
  · rintro ⟨there, hlead, hthere⟩
    obtain ⟨f, hf, hconnects⟩ := (leads_ofSource Vocabulary.english_reversible hs).mp hlead
    exact ⟨f, hf, r.key, there, hconnects, hname, hthere⟩
  · rintro ⟨f, hf, here, there, hconnects, hhere, hthere⟩
    have hlead := (leads_ofSource Vocabulary.english_reversible hs).mpr ⟨f, hf, hconnects⟩
    obtain ⟨known, hknown, -⟩ := (hlead.isRoomKey hsound).1
    rw [← key_of_record? hknown] at hhere hlead
    obtain rfl := eq_of_nameOf hsound.keys hcast (mem_of_record? hknown) hr
      (hhere.trans hname.symm)
    exact ⟨there, hlead, hthere⟩

end OfSource

end Story

end Prose

namespace Compilation

open Prose (Story)

variable {files : Files} {config : Config} {source : String} {w : World}

/-- The story of a source that compiles, and what its things become. -/
theorem story_of_compile (h : compile files .prose config source = .ok w) :
    ∃ s roles, Story.ofSource .english config.maxWords source = .ok () s ∧ s.Sound .english ∧
      s.cast = .ok roles ∧ (∀ r ∈ s.records, ∃ e ∈ w.entities, s.Portrays r e) ∧
      ∀ e ∈ w.entities, ∃ r ∈ s.records, s.Portrays r e := by
  obtain ⟨d, x, hread, hrun, hentities⟩ := run_of_compile h
  obtain ⟨s, hs⟩ := Prose.exists_story_of_readText hread
  have hsound := Prose.sound_ofSource .english config.maxWords source
  rw [hs] at hsound
  have hdraft : s.draft = .ok d := by
    have hread : Prose.readText .english config.maxWords source = .ok d := hread
    rwa [Prose.readText, hs] at hread
  have hgallery := Prose.gallery_of_draft Vocabulary.english_leadsBack rfl hsound hdraft hrun
  rw [World.gallery, ← hentities] at hgallery
  obtain ⟨roles, hcast, -⟩ := bind_ok_iff.mp hdraft
  refine ⟨s, roles, hs, hsound, hcast, ?_, ?_⟩
  · intro r hr
    obtain ⟨e, he, heq⟩ := List.mem_map.mp (hgallery ▸ List.mem_map_of_mem hr)
    exact ⟨e, he, Prose.portrays_of_likeness hsound hr heq⟩
  · intro e he
    obtain ⟨r, hr, heq⟩ :=
      List.mem_map.mp (hgallery ▸ List.mem_map_of_mem (f := Entity.portrait) he)
    exact ⟨r, hr, Prose.portrays_of_likeness hsound hr heq.symm⟩

/-- **Maps in prose run both ways.**  In the game that a source compiles to, one place has an
exit in a direction to another just if the other has one in the opposite direction back.  Its
exits are those that the location clauses of the source say, no more and no fewer: each clause
connects the two rooms it names from either end, whatever the other clauses say. -/
theorem exits_run_both_ways (h : compile files .prose config source = .ok w) :
    (∀ a ∈ w.entities, ∀ b ∈ w.entities, ∀ direction : String,
      a.exits[direction]? = some b.name ↔
        ∃ back, Vocabulary.english.opposite? direction = some back ∧
          b.exits[back]? = some a.name) ∧
    ∃ s, Story.ofSource .english config.maxWords source = .ok () s ∧
      (∀ a ∈ w.entities, ∀ direction name : String, a.exits[direction]? = some name ↔
        ∃ f ∈ Story.factsOf .english config.maxWords source, ∃ here there,
          f.Connects .english here direction there ∧ s.nameOf here = a.name ∧
            s.nameOf there = name) ∧
      ∀ f ∈ Story.factsOf .english config.maxWords source, ∀ here direction there,
        f.Connects .english here direction there →
          ∃ a ∈ w.entities, ∃ b ∈ w.entities, a.name = s.nameOf here ∧ b.name = s.nameOf there ∧
            a.type = .room ∧ b.type = .room := by
  obtain ⟨s, roles, hs, hsound, hcast, hentity, hrecord⟩ := story_of_compile h
  refine ⟨?_, s, hs, ?_, ?_⟩
  · intro a ha b hb direction
    obtain ⟨r, hr, hra⟩ := hrecord a ha
    obtain ⟨r', hr', hrb⟩ := hrecord b hb
    simp only [hra.leads_iff hsound hcast hr hr' hrb, hrb.leads_iff hsound hcast hr' hr hra]
    exact Story.leads_iff_back hs hsound
  · intro a ha direction name
    obtain ⟨r, hr, hra⟩ := hrecord a ha
    exact hra.exit_iff_connects hs hsound hcast hr direction name
  · intro f hf here direction there hconnects
    have hlead := (Story.leads_ofSource Vocabulary.english_reversible hs).mpr ⟨f, hf, hconnects⟩
    have hroom : ∀ key, s.IsRoomKey key → ∃ e ∈ w.entities, e.name = s.nameOf key ∧
        e.type = .room := by
      rintro key ⟨r, hr, hroom⟩
      have hmem := Story.mem_of_record? hr
      obtain ⟨e, he, hre⟩ := hentity r hmem
      refine ⟨e, he, ?_, hre.type_eq_room hsound hmem hroom⟩
      rw [hre.name, ← Prose.nameOf_key hsound.keys hmem, Story.key_of_record? hr]
    obtain ⟨a, ha, haname, hatype⟩ := hroom here (hlead.isRoomKey hsound).1
    obtain ⟨b, hb, hbname, hbtype⟩ := hroom there (hlead.isRoomKey hsound).2
    exact ⟨a, ha, b, hb, haname, hbname, hatype, hbtype⟩

/-- Two rooms of which both clauses say the same. -/
def hallAndDen : String :=
  "Hall is up from den. Den is down from hall."

set_option maxRecDepth 100000 in
/-- The second clause finds both exits, which the first one left. -/
theorem hall_and_den_meet :
    ∃ w, compile .none .prose (Config.strict.withMaxWords 1) hallAndDen = .ok w ∧
      w.entities.map (fun e => (e.name, e.exits["down"]?, e.exits["up"]?)) =
        [(startRoom, some "den", none), ("den", none, some startRoom)] ∧
      ∀ a ∈ w.entities, ∀ b ∈ w.entities, ∀ direction : String,
        a.exits[direction]? = some b.name ↔
          ∃ back, Vocabulary.english.opposite? direction = some back ∧
            b.exits[back]? = some a.name := by
  have hexits : (compile .none .prose (Config.strict.withMaxWords 1) hallAndDen).toOption.map
      (fun w => w.entities.map fun e => (e.name, e.exits["down"]?, e.exits["up"]?)) =
        some [(startRoom, some "den", none), ("den", none, some startRoom)] := by
    decide +kernel
  cases hw : compile .none .prose (Config.strict.withMaxWords 1) hallAndDen with
  | error e =>
    rw [hw] at hexits
    exact absurd hexits nofun
  | ok w =>
    rw [hw] at hexits
    exact ⟨w, rfl, Option.some.inj hexits, (exits_run_both_ways hw).1⟩

end Compilation

end Adventure
