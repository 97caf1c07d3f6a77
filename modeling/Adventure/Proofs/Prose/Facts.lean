/-
Taking in facts.

Each fact that a sentence can say takes a sound story to a sound one.  Only where a room
lies takes care: it adds an exit and the way back, so both ends must be rooms by then,
and known, which they are because the sentence has just been about the one and mentions
the other.  From the facts of one sentence it is a step to the sentences of a source.
-/
import Adventure.Proofs.Prose.Stories

namespace Adventure.Prose

namespace Story

variable {v : Vocabulary} {s : Story}

/-! ### Single facts -/

/-- Whatever is mentioned is known from then on. -/
theorem advances_mention (hs : s.Sound v) {m : Mention} (hm : m.Sound) :
    Advances v (mention m) s fun key t =>
      key = Text.lower m.name ∧ (t.record? (Text.lower m.name)).isSome := by
  unfold Advances mention
  dsimp only
  by_cases hkind : s.lexicon.isKind (Text.lower m.name) = true
  · rw [if_pos hkind]
    rfl
  · rw [if_neg hkind]
    by_cases hknown : (s.record? (Text.lower m.name)).isSome
    · rw [if_pos hknown]
      exact ⟨hs, .refl s, rfl, hknown⟩
    · rw [if_neg hknown]
      have hfound : ∀ key r, s.record? key = some r →
          (s.records ++ [Record.fresh m.name m.line]).find? (·.key == key) = some r := by
        intro key r hr
        rw [List.find?_append]
        exact Option.or_eq_some_iff.mpr (.inl hr)
      have hgoes : s.GoesOn { s with records := s.records ++ [.fresh m.name m.line] } :=
        ⟨List.Subset.refl _, fun key r hr => ⟨r, hfound key r hr, .of_kind rfl rfl⟩⟩
      refine ⟨⟨hs.lexicon, ?_, ?_, ?_⟩, hgoes, rfl, ?_⟩
      · intro r hr
        rcases List.mem_append.mp hr with hr | hr
        · exact hs.records r hr
        · rw [List.mem_singleton.mp hr]
          exact Record.sound_fresh hm m.line
      · rw [List.map_append, List.map_singleton, List.nodup_append]
        refine ⟨hs.keys, List.nodup_singleton _, ?_⟩
        intro key hkey last hlast
        obtain ⟨r, hr, rfl⟩ := List.mem_map.mp hkey
        rw [List.mem_singleton.mp hlast]
        have hnone := List.find?_eq_none.mp (Option.not_isSome_iff_eq_none.mp hknown) r hr
        simpa [Record.fresh, Record.key] using hnone
      · intro r hr
        rcases List.mem_append.mp hr with hr | hr
        · exact hgoes.refers (hs.refers r hr)
        · rw [List.mem_singleton.mp hr]
          exact ⟨by simp [Record.fresh], by simp [Record.fresh], by simp [Record.fresh]⟩
      · rw [record?, List.find?_isSome]
        exact ⟨.fresh m.name m.line, by simp, by simp [Record.key, Record.fresh]⟩

theorem advances_mapM_mention {things : List Mention} (hs : s.Sound v)
    (hthings : ∀ m ∈ things, m.Sound) :
    Advances v (things.mapM mention) s fun _ t =>
      ∀ m ∈ things, (t.record? (Text.lower m.name)).isSome := by
  induction things generalizing s with
  | nil => exact advances_pure hs nofun
  | cons m rest ih =>
    rw [List.mapM_cons]
    refine (advances_mention hs (hthings m (List.mem_cons_self ..))).bind ?_
    intro key t ht _ hkey
    refine (ih ht fun m' hm' => hthings m' (List.mem_cons_of_mem _ hm')).bind ?_
    intro keys u hu htu hkeys
    refine advances_pure hu ?_
    intro m' hm'
    rcases List.mem_cons.mp hm' with rfl | hm'
    · exact htu.isSome hkey.2
    · exact hkeys m' hm'

theorem advances_setSubjects {things : List Mention} (hs : s.Sound v)
    (hthings : ∀ m ∈ things, m.Sound) :
    Advances v (setSubjects things) s fun _ t =>
      ∀ m ∈ things, (t.record? (Text.lower m.name)).isSome := by
  refine (advances_get hs (Q := fun a _ => a = s) rfl).bind ?_
  rintro _ t ht _ rfl
  dsimp only
  split
  · rfl
  · refine (advances_mapM_mention ht hthings).bind ?_
    intro keys u hu _ hkeys
    exact advances_modify hu rfl rfl hkeys

theorem advances_reviseSubjects (hs : s.Sound v) (line : Nat) {f : Record → Except Conflict Record}
    (hf : ∀ t : Story, s.GoesOn t → ∀ r r', r.Sound v → t.Refers r → f r = .ok r' →
      r'.Sound v ∧ r.Continues r' ∧ t.Refers r') :
    Advances v (reviseSubjects line f) s fun _ _ => True := by
  refine (advances_get hs (Q := fun _ _ => True) trivial).bind ?_
  intro a t ht hst _
  refine advances_forM ht ?_
  intro key _ u hu htu
  refine (advances_revise hu key line ?_).weaken fun _ _ _ => trivial
  intro r r' _ hr hrefers h
  exact hf u (hst.trans htu) r r' hr hrefers h

theorem advances_describe (hs : s.Sound v) (key text : String) :
    Advances v (describe key text) s fun _ _ => True := by
  refine (advances_revise hs key 0 ?_).weaken fun _ _ _ => trivial
  intro r r' _ hr hrefers h
  rw [pure_ok_iff.mp h]
  exact ⟨⟨hr.named, hr.kind, hr.assertions, hr.decided, hr.directions, hr.apart, hr.exits⟩,
    .of_kind rfl rfl, hrefers.kind, hrefers.exits, hrefers.placement⟩

/-- A thing is given a kind that there is. -/
theorem refers_setKind {r r' : Record} {kind : Kind} {line : Nat} (hkind : kind.Sound)
    (hmem : kind ∈ s.lexicon.kinds.kinds) (hr : r.Sound v) (hrefers : s.Refers r)
    (h : r.setKind kind line = .ok r') :
    (r'.Sound v ∧ r.Continues r' ∧ s.Refers r') ∧
      ∃ k l, r'.kind = some (k, l) ∧ k.isA kind = true := by
  obtain ⟨hr', hcontinues, merged, l, rfl, hisA, hone⟩ := Record.setKind_ok hr hkind h
  refine ⟨⟨hr', hcontinues, ?_, hrefers.exits, hrefers.placement⟩, merged, l, rfl, hisA⟩
  rintro k l' ⟨⟩
  rcases hone with rfl | ⟨l₀, hl₀⟩
  · exact hmem
  · exact hrefers.kind _ l₀ hl₀

theorem advances_place (hs : s.Sound v) (p : Preposition) {target : Mention}
    (htarget : target.Sound)
    (line : Nat) : Advances v (place p target line) s fun _ _ => True := by
  refine (advances_mention hs htarget).bind ?_
  rintro key t ht _ ⟨rfl, hknown⟩
  refine (advances_get ht (Q := fun _ _ => True) trivial).bind ?_
  intro a u hu htu _
  generalize Text.lower target.name = key at hknown ⊢
  have hplace : ∀ u : Story, u.Sound v → t.GoesOn u → Advances v (a.subjects.forM fun subject =>
      revise subject line fun r =>
        if subject = key then throw (.placedAtItself r.name p) else r.place ⟨p, key, line⟩)
      u fun _ _ => True := by
    intro u hu htu
    refine advances_forM hu ?_
    intro subject _ w hw huw
    refine (advances_revise hw subject line ?_).weaken fun _ _ _ => trivial
    intro r r' _ hr hrefers h
    obtain ⟨hr', hcontinues, rfl⟩ := Record.place_ok hr (guard_ok_iff.mp h).2
    refine ⟨hr', hcontinues, hrefers.kind, hrefers.exits, ?_⟩
    rintro p' ⟨⟩
    exact (htu.trans huw).isSome hknown
  split
  · refine (advances_revise hu key target.line ?_).bind
      fun _ w hw huw _ => hplace w hw (htu.trans huw)
    intro r r' _ hr hrefers h
    have hmem := hu.lexicon.kinds.builtin (KindTree.defaultKind_mem_standard p)
    exact (refers_setKind (hu.lexicon.kinds.kinds _ hmem) hmem hr hrefers h).1
  · exact hplace u hu htu

/-- A known thing becomes a room. -/
theorem advances_makeRoom (hs : s.Sound v) {key : String} (hkey : (s.record? key).isSome)
    (line : Nat) :
    Advances v (revise key line (·.setKind .room line)) s fun _ t => t.IsRoomKey key := by
  have hmem := hs.lexicon.kinds.builtin (KindTree.defaultKind_mem_standard .inside)
  have hset : ∀ r r' : Record, r.Sound v → s.Refers r → r.setKind .room line = .ok r' →
      (r'.Sound v ∧ r.Continues r' ∧ s.Refers r') ∧ r'.IsRoom :=
    fun r r' hr hrefers h => refers_setKind (hs.lexicon.kinds.kinds _ hmem) hmem hr hrefers h
  obtain ⟨r, hr⟩ := Option.isSome_iff_exists.mp hkey
  have hmem := mem_of_record? hr
  refine (advances_revise hs key line
    fun r r' _ hr hrefers h => (hset r r' hr hrefers h).1).weaken ?_
  intro _ t hfound
  obtain ⟨r', hr', ht⟩ := hfound r hr
  exact ⟨r', ht, (hset r r' (hs.records r hmem) (hs.refers r hmem) hr').2⟩

/-- A room gets an exit to a room. -/
theorem advances_addExit (hs : s.Sound v) {key : String} (hkey : s.IsRoomKey key) (line : Nat)
    {exit : Exit} (hdirection : v.LeadsBack → v.isDirection exit.direction = true)
    (hdestination : s.IsRoomKey exit.destination) :
    Advances v (revise key line (·.addExit exit)) s fun _ _ => True := by
  refine (advances_revise hs key line ?_).weaken fun _ _ _ => trivial
  intro r r' hr hsound hrefers h
  obtain ⟨r₁, hr₁, hroom⟩ := hkey
  obtain rfl : r = r₁ := Option.some.inj (hr.symm.trans hr₁)
  obtain ⟨hr', hcontinues, exits, rfl, hexits⟩ := Record.addExit_ok hsound hroom hdirection h
  refine ⟨hr', hcontinues, hrefers.kind, ?_, hrefers.placement⟩
  intro x hx
  rcases hexits x hx with hx | rfl
  · exact hrefers.exits x hx
  · exact hdestination

/-- **Where a room lies can be taken in**, if the room is known. -/
theorem advances_locate (hs : s.Sound v) {room origin : Mention}
    {direction : String} (hroom : (s.record? (Text.lower room.name)).isSome)
    (horigin : origin.Sound) (hdirection : v.isDirection direction = true) (line : Nat) :
    Advances v (locate room direction origin line) s fun _ _ => True := by
  refine (advances_mention hs horigin).bind ?_
  rintro _ s₁ h₁ hgoes₁ ⟨rfl, hhere⟩
  refine (advances_makeRoom h₁ (hgoes₁.isSome hroom) room.line).bind ?_
  intro _ s₂ h₂ hgoes₂ hthere
  refine (advances_makeRoom h₂ (hgoes₂.isSome hhere) origin.line).bind ?_
  intro _ s₃ h₃ hgoes₃ hhere
  have hthere := hgoes₃.isRoomKey hthere
  refine (advances_addExit h₃ hhere line (fun _ => hdirection) hthere).bind ?_
  intro _ s₄ h₄ hgoes₄ _
  refine (advances_get h₄ (Q := fun a _ => a = s₄) rfl).bind ?_
  rintro _ s₅ h₅ hgoes₅ rfl
  split
  · next back hback =>
    have hdirection : v.LeadsBack → v.isDirection back = true := by
      intro hv
      rw [Lexicon.opposite?, h₄.lexicon.vocabulary] at hback
      exact hv _ _ hback
    exact advances_addExit h₅ (hgoes₅.isRoomKey (hgoes₄.isRoomKey hthere)) line hdirection
      (hgoes₅.isRoomKey (hgoes₄.isRoomKey hhere))
  · exact advances_pure h₅ trivial

theorem advances_addKind (hs : s.Sound v) {m : Mention} (hm : m.Sound) {parent : Kind}
    (hparent : parent ∈ s.lexicon.kinds.kinds) :
    Advances v (addKind m parent) s fun _ _ => True := by
  unfold Advances addKind
  dsimp only
  by_cases hknown : (s.record? (Text.lower m.name)).isSome
  · rw [if_pos hknown]
    rfl
  · rw [if_neg hknown]
    cases hdeclare : s.lexicon.declareKind m.name parent s.maxWords with
    | error r => cases r <;> rfl
    | ok l =>
      simp only [Lexicon.declareKind, bind_ok_iff, pure_ok_iff] at hdeclare
      obtain ⟨_, hcheck, rfl⟩ := hdeclare
      have hinsert := hs.lexicon.kinds.insert hparent (Text.endsSolid_lower hm)
        (Lexicon.kind?_eq_none_of_checkKindName hcheck)
      have hkinds : s.lexicon.kinds.kinds ⊆
          (s.lexicon.kinds.insert (Text.lower m.name) parent).kinds :=
        List.subset_append_left _ _
      exact ⟨hs.of_records ⟨hinsert, hs.lexicon.vocabulary⟩ hkinds rfl, .of_records hkinds rfl,
        trivial⟩

/-- **Every fact that can be taken in by itself is**, where there are the kinds with which it
was read. -/
theorem advances_accept (hs : s.Sound v) {kinds : KindTree}
    (hkinds : kinds.kinds ⊆ s.lexicon.kinds.kinds) {f : Fact} (hf : f.Sound kinds) :
    Advances v (accept f) s fun _ _ => True := by
  cases f with
  | title text | author text => exact advances_modify hs rfl rfl trivial
  | subjects things => exact (advances_setSubjects hs hf).weaken fun _ _ _ => trivial
  | property p negated line =>
    refine advances_reviseSubjects hs line ?_
    intro t _ r r' hr hrefers h
    obtain ⟨hr', hcontinues, assertions, rfl⟩ :=
      Record.claim_ok (a := ⟨p, negated, line⟩) hr hf h
    exact ⟨hr', hcontinues, hrefers.kind, hrefers.exits, hrefers.placement⟩
  | kind k line =>
    refine advances_reviseSubjects hs line ?_
    intro t hst r r' hr hrefers h
    have hmem := hkinds hf
    exact (refers_setKind (hs.lexicon.kinds.kinds k hmem) (hst.kinds hmem) hr hrefers h).1
  | placement p target line => exact advances_place hs p hf line
  | description text =>
    refine (advances_get hs (Q := fun _ _ => True) trivial).bind ?_
    intro a t ht _ _
    exact advances_forM ht fun key _ u hu _ => advances_describe hu key text
  | descriptionOf thing text =>
    refine (advances_mention hs hf).bind ?_
    intro key t ht _ _
    refine (advances_describe ht key text).bind ?_
    intro _ u hu _ _
    exact advances_modify hu rfl rfl trivial
  | remark text line =>
    refine (advances_get hs (Q := fun _ _ => True) trivial).bind ?_
    intro a t ht _ _
    split
    · exact advances_describe ht _ text
    · rfl
  | location room direction origin line => exact hf.elim
  | newKinds names parent =>
    refine (advances_forM hs fun m hm u hu hsu =>
      advances_addKind hu (hf.1 m hm) (hsu.kinds (hkinds hf.2))).bind ?_
    intro _ t ht _ _
    exact advances_modify ht rfl rfl trivial

/-! ### Sentences and sources -/

/-- The facts of a sentence, in their order. -/
theorem advances_facts (hs : s.Sound v) {facts : List Fact}
    (hfacts : SoundFacts v s.lexicon.kinds facts) :
    Advances v (facts.forM accept) s fun _ _ => True := by
  cases hfacts with
  | plain h => exact advances_forM hs fun f hf t ht hst => advances_accept ht hst.kinds (h f hf)
  | location hroom horigin hdirection =>
    rename_i room origin direction line
    have hrooms : ∀ m ∈ [room], m.Sound := by simpa using hroom
    refine (advances_setSubjects hs hrooms).bind ?_
    intro _ t ht _ hknown
    have hroom := hknown room (List.mem_singleton_self _)
    refine (advances_locate ht hroom horigin hdirection line).bind ?_
    intro _ u hu _ _
    exact advances_pure hu trivial

end Story

/-- The error of a flaw is the text's fault, if a scan that cut it short was. -/
theorem Flaw.isTextual_error {f : Flaw} {scanning : Error}
    (h : f = .cutShort → scanning.isTextual = true) : (f.error scanning).isTextual = true := by
  cases f with
  | cutShort => exact h rfl
  | _ => rfl

namespace Story

variable {v : Vocabulary} {s : Story}

theorem advances_hear (hs : s.Sound v) {ts : List Token} {r : Reading}
    {scanning : Error} (hr : r.Sound v s.lexicon.kinds ts)
    (hscan : Ended ts ∨ scanning.isTextual = true) :
    Advances v (hear r scanning) s fun _ _ => True := by
  refine (advances_facts hs hr.facts).bind ?_
  intro _ t ht _ _
  cases hflaw : r.flaw with
  | none => exact advances_pure ht trivial
  | some f =>
    refine Flaw.isTextual_error ?_
    rintro rfl
    rcases hscan with hend | htext
    · exact absurd hflaw (hr.flaw hend)
    · exact htext

/-- A whole sentence can be taken in, whatever error stands by. -/
theorem advances_hear_whole (hs : s.Sound v) {scanner rest : Scanner}
    (hscanner : scanner.Sound) {ts : List Token} {atEnd : Bool}
    (h : scanner.sentence s.lexicon = .whole ts atEnd rest) (opening : Bool) (e : Error) :
    Advances v (hear (readTokens s.lexicon opening ts) e) s fun _ _ => True := by
  have hsound := Scanner.sound_sentence (l := s.lexicon) hscanner
  rw [h] at hsound
  exact advances_hear hs (sound_readTokens hs.lexicon opening hsound.1) (.inl hsound.2.1)

/-- **A source that is read to its end gives a sound story**; where reading fails, the
text is at fault. -/
theorem sound_readAll {scanner : Scanner} {opening : Bool} (hs : s.Sound v)
    (hscanner : scanner.Sound) :
    match readAll scanner opening s with
    | .ok () t => t.Sound v
    | .error e _ => e.isTextual = true := by
  fun_induction readAll scanner opening s with
  | case1 scanner opening s ts e hsentence =>
    have hsound := Scanner.sound_sentence (l := s.lexicon) hscanner
    rw [hsentence] at hsound
    have hhear := advances_hear hs (sound_readTokens hs.lexicon opening hsound.1) (.inr hsound.2)
    unfold Advances at hhear
    cases hresult : hear (readTokens s.lexicon opening ts) e s with
    | ok _ t =>
      rw [hresult] at hhear
      exact hhear.1
    | error e' t =>
      rw [hresult] at hhear
      exact hhear
  | case2 scanner opening s ts atEnd rest hsentence e t hresult =>
    have hhear := advances_hear_whole hs hscanner hsentence opening
      (.internal "a sentence has no end")
    rw [Advances, hresult] at hhear
    exact hhear
  | case3 scanner opening s ts rest t hresult hsentence =>
    have hhear := advances_hear_whole hs hscanner hsentence opening
      (.internal "a sentence has no end")
    rw [Advances, hresult] at hhear
    exact hhear.1
  | case4 scanner opening s ts atEnd rest hsentence t hresult hend ih =>
    have hhear := advances_hear_whole hs hscanner hsentence opening
      (.internal "a sentence has no end")
    have hsound := Scanner.sound_sentence (l := s.lexicon) hscanner
    rw [Advances, hresult] at hhear
    rw [hsentence] at hsound
    exact ih hhear.1 hsound.2.2

end Story

end Adventure.Prose
