/-
Where the kinds of things come from.

A thing has no kind until a sentence gives it one.  A sentence that names a kind gives that
kind to its subjects, or leaves them a more special one; one that places things, or says in
which direction a room lies, gives one of the standard kinds.  So a kind that things have
after some facts and had not before was named by one of them or is standard.
-/
import Adventure.Proofs.Prose.Homonyms

namespace Adventure.Prose

/-- The kinds that a fact gives to things. -/
def Fact.kinds : Fact → List Kind
  | .kind k _ => [k]
  | .placement p .. => [p.defaultKind]
  | .location .. => [.room]
  | _ => []

namespace Record

variable {r r' : Record} {kinds : List Kind}

/-- Of a record and a later one: the kind is the same, or one of some kinds. -/
def Inherits (kinds : List Kind) (r r' : Record) : Prop :=
  ∀ k line, r'.kind = some (k, line) → (∃ earlier, r.kind = some (k, earlier)) ∨ k ∈ kinds

theorem Inherits.of_kind (h : r'.kind = r.kind) : r.Inherits kinds r' :=
  fun _ line hk => .inl ⟨line, h ▸ hk⟩

theorem inherits_setKind {kind : Kind} {line : Nat} (hkind : kind ∈ kinds)
    (h : r.setKind kind line = .ok r') : Inherits kinds r r' := by
  simp only [setKind, throw_bind, guard_ok_iff, bind_ok_iff] at h
  obtain ⟨-, merged, hmerge, h⟩ := h
  obtain ⟨-, -, hone⟩ := mergeKind_ok hmerge
  split at h
  · simp at h
  · rw [pure_ok_iff.mp h]
    rintro k l ⟨⟩
    rcases hone with rfl | hearlier
    · exact .inr hkind
    · exact .inl hearlier

theorem inherits_claim {a : Assertion} (h : r.claim a = .ok r') : Inherits kinds r r' := by
  obtain ⟨rfl, -⟩ := claim_agrees h
  refine .of_kind ?_
  rw [addAssertion]
  split <;> rfl

theorem inherits_addExit {exit : Exit} (h : r.addExit exit = .ok r') : Inherits kinds r r' := by
  unfold addExit at h
  split at h
  · rw [pure_ok_iff.mp (guard_not_ok_iff.mp h).2]
    exact .of_kind rfl
  · rw [pure_ok_iff.mp h]
    exact .of_kind rfl

theorem inherits_place {p : Placement} (h : r.place p = .ok r') : Inherits kinds r r' := by
  unfold place at h
  split at h
  · rw [pure_ok_iff.mp (guard_not_ok_iff.mp h).2]
    exact .of_kind rfl
  · rw [pure_ok_iff.mp h]
    exact .of_kind rfl

end Record

namespace Story

variable {s t : Story} {kinds : List Kind}

/-- Some thing has a kind. -/
def HasKind (s : Story) (k : Kind) : Prop :=
  ∃ r ∈ s.records, ∃ line, r.kind = some (k, line)

/-- A step that gives things no kinds but some, and leaves the bound on names alone. -/
def GivesKinds {α : Type} (kinds : List Kind) (m : EStateM Error Story α) : Prop :=
  ∀ s a t, m s = .ok a t → t.maxWords = s.maxWords ∧ ∀ k, t.HasKind k → s.HasKind k ∨ k ∈ kinds

section Steps

variable {α β : Type} {m : EStateM Error Story α} {f : α → EStateM Error Story β}

/-- A step that leaves the records alone. -/
theorem givesKinds_of_records (hwords : ∀ s a t, m s = .ok a t → t.maxWords = s.maxWords)
    (hrecords : ∀ s a t, m s = .ok a t → t.records = s.records) : GivesKinds kinds m := by
  intro s a t h
  refine ⟨hwords s a t h, fun k hk => .inl ?_⟩
  rwa [HasKind, ← hrecords s a t h]

theorem givesKinds_pure (a : α) : GivesKinds kinds (pure a) :=
  givesKinds_of_records (by rintro s _ t ⟨⟩; rfl) (by rintro s _ t ⟨⟩; rfl)

theorem givesKinds_get : GivesKinds kinds get :=
  givesKinds_of_records (by rintro s _ t ⟨⟩; rfl) (by rintro s _ t ⟨⟩; rfl)

theorem givesKinds_throw (e : Error) : GivesKinds kinds (throw e : EStateM Error Story α) := by
  intro s a t h
  cases h

theorem givesKinds_modify {g : Story → Story} (hwords : ∀ s, (g s).maxWords = s.maxWords)
    (hrecords : ∀ s, (g s).records = s.records) : GivesKinds kinds (modify g) :=
  givesKinds_of_records (by rintro s _ t ⟨⟩; exact hwords s) (by rintro s _ t ⟨⟩; exact hrecords s)

theorem GivesKinds.bind (hm : GivesKinds kinds m) (hf : ∀ a, GivesKinds kinds (f a)) :
    GivesKinds kinds (m >>= f) := by
  intro s b t h
  obtain ⟨a, u, hu, ht⟩ := run_bind_ok_iff.mp h
  obtain ⟨hwords, hkinds⟩ := hm s a u hu
  obtain ⟨hwords', hkinds'⟩ := hf a u b t ht
  exact ⟨hwords'.trans hwords, fun k hk => (hkinds' k hk).elim (hkinds k) .inr⟩

theorem GivesKinds.mono {more : List Kind} (hm : GivesKinds kinds m) (hsub : kinds ⊆ more) :
    GivesKinds more m := by
  intro s a t h
  obtain ⟨hwords, hkinds⟩ := hm s a t h
  exact ⟨hwords, fun k hk => (hkinds k hk).imp_right fun hk => hsub hk⟩

theorem givesKinds_forM {f : α → EStateM Error Story PUnit} {as : List α}
    (h : ∀ a ∈ as, GivesKinds kinds (f a)) : GivesKinds kinds (as.forM f) := by
  induction as with
  | nil => exact givesKinds_pure ()
  | cons a rest ih =>
    exact (h a (List.mem_cons_self ..)).bind fun _ =>
      ih fun b hb => h b (List.mem_cons_of_mem _ hb)

theorem givesKinds_mapM {f : α → EStateM Error Story β} (h : ∀ a, GivesKinds kinds (f a))
    (as : List α) : GivesKinds kinds (as.mapM f) := by
  induction as with
  | nil => exact givesKinds_pure []
  | cons a rest ih =>
    rw [List.mapM_cons]
    exact (h a).bind fun _ => ih.bind fun _ => givesKinds_pure _

end Steps

theorem givesKinds_revise (key : String) (line : Nat) {f : Record → Except Conflict Record}
    (hf : ∀ r r', f r = .ok r' → r.Inherits kinds r') : GivesKinds kinds (revise key line f) := by
  intro s a t h
  unfold revise at h
  split at h
  · obtain rfl := (EStateM.Result.ok.inj h).2
    exact ⟨rfl, fun k hk => .inl hk⟩
  · next r hr =>
    split at h
    · next r' hr' =>
      obtain rfl := (EStateM.Result.ok.inj h).2
      refine ⟨rfl, ?_⟩
      rintro k ⟨new, hnew, line, hk⟩
      obtain ⟨old, hold, rfl⟩ := List.mem_map.mp hnew
      split at hk
      · rcases hf r r' hr' k line hk with ⟨earlier, hearlier⟩ | hmem
        · exact .inl ⟨r, mem_of_record? hr, earlier, hearlier⟩
        · exact .inr hmem
      · exact .inl ⟨old, hold, line, hk⟩
    · cases h

/-- What is mentioned has no kind yet. -/
theorem givesKinds_mention (m : Mention) : GivesKinds kinds (mention m) := by
  intro s key t h
  unfold mention at h
  dsimp only at h
  split at h
  · cases h
  split at h
  · obtain rfl := (EStateM.Result.ok.inj h).2
    exact ⟨rfl, fun k hk => .inl hk⟩
  · obtain rfl := (EStateM.Result.ok.inj h).2
    refine ⟨rfl, ?_⟩
    rintro k ⟨r, hr, line, hk⟩
    rcases List.mem_append.mp hr with hr | hr
    · exact .inl ⟨r, hr, line, hk⟩
    · rw [List.mem_singleton.mp hr] at hk
      cases hk

theorem givesKinds_reviseSubjects (line : Nat) {f : Record → Except Conflict Record}
    (hf : ∀ r r', f r = .ok r' → r.Inherits kinds r') : GivesKinds kinds (reviseSubjects line f) :=
  givesKinds_get.bind fun _ => givesKinds_forM fun key _ => givesKinds_revise key line hf

theorem givesKinds_describe (key text : String) : GivesKinds kinds (describe key text) :=
  givesKinds_revise key 0 fun r r' h => .of_kind (by rw [pure_ok_iff.mp h])

theorem givesKinds_place (p : Preposition) (target : Mention) (line : Nat) :
    GivesKinds [p.defaultKind] (place p target line) := by
  refine (givesKinds_mention target).bind fun key => givesKinds_get.bind fun s => ?_
  have hplaced : GivesKinds [p.defaultKind] (s.subjects.forM fun subject =>
      revise subject line fun r =>
        if subject = key then throw (.placedAtItself r.name p) else r.place ⟨p, key, line⟩) :=
    givesKinds_forM fun subject _ => givesKinds_revise subject line fun r r' h => by
      split at h
      · simp at h
      · exact Record.inherits_place h
  dsimp only
  split
  · exact (givesKinds_revise _ _ fun r r' h =>
      Record.inherits_setKind (List.mem_singleton_self _) h).bind fun _ => hplaced
  · exact hplaced

theorem givesKinds_locate (room : Mention) (direction : String) (origin : Mention)
    (line : Nat) : GivesKinds [.room] (locate room direction origin line) := by
  have hroom : ∀ key line, GivesKinds [Kind.room] (revise key line (·.setKind .room line)) :=
    fun key line => givesKinds_revise _ _ fun r r' h =>
      Record.inherits_setKind (List.mem_singleton_self _) h
  refine (givesKinds_mention origin).bind fun here => (hroom _ _).bind fun _ =>
    (hroom _ _).bind fun _ =>
      (givesKinds_revise _ _ fun r r' h => Record.inherits_addExit h).bind fun _ =>
        givesKinds_get.bind fun s => ?_
  split
  · exact givesKinds_revise _ _ fun r r' h => Record.inherits_addExit h
  · exact givesKinds_pure _

/-- New kinds leave the records alone. -/
theorem givesKinds_addKind (m : Mention) (parent : Kind) :
    GivesKinds kinds (addKind m parent) := by
  refine givesKinds_of_records ?_ ?_
  · intro s a t h
    obtain ⟨-, l, -, rfl⟩ := addKind_ok h
    rfl
  · intro s a t h
    obtain ⟨-, l, -, rfl⟩ := addKind_ok h
    rfl

/-- **A fact gives things just the kinds that it names or suggests.** -/
theorem givesKinds_accept (f : Fact) : GivesKinds f.kinds (accept f) := by
  cases f with
  | title text | author name => exact givesKinds_modify (fun _ => rfl) fun _ => rfl
  | subjects things =>
    refine givesKinds_get.bind fun s => ?_
    dsimp only
    split
    · exact givesKinds_throw _
    · exact (givesKinds_mapM givesKinds_mention things).bind fun _ =>
        givesKinds_modify (fun _ => rfl) fun _ => rfl
  | property property negated line =>
    exact givesKinds_reviseSubjects line fun r r' h => Record.inherits_claim h
  | kind kind line =>
    exact givesKinds_reviseSubjects line fun r r' h =>
      Record.inherits_setKind (List.mem_singleton_self _) h
  | placement p target line => exact givesKinds_place p target line
  | description text =>
    exact givesKinds_get.bind fun s => givesKinds_forM fun key _ => givesKinds_describe key text
  | descriptionOf thing text =>
    exact (givesKinds_mention thing).bind fun key => (givesKinds_describe key text).bind fun _ =>
      givesKinds_modify (fun _ => rfl) fun _ => rfl
  | remark text line =>
    refine givesKinds_get.bind fun s => ?_
    split
    · exact givesKinds_describe _ text
    · exact givesKinds_throw _
  | location room direction origin line => exact givesKinds_locate room direction origin line
  | newKinds names parent =>
    exact (givesKinds_forM fun m _ => givesKinds_addKind m parent).bind fun _ =>
      givesKinds_modify (fun _ => rfl) fun _ => rfl

/-- **Hearing a reading gives things just the kinds that its facts name or suggest.** -/
theorem givesKinds_hear (r : Reading) (e : Error) :
    GivesKinds (r.facts.flatMap Fact.kinds) (hear r e) := by
  intro s u t h
  have hfacts : GivesKinds (r.facts.flatMap Fact.kinds) (r.facts.forM accept) :=
    givesKinds_forM fun f hf => (givesKinds_accept f).mono fun k hk =>
      List.mem_flatMap.mpr ⟨f, hf, hk⟩
  exact hfacts s _ t (hear_ok_iff.mp h).1

/-- The bound on names is the same from beginning to end. -/
theorem maxWords_readAll {scanner : Scanner} {opening : Bool}
    (h : readAll scanner opening s = .ok () t) : t.maxWords = s.maxWords := by
  fun_induction readAll scanner opening s with
  | case1 scanner opening s ts e hsentence => exact (givesKinds_hear _ _ _ _ _ h).1
  | case2 => cases h
  | case3 scanner opening s ts rest u hresult hsentence =>
    obtain rfl := (EStateM.Result.ok.inj h).2
    exact (givesKinds_hear _ _ _ _ _ hresult).1
  | case4 scanner opening s ts atEnd rest hsentence u hresult hend ih =>
    exact (ih h).trans (givesKinds_hear _ _ _ _ _ hresult).1

end Story

end Adventure.Prose
