/-
What a source mentions, and in which order.

A thing is recorded when it is mentioned first, behind everything that was recorded before,
and it keeps its place.  Most facts mention nothing new: they only revise what was said of
things that are known.  So whatever a fact mentions, the keys of the story afterwards are
those before with the mentioned ones behind them, each once; and when the source has ended
they are the keys of all its mentions, in the order of the first.
-/
import Adventure.Proofs.Names
import Adventure.Proofs.Prose.Stories

namespace Adventure.Prose

/-- The key of what is mentioned. -/
def Mention.key (m : Mention) : String :=
  Text.lower m.name

/-- The things that a fact mentions.  What lies in a direction from an origin was mentioned
as the subject already. -/
def Fact.mentions : Fact → List Mention
  | .subjects things => things
  | .placement _ target _ => [target]
  | .descriptionOf thing _ => [thing]
  | .location _ _ origin _ => [origin]
  | _ => []

namespace Story

/-- The keys of the things, in order. -/
def keys (s : Story) : List String :=
  s.records.map (·.key)

/-- The facts that a source states from a scanner on, as they are taken in by a story. -/
def factsFrom (scanner : Scanner) (opening : Bool) (s : Story) : List Fact :=
  match _h : scanner.sentence s.lexicon with
  | .broken tokens _ => (readTokens s.lexicon opening tokens).facts
  | .whole tokens atEnd rest =>
    let reading := readTokens s.lexicon opening tokens
    match hear reading (.internal "a sentence has no end") s with
    | .error _ _ => reading.facts
    | .ok () t =>
      if _hend : atEnd = true then reading.facts else reading.facts ++ factsFrom rest false t
termination_by scanner.remaining
decreasing_by
  simp only [Bool.not_eq_true] at _hend
  exact Scanner.remaining_sentence (_hend ▸ _h)

/-- The facts that a source states, in order. -/
def factsOf (v : Vocabulary) (maxWords : Nat) (source : String) : List Fact :=
  factsFrom (.ofSource source maxWords) true (.empty v maxWords)

/-! ### Steps that mention things -/

/-- A step that mentions the things of some keys, in order. -/
def Mentions {α : Type} (m : EStateM Error Story α) (mentioned : List String) : Prop :=
  ∀ before s a t, s.keys = before.eraseDups → m s = .ok a t →
    t.keys = (before ++ mentioned).eraseDups

section Steps

variable {α β : Type} {m : EStateM Error Story α} {f : α → EStateM Error Story β}
variable {mentioned more : List String}

/-- A step that leaves the keys alone. -/
theorem mentions_of_keys (h : ∀ s a t, m s = .ok a t → t.keys = s.keys) : Mentions m [] := by
  intro before s a t hs ht
  rw [h s a t ht, hs, List.append_nil]

theorem mentions_pure (a : α) : Mentions (pure a) [] := by
  refine mentions_of_keys ?_
  rintro s _ t ⟨⟩
  rfl

theorem mentions_get : Mentions get [] := by
  refine mentions_of_keys ?_
  rintro s _ t ⟨⟩
  rfl

theorem mentions_throw (e : Error) : Mentions (throw e : EStateM Error Story α) mentioned := by
  intro before s a t _ ht
  cases ht

theorem mentions_modify {g : Story → Story} (h : ∀ s, (g s).records = s.records) :
    Mentions (modify g) [] := by
  refine mentions_of_keys ?_
  rintro s _ t ⟨⟩
  rw [keys, h]
  rfl

theorem Mentions.bind (hm : Mentions m mentioned) (hf : ∀ a, Mentions (f a) more) :
    Mentions (m >>= f) (mentioned ++ more) := by
  intro before s b t hs ht
  obtain ⟨a, u, hu, ht⟩ := run_bind_ok_iff.mp ht
  rw [← List.append_assoc]
  exact hf a _ u b t (hm before s a u hs hu) ht

/-- After a step that mentions nothing. -/
theorem Mentions.after (hm : Mentions m []) (hf : ∀ a, Mentions (f a) more) :
    Mentions (m >>= f) more :=
  hm.bind hf

/-- Before a step that mentions nothing. -/
theorem Mentions.before (hm : Mentions m mentioned) (hf : ∀ a, Mentions (f a) []) :
    Mentions (m >>= f) mentioned := by
  have h := hm.bind hf
  rwa [List.append_nil] at h

theorem mentions_forM {f : α → EStateM Error Story PUnit} {keysOf : α → List String}
    (h : ∀ a, Mentions (f a) (keysOf a)) (as : List α) :
    Mentions (as.forM f) (as.flatMap keysOf) := by
  induction as with
  | nil => exact mentions_pure ()
  | cons a rest ih => exact (h a).bind fun _ => ih

/-- Steps that mention nothing, for each of a list. -/
theorem mentions_forM_nothing {f : α → EStateM Error Story PUnit} (h : ∀ a, Mentions (f a) [])
    (as : List α) : Mentions (as.forM f) [] := by
  have hforM := mentions_forM h as
  rwa [List.flatMap_eq_nil_iff.mpr fun _ _ => rfl] at hforM

end Steps

/-! ### Facts -/

theorem mentions_revise (key : String) (line : Nat) (f : Record → Except Conflict Record) :
    Mentions (revise key line f) [] := by
  refine mentions_of_keys ?_
  intro s _ t h
  unfold revise at h
  split at h
  · obtain rfl := (EStateM.Result.ok.inj h).2
    rfl
  · split at h
    · obtain rfl := (EStateM.Result.ok.inj h).2
      exact keys_replace s _
    · cases h

theorem mem_keys_iff {s : Story} {key : String} : key ∈ s.keys ↔ (s.record? key).isSome := by
  simp [keys, record?]

/-- **A mention records what was not mentioned before**, behind everything else. -/
theorem mentions_mention (m : Mention) : Mentions (mention m) [m.key] := by
  intro before s key t hs h
  have hmem : m.key ∈ before ↔ (s.record? m.key).isSome := by
    rw [← mem_keys_iff, hs, List.mem_eraseDups]
  rw [eraseDups_concat, ← hs]
  unfold mention at h
  dsimp only at h
  split at h
  · cases h
  · split at h
    · next hknown =>
      obtain rfl := (EStateM.Result.ok.inj h).2
      rw [if_pos (hmem.mpr hknown)]
    · next hnew =>
      obtain rfl := (EStateM.Result.ok.inj h).2
      rw [if_neg (hnew ∘ hmem.mp), keys, List.map_append]
      rfl

theorem mentions_setSubjects (things : List Mention) :
    Mentions (setSubjects things) (things.map (·.key)) := by
  have hmapM : Mentions (things.mapM mention) (things.map (·.key)) := by
    induction things with
    | nil => exact mentions_pure []
    | cons m rest ih =>
      rw [List.mapM_cons]
      exact (mentions_mention m).bind fun _ => ih.before fun _ => mentions_pure _
  refine mentions_get.after ?_
  intro s
  dsimp only
  split
  · exact mentions_throw _
  · exact hmapM.before fun _ => mentions_modify fun _ => rfl

theorem mentions_place (p : Preposition) (target : Mention) (line : Nat) :
    Mentions (place p target line) [target.key] := by
  refine (mentions_mention target).before ?_
  intro key
  refine mentions_get.after ?_
  intro s
  have hplaced : Mentions (s.subjects.forM fun subject => revise subject line fun r =>
      if subject = key then throw (.placedAtItself r.name p) else r.place ⟨p, key, line⟩) [] :=
    mentions_forM_nothing (fun subject => mentions_revise subject line _) s.subjects
  dsimp only
  split
  · exact (mentions_revise _ _ _).after fun _ => hplaced
  · exact hplaced

theorem mentions_locate (room : Mention) (direction : String) (origin : Mention) (line : Nat) :
    Mentions (locate room direction origin line) [origin.key] := by
  refine (mentions_mention origin).before ?_
  intro here
  refine (mentions_revise _ _ _).after fun _ => ?_
  refine (mentions_revise _ _ _).after fun _ => ?_
  refine (mentions_revise _ _ _).after fun _ => ?_
  refine mentions_get.after ?_
  intro s
  split
  · exact mentions_revise _ _ _
  · exact mentions_pure _

theorem mentions_addKind (m : Mention) (parent : Kind) : Mentions (addKind m parent) [] := by
  refine mentions_of_keys ?_
  intro s _ t h
  unfold addKind at h
  split at h
  · cases h
  · split at h
    · obtain rfl := (EStateM.Result.ok.inj h).2
      rfl
    · cases h

theorem mentions_reviseSubjects (line : Nat) (f : Record → Except Conflict Record) :
    Mentions (reviseSubjects line f) [] :=
  mentions_get.after fun s => mentions_forM_nothing (fun key => mentions_revise key line f) s.subjects

/-- **A fact that is taken in mentions just what it says.** -/
theorem mentions_accept (f : Fact) : Mentions (accept f) (f.mentions.map (·.key)) := by
  cases f with
  | title text => exact mentions_modify fun _ => rfl
  | author name => exact mentions_modify fun _ => rfl
  | subjects things => exact mentions_setSubjects things
  | property property negated line => exact mentions_reviseSubjects line _
  | kind kind line => exact mentions_reviseSubjects line _
  | placement p target line => exact mentions_place p target line
  | description text =>
    exact mentions_get.after fun s =>
      mentions_forM_nothing (fun key => mentions_revise key 0 _) s.subjects
  | descriptionOf thing text =>
    exact (mentions_mention thing).before fun key =>
      (mentions_revise key 0 _).after fun _ => mentions_modify fun _ => rfl
  | remark text line =>
    refine mentions_get.after ?_
    intro s
    split
    · exact mentions_revise _ 0 _
    · exact mentions_throw _
  | location room direction origin line => exact mentions_locate room direction origin line
  | newKinds names parent =>
    exact (mentions_forM_nothing (fun m => mentions_addKind m parent) names).after fun _ =>
      mentions_modify fun _ => rfl

/-! ### Sources -/

/-- The keys of what facts mention, in order. -/
def mentionedKeys (facts : List Fact) : List String :=
  (facts.flatMap (·.mentions)).map (·.key)

theorem mentions_hear (r : Reading) (scanning : Error) :
    Mentions (hear r scanning) (mentionedKeys r.facts) := by
  have hfacts : Mentions (r.facts.forM accept) (mentionedKeys r.facts) := by
    rw [mentionedKeys, List.map_flatMap]
    exact mentions_forM mentions_accept r.facts
  refine hfacts.before ?_
  intro _
  split
  · exact mentions_throw _
  · exact mentions_pure _

theorem factsFrom_of_broken {scanner : Scanner} {s : Story} {ts : List Token} {e : Error}
    (h : scanner.sentence s.lexicon = .broken ts e) (opening : Bool) :
    factsFrom scanner opening s = (readTokens s.lexicon opening ts).facts := by
  rw [factsFrom]
  split
  · next heq =>
    rw [h] at heq
    cases heq
    rfl
  · next heq =>
    rw [h] at heq
    cases heq

theorem factsFrom_of_whole {scanner rest : Scanner} {opening atEnd : Bool} {s t : Story}
    {ts : List Token} (h : scanner.sentence s.lexicon = .whole ts atEnd rest)
    (ht : hear (readTokens s.lexicon opening ts) (.internal "a sentence has no end") s = .ok () t) :
    factsFrom scanner opening s = (readTokens s.lexicon opening ts).facts ++
      if atEnd = true then [] else factsFrom rest false t := by
  rw [factsFrom]
  split
  · next heq =>
    rw [h] at heq
    cases heq
  · next heq =>
    rw [h] at heq
    cases heq
    dsimp only
    rw [ht]
    dsimp only
    cases atEnd with
    | true => exact (List.append_nil _).symm
    | false => rfl

theorem keys_readAll {scanner : Scanner} {opening : Bool} {s t : Story} (before : List String)
    (hs : s.keys = before.eraseDups) (h : readAll scanner opening s = .ok () t) :
    t.keys = (before ++ mentionedKeys (factsFrom scanner opening s)).eraseDups := by
  fun_induction readAll scanner opening s generalizing before with
  | case1 scanner opening s ts e hsentence =>
    rw [factsFrom_of_broken hsentence]
    exact mentions_hear _ e before s () t hs h
  | case2 scanner opening s ts atEnd rest hsentence e u hresult => cases h
  | case3 scanner opening s ts rest u hresult hsentence =>
    obtain rfl := (EStateM.Result.ok.inj h).2
    rw [factsFrom_of_whole hsentence hresult, if_pos rfl, List.append_nil]
    exact mentions_hear _ _ before s () u hs hresult
  | case4 scanner opening s ts atEnd rest hsentence u hresult hend ih =>
    rw [factsFrom_of_whole hsentence hresult, if_neg hend, mentionedKeys, List.flatMap_append,
      List.map_append, ← List.append_assoc]
    exact ih _ (mentions_hear _ _ before s () u hs hresult) h

/-- **The things of a story are those that its source mentions**, in the order of their first
mention. -/
theorem keys_ofSource {v : Vocabulary} {maxWords : Nat} {source : String} {s : Story}
    (h : ofSource v maxWords source = .ok () s) :
    s.keys = (mentionedKeys (factsOf v maxWords source)).eraseDups :=
  keys_readAll [] rfl h

end Story

end Adventure.Prose
