/-
Stories retold in small letters.

A story knows its things by their lowercase names, so the same story is told by a source and
by its lowered form: the names as they were first written differ, everything else is the
same.  A step is retold if it does the same in both, with both stories related as before, or
fails in both with errors that differ in their words at most.  Such judgements compose along a
sequence of steps; each fact is judged once, and a source is a sequence of facts.
-/
import Adventure.Proofs.Prose.Wordings
import Adventure.Prose.Story

namespace Adventure

/-! ### Errors apart from their words -/

/-- A cause without the names and messages in it: its kind and its line. -/
def Cause.unworded : Cause → Cause
  | .lex _ line => .lex "" line
  | .parse _ line => .parse "" line
  | .unresolved _ => .unresolved []
  | .validation _ line => .validation "" line
  | .noStartRoom => .noStartRoom
  | .unreadable _ _ => .unreadable "" ""
  | .internal _ => .internal ""

/-- An error apart from its words: the kind of its cause, its line, and where it was met. -/
def Error.unworded (e : Error) : Error :=
  { e with cause := e.cause.unworded }

/-- Errors about what one line says differ in their words at most. -/
theorem Error.unworded_parse (message message' : String) (line : Nat) :
    (Error.parse message line).unworded = (Error.parse message' line).unworded :=
  rfl

namespace Prose

theorem Flaw.unworded_error_lowered {e e' : Error} (h : e'.unworded = e.unworded) (f : Flaw) :
    (f.lowered.error e').unworded = (f.error e).unworded := by
  cases f with
  | unexpected found expected =>
    simp only [Flaw.lowered, Flaw.error, Token.line_lowered]
    exact Error.unworded_parse _ _ _
  | worldly word line | unknown word line => exact Error.unworded_parse _ _ _
  | cutShort => exact h
  | severalRooms | severalDescribed => rfl

/-! ### Lowered stories -/

/-- What is said of a thing, its name in small letters. -/
def Record.lowered (r : Record) : Record :=
  { r with name := r.name.toLower }

namespace Record

variable (r : Record)

@[simp] theorem key_lowered : r.lowered.key = r.key :=
  Text.lower_toLower r.name

@[simp] theorem line_lowered : r.lowered.line = r.line := rfl

@[simp] theorem kind_lowered : r.lowered.kind = r.kind := rfl

@[simp] theorem assertions_lowered : r.lowered.assertions = r.assertions := rfl

@[simp] theorem plain_lowered : r.lowered.plain = r.plain := rfl

@[simp] theorem placement_lowered : r.lowered.placement = r.placement := rfl

@[simp] theorem exits_lowered : r.lowered.exits = r.exits := rfl

@[simp] theorem description_lowered : r.lowered.description = r.description := rfl

end Record

theorem toOption_bind {ε α β : Type} (x : Except ε α) (k : α → Except ε β) :
    (x >>= k).toOption = x.toOption.bind fun a => (k a).toOption := by
  cases x <;> rfl

/-- A revision that case does not matter to: what it makes of a thing, or that it refuses
to, does not depend on the case of the name. -/
def IgnoresCase (f : Record → Except Conflict Record) : Prop :=
  ∀ r, (f r.lowered).toOption = (f r).toOption.map Record.lowered

theorem toOption_mergeKind_lowered (r : Record) (kind : Kind) :
    (r.lowered.mergeKind kind).toOption = (r.mergeKind kind).toOption := by
  rw [Record.mergeKind, Record.mergeKind, Record.kind_lowered]
  split
  · rfl
  · split <;> rfl

theorem ignoresCase_setKind (kind : Kind) (line : Nat) : IgnoresCase (·.setKind kind line) := by
  intro r
  simp only [Record.setKind, Record.plain_lowered, Record.kind_lowered]
  split
  · rfl
  · simp only [toOption_bind, toOption_mergeKind_lowered, Option.map_bind]
    congr 1
    funext merged
    simp only [Function.comp_apply]
    split <;> rfl

theorem toOption_checkFits_lowered (r : Record) (property : Property) :
    (r.lowered.checkFits property).toOption = (r.checkFits property).toOption := by
  have hexcluded : r.lowered.excludedBy? property = r.excludedBy? property := rfl
  rw [Record.checkFits, Record.checkFits, Record.kind_lowered, hexcluded]
  split
  · split <;> rfl
  · split <;> rfl

theorem addAssertion_lowered (r : Record) (a : Assertion) :
    r.lowered.addAssertion a = (r.addAssertion a).lowered := by
  rw [Record.addAssertion, Record.addAssertion, Record.assertions_lowered]
  split <;> rfl

theorem ignoresCase_claim (a : Assertion) : IgnoresCase (·.claim a) := by
  intro r
  simp only [Record.claim, Record.assertions_lowered, addAssertion_lowered]
  split
  · rfl
  · split
    · simp only [toOption_bind, toOption_checkFits_lowered, Option.map_bind]
      rfl
    · rfl

theorem ignoresCase_addExit (exit : Exit) : IgnoresCase (·.addExit exit) := by
  intro r
  simp only [Record.addExit, Record.exits_lowered]
  split
  · split <;> rfl
  · rfl

theorem ignoresCase_place (p : Placement) : IgnoresCase (·.place p) := by
  intro r
  simp only [Record.place, Record.placement_lowered]
  split
  · split <;> rfl
  · rfl

namespace Story

/-- A story with the names of its things, and that of its author, in small letters. -/
def lowered (s : Story) : Story :=
  { s with records := s.records.map Record.lowered, author := s.author.map String.toLower }

variable {s : Story} {key : String} {r : Record}

@[simp] theorem lexicon_lowered (s : Story) : s.lowered.lexicon = s.lexicon := rfl

@[simp] theorem subjects_lowered (s : Story) : s.lowered.subjects = s.subjects := rfl

theorem record?_lowered (s : Story) (key : String) :
    s.lowered.record? key = (s.record? key).map Record.lowered := by
  have hkey : (fun r : Record => r.key == key) ∘ Record.lowered = fun r => r.key == key :=
    funext fun r => congrArg (· == key) r.key_lowered
  rw [record?, record?, lowered, List.find?_map, hkey]

theorem replace_lowered (s : Story) (r : Record) :
    s.lowered.replace r.lowered = (s.replace r).lowered := by
  have hrecords : (s.records.map Record.lowered).map
        (fun old => if old.key = r.lowered.key then r.lowered else old) =
      (s.records.map fun old => if old.key = r.key then r else old).map Record.lowered := by
    rw [List.map_map, List.map_map]
    refine List.map_congr_left ?_
    intro old _
    simp only [Function.comp_apply, Record.key_lowered]
    split <;> rfl
  exact congrArg (fun records => { s.lowered with records }) hrecords

/-! ### Steps -/

/-- What a step comes to and what it comes to when retold: the same, or errors that differ in
their words at most. -/
inductive Retold {α : Type} (f : α → α) :
    EStateM.Result Error Story α → EStateM.Result Error Story α → Prop
  | ok (a : α) (t : Story) : Retold f (.ok a t) (.ok (f a) t.lowered)
  | error {e e' : Error} (h : e'.unworded = e.unworded) (t t' : Story) :
    Retold f (.error e t) (.error e' t')

/-- A step and another that retells it. -/
def Retells {α : Type} (f : α → α) (m m' : EStateM Error Story α) : Prop :=
  ∀ s, Retold f (m s) (m' s.lowered)

section Steps

variable {α β : Type} {f : α → α} {g : β → β} {m m' : EStateM Error Story α}
variable {k k' : α → EStateM Error Story β}

theorem Retold.of_ok {a : α} {t : Story} {x : EStateM.Result Error Story α}
    (h : Retold f (.ok a t) x) : x = .ok (f a) t.lowered := by
  cases h
  rfl

theorem Retold.of_error {e : Error} {t : Story} {x : EStateM.Result Error Story α}
    (h : Retold f (.error e t) x) : ∃ e' t', x = .error e' t' ∧ e'.unworded = e.unworded := by
  cases h with
  | error h t t' => exact ⟨_, t', rfl, h⟩

theorem Retells.bind (hm : Retells f m m') (hk : ∀ a, Retells g (k a) (k' (f a))) :
    Retells g (m >>= k) (m' >>= k') := by
  intro s
  have hs := hm s
  cases hstep : m s with
  | ok a t =>
    rw [hstep] at hs
    rw [run_bind_of_ok hstep, run_bind_of_ok hs.of_ok]
    exact hk a t
  | error e t =>
    rw [hstep] at hs
    obtain ⟨e', t', hstep', he⟩ := hs.of_error
    rw [run_bind_of_error hstep, run_bind_of_error hstep']
    exact .error he t t'

theorem retells_pure (a : α) : Retells f (pure a) (pure (f a)) :=
  fun s => .ok a s

theorem retells_get : Retells lowered get get :=
  fun s => .ok s s

theorem retells_throw {e e' : Error} (h : e'.unworded = e.unworded) :
    Retells f (throw e) (throw e') :=
  fun s => .error h s s.lowered

theorem retells_modify {change change' : Story → Story}
    (h : ∀ s, change' s.lowered = (change s).lowered) :
    Retells id (modify change) (modify change') := by
  intro s
  have hstep : (modify change' : EStateM Error Story PUnit) s.lowered =
      .ok PUnit.unit (change s).lowered :=
    congrArg (EStateM.Result.ok PUnit.unit) (h s)
  rw [hstep]
  exact .ok PUnit.unit (change s)

theorem retells_forM {γ : Type} {w : γ → γ} {step step' : γ → EStateM Error Story PUnit}
    (h : ∀ a, Retells id (step a) (step' (w a))) (as : List γ) :
    Retells id (as.forM step) ((as.map w).forM step') := by
  induction as with
  | nil => exact retells_pure _
  | cons a rest ih => exact (h a).bind fun _ => ih

/-- Steps for things that go by their keys. -/
theorem retells_forM_same {γ : Type} {step : γ → EStateM Error Story PUnit}
    (h : ∀ a, Retells id (step a) (step a)) (as : List γ) :
    Retells id (as.forM step) (as.forM step) := by
  have hmap := retells_forM (w := id) h as
  rwa [List.map_id] at hmap

end Steps

/-! ### What each step does -/

theorem retells_revise (key : String) (line : Nat) {f : Record → Except Conflict Record}
    (hf : IgnoresCase f) : Retells id (revise key line f) (revise key line f) := by
  intro s
  unfold revise
  rw [record?_lowered]
  cases s.record? key with
  | none => exact .ok () s
  | some r =>
    have hr := hf r
    dsimp only [Option.map_some]
    cases hresult : f r with
    | ok t =>
      rw [hresult] at hr
      cases hresult' : f r.lowered with
      | ok t' =>
        rw [hresult'] at hr
        obtain rfl := Option.some.inj hr
        dsimp only
        rw [replace_lowered]
        exact .ok () (s.replace t)
      | error c =>
        rw [hresult'] at hr
        cases hr
    | error c =>
      rw [hresult] at hr
      cases hresult' : f r.lowered with
      | ok t' =>
        rw [hresult'] at hr
        cases hr
      | error c' => exact .error (Error.unworded_parse _ _ _) s s.lowered

theorem retells_mention (m : Mention) : Retells id (mention m) (mention m.lowered) := by
  intro s
  unfold mention
  simp only [Mention.lower_name_lowered, lexicon_lowered, record?_lowered, Option.isSome_map]
  split
  · exact .error (Error.unworded_parse _ _ _) s s.lowered
  · split
    · exact .ok _ s
    · have hrecords : s.lowered.records ++ [Record.fresh m.lowered.name m.lowered.line] =
          (s.records ++ [Record.fresh m.name m.line]).map Record.lowered := by
        rw [List.map_append]
        rfl
      rw [hrecords]
      exact .ok _ { s with records := s.records ++ [.fresh m.name m.line] }

theorem retells_describe (key text : String) : Retells id (describe key text) (describe key text) :=
  retells_revise key 0 fun _ => rfl

theorem retells_reviseSubjects (line : Nat) {f : Record → Except Conflict Record}
    (hf : IgnoresCase f) : Retells id (reviseSubjects line f) (reviseSubjects line f) := by
  refine retells_get.bind fun s => ?_
  exact retells_forM_same (fun key => retells_revise key line hf) s.subjects

theorem retells_mapM_mention (things : List Mention) :
    Retells id (things.mapM mention) ((things.map Mention.lowered).mapM mention) := by
  induction things with
  | nil => exact retells_pure []
  | cons m rest ih =>
    rw [List.map_cons, List.mapM_cons, List.mapM_cons]
    refine (retells_mention m).bind fun key => ih.bind fun keys => ?_
    exact retells_pure (f := id) (key :: keys)

theorem retells_setSubjects (things : List Mention) :
    Retells id (setSubjects things) (setSubjects (things.map Mention.lowered)) := by
  refine retells_get.bind fun s => ?_
  have hkind : (fun m : Mention => s.lexicon.isKind m.name) ∘ Mention.lowered =
      fun m => s.lexicon.isKind m.name :=
    funext fun m => isKind_toLower s.lexicon m.name
  simp only [lexicon_lowered, List.find?_map, hkind]
  cases things.find? fun m => s.lexicon.isKind m.name with
  | some m => exact retells_throw rfl
  | none => exact (retells_mapM_mention things).bind fun keys => retells_modify fun _ => rfl

theorem ignoresCase_placeElsewhere (subject key : String) (p : Preposition) (line : Nat) :
    IgnoresCase fun r =>
      if subject = key then throw (.placedAtItself r.name p) else r.place ⟨p, key, line⟩ := by
  intro r
  dsimp only
  split
  · rfl
  · exact ignoresCase_place ⟨p, key, line⟩ r

theorem retells_place (p : Preposition) (target : Mention) (line : Nat) :
    Retells id (place p target line) (place p target.lowered line) := by
  refine (retells_mention target).bind fun key => retells_get.bind fun s => ?_
  have hplaced := retells_forM_same (fun subject => retells_revise subject line
    (ignoresCase_placeElsewhere subject key p line)) s.subjects
  have hundecided : ((s.lowered.record? key).any fun r => r.kind.isNone && r.plain.isEmpty) =
      (s.record? key).any fun r => r.kind.isNone && r.plain.isEmpty := by
    rw [record?_lowered, Option.any_map]
    rfl
  simp only [id, hundecided, subjects_lowered]
  split
  · exact (retells_revise _ _ (ignoresCase_setKind _ _)).bind fun _ => hplaced
  · exact hplaced

theorem retells_locate (room : Mention) (direction : String) (origin : Mention) (line : Nat) :
    Retells id (locate room direction origin line)
      (locate room.lowered direction origin.lowered line) := by
  unfold locate
  rw [Mention.lower_name_lowered]
  refine (retells_mention origin).bind fun here => ?_
  refine (retells_revise _ _ (ignoresCase_setKind _ _)).bind fun _ => ?_
  refine (retells_revise _ _ (ignoresCase_setKind _ _)).bind fun _ => ?_
  refine (retells_revise _ _ (ignoresCase_addExit _)).bind fun _ => ?_
  refine retells_get.bind fun s => ?_
  rw [lexicon_lowered]
  split
  · exact retells_revise _ _ (ignoresCase_addExit _)
  · exact retells_pure _

theorem retells_addKind (m : Mention) (parent : Kind) :
    Retells id (addKind m parent) (addKind m.lowered parent) := by
  intro s
  have hdeclare : s.lowered.lexicon.declareKind m.lowered.name parent s.lowered.maxWords =
      s.lexicon.declareKind m.name parent s.maxWords := by
    unfold Lexicon.declareKind
    rw [Mention.lower_name_lowered]
    rfl
  unfold addKind
  simp only [Mention.lower_name_lowered, record?_lowered, Option.isSome_map, hdeclare]
  split
  · exact .error (Error.unworded_parse _ _ _) s s.lowered
  · split
    · exact .ok () { s with lexicon := _ }
    · exact .error rfl s s.lowered

/-- **Each fact is taken in alike**, whatever the case of its names. -/
theorem retells_accept (fact : Fact) : Retells id (accept fact) (accept fact.lowered) := by
  cases fact with
  | title text => exact retells_modify fun _ => rfl
  | author name => exact retells_modify fun _ => rfl
  | subjects things => exact retells_setSubjects things
  | property property negated line =>
    exact retells_reviseSubjects line (ignoresCase_claim ⟨property, negated, line⟩)
  | kind kind line => exact retells_reviseSubjects line (ignoresCase_setKind kind line)
  | placement p target line => exact retells_place p target line
  | description text =>
    refine retells_get.bind fun s => ?_
    exact retells_forM_same (fun key => retells_describe key text) s.subjects
  | descriptionOf thing text =>
    refine (retells_mention thing).bind fun key => ?_
    exact (retells_describe key text).bind fun _ => retells_modify fun _ => rfl
  | remark text line =>
    refine retells_get.bind fun s => ?_
    rw [subjects_lowered]
    split
    · exact retells_describe _ text
    · exact retells_throw rfl
  | location room direction origin line => exact retells_locate room direction origin line
  | newKinds names parent =>
    refine (retells_forM (fun m => retells_addKind m parent) names).bind fun _ => ?_
    exact retells_modify fun _ => rfl

theorem retells_hear (r : Reading) {e e' : Error} (h : e'.unworded = e.unworded) :
    Retells id (hear r e) (hear r.lowered e') := by
  have hflaw : r.lowered.flaw = r.flaw.map Flaw.lowered := rfl
  refine (retells_forM retells_accept r.facts).bind fun _ => ?_
  rw [hflaw]
  cases r.flaw with
  | none => exact retells_pure _
  | some f => exact retells_throw (f.unworded_error_lowered h)

theorem sentence_lowered_of_eq {scanner : Scanner} {sentence : Sentence}
    (h : scanner.sentence s.lexicon = sentence) :
    scanner.lowered.sentence s.lowered.lexicon = sentence.lowered := by
  rw [← h]
  exact Scanner.sentence_lowered s.lexicon scanner

/-- **A source in small letters tells the same story.** -/
theorem retold_readAll (scanner : Scanner) (opening : Bool) (s : Story) :
    Retold id (readAll scanner opening s) (readAll scanner.lowered opening s.lowered) := by
  have hread : ∀ (s : Story) opening ts,
      readTokens s.lowered.lexicon opening (ts.map Token.lowered) =
        (readTokens s.lexicon opening ts).lowered :=
    fun s opening ts => readTokens_lowered s.lexicon opening ts
  have hheard : ∀ (s : Story) (r : Reading) e,
      Retold id (hear r e s) (hear r.lowered e s.lowered) :=
    fun s r e => retells_hear r rfl s
  fun_induction readAll scanner opening s with
  | case1 scanner opening s ts e hsentence =>
    rw [readAll, sentence_lowered_of_eq hsentence]
    dsimp only [Sentence.lowered]
    rw [hread]
    exact hheard s _ e
  | case2 scanner opening s ts atEnd rest hsentence e t hresult =>
    have hstep := hheard s (readTokens s.lexicon opening ts) (.internal "a sentence has no end")
    rw [hresult] at hstep
    obtain ⟨e', t', hresult', he⟩ := hstep.of_error
    rw [readAll_of_whole (sentence_lowered_of_eq hsentence), hread, hresult']
    exact .error he t t'
  | case3 scanner opening s ts rest t hresult hsentence =>
    have hstep := hheard s (readTokens s.lexicon opening ts) (.internal "a sentence has no end")
    rw [hresult] at hstep
    rw [readAll_of_whole (sentence_lowered_of_eq hsentence), hread, hstep.of_ok]
    exact .ok () t
  | case4 scanner opening s ts atEnd rest hsentence t hresult hend ih =>
    have hstep := hheard s (readTokens s.lexicon opening ts) (.internal "a sentence has no end")
    rw [hresult] at hstep
    rw [readAll_of_whole (sentence_lowered_of_eq hsentence), hread, hstep.of_ok]
    dsimp only
    rw [if_neg hend]
    exact ih

/-- The story of a source, and that of the source in small letters. -/
theorem retold_ofSource (v : Vocabulary) (maxWords : Nat) (source : String) :
    Retold id (ofSource v maxWords source)
      (ofSource v maxWords (String.ofList (lowerProse .prose source.toList))) := by
  rw [ofSource, ofSource, Scanner.ofSource_lowerProse]
  exact retold_readAll _ true (empty v maxWords)

end Story

end Prose

end Adventure
