/-
Listening token by token.

A source of prose can be read without knowing where its sentences end.  The listener asks for one
token after the other, decides by each what comes next, and puts the one that does not belong
there back: the verb behind the subjects, the word that a definition begins with, the end of a
sentence behind a name, and the end of the source, which must be found once more by whoever asks
next.  What is said is taken in as soon as it is understood.

Nothing in the way this is written makes it end, so each loop is given patience for so many
rounds.  What comes of listening is what comes of it with patience enough.
-/
import Adventure.Proofs.Outcome
import Adventure.Proofs.Patience
import Adventure.Proofs.Prose.Offers

namespace Adventure.Prose

/-! ### Listeners -/

/-- A lexer, and the story that its tokens tell. -/
structure Listener where
  lexer : Lexer
  story : Story

/-- What a listener does.  It may fail, and then leaves the listener as it is; it has no value if
patience runs out. -/
abbrev Listening := ExceptT Error (StateT Listener Option)

namespace Listening

/-- Asks for the next token. -/
def next : Listening Token := ExceptT.mk fun p =>
  match Lexer.next p.story.lexicon p.lexer with
  | .ok t lexer => some (.ok t, { p with lexer })
  | .error e lexer => some (.error e, { p with lexer })

/-- Puts a token back. -/
def putBack (t : Token) : Listening Unit := ExceptT.mk fun p =>
  some (.ok (), { p with lexer := p.lexer.push t })

/-- Takes in a fact. -/
def learn (fact : Fact) : Listening Unit := ExceptT.mk fun p =>
  match Story.accept fact p.story with
  | .ok () story => some (.ok (), { p with story })
  | .error e story => some (.error e, { p with story })

/-- The words that are known so far. -/
def lexicon : Listening Lexicon := ExceptT.mk fun p =>
  some (.ok p.story.lexicon, p)

/-- Fails on a flaw. -/
def refuse {α : Type} (f : Flaw) : Listening α :=
  throw (f.error (.internal "a sentence has no end"))

/-- Patience has run out. -/
def giveUp {α : Type} : Listening α := ExceptT.mk fun _ => none

/-- Leaves a sentence behind its last token.  The end of the source is put back. -/
def leave (t : Token) : Listening Unit :=
  if t.kind = .finish then putBack t else pure ()

/-- Insists on the end of the sentence. -/
def expectEnd : Listening Unit := do
  let t ← next
  if t.endsSentence then leave t else refuse (.unexpected t .endOfSentence)

/-- Listens to a name that ends the sentence, whose end is put back. -/
def name : Nat → List Token → Listening Mention
  | 0, _ => giveUp
  | n + 1, before => do
    let t ← next
    match t.kind, before with
    | .article, _ => name n before
    | .word, _ => name n (before ++ [t])
    | .stop, first :: more | .finish, first :: more => do
      putBack t
      pure (.ofWords first more)
    | _, _ => refuse (.unexpected t .name)

/-- Listens to the subjects of a sentence up to its verb, which is put back. -/
def subjects : Nat → List Mention → List Token → Bool → Listening (List Mention)
  | 0, _, _, _ => giveUp
  | n + 1, done, before, afterComma => do
    let t ← next
    match t.kind, before with
    | .article, _ => subjects n done before afterComma
    | .word, _ => subjects n done (before ++ [t]) false
    | .comma, [] => refuse (.unexpected t .name)
    | .comma, first :: more => subjects n (done ++ [.ofWords first more]) [] true
    | .conjunction, [] =>
      if afterComma then subjects n done [] false else refuse (.unexpected t .name)
    | .conjunction, first :: more => subjects n (done ++ [.ofWords first more]) [] false
    | .equality, first :: more => do
      putBack t
      pure (done ++ [.ofWords first more])
    | _, _ => refuse (.unexpected t .subjectOrVerb)

/-- The next token that is no article. -/
def pastArticles : Nat → Listening Token
  | 0 => giveUp
  | n + 1 => do
    let t ← next
    if t.kind = .article then pastArticles n else pure t

/-- Listens to where the subjects are. -/
def placement (p : Preposition) (line : Nat) (n : Nat) : Listening Unit := do
  let target ← name n []
  expectEnd
  learn (.placement p target line)

/-- Listens to properties, kinds, a placement and a description. -/
def definition (several : Bool) : Nat → Bool → Bool → Listening Unit
  | 0, _, _ => giveUp
  | n + 1, negated, started => do
    let t ← next
    match t.kind with
    | .article | .comma | .conjunction => definition several n negated started
    | .stop | .finish =>
      if started && !negated then leave t else refuse (.unexpected t .kindOrProperty)
    | .quoted =>
      if !started then refuse (.unexpected t .kindOrProperty)
      else if several then refuse (.severalDescribed t.line)
      else do
        learn (.description t.text)
        expectEnd
    | .word => do
      match Predicate.ofWord (← lexicon) negated t with
      | .error f => refuse f
      | .ok .negation => definition several n true started
      | .ok (.placement p) => placement p t.line n
      | .ok (.property p) => do
        learn (.property p negated t.line)
        definition several n false true
      | .ok (.kind k) => do
        learn (.kind k t.line)
        definition several n negated true
    | _ => refuse (.unexpected t .kindOrProperty)

/-- Listens to where the one subject lies in a direction from. -/
def location (things : List Mention) (direction : Token) (n : Nat) : Listening Unit :=
  match things with
  | [room] => do
    let t ← next
    if t.isWord "of" || t.isWord "from" then do
      let origin ← name n []
      expectEnd
      learn (.location room (Text.lower direction.text) origin direction.line)
    else refuse (.unexpected t .origin)
  | _ => refuse (.severalRooms direction.line)

/-- Listens to what kind the subjects are to be kinds of. -/
def newKinds (things : List Mention) (n : Nat) : Listening Unit := do
  let t ← next
  if t.isWord "of" then do
    let t ← pastArticles n
    match ((← lexicon).kind? t.text).filter fun _ => t.kind = .word with
    | none => refuse (.unexpected t .kind)
    | some parent => do
      expectEnd
      learn (.newKinds things parent)
  else refuse (.unexpected t (.word "of"))

/-- Listens to what is said of the subjects. -/
def equality (things : List Mention) (n : Nat) : Listening Unit := do
  let t ← pastArticles n
  if t.isWord "kind" then newKinds things n
  else do
    learn (.subjects things)
    if t.kind = .word && (← lexicon).isDirection t.text then location things t n
    else do
      putBack t
      definition (things.length ≠ 1) n false false

/-- Listens to a statement: subjects, a verb, and what is said of them. -/
def statement (n : Nat) : Listening Unit := do
  let things ← subjects n [] [] false
  let verb ← next
  if verb.kind ≠ .equality then
    throw (.parse s!"expected \"is\" or \"are\" but found {verb.found}" verb.line)
  else
    match describedThing? things with
    | none => equality things n
    | some thing => do
      let t ← next
      if t.kind = .quoted then do
        learn (.descriptionOf thing t.text)
        expectEnd
      else refuse (.unexpected t .quotedText)

/-- Listens to the title of the game and its author, if the source begins with them. -/
def opening (n : Nat) : Listening Unit := do
  let t ← next
  if t.kind = .quoted then do
    learn (.title (titleText t.text))
    let t ← next
    if t.isWord "by" then do
      let author ← name n []
      learn (.author author.name)
      expectEnd
    else do
      putBack t
      expectEnd
  else putBack t

/-- Listens to one sentence after the other, up to the end of the source. -/
def sentences : Nat → Listening Unit
  | 0 => giveUp
  | n + 1 => do
    let t ← next
    match t.kind with
    | .finish => pure ()
    | .stop => sentences n
    | .quoted => do
      learn (.remark t.text t.line)
      expectEnd
      sentences n
    | _ => do
      putBack t
      statement n
      sentences n

/-- Listens to a whole source. -/
def source (n : Nat) : Listening Unit := do
  opening n
  sentences n

end Listening

/-! ### What comes of listening -/

/-- What comes of listening, with the story alone. -/
def Listener.told : Except Error Unit × Listener → EStateM.Result Error Story Unit
  | (.ok (), p) => .ok () p.story
  | (.error e, p) => .error e p.story

namespace Listening

variable {α β : Type} {m : Nat → Listening α} {f : α → Nat → Listening β} {p q r : Listener}
  {a : α} {b : β}

/-- With patience enough listening comes to an end, with this result and in this state. -/
def Gives (m : Nat → Listening α) (p : Listener) (result : Except Error α) (q : Listener) :
    Prop :=
  Ultimately (fun n => (m n).run.run p) (result, q)

theorem Gives.of_succ {result : Except Error α} (h : Gives (fun n => m (n + 1)) p result q) :
    Gives m p result q :=
  Ultimately.of_succ h

theorem gives_bind {result : Except Error β} (hm : Gives m p (.ok a) q)
    (hf : Gives (f a) q result r) : Gives (fun n => m n >>= fun a => f a n) p result r :=
  Ultimately.bind hm hf

theorem gives_bind_error {e : Error} (hm : Gives m p (.error e) q) :
    Gives (fun n => m n >>= fun a => f a n) p (.error e) q :=
  Ultimately.bind hm (.of_forall fun _ => rfl)

theorem gives_pure (a : α) (p : Listener) : Gives (fun _ => pure a) p (.ok a) p :=
  .of_forall fun _ => rfl

/-- Whether a flaw is that the sentence is cut short. -/
def isCut : Flaw → Bool
  | .cutShort => true
  | _ => false

theorem error_congr {f : Flaw} (hf : isCut f = false) (e e' : Error) : f.error e = f.error e' := by
  cases f with
  | cutShort => cases hf
  | unexpected | severalRooms | severalDescribed | worldly | unknown => rfl

theorem gives_refuse {f : Flaw} (hf : isCut f = false) (e : Error) (p : Listener) :
    Gives (fun _ => (refuse f : Listening α)) p (.error (f.error e)) p := by
  rw [error_congr hf e (.internal "a sentence has no end")]
  exact .of_forall fun _ => rfl

theorem gives_putBack (t : Token) (p : Listener) :
    Gives (fun _ => putBack t) p (.ok ()) { p with lexer := p.lexer.push t } :=
  .of_forall fun _ => rfl

theorem gives_next {t : Token} {lx lx' : Lexer} {s : Story}
    (h : Lexer.next s.lexicon lx = .ok t lx') : Gives (fun _ => next) ⟨lx, s⟩ (.ok t) ⟨lx', s⟩ :=
  .of_forall fun _ => by simp only [next, ExceptT.run_mk, StateT.run, h]

theorem gives_next_error {e : Error} {lx lx' : Lexer} {s : Story}
    (h : Lexer.next s.lexicon lx = .error e lx') :
    Gives (fun _ => next) ⟨lx, s⟩ (.error e) ⟨lx', s⟩ :=
  .of_forall fun _ => by simp only [next, ExceptT.run_mk, StateT.run, h]

theorem gives_learn {fact : Fact} {lx : Lexer} {s s' : Story}
    (h : Story.accept fact s = .ok () s') :
    Gives (fun _ => learn fact) ⟨lx, s⟩ (.ok ()) ⟨lx, s'⟩ :=
  .of_forall fun _ => by simp only [learn, ExceptT.run_mk, StateT.run, h]

theorem gives_learn_error {fact : Fact} {e : Error} {lx : Lexer} {s s' : Story}
    (h : Story.accept fact s = .error e s') :
    Gives (fun _ => learn fact) ⟨lx, s⟩ (.error e) ⟨lx, s'⟩ :=
  .of_forall fun _ => by simp only [learn, ExceptT.run_mk, StateT.run, h]

theorem gives_lexicon (p : Listener) : Gives (fun _ => lexicon) p (.ok p.story.lexicon) p :=
  .of_forall fun _ => rfl

end Listening

/-! ### Listening to a sentence -/

namespace Listening

variable {α : Type} {m : Nat → Listening Unit} {s s' : Story} {fact : Fact} {r : Reading}
  {lx lx' : Lexer} {t : Token} {ts : List Token} {ending : Ending}

/-- A fact is taken in before the others. -/
theorem hear_after (r : Reading) (fact : Fact) (e : Error) :
    Story.hear (r.after fact) e = (do
      Story.accept fact
      Story.hear r e) := by
  have hfacts : (fact :: r.facts).forM Story.accept =
      (Story.accept fact >>= fun _ => r.facts.forM Story.accept) := rfl
  rw [Story.hear, Reading.after, hfacts, bind_assoc]
  rfl

/-- A listener does with the rest of a sentence what is to be heard of it, and is behind the
sentence then. -/
def Follows (m : Nat → Listening Unit) (r : Reading) (ending : Ending) (lx : Lexer)
    (s : Story) : Prop :=
  ∃ result p, Gives m ⟨lx, s⟩ result p ∧
    Listener.told (result, p) = Story.hear r ending.scanning s ∧
    (result = .ok () → Lexer.Behind ending p.lexer)

/-- One round more takes no more than patience. -/
theorem Follows.of_succ (h : Follows (fun n => m (n + 1)) r ending lx s) :
    Follows m r ending lx s := by
  obtain ⟨result, p, hgives, htold, hbehind⟩ := h
  exact ⟨result, p, hgives.of_succ, htold, hbehind⟩

theorem follows_flawed {f : Flaw}
    (h : Gives m ⟨lx, s⟩ (.error (f.error ending.scanning)) ⟨lx', s⟩) :
    Follows m (.flawed f) ending lx s :=
  ⟨_, _, h, rfl, by rintro ⟨⟩⟩

theorem follows_silent (h : Gives m ⟨lx, s⟩ (.ok ()) ⟨lx', s⟩)
    (hbehind : Lexer.Behind ending lx') : Follows m .silent ending lx s :=
  ⟨_, _, h, rfl, fun _ => hbehind⟩

/-- What comes first leaves the story alone. -/
theorem Follows.bind {first : Nat → Listening α} {f : α → Nat → Listening Unit} {a : α}
    (hfirst : Gives first ⟨lx, s⟩ (.ok a) ⟨lx', s⟩) (h : Follows (f a) r ending lx' s) :
    Follows (fun n => first n >>= fun a => f a n) r ending lx s := by
  obtain ⟨result, p, hgives, htold, hbehind⟩ := h
  exact ⟨result, p, gives_bind hfirst hgives, htold, hbehind⟩

/-- What is learnt comes before what is heard then. -/
theorem Follows.learn {f : Unit → Nat → Listening Unit}
    (h : ∀ s', Story.accept fact s = .ok () s' → Follows (f ()) r ending lx s') :
    Follows (fun n => Listening.learn fact >>= fun u => f u n) (r.after fact) ending lx s := by
  unfold Follows
  rw [hear_after]
  cases haccept : Story.accept fact s with
  | error e s' =>
    rw [run_bind_of_error haccept]
    exact ⟨_, _, gives_bind_error (gives_learn_error haccept), rfl, by rintro ⟨⟩⟩
  | ok _ s' =>
    rw [run_bind_of_ok haccept]
    obtain ⟨result, p, hgives, htold, hbehind⟩ := h s' haccept
    exact ⟨result, p, gives_bind (gives_learn haccept) hgives, htold, hbehind⟩

/-- What is learnt last. -/
theorem follows_learn (hbehind : Lexer.Behind ending lx) (fact : Fact) :
    Follows (fun _ => Listening.learn fact) ⟨[fact], none⟩ ending lx s := by
  have hpure : Listening.learn fact = (Listening.learn fact >>= fun _ => pure ()) :=
    (bind_pure _).symm
  rw [hpure]
  exact .learn fun s' _ => follows_silent (gives_pure () _) hbehind

theorem gives_leave (h : Lexer.Took l t ts ending lx) (hends : t.endsSentence = true)
    (s : Story) :
    ∃ lx', Gives (fun _ => leave t) ⟨lx, s⟩ (.ok ()) ⟨lx', s⟩ ∧ Lexer.Behind ending lx' := by
  obtain ⟨-, hheld, rfl⟩ := h.ended hends
  unfold leave
  by_cases hfinish : t.kind = .finish
  · have hbehind : Lexer.Behind (.ok (true, (lx.push t).source)) (lx.push t) :=
      .atEnd (congrArg (t :: ·) hheld) hfinish
    rw [if_pos hfinish, decide_eq_true hfinish]
    exact ⟨lx.push t, gives_putBack t _, hbehind⟩
  · rw [if_neg hfinish, decide_eq_false hfinish]
    exact ⟨lx, gives_pure () _, .within hheld⟩

/-! ### Listening to what is read -/

section Yields

variable {α γ : Type} {result : Except Flaw γ} {P : γ → α → Lexer → Prop} {f : Flaw}

/-- A listener fails on the flaw of what is read, or comes to a value and a place of which it is
told what they have to do with what is read. -/
def Yields (m : Nat → Listening α) (result : Except Flaw γ) (P : γ → α → Lexer → Prop)
    (ending : Ending) (lx : Lexer) (s : Story) : Prop :=
  match result with
  | .error f => ∃ lx', Gives m ⟨lx, s⟩ (.error (f.error ending.scanning)) ⟨lx', s⟩
  | .ok c => ∃ a lx', Gives m ⟨lx, s⟩ (.ok a) ⟨lx', s⟩ ∧ P c a lx'

theorem Yields.of_succ {m : Nat → Listening α}
    (h : Yields (fun n => m (n + 1)) result P ending lx s) : Yields m result P ending lx s := by
  cases result with
  | error f =>
    obtain ⟨lx', hgives⟩ := h
    exact ⟨lx', hgives.of_succ⟩
  | ok c =>
    obtain ⟨a, lx', hgives, hP⟩ := h
    exact ⟨a, lx', hgives.of_succ, hP⟩

theorem yields_refuse (hf : isCut f = false) :
    Yields (fun _ => (refuse f : Listening α)) (.error f) P ending lx s :=
  ⟨lx, gives_refuse hf _ _⟩

/-- Nothing more can be asked for where the text is at fault. -/
theorem yields_broken {k : Token → Nat → Listening α} (h : Lexer.Offers s.lexicon lx [] ending) :
    Yields (fun n => next >>= fun t => k t n) (.error .cutShort) P ending lx s := by
  obtain ⟨e, lx', rfl, hnext⟩ := h.broken_of_nil
  exact ⟨lx', gives_bind_error (gives_next_error hnext)⟩

theorem yields_next {k : Token → Nat → Listening α}
    (h : Lexer.Offers s.lexicon lx (t :: ts) ending)
    (hk : ∀ lx', Lexer.Took s.lexicon t ts ending lx' → Yields (k t) result P ending lx' s) :
    Yields (fun n => next >>= fun t => k t n) result P ending lx s := by
  obtain ⟨lx', hnext, htook⟩ := h.took
  have hyields := hk lx' htook
  cases result with
  | error f =>
    obtain ⟨lx'', hgives⟩ := hyields
    exact ⟨lx'', gives_bind (gives_next hnext) hgives⟩
  | ok c =>
    obtain ⟨a, lx'', hgives, hP⟩ := hyields
    exact ⟨a, lx'', gives_bind (gives_next hnext) hgives, hP⟩

end Yields

end Listening

end Adventure.Prose
