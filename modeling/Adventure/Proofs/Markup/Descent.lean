/-
Going down into sections.

A document can be read by going through the elements of a section one after the other, and
through those of a section inside it before going on.  Nothing in the way this is written makes
it end: it is a loop, it calls itself for the sections inside, and goes on where these have left
the reader.  That it does end is because each element that is gone into was a token first, so
that less is left than before, and what is left never grows again while a section is read.

The walk with a list of the sections it is in does the same; so what is shown of the walk holds
of going down.
-/
import Adventure.Proofs.Markup.Blanks
import Adventure.Proofs.Patience

namespace Adventure.Markup

/-- Goes through the elements of a section up to the tag that closes it, with patience for so
many elements and sections inside one another. -/
def goThrough (v : Vocabulary) :
    Nat → Level → Page → Reader → Option (Except Error (Page × Reader))
  | 0, _, _, _ => none
  | n + 1, level, page, r =>
    match r.nextTag with
    | .error e _ => some (.error e)
    | .ok more s =>
      if more && s.isChildAt level.depth then
        match level.within.child v level.tag page s.current with
        | .error e => some (.error e)
        | .ok plan =>
          match plan.carryOut page s with
          | .error e => some (.error e)
          | .ok (none, page, t) => goThrough v n level page t
          | .ok (some inner, page, t) => do
            match ← goThrough v n ⟨inner, s.current.tagName, level.depth + 1⟩ page t with
            | .error e => some (.error e)
            | .ok (page, u) => goThrough v n level page u
      else
        match Reader.checkClosing level.tag s with
        | .error e _ => some (.error e)
        | .ok () t => some (.ok (page, t))

/-- Reads a game in markup by going down into its sections. -/
def goThroughDocument (v : Vocabulary) (source : String) (n : Nat) : Option (Except Error Draft) :=
  match (Reader.ofSource source).nextTag with
  | .error e _ => some (.error e)
  | .ok more r =>
    if more && r.current.tagName = "game" then do
      match ← goThrough v n ⟨.game, "game", r.current.depth + 1⟩ ⟨.empty, false⟩ r with
      | .error e => some (.error e)
      | .ok (page, _) => some (page.draft.finish.map fun _ => page.draft)
    else some (.error (Fault.notGame.onLine r.current.line))

variable {v : Vocabulary} {level : Level} {page : Page} {r s t : Reader} {more : Bool}

/-! ### The walk -/

theorem walk_of_nextTag_error {e : Error} (hnext : r.nextTag = .error e s) (outer : List Level) :
    walk v page r (level :: outer) = .error e := by
  rw [walk]
  split <;> rename_i hfound <;> rw [hnext] at hfound <;> cases hfound
  rfl

theorem walk_of_unclosed {e : Error} (hnext : r.nextTag = .ok more s)
    (hat : ¬ (more && s.isChildAt level.depth) = true)
    (hclose : Reader.checkClosing level.tag s = .error e t) (outer : List Level) :
    walk v page r (level :: outer) = .error e := by
  rw [walk]
  split <;> rename_i hfound <;> rw [hnext] at hfound <;> cases hfound
  rw [dif_neg hat]
  split <;> rename_i hdone <;> rw [hclose] at hdone <;> cases hdone
  rfl

/-- What the walk does with what going through a section comes to. -/
def walkOn (v : Vocabulary) (outer : List Level) : Except Error (Page × Reader) → Except Error Page
  | .error e => .error e
  | .ok (page, r) => walk v page r outer

/-! ### Going down -/

/-- Goes on with what going through a section inside has come to. -/
def goOn (v : Vocabulary) (level : Level) (result : Except Error (Page × Reader)) (n : Nat) :
    Option (Except Error (Page × Reader)) :=
  match result with
  | .error e => some (.error e)
  | .ok (page, r) => goThrough v n level page r

/-- The plan for the next element is carried out first. -/
theorem goThrough_child {plan : Plan} (hnext : r.nextTag = .ok more s)
    (hat : (more && s.isChildAt level.depth) = true)
    (hchild : level.within.child v level.tag page s.current = .ok plan) (n : Nat) :
    goThrough v (n + 1) level page r =
      match plan.carryOut page s with
      | .error e => some (.error e)
      | .ok (none, page, t) => goThrough v n level page t
      | .ok (some inner, page, t) =>
        goThrough v n ⟨inner, s.current.tagName, level.depth + 1⟩ page t >>=
          fun result => goOn v level result n := by
  rw [goThrough, hnext]
  dsimp only
  rw [if_pos hat, hchild]
  dsimp only
  cases plan.carryOut page s with
  | error e => rfl
  | ok carried =>
    obtain ⟨inner, page', t⟩ := carried
    cases inner with
    | none => rfl
    | some inner =>
      dsimp only
      refine congrArg _ (funext fun result => ?_)
      cases result <;> rfl

/-- Going through a section comes to an end, leaves no more than there was, and is what the walk
does up to there. -/
def Ends (v : Vocabulary) (level : Level) (page : Page) (r : Reader) : Prop :=
  ∃ result, Ultimately (goThrough v · level page r) result ∧
    (∀ page' s, result = .ok (page', s) → s.remaining ≤ r.remaining) ∧
    ∀ outer, walk v page r (level :: outer) = walkOn v outer result

theorem ends_of_error {e : Error}
    (h : Ultimately (fun n => goThrough v (n + 1) level page r) (.error e))
    (hwalk : ∀ outer, walk v page r (level :: outer) = .error e) : Ends v level page r := by
  refine ⟨.error e, .of_succ h, ?_, fun outer => ?_⟩
  · rintro _ _ ⟨⟩
  · rw [hwalk, walkOn]

/-- Whoever goes on as from further ahead comes to an end if that does. -/
theorem Ends.of_ultimately {level' : Level} {page' : Page} (h : Ends v level' page' t)
    (hle : t.remaining ≤ r.remaining)
    (hgo : ∀ result, Ultimately (goThrough v · level' page' t) result →
      Ultimately (fun n => goThrough v (n + 1) level page r) result)
    (hwalk : ∀ outer, walk v page r (level :: outer) = walk v page' t (level' :: outer)) :
    Ends v level page r := by
  obtain ⟨result, hresult, hremaining, hon⟩ := h
  refine ⟨result, .of_succ (hgo result hresult), fun page'' s hs => ?_, fun outer => ?_⟩
  · exact (hremaining page'' s hs).trans hle
  · rw [hwalk, hon]

/-- **Going through a section comes to an end.** -/
theorem ends_goThrough (v : Vocabulary) (level : Level) (page : Page) (r : Reader) :
    Ends v level page r := by
  induction hn : r.remaining using Nat.strongRecOn generalizing level page r with
  | ind n ih =>
    subst hn
    cases hnext : r.nextTag with
    | error e s =>
      refine ends_of_error (e := e) (.of_forall fun n => ?_) (walk_of_nextTag_error hnext)
      rw [goThrough, hnext]
    | ok more s =>
      by_cases hat : (more && s.isChildAt level.depth) = true
      · have hlt := remaining_child_lt hnext hat
        cases hchild : level.within.child v level.tag page s.current with
        | error e =>
          refine ends_of_error (e := e) (.of_forall fun n => ?_) fun outer => ?_
          · rw [goThrough, hnext]
            dsimp only
            rw [if_pos hat, hchild]
          · rw [walk_child hnext hat, hchild]
            rfl
        | ok plan =>
          have hgo := goThrough_child hnext hat hchild
          have hwalk : ∀ outer, walk v page r (level :: outer) = _ := fun outer =>
            walk_child hnext hat
          simp only [hchild, Except.bind] at hwalk
          cases hplan : plan.carryOut page s with
          | error e =>
            simp only [hplan] at hgo hwalk
            exact ends_of_error (.of_forall hgo) hwalk
          | ok carried =>
            obtain ⟨inner, page', t⟩ := carried
            have hle := remaining_carryOut_le hplan
            simp only [hplan] at hgo hwalk
            cases inner with
            | none =>
              refine (ih _ (Nat.lt_of_le_of_lt hle hlt) level page' t rfl).of_ultimately
                (hle.trans hlt.le) (fun result hresult => ?_) hwalk
              rwa [funext hgo]
            | some inner =>
              -- the elements of the section inside come first, and then those behind it
              obtain ⟨result, hresult, hremaining, hinside⟩ :=
                ih _ (Nat.lt_of_le_of_lt hle hlt) ⟨inner, s.current.tagName, level.depth + 1⟩
                  page' t rfl
              have hbehind : ∀ result', Ultimately (goOn v level result) result' →
                  Ultimately (fun n => goThrough v (n + 1) level page r) result' := by
                intro result' hresult'
                rw [funext hgo]
                exact hresult.bind hresult'
              cases result with
              | error e =>
                exact ends_of_error (hbehind _ (.of_forall fun _ => rfl)) fun outer =>
                  (hwalk outer).trans (hinside _)
              | ok reached =>
                obtain ⟨page'', u⟩ := reached
                have hu := (hremaining page'' u rfl).trans hle
                exact (ih _ (Nat.lt_of_le_of_lt hu hlt) level page'' u rfl).of_ultimately
                  (hu.trans hlt.le) hbehind fun outer => (hwalk outer).trans (hinside _)
      · cases hclose : Reader.checkClosing level.tag s with
        | error e t =>
          refine ends_of_error (e := e) (.of_forall fun n => ?_)
            (walk_of_unclosed hnext hat hclose)
          rw [goThrough, hnext]
          dsimp only
          rw [if_neg hat, hclose]
        | ok _ t =>
          refine ⟨.ok (page, t), .of_succ (.of_forall fun n => ?_), ?_, fun outer =>
            walk_leave hnext hat hclose⟩
          · rw [goThrough, hnext]
            dsimp only
            rw [if_neg hat, hclose]
          · rintro _ _ ⟨⟩
            exact (Reader.remaining_checkClosing_le hclose).trans
              (Reader.remaining_nextTag_le hnext)

/-- **Going down into the sections of a document comes to an end**, whatever the document, and
to what the walk comes to. -/
theorem goThroughDocument_ends (v : Vocabulary) (source : String) :
    Ultimately (goThroughDocument v source) (readDocument v source) := by
  unfold goThroughDocument readDocument
  cases (Reader.ofSource source).nextTag with
  | error e r => exact .of_forall fun _ => rfl
  | ok more r =>
    dsimp only
    split
    · obtain ⟨result, hresult, -, hwalk⟩ :=
        ends_goThrough v ⟨.game, "game", r.current.depth + 1⟩ ⟨.empty, false⟩ r
      refine hresult.bind (.of_forall fun _ => ?_)
      rw [hwalk []]
      cases result with
      | error e => rfl
      | ok reached =>
        obtain ⟨page, s⟩ := reached
        have hdone : walkOn v [] (.ok (page, s)) = .ok page := by rw [walkOn, walk]
        rw [hdone]
        show some (page.draft.finish.map fun _ => page.draft) =
          some (page.draft.finish.bind fun _ => .ok page.draft)
        cases page.draft.finish <;> rfl
    · exact .of_forall fun _ => rfl

end Adventure.Markup
