/-
A failing operation changes nothing.

A check writes nothing, so what it refuses cannot leave anything behind.  Behind the check
a change may still be refused, by a resource that has run out, by a file that cannot be
read or by a table without the setter it needs; in a world that has what was declared each
of these is met before the first write, and everything that is written in several steps
goes through.  So a failure can be struck from any history: a session is the session of the
operations that succeeded in it.
-/
import Adventure.Proofs.Sessions

namespace Adventure.Session

section Histories

variable {σ : Type} {e : Executor σ} {v : Vocabulary} {state : σ}

/-- Operations after others are tried where those have led. -/
theorem ofOperations_append (ops more : List Operation) :
    ofOperations e v state (ops ++ more) = more.foldl (attempt e v) (ofOperations e v state ops) :=
  List.foldl_append ..

theorem ofOperations_concat (ops : List Operation) (op : Operation) :
    ofOperations e v state (ops ++ [op]) = attempt e v (ofOperations e v state ops) op :=
  ofOperations_append ops [op]

theorem attempt_of_ok {session : Session σ} {op : Operation} {x' : Execution σ}
    (h : Execution.execute e v op session.execution = .ok () x') :
    attempt e v session op = ⟨session.succeeded ++ [op], x'⟩ := by
  rw [attempt, h]

end Histories

variable {s : Surroundings} {v : Vocabulary}

/-- A failure leaves the session as it was. -/
theorem attempt_of_error {session : Session World} {op : Operation} {err : Error}
    {x' : Execution World} (hsound : session.execution.Sound)
    (h : Execution.execute (World.builder s) v op session.execution = .error err x') :
    attempt (World.builder s) v session op = session := by
  rw [attempt, h, Execution.eq_of_execute_error hsound h]

/-- **A session is the session of the operations that succeeded in it.** -/
theorem ofOperations_succeeded (s : Surroundings) (v : Vocabulary) (ops : List Operation) :
    let session := ofOperations (World.builder s) v .empty ops
    ofOperations (World.builder s) v .empty session.succeeded = session := by
  have hall : (ofOperations (World.builder s) v .empty ops).execution.Sound ∧
      ofOperations (World.builder s) v .empty
        (ofOperations (World.builder s) v .empty ops).succeeded =
          ofOperations (World.builder s) v .empty ops := by
    refine ofOperations_induction (P := fun session => session.execution.Sound ∧
      ofOperations (World.builder s) v .empty session.succeeded = session)
        ⟨Execution.sound_emptyWorld, rfl⟩ ?_ ops
    rintro session op ⟨hsound, hsame⟩
    cases hresult : Execution.execute (World.builder s) v op session.execution with
    | ok _ x' =>
      rw [attempt_of_ok hresult]
      refine ⟨(Execution.step_of_execute hsound hresult).1, ?_⟩
      rw [ofOperations_concat, hsame, attempt_of_ok hresult]
    | error err x' =>
      rw [attempt_of_error hsound hresult]
      exact ⟨hsound, hsame⟩
  exact hall.2

/-- **A failing operation changes nothing**, after any operations: neither the world nor
what was declared, and nothing that is tried later comes out differently. -/
theorem failure_leaves_no_trace (s : Surroundings) (v : Vocabulary) (ops : List Operation)
    (op : Operation) :
    let builder := World.builder s
    let x := (ofOperations builder v .empty ops).execution
    ∀ err x', Execution.execute builder v op x = .error err x' →
      x' = x ∧ ∀ more, ofOperations builder v .empty (ops ++ op :: more) =
        ofOperations builder v .empty (ops ++ more) := by
  intro builder x err x' h
  have hx : x.Sound := sound_ofOperations s v ops
  refine ⟨Execution.eq_of_execute_error hx h, ?_⟩
  intro more
  rw [ofOperations_append, ofOperations_append, List.foldl_cons, attempt_of_error hx h]

/-- A script of a class would be kept with the prototype first, but its file is missing. -/
theorem missing_script_leaves_no_trace :
    let builder := World.builder ⟨.strict, .none, .standard⟩
    let ops : List Operation := [.defineEntityClass "grotto" .room 1]
    let x := (ofOperations builder .english .empty ops).execution
    ∃ err x', Execution.execute builder .english
      (.loadScript (.entityClass "grotto") .file "grotto.lua" 2) x = .error err x' ∧ x' = x := by
  intro builder ops x
  obtain ⟨err, x', h⟩ : ∃ err x', Execution.execute builder .english
      (.loadScript (.entityClass "grotto") .file "grotto.lua" 2) x = .error err x' :=
    ⟨_, _, rfl⟩
  obtain ⟨hsame, -⟩ := failure_leaves_no_trace ⟨.strict, .none, .standard⟩ .english ops _ err x' h
  exact ⟨err, x', h, hsame⟩

end Adventure.Session
