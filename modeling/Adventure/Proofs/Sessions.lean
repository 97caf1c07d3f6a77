/-
Operations tried one after another.

A session hands operations to an executor, one at a time, and goes on after a failure
from wherever that left it.  What holds at the start and is kept by every attempt holds
of every session; the operations that succeeded are remembered in order.

Of a session that builds a world it is shown that the world always has what was
declared.  So an operation either succeeds, or it is found wanting by its check, or it
is refused, and a failure leaves everything as it was.
-/
import Adventure.Proofs.Arguments
import Adventure.Proofs.Operations

namespace Adventure

/-- The operations that succeeded so far, and how far they got. -/
structure Session (σ : Type) where
  succeeded : List Operation
  execution : Execution σ

namespace Session

variable {σ : Type}

/-- Tries an operation. -/
def attempt (e : Executor σ) (v : Vocabulary) (s : Session σ) (op : Operation) : Session σ :=
  match Execution.execute e v op s.execution with
  | .ok () x => ⟨s.succeeded ++ [op], x⟩
  | .error _ x => ⟨s.succeeded, x⟩

/-- Tries operations in order, from nothing. -/
def ofOperations (e : Executor σ) (v : Vocabulary) (state : σ) (ops : List Operation) : Session σ :=
  ops.foldl (attempt e v) ⟨[], .start state⟩

/-- What every attempt keeps is kept by attempts one after another. -/
theorem attempts_induction {P : Session σ → Prop} {e : Executor σ} {v : Vocabulary}
    (hattempt : ∀ s op, P s → P (attempt e v s op)) :
    ∀ (ops : List Operation) (s : Session σ), P s → P (ops.foldl (attempt e v) s) := by
  intro ops
  induction ops with
  | nil => intro s hs; exact hs
  | cons op rest ih =>
    intro s hs
    exact ih _ (hattempt s op hs)

/-- **What every attempt keeps holds of every session.** -/
theorem ofOperations_induction {P : Session σ → Prop} {e : Executor σ} {v : Vocabulary} {state : σ}
    (hstart : P ⟨[], .start state⟩) (hattempt : ∀ s op, P s → P (attempt e v s op)) :
    ∀ ops, P (ofOperations e v state ops) :=
  fun ops => attempts_induction hattempt ops _ hstart

end Session

namespace Execution

variable {σ : Type} {e : Executor σ} {v : Vocabulary} {op : Operation} {x : Execution σ}
variable {value : Option Value} {action : Operation → Option Value → EStateM Error σ Unit}

theorem execute_of_fault {err : Error} (h : checked v x op = .error err) :
    execute e v op x = .error err x := by
  simp [execute, run_bind_of_ok (run_get x), h]

theorem execute_of_ok {state : σ} (h : checked v x op = .ok value)
    (haction : e.actionFor? op.opcode = some action)
    (hok : action op value x.state = .ok () state) :
    execute e v op x =
      .ok () { x with state, declarations := x.declarations.note op value } := by
  have hrun : run (action op value) x = .ok () { x with state } := by simp [run, hok]
  rw [execute, run_bind_of_ok (run_get x)]
  simp only [h, haction]
  rw [run_bind_of_ok hrun]
  rfl

/-- **What succeeded was checked, carried out and noted.** -/
theorem execute_ok_iff {x' : Execution σ} :
    execute e v op x = .ok () x' ↔ ∃ value action state, checked v x op = .ok value ∧
      e.actionFor? op.opcode = some action ∧ action op value x.state = .ok () state ∧
      x' = { x with state, declarations := x.declarations.note op value } := by
  constructor
  · intro h
    rw [execute, run_bind_of_ok (run_get x)] at h
    cases hchecked : checked v x op with
    | error err =>
      rw [hchecked] at h
      exact absurd h nofun
    | ok value =>
      rw [hchecked] at h
      dsimp only at h
      cases haction : e.actionFor? op.opcode with
      | none =>
        rw [haction] at h
        exact absurd h nofun
      | some action =>
        rw [haction] at h
        obtain ⟨_, y, hrun, hmodify⟩ := run_bind_ok_iff.mp h
        obtain rfl := (EStateM.Result.ok.inj hmodify).2
        unfold run at hrun
        split at hrun
        · next state hok =>
          obtain rfl := (EStateM.Result.ok.inj hrun).2
          exact ⟨value, action, state, rfl, rfl, hok, rfl⟩
        · exact absurd hrun nofun
  · rintro ⟨value, action, state, hchecked, haction, hok, rfl⟩
    exact execute_of_ok hchecked haction hok

theorem execute_of_error {state : σ} {err : Error} (h : checked v x op = .ok value)
    (haction : e.actionFor? op.opcode = some action)
    (herr : action op value x.state = .error err state) :
    execute e v op x = .error err { x with state } := by
  have hrun : run (action op value) x = .error err { x with state } := by simp [run, herr]
  rw [execute, run_bind_of_ok (run_get x)]
  simp only [h, haction]
  rw [run_bind_of_error hrun]

/-! ### Building a world -/

/-- Every operation is checked, and the world has what was declared. -/
structure Sound (x : Execution World) : Prop where
  unchecked : x.unchecked = []
  consistent : Consistent x.declarations x.state

theorem sound_emptyWorld : emptyWorld.Sound :=
  ⟨rfl, .empty⟩

theorem Sound.checked_eq {x : Execution World} (hx : x.Sound) (v : Vocabulary) (op : Operation) :
    checked v x op =
      (Validation.check v x.declarations op).mapError fun f => .validation f.message op.line := by
  simp [checked, hx.unchecked]

/-- What an operation comes to: it succeeds and the world follows it, or its check finds
a fault, or it is refused. -/
inductive Comes (s : Surroundings) (op : Operation) (x : Execution World) :
    EStateM.Result Error (Execution World) Unit → Prop
  | ok {x' : Execution World} (hsound : x'.Sound) (hfollows : World.Follows op x.state x'.state) :
    Comes s op x (.ok () x')
  | fault (f : Validation.Fault) : Comes s op x (.error (.validation f.message op.line) x)
  | refused {err : Error} (hrefused : World.Refused s op err) : Comes s op x (.error err x)

/-- **What an operation comes to**, whatever it is: a failure changes nothing, and a
success keeps the execution sound. -/
theorem execute_comes {s : Surroundings} {x : Execution World} (hx : x.Sound) (v : Vocabulary)
    (op : Operation) : Comes s op x (execute (World.builder s) v op x) := by
  have hchecked := hx.checked_eq v op
  cases hcheck : Validation.check v x.declarations op with
  | error f =>
    rw [hcheck] at hchecked
    rw [execute_of_fault hchecked]
    exact .fault f
  | ok value =>
    rw [hcheck] at hchecked
    obtain ⟨action, haction⟩ := World.builder_handles s op.opcode
    rcases World.settles_of_check hx.consistent hcheck haction with
      ⟨w', hok, hconsistent, hfollows⟩ | ⟨err, herr, hrefused⟩
    · rw [execute_of_ok hchecked haction hok]
      exact .ok ⟨hx.unchecked, hconsistent⟩ hfollows
    · rw [execute_of_error hchecked haction herr]
      exact .refused hrefused

/-- **What a successful operation did**: it was checked, changed the world and was noted. -/
theorem step_of_execute {s : Surroundings} {x x' : Execution World} (hx : x.Sound)
    (h : execute (World.builder s) v op x = .ok () x') :
    x'.Sound ∧ ∃ value action, Validation.check v x.declarations op = .ok value ∧
      (World.builder s).actionFor? op.opcode = some action ∧
      action op value x.state = .ok () x'.state ∧
      x'.declarations = x.declarations.note op value := by
  have hcomes := execute_comes (s := s) hx v op
  rw [h] at hcomes
  obtain ⟨value, action, state, hchecked, haction, hok, rfl⟩ := execute_ok_iff.mp h
  rw [hx.checked_eq, mapError_ok_iff] at hchecked
  cases hcomes with
  | ok hsound _ => exact ⟨hsound, value, action, hchecked, haction, hok, rfl⟩

/-- A failure leaves everything as it was. -/
theorem eq_of_execute_error {s : Surroundings} {x x' : Execution World} {err : Error}
    (hx : x.Sound) (h : execute (World.builder s) v op x = .error err x') : x' = x := by
  have hcomes := execute_comes (s := s) hx v op
  rw [h] at hcomes
  cases hcomes with
  | fault f => rfl
  | refused hrefused => rfl

end Execution

namespace Session

/-- Every session that builds a world is sound. -/
theorem sound_ofOperations (s : Surroundings) (v : Vocabulary) (ops : List Operation) :
    (ofOperations (World.builder s) v .empty ops).execution.Sound := by
  refine ofOperations_induction (P := fun session => session.execution.Sound)
    Execution.sound_emptyWorld ?_ ops
  intro session op hsound
  have hcomes := Execution.execute_comes (s := s) hsound v op
  unfold attempt
  cases hresult : Execution.execute (World.builder s) v op session.execution with
  | ok _ x' =>
    rw [hresult] at hcomes
    cases hcomes with
    | ok hsound' => exact hsound'
  | error err x' =>
    rw [hresult] at hcomes
    cases hcomes with
    | fault f => exact hsound
    | refused h => exact hsound

end Session

end Adventure
