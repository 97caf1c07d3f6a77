/-
When computations succeed.

Checks run in `Except`, changes in `EStateM`.  A sequence of steps succeeds just when
each step does, and a guard just when its condition does not hold; with that said once,
a successful run can be taken apart without unfolding either monad.
-/
import Mathlib.Logic.Basic

namespace Adventure

section Checks

variable {ε ε' α β : Type}

@[simp] theorem bind_ok_iff {x : Except ε α} {k : α → Except ε β} {b : β} :
    x >>= k = .ok b ↔ ∃ a, x = .ok a ∧ k a = .ok b := by
  rcases x with e | a
  · simp [bind, Except.bind]
  · simp [bind, Except.bind]

/-- A first step that gives nothing back only has to succeed. -/
theorem check_bind_ok_iff {x : Except ε Unit} {k : Unit → Except ε β} {b : β} :
    x >>= k = .ok b ↔ x = .ok () ∧ k () = .ok b := by
  rw [bind_ok_iff]
  exact ⟨fun ⟨_, hx, hk⟩ => ⟨hx, hk⟩, fun ⟨hx, hk⟩ => ⟨(), hx, hk⟩⟩

/-- Succeeding says no more than that. -/
@[simp] theorem exists_ok_unit {x : Except ε Unit} : (∃ a, x = .ok a) ↔ x = .ok () :=
  ⟨fun ⟨_, h⟩ => h, fun h => ⟨(), h⟩⟩

/-- A computation that can be seen to succeed has a result. -/
theorem exists_ok_of_isOk {x : Except ε α} (h : x.isOk = true) : ∃ a, x = .ok a := by
  cases x with
  | error e => exact absurd h nofun
  | ok a => exact ⟨a, rfl⟩

/-- A result that can be seen is the result. -/
theorem ok_of_toOption {x : Except ε α} {a : α} (h : x.toOption = some a) : x = .ok a := by
  cases x with
  | error e => exact absurd h nofun
  | ok b => exact congrArg Except.ok (Option.some.inj h)

@[simp] theorem bind_error_iff {x : Except ε α} {k : α → Except ε β} {e : ε} :
    x >>= k = .error e ↔ x = .error e ∨ ∃ a, x = .ok a ∧ k a = .error e := by
  rcases x with e | a
  · simp [bind, Except.bind]
  · simp [bind, Except.bind]

@[simp] theorem pure_ok_iff {a b : α} : (pure a : Except ε α) = .ok b ↔ b = a :=
  ⟨fun h => by cases h; rfl, fun h => h ▸ rfl⟩

@[simp] theorem pure_error_iff {a : α} {e : ε} : (pure a : Except ε α) = .error e ↔ False :=
  ⟨nofun, False.elim⟩

@[simp] theorem throw_ok_iff {e : ε} {a : α} : (throw e : Except ε α) = .ok a ↔ False :=
  ⟨nofun, False.elim⟩

@[simp] theorem throw_error_iff {e f : ε} : (throw e : Except ε α) = .error f ↔ e = f :=
  ⟨fun h => by cases h; rfl, fun h => h ▸ rfl⟩

@[simp] theorem map_throw (f : α → β) (e : ε) :
    f <$> (throw e : Except ε α) = throw e :=
  rfl

@[simp] theorem throw_bind (e : ε) (k : α → Except ε β) : (throw e >>= k) = throw e :=
  rfl

@[simp] theorem map_ok_iff {x : Except ε α} {f : α → β} {b : β} :
    f <$> x = .ok b ↔ ∃ a, x = .ok a ∧ b = f a := by
  rcases x with e | a
  · simp [Functor.map, Except.map]
  · simpa [Functor.map, Except.map] using eq_comm

/-- A guard lets pass what its condition does not stop. -/
@[simp] theorem guard_ok_iff {c : Prop} [Decidable c] {e : ε} {x : Except ε α} {a : α} :
    (if c then throw e else x) = .ok a ↔ ¬c ∧ x = .ok a := by
  by_cases h : c
  · simp [h]
  · simp [h]

@[simp] theorem guard_not_ok_iff {c : Prop} [Decidable c] {e : ε} {x : Except ε α} {a : α} :
    (if c then x else throw e) = .ok a ↔ c ∧ x = .ok a := by
  by_cases h : c
  · simp [h]
  · simp [h]

@[simp] theorem mapError_ok (a : α) (f : ε → ε') :
    (Except.ok a : Except ε α).mapError f = .ok a :=
  rfl

@[simp] theorem mapError_error (e : ε) (f : ε → ε') :
    (Except.error e : Except ε α).mapError f = .error (f e) :=
  rfl

@[simp] theorem mapError_ok_iff {x : Except ε α} {f : ε → ε'} {a : α} :
    x.mapError f = .ok a ↔ x = .ok a := by
  rcases x with e | a
  · simp
  · simp

@[simp] theorem mapError_error_iff {x : Except ε α} {f : ε → ε'} {e' : ε'} :
    x.mapError f = .error e' ↔ ∃ e, x = .error e ∧ f e = e' := by
  rcases x with e | a
  · simp
  · simp

end Checks

section Changes

variable {ε σ α β : Type}

theorem run_bind_ok_iff {x : EStateM ε σ α} {f : α → EStateM ε σ β} {s t : σ} {b : β} :
    (x >>= f) s = .ok b t ↔ ∃ a u, x s = .ok a u ∧ f a u = .ok b t := by
  simp only [bind, EStateM.bind]
  cases x s <;> simp [and_assoc]

@[simp] theorem run_pure (a : α) (s : σ) : (pure a : EStateM ε σ α) s = .ok a s :=
  rfl

@[simp] theorem run_throw (e : ε) (s : σ) : (throw e : EStateM ε σ α) s = .error e s :=
  rfl

@[simp] theorem run_get (s : σ) : (get : EStateM ε σ σ) s = .ok s s :=
  rfl

/-- A first step that succeeds is behind us. -/
theorem run_bind_of_ok {x : EStateM ε σ α} {f : α → EStateM ε σ β} {s t : σ} {a : α}
    (h : x s = .ok a t) : (x >>= f) s = f a t := by
  simp [bind, EStateM.bind, h]

theorem run_bind_of_error {x : EStateM ε σ α} {f : α → EStateM ε σ β} {s t : σ} {e : ε}
    (h : x s = .error e t) : (x >>= f) s = .error e t := by
  simp [bind, EStateM.bind, h]

/-- Steps over a list, the first one first. -/
theorem run_forM_cons (f : α → EStateM ε σ PUnit) (a : α) (as : List α) (s : σ) :
    (a :: as).forM f s = (f a >>= fun _ => as.forM f) s :=
  rfl

/-- Steps over two lists are steps over the one and then over the other. -/
theorem run_forM_append_ok_iff {f : α → EStateM ε σ PUnit} {as bs : List α} {s t : σ} :
    (as ++ bs).forM f s = .ok () t ↔ ∃ u, as.forM f s = .ok () u ∧ bs.forM f u = .ok () t := by
  induction as generalizing s with
  | nil => exact ⟨fun h => ⟨s, rfl, h⟩, fun ⟨_, hu, h⟩ => (EStateM.Result.ok.inj hu).2 ▸ h⟩
  | cons a as ih =>
    rw [List.cons_append, run_forM_cons, run_forM_cons]
    simp only [run_bind_ok_iff, ih]
    constructor
    · rintro ⟨_, r, ha, u, has, hbs⟩
      exact ⟨u, ⟨_, r, ha, has⟩, hbs⟩
    · rintro ⟨u, ⟨_, r, ha, has⟩, hbs⟩
      exact ⟨_, r, ha, u, has, hbs⟩

end Changes

end Adventure
