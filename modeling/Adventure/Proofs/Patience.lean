/-
Patience.

A loop that is not bound to end by the way it is written can be run with patience: after so many
rounds it is given up, and has no value then.  It does end if there is a patience from which on
it always has a value, and always the same; how much that is may depend on what it is run on.
-/

namespace Adventure

/-- With patience enough there is this value. -/
def Ultimately {α : Type} (f : Nat → Option α) (a : α) : Prop :=
  ∃ enough, ∀ n, enough ≤ n → f n = some a

namespace Ultimately

variable {α β : Type} {f : Nat → Option α} {g : α → Nat → Option β} {a : α} {b : β}

/-- What needs no patience. -/
theorem of_forall (h : ∀ n, f n = some a) : Ultimately f a :=
  ⟨0, fun n _ => h n⟩

/-- One round takes the patience for one round. -/
theorem of_succ (h : Ultimately (fun n => f (n + 1)) a) : Ultimately f a := by
  obtain ⟨enough, h⟩ := h
  refine ⟨enough + 1, fun n hn => ?_⟩
  obtain ⟨m, rfl⟩ := Nat.exists_eq_add_of_le' hn
  exact h (m + enough) (Nat.le_add_left enough m)

theorem map (h : Ultimately f a) (k : α → β) : Ultimately (fun n => (f n).map k) (k a) := by
  obtain ⟨enough, h⟩ := h
  refine ⟨enough, fun n hn => ?_⟩
  dsimp only
  rw [h n hn, Option.map_some]

/-- Patience enough for one and for the other is enough for both. -/
theorem bind (hf : Ultimately f a) (hg : Ultimately (g a) b) :
    Ultimately (fun n => f n >>= fun a => g a n) b := by
  obtain ⟨enough, hf⟩ := hf
  obtain ⟨enough', hg⟩ := hg
  refine ⟨max enough enough', fun n hn => ?_⟩
  dsimp only
  rw [hf n (Nat.le_trans (Nat.le_max_left _ _) hn)]
  exact hg n (Nat.le_trans (Nat.le_max_right _ _) hn)

end Ultimately

end Adventure
