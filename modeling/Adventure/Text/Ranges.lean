/-
Character classes given as ranges of code points.

A class is a list of closed ranges in ascending order.  Looking a character up
walks the list and stops at the first range that begins beyond it, so the
frequent characters, which come first, cost next to nothing.
-/

namespace Adventure.Text

/-- Closed ranges of code points, in ascending order. -/
abbrev Ranges := List (Nat × Nat)

namespace Ranges

/-- Whether one of the ranges holds `n`. -/
def contains : Ranges → Nat → Bool
  | [], _ => false
  | (first, last) :: rest, n =>
    if n < first then false else n ≤ last || contains rest n

/-- How many code points the ranges hold together. -/
def size (ranges : Ranges) : Nat :=
  ranges.foldl (fun n r => n + (r.2 + 1 - r.1)) 0

/-- Each range is in order and ends before the next one begins. -/
def Ascending (ranges : Ranges) : Prop :=
  (∀ r ∈ ranges, r.1 ≤ r.2) ∧ ranges.Pairwise fun r s => r.2 < s.1

theorem contains_iff {ranges : Ranges} (h : ranges.Ascending) (n : Nat) :
    ranges.contains n = true ↔ ∃ r ∈ ranges, r.1 ≤ n ∧ n ≤ r.2 := by
  induction ranges with
  | nil => simp [contains]
  | cons r rest ih =>
    obtain ⟨hle, hpair⟩ := h
    rw [List.pairwise_cons] at hpair
    have ih := ih ⟨fun s hs => hle s (List.mem_cons_of_mem _ hs), hpair.2⟩
    by_cases hn : n < r.1
    · simp only [contains, hn, if_true, Bool.false_eq_true, List.mem_cons, false_iff]
      rintro ⟨s, rfl | hs, hlo, -⟩
      · omega
      · have h1 := hle r (List.mem_cons_self ..)
        have h2 := hpair.1 s hs
        omega
    · have hr : r.1 ≤ n := Nat.le_of_not_lt hn
      simp [contains, hn, ih, hr]

end Ranges

end Adventure.Text
