/-
Text that ends in more than white space.

Names are made of words, and a word ends in a letter, a digit or a mark that is not
blank.  Joining words and lowering their case keep it so.  A name is therefore never
empty, never blank, and never ends where only a space was meant to.
-/
import Adventure.Text.Alphanumeric
import Adventure.Text.Lowercase
import Adventure.Text.Words
import Mathlib.Data.List.Basic
import Mathlib.Data.List.TakeWhile

namespace Adventure.Text

/-! ### Characters that are not blank -/

namespace Ranges

/-- The code points that the ranges hold, in order. -/
def codePoints (ranges : Ranges) : List Nat :=
  ranges.flatMap fun r => List.range' r.1 (r.2 + 1 - r.1)

theorem mem_codePoints_of_contains {ranges : Ranges} (h : ranges.Ascending) {n : Nat}
    (hn : ranges.contains n = true) : n ∈ ranges.codePoints := by
  obtain ⟨r, hr, hlo, hhi⟩ := (contains_iff h n).mp hn
  refine List.mem_flatMap.mpr ⟨r, hr, ?_⟩
  rw [List.mem_range'_1]
  omega

end Ranges

theorem ascending_blankRanges : blankRanges.Ascending := by
  unfold Ranges.Ascending
  decide

/-- Letters and digits are not blank. -/
theorem not_isBlank_of_isAlphanumeric {c : Char} (h : isAlphanumeric c = true) :
    isBlank c = false := by
  have hnone : ∀ n ∈ blankRanges.codePoints, alphanumericRanges.contains n = false := by
    decide +kernel
  rw [← Bool.not_eq_true]
  intro hblank
  have hmem := Ranges.mem_codePoints_of_contains ascending_blankRanges hblank
  rw [isAlphanumeric, hnone _ hmem] at h
  cases h

/-- No run of capitals is lowered to anything blank. -/
theorem lowerRuns_avoid_blank : ∀ run ∈ lowerRuns, 0 ≤ run.first + run.shift ∧
    ∀ r ∈ blankRanges,
      run.last + run.shift < (r.1 : Int) ∨ (r.2 : Int) < run.first + run.shift := by
  decide +kernel

theorem not_isBlank_ofNat {n : Nat} (h : ∀ r ∈ blankRanges, n < r.1 ∨ r.2 < n) :
    isBlank (Char.ofNat n) = false := by
  by_cases hvalid : n.isValidChar
  · have hn : (Char.ofNat n).toNat = n := by
      rw [Char.ofNat, dif_pos hvalid]
      rfl
    rw [isBlank, hn, ← Bool.not_eq_true, Ranges.contains_iff ascending_blankRanges]
    rintro ⟨r, hr, hlo, hhi⟩
    have := h r hr
    omega
  · have hzero : Char.ofNat n = '\x00' := by
      rw [Char.ofNat, dif_neg hvalid]
      rfl
    rw [hzero]
    decide

theorem not_isBlank_lowerChar {c : Char} (h : isBlank c = false) :
    isBlank (lowerChar c) = false := by
  unfold lowerChar
  cases hrun : lowerRuns.find? (·.contains c.toNat) with
  | none => exact h
  | some run =>
    have hmem := List.mem_of_find?_eq_some hrun
    have hcontains := List.find?_some hrun
    simp only [CaseRun.contains, Bool.and_eq_true, decide_eq_true_eq, beq_iff_eq] at hcontains
    refine not_isBlank_ofNat ?_
    intro r hr
    obtain ⟨hpos, havoid⟩ := lowerRuns_avoid_blank run hmem
    have := havoid r hr
    omega

/-! ### Ends -/

/-- The text ends in a character that is not blank. -/
def EndsSolid (cs : List Char) : Prop :=
  ∃ init c, cs = init ++ [c] ∧ isBlank c = false

theorem EndsSolid.prepend {cs : List Char} (h : EndsSolid cs) (before : List Char) :
    EndsSolid (before ++ cs) := by
  obtain ⟨init, c, rfl, hc⟩ := h
  exact ⟨before ++ init, c, by simp, hc⟩

/-- A text of which no character is blank ends in one of them. -/
theorem endsSolid_of_forall {cs : List Char} (hne : cs ≠ []) (h : ∀ c ∈ cs, isBlank c = false) :
    EndsSolid cs :=
  ⟨cs.dropLast, cs.getLast hne, (List.dropLast_concat_getLast hne).symm,
    h _ (List.getLast_mem hne)⟩

theorem EndsSolid.of_append {b cs : List Char} (h : EndsSolid (b ++ cs)) (hne : cs ≠ []) :
    EndsSolid cs := by
  obtain ⟨init, c, heq, hc⟩ := h
  have hlast : (b ++ cs).getLast? = some c := by simp [heq]
  rw [List.getLast?_append, List.getLast?_eq_some_getLast hne, Option.some_or] at hlast
  refine ⟨cs.dropLast, c, ?_, hc⟩
  rw [← Option.some.inj hlast, List.dropLast_concat_getLast hne]

theorem EndsSolid.ne_nil {cs : List Char} (h : EndsSolid cs) : cs ≠ [] := by
  obtain ⟨init, c, rfl, -⟩ := h
  simp

/-- Words that are joined end as the last of them does. -/
theorem endsSolid_intercalate (separator : List Char) {first : List Char} {more : List (List Char)}
    (h : ∀ cs ∈ first :: more, EndsSolid cs) :
    EndsSolid (separator.intercalate (first :: more)) := by
  induction more generalizing first with
  | nil =>
    rw [List.intercalate_singleton]
    exact h first (List.mem_singleton_self _)
  | cons second rest ih =>
    rw [List.intercalate_cons_cons]
    refine EndsSolid.prepend (ih ?_) _
    intro cs hcs
    exact h cs (List.mem_cons_of_mem _ hcs)

/-! ### Lowercase -/

theorem endsSolid_lowerAt {before after : List Char} {c : Char} (h : isBlank c = false) :
    EndsSolid (lowerAt before c after) := by
  unfold lowerAt
  split
  · refine endsSolid_of_forall (by simp) ?_
    intro d hd
    obtain rfl := List.mem_singleton.mp hd
    split <;> decide
  · split
    · refine endsSolid_of_forall (by simp) ?_
      intro d hd
      rcases List.mem_pair.mp hd with rfl | rfl
      · decide
      · decide
    · exact endsSolid_of_forall (by simp) (by simpa using not_isBlank_lowerChar h)

theorem endsSolid_lowerFrom {cs : List Char} (h : EndsSolid cs) (before : List Char) :
    EndsSolid (lowerFrom before cs) := by
  induction cs generalizing before with
  | nil => exact absurd rfl h.ne_nil
  | cons first rest ih =>
    rw [lowerFrom]
    cases rest with
    | nil =>
      obtain ⟨init, c, heq, hc⟩ := h
      obtain rfl : first = c := by
        have := congrArg List.getLast? heq
        simpa using this
      simpa [lowerFrom] using endsSolid_lowerAt hc
    | cons second rest =>
      refine EndsSolid.prepend (ih ?_ _) _
      exact EndsSolid.of_append (b := [first]) h (by simp)

/-- Lowering a text keeps an end that is not blank. -/
theorem endsSolid_lower {s : String} (h : EndsSolid s.toList) : EndsSolid (lower s).toList := by
  rw [lower, String.toList_ofList]
  exact endsSolid_lowerFrom h []

theorem not_isBlankText_of_endsSolid {s : String} (h : EndsSolid s.toList) :
    isBlankText s = false := by
  obtain ⟨init, c, heq, hc⟩ := h
  simp [isBlankText, heq, hc]

/-! ### Trimming -/

/-- A character that is not blank stays when blank ones are dropped. -/
theorem mem_dropWhile_isBlank {cs : List Char} {c : Char} (h : c ∈ cs) (hc : isBlank c = false) :
    c ∈ cs.dropWhile isBlank := by
  rw [← @List.takeWhile_append_dropWhile _ isBlank cs] at h
  obtain h | h := List.mem_append.mp h
  · exact absurd (List.all_eq_true.mp List.all_takeWhile c h) (by simp [hc])
  · exact h

/-- Trimming leaves something of a text that is not blank. -/
theorem not_isBlankText_trim {s : String} (h : isBlankText s = false) :
    isBlankText (trim s) = false := by
  rw [isBlankText, List.all_eq_false] at h ⊢
  obtain ⟨c, hmem, hc⟩ := h
  have hblank : isBlank c = false := by simpa using hc
  refine ⟨c, ?_, hc⟩
  rw [trim, String.toList_ofList, trimChars, List.mem_reverse]
  exact mem_dropWhile_isBlank (List.mem_reverse.mpr (mem_dropWhile_isBlank hmem hblank)) hblank

theorem trim_of_isBlankText {s : String} (h : isBlankText s = true) : trim s = "" := by
  have hnil : s.toList.dropWhile isBlank = [] :=
    List.dropWhile_eq_nil_iff.mpr fun c hc => List.all_eq_true.mp h c hc
  rw [trim, trimChars, hnil]
  rfl

/-- What trimming leaves is empty or not blank. -/
theorem not_isBlankText_trim_of_ne {s : String} (h : trim s ≠ "") :
    isBlankText (trim s) = false := by
  refine not_isBlankText_trim ?_
  by_contra hblank
  exact h (trim_of_isBlankText (by simpa using hblank))

end Adventure.Text
