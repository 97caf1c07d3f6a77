/-
The case of ASCII letters.

Two ways of lowering a text meet in prose: names are compared by their lowercase form in
all of Unicode, while a few words are recognised by the case of ASCII letters alone.  The
second never disturbs the first: a text and the same text with its ASCII letters lowered
have one lowercase form, and that form has no ASCII capital left.

Every test of characters in prose is a table lookup, so that it answers alike for a capital
and its small letter is checked for the twenty-six capitals; all other characters stay
what they are.

No character of a lowercase form has another lowercase form, because no run of the table
leads to a character that a run lowers.  So a form is in lowercase once and for all, however
its parts are put together again.
-/
import Adventure.Proofs.Text

namespace Adventure.Text

/-! ### Characters -/

/-- The capital letters of ASCII. -/
def capitals : List Char :=
  (List.range' 65 26).map Char.ofNat

theorem toNat_ofNat_capital : ∀ n ∈ List.range' 65 26, (Char.ofNat n).toNat = n := by
  decide

theorem toLower_eq_or_mem_capitals (c : Char) : c.toLower = c ∨ c ∈ capitals := by
  by_cases hcapital : 65 ≤ c.toNat ∧ c.toNat ≤ 90
  · right
    refine List.mem_map.mpr ⟨c.toNat, List.mem_range'_1.mpr ⟨hcapital.1, ?_⟩, Char.ofNat_toNat c⟩
    omega
  · left
    exact dif_neg fun ⟨hlow, hhigh⟩ => hcapital ⟨hlow, hhigh⟩

/-- **A question about characters that has one answer for a capital and its small letter has
one for every character and its small letter.** -/
theorem apply_toLower {α : Type} [DecidableEq α] {f : Char → α}
    (h : capitals.all (fun c => f c.toLower = f c) = true) (c : Char) : f c.toLower = f c := by
  obtain hsame | hmem := toLower_eq_or_mem_capitals c
  · rw [hsame]
  · simpa using List.all_eq_true.mp h c hmem

@[simp] theorem toLower_toLower (c : Char) : c.toLower.toLower = c.toLower :=
  apply_toLower (by decide) c

@[simp] theorem isBlank_toLower (c : Char) : isBlank c.toLower = isBlank c :=
  apply_toLower (by decide) c

@[simp] theorem isCased_toLower (c : Char) :
    casedRanges.contains c.toLower.toNat = casedRanges.contains c.toNat :=
  apply_toLower (f := fun c => casedRanges.contains c.toNat) (by decide) c

@[simp] theorem isCaseIgnorable_toLower (c : Char) :
    caseIgnorableRanges.contains c.toLower.toNat = caseIgnorableRanges.contains c.toNat :=
  apply_toLower (f := fun c => caseIgnorableRanges.contains c.toNat) (by decide) c

@[simp] theorem lowerChar_toLower (c : Char) : lowerChar c.toLower = lowerChar c :=
  apply_toLower (by decide) c

/-- What is no letter is found again among lowered characters. -/
theorem toLower_eq_iff {c d : Char}
    (hd : capitals.all (fun c => decide (c.toLower = d) = decide (c = d)) = true) :
    c.toLower = d ↔ c = d := by
  have h := apply_toLower (f := fun c => decide (c = d)) (by simpa using hd) c
  simpa using h

/-! ### Lowercase forms have no capitals -/

/-- Every capital of ASCII is in a run, and no run leads to one. -/
theorem lowerRuns_avoid_capitals :
    ((List.range' 65 26).all fun n => (lowerRuns.find? (·.contains n)).isSome) = true ∧
      ∀ run ∈ lowerRuns, 0 ≤ run.first + run.shift ∧
        (run.last + run.shift < 65 ∨ 90 < run.first + run.shift) := by
  decide +kernel

theorem toLower_ofNat {n : Nat} (h : n < 65 ∨ 90 < n) : (Char.ofNat n).toLower = Char.ofNat n := by
  obtain hsame | hmem := toLower_eq_or_mem_capitals (Char.ofNat n)
  · exact hsame
  · obtain ⟨m, hm, heq⟩ := List.mem_map.mp hmem
    have hm' := toNat_ofNat_capital m hm
    rw [List.mem_range'_1] at hm
    by_cases hvalid : n.isValidChar
    · have hn : (Char.ofNat n).toNat = n := by
        rw [Char.ofNat, dif_pos hvalid]
        rfl
      rw [heq, hn] at hm'
      omega
    · have hzero : Char.ofNat n = '\x00' := by
        rw [Char.ofNat, dif_neg hvalid]
        rfl
      rw [hzero]
      rfl

@[simp] theorem toLower_lowerChar (c : Char) : (lowerChar c).toLower = lowerChar c := by
  obtain ⟨hfound, havoid⟩ := lowerRuns_avoid_capitals
  unfold lowerChar
  cases hrun : lowerRuns.find? (·.contains c.toNat) with
  | none =>
    -- a capital would have been found
    obtain hsame | hmem := toLower_eq_or_mem_capitals c
    · exact hsame
    · obtain ⟨n, hn, rfl⟩ := List.mem_map.mp hmem
      have hsome := List.all_eq_true.mp hfound n hn
      rw [toNat_ofNat_capital n hn] at hrun
      rw [hrun] at hsome
      cases hsome
  | some run =>
    have hmem := List.mem_of_find?_eq_some hrun
    have hcontains := List.find?_some hrun
    simp only [CaseRun.contains, Bool.and_eq_true, decide_eq_true_eq, beq_iff_eq] at hcontains
    have := havoid run hmem
    refine toLower_ofNat ?_
    omega

/-! ### Texts -/

theorem casedNext_map_toLower (cs : List Char) :
    casedNext (cs.map Char.toLower) = casedNext cs := by
  have hdrop : (cs.map Char.toLower).dropWhile (caseIgnorableRanges.contains ·.toNat) =
      (cs.dropWhile (caseIgnorableRanges.contains ·.toNat)).map Char.toLower := by
    rw [List.dropWhile_map]
    congr 1
    exact congrArg (cs.dropWhile ·) (funext fun c => isCaseIgnorable_toLower c)
  rw [casedNext, casedNext, hdrop]
  cases cs.dropWhile (caseIgnorableRanges.contains ·.toNat) with
  | nil => rfl
  | cons c rest => exact isCased_toLower c

theorem lowerAt_toLower (before after : List Char) (c : Char) :
    lowerAt (before.map Char.toLower) c.toLower (after.map Char.toLower) =
      lowerAt before c after := by
  have hsigma : c.toLower = 'Σ' ↔ c = 'Σ' := toLower_eq_iff (by decide)
  have hdotted : c.toLower = 'İ' ↔ c = 'İ' := toLower_eq_iff (by decide)
  simp only [lowerAt, hsigma, hdotted, casedNext_map_toLower, lowerChar_toLower]

theorem lowerFrom_map_toLower (before cs : List Char) :
    lowerFrom (before.map Char.toLower) (cs.map Char.toLower) = lowerFrom before cs := by
  induction cs generalizing before with
  | nil => rfl
  | cons c cs ih =>
    rw [List.map_cons, lowerFrom, lowerFrom, lowerAt_toLower, ← List.map_cons, ih]

theorem toList_toLower (s : String) : s.toLower.toList = s.toList.map Char.toLower :=
  String.toList_map

/-- **Lowering the ASCII letters of a text does not change its lowercase form.** -/
@[simp] theorem lower_toLower (s : String) : lower s.toLower = lower s := by
  rw [lower, lower, toList_toLower]
  exact congrArg String.ofList (lowerFrom_map_toLower [] s.toList)

theorem map_toLower_lowerAt (before after : List Char) (c : Char) :
    (lowerAt before c after).map Char.toLower = lowerAt before c after := by
  unfold lowerAt
  split
  · split <;> rfl
  · split
    · rfl
    · rw [List.map_singleton, toLower_lowerChar]

theorem map_toLower_lowerFrom (before cs : List Char) :
    (lowerFrom before cs).map Char.toLower = lowerFrom before cs := by
  induction cs generalizing before with
  | nil => rfl
  | cons c cs ih => rw [lowerFrom, List.map_append, map_toLower_lowerAt, ih]

theorem toLower_eq_self {s : String} (h : s.toList.map Char.toLower = s.toList) :
    s.toLower = s := by
  rw [← String.toList_inj, toList_toLower, h]

/-- A lowercase form has no ASCII capitals. -/
@[simp] theorem toLower_lower (s : String) : (lower s).toLower = lower s := by
  rw [lower]
  exact toLower_eq_self (by rw [String.toList_ofList, map_toLower_lowerFrom])

theorem toLower_ofList (cs : List Char) :
    (String.ofList cs).toLower = String.ofList (cs.map Char.toLower) := by
  rw [← String.toList_inj, toList_toLower, String.toList_ofList,
    String.toList_ofList]

/-- Words with a space between them, and their letters lowered. -/
theorem toLower_intercalate (words : List String) :
    (" ".intercalate words).toLower = " ".intercalate (words.map String.toLower) := by
  have hlists : ∀ lists : List (List Char), ([' '].intercalate lists).map Char.toLower =
      [' '].intercalate (lists.map (List.map Char.toLower)) := by
    intro lists
    induction lists with
    | nil => rfl
    | cons first rest ih =>
      cases rest with
      | nil => simp
      | cons second rest =>
        rw [List.intercalate_cons_cons, List.map_append, List.map_append, ih]
        exact (List.intercalate_cons_cons ..).symm
  rw [← String.toList_inj, toList_toLower, String.toList_intercalate,
    String.toList_intercalate]
  simpa [toList_toLower, Function.comp_def] using hlists (words.map String.toList)

@[simp] theorem toLower_toLower_text (s : String) : s.toLower.toLower = s.toLower := by
  rw [← String.toList_inj]
  simp [toList_toLower]

/-! ### Lowercase forms stay what they are -/

/-- The runs of characters with another lowercase form, `İ` among them. -/
def casingRuns : List CaseRun :=
  ⟨0x130, 0x130, 1, 0⟩ :: lowerRuns

/-- Whether a character is its own lowercase form. -/
def isLow (c : Char) : Bool :=
  !casingRuns.any (·.contains c.toNat)

/-- Whether a run passes by the `count` code points from `low` on or, where they are one or
every second one, steps over them. -/
def CaseRun.misses (low count : Nat) (sparse : Bool) (run : CaseRun) : Bool :=
  Nat.blt run.last low || (Nat.ble (low + count) run.first ||
    sparse && Nat.beq run.step 2 && Nat.beq ((low + run.first) % 2) 1)

/-- Where a run leads to, no run has a character. -/
theorem casingRuns_apart : (lowerRuns.all fun run =>
    match (run.first + run.shift).toNat, run.last - run.first with
    | low + 1, count => casingRuns.all
      (CaseRun.misses (low + 1) (count + 1) (Nat.beq run.step 2 || Nat.beq count 0))
    | 0, _ => false) = true := by
  decide +kernel

theorem not_contains_of_misses {low count n : Nat} {sparse : Bool} {run : CaseRun}
    (h : run.misses low count sparse = true) (hlow : low ≤ n) (hcount : n < low + count)
    (hsparse : sparse = true → (n - low) % 2 = 0) : run.contains n = false := by
  simp only [CaseRun.misses, Bool.or_eq_true, Bool.and_eq_true, Nat.blt_eq, Nat.ble_eq,
    Nat.beq_eq] at h
  rw [← Bool.not_eq_true]
  intro hcontains
  simp only [CaseRun.contains, Bool.and_eq_true, decide_eq_true_eq, beq_iff_eq] at hcontains
  obtain ⟨⟨hfirst, hlast⟩, hstep⟩ := hcontains
  rcases h with h | h | ⟨⟨hs, h2⟩, hodd⟩
  · omega
  · omega
  · have := hsparse hs
    rw [h2] at hstep
    omega

theorem isLow_ofNat {n : Nat} (h : ∀ run ∈ casingRuns, run.contains n = false) :
    isLow (Char.ofNat n) = true := by
  by_cases hvalid : n.isValidChar
  · have hn : (Char.ofNat n).toNat = n := by
      rw [Char.ofNat, dif_pos hvalid]
      rfl
    rw [isLow, hn, Bool.not_eq_true', List.any_eq_false]
    simpa using h
  · have hzero : Char.ofNat n = '\x00' := by
      rw [Char.ofNat, dif_neg hvalid]
      rfl
    rw [hzero]
    decide

theorem isLow_lowerChar {c : Char} (hdotted : c ≠ 'İ') : isLow (lowerChar c) = true := by
  unfold lowerChar
  cases hrun : lowerRuns.find? (·.contains c.toNat) with
  | none =>
    have hc : c.toNat ≠ 'İ'.toNat := fun heq => hdotted (Char.toNat_inj.mp heq)
    have hout : CaseRun.contains ⟨0x130, 0x130, 1, 0⟩ c.toNat = false := by
      rw [← Bool.not_eq_true]
      intro hcontains
      simp only [CaseRun.contains, Bool.and_eq_true, decide_eq_true_eq] at hcontains
      have : 'İ'.toNat = 0x130 := rfl
      omega
    simpa [isLow, casingRuns, hout] using List.find?_eq_none.mp hrun
  | some run =>
    have hmem := List.mem_of_find?_eq_some hrun
    have hcontains := List.find?_some hrun
    simp only [CaseRun.contains, Bool.and_eq_true, decide_eq_true_eq, beq_iff_eq] at hcontains
    obtain ⟨⟨hfirst, hlast⟩, hstep⟩ := hcontains
    have hapart := List.all_eq_true.mp casingRuns_apart run hmem
    refine isLow_ofNat fun other hother => ?_
    split at hapart
    · next low count hlow =>
      refine not_contains_of_misses (List.all_eq_true.mp hapart other hother) ?_ ?_ ?_
      · omega
      · omega
      · intro hsparse
        simp only [Bool.or_eq_true, Nat.beq_eq] at hsparse
        rcases hsparse with hsparse | hsparse
        · rw [hsparse] at hstep
          omega
        · omega
    · cases hapart

theorem forall_isLow_lowerFrom (before cs : List Char) :
    ∀ c ∈ lowerFrom before cs, isLow c = true := by
  induction cs generalizing before with
  | nil => nofun
  | cons c cs ih =>
    intro d hd
    rw [lowerFrom, List.mem_append] at hd
    rcases hd with hd | hd
    · rw [lowerAt] at hd
      split at hd
      · split at hd <;> rw [List.mem_singleton.mp hd] <;> decide
      · split at hd
        · have hparts : ['i', '\u0307'].all isLow = true := by decide
          exact List.all_eq_true.mp hparts d hd
        · next hdotted =>
          rw [List.mem_singleton.mp hd]
          exact isLow_lowerChar hdotted
    · exact ih _ d hd

theorem lowerFrom_of_isLow {cs : List Char} (h : ∀ c ∈ cs, isLow c = true) (before : List Char) :
    lowerFrom before cs = cs := by
  induction cs generalizing before with
  | nil => rfl
  | cons c cs ih =>
    obtain ⟨hc, hrest⟩ := List.forall_mem_cons.mp h
    have hsigma : c ≠ 'Σ' := fun heq => absurd (heq ▸ hc) (by decide)
    have hdotted : c ≠ 'İ' := fun heq => absurd (heq ▸ hc) (by decide)
    have hnone : lowerRuns.find? (·.contains c.toNat) = none := by
      rw [isLow, Bool.not_eq_true', casingRuns, List.any_cons, Bool.or_eq_false_iff] at hc
      exact List.find?_eq_none.mpr (by simpa using hc.2)
    rw [lowerFrom, ih hrest, lowerAt, if_neg hsigma, if_neg hdotted, lowerChar, hnone,
      List.singleton_append]

/-- **A text is in lowercase just if its characters are.** -/
theorem lower_eq_self_iff {s : String} : lower s = s ↔ ∀ c ∈ s.toList, isLow c = true := by
  constructor
  · intro h c hc
    rw [← h, lower, String.toList_ofList] at hc
    exact forall_isLow_lowerFrom _ _ c hc
  · intro h
    rw [lower, lowerFrom_of_isLow h, String.ofList_toList]

/-- **Lowering twice is lowering once.** -/
@[simp] theorem lower_lower (s : String) : lower (lower s) = lower s := by
  refine lower_eq_self_iff.mpr fun c hc => ?_
  rw [lower, String.toList_ofList] at hc
  exact forall_isLow_lowerFrom _ _ c hc

/-! ### Words with spaces between them -/

/-- Behind a space there is no more to see of a word. -/
theorem casedNext_append_space (cs ds : List Char) : casedNext (cs ++ ' ' :: ds) = casedNext cs := by
  have hignored : caseIgnorableRanges.contains ' '.toNat = false := by decide
  have hcased : casedRanges.contains ' '.toNat = false := by decide
  rw [casedNext, casedNext, List.dropWhile_append]
  cases hdrop : cs.dropWhile (caseIgnorableRanges.contains ·.toNat) with
  | nil =>
    rw [List.isEmpty_nil, if_pos rfl, List.dropWhile_cons, if_neg (by rw [hignored]; decide)]
    exact hcased
  | cons c rest => simp

theorem lowerFrom_append (before cs ds : List Char) :
    lowerFrom before (cs ++ ' ' :: ds) =
      lowerFrom before cs ++ ' ' :: lowerFrom (' ' :: (cs.reverse ++ before)) ds := by
  induction cs generalizing before with
  | nil =>
    have hspace : lowerAt before ' ' ds = [' '] := by
      rw [lowerAt, if_neg (by decide), if_neg (by decide)]
      decide
    change lowerAt before ' ' ds ++ lowerFrom (' ' :: before) ds = _
    rw [hspace]
    rfl
  | cons c cs ih =>
    have hat : lowerAt before c (cs ++ ' ' :: ds) = lowerAt before c cs := by
      simp only [lowerAt, casedNext_append_space]
    rw [List.cons_append, lowerFrom, lowerFrom, hat, ih, List.append_assoc]
    simp

/-- What stands before a space does not bear on the form of a letter. -/
theorem lowerFrom_append_space (near far cs : List Char) :
    lowerFrom (near ++ ' ' :: far) cs = lowerFrom near cs := by
  induction cs generalizing near with
  | nil => rfl
  | cons c cs ih =>
    have hat : lowerAt (near ++ ' ' :: far) c cs = lowerAt near c cs := by
      simp only [lowerAt, casedNext_append_space]
    rw [lowerFrom, lowerFrom, hat, ← List.cons_append, ih]

/-- **Words are lowered one by one.** -/
theorem lower_intercalate (words : List String) :
    lower (" ".intercalate words) = " ".intercalate (words.map lower) := by
  have hlists : ∀ lists : List (List Char), lowerFrom [] ([' '].intercalate lists) =
      [' '].intercalate (lists.map (lowerFrom [])) := by
    intro lists
    induction lists with
    | nil => rfl
    | cons first rest ih =>
      cases rest with
      | nil => simp
      | cons second rest =>
        have hbehind : lowerFrom (' ' :: (first.reverse ++ [])) ([' '].intercalate (second :: rest))
            = lowerFrom [] ([' '].intercalate (second :: rest)) :=
          lowerFrom_append_space [] (first.reverse ++ []) _
        rw [List.intercalate_cons_cons, List.append_assoc, List.singleton_append,
          lowerFrom_append, hbehind, ih, List.map_cons, List.map_cons, List.map_cons,
          List.intercalate_cons_cons, List.append_assoc, List.singleton_append]
  have hspace : " ".toList = [' '] := rfl
  rw [← String.toList_inj, lower, String.toList_ofList, String.toList_intercalate,
    String.toList_intercalate, hspace, hlists, List.map_map, List.map_map]
  simp [Function.comp_def, lower]

/-! ### Texts without capitals -/

/-- Whether a character of ASCII is no capital. -/
def isSmall (c : Char) : Bool :=
  c.toNat < 65 || 90 < c.toNat && c.toNat < 128

/-- Of ASCII only the capitals have another lowercase form. -/
theorem isLow_of_isSmall {c : Char} (h : isSmall c = true) : isLow c = true := by
  have hruns : (casingRuns.all fun run =>
      128 ≤ run.first || 65 ≤ run.first && run.last ≤ 90) = true := by
    decide
  rw [isLow, Bool.not_eq_true', List.any_eq_false]
  intro run hrun hcontains
  have havoid := List.all_eq_true.mp hruns run hrun
  simp only [isSmall, CaseRun.contains, Bool.or_eq_true, Bool.and_eq_true,
    decide_eq_true_eq] at h hcontains havoid
  omega

/-- A text of ASCII without capitals is its own lowercase form. -/
theorem lower_of_isSmall {s : String} (h : s.toList.all isSmall = true) : lower s = s :=
  lower_eq_self_iff.mpr fun c hc => isLow_of_isSmall (List.all_eq_true.mp h c hc)

end Adventure.Text
