/-
Words for directions.

A word may mean a direction in its own right, or be another word for one.  A game adds
words of its own, but none that has a meaning already.  So what a word means stays as it
is, and it is always a direction in its own right.
-/
import Adventure.Declarations
import Adventure.Proofs.Names

namespace Adventure

variable {v : Vocabulary} {e : Declarations} {word other direction : String}

namespace Vocabulary

/-- Every other word for a direction is one for a direction that there is. -/
def Canonical (v : Vocabulary) : Prop :=
  ∀ word direction : String, v.directionSynonyms[word]? = some direction → v.isDirection direction

theorem canonical_empty : empty.Canonical := by
  intro word direction h
  simp [empty] at h

theorem getElem?_foldl_insert_const {names : List String} {direction found : String}
    {t : NameTable String} (h : (names.foldl (·.insert · direction) t)[word]? = some found) :
    found = direction ∨ t[word]? = some found := by
  induction names generalizing t with
  | nil => exact Or.inr h
  | cons name rest ih =>
    obtain rfl | h := ih h
    · exact Or.inl rfl
    · rw [NameTable.getElem?_insert] at h
      split at h
      · exact Or.inl (Option.some.inj h).symm
      · exact Or.inr h

/-- The words of a direction are added together with it. -/
theorem Canonical.addDirection (hv : v.Canonical) (name : String) (opposite : Option String)
    (synonyms : List String) : (v.addDirection name opposite synonyms).Canonical := by
  intro word direction h
  show (v.directions.insert name opposite).contains direction = true
  rw [Std.ExtTreeMap.contains_insert, Bool.or_eq_true]
  obtain rfl | h := getElem?_foldl_insert_const h
  · exact Or.inl (by simp)
  · exact Or.inr (hv word direction h)

theorem canonical_english : english.Canonical := by
  have hsynonyms : ∀ p ∈ englishDirections.map fun d => (d.2.2, d.1),
      english.isDirection p.2 = true := by
    decide +kernel
  intro word direction h
  rw [english, NameTable.getElem?_ofPairs (by decide)] at h
  exact hsynonyms _ (NameTable.mem_of_lookup h)

/-- What a word means, it means itself. -/
theorem Canonical.resolveDirection (hv : v.Canonical)
    (h : v.resolveDirection word = some direction) :
    v.resolveDirection direction = some direction := by
  have hdirection : v.directions.contains direction = true := by
    unfold Vocabulary.resolveDirection at h
    split at h
    · rename_i hword
      exact Option.some.inj h ▸ hword
    · exact hv word direction h
  rw [Vocabulary.resolveDirection, if_pos hdirection]

end Vocabulary

namespace Declarations

/-- What a word means after a new direction was added. -/
theorem resolveDirection_addDirection (e : Declarations) (v : Vocabulary) (word other : String) :
    (e.addDirection word).resolveDirection v other =
      if word = other then some word else e.resolveDirection v other := by
  unfold resolveDirection addDirection
  rw [Std.ExtTreeSet.contains_insert]
  by_cases hother : word = other
  · simp [hother]
  · simp [hother]

/-- What a word means after a new word for a direction was added. -/
theorem resolveDirection_addDirectionSynonym (h : e.resolveDirection v word = none)
    (direction other : String) :
    (e.addDirectionSynonym direction word).resolveDirection v other =
      if word = other then some direction else e.resolveDirection v other := by
  unfold resolveDirection at h ⊢
  unfold addDirectionSynonym
  dsimp only
  rw [NameTable.getElem?_insert]
  by_cases hother : word = other
  · subst hother
    split at h
    · exact absurd h nofun
    · rename_i hown
      have hv : v.resolveDirection word = none := by
        cases hv : v.resolveDirection word with
        | none => rfl
        | some direction => simp [hv] at h
      simp [hown, hv]
  · simp [hother]

/-- Whatever a word means is a direction in its own right. -/
def Canonical (v : Vocabulary) (e : Declarations) : Prop :=
  ∀ word direction, e.resolveDirection v word = some direction →
    e.resolveDirection v direction = some direction

theorem canonical_empty (hv : v.Canonical) : empty.Canonical v := by
  have hempty : ∀ word, empty.resolveDirection v word = v.resolveDirection word := by
    intro word
    simp [resolveDirection, empty]
  intro word direction h
  rw [hempty] at h ⊢
  exact hv.resolveDirection h

theorem Canonical.addDirection (he : e.Canonical v) (word : String) :
    (e.addDirection word).Canonical v := by
  intro other direction hother
  rw [resolveDirection_addDirection] at hother ⊢
  split at hother
  · rw [← Option.some.inj hother, if_pos rfl]
  · split
    · rename_i hword
      rw [hword]
    · exact he other direction hother

theorem Canonical.addDirectionSynonym (he : e.Canonical v)
    (hdirection : e.resolveDirection v direction = some direction)
    (h : e.resolveDirection v word = none) : (e.addDirectionSynonym direction word).Canonical v := by
  -- a direction is no new word
  have hold : ∀ found, e.resolveDirection v found = some found →
      (e.addDirectionSynonym direction word).resolveDirection v found = some found := by
    intro found hfound
    have hne : word ≠ found := by
      rintro rfl
      exact absurd (h.symm.trans hfound) nofun
    rw [resolveDirection_addDirectionSynonym h, if_neg hne, hfound]
  intro other found hother
  rw [resolveDirection_addDirectionSynonym h] at hother
  split at hother
  · exact hold found (Option.some.inj hother ▸ hdirection)
  · exact hold found (he other found hother)

end Declarations

end Adventure
