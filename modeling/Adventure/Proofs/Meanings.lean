/-
Words that keep their meaning.

Directions and other words for them come from three places: the vocabulary, the directions
of a game, and the words that the game adds for either.  They are searched in a fixed order,
and a new word is compared with what is there when it is declared, never again.  That is
enough.  Whatever has a meaning is refused as a new word, so no addition comes before an
older meaning in the search; and a new word is one for what is a direction in its own right,
so there are no chains to follow.

One call gives a meaning to at most one word, which had none.  What a whole run keeps follows
from that by induction on the calls, refused ones included.
-/
import Adventure.Proofs.Directions
import Adventure.Proofs.Refusals

namespace Adventure

variable {v : Vocabulary} {e e' e'' : Declarations} {word direction : String}

namespace Vocabulary

/-- A vocabulary that begins empty or with the English words, and to which any words were
added in any order. -/
inductive Made : Vocabulary → Prop
  | empty : Made .empty
  | english : Made .english
  | direction {v : Vocabulary} (h : Made v) (name : String) (opposite : Option String)
    (synonyms : List String) : Made (v.addDirection name opposite synonyms)
  | preposition {v : Vocabulary} (h : Made v) (word : String) : Made (v.addPreposition word)
  | fillerWord {v : Vocabulary} (h : Made v) (word : String) : Made (v.addFillerWord word)
  | verb {v : Vocabulary} (h : Made v) (word : String) : Made (v.addVerb word)

/-- **Every other word for a direction is one for a direction that there is**, however the
vocabulary was made. -/
theorem Made.canonical (h : v.Made) : v.Canonical := by
  induction h with
  | empty => exact canonical_empty
  | english => exact canonical_english
  | direction h name opposite synonyms ih => exact ih.addDirection name opposite synonyms
  | preposition h word ih | fillerWord h word ih | verb h word ih => exact ih

end Vocabulary

namespace Declarations

/-! ### One more word -/

/-- Every word that means a direction means the same one afterwards. -/
def Keeps (v : Vocabulary) (e e' : Declarations) : Prop :=
  ∀ word direction, e.resolveDirection v word = some direction →
    e'.resolveDirection v word = some direction

theorem Keeps.refl (v : Vocabulary) (e : Declarations) : Keeps v e e :=
  fun _ _ h => h

theorem Keeps.trans (h : Keeps v e e') (h' : Keeps v e' e'') : Keeps v e e'' :=
  fun word direction hword => h' word direction (h word direction hword)

/-- What is known of directions afterwards: as much as before, or one more word. -/
inductive Learns (v : Vocabulary) (e e' : Declarations) : Prop
  | nothing (h : ∀ word, e'.resolveDirection v word = e.resolveDirection v word)
  /-- The word meant nothing, and means itself or a direction in its own right. -/
  | word (new meaning : String) (hnew : e.resolveDirection v new = none)
    (hmeaning : meaning = new ∨ e.resolveDirection v meaning = some meaning)
    (h : ∀ other, e'.resolveDirection v other =
      if new = other then some meaning else e.resolveDirection v other)

/-- **A new word comes before no meaning that there was.** -/
theorem Learns.keeps (h : Learns v e e') : Keeps v e e' := by
  intro other found hother
  cases h with
  | nothing h => rw [h, hother]
  | word new meaning hnew _ h =>
    have hne : new ≠ other := by
      rintro rfl
      exact absurd (hnew.symm.trans hother) nofun
    rw [h, if_neg hne, hother]

/-- **Whatever a word means goes on to be a direction in its own right.** -/
theorem Learns.canonical (h : Learns v e e') (he : e.Canonical v) : e'.Canonical v := by
  have hkeeps := h.keeps
  intro other found hother
  cases h with
  | nothing h =>
    rw [h] at hother ⊢
    exact he other found hother
  | word new meaning hnew hmeaning h =>
    rw [h] at hother
    split at hother
    · obtain rfl := Option.some.inj hother
      rcases hmeaning with rfl | hitself
      · rw [h, if_pos rfl]
      · exact hkeeps _ _ hitself
    · exact hkeeps _ _ (he other found hother)

theorem SameWords.learns (h : e.SameWords e') (v : Vocabulary) : Learns v e e' :=
  .nothing (h.resolveDirection v)

/-- A direction is declared only if the word means nothing. -/
theorem learns_declareDirection (h : e.declareDirection v word = .ok e') : Learns v e e' := by
  simp only [declareDirection, throw_bind, guard_ok_iff, pure_ok_iff,
    Option.not_isSome_iff_eq_none] at h
  obtain ⟨hfree, rfl⟩ := h
  exact .word word word hfree (.inl rfl) (resolveDirection_addDirection e v word)

/-- Another word for a direction is declared only if it means nothing, and only for what is a
direction in its own right. -/
theorem learns_declareDirectionSynonym (h : e.declareDirectionSynonym v direction word = .ok e') :
    Learns v e e' := by
  simp only [declareDirectionSynonym, throw_bind, guard_ok_iff, pure_ok_iff, ne_eq, not_not,
    Option.not_isSome_iff_eq_none] at h
  obtain ⟨hitself, hfree, rfl⟩ := h
  exact .word word direction hfree (.inr hitself)
    (resolveDirection_addDirectionSynonym hfree direction)

end Declarations

namespace Draft

open Declarations (Keeps Learns)

variable {d d' : Draft} {line : Nat}

/-! ### One call -/

theorem learns_of_direction (h : d.declareDirection v word line = .ok d') :
    Learns v d.declarations d'.declarations := by
  unfold declareDirection at h
  split at h
  · cases h
  · next hdeclared =>
    obtain rfl := Except.ok.inj h
    exact Declarations.learns_declareDirection hdeclared

theorem learns_of_directionSynonym (h : d.declareDirectionSynonym v direction word line = .ok d') :
    Learns v d.declarations d'.declarations := by
  unfold declareDirectionSynonym at h
  split at h
  · cases h
  · next hdeclared =>
    obtain rfl := Except.ok.inj h
    exact Declarations.learns_declareDirectionSynonym hdeclared

/-- Declaring an entity says nothing of directions, whether it is refused or not. -/
theorem sameWords_declareEntity (d : Draft) (name : String) (type : EntityType)
    (className : String) (plural : Option String) (line : Nat) :
    d.declarations.SameWords (d.declareEntity name type className plural line).2.declarations := by
  have hadd (entity : DeclaredEntity) :
      d.declarations.SameWords (d.declarations.addEntity entity) := ⟨rfl, rfl, rfl⟩
  unfold declareEntity
  split
  · exact .refl _
  · dsimp only
    split
    · split
      · exact .refl _
      · exact hadd _
    · exact hadd _

namespace Call

variable {c : Call}

/-- The call, if it is about directions, is made with the words of a vocabulary. -/
def Over (v : Vocabulary) : Call → Prop
  | mention _ | verbSynonym _ _ _ => True
  | .direction u _ _ | directionSynonym u _ _ _ => u = v

/-- A call that leaves no trace when it is refused leaves the draft as it is, or does what it
is there for. -/
theorem next_of_outcome {x : Except Error Draft} (h : c.make d = Drafting.outcome d x) :
    next d c = d ∨ x = .ok (next d c) := by
  unfold next
  rw [h]
  cases x with
  | error e => exact .inl rfl
  | ok d' => exact .inr rfl

/-- A mention says nothing of directions. -/
theorem sameWords_mention (d : Draft) (m : Mention) :
    d.declarations.SameWords (next d (mention m)).declarations := by
  cases m with
  | entity name type className plural line =>
    have hnext : next d (mention (.entity name type className plural line)) =
        (d.declareEntity name type className plural line).2 := by
      rw [next, make_entity]
      generalize d.declareEntity name type className plural line = declared
      obtain ⟨result, d'⟩ := declared
      cases result <;> rfl
    rw [hnext]
    exact sameWords_declareEntity d name type className plural line
  | entityClass name type line =>
    obtain hsame | hdone :=
      next_of_outcome (c := mention (.entityClass name type line)) Drafting.declareClass_run
    · rw [hsame]
      exact .refl _
    · rw [(declareClass_ok hdone).1]
      exact ⟨rfl, rfl, rfl⟩
  | use name type line =>
    obtain hsame | hdone :=
      next_of_outcome (c := mention (.use name type line)) Drafting.useEntity_run
    · rw [hsame]
      exact .refl _
    · rw [(usesEntity_of_ok hdone).declarations]
      exact .refl _

/-- **A call gives a meaning to one word at most, which had none**, whatever becomes of it. -/
theorem learns_next (hc : c.Over v) (d : Draft) :
    Learns v d.declarations (next d c).declarations := by
  have hnone : next d c = d → Learns v d.declarations (next d c).declarations :=
    fun hsame => .nothing fun word => by rw [hsame]
  cases c with
  | mention m => exact (sameWords_mention d m).learns v
  | direction u word line =>
    obtain rfl : u = v := hc
    exact (next_of_outcome (c := .direction u word line) (Drafting.declareDirection_run u)).elim
      hnone learns_of_direction
  | directionSynonym u known word line =>
    obtain rfl : u = v := hc
    exact (next_of_outcome (c := directionSynonym u known word line)
      (Drafting.declareDirectionSynonym_run u)).elim hnone learns_of_directionSynonym
  | verbSynonym verb word line =>
    refine (next_of_outcome (c := verbSynonym verb word line)
      Drafting.declareVerbSynonym_run).elim hnone fun hdone => ?_
    rw [declareVerbSynonym_ok hdone]
    exact .nothing fun word => rfl

/-! ### Many calls -/

theorem canonical_reached (hv : v.Made) {calls : List Call} (hcalls : ∀ c ∈ calls, c.Over v) :
    (reached calls).declarations.Canonical v := by
  induction calls using List.reverseRecOn with
  | nil => exact Declarations.canonical_empty hv.canonical
  | append_singleton calls c ih =>
    obtain ⟨hbefore, hc⟩ := List.forall_mem_append.mp hcalls
    rw [reached, List.foldl_append]
    exact (learns_next (List.forall_mem_singleton.mp hc) _).canonical (ih hbefore)

theorem keeps_reached {earlier later : List Call} (hlater : ∀ c ∈ later, c.Over v) :
    Keeps v (reached earlier).declarations (reached (earlier ++ later)).declarations := by
  induction later using List.reverseRecOn with
  | nil =>
    rw [List.append_nil]
    exact .refl v _
  | append_singleton later c ih =>
    obtain ⟨hbefore, hc⟩ := List.forall_mem_append.mp hlater
    refine (ih hbefore).trans ?_
    rw [← List.append_assoc, reached, reached, List.foldl_append (l := earlier ++ later)]
    exact (learns_next (List.forall_mem_singleton.mp hc) _).keeps

/-- **A word that means a direction keeps its meaning, and what it means, it means itself.**
However the vocabulary was made, and whatever calls are made over it, some of which may be
refused: a direction that a word resolves to resolves to itself, and after any later calls the
word resolves to it still. -/
theorem meanings_are_settled (hv : v.Made) (earlier later : List Call)
    (hcalls : ∀ c ∈ earlier ++ later, c.Over v)
    (h : (reached earlier).declarations.resolveDirection v word = some direction) :
    (reached earlier).declarations.resolveDirection v direction = some direction ∧
      (reached (earlier ++ later)).declarations.resolveDirection v word = some direction := by
  obtain ⟨hearlier, hlater⟩ := List.forall_mem_append.mp hcalls
  exact ⟨canonical_reached hv hearlier word direction h, keeps_reached hlater word direction h⟩

/-- A game that has a word for upwards, in a vocabulary where "up" was another word for north
before it was a direction.  Making the word a direction, or a word for another one, is refused. -/
theorem skyward_stays_up :
    let v := (Vocabulary.empty.addDirection "north" none ["up"]).addDirection "up" (some "down") []
    let earlier := [Call.directionSynonym v "up" "skyward" 1]
    let later := [Call.direction v "skyward" 2, .direction v "down" 3,
      .directionSynonym v "down" "skyward" 4]
    (reached earlier).declarations.resolveDirection v "up" = some "up" ∧
      (reached (earlier ++ later)).declarations.resolveDirection v "skyward" = some "up" := by
  intro v earlier later
  have hv : v.Made := (Vocabulary.Made.empty.direction "north" none ["up"]).direction "up" _ []
  exact meanings_are_settled hv earlier later (by simp [earlier, later, Over]) rfl

end Call

end Draft

end Adventure
