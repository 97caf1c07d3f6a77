/-
Moving over a passage.

A cursor that was moved on has passed a piece of the text, and its line is further down by the
line breaks of that piece.  Pieces follow each other, so however a cursor came to a place, its
line is told by what lies before the place: it does not matter in how many steps it came there,
nor what was looked at on the way.
-/
import Adventure.Text.Cursor
import Mathlib.Data.List.Infix

namespace Adventure.Text

variable {text cs : List Char} {n : Nat}

/-- **A text is found where it first occurs.** -/
theorem append_of_position? (hne : text ≠ []) (h : position? text cs = some n) :
    ∃ inside rest, cs = inside ++ (text ++ rest) ∧ inside.length = n ∧
      ¬ text <:+: inside ++ text.dropLast := by
  induction cs generalizing n with
  | nil =>
    rw [position?, if_neg (by simpa using hne)] at h
    cases h
  | cons c cs ih =>
    rw [position?] at h
    split at h
    · rename_i hbegins
      obtain rfl := Option.some.inj h
      obtain ⟨rest, hrest⟩ := List.isPrefixOf_iff_prefix.mp hbegins
      refine ⟨[], rest, hrest.symm, rfl, fun hinside => ?_⟩
      have hlength := hinside.length_le
      have hpos := List.length_pos_iff.mpr hne
      rw [List.nil_append, List.length_dropLast] at hlength
      omega
    · rename_i hbegins
      obtain ⟨m, hm, rfl⟩ := Option.map_eq_some_iff.mp h
      obtain ⟨inside, rest, rfl, rfl, hfirst⟩ := ih hm
      refine ⟨c :: inside, rest, rfl, rfl, fun hinside => ?_⟩
      rw [List.cons_append, List.infix_cons_iff] at hinside
      -- at the first character the text does not stand, even if it went on beyond its own end
      refine hinside.elim (fun hprefix => hbegins ?_) hfirst
      rw [List.isPrefixOf_iff_prefix]
      refine hprefix.trans (List.cons_prefix_cons.mpr ⟨rfl, ?_⟩)
      rw [List.prefix_append_right_inj]
      exact (List.dropLast_prefix text).trans (List.prefix_append _ _)

namespace Cursor

variable {c d e : Cursor} {cs ds rest : List Char} {p : Char → Bool}

/-- One cursor was moved over a passage and is the other one then. -/
structure Over (passage : List Char) (c d : Cursor) : Prop where
  rest : c.rest = passage ++ d.rest
  line : d.line = c.line + passage.count '\n'

theorem Over.refl (c : Cursor) : Over [] c c :=
  ⟨rfl, rfl⟩

/-- One passage and then another. -/
theorem Over.trans (h : Over cs c d) (h' : Over ds d e) : Over (cs ++ ds) c e where
  rest := by rw [h.rest, h'.rest, List.append_assoc]
  line := by rw [h'.line, h.line, List.count_append, Nat.add_assoc]

theorem over_take (c : Cursor) (n : Nat) : Over (c.rest.take n) c (c.skip n) :=
  ⟨(List.take_append_drop n c.rest).symm, rfl⟩

theorem over_skip (h : c.rest = cs ++ rest) : Over cs c (c.skip cs.length) := by
  have hover := over_take c cs.length
  rwa [h, List.take_left] at hover

theorem over_skipWhile (c : Cursor) (p : Char → Bool) : Over (c.run p) c (c.skipWhile p) := by
  have hsplit : c.rest = c.run p ++ c.rest.dropWhile p := by
    rw [run, List.takeWhile_append_dropWhile]
  exact over_skip hsplit

/-- What is passed on the way behind a text ends with the first occurrence of it. -/
theorem over_past? {text : String} (hne : text.toList ≠ []) (h : c.past? text = some d) :
    ∃ inside, Over (inside ++ text.toList) c d ∧
      ¬ text.toList <:+: inside ++ text.toList.dropLast := by
  obtain ⟨n, hn, rfl⟩ := Option.map_eq_some_iff.mp h
  obtain ⟨inside, rest, hrest, rfl, hfirst⟩ := append_of_position? hne hn
  refine ⟨inside, ?_, hfirst⟩
  have hover : Over (inside ++ text.toList) c (c.skip (inside ++ text.toList).length) :=
    over_skip (by rw [hrest, List.append_assoc])
  rwa [List.length_append, String.length_toList] at hover

end Cursor

end Adventure.Text
