/-
What is said of one thing, statement by statement.

A record does not keep the statements it was made of, but what it keeps can be traced back
to them: its kind is the lowest of the kinds that were stated, with the line of a statement
that named it, and its assertions are the first ones of those that say the same.  Each
refusal names something that the record keeps, hence an earlier statement, and the two
exclude each other whatever else was said: a property that does not fit the lowest kind
does not fit those above it, and properties that leave no kind contain two that leave none.
-/
import Adventure.Proofs.Prose.Candidates
import Mathlib.Data.List.Induction

namespace Adventure.Prose

/-- A statement about one thing. -/
inductive Statement where
  /-- The thing is of a kind. -/
  | kind (kind : Kind) (line : Nat)
  /-- The thing has a property, or has not. -/
  | property (a : Assertion)
  deriving DecidableEq, Repr

namespace Statement

def line : Statement → Nat
  | kind _ line => line
  | property a => a.line

/-- What the statement makes of a thing, in words. -/
def words : Statement → String
  | kind k _ => s!"a {k.name}"
  | property a => a.text

/-- The statement as a fact that a sentence holds. -/
def fact : Statement → Fact
  | kind k line => .kind k line
  | property a => .property a.property a.negated a.line

/-- Makes the statement about a thing. -/
def apply (r : Record) : Statement → Except Conflict Record
  | kind k line => r.setKind k line
  | property a => r.claim a

/-- The statement names a kind of which there are entities, or a property that there is. -/
def Known : Statement → Prop
  | kind k _ => k.type?.isSome = true
  | property a => a.property ∈ Property.all

instance : DecidablePred Known
  | kind k _ => inferInstanceAs (Decidable (k.type?.isSome = true))
  | property a => inferInstanceAs (Decidable (a.property ∈ Property.all))

end Statement

namespace Record

/-- Takes in a statement.  If it is refused the error is on its line. -/
def tell (r : Record) (s : Statement) : Except Error Record :=
  (s.apply r).mapError fun c => .parse c.message s.line

/-- Takes in one statement after the other. -/
def tellAll (r : Record) (ss : List Statement) : Except Error Record :=
  ss.foldlM tell r

end Record

/-- The facts of sentences about kinds and properties are statements about each of their
subjects. -/
theorem Story.accept_fact (s : Statement) :
    Story.accept s.fact = Story.reviseSubjects s.line (s.apply ·) := by
  cases s <;> rfl

/-- A story takes in a statement about a thing as the record of the thing does. -/
theorem Story.revise_apply {story : Story} {key : String} {r : Record}
    (h : story.record? key = some r) (s : Statement) :
    Story.revise key s.line (s.apply ·) story =
      match r.tell s with
      | .ok r' => .ok () (story.replace r')
      | .error e => .error e story := by
  rw [Story.revise, h, Record.tell]
  dsimp only
  cases s.apply r <;> rfl

/-! ### When a statement is accepted -/

namespace Record

variable {r r' : Record} {kind merged : Kind} {a : Assertion} {line : Nat} {c : Conflict}

/-- The line that is kept with the kind of a thing: an earlier one if the kind is not new. -/
def kindLine (r : Record) (merged : Kind) (line : Nat) : Nat :=
  match r.kind with
  | some (earlier, earlierLine) => if earlier = merged then earlierLine else line
  | none => line

/-- A kind is accepted if there are entities of it, it goes with the earlier one, and every
property fits the one of the two that is kept. -/
theorem setKind_ok_iff :
    r.setKind kind line = .ok r' ↔
      kind.type?.isSome = true ∧ ∃ merged, r.mergeKind kind = .ok merged ∧
        (∀ a ∈ r.plain, a.property.fits merged = true) ∧
          r' = { r with kind := some (merged, r.kindLine merged line) } := by
  simp only [setKind, throw_bind, guard_ok_iff, bind_ok_iff, Bool.not_eq_true,
    Option.isNone_eq_false_iff]
  refine and_congr_right fun _ => exists_congr fun merged => and_congr_right fun _ => ?_
  cases hfind : r.plain.find? fun a => !a.property.fits merged with
  | some earlier =>
    have hfits := List.find?_some hfind
    simp only [throw_ok_iff, false_iff, not_and]
    intro hall
    simp [hall earlier (List.mem_of_find?_eq_some hfind)] at hfits
  | none =>
    have hfits : ∀ a ∈ r.plain, a.property.fits merged = true :=
      fun a ha => by simpa using List.find?_eq_none.mp hfind a ha
    simp only [pure_ok_iff, kindLine]
    exact ⟨fun h => ⟨hfits, h⟩, fun h => h.2⟩

theorem mergeKind_of_none (h : r.kind = none) : r.mergeKind kind = .ok kind := by
  rw [mergeKind, h]
  rfl

theorem checkFits_ok_iff_of_some {p : Property} {k : Kind} {l : Nat} (h : r.kind = some (k, l)) :
    r.checkFits p = .ok () ↔ p.fits k = true := by
  refine ⟨fits_of_checkFits h, fun hfits => ?_⟩
  rw [checkFits, h]
  exact if_pos hfits

theorem checkFits_ok_iff_of_none {p : Property} (hp : p ∈ Property.all) (h : r.kind = none) :
    r.checkFits p = .ok () ↔ candidates (r.plain.map (·.property) ++ [p]) ≠ [] := by
  refine ⟨candidates_of_checkFits hp h, fun hne => ?_⟩
  have hnone : r.excludedBy? p = none := by
    rw [excludedBy?, if_neg (by simpa using hne)]
  rw [checkFits, h]
  dsimp only
  rw [hnone]
  rfl

/-- A property is accepted if no assertion contradicts it and, if it should hold, it fits
the kind of the thing or leaves one. -/
theorem claim_ok_iff :
    r.claim a = .ok r' ↔
      (∀ b ∈ r.assertions, a.contradicts b = false) ∧
        (a.negated = false → r.checkFits a.property = .ok ()) ∧ r' = r.addAssertion a := by
  refine ⟨checks_of_claim, ?_⟩
  rintro ⟨hcontradicts, hfits, rfl⟩
  have hnone : r.assertions.find? a.contradicts = none :=
    List.find?_eq_none.mpr fun b hb => by simp [hcontradicts b hb]
  rw [claim, hnone]
  dsimp only
  cases hnegated : a.negated with
  | true => rfl
  | false =>
    rw [hfits hnegated]
    rfl

/-- A kind is refused if there are no entities of it, if it does not go with the earlier
one, or if a property does not fit the one of the two that would be kept. -/
theorem setKind_error (h : r.setKind kind line = .error c) :
    kind.type?.isSome = false ∨
      (∃ k l, r.kind = some (k, l) ∧ k.related kind = false ∧ c = .kinds r.name kind k l) ∨
      ∃ merged, r.mergeKind kind = .ok merged ∧
        ∃ a ∈ r.plain, a.property.fits merged = false ∧ c = .kindAfterProperty r.name kind a := by
  by_cases hsupported : kind.type?.isNone = true
  · exact .inl (by simpa using hsupported)
  refine .inr ?_
  simp only [setKind, hsupported, Bool.false_eq_true, if_false, bind_error_iff] at h
  rcases h with hmerge | ⟨merged, hmerge, h⟩
  · unfold mergeKind at hmerge
    split at hmerge
    · simp at hmerge
    · rename_i k l hkind
      split at hmerge
      · rename_i hrelated
        exact .inl ⟨k, l, hkind, by simpa using hrelated, (throw_error_iff.mp hmerge).symm⟩
      · simp at hmerge
  · split at h
    · rename_i earlier hfind
      refine .inr ⟨merged, hmerge, earlier, List.mem_of_find?_eq_some hfind, ?_, ?_⟩
      · simpa using List.find?_some hfind
      · exact (throw_error_iff.mp h).symm
    · simp at h

theorem checkFits_error {p : Property} (h : r.checkFits p = .error c) :
    (∃ k l, r.kind = some (k, l) ∧ p.fits k = false ∧ c = .propertyAfterKind r.name p k l) ∨
      r.kind = none ∧ ∃ b, r.excludedBy? p = some b ∧ c = .noCommonKind r.name p b := by
  unfold checkFits at h
  split at h
  · rename_i k l hkind
    split at h
    · simp at h
    · rename_i hfits
      exact .inl ⟨k, l, hkind, by simpa using hfits, (throw_error_iff.mp h).symm⟩
  · rename_i hkind
    split at h
    · rename_i b hb
      exact .inr ⟨hkind, b, hb, (throw_error_iff.mp h).symm⟩
    · simp at h

/-- A property is refused if an assertion contradicts it, or if it should hold and does not
fit the kind of the thing or leaves none. -/
theorem claim_error (h : r.claim a = .error c) :
    (∃ b ∈ r.assertions, a.contradicts b = true ∧ c = .properties r.name a b) ∨
      a.negated = false ∧ r.checkFits a.property = .error c := by
  unfold claim at h
  split at h
  · rename_i b hb
    exact .inl ⟨b, List.mem_of_find?_eq_some hb, List.find?_some hb, (throw_error_iff.mp h).symm⟩
  · split at h
    · rename_i hplain
      rcases bind_error_iff.mp h with h | ⟨_, _, h⟩
      · exact .inr ⟨by simpa using hplain, h⟩
      · simp at h
    · simp at h

end Record

namespace Assertion

variable {a b c : Assertion}

theorem agrees_iff : a.agrees b = true ↔ a.property = b.property ∧ a.negated = b.negated := by
  simp [agrees]

/-- What contradicts an assertion contradicts every one that says the same. -/
theorem contradicts_congr {a' b' : Assertion} (ha : a.agrees a' = true) (hb : b.agrees b' = true) :
    a.contradicts b = a'.contradicts b' := by
  obtain ⟨hproperty, hnegated⟩ := agrees_iff.mp ha
  obtain ⟨hproperty', hnegated'⟩ := agrees_iff.mp hb
  simp only [contradicts, hproperty, hnegated, hproperty', hnegated']

theorem contradicts_comm (ha : a.property ∈ Property.all) (hb : b.property ∈ Property.all) :
    a.contradicts b = b.contradicts a := by
  by_cases hsame : b.property = a.property
  · simp only [contradicts, hsame, if_true]
    cases a.negated <;> cases b.negated <;> rfl
  · rw [contradicts, contradicts, if_neg hsame, if_neg (Ne.symm hsame)]
    cases a.negated <;> cases b.negated
    · rw [Bool.eq_iff_iff, List.contains_iff_mem, List.contains_iff_mem]
      exact ⟨Property.contraries_symm ha hb, Property.contraries_symm hb ha⟩
    · rfl
    · rfl
    · exact Property.areOpposite_comm _ _

end Assertion

/-! ### What a record keeps of the statements -/

/-- What a record tells of a thing of a name comes from what was said. -/
structure Record.Reflects (r : Record) (name : String) (said : List Statement) : Prop where
  name : r.name = name
  coherent : r.Coherent
  /-- The kind is one that was stated, on its line. -/
  kind : ∀ k line, r.kind = some (k, line) → .kind k line ∈ said
  /-- It stands below all that were stated. -/
  lowest : ∀ k line, .kind k line ∈ said → ∃ k' line', r.kind = some (k', line') ∧ k'.isA k = true
  /-- The assertions were made, on their lines. -/
  assertions : ∀ a ∈ r.assertions, .property a ∈ said
  /-- Every assertion is there, if not with its own line. -/
  asserted : ∀ a, .property a ∈ said → ∃ b ∈ r.assertions, a.agrees b = true
  /-- None contradicts another. -/
  agree : ∀ a ∈ r.assertions, ∀ b ∈ r.assertions, a.contradicts b = false

namespace Record

variable {r r' : Record} {name : String} {said : List Statement} {s : Statement}

theorem reflects_fresh (name : String) (line : Nat) : (fresh name line).Reflects name [] :=
  ⟨rfl, coherent_fresh name line, nofun, nofun, nofun, nofun, nofun⟩

theorem apply_of_tell (h : r.tell s = .ok r') : s.apply r = .ok r' :=
  mapError_ok_iff.mp h

theorem Reflects.setKind {kind : Kind} {line : Nat} (hr : r.Reflects name said)
    (h : r.setKind kind line = .ok r') : r'.Reflects name (said ++ [.kind kind line]) := by
  obtain ⟨-, merged, hmerge, -, hr'⟩ := setKind_ok_iff.mp h
  obtain ⟨hnew, hearlier, hone⟩ := mergeKind_ok hmerge
  have hcoherent := hr.coherent.setKind h
  subst hr'
  refine ⟨hr.name, hcoherent, ?_, ?_, ?_, ?_, hr.agree⟩
  · rintro k l ⟨⟩
    -- the line is kept with a kind that is kept, and is the new one otherwise
    unfold kindLine
    split
    · rename_i k l hkind
      split
      · rename_i hsame
        exact List.mem_append_left _ (hr.kind _ _ (hsame ▸ hkind))
      · rename_i hother
        rcases hone with rfl | ⟨l', hl'⟩
        · exact List.mem_append_right _ (List.mem_singleton_self _)
        · rw [hkind] at hl'
          cases hl'
          exact absurd rfl hother
    · rename_i hnone
      rcases hone with rfl | ⟨l', hl'⟩
      · exact List.mem_append_right _ (List.mem_singleton_self _)
      · rw [hnone] at hl'
        cases hl'
  · intro k l hk
    refine ⟨merged, _, rfl, ?_⟩
    rcases List.mem_append.mp hk with hk | hk
    · obtain ⟨k', l', hk', hisA⟩ := hr.lowest k l hk
      exact Kind.isA_trans (hearlier k' l' hk') hisA
    · cases List.mem_singleton.mp hk
      exact hnew
  · exact fun a ha => List.mem_append_left _ (hr.assertions a ha)
  · intro a ha
    rcases List.mem_append.mp ha with ha | ha
    · exact hr.asserted a ha
    · cases List.mem_singleton.mp ha

theorem Reflects.claim {a : Assertion} (hr : r.Reflects name said)
    (ha : a.property ∈ Property.all) (h : r.claim a = .ok r') :
    r'.Reflects name (said ++ [.property a]) := by
  have hcoherent := hr.coherent.claim ha h
  obtain ⟨hcontradicts, -, hr'⟩ := checks_of_claim h
  have hname : r'.name = r.name := by
    rw [hr', addAssertion]
    split <;> rfl
  have hkind : r'.kind = r.kind := by
    rw [hr', addAssertion]
    split <;> rfl
  have hold : ∀ b ∈ r.assertions, b ∈ r'.assertions := by
    intro b hb
    rw [hr', addAssertion]
    split
    · exact hb
    · exact List.mem_append_left _ hb
  refine ⟨hname.trans hr.name, hcoherent, ?_, ?_, ?_, ?_, ?_⟩
  · intro k l hk
    exact List.mem_append_left _ (hr.kind k l (hkind ▸ hk))
  · intro k l hk
    rcases List.mem_append.mp hk with hk | hk
    · rw [hkind]
      exact hr.lowest k l hk
    · cases List.mem_singleton.mp hk
  · intro b hb
    rw [hr', addAssertion] at hb
    split at hb
    · exact List.mem_append_left _ (hr.assertions b hb)
    · rcases List.mem_append.mp hb with hb | hb
      · exact List.mem_append_left _ (hr.assertions b hb)
      · rw [List.mem_singleton.mp hb]
        exact List.mem_append_right _ (List.mem_singleton_self _)
  · intro b hb
    rcases List.mem_append.mp hb with hb | hb
    · obtain ⟨c, hc, hagrees⟩ := hr.asserted b hb
      exact ⟨c, hold c hc, hagrees⟩
    · cases List.mem_singleton.mp hb
      rw [hr', addAssertion]
      split
      · rename_i hany
        simpa using hany
      · exact ⟨a, List.mem_append_right _ (List.mem_singleton_self _), by simp [Assertion.agrees]⟩
  · rw [hr', addAssertion]
    split
    · exact hr.agree
    · refine forall_mem_concat₂ hr.agree a.contradicts_self hcontradicts fun b hb => ?_
      rw [Assertion.contradicts_comm (hr.coherent.properties b hb) ha]
      exact hcontradicts b hb

/-- **A statement that is accepted is reflected from then on.** -/
theorem Reflects.tell (hr : r.Reflects name said) (hs : s.Known) (h : r.tell s = .ok r') :
    r'.Reflects name (said ++ [s]) := by
  cases s with
  | kind k line => exact hr.setKind (apply_of_tell h)
  | property a => exact hr.claim hs (apply_of_tell h)

theorem tellAll_concat {r : Record} {said : List Statement} {s : Statement} :
    r.tellAll (said ++ [s]) = r.tellAll said >>= fun r' => r'.tell s := by
  rw [tellAll, List.foldlM_append]
  simp [tellAll]

/-- **A record reflects all that was said of its thing.** -/
theorem reflects_of_tellAll {line : Nat} (hknown : ∀ s ∈ said, s.Known)
    (h : (fresh name line).tellAll said = .ok r) : r.Reflects name said := by
  induction said using List.reverseRecOn generalizing r with
  | nil =>
    rw [pure_ok_iff.mp h]
    exact reflects_fresh name line
  | append_singleton said s ih =>
    obtain ⟨hsaid, hs⟩ := List.forall_mem_append.mp hknown
    rw [tellAll_concat] at h
    obtain ⟨r₁, hr₁, hr⟩ := bind_ok_iff.mp h
    exact (ih hsaid hr₁).tell (List.forall_mem_singleton.mp hs) hr

end Record

/-! ### Statements that exclude each other -/

/-- Of a thing of which nothing was said yet, the one statement is accepted and the other
is refused after it. -/
def Statement.Excludes (earlier new : Statement) : Prop :=
  ∀ name line, ∃ first, (Record.fresh name line).tell earlier = .ok first ∧
    ∃ e, first.tell new = .error e

/-- A refusal in words, up to what may be added to explain it. -/
def blame (name : String) (new earlier : Statement) (rest : String) : String :=
  s!"\"{name}\" cannot be {new.words} because it was made {earlier.words} on line {earlier.line}{rest}"

namespace Record

variable {r r' : Record} {name : String} {line : Nat} {s : Statement} {k : Kind} {a : Assertion}

theorem tell_fresh_kind (l : Nat) (hk : k.type?.isSome = true) :
    (fresh name line).tell (.kind k l) = .ok { fresh name line with kind := some (k, l) } :=
  mapError_ok_iff.mpr (setKind_ok_iff.mpr ⟨hk, k, mergeKind_of_none rfl, nofun, rfl⟩)

theorem tell_fresh_property (ha : a.property ∈ Property.all) :
    (fresh name line).tell (.property a) =
      .ok { fresh name line with assertions := [a] } := by
  have hfits : (fresh name line).checkFits a.property = .ok () :=
    (checkFits_ok_iff_of_none ha rfl).mpr (Property.candidates_singleton_ne_nil ha)
  have hclaim : (fresh name line).claim a = .ok ((fresh name line).addAssertion a) :=
    claim_ok_iff.mpr ⟨fun b hb => absurd hb List.not_mem_nil, fun _ => hfits, rfl⟩
  exact mapError_ok_iff.mpr hclaim

/-- What is not accepted is refused. -/
theorem exists_error_of_tell (h : ∀ r', s.apply r ≠ .ok r') : ∃ e, r.tell s = .error e := by
  cases htell : r.tell s with
  | error e => exact ⟨e, rfl⟩
  | ok r' => exact absurd (apply_of_tell htell) (h r')

end Record

namespace Statement

open Record

variable {k k' : Kind} {a b : Assertion} {l l' : Nat}

theorem excludes_of_unrelated (hk : k.type?.isSome = true) (h : k.related k' = false) :
    (kind k l).Excludes (kind k' l') := by
  intro name line
  refine ⟨_, tell_fresh_kind l hk, exists_error_of_tell fun r' hr' => ?_⟩
  obtain ⟨-, merged, hmerge, -⟩ := setKind_ok_iff.mp hr'
  obtain ⟨hnew, hearlier, -⟩ := mergeKind_ok hmerge
  have hrelated := Kind.isA_or_isA (hearlier k l rfl) hnew
  rw [← Bool.or_eq_true, ← Kind.related, h] at hrelated
  cases hrelated

/-- A property and a kind that it does not fit exclude each other, in either order. -/
theorem excludes_of_not_fits (ha : a.property ∈ Property.all) (hplain : a.negated = false)
    (h : a.property.fits k = false) : (property a).Excludes (kind k l) := by
  intro name line
  refine ⟨_, tell_fresh_property ha, exists_error_of_tell fun r' hr' => ?_⟩
  obtain ⟨-, merged, hmerge, hfits, -⟩ := setKind_ok_iff.mp hr'
  rw [mergeKind_of_none rfl] at hmerge
  cases hmerge
  have hfit := hfits a (mem_plain_iff.mpr ⟨List.mem_singleton_self a, hplain⟩)
  rw [h] at hfit
  cases hfit

theorem excludes_of_not_fits' (hk : k.type?.isSome = true) (hplain : a.negated = false)
    (h : a.property.fits k = false) : (kind k l).Excludes (property a) := by
  intro name line
  refine ⟨_, tell_fresh_kind l hk, exists_error_of_tell fun r' hr' => ?_⟩
  have hclaim : ({ fresh name line with kind := some (k, l) } : Record).claim a = .ok r' := hr'
  have hfit := fits_of_checkFits rfl ((claim_ok_iff.mp hclaim).2.1 hplain)
  rw [h] at hfit
  cases hfit

theorem excludes_of_contradicts (ha : a.property ∈ Property.all)
    (h : b.contradicts a = true) : (property a).Excludes (property b) := by
  intro name line
  refine ⟨_, tell_fresh_property ha, exists_error_of_tell fun r' hr' => ?_⟩
  have hclaim : Record.claim _ b = .ok r' := hr'
  have hnone := (claim_ok_iff.mp hclaim).1 a (List.mem_singleton_self a)
  rw [h] at hnone
  cases hnone

theorem excludes_of_no_candidate (ha : a.property ∈ Property.all)
    (hb : b.property ∈ Property.all) (hplain : a.negated = false) (hplain' : b.negated = false)
    (h : candidates [a.property, b.property] = []) : (property a).Excludes (property b) := by
  intro name line
  refine ⟨_, tell_fresh_property ha, exists_error_of_tell fun r' hr' => ?_⟩
  have hclaim : Record.claim _ b = .ok r' := hr'
  have hleft := candidates_of_checkFits hb rfl ((claim_ok_iff.mp hclaim).2.1 hplain')
  simp [plain, hplain, h] at hleft

end Statement

/-! ### Who is to blame -/

namespace Conflict

variable {name : String} {k k' : Kind} {a b : Assertion} {l l' : Nat}

theorem message_kinds :
    (kinds name k k' l').message = blame name (.kind k l) (.kind k' l') "" := by
  unfold message
  rw [← String.toList_inj]
  simp [blame, Statement.words, Statement.line, toString]

theorem message_kindAfterProperty (h : a.negated = false) :
    (kindAfterProperty name k a).message =
      blame name (.kind k l) (.property a) s!", which a {k.name} cannot be" := by
  unfold message
  rw [← String.toList_inj]
  simp [blame, Statement.words, Statement.line, Assertion.text, h, toString]

theorem message_properties :
    (properties name a b).message = blame name (.property a) (.property b) "" := by
  unfold message
  rw [← String.toList_inj]
  simp [blame, Statement.words, Statement.line, toString]

theorem message_propertyAfterKind (h : a.negated = false) :
    (propertyAfterKind name a.property k l).message =
      blame name (.property a) (.kind k l) "" := by
  unfold message
  rw [← String.toList_inj]
  simp [blame, Statement.words, Statement.line, Assertion.text, h, toString]

theorem message_noCommonKind (h : a.negated = false) (h' : b.negated = false) :
    (noCommonKind name a.property b).message =
      blame name (.property a) (.property b) ", and nothing can be both" := by
  unfold message
  rw [← String.toList_inj]
  simp [blame, Statement.words, Statement.line, Assertion.text, h, h', toString]

end Conflict

namespace Record.Reflects

variable {r : Record} {name : String} {said : List Statement} {new : Statement} {c : Conflict}

/-- A kind that is refused is excluded by a kind or a property that was stated. -/
theorem blames_of_kind {k : Kind} {l : Nat} (hr : r.Reflects name said)
    (hknown : ∀ s ∈ said, s.Known) (hk : k.type?.isSome = true) (h : r.setKind k l = .error c) :
    ∃ earlier ∈ said, (∃ rest, c.message = blame name (.kind k l) earlier rest) ∧
      earlier.Excludes (.kind k l) := by
  rcases setKind_error h with hnone | ⟨k', l', hkind, hrelated, rfl⟩ |
    ⟨merged, hmerge, a, ha, hfits, rfl⟩
  · rw [hk] at hnone
    cases hnone
  · have hsaid := hr.kind k' l' hkind
    refine ⟨_, hsaid, ⟨"", ?_⟩, Statement.excludes_of_unrelated (hknown _ hsaid) hrelated⟩
    rw [hr.name]
    exact Conflict.message_kinds
  · obtain ⟨hmem, hplain⟩ := mem_plain_iff.mp ha
    refine ⟨_, hr.assertions a hmem, ⟨s!", which a {k.name} cannot be", ?_⟩,
      Statement.excludes_of_not_fits (hr.coherent.properties a hmem) hplain ?_⟩
    · rw [hr.name]
      exact Conflict.message_kindAfterProperty hplain
    · -- the kind that would be kept is of the new kind, so what fits the one fits the other
      by_contra hfit
      rw [Property.fits_of_isA (by simpa using hfit) (mergeKind_ok hmerge).1] at hfits
      cases hfits

/-- A property that is refused is excluded by a kind or a property that was stated. -/
theorem blames_of_property {a : Assertion} (hr : r.Reflects name said)
    (hknown : ∀ s ∈ said, s.Known) (ha : a.property ∈ Property.all)
    (h : r.claim a = .error c) :
    ∃ earlier ∈ said, (∃ rest, c.message = blame name (.property a) earlier rest) ∧
      earlier.Excludes (.property a) := by
  rcases claim_error h with ⟨b, hb, hcontradicts, rfl⟩ | ⟨hplain, h⟩
  · refine ⟨_, hr.assertions b hb, ⟨"", ?_⟩,
      Statement.excludes_of_contradicts (hr.coherent.properties b hb) hcontradicts⟩
    rw [hr.name]
    exact Conflict.message_properties
  · rcases checkFits_error h with ⟨k, l, hkind, hfits, rfl⟩ | ⟨hkind, b, hb, rfl⟩
    · have hsaid := hr.kind k l hkind
      refine ⟨_, hsaid, ⟨"", ?_⟩, Statement.excludes_of_not_fits' (hknown _ hsaid) hplain hfits⟩
      rw [hr.name]
      exact Conflict.message_propertyAfterKind hplain
    · obtain ⟨hmem, hnone⟩ := hr.coherent.excludes hkind ha hb
      obtain ⟨hmem, hplain'⟩ := mem_plain_iff.mp hmem
      refine ⟨_, hr.assertions b hmem, ⟨", and nothing can be both", ?_⟩,
        Statement.excludes_of_no_candidate (hr.coherent.properties b hmem) ha hplain' hplain hnone⟩
      rw [hr.name]
      exact Conflict.message_noCommonKind hplain hplain'

end Record.Reflects

/-- **A refusal blames a culprit.**  Whatever was said of a thing, if one statement more is
refused then the error is on its line and names an earlier statement, with the line of
that one, and the two exclude each other: said of another thing, the earlier one alone is
accepted and the new one is refused after it. -/
theorem refusal_names_culprit {name : String} {line : Nat} {said : List Statement} {r : Record}
    {new : Statement} {e : Error} (hknown : ∀ s ∈ said, s.Known)
    (hsaid : (Record.fresh name line).tellAll said = .ok r) (hnew : new.Known)
    (h : r.tell new = .error e) :
    ∃ earlier ∈ said, (∃ rest, e = .parse (blame name new earlier rest) new.line) ∧
      earlier.Excludes new := by
  have hr := Record.reflects_of_tellAll hknown hsaid
  obtain ⟨c, hc, rfl⟩ := mapError_error_iff.mp h
  cases new with
  | kind k l =>
    obtain ⟨earlier, hearlier, ⟨rest, hmessage⟩, hexcludes⟩ := hr.blames_of_kind hknown hnew hc
    exact ⟨earlier, hearlier, ⟨rest, congrArg (Error.parse · l) hmessage⟩, hexcludes⟩
  | property a =>
    obtain ⟨earlier, hearlier, ⟨rest, hmessage⟩, hexcludes⟩ := hr.blames_of_property hknown hnew hc
    exact ⟨earlier, hearlier, ⟨rest, congrArg (Error.parse · a.line) hmessage⟩, hexcludes⟩

/-- A jar that is open and lit. -/
def litJar : List Statement :=
  [.property ⟨⟨"open", [.container, .door], ["closed"]⟩, false, 1⟩,
    .property ⟨⟨"lit", [.thing], ["unlit"]⟩, false, 2⟩]

/-- Only rooms can be lighted. -/
def lightedJar : Statement :=
  .property ⟨⟨"lighted", [.room], ["dark"]⟩, false, 3⟩

/-- Nothing can be open, lit and lighted, and already the first of these excludes the last. -/
theorem lighted_jar_blames_open :
    ∃ r e, (Record.fresh "jar" 1).tellAll litJar = .ok r ∧ r.tell lightedJar = .error e ∧
      ∃ earlier ∈ litJar, (∃ rest, e = .parse (blame "jar" lightedJar earlier rest) 3) ∧
        earlier.Excludes lightedJar := by
  have hknown : ∀ s ∈ litJar, s.Known := by decide
  obtain ⟨r, hr⟩ := exists_ok_of_isOk
    (by decide : ((Record.fresh "jar" 1).tellAll litJar).isOk = true)
  cases h : r.tell lightedJar with
  | ok r' =>
    have hrefused : ((Record.fresh "jar" 1).tellAll (litJar ++ [lightedJar])).isOk = false := by
      decide
    rw [Record.tellAll_concat, hr] at hrefused
    change (r.tell lightedJar).isOk = false at hrefused
    rw [h] at hrefused
    cases hrefused
  | error e => exact ⟨r, e, hr, h, refusal_names_culprit hknown hr (by decide) h⟩

end Adventure.Prose
