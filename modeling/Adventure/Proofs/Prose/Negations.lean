/-
Negations in a definition.

A definition says which properties its subjects have, and a "not" before a property says that
they lack it.  Of the words of a definition only these two sorts have a say in what is asserted:
negations and property words.  `Asserted` says how they go together, a negation with the property
word next to it, and what each asserts.

Reading carries a pending negation along until the next property word takes it up.  The induction
is on how a definition is read, with the pending negation kept as the token it was.  Wherever a
definition may end it is asked whether a negation is pending, but not where a description begins:
so a negation that only a description follows is passed over.
-/
import Adventure.Proofs.Prose.Casing
import Adventure.Proofs.Prose.Homonyms
import Adventure.Proofs.Prose.Statements

namespace Adventure.Prose

/-! ### Words that have a say -/

namespace Token

/-- Whether the token is a negation. -/
def negates (t : Token) : Bool :=
  t.isWord "not"

/-- The property that the token names. -/
def property? (t : Token) : Option Property :=
  if t.kind = .word then Property.ofName? t.text else none

/-- Whether the token has a say in which properties are asserted. -/
def hasSay (t : Token) : Bool :=
  t.negates || t.property?.isSome

/-- Whether no property comes after the token any more: it begins a placement or a description,
or ends the sentence. -/
def closesProperties (t : Token) : Bool :=
  t.endsSentence || t.kind = .quoted || t.isWord "in" || t.isWord "on"

end Token

/-- The part of a definition that properties and kinds stand in. -/
def propertyPart (ts : List Token) : List Token :=
  ts.takeWhile (! ·.closesProperties)

/-- What comes after the properties and kinds: a placement, a description, or the end. -/
def behindProperties (ts : List Token) : List Token :=
  ts.dropWhile (! ·.closesProperties)

/-- Negations and property words in a row, and what they assert: a negation goes with the next
word, and each property word asserts its property once. -/
inductive Asserted : List Token → List Assertion → Prop
  | nil : Asserted [] []
  | plain {t : Token} {p : Property} {ts : List Token} {as : List Assertion}
    (hproperty : t.property? = some p) (h : Asserted ts as) :
    Asserted (t :: ts) (⟨p, false, t.line⟩ :: as)
  | negated {n t : Token} {p : Property} {ts : List Token} {as : List Assertion}
    (hnegates : n.negates = true) (hproperty : t.property? = some p) (h : Asserted ts as) :
    Asserted (n :: t :: ts) (⟨p, true, t.line⟩ :: as)

/-- The last negation of a definition has no property word behind it. -/
def Dangles (ts : List Token) : Prop :=
  ∃ before n after, propertyPart ts = before ++ n :: after ∧ n.negates = true ∧
    ∀ t ∈ after, t.property? = none

section Words

variable {l : Lexicon} {negated : Bool} {t : Token} {ts said : List Token} {as : List Assertion}

theorem Token.kind_of_negates (h : t.negates = true) : t.kind = .word :=
  kind_of_isWord h

theorem Token.property?_of_negates (h : t.negates = true) : t.property? = none := by
  have hname : Property.ofName? "not" = none := by decide +kernel
  have htext : t.text.toLower = "not" := by
    simp only [negates, isWord, Bool.and_eq_true, beq_iff_eq] at h
    exact h.2
  rw [property?, if_pos (kind_of_negates h), ← ofName?_toLower, htext, hname]

theorem Token.negates_of_property? {p : Property} (h : t.property? = some p) :
    t.negates = false := by
  rw [← Bool.not_eq_true]
  intro hnegates
  rw [property?_of_negates hnegates] at h
  cases h

theorem propertyPart_of_closes (ts : List Token) (h : t.closesProperties = true) :
    propertyPart (t :: ts) = [] ∧ behindProperties (t :: ts) = t :: ts := by
  simp [propertyPart, behindProperties, h]

theorem propertyPart_of_not_closes (ts : List Token) (h : t.closesProperties = false) :
    propertyPart (t :: ts) = t :: propertyPart ts ∧
      behindProperties (t :: ts) = behindProperties ts := by
  simp [propertyPart, behindProperties, h]

/-- As many assertions are negated as there are negations. -/
theorem Asserted.countP_negates (h : Asserted said as) :
    said.countP Token.negates = as.countP (·.negated) := by
  induction h with
  | nil => rfl
  | plain hproperty _ ih => simp [Token.negates_of_property? hproperty, ih]
  | negated hnegates hproperty _ ih =>
    simp [hnegates, Token.negates_of_property? hproperty, ih]

/-- All negations are among the words that have a say. -/
theorem countP_negates_filter (ts : List Token) :
    (ts.filter Token.hasSay).countP Token.negates = ts.countP Token.negates := by
  rw [List.countP_filter]
  refine List.countP_congr ?_
  intro t _
  cases hn : t.negates with
  | true => simp [Token.hasSay, hn]
  | false => simp

theorem countP_negates (ts : List Token) :
    ts.countP Token.negates = (propertyPart ts).countP Token.negates +
      (behindProperties ts).countP Token.negates := by
  rw [propertyPart, behindProperties, ← List.countP_append, List.takeWhile_append_dropWhile]

/-- No negation comes last. -/
theorem Asserted.not_negates_getLast? (h : Asserted said as) :
    said.getLast?.any Token.negates = false := by
  induction h with
  | nil => rfl
  | @plain t p ts as hproperty _ ih =>
    cases ts with
    | nil => exact Token.negates_of_property? hproperty
    | cons u us => rwa [List.getLast?_cons_cons]
  | @negated n t p ts as _ hproperty _ ih =>
    rw [List.getLast?_cons_cons]
    cases ts with
    | nil => exact Token.negates_of_property? hproperty
    | cons u us => rwa [List.getLast?_cons_cons]

theorem hasSay_of_negates (h : t.negates = true) : t.hasSay = true := by
  simp [Token.hasSay, h]

/-- A negation is left over just if one comes last of the words that have a say. -/
theorem dangles_iff :
    Dangles ts ↔ ((propertyPart ts).filter Token.hasSay).getLast?.any Token.negates = true := by
  constructor
  · rintro ⟨before, n, after, hpart, hn, hafter⟩
    rw [hpart, List.filter_append, List.filter_cons_of_pos (hasSay_of_negates hn),
      List.getLast?_append, List.getLast?_cons]
    cases hend : (after.filter Token.hasSay).getLast? with
    | none => exact hn
    | some t =>
      obtain ⟨hmem, hsay⟩ := List.mem_filter.mp (List.mem_of_getLast? hend)
      rw [Token.hasSay, hafter t hmem, Option.isSome_none, Bool.or_false] at hsay
      exact hsay
  · intro h
    obtain ⟨n, hlast, hn⟩ := (Option.any_eq_true _ _).mp h
    obtain ⟨before, hsaid⟩ := List.getLast?_eq_some_iff.mp hlast
    obtain ⟨front, back, hpart, -, hback⟩ := List.filter_eq_append_iff.mp hsaid
    obtain ⟨idle, after, rfl, -, -, hafter⟩ := List.filter_eq_cons_iff.mp hback
    refine ⟨front ++ idle, n, after, by rw [hpart, List.append_assoc], hn, ?_⟩
    intro t ht
    have hidle : ¬ t.hasSay = true := List.filter_eq_nil_iff.mp hafter t ht
    rw [Token.hasSay, Bool.or_eq_true, not_or] at hidle
    simpa using hidle.2

instance (ts : List Token) : Decidable (Dangles ts) :=
  decidable_of_iff _ dangles_iff.symm

/-- What a word must be to mean something in a definition. -/
def Predicate.MeantBy (negated : Bool) (t : Token) : Predicate → Prop
  | negation => t.negates = true ∧ t.closesProperties = false ∧ negated = false
  | placement _ => t.closesProperties = true ∧ negated = false
  | property p => t.property? = some p ∧ t.closesProperties = false
  | kind _ => t.hasSay = false ∧ t.closesProperties = false ∧ negated = false

theorem Preposition.ofWord?_eq_none_iff {word : String} :
    ofWord? word = none ↔ word ≠ "in" ∧ word ≠ "on" := by
  unfold ofWord?
  split <;> simp_all

theorem Predicate.meantBy_ofWord {p : Predicate} (hword : t.kind = .word)
    (h : ofWord l negated t = .ok p) : p.MeantBy negated t := by
  have hopen : ∀ {w : String}, t.text.toLower = w → w ≠ "in" → w ≠ "on" →
      t.closesProperties = false := by
    rintro _ rfl hin hon
    simp [Token.closesProperties, Token.endsSentence, Token.isWord, hword, hin, hon]
  simp only [ofWord] at h
  split at h
  · rename_i hnot
    obtain ⟨hplain, hp⟩ := guard_ok_iff.mp h
    rw [pure_ok_iff.mp hp]
    refine ⟨?_, hopen hnot (by decide) (by decide), by simpa using hplain⟩
    simp [Token.negates, Token.isWord, hword, hnot]
  · rename_i hnot
    have hnegates : t.negates = false := by
      simp [Token.negates, Token.isWord, hnot]
    split at h
    · rename_i q hq
      obtain ⟨hplain, hp⟩ := guard_ok_iff.mp h
      rw [pure_ok_iff.mp hp]
      refine ⟨?_, by simpa using hplain⟩
      rw [← Bool.not_eq_false]
      intro hcloses
      have hnone : Preposition.ofWord? t.text.toLower = none := by
        rw [Preposition.ofWord?_eq_none_iff]
        simpa [Token.closesProperties, Token.endsSentence, Token.isWord, hword] using hcloses
      rw [hnone] at hq
      cases hq
    · rename_i hnone
      obtain ⟨hin, hon⟩ := Preposition.ofWord?_eq_none_iff.mp hnone
      have hcloses := hopen rfl hin hon
      obtain ⟨-, h⟩ := guard_ok_iff.mp h
      split at h
      · rename_i q hq
        rw [pure_ok_iff.mp h]
        exact ⟨by rw [Token.property?, if_pos hword, hq], hcloses⟩
      · rename_i hproperty
        split at h
        · rename_i k hk
          rw [pure_ok_iff.mp h]
          refine ⟨?_, hcloses, by simpa using (Option.filter_eq_some_iff.mp hk).2⟩
          simp [Token.hasSay, Token.property?, hnegates, hproperty]
        · exact absurd h (by simp)

end Words

/-! ### What a definition asserts -/

/-- The assertion that a fact makes of every subject. -/
def Fact.assertion? : Fact → Option Assertion
  | .property p negated line => some ⟨p, negated, line⟩
  | _ => none

/-- The assertions that a sentence makes of every subject, in order. -/
def Reading.assertions (r : Reading) : List Assertion :=
  r.facts.filterMap Fact.assertion?

/-- The words that have a say make these assertions, save perhaps for a last negation, which a
description follows. -/
def Settles (said : List Token) (as : List Assertion) (behind : List Token) : Prop :=
  Asserted said as ∨ ∃ before n, said = before ++ [n] ∧ n.negates = true ∧ Asserted before as ∧
    behind.head?.any (·.kind = .quoted) = true

section Definitions

variable {l : Lexicon} {several started : Bool} {n t : Token} {p : Property}
variable {ts said behind : List Token} {as : List Assertion}

theorem Settles.plain (h : Settles said as behind) (hproperty : t.property? = some p) :
    Settles (t :: said) (⟨p, false, t.line⟩ :: as) behind := by
  rcases h with h | ⟨before, n, rfl, hnegates, h, hquoted⟩
  · exact .inl (.plain hproperty h)
  · exact .inr ⟨t :: before, n, rfl, hnegates, .plain hproperty h, hquoted⟩

theorem Settles.negated (h : Settles said as behind) (hn : n.negates = true)
    (hproperty : t.property? = some p) :
    Settles (n :: t :: said) (⟨p, true, t.line⟩ :: as) behind := by
  rcases h with h | ⟨before, m, rfl, hnegates, h, hquoted⟩
  · exact .inl (.negated hn hproperty h)
  · exact .inr ⟨n :: t :: before, m, rfl, hnegates, .negated hn hproperty h, hquoted⟩

/-- No negated assertion is without its negation. -/
theorem Settles.countP_negated_le (h : Settles said as behind) :
    as.countP (·.negated) ≤ said.countP Token.negates := by
  rcases h with h | ⟨before, n, rfl, -, h, -⟩
  · exact Nat.le_of_eq h.countP_negates.symm
  · rw [List.countP_append, h.countP_negates]
    exact Nat.le_add_right _ _

/-- As many are negated as there are negations, just if no negation comes last. -/
theorem Settles.countP_negates_iff (h : Settles said as behind) :
    said.countP Token.negates = as.countP (·.negated) ↔
      said.getLast?.any Token.negates = false := by
  rcases h with h | ⟨before, n, rfl, hn, h, -⟩
  · exact iff_of_true h.countP_negates h.not_negates_getLast?
  · rw [List.countP_append, h.countP_negates, List.countP_singleton, if_pos hn,
      List.getLast?_concat, Option.any_some, hn]
    exact iff_of_false (Nat.succ_ne_self _) Bool.noConfusion

theorem assertions_readPlacement (preposition : Preposition) (line : Nat) (ts : List Token) :
    (readPlacement preposition line ts).assertions = [] := by
  unfold readPlacement
  split
  · rfl
  · rfl

/-- A token that is neither a word nor the end of anything has no say. -/
theorem idle_of_kind (hword : t.kind ≠ .word) (hquoted : t.kind ≠ .quoted)
    (hends : t.endsSentence = false) : t.hasSay = false ∧ t.closesProperties = false := by
  simp [Token.hasSay, Token.negates, Token.property?, Token.closesProperties, Token.isWord, hword,
    hquoted, hends]

/-- **What a definition without a flaw asserts**, with a pending negation or without. -/
theorem settles_readDefinition {negated : Bool} (pending : Option Token)
    (hpending : ∀ n ∈ pending, n.negates = true) (hnegated : negated = pending.isSome)
    (h : (readDefinition l several negated started ts).flaw = none) :
    Settles (pending.toList ++ (propertyPart ts).filter Token.hasSay)
      (readDefinition l several negated started ts).assertions (behindProperties ts) := by
  fun_induction readDefinition l several negated started ts generalizing pending with
  | case1 | case6 | case8 | case9 | case10 | case12 | case17 => cases h
  | case2 negated started t ts hkind ih | case3 negated started t ts hkind ih
  | case4 negated started t ts hkind ih =>
    obtain ⟨hsay, hcloses⟩ := idle_of_kind (t := t) (by rw [hkind]; decide) (by rw [hkind]; decide)
      (by simp [Token.endsSentence, hkind])
    obtain ⟨hpart, hbehind⟩ := propertyPart_of_not_closes ts hcloses
    rw [hpart, hbehind, List.filter_cons_of_neg (by simp [hsay])]
    exact ih pending hpending hnegated h
  | case5 negated started t ts hkind hend | case7 negated started t ts hkind hend =>
    have hnone : pending = none := by
      rw [← Option.not_isSome_iff_eq_none, ← hnegated]
      simpa using (Bool.and_eq_true_iff.mp hend).2
    have hcloses : t.closesProperties = true := by
      simp [Token.closesProperties, Token.endsSentence, hkind]
    rw [(propertyPart_of_closes _ hcloses).1, hnone]
    exact .inl .nil
  | case11 negated started t ts hkind hstarted hone =>
    have hcloses : t.closesProperties = true := by
      simp [Token.closesProperties, hkind]
    obtain ⟨hpart, hbehind⟩ := propertyPart_of_closes ts hcloses
    rw [hpart, hbehind]
    cases pending with
    | none => exact .inl .nil
    | some n => exact .inr ⟨[], n, rfl, hpending n rfl, .nil, by simp [hkind]⟩
  | case13 negated started t ts hkind hnot ih =>
    obtain ⟨hnegates, hcloses, hplain⟩ := Predicate.meantBy_ofWord hkind hnot
    obtain ⟨hpart, hbehind⟩ := propertyPart_of_not_closes ts hcloses
    have hnone : pending = none := by
      rw [← Option.not_isSome_iff_eq_none, ← hnegated, hplain]
      decide
    have hsay : t.hasSay = true := hasSay_of_negates hnegates
    rw [hpart, hbehind, List.filter_cons_of_pos hsay, hnone]
    exact ih (some t) (by simpa using hnegates) rfl h
  | case14 negated started t ts hkind preposition hplace =>
    obtain ⟨hcloses, hplain⟩ := Predicate.meantBy_ofWord hkind hplace
    have hnone : pending = none := by
      rw [← Option.not_isSome_iff_eq_none, ← hnegated, hplain]
      decide
    rw [(propertyPart_of_closes _ hcloses).1, hnone, assertions_readPlacement]
    exact .inl .nil
  | case15 negated started t ts hkind p hp ih =>
    obtain ⟨hproperty, hcloses⟩ := Predicate.meantBy_ofWord hkind hp
    obtain ⟨hpart, hbehind⟩ := propertyPart_of_not_closes ts hcloses
    have hsay : t.hasSay = true := by simp [Token.hasSay, hproperty]
    have hrest := ih none (by rintro _ ⟨⟩) rfl h
    rw [hpart, hbehind, List.filter_cons_of_pos hsay]
    cases pending with
    | none =>
      obtain rfl : negated = false := hnegated
      exact Settles.plain hrest hproperty
    | some n =>
      obtain rfl : negated = true := hnegated
      exact Settles.negated hrest (hpending n rfl) hproperty
  | case16 negated started t ts hkind k hk ih =>
    obtain ⟨hsay, hcloses, -⟩ := Predicate.meantBy_ofWord hkind hk
    obtain ⟨hpart, hbehind⟩ := propertyPart_of_not_closes ts hcloses
    rw [hpart, hbehind, List.filter_cons_of_neg (by simp [hsay])]
    exact ih pending hpending hnegated h

end Definitions

/-! ### What becomes of the assertions -/

namespace Record

variable {r r' : Record} {a : Assertion} {as : List Assertion}

theorem name_addAssertion (r : Record) (a : Assertion) : (r.addAssertion a).name = r.name := by
  unfold addAssertion
  split
  · rfl
  · rfl

theorem addAssertion_congr (h : r.assertions = r'.assertions) :
    (r.addAssertion a).assertions = (r'.addAssertion a).assertions := by
  unfold addAssertion
  rw [h]
  split
  · exact h
  · rfl

theorem foldl_addAssertion_congr (h : r.assertions = r'.assertions) :
    (as.foldl addAssertion r).assertions = (as.foldl addAssertion r').assertions := by
  induction as generalizing r r' with
  | nil => exact h
  | cons a as ih => exact ih (addAssertion_congr h)

/-- What is asserted a second time is not added again. -/
theorem addAssertion_again (r : Record) (a : Assertion) :
    (r.addAssertion a).addAssertion a = r.addAssertion a := by
  have hagrees : a.agrees a = true := Assertion.agrees_iff.mpr ⟨rfl, rfl⟩
  have hany : (r.addAssertion a).assertions.any a.agrees = true := by
    by_cases hany : r.assertions.any a.agrees = true
    · rwa [addAssertion, if_pos hany]
    · rw [addAssertion, if_neg hany, List.any_append]
      simp [hagrees]
  rw [addAssertion, if_pos hany]

end Record

/-- Whether a fact is about the subjects of the sentence, and the sentence stays with them. -/
def Fact.ofSubjects : Fact → Bool
  | .property .. | .kind .. | .placement .. | .description _ => true
  | _ => false

theorem ofSubjects_readDefinition (l : Lexicon) (several negated started : Bool)
    (ts : List Token) :
    ∀ f ∈ (readDefinition l several negated started ts).facts, f.ofSubjects = true := by
  fun_induction readDefinition l several negated started ts with
  | case14 negated started t ts hkind preposition =>
    unfold readPlacement
    split
    · exact List.forall_mem_singleton.mpr rfl
    · exact List.forall_mem_nil _
  | case11 => exact List.forall_mem_singleton.mpr rfl
  | case15 _ _ _ _ _ _ _ ih | case16 _ _ _ _ _ _ _ ih =>
    exact List.forall_mem_cons.mpr ⟨rfl, ih⟩
  | case2 _ _ _ _ _ ih | case3 _ _ _ _ _ ih | case4 _ _ _ _ _ ih => exact ih
  | case13 _ _ _ _ _ _ ih => exact ih
  | case1 | case5 | case6 | case7 | case8 | case9 | case10 | case12 | case17 =>
    exact List.forall_mem_nil _

namespace Story

variable {s t : Story} {key : String} {r : Record} {as bs : List Assertion} {a : Assertion}

/-- A step that makes certain assertions of each of the subjects, and stays with them. -/
def Asserts {α : Type} (as : List Assertion) (m : EStateM Error Story α) : Prop :=
  ∀ s x t, m s = .ok x t → t.subjects = s.subjects ∧ ∀ key r, s.record? key = some r →
    ∃ r', t.record? key = some r' ∧
      (key ∈ s.subjects → r'.assertions = (as.foldl Record.addAssertion r).assertions)

section Steps

variable {α β : Type} {m : EStateM Error Story α} {f : α → EStateM Error Story β}

theorem asserts_pure (x : α) : Asserts [] (pure x) := by
  rintro s _ t ⟨⟩
  exact ⟨rfl, fun key r hr => ⟨r, hr, fun _ => rfl⟩⟩

theorem asserts_get : Asserts [] get := by
  rintro s _ t ⟨⟩
  exact ⟨rfl, fun key r hr => ⟨r, hr, fun _ => rfl⟩⟩

theorem Asserts.bind (hm : Asserts as m) (hf : ∀ x, Asserts bs (f x)) :
    Asserts (as ++ bs) (m >>= f) := by
  intro s y t ht
  obtain ⟨x, u, hu, ht⟩ := run_bind_ok_iff.mp ht
  obtain ⟨hsubjects, hfirst⟩ := hm s x u hu
  obtain ⟨hsubjects', hthen⟩ := hf x u y t ht
  refine ⟨hsubjects'.trans hsubjects, ?_⟩
  intro key r hr
  obtain ⟨r₁, hr₁, hfirst⟩ := hfirst key r hr
  obtain ⟨r₂, hr₂, hthen⟩ := hthen key r₁ hr₁
  refine ⟨r₂, hr₂, ?_⟩
  intro hkey
  rw [hthen (hsubjects ▸ hkey), List.foldl_append]
  exact Record.foldl_addAssertion_congr (hfirst hkey)

theorem Asserts.bind_of_nil (hm : Asserts [] m) (hf : ∀ x, Asserts bs (f x)) :
    Asserts bs (m >>= f) :=
  hm.bind hf

theorem asserts_forM {f : α → EStateM Error Story PUnit} {xs : List α} {claims : α → Option Assertion}
    (h : ∀ x ∈ xs, Asserts (claims x).toList (f x)) : Asserts (xs.filterMap claims) (xs.forM f) := by
  induction xs with
  | nil => exact asserts_pure ()
  | cons x rest ih =>
    have hcons : (x :: rest).filterMap claims = (claims x).toList ++ rest.filterMap claims := by
      cases hx : claims x with
      | none => rw [List.filterMap_cons_none hx]; rfl
      | some a => rw [List.filterMap_cons_some hx]; rfl
    rw [hcons]
    exact (h x (List.mem_cons_self ..)).bind fun _ =>
      ih fun y hy => h y (List.mem_cons_of_mem _ hy)

end Steps

theorem subjects_revise {line : Nat} {f : Record → Except Conflict Record} {u : Unit}
    (h : revise key line f s = .ok u t) : t.subjects = s.subjects := by
  unfold revise at h
  split at h
  · exact (EStateM.Result.ok.inj h).2 ▸ rfl
  · split at h
    · exact (EStateM.Result.ok.inj h).2 ▸ rfl
    · cases h

/-- What becomes of the thing of a key in a step that revises one. -/
theorem record?_revise {line : Nat} {f : Record → Except Conflict Record} {revised : String}
    {u : Unit} (hf : ∀ r r', f r = .ok r' → r'.name = r.name)
    (h : revise revised line f s = .ok u t) (hr : s.record? key = some r) :
    ∃ r', t.record? key = some r' ∧ if key = revised then f r = .ok r' else r' = r := by
  unfold revise at h
  split at h
  · rename_i hnone
    obtain rfl := (EStateM.Result.ok.inj h).2
    refine ⟨r, hr, ?_⟩
    rw [if_neg]
    rintro rfl
    rw [hnone] at hr
    cases hr
  · rename_i old hold
    split at h
    · rename_i new hnew
      obtain rfl := (EStateM.Result.ok.inj h).2
      have hkey : new.key = revised := by
        rw [Record.key, hf old new hnew, ← key_of_record? hold, Record.key]
      rw [record?_replace hkey hold]
      by_cases hsame : key = revised
      · subst hsame
        obtain rfl : old = r := Option.some.inj (hold.symm.trans hr)
        exact ⟨new, if_pos rfl, by rwa [if_pos rfl]⟩
      · exact ⟨r, by rwa [if_neg hsame], by rw [if_neg hsame]⟩
    · cases h

/-- A statement that leaves the assertions of a thing alone. -/
theorem asserts_revise (revised : String) (line : Nat) {f : Record → Except Conflict Record}
    (hf : ∀ r r', f r = .ok r' → r'.name = r.name ∧ r'.assertions = r.assertions) :
    Asserts [] (revise revised line f) := by
  intro s _ t h
  refine ⟨subjects_revise h, ?_⟩
  intro key r hr
  obtain ⟨r', hr', hrevised⟩ := record?_revise (fun r r' hr => (hf r r' hr).1) h hr
  refine ⟨r', hr', fun _ => ?_⟩
  split at hrevised
  · exact (hf r r' hrevised).2
  · rw [hrevised]
    rfl

theorem asserts_mention (m : Mention) : Asserts [] (mention m) := by
  intro s key t h
  unfold mention at h
  dsimp only at h
  split at h
  · cases h
  · split at h
    · obtain rfl := (EStateM.Result.ok.inj h).2
      exact ⟨rfl, fun key r hr => ⟨r, hr, fun _ => rfl⟩⟩
    · obtain rfl := (EStateM.Result.ok.inj h).2
      refine ⟨rfl, fun key r hr => ⟨r, ?_, fun _ => rfl⟩⟩
      rw [record?] at hr ⊢
      rw [List.find?_append, hr]
      rfl

theorem asserts_describe (key text : String) : Asserts [] (describe key text) := by
  refine asserts_revise key 0 ?_
  intro r r' h
  rw [pure_ok_iff.mp h]
  exact ⟨rfl, rfl⟩

theorem assertions_of_setKind {r' : Record} {kind : Kind} {line : Nat}
    (h : r.setKind kind line = .ok r') : r'.name = r.name ∧ r'.assertions = r.assertions := by
  obtain ⟨-, merged, -, -, rfl⟩ := Record.setKind_ok_iff.mp h
  exact ⟨rfl, rfl⟩

theorem assertions_of_place {r' : Record} {p : Placement} (h : r.place p = .ok r') :
    r'.name = r.name ∧ r'.assertions = r.assertions := by
  unfold Record.place at h
  split at h
  · rw [pure_ok_iff.mp (guard_not_ok_iff.mp h).2]
    exact ⟨rfl, rfl⟩
  · rw [pure_ok_iff.mp h]
    exact ⟨rfl, rfl⟩

theorem asserts_nil_forM {α : Type} {f : α → EStateM Error Story PUnit} {xs : List α}
    (h : ∀ x, Asserts [] (f x)) : Asserts [] (xs.forM f) := by
  have hnone : Asserts (xs.filterMap fun _ => none) (xs.forM f) := asserts_forM fun x _ => h x
  rwa [List.filterMap_none] at hnone

theorem asserts_place (p : Preposition) (target : Mention) (line : Nat) :
    Asserts [] (place p target line) := by
  refine (asserts_mention target).bind_of_nil ?_
  intro key
  refine asserts_get.bind_of_nil ?_
  intro s
  have hplaced : Asserts [] (s.subjects.forM fun subject => revise subject line fun r =>
      if subject = key then throw (.placedAtItself r.name p) else r.place ⟨p, key, line⟩) :=
    asserts_nil_forM fun subject => asserts_revise subject line
      fun _ _ h => assertions_of_place (guard_ok_iff.mp h).2
  dsimp only
  split
  · exact (asserts_revise _ _ fun _ _ h => assertions_of_setKind h).bind fun _ => hplaced
  · exact hplaced

/-- Of several things one and the same assertion is made.  A thing may be among them more than
once. -/
theorem record?_claims {keys : List String} {line : Nat} {u : PUnit}
    (h : keys.forM (fun key => revise key line (·.claim a)) s = .ok u t) :
    t.subjects = s.subjects ∧ ∀ key r, s.record? key = some r → ∃ r', t.record? key = some r' ∧
      r' = if key ∈ keys then r.addAssertion a else r := by
  have hname : ∀ r r' : Record, r.claim a = .ok r' → r'.name = r.name := by
    intro r r' hr
    obtain ⟨-, -, rfl⟩ := Record.checks_of_claim hr
    exact Record.name_addAssertion r a
  induction keys generalizing s with
  | nil =>
    obtain rfl := (EStateM.Result.ok.inj h).2
    exact ⟨rfl, fun key r hr => ⟨r, hr, rfl⟩⟩
  | cons first keys ih =>
    rw [run_forM_cons] at h
    obtain ⟨_, w, hw, h⟩ := run_bind_ok_iff.mp h
    obtain ⟨hsubjects, hrest⟩ := ih h
    refine ⟨hsubjects.trans (subjects_revise hw), ?_⟩
    intro key r hr
    obtain ⟨r₁, hr₁, hrevised⟩ := record?_revise hname hw hr
    obtain ⟨r₂, hr₂, rfl⟩ := hrest key r₁ hr₁
    refine ⟨_, hr₂, ?_⟩
    by_cases hfirst : key = first
    · rw [if_pos hfirst] at hrevised
      obtain ⟨-, -, rfl⟩ := Record.checks_of_claim hrevised
      rw [Record.addAssertion_again, ite_self, if_pos (by simp [hfirst])]
    · rw [if_neg hfirst] at hrevised
      subst hrevised
      simp [hfirst]

/-- **What a fact about the subjects asserts of each of them.** -/
theorem asserts_accept {f : Fact} (hf : f.ofSubjects = true) :
    Asserts f.assertion?.toList (accept f) := by
  cases f with
  | property p negated line =>
    intro s _ t h
    obtain ⟨_, u, hu, h⟩ := run_bind_ok_iff.mp h
    obtain ⟨rfl, rfl⟩ := EStateM.Result.ok.inj hu
    obtain ⟨hsubjects, hrecords⟩ := record?_claims h
    refine ⟨hsubjects, fun key r hr => ?_⟩
    obtain ⟨r', hr', rfl⟩ := hrecords key r hr
    exact ⟨_, hr', fun hkey => by rw [if_pos hkey]; rfl⟩
  | kind kind line =>
    exact asserts_get.bind_of_nil fun s => asserts_nil_forM fun key =>
      asserts_revise key line fun _ _ h => assertions_of_setKind h
  | placement p target line => exact asserts_place p target line
  | description text =>
    exact asserts_get.bind_of_nil fun s => asserts_nil_forM fun key =>
      asserts_describe key text
  | title | author | subjects | descriptionOf | remark | location | newKinds => cases hf

/-- **A definition that is taken in makes the assertions of its words** of each of its
subjects. -/
theorem asserts_hear (l : Lexicon) (several : Bool) (ts : List Token) (e : Error) :
    Asserts (readDefinition l several false false ts).assertions
      (hear (readDefinition l several false false ts) e) := by
  intro s _ t h
  exact asserts_forM (fun f hf => asserts_accept (ofSubjects_readDefinition l _ _ _ ts f hf))
    s _ t (hear_ok_iff.mp h).1

/-- **When no negation is dropped.**  A definition that is taken in makes certain assertions of
each of its subjects.  If every negation in it has a property word behind it, each negates the
next one, and the other property words assert what they say.  Else the last negation says
nothing, a description follows, and the rest is as before.  So there are as many negations as
negated assertions just if no negation is left over.  What follows the properties may have the
word in it too, as part of a name; then there are more of these words in the sentence. -/
theorem negations_kept_iff {s t : Story} {several : Bool} {ts : List Token} {e : Error}
    (h : hear (readDefinition s.lexicon several false false ts) e s = .ok () t) :
    ∃ as : List Assertion,
      (∀ key ∈ s.subjects, ∀ r, s.record? key = some r → ∃ r', t.record? key = some r' ∧
        r'.assertions = (as.foldl Record.addAssertion r).assertions) ∧
      (¬ Dangles ts → Asserted ((propertyPart ts).filter Token.hasSay) as) ∧
      (Dangles ts → ∃ before n, (propertyPart ts).filter Token.hasSay = before ++ [n] ∧
        n.negates = true ∧ Asserted before as ∧
        (behindProperties ts).head?.any (·.kind = .quoted) = true) ∧
      ((propertyPart ts).countP Token.negates = as.countP (·.negated) ↔ ¬ Dangles ts) ∧
      (ts.countP Token.negates = as.countP (·.negated) ↔
        ¬ Dangles ts ∧ ∀ t ∈ behindProperties ts, t.negates = false) := by
  have hsettles : Settles ((propertyPart ts).filter Token.hasSay)
      (readDefinition s.lexicon several false false ts).assertions (behindProperties ts) :=
    settles_readDefinition none (by rintro _ ⟨⟩) rfl (hear_ok_iff.mp h).2
  have hplain : ¬ Dangles ts → Asserted ((propertyPart ts).filter Token.hasSay)
      (readDefinition s.lexicon several false false ts).assertions := by
    intro hnot
    refine hsettles.resolve_right ?_
    rintro ⟨before, n, hsaid, hn, -, -⟩
    refine hnot (dangles_iff.mpr ?_)
    rw [hsaid, List.getLast?_concat]
    exact hn
  have hover : Dangles ts → _ := fun hdangles => hsettles.resolve_left fun hasserted =>
    absurd (dangles_iff.mp hdangles) (Bool.eq_false_iff.mp hasserted.not_negates_getLast?)
  have hkept : (propertyPart ts).countP Token.negates =
      (readDefinition s.lexicon several false false ts).assertions.countP (·.negated) ↔
        ¬ Dangles ts := by
    rw [← countP_negates_filter, hsettles.countP_negates_iff, dangles_iff, Bool.not_eq_true]
  refine ⟨(readDefinition s.lexicon several false false ts).assertions, ?_, hplain, hover, hkept,
    ?_⟩
  · intro key hkey r hr
    obtain ⟨r', hr', hassertions⟩ := (asserts_hear _ _ _ _ s _ t h).2 key r hr
    exact ⟨r', hr', hassertions hkey⟩
  have hmany := hsettles.countP_negated_le
  have hnone : (∀ t ∈ behindProperties ts, t.negates = false) ↔
      (behindProperties ts).countP Token.negates = 0 := by
    simp [List.countP_eq_zero]
  rw [countP_negates_filter] at hmany
  rw [← hkept, hnone, countP_negates]
  omega

/-- A story in which a box was just mentioned. -/
def boxMentioned : Story :=
  { Story.empty .english 1 with records := [.fresh "box" 1], subjects := ["box"] }

/-- The words of "not open and not locked". -/
def neitherOpenNorLocked : List Token :=
  [⟨.word, "not", 1⟩, ⟨.word, "open", 1⟩, ⟨.conjunction, "and", 1⟩, ⟨.word, "not", 1⟩,
    ⟨.word, "locked", 1⟩, ⟨.stop, ".", 1⟩]

/-- Both negations are kept. -/
theorem not_open_not_locked :
    ∃ t as, hear (readDefinition boxMentioned.lexicon false false false neitherOpenNorLocked)
        (.internal "") boxMentioned = .ok () t ∧
      Asserted ((propertyPart neitherOpenNorLocked).filter Token.hasSay) as ∧
      as.countP (·.negated) = 2 ∧ ∃ r, t.record? "box" = some r ∧
        r.assertions = (as.foldl Record.addAssertion (.fresh "box" 1)).assertions := by
  have hheard : (match hear (readDefinition boxMentioned.lexicon false false false
      neitherOpenNorLocked) (.internal "") boxMentioned with
      | .ok .. => true
      | .error .. => false) = true := by
    decide +kernel
  cases ht : hear (readDefinition boxMentioned.lexicon false false false neitherOpenNorLocked)
      (.internal "") boxMentioned with
  | error e t =>
    rw [ht] at hheard
    cases hheard
  | ok u t =>
    have hnot : ¬ Dangles neitherOpenNorLocked := by decide +kernel
    obtain ⟨as, hrecords, hasserted, -, -, hcount⟩ := negations_kept_iff ht
    obtain ⟨r, hr, hassertions⟩ :=
      hrecords "box" (List.mem_singleton_self _) (.fresh "box" 1) (by decide +kernel)
    refine ⟨t, as, rfl, hasserted hnot, ?_, r, hr, hassertions⟩
    rw [← hcount.mpr ⟨hnot, by decide +kernel⟩]
    decide +kernel

/-- The words of "open not", and a description. -/
def openNotDescribed : List Token :=
  [⟨.word, "open", 1⟩, ⟨.word, "not", 1⟩, ⟨.quoted, "hm", 1⟩, ⟨.stop, ".", 1⟩]

/-- A negation before a description is passed over: the definition is taken in, and all it
asserts is that the box is open. -/
theorem not_before_description :
    openNotDescribed.countP Token.negates = 1 ∧
    ∃ t, hear (readDefinition boxMentioned.lexicon false false false openNotDescribed)
        (.internal "") boxMentioned = .ok () t ∧
      ∃ r, t.record? "box" = some r ∧ r.description = some "hm" ∧
        r.assertions.map Assertion.text = ["open"] ∧ r.assertions.countP (·.negated) = 0 := by
  have hheard : (match hear (readDefinition boxMentioned.lexicon false false false
      openNotDescribed) (.internal "") boxMentioned with
      | .ok _ t => (t.record? "box").any fun r => r.description = some "hm" ∧
          r.assertions.map Assertion.text = ["open"] ∧ r.assertions.countP (·.negated) = 0
      | .error .. => false) = true := by
    decide +kernel
  refine ⟨by decide +kernel, ?_⟩
  cases ht : hear (readDefinition boxMentioned.lexicon false false false openNotDescribed)
      (.internal "") boxMentioned with
  | error e t =>
    rw [ht] at hheard
    cases hheard
  | ok u t =>
    rw [ht] at hheard
    obtain ⟨r, hr, hsaid⟩ := (Option.any_eq_true _ _).mp hheard
    exact ⟨t, rfl, r, hr, of_decide_eq_true hsaid⟩

end Story

end Adventure.Prose
