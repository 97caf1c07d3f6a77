/-
What a walk through a document keeps.

Every step of a walk reads one element or leaves one.  The element has a name, and a value
that is read from it is more than white space.
-/
import Adventure.Markup.Document
import Adventure.Proofs.Text

namespace Adventure.Markup

variable {v : Vocabulary} {page page' : Page} {r s : Reader} {inner : Option Section}
variable {plan : Plan}

/-! ### Names and values -/

/-- Whether a token opens an element.  The name of an element is not blank. -/
def Token.Opens (t : Token) : Prop :=
  t.isOpening = true ∧ Text.isBlankText t.tagName = false

/-- An attribute that a tag must have is not blank. -/
theorem Token.not_isBlankText_attribute {t : Token} {key value : String}
    (h : t.attribute key = .ok value) : Text.isBlankText value = false := by
  unfold Token.attribute at h
  split at h
  · exact absurd h nofun
  · exact absurd h nofun
  · rename_i found hfound hne
    obtain rfl := Except.ok.inj h
    obtain ⟨text, -, rfl⟩ := Option.map_eq_some_iff.mp hne
    exact Text.not_isBlankText_trim_of_ne hfound

/-- The value of an attribute that a tag must have is the one that is written, without the
white space around it. -/
theorem Token.attribute?_of_attribute {t : Token} {key value : String}
    (h : t.attribute key = .ok value) : (t.attribute? key).map Text.trim = some value := by
  unfold Token.attribute at h
  split at h
  · exact absurd h nofun
  · exact absurd h nofun
  · rename_i hsome
    obtain rfl := Except.ok.inj h
    exact hsome

/-- The value of an element is the text that comes next, which is not blank, and its closing tag
follows. -/
theorem Reader.leafValue_ok {value : String} (h : r.leafValue = .ok value s) :
    ∃ content depth line t, r.take = .ok (.text content depth line) t ∧
      Text.isBlankText content = false ∧ value = Text.trim content ∧
        checkClosing r.current.tagName t = .ok () s := by
  unfold Reader.leafValue at h
  split at h
  · exact absurd h nofun
  rename_i text t hvalue
  split at h
  · exact absurd h nofun
  rename_i hclose
  obtain ⟨rfl, rfl⟩ := EStateM.Result.ok.inj h
  unfold nodeValue at hvalue
  dsimp only at hvalue
  split at hvalue
  · exact absurd hvalue nofun
  · rename_i content depth line _ htake
    split at hvalue
    · exact absurd hvalue nofun
    · rename_i hblank
      obtain ⟨rfl, rfl⟩ := EStateM.Result.ok.inj hvalue
      exact ⟨content, depth, line, _, htake, by simpa using hblank, rfl, hclose⟩
  · exact absurd hvalue nofun

/-- The value of an element is not blank. -/
theorem Reader.not_isBlankText_leafValue {value : String} (h : r.leafValue = .ok value s) :
    Text.isBlankText value = false := by
  obtain ⟨content, _, _, _, -, hblank, rfl, -⟩ := leafValue_ok h
  exact Text.not_isBlankText_trim hblank

/-! ### Plans -/

/-- What carrying out a plan can come to: the section to go into, if there is one, and
the page afterwards. -/
inductive Plan.Gives : Plan → Page → Option Section → Page → Prop
  | enter (page : Page) (inner : Section) (page' : Page) :
    Gives (.enter inner page') page (some inner) page'
  | read (page : Page) {write : String → Except Error Draft} {value : String} {draft : Draft}
    (hvalue : Text.isBlankText value = false) (h : write value = .ok draft) :
    Gives (.read write) page none { page with draft }
  | pass (page : Page) (draft : Draft) : Gives (.pass draft) page none { page with draft }

/-- To read an element is to read its value, and to write with that. -/
theorem Plan.carryOut_read_ok {write : String → Except Error Draft}
    (h : (Plan.read write).carryOut page r = .ok (inner, page', s)) :
    inner = none ∧ ∃ value draft, r.leafValue = .ok value s ∧ write value = .ok draft ∧
      page' = { page with draft } := by
  unfold carryOut at h
  dsimp only at h
  split at h
  · cases h
  rename_i value t hleaf
  cases hwrite : write value with
  | error e =>
    rw [hwrite] at h
    cases h
  | ok draft =>
    simp only [hwrite, Except.map, Except.ok.injEq, Prod.mk.injEq] at h
    obtain ⟨rfl, rfl, rfl⟩ := h
    exact ⟨rfl, value, draft, hleaf, hwrite, rfl⟩

/-! ### Steps -/

/-- What holds of the page and the open sections at every step of a walk. -/
structure Kept (v : Vocabulary) (I : Page → List Level → Prop) : Prop where
  /-- An element that is read as a whole. -/
  stay : ∀ {page page' : Page} {level : Level} {outer : List Level} {token : Token} {plan : Plan},
    I page (level :: outer) → token.Opens →
      level.within.child v level.tag page token = .ok plan → plan.Gives page none page' →
        I page' (level :: outer)
  /-- An element with further elements in it. -/
  enter : ∀ {page page' : Page} {level : Level} {outer : List Level} {token : Token} {plan : Plan}
    {inner : Section}, I page (level :: outer) → token.Opens →
      level.within.child v level.tag page token = .ok plan → plan.Gives page (some inner) page' →
        I page' (⟨inner, token.tagName, level.depth + 1⟩ :: level :: outer)
  /-- The end of an element. -/
  leave : ∀ {page : Page} {level : Level} {outer : List Level}, I page (level :: outer) →
    I page outer

/-- Every walk keeps nothing in particular. -/
theorem kept_true : Kept v fun _ _ => True :=
  ⟨fun _ _ _ _ => trivial, fun _ _ _ _ => trivial, fun _ => trivial⟩

end Adventure.Markup
