/-
What can keep a document from being read.

A document that is not read is at fault: it cannot be cut into tokens, its tokens form no
game, or it uses names that nothing declares.  Every step on the way fails for the first two
reasons only, with the line that is to blame, and what fails is passed on as it is.  The names
are missed at the end.
-/
import Adventure.Markup.Document
import Adventure.Proofs.Prose.Casting

namespace Adventure

/-- A text that is at fault is to blame. -/
theorem Error.isParse_of_isTextual {e : Error} (h : e.isTextual = true) : e.isParse = true := by
  unfold isTextual at h
  unfold isParse
  split at h
  · next hcause => rw [hcause]
  · next hcause => rw [hcause]
  · cases h

section

variable {σ α β : Type} {e : Error}

theorem Gives.isTextual {x : Except Error α} {Q : α → Prop} (hx : Gives x Q) (h : x = .error e) :
    e.isTextual = true := by
  rw [h] at hx
  exact hx

theorem Gives.of_ok {x : Except Error α} {Q : α → Prop} {a : α} (hx : Gives x Q) (h : x = .ok a) :
    Q a := by
  rw [h] at hx
  exact hx

/-- Only a fault of the text keeps a step from giving a result. -/
def Blames : EStateM.Result Error σ α → Prop
  | .ok _ _ => True
  | .error e _ => e.isTextual = true

theorem Blames.isTextual {r : EStateM.Result Error σ α} {s : σ} (hr : Blames r)
    (h : r = .error e s) : e.isTextual = true := by
  rw [h] at hr
  exact hr

theorem Blames.bind {m : EStateM Error σ α} {f : α → EStateM Error σ β}
    (hm : ∀ s, Blames (m s)) (hf : ∀ a s, Blames (f a s)) (s : σ) : Blames ((m >>= f) s) := by
  cases h : m s with
  | ok a t =>
    rw [run_bind_of_ok h]
    exact hf a t
  | error e t =>
    rw [run_bind_of_error h]
    exact (hm s).isTextual h

end

/-! ### Refusals of drafts -/

namespace Draft

variable {v : Vocabulary} {d : Draft} {line : Nat}

theorem gives_referenceEntity {name : String} {type : EntityType} :
    Gives (d.referenceEntity name type line) fun _ => True := by
  unfold referenceEntity
  split
  · split
    · trivial
    · rfl
  · split
    · rfl
    · split
      · split
        · trivial
        · rfl
      · trivial

theorem gives_declareDirection {word : String} :
    Gives (d.declareDirection v word line) fun _ => True := by
  unfold declareDirection
  split
  · rfl
  · trivial

theorem gives_declareDirectionSynonym {direction word : String} :
    Gives (d.declareDirectionSynonym v direction word line) fun _ => True := by
  unfold declareDirectionSynonym
  split
  · rfl
  · trivial

theorem gives_declareVerbSynonym {verb word : String} :
    Gives (d.declareVerbSynonym verb word line) fun _ => True := by
  unfold declareVerbSynonym
  split
  · rfl
  · trivial

end Draft

namespace Markup

open Text (Cursor)

variable {v : Vocabulary}

/-! ### Tokens -/

theorem blames_scanName (c : Cursor) : Blames (scanName c) := by
  unfold scanName
  dsimp only
  split
  · rfl
  · trivial

theorem blames_expect (expected : Char) (f : LexFault) (c : Cursor) :
    Blames (expect expected f c) := by
  unfold expect
  split
  · trivial
  · rfl

theorem blames_scanQuoted (c : Cursor) : Blames (scanQuoted c) := by
  unfold scanQuoted
  split
  · rfl
  · dsimp only
    split
    · rfl
    · split
      · rfl
      · trivial

theorem blames_scanAttribute (tag : String) (c : Cursor) : Blames (scanAttribute tag c) := by
  refine Blames.bind blames_scanName (fun key => ?_) c
  refine Blames.bind (fun _ => trivial) fun _ => ?_
  refine Blames.bind (blames_expect '=' _) fun _ => ?_
  refine Blames.bind (fun _ => trivial) fun _ => ?_
  exact Blames.bind blames_scanQuoted fun _ _ => trivial

theorem blames_scanAttributes (tag : String) (before : List (String × String)) (c : Cursor) :
    Blames (scanAttributes tag before c) := by
  fun_induction scanAttributes tag before c with
  | case1 | case2 => trivial
  | case3 before c here _ _ e d h =>
    exact (blames_scanAttribute tag here).isTextual h
  | case4 => rfl
  | case5 before c here _ _ key value d h _ ih => exact ih

theorem blames_scanOpening (c : Cursor) : Blames (scanOpening c) := by
  rw [scanOpening, modify_bind]
  refine Blames.bind blames_scanName (fun name => ?_) _
  exact Blames.bind (blames_scanAttributes name []) fun _ _ => trivial

theorem blames_scanClosing (c : Cursor) : Blames (scanClosing c) := by
  rw [scanClosing, modify_bind]
  refine Blames.bind blames_scanName (fun name => ?_) _
  refine Blames.bind (fun _ => trivial) fun _ => ?_
  exact Blames.bind (blames_expect '>' _) fun _ _ => trivial

namespace Scanner

variable {s : Scanner}

theorem blames_giveText (content : List Char) (line : Nat) : Blames (s.giveText content line) := by
  unfold giveText
  split
  · rfl
  · trivial

theorem blames_openElement : Blames s.openElement := by
  unfold openElement
  dsimp only
  split
  · rfl
  · split
    · next h => exact (blames_scanOpening s.cursor).isTextual h
    · trivial

theorem blames_closeElement : Blames s.closeElement := by
  unfold closeElement
  dsimp only
  split
  · next h => exact (blames_scanClosing s.cursor).isTextual h
  · split
    · rfl
    · split
      · trivial
      · rfl

theorem blames_scanText : Blames s.scanText := by
  fun_induction scanText s with
  | case1 | case3 | case5 | case7 | case13 => rfl
  | case2 => trivial
  | case4 s _ _ _ _ ih | case6 s _ _ _ _ ih | case8 s _ _ _ _ ih => exact ih
  | case12 s _ _ _ _ _ ih => exact ih
  | case9 s =>
    unfold readCharacterData
    dsimp only
    split
    · rfl
    · exact blames_giveText _ _
  | case10 => exact blames_closeElement
  | case11 => exact blames_openElement
  | case14 => exact blames_giveText _ _

/-- **Only a fault of the text keeps a token from being scanned.** -/
theorem blames_scan : Blames s.scan := by
  unfold scan
  split
  · trivial
  · exact blames_scanText

end Scanner

/-! ### Reading -/

namespace Reader

variable {r : Reader}

theorem blames_take : Blames r.take := by
  unfold take Lexer.next Feed.next
  cases r.lexer.replay.pop? with
  | some held => trivial
  | none =>
    cases h : r.lexer.source.scan with
    | ok token t => trivial
    | error e t => exact r.lexer.source.blames_scan.isTextual h

theorem blames_nextTag : Blames r.nextTag := by
  unfold nextTag
  split
  · next h => exact r.blames_take.isTextual h
  · rfl
  · trivial

theorem blames_nodeValue : Blames r.nodeValue := by
  unfold nodeValue
  dsimp only
  split
  · next h => exact r.blames_take.isTextual h
  · split
    · rfl
    · trivial
  · rfl

theorem blames_checkClosing (name : String) : Blames (checkClosing name r) := by
  unfold checkClosing
  split
  · trivial
  · split
    · next h => exact r.blames_take.isTextual h
    · dsimp only
      split
      · trivial
      · rfl

theorem blames_leafValue : Blames r.leafValue := by
  unfold leafValue
  split
  · next h => exact r.blames_nodeValue.isTextual h
  · next value s _ =>
    split
    · next h => exact (s.blames_checkClosing r.current.tagName).isTextual h
    · trivial

end Reader

theorem gives_attribute (t : Token) (key : String) : Gives (t.attribute key) fun _ => True := by
  unfold Token.attribute
  split
  · rfl
  · rfl
  · trivial

/-! ### Elements -/

/-- Whatever text its element holds, only a fault of that keeps a plan from being carried
out. -/
def Plan.Blames : Plan → Prop
  | .read write => ∀ value, Adventure.Gives (write value) fun _ => True
  | _ => True

namespace Section

variable {page : Page} {type : EntityType} {tag parent : String} {line : Nat} {token : Token}
variable {subject : Subject}

theorem gives_reference (page : Page) (type : EntityType) (line : Nat) (op : String → Operation) :
    Gives (reference page type line op) Plan.Blames :=
  fun _ => Draft.gives_referenceEntity.bind fun _ _ => trivial

theorem gives_gameChild : Gives (gameChild page tag parent line) Plan.Blames := by
  unfold gameChild
  split
  · split
    · rfl
    · trivial
  case h_8 =>
    split
    · trivial
    · rfl
  all_goals trivial

theorem gives_classChild : Gives (classChild page type token) Plan.Blames := by
  unfold classChild
  split
  · rfl
  · refine (gives_attribute token "class").bind fun name _ => ?_
    exact Draft.gives_declareClass.bind fun draft _ => trivial

theorem gives_instanceChild : Gives (instanceChild page type parent token) Plan.Blames := by
  unfold instanceChild
  dsimp only
  split
  · rfl
  · refine (gives_attribute token "name").bind fun name _ => ?_
    cases hdeclare : page.draft.declareEntity name type token.tagName (token.attribute? "plural")
        token.line with
    | mk declared draft =>
      cases declared with
      | error e => exact Draft.isTextual_declareEntity hdeclare
      | ok index => trivial

theorem gives_bodyChild :
    Gives (bodyChild v page subject type tag parent line) Plan.Blames := by
  unfold bodyChild
  split
  · exact fun _ => trivial
  split
  · trivial
  split
  · split
    · rfl
    · unfold exitChild
      split
      · exact gives_reference _ _ _ _
      · rfl
  · rfl

theorem gives_inventoryChild : Gives (inventoryChild page subject tag parent line) Plan.Blames := by
  unfold inventoryChild
  split
  · exact fun _ => trivial
  · exact gives_reference _ _ _ _
  · rfl
  · rfl

theorem gives_eventChild : Gives (eventChild page subject parent token) Plan.Blames := by
  unfold eventChild
  dsimp only
  split
  · split
    · trivial
    · exact fun _ => trivial
  · exact (gives_attribute token "name").bind fun _ _ _ => trivial
  · rfl

theorem gives_synonymChild : Gives (synonymChild v page token) Plan.Blames := by
  intro word
  split
  · exact Draft.gives_declareVerbSynonym.bind fun _ _ => trivial
  · exact Draft.gives_declareDirectionSynonym.bind fun _ _ => trivial
  · rfl

/-- **Only a fault of the text keeps an element from being planned.** -/
theorem gives_child (v : Vocabulary) (around : Section) (parent : String) (page : Page)
    (token : Token) : Gives (around.child v parent page token) Plan.Blames := by
  unfold child
  dsimp only
  cases around with
  | game => exact gives_gameChild
  | classes =>
    dsimp only
    split
    · trivial
    · rfl
  | classGroup type => exact gives_classChild
  | instances type => exact gives_instanceChild
  | player =>
    dsimp only
    split
    · trivial
    · rfl
  | body subject type => exact gives_bodyChild
  | messages subject =>
    dsimp only
    split
    · exact (gives_attribute token "name").bind fun _ _ _ => trivial
    · rfl
  | tags subject | aliases subject | group subject stem fields | timer =>
    dsimp only
    split
    · exact fun _ => trivial
    · rfl
  | metadata subject | attributes subject => exact fun _ => trivial
  | inventory subject => exact gives_inventoryChild
  | contents room =>
    dsimp only
    split
    · exact gives_reference _ _ _ _
    · exact gives_reference _ _ _ _
    · rfl
  | allocations owner =>
    dsimp only
    split
    · exact (gives_attribute token "amount").bind fun _ _ => gives_reference _ _ _ _
    · rfl
  | events subject => exact gives_eventChild
  | vocabulary =>
    dsimp only
    split
    · trivial
    · trivial
    · rfl
  | directions =>
    dsimp only
    split
    · exact fun word => Draft.gives_declareDirection.bind fun _ _ => trivial
    · rfl
  | synonyms =>
    dsimp only
    split
    · exact gives_synonymChild
    · rfl

end Section

/-! ### Whole documents -/

theorem gives_carryOut {plan : Plan} (hplan : plan.Blames) (page : Page) (r : Reader) :
    Gives (plan.carryOut page r) fun _ => True := by
  cases plan with
  | enter inner page' => trivial
  | read write =>
    unfold Plan.carryOut
    dsimp only
    split
    · next h => exact r.blames_leafValue.isTextual h
    · next value s _ =>
      cases h : write value with
      | error e => exact (hplan value).isTextual h
      | ok draft => trivial
  | pass draft =>
    unfold Plan.carryOut
    dsimp only
    split
    · next h => exact (r.blames_checkClosing r.current.tagName).isTextual h
    · trivial

/-- **Only a fault of the text keeps a walk from its end.** -/
theorem gives_walk (v : Vocabulary) (page : Page) (r : Reader) (levels : List Level) :
    Gives (walk v page r levels) fun _ => True := by
  fun_induction walk v page r levels with
  | case1 => trivial
  | case2 page r level outer e s h => exact r.blames_nextTag.isTextual h
  | case3 page r level outer more s _ _ e h =>
    exact (level.within.gives_child v level.tag page s.current).isTextual h
  | case4 page r level outer more s _ _ plan hchild e h =>
    have hplan := (level.within.gives_child v level.tag page s.current).of_ok hchild
    exact (gives_carryOut hplan page s).isTextual h
  | case5 page r level outer more s _ _ plan _ page' t _ ih => exact ih
  | case6 page r level outer more s _ _ plan _ inner page' t _ ih => exact ih
  | case7 page r level outer more s _ _ e t h =>
    exact (s.blames_checkClosing level.tag).isTextual h
  | case8 page r level outer more s _ _ t _ ih => exact ih

/-- **A document that is not read is at fault**, or it uses names that nothing declares. -/
theorem isParse_of_readDocument {source : String} {e : Error}
    (h : readDocument v source = .error e) : e.isParse = true := by
  unfold readDocument at h
  split at h
  · next hfault =>
    obtain rfl := Except.error.inj h
    exact Error.isParse_of_isTextual ((Reader.ofSource source).blames_nextTag.isTextual hfault)
  · next more r _ =>
    split at h
    · rcases bind_error_iff.mp h with hfault | ⟨page, -, h⟩
      · exact Error.isParse_of_isTextual ((gives_walk v _ r _).isTextual hfault)
      · rcases bind_error_iff.mp h with hfinish | ⟨_, -, h⟩
        · unfold Draft.finish at hfinish
          split at hfinish
          · cases hfinish
          · obtain rfl := Except.error.inj hfinish
            rfl
        · cases h
    · obtain rfl := Except.error.inj h
      rfl

end Markup

end Adventure
