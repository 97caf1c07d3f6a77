/-
Where the reading of a game ends.

The walk through a document stops at the closing tag of the game.  To see what it has
read by then, follow the tokens that the reader has taken: nothing is ever put back on
the way, the elements that the scanner has open are those of the sections that the walk
is in, and all tokens after the first stand inside the game until its closing tag comes.
Each of them that opens an element has been dealt with when the walk is through.

Whatever follows that tag is never looked at.  So a game is read from some texts that are
no documents: its tokens are all found exactly if nothing of weight follows the game.
-/
import Adventure.Proofs.Drafts
import Adventure.Proofs.Markup.Nesting
import Adventure.Proofs.Markup.Walk
import Adventure.Proofs.Outcome

namespace Adventure.Markup

variable {v : Vocabulary} {source : String} {d : Draft} {r s : Reader} {token : Token}
variable {ts : List Token} {name : String} {names names' outer : List String}

/-! ### The tokens of a game -/

/-- The tokens of a game from its opening tag on, as far as they have been taken, and the
names of the elements that are open after them. -/
inductive Game : List Token → List String → Prop
  | opened (attributes : List (String × String)) (line : Nat) :
    Game [.opening "game" attributes 0 line] ["game"]
  | inside {ts : List Token} {names names' : List String} {token : Token} (h : Game ts names)
    (hopen : names ≠ []) (hdepth : 0 < token.depth) (hlast : names'.getLast? = some "game") :
    Game (ts ++ [token]) names'
  | closed {ts : List Token} {names : List String} (h : Game ts names) (hopen : names ≠ [])
    (line : Nat) : Game (ts ++ [.closing "game" 0 line]) []

namespace Game

theorem getLast? (h : Game ts names) (hopen : names ≠ []) : names.getLast? = some "game" := by
  cases h with
  | opened => rfl
  | inside _ _ _ hlast => exact hlast
  | closed => exact absurd rfl hopen

/-- One more token of a game that is still open. -/
theorem concat (h : Game ts names) (hopen : names ≠ []) (hturns : token.Turns names names') :
    Game (ts ++ [token]) names' := by
  have hlast := h.getLast? hopen
  have hpos : 0 < names.length := List.length_pos_iff.mpr hopen
  cases hturns with
  | opening name attributes _ line =>
    refine h.inside hopen hpos ?_
    rw [List.getLast?_cons_of_ne_nil hopen]
    exact hlast
  | text content _ line _ => exact h.inside hopen hpos hlast
  | finish => exact absurd rfl hopen
  | closing name _ line =>
    by_cases houter : names' = []
    · subst houter
      obtain rfl : name = "game" := by simpa using hlast
      exact h.closed hopen line
    · refine h.inside hopen (List.length_pos_iff.mpr houter) ?_
      rwa [List.getLast?_cons_of_ne_nil houter] at hlast

/-- While the game is open, its first tag is the only one outside of it. -/
theorem eq_cons (h : Game ts names) (hopen : names ≠ []) :
    ∃ attributes line inner, ts = .opening "game" attributes 0 line :: inner ∧
      ∀ t ∈ inner, 0 < t.depth := by
  induction h with
  | opened attributes line => exact ⟨attributes, line, [], rfl, nofun⟩
  | @inside ts _ _ token _ hbefore hdepth _ ih =>
    obtain ⟨attributes, line, inner, rfl, hinner⟩ := ih hbefore
    refine ⟨attributes, line, inner ++ [token], rfl, ?_⟩
    intro t ht
    obtain ht | ht := List.mem_append.mp ht
    · exact hinner t ht
    · exact List.mem_singleton.mp ht ▸ hdepth
  | closed => exact absurd rfl hopen

/-- Once the game is closed, it is one element. -/
theorem eq_element (h : Game ts []) :
    ∃ attributes first inner last,
      ts = .opening "game" attributes 0 first :: inner ++ [.closing "game" 0 last] ∧
        ∀ t ∈ inner, 0 < t.depth := by
  cases h with
  | inside _ _ _ hlast => exact absurd hlast nofun
  | closed h hopen line =>
    obtain ⟨attributes, first, inner, rfl, hinner⟩ := h.eq_cons hopen
    exact ⟨attributes, first, inner, line, rfl, hinner⟩

end Game

/-! ### What the reader has taken -/

/-- What a reader of a game has taken from the source, and the elements that are open
there. -/
structure Reader.Reads (source : String) (r : Reader) (ts : List Token) (names : List String) :
    Prop where
  /-- Nothing is put back. -/
  held : r.lexer.replay.held = []
  scans : (Scanner.ofSource source).Scans ts r.lexer.source
  around : r.lexer.source.Around names
  marked : r.lexer.source.Marked
  game : Game ts names

namespace Reader

/-- A reader that puts nothing back takes what its scanner hands out. -/
theorem scan_of_take (hheld : r.lexer.replay.held = []) (h : r.take = .ok token s) :
    r.lexer.source.scan = .ok token s.lexer.source ∧ s.lexer.replay.held = [] ∧
      s.current = r.current := by
  unfold take Lexer.next Feed.next Replay.pop? at h
  rw [hheld] at h
  dsimp only at h
  cases hscan : r.lexer.source.scan with
  | error e t =>
    rw [hscan] at h
    exact absurd h nofun
  | ok found t =>
    rw [hscan] at h
    simp only [EStateM.Result.ok.injEq] at h
    obtain ⟨rfl, rfl⟩ := h
    exact ⟨rfl, hheld, rfl⟩

theorem Reads.take (hr : r.Reads source ts names) (hopen : names ≠ [])
    (h : r.take = .ok token s) :
    ∃ names', token.Turns names names' ∧ s.Reads source (ts ++ [token]) names' ∧
      s.current = r.current ∧
        (token.isOpening = true → Text.isBlankText token.tagName = false) := by
  obtain ⟨hscan, hheld, hcurrent⟩ := scan_of_take hr.held h
  obtain ⟨names', hhanded⟩ := Scanner.handed_scan hr.around hscan
  refine ⟨names', hhanded.turns, ⟨hheld, ?_, hhanded.around, ?_, ?_⟩, hcurrent, hhanded.named⟩
  · exact hr.scans.concat hscan (hhanded.turns.not_finish hopen)
  · exact hhanded.marked (Or.inl hr.marked)
  · exact hr.game.concat hopen hhanded.turns

/-- Standing elsewhere does not change what was taken. -/
theorem Reads.standing (hr : r.Reads source ts names) {current : Token} {closeTaken : Bool} :
    Reads source { r with current, closeTaken } ts names :=
  ⟨hr.held, hr.scans, hr.around, hr.marked, hr.game⟩

/-- A tag inside the game either opens an element or closes the innermost one. -/
theorem Reads.nextTag {more : Bool} (hr : r.Reads source ts (name :: outer))
    (h : r.nextTag = .ok more s) :
    more = true ∧ s.closeTaken = false ∧
      ((s.current.Opens ∧ s.current.depth = outer.length + 1 ∧
          s.Reads source (ts ++ [s.current]) (s.current.tagName :: name :: outer)) ∨
        (∃ depth line, s.current = .closing name depth line ∧
          s.Reads source (ts ++ [s.current]) outer)) := by
  unfold Reader.nextTag at h
  split at h
  · exact absurd h nofun
  · exact absurd h nofun
  · rename_i token t hnottext htake
    simp only [EStateM.Result.ok.injEq] at h
    obtain ⟨rfl, rfl⟩ := h
    obtain ⟨names', hturns, hreads, -, hnamed⟩ := hr.take (List.cons_ne_nil _ _) htake
    refine ⟨by rw [hturns.not_finish (List.cons_ne_nil _ _)]; rfl, rfl, ?_⟩
    cases hturns with
    | opening => exact Or.inl ⟨⟨rfl, hnamed rfl⟩, rfl, hreads.standing⟩
    | closing => exact Or.inr ⟨_, _, rfl, hreads.standing⟩
    | text content _ line _ => exact absurd rfl (hnottext content _ line)

/-- The closing tag of the element whose opening tag the reader stands on. -/
theorem Reads.checkClosing (hr : r.Reads source ts names) (hopen : names ≠ [])
    (hcurrent : r.current.isOpening = true) (h : checkClosing name r = .ok () s) :
    ∃ outer depth line, names = name :: outer ∧
      s.Reads source (ts ++ [.closing name depth line]) outer := by
  unfold Reader.checkClosing at h
  have hcloses : r.current.closes name = false := by
    cases hc : r.current with
    | opening => rfl
    | closing | text | finish => rw [hc] at hcurrent; exact absurd hcurrent nofun
  rw [hcloses, Bool.and_false, if_neg Bool.false_ne_true] at h
  split at h
  · exact absurd h nofun
  · rename_i token t htake
    obtain ⟨names', hturns, hreads, -, -⟩ := hr.take hopen htake
    dsimp only at h
    split at h
    · rename_i hname
      simp only [EStateM.Result.ok.injEq, true_and] at h
      subst h
      cases hturns with
      | closing found _ line =>
        obtain rfl : found = name := by simpa [Token.closes] using hname
        exact ⟨names', _, line, rfl, hreads.standing⟩
      | opening | text | finish => exact absurd hname nofun
    · exact absurd h nofun

theorem Reads.leafValue {value : String} (hr : r.Reads source ts (r.current.tagName :: outer))
    (hcurrent : r.current.isOpening = true) (h : r.leafValue = .ok value s) :
    ∃ content depth line depth' line', value = Text.trim content ∧
      s.Reads source
        (ts ++ [.text content depth line, .closing r.current.tagName depth' line']) outer := by
  obtain ⟨content, depth, line, t, htake, -, rfl, hclose⟩ := leafValue_ok h
  obtain ⟨names', hturns, hreads, hstands, -⟩ := hr.take (List.cons_ne_nil _ _) htake
  cases hturns
  obtain ⟨outer', depth', line', hnames, hs⟩ :=
    hreads.checkClosing (List.cons_ne_nil _ _) (hstands ▸ hcurrent) hclose
  obtain ⟨-, rfl⟩ := List.cons_eq_cons.mp hnames
  rw [List.append_assoc] at hs
  exact ⟨content, _, line, depth', line', rfl, hs⟩

end Reader

/-! ### The walk -/

/-- Each level is as deep as there are levels around it. -/
def Nested : List Level → Prop
  | [] => True
  | level :: outer => level.depth = outer.length + 1 ∧ Nested outer

/-- What a plan for the element of a name takes after its opening tag: the section to go
into, if there is one, and the page afterwards. -/
inductive Plan.Takes (page : Page) (name : String) :
    Plan → List Token → Option Section → Page → Prop
  | enter (inner : Section) (page' : Page) :
    Takes page name (.enter inner page') [] (some inner) page'
  | read {write : String → Except Error Draft} {content : String} {draft : Draft}
    {depth line depth' line' : Nat} (hvalue : Text.isBlankText (Text.trim content) = false)
    (h : write (Text.trim content) = .ok draft) :
    Takes page name (.read write) [.text content depth line, .closing name depth' line'] none
      { page with draft }
  | pass (draft : Draft) {depth line : Nat} :
    Takes page name (.pass draft) [.closing name depth line] none { page with draft }

theorem Plan.Takes.gives {plan : Plan} {page page' : Page} {inner : Option Section}
    {taken : List Token} (h : plan.Takes page name taken inner page') :
    plan.Gives page inner page' := by
  cases h with
  | enter inner => exact .enter page inner _
  | read hvalue hwrite => exact .read page hvalue hwrite
  | pass draft => exact .pass page draft

/-- Reading an element leaves the reader inside of it, or behind its end. -/
theorem Plan.takes_carryOut {plan : Plan} {page page' : Page} {inner : Option Section}
    (hr : r.Reads source ts (r.current.tagName :: names)) (hcurrent : r.current.isOpening = true)
    (h : plan.carryOut page r = .ok (inner, page', s)) :
    ∃ taken, plan.Takes page r.current.tagName taken inner page' ∧ s.Reads source (ts ++ taken)
      (if inner.isSome then r.current.tagName :: names else names) := by
  cases plan with
  | enter next page'' =>
    simp only [carryOut, Except.ok.injEq, Prod.mk.injEq] at h
    obtain ⟨rfl, rfl, rfl⟩ := h
    rw [← List.append_nil ts] at hr
    exact ⟨[], .enter next page'', hr⟩
  | read write =>
    obtain ⟨rfl, value, draft, hleaf, hwrite, rfl⟩ := carryOut_read_ok h
    have hblank := Reader.not_isBlankText_leafValue hleaf
    obtain ⟨content, _, _, _, _, rfl, hs⟩ := hr.leafValue hcurrent hleaf
    exact ⟨_, .read hblank hwrite, hs⟩
  | pass draft =>
    unfold carryOut at h
    dsimp only at h
    split at h
    · cases h
    · rename_i t hclose
      simp only [Except.ok.injEq, Prod.mk.injEq] at h
      obtain ⟨rfl, rfl, rfl⟩ := h
      obtain ⟨outer, _, _, hnames, hs⟩ := hr.checkClosing (List.cons_ne_nil _ _) hcurrent hclose
      obtain ⟨-, rfl⟩ := List.cons_eq_cons.mp hnames
      exact ⟨_, .pass draft, hs⟩

/-- A walk from a page and the sections that it is in, over the tokens that it takes. -/
inductive Walks (v : Vocabulary) : Page → List Level → List Token → Page → Prop
  | done (page : Page) : Walks v page [] [] page
  /-- An element that is read as a whole. -/
  | stay {page page' final : Page} {level : Level} {outer : List Level} {token : Token}
    {plan : Plan} {taken rest : List Token} (hopens : token.Opens)
    (hchild : level.within.child v level.tag page token = .ok plan)
    (htakes : plan.Takes page token.tagName taken none page')
    (h : Walks v page' (level :: outer) rest final) :
    Walks v page (level :: outer) (token :: (taken ++ rest)) final
  /-- An element with further elements in it. -/
  | enter {page page' final : Page} {level : Level} {outer : List Level} {token : Token}
    {plan : Plan} {inner : Section} {taken rest : List Token} (hopens : token.Opens)
    (hchild : level.within.child v level.tag page token = .ok plan)
    (htakes : plan.Takes page token.tagName taken (some inner) page')
    (h : Walks v page' (⟨inner, token.tagName, level.depth + 1⟩ :: level :: outer) rest final) :
    Walks v page (level :: outer) (token :: (taken ++ rest)) final
  /-- The end of an element. -/
  | leave {page final : Page} {level : Level} {outer : List Level} {rest : List Token}
    (depth line : Nat) (h : Walks v page outer rest final) :
    Walks v page (level :: outer) (.closing level.tag depth line :: rest) final

/-- What is taken of an element after its opening tag opens no other. -/
theorem Plan.Takes.not_isOpening {plan : Plan} {page page' : Page} {inner : Option Section}
    {taken : List Token} (h : plan.Takes page name taken inner page') :
    ∀ t ∈ taken, t.isOpening = false := by
  cases h with
  | enter => exact nofun
  | read | pass => simp [Token.isOpening]

/-- What the walk through a document comes to: a page, the sections that are open, and the
reader before the next tag. -/
inductive Reaches (v : Vocabulary) (source : String) : Page → List Level → Reader → Prop
  | start {r : Reader} {more : Bool} (hnext : (Reader.ofSource source).nextTag = .ok more r)
    (hgame : (more && r.current.tagName = "game") = true) :
    Reaches v source ⟨.empty, false⟩ [⟨.game, "game", r.current.depth + 1⟩] r
  /-- An element that is read as a whole. -/
  | stay {page page' : Page} {level : Level} {outer : List Level} {r s t : Reader} {more : Bool}
    {plan : Plan} (h : Reaches v source page (level :: outer) r) (hnext : r.nextTag = .ok more s)
    (hat : (more && s.isChildAt level.depth) = true)
    (hchild : level.within.child v level.tag page s.current = .ok plan)
    (hplan : plan.carryOut page s = .ok (none, page', t)) :
    Reaches v source page' (level :: outer) t
  /-- An element with further elements in it. -/
  | enter {page page' : Page} {level : Level} {outer : List Level} {r s t : Reader} {more : Bool}
    {plan : Plan} {inner : Section} (h : Reaches v source page (level :: outer) r)
    (hnext : r.nextTag = .ok more s) (hat : (more && s.isChildAt level.depth) = true)
    (hchild : level.within.child v level.tag page s.current = .ok plan)
    (hplan : plan.carryOut page s = .ok (some inner, page', t)) :
    Reaches v source page' (⟨inner, s.current.tagName, level.depth + 1⟩ :: level :: outer) t
  /-- The end of an element. -/
  | leave {page : Page} {level : Level} {outer : List Level} {r s t : Reader} {more : Bool}
    (h : Reaches v source page (level :: outer) r) (hnext : r.nextTag = .ok more s)
    (hat : ¬ (more && s.isChildAt level.depth) = true)
    (hclose : Reader.checkClosing level.tag s = .ok () t) : Reaches v source page outer t

/-- The walk through a document comes to an element: the reader stands on its opening tag, in
a section that is open. -/
def Meets (v : Vocabulary) (source : String) (page : Page) (level : Level) (s : Reader) : Prop :=
  ∃ outer r more, Reaches v source page (level :: outer) r ∧ r.nextTag = .ok more s ∧
    (more && s.isChildAt level.depth) = true

/-- The walk deals with an element that a tag opens. -/
def DealsWith (v : Vocabulary) (source : String) (token : Token) : Prop :=
  ∃ page level s, Meets v source page level s ∧ s.current = token

/-- What is dealt with is the element at hand and those behind it. -/
theorem forall_deals {taken rest : List Token} (h : DealsWith v source token)
    (htaken : ∀ t ∈ taken, t.isOpening = false)
    (hrest : ∀ t ∈ rest, t.isOpening = true → DealsWith v source t) :
    ∀ t ∈ token :: (taken ++ rest), t.isOpening = true → DealsWith v source t := by
  refine List.forall_mem_cons.mpr ⟨fun _ => h, List.forall_mem_append.mpr ⟨?_, hrest⟩⟩
  intro t ht hopening
  exact absurd ((htaken t ht).symm.trans hopening) nofun

/-- **A walk takes the tokens of the game one by one**, up to its end, and deals with every
element that they open. -/
theorem walks_of_walk {page final : Page} {levels : List Level}
    (h : walk v page r levels = .ok final) (hr : r.Reads source ts (levels.map Level.tag))
    (hnested : Nested levels) (hreaches : Reaches v source page levels r) :
    ∃ s rest, Walks v page levels rest final ∧ Reader.Reads source s (ts ++ rest) [] ∧
      ∀ t ∈ rest, t.isOpening = true → DealsWith v source t := by
  fun_induction walk v page r levels generalizing ts with
  | case1 page r =>
    obtain rfl := Except.ok.inj h
    exact ⟨r, [], .done page, by rwa [List.append_nil], by simp⟩
  | case2 | case3 | case4 | case7 => cases h
  | case5 page r level outer more s hnext hat plan hchild page' t hplan ih =>
    obtain ⟨-, -, ⟨hopens, -, hs⟩ | ⟨_, _, hclosing, -⟩⟩ := hr.nextTag hnext
    · obtain ⟨taken, htakes, ht⟩ := plan.takes_carryOut hs hopens.1 hplan
      obtain ⟨u, rest, hwalks, hu, hdeals⟩ :=
        ih h ht hnested (hreaches.stay hnext hat hchild hplan)
      refine ⟨u, _, .stay hopens hchild htakes hwalks, by simpa using hu, ?_⟩
      exact forall_deals ⟨page, level, s, ⟨outer, r, more, hreaches, hnext, hat⟩, rfl⟩
        htakes.not_isOpening hdeals
    · rw [Reader.isChildAt, hclosing] at hat
      simp [Token.isOpening] at hat
  | case6 page r level outer more s hnext hat plan hchild inner page' t hplan ih =>
    obtain ⟨-, -, ⟨hopens, -, hs⟩ | ⟨_, _, hclosing, -⟩⟩ := hr.nextTag hnext
    · obtain ⟨taken, htakes, ht⟩ := plan.takes_carryOut hs hopens.1 hplan
      obtain ⟨u, rest, hwalks, hu, hdeals⟩ :=
        ih h ht ⟨congrArg (· + 1) hnested.1, hnested⟩ (hreaches.enter hnext hat hchild hplan)
      refine ⟨u, _, .enter hopens hchild htakes hwalks, by simpa using hu, ?_⟩
      exact forall_deals ⟨page, level, s, ⟨outer, r, more, hreaches, hnext, hat⟩, rfl⟩
        htakes.not_isOpening hdeals
    · rw [Reader.isChildAt, hclosing] at hat
      simp [Token.isOpening] at hat
  | case8 page r level outer more s hnext hat t hclose ih =>
    have hleft := hreaches.leave hnext hat hclose
    obtain ⟨rfl, htaken, ⟨hopens, hdepth, -⟩ | ⟨depth, line, hclosing, hs⟩⟩ := hr.nextTag hnext
    · refine absurd ?_ hat
      rw [Reader.isChildAt, hopens.1, hdepth, hnested.1, List.length_map]
      simp
    · unfold Reader.checkClosing at hclose
      rw [htaken, hclosing] at hclose
      simp only [Token.closes, decide_true, Bool.not_false, Bool.and_self, if_true,
        EStateM.Result.ok.injEq, true_and] at hclose
      subst hclose
      obtain ⟨u, rest, hwalks, hu, hdeals⟩ := ih h hs.standing hnested.2 hleft
      rw [hclosing, List.append_assoc] at hu
      refine ⟨u, _, .leave depth line hwalks, hu, List.forall_mem_cons.mpr ⟨?_, hdeals⟩⟩
      simp [Token.isOpening]

/-- **What every step keeps holds at the end of a walk.** -/
theorem Kept.of_walks {I : Page → List Level → Prop} (hkept : Kept v I) {page final : Page}
    {levels : List Level} (h : Walks v page levels ts final) (hI : I page levels) : I final [] := by
  induction h with
  | done => exact hI
  | stay hopens hchild htakes _ ih => exact ih (hkept.stay hI hopens hchild htakes.gives)
  | enter hopens hchild htakes _ ih => exact ih (hkept.enter hI hopens hchild htakes.gives)
  | leave _ _ _ ih => exact ih (hkept.leave hI)

/-- The reader begins a game with its opening tag. -/
theorem reads_ofSource {more : Bool} (h : (Reader.ofSource source).nextTag = .ok more r)
    (hmore : more = true) (hgame : r.current.tagName = "game") :
    r.current.depth = 0 ∧
      ∃ attributes line, r.Reads source [.opening "game" attributes 0 line] ["game"] := by
  unfold Reader.nextTag at h
  split at h
  · exact absurd h nofun
  · exact absurd h nofun
  · rename_i token t hnottext htake
    simp only [EStateM.Result.ok.injEq] at h
    obtain ⟨hfinish, rfl⟩ := h
    obtain ⟨hscan, hheld, -⟩ := Reader.scan_of_take rfl htake
    obtain ⟨names, hhanded⟩ := Scanner.handed_scan (Scanner.around_ofSource source) hscan
    have hturns := hhanded.turns
    cases hturns with
    | opening name attributes _ line =>
      obtain rfl : name = "game" := hgame
      refine ⟨rfl, attributes, line, hheld, ?_, hhanded.around, hhanded.marked (Or.inr rfl),
        .opened attributes line⟩
      exact Scanner.Scans.start.concat hscan rfl
    | text content _ line _ => exact absurd rfl (hnottext content _ line)
    | finish => exact absurd (hfinish.trans hmore) nofun

/-- **A document that is read is walked through from the opening tag of the game to its
end**: nothing is awaited in it any more, and every element in it was dealt with. -/
theorem deals_of_readDocument (h : readDocument v source = .ok d) :
    ∃ s page attributes line rest, page.draft = d ∧ d.awaited = [] ∧
      Walks v ⟨.empty, false⟩ [⟨.game, "game", 1⟩] rest page ∧
        Reader.Reads source s (.opening "game" attributes 0 line :: rest) [] ∧
          ∀ t ∈ rest, t.isOpening = true → DealsWith v source t := by
  unfold readDocument at h
  split at h
  · exact absurd h nofun
  rename_i more r hnext
  split at h
  · rename_i hgame
    have hstart : Reaches v source ⟨.empty, false⟩ [⟨.game, "game", r.current.depth + 1⟩] r :=
      .start hnext hgame
    rw [Bool.and_eq_true, decide_eq_true_eq] at hgame
    obtain ⟨hdepth, attributes, line, hreads⟩ := reads_ofSource hnext hgame.1 hgame.2
    obtain ⟨page, hwalk, h⟩ := bind_ok_iff.mp h
    obtain ⟨_, hfinish, h⟩ := bind_ok_iff.mp h
    obtain rfl := Except.ok.inj h
    rw [hdepth] at hwalk hstart
    obtain ⟨s, rest, hwalks, hs, hdeals⟩ := walks_of_walk hwalk hreads ⟨rfl, trivial⟩ hstart
    exact ⟨s, page, attributes, line, rest, rfl, Draft.awaited_of_finish hfinish, hwalks, hs,
      hdeals⟩
  · exact absurd h nofun

theorem walks_of_readDocument (h : readDocument v source = .ok d) :
    ∃ s page attributes line rest, page.draft = d ∧ d.awaited = [] ∧
      Walks v ⟨.empty, false⟩ [⟨.game, "game", 1⟩] rest page ∧
        Reader.Reads source s (.opening "game" attributes 0 line :: rest) [] := by
  obtain ⟨s, page, attributes, line, rest, hdraft, hawaited, hwalks, hs, -⟩ :=
    deals_of_readDocument h
  exact ⟨s, page, attributes, line, rest, hdraft, hawaited, hwalks, hs⟩

/-- **What every step keeps holds of a document that was read**, and nothing is awaited in
it any more. -/
theorem Kept.of_readDocument {I : Page → List Level → Prop} (hkept : Kept v I)
    (h : readDocument v source = .ok d) (hI : I ⟨.empty, false⟩ [⟨.game, "game", 1⟩]) :
    ∃ page, page.draft = d ∧ I page [] ∧ d.awaited = [] ∧ ∃ s ts, Reader.Reads source s ts [] := by
  obtain ⟨s, page, _, _, rest, hdraft, hawaited, hwalks, hs⟩ := walks_of_readDocument h
  exact ⟨page, hdraft, hkept.of_walks hwalks hI, hawaited, s, _, hs⟩

/-! ### What follows the game -/

theorem Reader.Reads.ended (hr : r.Reads source ts []) : r.lexer.source.Ended := by
  obtain ⟨hopened, howed⟩ := hr.around.eq_nil
  refine ⟨hopened, howed, ?_⟩
  rw [hr.marked, hopened]
  rfl

/-- **A game is read up to its closing tag.  The rest of the source is cut into tokens
exactly if nothing remains but comments, instructions, declarations and blank text.** -/
theorem tokens_ok_iff_ignorable (h : readDocument v source = .ok d) :
    ∃ attributes first inner last s,
      (Scanner.ofSource source).Scans
          (.opening "game" attributes 0 first :: inner ++ [.closing "game" 0 last]) s ∧
        (∀ t ∈ inner, 0 < t.depth) ∧ s.Ended ∧
          ((∃ ts, tokens source = .ok ts) ↔ Ignorable s.cursor) := by
  obtain ⟨-, -, -, -, s, ts, hs⟩ := kept_true.of_readDocument h trivial
  obtain ⟨attributes, first, inner, last, rfl, hinner⟩ := hs.game.eq_element
  have hended := hs.ended
  refine ⟨attributes, first, inner, last, s.lexer.source, hs.scans, hinner, hended, ?_⟩
  rw [← hended.tokens_ok_iff, tokens, hs.scans.tokens_eq]
  cases s.lexer.source.tokens <;> simp [Except.map]

set_option maxRecDepth 100000 in
/-- A comment may follow a game. -/
theorem ignorable_comment :
    ∃ d s, readDocument .english "<game/><!-- the end -->" = .ok d ∧ Scanner.Ended s ∧
      (∃ ts, (Scanner.ofSource "<game/><!-- the end -->").Scans ts s) ∧ Ignorable s.cursor := by
  have hread : (readDocument .english "<game/><!-- the end -->").isOk = true := by
    decide +kernel
  have htokens : (tokens "<game/><!-- the end -->").isOk = true := by
    decide +kernel
  obtain ⟨d, hd⟩ := exists_ok_of_isOk hread
  obtain ⟨attributes, first, inner, last, s, hscans, -, hended, hiff⟩ :=
    tokens_ok_iff_ignorable hd
  exact ⟨d, s, hd, hended, ⟨_, hscans⟩, hiff.mp (exists_ok_of_isOk htokens)⟩

set_option maxRecDepth 100000 in
/-- A game is read although the text that follows it keeps the source from being cut into
tokens. -/
theorem read_before_text :
    ∃ d, readDocument .english "<game></game>x" = .ok d ∧
      ¬ ∃ ts, tokens "<game></game>x" = .ok ts := by
  have hread : (readDocument .english "<game></game>x").isOk = true := by
    decide +kernel
  have htokens : (tokens "<game></game>x").isOk = false := by
    decide +kernel
  obtain ⟨d, hd⟩ := exists_ok_of_isOk hread
  refine ⟨d, hd, ?_⟩
  rintro ⟨ts, hts⟩
  rw [hts] at htokens
  exact absurd htokens nofun

end Adventure.Markup
