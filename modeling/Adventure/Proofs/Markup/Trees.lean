/-
The tokens of a document are those of a tree.

A document that can be cut into tokens is nothing at all or one element with all that is
inside of it.  Following the scanner, keep for every element that is open its tag and the
children that have ended: the tokens handed out so far are always those that this much of
the tree would have.  Every token adds to it in one place, since it fits the elements
that are open: an opening tag opens a frame, text is one more child of the innermost one,
and a closing tag makes that frame a child of the next.  When the last frame is closed the
document's element is whole, and a scanner that has come to its end hands out nothing but
the end of the document.
-/
import Adventure.Proofs.Markup.Nesting

namespace Adventure.Markup

open Text (Cursor)

/-! ### Trees -/

/-- What stands in a document: text, or an element with its attributes and its children in
the order written. -/
inductive Node where
  | text (content : String)
  | element (name : String) (attributes : List (String × String)) (children : List Node)
  deriving Repr

/-- The same token on another line. -/
def Token.onLine (line : Nat) : Token → Token
  | opening name attributes depth _ => opening name attributes depth line
  | closing name depth _ => closing name depth line
  | text content depth _ => text content depth line
  | finish _ => finish line

mutual

/-- The tokens of a node with so many elements around it, all on one line. -/
def Node.tokens (depth : Nat) : Node → List Token
  | .text content => [.text content depth 0]
  | .element name attributes children =>
    .opening name attributes depth 0 :: Node.tokensAll (depth + 1) children ++
      [.closing name depth 0]

/-- The tokens of nodes that follow each other. -/
def Node.tokensAll (depth : Nat) : List Node → List Token
  | [] => []
  | node :: nodes => node.tokens depth ++ Node.tokensAll depth nodes

end

namespace Node

variable {depth : Nat} {token : Token}

theorem tokensAll_append (nodes more : List Node) :
    tokensAll depth (nodes ++ more) = tokensAll depth nodes ++ tokensAll depth more := by
  induction nodes with
  | nil => simp [tokensAll]
  | cons node nodes ih => simp [tokensAll, ih]

theorem tokensAll_singleton (node : Node) : tokensAll depth [node] = node.tokens depth := by
  simp [tokensAll]

mutual

/-- No token of a node is less deep than the node. -/
theorem le_depth_of_mem_tokens :
    ∀ {node : Node} {depth : Nat}, token ∈ node.tokens depth → depth ≤ token.depth
  | .text content, depth, h => by
    rw [tokens, List.mem_singleton] at h
    exact h ▸ Nat.le_refl depth
  | .element name attributes children, depth, h => by
    rw [tokens, List.mem_append, List.mem_cons, List.mem_singleton] at h
    obtain (rfl | h) | rfl := h
    · exact Nat.le_refl depth
    · exact Nat.le_of_succ_le (le_depth_of_mem_tokensAll h)
    · exact Nat.le_refl depth

theorem le_depth_of_mem_tokensAll :
    ∀ {nodes : List Node} {depth : Nat}, token ∈ tokensAll depth nodes → depth ≤ token.depth
  | [], _, h => by simp [tokensAll] at h
  | node :: nodes, depth, h => by
    rw [tokensAll, List.mem_append] at h
    obtain h | h := h
    · exact le_depth_of_mem_tokens h
    · exact le_depth_of_mem_tokensAll h

end

/-- Text in an element is at least one deep. -/
theorem one_le_depth_of_text {name : String} {attributes : List (String × String)}
    {children : List Node} {content : String} {line : Nat}
    (h : Token.text content depth line ∈ (Node.element name attributes children).tokens 0) :
    1 ≤ depth := by
  rw [tokens, List.mem_append, List.mem_cons, List.mem_singleton] at h
  obtain (h | h) | h := h
  · exact absurd h nofun
  · exact le_depth_of_mem_tokensAll h
  · exact absurd h nofun

end Node

/-! ### Elements under construction -/

/-- An element that is open, with the children that have ended. -/
structure Frame where
  name : String
  attributes : List (String × String)
  children : List Node

namespace Frame

/-- The node that an element is once it ends. -/
def node (f : Frame) : Node :=
  .element f.name f.attributes f.children

/-- The element with one more child. -/
def add (f : Frame) (child : Node) : Frame :=
  { f with children := f.children ++ [child] }

/-- The tokens of elements that are open, innermost first, up to where they are. -/
def tokens : List Frame → List Token
  | [] => []
  | f :: outer =>
    tokens outer ++
      .opening f.name f.attributes outer.length 0 :: Node.tokensAll (outer.length + 1) f.children

theorem tokens_open (name : String) (attributes : List (String × String)) (outer : List Frame) :
    tokens (⟨name, attributes, []⟩ :: outer) =
      tokens outer ++ [.opening name attributes outer.length 0] :=
  rfl

theorem tokens_add (f : Frame) (outer : List Frame) (child : Node) :
    tokens (f.add child :: outer) = tokens (f :: outer) ++ child.tokens (outer.length + 1) := by
  simp [tokens, add, Node.tokensAll_append, Node.tokensAll_singleton]

theorem tokens_close (f : Frame) (outer : List Frame) :
    tokens (f :: outer) ++ [.closing f.name outer.length 0] =
      tokens outer ++ f.node.tokens outer.length := by
  simp [tokens, node, Node.tokens]

end Frame

/-- What tokens have built with the elements of these names open: nothing yet, a part of
an element, or an element. -/
inductive Built (ts : List Token) : List String → Prop
  | nothing (h : ts = []) : Built ts []
  | part (f : Frame) (outer : List Frame)
    (h : ts.map (Token.onLine 0) = Frame.tokens (f :: outer)) :
    Built ts (f.name :: outer.map Frame.name)
  | whole (f : Frame) (h : ts.map (Token.onLine 0) = f.node.tokens 0) : Built ts []

theorem Built.eq_nil {names : List String} (h : Built [] names) : names = [] := by
  cases h with
  | nothing | whole => rfl
  | part f outer h => simp [Frame.tokens] at h

/-- Only an opening tag can come first. -/
theorem Token.Turns.isOpening {token : Token} {names : List String} (h : token.Turns [] names)
    (hmore : token.isFinish = false) : token.isOpening = true := by
  cases h with
  | opening => rfl
  | text _ _ _ hne => exact absurd rfl hne
  | finish => exact absurd hmore nofun

/-- **Every token adds to what is built in one place.** -/
theorem Built.concat {ts : List Token} {names names' : List String} {token : Token}
    (h : Built ts names) (hopen : ts = [] ∨ names ≠ []) (hturns : token.Turns names names')
    (hmore : token.isFinish = false) : Built (ts ++ [token]) names' := by
  cases h with
  | nothing hts =>
    subst hts
    cases hturns with
    | opening name attributes _ line => exact .part ⟨name, attributes, []⟩ [] rfl
    | text _ _ _ hne => exact absurd rfl hne
    | finish => exact absurd hmore nofun
  | whole f hts =>
    obtain rfl := hopen.resolve_right (· rfl)
    simp [Frame.node, Node.tokens] at hts
  | part f outer hts =>
    cases hturns with
    | opening name attributes _ line =>
      refine .part ⟨name, attributes, []⟩ (f :: outer) ?_
      rw [Frame.tokens_open, List.map_append, hts]
      simp [Token.onLine]
    | text content _ line _ =>
      refine .part (f.add (.text content)) outer ?_
      rw [Frame.tokens_add, List.map_append, hts]
      simp [Token.onLine, Node.tokens]
    | closing _ _ line =>
      have htokens : (ts ++ [Token.closing f.name (outer.map Frame.name).length line]).map
          (Token.onLine 0) = Frame.tokens outer ++ f.node.tokens outer.length := by
        rw [← Frame.tokens_close, List.map_append, hts]
        simp [Token.onLine]
      cases outer with
      | nil => exact .whole f htokens
      | cons g outer =>
        refine .part (g.add f.node) outer ?_
        rw [htokens, Frame.tokens_add]
        rfl

/-! ### Lines -/

theorem line_le_skip (c : Cursor) (count : Nat) : c.line ≤ (c.skip count).line :=
  Nat.le_add_right ..

theorem line_le_past {c d : Cursor} {ending : String} (h : c.past? ending = some d) :
    c.line ≤ d.line := by
  obtain ⟨n, -, rfl⟩ := Option.map_eq_some_iff.mp h
  exact line_le_skip ..

/-- Whether reading goes on to no earlier line. -/
def Downward {α : Type} (m : EStateM Error Cursor α) : Prop :=
  ∀ c a d, m c = .ok a d → c.line ≤ d.line

theorem Downward.bind {α β : Type} {m : EStateM Error Cursor α}
    {f : α → EStateM Error Cursor β} (hm : Downward m) (hf : ∀ a, Downward (f a)) :
    Downward (m >>= f) := by
  intro c b e h
  obtain ⟨a, d, hd, he⟩ := run_bind_ok_iff.mp h
  exact Nat.le_trans (hm c a d hd) (hf a d b e he)

theorem downward_pure {α : Type} (a : α) : Downward (pure a) := by
  intro c b d h
  rw [run_pure, EStateM.Result.ok.injEq] at h
  exact h.2 ▸ Nat.le_refl _

theorem downward_modify_skip (count : Nat) :
    Downward (modify fun c : Cursor => c.skip count) := by
  intro c _ d h
  obtain rfl : c.skip count = d := (EStateM.Result.ok.inj h).2
  exact line_le_skip ..

theorem downward_scanName : Downward scanName := by
  intro c name d h
  unfold scanName at h
  dsimp only at h
  split at h
  · exact absurd h nofun
  · exact (EStateM.Result.ok.inj h).2 ▸ line_le_skip ..

theorem downward_skipBlanks : Downward skipBlanks := by
  intro c _ d h
  exact (EStateM.Result.ok.inj h).2 ▸ line_le_skip ..

theorem downward_expect (expected : Char) (f : LexFault) : Downward (expect expected f) := by
  intro c _ d h
  unfold expect at h
  split at h
  · exact (EStateM.Result.ok.inj h).2 ▸ line_le_skip ..
  · exact absurd h nofun

theorem downward_scanQuoted : Downward scanQuoted := by
  intro c value d h
  unfold scanQuoted at h
  dsimp only at h
  split at h
  · cases h
  · split at h
    · cases h
    · split at h
      · cases h
      · exact (EStateM.Result.ok.inj h).2 ▸
          Nat.le_trans (line_le_skip c 1) (line_le_skip ..)

theorem downward_scanAttribute (tag : String) : Downward (scanAttribute tag) :=
  .bind downward_scanName fun _ => .bind downward_skipBlanks fun _ =>
    .bind (downward_expect _ _) fun _ => .bind downward_skipBlanks fun _ =>
      .bind downward_scanQuoted fun _ => downward_pure _

theorem downward_scanAttributes (tag : String) (before : List (String × String)) :
    Downward (scanAttributes tag before) := by
  intro c a d h
  fun_induction scanAttributes tag before c with
  | case1 before c here | case2 before c here =>
    exact (EStateM.Result.ok.inj h).2 ▸
      Nat.le_trans (line_le_skip c _) (line_le_skip here _)
  | case3 | case4 => cases h
  | case5 before c here _ _ key value e he _ ih =>
    have hhere : c.line ≤ here.line := line_le_skip ..
    exact Nat.le_trans hhere (Nat.le_trans (downward_scanAttribute tag here _ e he) (ih h))

theorem downward_scanOpening : Downward scanOpening :=
  .bind (downward_modify_skip 1) fun _ => .bind downward_scanName fun _ =>
    .bind (downward_scanAttributes _ _) fun _ => downward_pure _

theorem downward_scanClosing : Downward scanClosing :=
  .bind (downward_modify_skip 2) fun _ => .bind downward_scanName fun _ =>
    .bind downward_skipBlanks fun _ => .bind (downward_expect _ _) fun _ => downward_pure _

/-! ### Attributes -/

theorem nodup_concat {before : List (String × String)} {key value : String}
    (h : (before.map Prod.fst).Nodup) (hnew : ¬before.any (·.1 == key) = true) :
    ((before ++ [(key, value)]).map Prod.fst).Nodup := by
  rw [List.map_append, List.map_singleton, List.nodup_append]
  refine ⟨h, List.pairwise_singleton .., ?_⟩
  rintro other hother _ hkey rfl
  obtain ⟨earlier, hmem, rfl⟩ := List.mem_map.mp hother
  refine hnew (List.any_eq_true.mpr ⟨earlier, hmem, ?_⟩)
  simpa using hkey

theorem nodup_of_scanAttributes {tag : String} {before attributes : List (String × String)}
    {closed : Bool} {c d : Cursor}
    (h : scanAttributes tag before c = .ok (attributes, closed) d)
    (hbefore : (before.map Prod.fst).Nodup) : (attributes.map Prod.fst).Nodup := by
  fun_induction scanAttributes tag before c with
  | case1 | case2 =>
    obtain rfl := congrArg Prod.fst (EStateM.Result.ok.inj h).1
    exact hbefore
  | case3 | case4 => cases h
  | case5 before c here _ _ key value e he hnew ih => exact ih h (nodup_concat hbefore hnew)

/-- No two attributes in a tag have one name. -/
theorem nodup_of_scanOpening {c d : Cursor} {name : String}
    {attributes : List (String × String)} {closed : Bool}
    (h : scanOpening c = .ok (name, attributes, closed) d) :
    (attributes.map Prod.fst).Nodup := by
  unfold scanOpening at h
  obtain ⟨_, _, -, h⟩ := run_bind_ok_iff.mp h
  obtain ⟨found, _, -, h⟩ := run_bind_ok_iff.mp h
  obtain ⟨⟨_, _⟩, _, hscan, h⟩ := run_bind_ok_iff.mp h
  obtain ⟨heq, -⟩ := EStateM.Result.ok.inj h
  obtain ⟨-, rfl, -⟩ := heq
  exact nodup_of_scanAttributes hscan .nil

namespace Scanner

variable {s t : Scanner} {token : Token} {ts : List Token} {names : List String}

/-! ### One token -/

/-- What is handed out next is on no line before this one. -/
structure Reached (s : Scanner) (line : Nat) : Prop where
  cursor : line ≤ s.cursor.line
  owed : ∀ token ∈ s.owed, line ≤ token.line ∧ token.line ≤ s.cursor.line

/-- What holds of every token that a scanner takes from the text. -/
structure Sound (line : Nat) (token : Token) (t : Scanner) : Prop where
  later : line ≤ token.line
  reached : t.Reached token.line
  distinct : ∀ name attributes depth line, token = .opening name attributes depth line →
    (attributes.map Prod.fst).Nodup

theorem sound_openElement (howed : s.owed = none) (h : s.openElement = .ok token t) :
    Sound s.cursor.line token t := by
  unfold openElement at h
  dsimp only at h
  split at h
  · exact absurd h nofun
  · split at h
    · exact absurd h nofun
    · rename_i name attributes closed cursor hscan
      have hline := downward_scanOpening _ _ _ hscan
      simp only [EStateM.Result.ok.injEq] at h
      obtain ⟨rfl, rfl⟩ := h
      refine ⟨Nat.le_refl _, ?_, ?_⟩
      · cases closed with
        | true => exact ⟨hline, by simpa [Token.line] using hline⟩
        | false => exact ⟨hline, by simp [howed]⟩
      · intro _ _ _ _ heq
        cases heq
        exact nodup_of_scanOpening hscan

theorem sound_closeElement (howed : s.owed = none) (h : s.closeElement = .ok token t) :
    Sound s.cursor.line token t := by
  unfold closeElement at h
  dsimp only at h
  split at h
  · exact absurd h nofun
  · rename_i name cursor hscan
    have hline := downward_scanClosing _ _ _ hscan
    split at h
    · exact absurd h nofun
    · split at h
      · simp only [EStateM.Result.ok.injEq] at h
        obtain ⟨rfl, rfl⟩ := h
        exact ⟨Nat.le_refl _, ⟨hline, by simp [howed]⟩, nofun⟩
      · exact absurd h nofun

theorem sound_giveText {content : List Char} {line : Nat}
    (h : s.giveText content line = .ok token t) (howed : s.owed = none)
    (hline : line ≤ s.cursor.line) : Sound line token t := by
  unfold giveText at h
  split at h
  · exact absurd h nofun
  · simp only [EStateM.Result.ok.injEq] at h
    obtain ⟨rfl, rfl⟩ := h
    exact ⟨Nat.le_refl _, ⟨hline, by simp [howed]⟩, nofun⟩

theorem Sound.mono {line line' : Nat} (h : Sound line' token t) (hle : line ≤ line') :
    Sound line token t :=
  ⟨Nat.le_trans hle h.later, h.reached, h.distinct⟩

theorem sound_scanText (howed : s.owed = none) (h : s.scanText = .ok token t) :
    Sound s.cursor.line token t := by
  fun_induction scanText s with
  | case1 | case3 | case5 | case7 | case13 => cases h
  | case2 s =>
    simp only [EStateM.Result.ok.injEq] at h
    obtain ⟨rfl, rfl⟩ := h
    exact ⟨Nat.le_refl _, ⟨Nat.le_refl _, by simp [howed]⟩, by rintro _ _ _ _ ⟨⟩⟩
  | case4 s _ _ cursor hpast ih | case6 s _ _ cursor hpast ih | case8 s _ _ cursor hpast ih =>
    exact (ih howed h).mono (line_le_past hpast)
  | case9 s =>
    unfold readCharacterData at h
    dsimp only at h
    split at h
    · cases h
    · refine sound_giveText h howed ?_
      exact Nat.le_trans (line_le_skip s.cursor _) (line_le_skip ..)
  | case10 s => exact sound_closeElement howed h
  | case11 s => exact sound_openElement howed h
  | case12 s _ _ _ _ _ ih => exact (ih howed h).mono (line_le_skip ..)
  | case14 s => exact sound_giveText h howed (line_le_skip ..)

/-- **Tokens are handed out in the order of their lines**, and every opening tag among them
has distinct attributes. -/
theorem sound_scan {line : Nat} (hs : s.Reached line) (haround : s.Around names)
    (h : s.scan = .ok token t) : Sound line token t := by
  unfold scan at h
  cases haround with
  | even howed =>
    rw [howed] at h
    exact (sound_scanText howed h).mono hs.cursor
  | owing howed =>
    rw [howed] at h
    simp only [EStateM.Result.ok.injEq] at h
    obtain ⟨rfl, rfl⟩ := h
    obtain ⟨hlater, hcursor⟩ := hs.owed _ howed
    exact ⟨hlater, ⟨hcursor, nofun⟩, nofun⟩

/-! ### All tokens -/

/-- What holds of the tokens that a scanner has handed out. -/
structure Grown (ts : List Token) (s : Scanner) (names : List String) : Prop where
  around : s.Around names
  /-- The end of the document's element is noticed from the first tag on. -/
  marked : ts = [] ∨ s.Marked
  built : Built ts names
  distinct : ∀ name attributes depth line, Token.opening name attributes depth line ∈ ts →
    (attributes.map Prod.fst).Nodup
  ordered : (ts.map Token.line).Pairwise (· ≤ ·)
  reached : ∃ line, s.Reached line ∧ ∀ token ∈ ts, token.line ≤ line

/-- After the document's element a scanner hands out the end of the document. -/
theorem Grown.isFinish (h : Grown ts s []) (hne : ts ≠ []) (hscan : s.scan = .ok token t) :
    token.isFinish = true := by
  obtain ⟨hopened, howed⟩ := h.around.eq_nil
  have hmarked := h.marked.resolve_left hne
  have hended : s.Ended := ⟨hopened, howed, by rw [hmarked, hopened]; rfl⟩
  rw [scan, howed] at hscan
  exact (hended.ignorable_of_scanText hscan).1

/-- What the next token does to the tokens so far, whichever it is. -/
theorem Grown.ordered_concat (h : Grown ts s names) (hscan : s.scan = .ok token t) :
    ((ts ++ [token]).map Token.line).Pairwise (· ≤ ·) ∧
      t.Reached token.line ∧ (∀ other ∈ ts ++ [token], other.line ≤ token.line) ∧
        ∀ name attributes depth line,
          Token.opening name attributes depth line ∈ ts ++ [token] →
            (attributes.map Prod.fst).Nodup := by
  obtain ⟨line, hreached, hle⟩ := h.reached
  have hsound := sound_scan hreached h.around hscan
  have hbefore : ∀ other ∈ ts, other.line ≤ token.line := fun other hother =>
    Nat.le_trans (hle other hother) hsound.later
  refine ⟨?_, hsound.reached, ?_, ?_⟩
  · rw [List.map_append, List.map_singleton, List.pairwise_append]
    refine ⟨h.ordered, List.pairwise_singleton .., ?_⟩
    simpa using hbefore
  · intro other hother
    obtain hother | hother := List.mem_append.mp hother
    · exact hbefore other hother
    · exact List.mem_singleton.mp hother ▸ Nat.le_refl _
  · intro name attributes depth line hmem
    obtain hmem | hmem := List.mem_append.mp hmem
    · exact h.distinct name attributes depth line hmem
    · exact hsound.distinct name attributes depth line (List.mem_singleton.mp hmem).symm

theorem Grown.concat (h : Grown ts s names) (hscan : s.scan = .ok token t)
    (hmore : token.isFinish = false) : ∃ after, Grown (ts ++ [token]) t after := by
  obtain ⟨after, hhanded⟩ := handed_scan h.around hscan
  have hopen : ts = [] ∨ names ≠ [] := by
    by_contra hnone
    rw [not_or, not_not] at hnone
    obtain ⟨hne, rfl⟩ := hnone
    rw [h.isFinish hne hscan] at hmore
    cases hmore
  have hmarked : s.Marked ∨ token.isOpening = true := by
    obtain rfl | hmarked := h.marked
    · right
      obtain rfl := h.built.eq_nil
      exact hhanded.turns.isOpening hmore
    · exact Or.inl hmarked
  obtain ⟨hordered, hreached, hle, hdistinct⟩ := h.ordered_concat hscan
  exact ⟨after, hhanded.around, .inr (hhanded.marked hmarked),
    h.built.concat hopen hhanded.turns hmore, hdistinct, hordered, _, hreached, hle⟩

theorem grown_ofSource (source : String) : Grown [] (Scanner.ofSource source) [] :=
  ⟨around_ofSource source, .inl rfl, .nothing rfl, nofun, .nil, 0, ⟨Nat.zero_le _, nofun⟩, nofun⟩

theorem Scans.grown {source : String} (h : (Scanner.ofSource source).Scans ts t) :
    ∃ names, Grown ts t names := by
  induction h with
  | start => exact ⟨[], grown_ofSource source⟩
  | concat _ hscan hmore ih =>
    obtain ⟨names, hgrown⟩ := ih
    exact hgrown.concat hscan hmore

theorem Scans.not_finish (h : s.Scans ts t) : ∀ token ∈ ts, token.isFinish = false := by
  induction h with
  | start => exact nofun
  | concat _ _ hmore ih =>
    intro token htoken
    obtain htoken | htoken := List.mem_append.mp htoken
    · exact ih token htoken
    · exact List.mem_singleton.mp htoken ▸ hmore

/-- All tokens are those handed out before the end of the document, and that. -/
theorem Scans.of_tokens {u : Scanner} {before : List Token} (hbefore : u.Scans before s)
    (h : s.tokens = .ok ts) : ∃ inner line t v, u.Scans inner t ∧
      t.scan = .ok (.finish line) v ∧ before ++ ts = inner ++ [.finish line] := by
  fun_induction Scanner.tokens s generalizing before ts with
  | case1 => exact absurd h nofun
  | case2 s token t hscan hfinish =>
    obtain rfl := Except.ok.inj h
    cases token with
    | finish line => exact ⟨before, line, s, t, hbefore, hscan, rfl⟩
    | opening | closing | text => exact absurd hfinish nofun
  | case3 s token t hscan hmore ih =>
    obtain ⟨rest, hrest, rfl⟩ : ∃ rest, t.tokens = .ok rest ∧ token :: rest = ts := by
      cases hrest : t.tokens with
      | error e => rw [hrest] at h; cases h
      | ok rest => rw [hrest] at h; exact ⟨rest, rfl, Except.ok.inj h⟩
    obtain ⟨inner, line, u, v, hscans, hend, heq⟩ :=
      ih (hbefore.concat hscan (by simpa using hmore)) hrest
    exact ⟨inner, line, u, v, hscans, hend, by rw [← heq]; simp⟩

end Scanner

variable {source : String} {ts : List Token}

/-- **The tokens of a document are those of one tree.**  Unless there are none but the end
of the document, they are those of an element and then the end: each opening tag has its
closing tag, nested as the elements are, and each token is as deep as there are elements
around it.  The attributes in a tag are distinct, and no token stands before the line of
the one that it follows. -/
theorem tokens_of_tree (h : tokens source = .ok ts) :
    ∃ inner last, ts = inner ++ [.finish last] ∧ (∀ token ∈ inner, token.isFinish = false) ∧
      (inner = [] ∨ ∃ name attributes children,
        inner.map (Token.onLine 0) = (Node.element name attributes children).tokens 0) ∧
      (∀ content depth line, .text content depth line ∈ ts → 1 ≤ depth) ∧
      (∀ name attributes depth line, .opening name attributes depth line ∈ ts →
        (attributes.map Prod.fst).Nodup) ∧
      (ts.map Token.line).Pairwise (· ≤ ·) := by
  obtain ⟨inner, last, s, t, hscans, hend, rfl⟩ := Scanner.Scans.of_tokens .start h
  obtain ⟨names, hgrown⟩ := hscans.grown
  obtain ⟨hordered, -, -, hdistinct⟩ := hgrown.ordered_concat hend
  obtain ⟨after, hhanded⟩ := Scanner.handed_scan hgrown.around hend
  have hbuilt : inner = [] ∨ ∃ f : Frame, inner.map (Token.onLine 0) = f.node.tokens 0 := by
    have hturns := hhanded.turns
    have hbuilt := hgrown.built
    cases hturns
    cases hbuilt with
    | nothing hnil => exact .inl hnil
    | whole f hwhole => exact .inr ⟨f, hwhole⟩
  refine ⟨inner, last, rfl, hscans.not_finish, ?_, ?_, hdistinct, hordered⟩
  · exact hbuilt.imp_right fun ⟨f, hf⟩ => ⟨f.name, f.attributes, f.children, hf⟩
  · intro content depth line hmem
    have htext : Token.text content depth line ∈ inner := by simpa using hmem
    obtain rfl | ⟨f, hf⟩ := hbuilt
    · exact absurd htext List.not_mem_nil
    · exact Node.one_le_depth_of_text (hf ▸ List.mem_map_of_mem (f := Token.onLine 0) htext)

/-- A document with a tag that closes itself, text and an attribute in it. -/
theorem tokens_of_letter :
    tokens "<a x='1'><b/>hi</a>" = .ok [.opening "a" [("x", "1")] 0 1, .opening "b" [] 1 1,
      .closing "b" 1 1, .text "hi" 1 1, .closing "a" 0 1, .finish 1] ∧
    ∃ inner last, [.opening "a" [("x", "1")] 0 1, .opening "b" [] 1 1, .closing "b" 1 1,
      .text "hi" 1 1, .closing "a" 0 1, .finish 1] = inner ++ [Token.finish last] := by
  have h : tokens "<a x='1'><b/>hi</a>" = .ok [.opening "a" [("x", "1")] 0 1,
      .opening "b" [] 1 1, .closing "b" 1 1, .text "hi" 1 1, .closing "a" 0 1, .finish 1] := by
    decide +kernel
  obtain ⟨inner, last, heq, -⟩ := tokens_of_tree h
  exact ⟨h, inner, last, heq⟩

end Adventure.Markup
