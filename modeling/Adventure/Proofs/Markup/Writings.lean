/-
Reading back what was written.

A tree may be written in many ways: white space in tags and between them, either sort of
quotes, every character as itself or by reference, text as a section of character data,
and one tag or two for an element without children.  `Written` says which texts these are,
and says nothing of how they are read.  Scanning any of them gives the tokens of the tree.

The induction is on how the nodes were written.  What follows them is kept as a tail that
begins with a bracket, and what the scanner hands out at the tail is given: so the step for
one node needs to know nothing of what comes after it, and the closing tag of an element is
simply the tail of its children.
-/
import Adventure.Proofs.Markup.Spellings
import Adventure.Proofs.Markup.Trees

namespace Adventure.Markup

open Text (Cursor)

/-! ### Documents as they may be written -/

/-- White space, or nothing. -/
def Gap (cs : List Char) : Prop :=
  ∀ c ∈ cs, Text.isBlank c = true

/-- A name that a tag or an attribute can have. -/
def ValidName (name : String) : Prop :=
  name ≠ "" ∧ ∀ c ∈ name.toList, Text.isAlphanumeric c = true ∨ c ∈ ['_', '-', '.', ':']

/-- A tree that can be written: its names are valid, no two attributes of an element share
theirs, and its texts are not blank. -/
inductive Node.Valid : Node → Prop
  | text {content : String} (h : Text.isBlankText content = false) : Valid (.text content)
  | element {name : String} {attributes : List (String × String)} {children : List Node}
    (hname : ValidName name) (hkeys : ∀ key ∈ attributes.map Prod.fst, ValidName key)
    (hdistinct : (attributes.map Prod.fst).Nodup) (h : ∀ child ∈ children, child.Valid) :
    Valid (.element name attributes children)

theorem Node.Valid.children {name : String} {attributes : List (String × String)}
    {children : List Node} (h : (Node.element name attributes children).Valid) :
    ∀ child ∈ children, child.Valid := by
  cases h with
  | element _ _ _ h => exact h

/-- The attributes of a tag as they may be written. -/
inductive WrittenAttributes : List (String × String) → List Char → Prop
  | nil : WrittenAttributes [] []
  | cons {key value : String} {attributes : List (String × String)} {quote : Char}
    {gap before after raw rest : List Char} (hgap : Gap gap) (hbefore : Gap before)
    (hafter : Gap after) (hquote : quote = '"' ∨ quote = '\'')
    (hvalue : Spelled (fun c => c ≠ quote ∧ c ≠ '&') value.toList raw)
    (h : WrittenAttributes attributes rest) :
    WrittenAttributes ((key, value) :: attributes)
      (gap ++ (key.toList ++ (before ++ '=' :: (after ++ quote :: (raw ++ quote :: rest)))))

/-- What stands in an opening tag.  The first attribute stands apart from the name. -/
inductive WrittenTag (name : String) (attributes : List (String × String)) : List Char → Prop
  | intro {inside gap : List Char} (h : WrittenAttributes attributes inside) (hgap : Gap gap)
    (hapart : attributes = [] ∨ ∃ c ∈ inside.head?, Text.isBlank c = true) :
    WrittenTag name attributes (name.toList ++ (inside ++ gap))

/-- Nodes as they may be written one after another.  There may be white space around tags
and sections of character data; characters go on until the next bracket. -/
inductive Written : List Node → List Char → Prop
  | nil {gap : List Char} (hgap : Gap gap) : Written [] gap
  | characters {content : String} {nodes : List Node} {raw rest : List Char}
    (hcontent : Spelled (fun c => c ≠ '<' ∧ c ≠ '&') content.toList raw)
    (hend : rest = [] ∨ rest.head? = some '<') (h : Written nodes rest) :
    Written (.text content :: nodes) (raw ++ rest)
  | characterData {content : String} {nodes : List Node} {gap rest : List Char} (hgap : Gap gap)
    (hcontent : ¬"]]>".toList <:+: content.toList) (h : Written nodes rest) :
    Written (.text content :: nodes)
      (gap ++ ("<![CDATA[".toList ++ (content.toList ++ ("]]>".toList ++ rest))))
  | closed {name : String} {attributes : List (String × String)} {nodes : List Node}
    {gap tag rest : List Char} (hgap : Gap gap) (htag : WrittenTag name attributes tag)
    (h : Written nodes rest) :
    Written (.element name attributes [] :: nodes) (gap ++ '<' :: (tag ++ ("/>".toList ++ rest)))
  | element {name : String} {attributes : List (String × String)} {children nodes : List Node}
    {gap tag inside after rest : List Char} (hgap : Gap gap)
    (htag : WrittenTag name attributes tag) (hchildren : Written children inside)
    (hafter : Gap after) (h : Written nodes rest) :
    Written (.element name attributes children :: nodes)
      (gap ++ '<' :: (tag ++ (">".toList ++
        (inside ++ ("</".toList ++ (name.toList ++ (after ++ '>' :: rest)))))))

/-! ### Inside a tag -/

theorem isNameChar_of_valid {name : String} (h : ValidName name) :
    ∀ c ∈ name.toList, isNameChar c = true := by
  intro c hc
  have := h.2 c hc
  simpa [isNameChar, or_assoc] using this

theorem toList_ne_nil_of_valid {name : String} (h : ValidName name) : name.toList ≠ [] := by
  simpa using h.1

/-- The first character of a name, with what is known of it. -/
theorem exists_head_of_valid {name : String} (h : ValidName name) :
    ∃ c cs, name.toList = c :: cs ∧ isNameChar c = true := by
  obtain ⟨c, cs, hcs⟩ := List.exists_cons_of_ne_nil (toList_ne_nil_of_valid h)
  exact ⟨c, cs, hcs, isNameChar_of_valid h c (hcs ▸ List.mem_cons_self)⟩

theorem isNameChar_of_isBlank {c : Char} (h : Text.isBlank c = true) : isNameChar c = false := by
  rw [← Bool.not_eq_true]
  intro hname
  rw [not_isBlank_of_isNameChar hname] at h
  cases h

section Reading

variable {c : Cursor} {cs gap rest : List Char} {name : String}

theorem rest_skip (h : c.rest = cs ++ rest) : (c.skip cs.length).rest = rest := by
  simp [Cursor.skip, h]

theorem run_eq {p : Char → Bool} (h : c.rest = cs ++ rest) (hcs : ∀ x ∈ cs, p x = true)
    (hrest : ∀ x ∈ rest.head?, p x = false) : c.run p = cs := by
  rw [Cursor.run, h, List.takeWhile_append_of_pos hcs]
  cases rest with
  | nil => simp
  | cons x rest => simp [hrest x rfl]

/-- Reads what was written and stands at the rest. -/
def Consumes {α : Type} (m : EStateM Error Cursor α) (a : α) (cs rest : List Char) : Prop :=
  ∀ c : Cursor, c.rest = cs ++ rest → ∃ d, m c = .ok a d ∧ d.rest = rest

theorem Consumes.bind {α β : Type} {m : EStateM Error Cursor α}
    {f : α → EStateM Error Cursor β} {a : α} {b : β} {ds : List Char}
    (hm : Consumes m a cs (ds ++ rest)) (hf : Consumes (f a) b ds rest) :
    Consumes (m >>= f) b (cs ++ ds) rest := by
  intro c hc
  obtain ⟨d, hd, hdrest⟩ := hm c (by rw [hc, List.append_assoc])
  obtain ⟨e, he, herest⟩ := hf d hdrest
  exact ⟨e, run_bind_ok_iff.mpr ⟨a, d, hd, he⟩, herest⟩

theorem consumes_pure {α : Type} (a : α) : Consumes (pure a) a [] rest :=
  fun c hc => ⟨c, rfl, hc⟩

theorem consumes_modify (cs : List Char) :
    Consumes (modify fun c : Cursor => c.skip cs.length) () cs rest :=
  fun c hc => ⟨c.skip cs.length, rfl, rest_skip hc⟩

theorem consumes_scanName (hname : ValidName name)
    (hend : ∀ x ∈ rest.head?, isNameChar x = false) :
    Consumes scanName name name.toList rest := by
  intro c hc
  have hrun := run_eq hc (isNameChar_of_valid hname) hend
  refine ⟨c.skip name.toList.length, ?_, rest_skip hc⟩
  unfold scanName
  simp [hrun, hname.1]

theorem consumes_skipBlanks (hgap : Gap gap) (hend : ∀ x ∈ rest.head?, Text.isBlank x = false) :
    Consumes skipBlanks () gap rest := by
  intro c hc
  have hrun := run_eq hc hgap hend
  refine ⟨c.skip gap.length, ?_, rest_skip hc⟩
  rw [skipBlanks, Cursor.skipWhile, hrun]

theorem consumes_expect (x : Char) (f : LexFault) : Consumes (expect x f) () [x] rest := by
  intro c hc
  refine ⟨c.skip 1, ?_, rest_skip hc⟩
  simp [expect, hc]

theorem consumes_scanQuoted {quote : Char} {value : String} {raw : List Char}
    (hquote : quote = '"' ∨ quote = '\'')
    (hvalue : Spelled (fun c => c ≠ quote ∧ c ≠ '&') value.toList raw) :
    Consumes scanQuoted value (quote :: (raw ++ [quote])) rest := by
  intro c hc
  have hinside : (c.skip 1).rest = raw ++ quote :: rest := by simp [Cursor.skip, hc]
  have hraw : ∀ x ∈ raw, decide (x ≠ quote) = true := by
    rintro x hx
    rw [decide_eq_true_eq]
    rintro rfl
    exact hvalue.not_mem (.inr hquote) (fun h => h.1 rfl) hx
  have hrun : (c.skip 1).run (· ≠ quote) = raw := run_eq hinside hraw (by simp)
  have hhead : c.rest.head?.filter (fun q => decide (q = '"' ∨ q = '\'')) = some quote := by
    simp [hc, hquote]
  refine ⟨(c.skip 1).skip (raw.length + 1), ?_, ?_⟩
  · unfold scanQuoted
    dsimp only
    rw [hhead]
    dsimp only
    rw [hrun, if_neg (by simp [hinside]), hvalue.decode (fun _ h => h.2)]
    simp
  · have hsplit : (c.skip 1).rest = (raw ++ [quote]) ++ rest := by simp [hinside]
    simpa using rest_skip hsplit

/-- No name goes on over white space. -/
theorem not_isNameChar_gap_append (hgap : Gap gap)
    (hrest : ∀ x ∈ rest.head?, isNameChar x = false) :
    ∀ x ∈ (gap ++ rest).head?, isNameChar x = false := by
  intro x hx
  cases gap with
  | nil => exact hrest x hx
  | cons y gap =>
    obtain rfl : y = x := Option.some.inj hx
    exact isNameChar_of_isBlank (hgap y List.mem_cons_self)

theorem consumes_scanAttribute {key value tag : String} {quote : Char}
    {before after raw : List Char} (hkey : ValidName key) (hbefore : Gap before)
    (hafter : Gap after) (hquote : quote = '"' ∨ quote = '\'')
    (hvalue : Spelled (fun c => c ≠ quote ∧ c ≠ '&') value.toList raw) :
    Consumes (scanAttribute tag) (key, value)
      (key.toList ++ (before ++ '=' :: (after ++ quote :: (raw ++ [quote])))) rest := by
  have hquoted : ∀ x ∈ (quote :: (raw ++ [quote]) ++ rest).head?, Text.isBlank x = false := by
    rintro x hx
    obtain rfl : quote = x := Option.some.inj hx
    obtain rfl | rfl := hquote <;> decide
  have hequals : ∀ x ∈ ('=' :: (after ++ quote :: (raw ++ [quote])) ++ rest).head?,
      Text.isBlank x = false := by
    rintro x hx
    exact Option.some.inj hx ▸ (by decide)
  have hname : ∀ x ∈ (before ++ '=' :: (after ++ quote :: (raw ++ [quote])) ++ rest).head?,
      isNameChar x = false := by
    rw [List.append_assoc]
    refine not_isNameChar_gap_append hbefore ?_
    rintro x hx
    exact Option.some.inj hx ▸ (by decide)
  have htail : Consumes (do
      let value ← scanQuoted
      pure (key, value)) (key, value) (quote :: (raw ++ [quote]) ++ []) rest :=
    .bind (consumes_scanQuoted hquote hvalue) (consumes_pure _)
  rw [List.append_nil] at htail
  show Consumes _ _ (key.toList ++ (before ++ (['='] ++ (after ++ quote :: (raw ++ [quote]))))) rest
  exact .bind (consumes_scanName hkey hname) (.bind (consumes_skipBlanks hbefore hequals)
    (.bind (consumes_expect '=' _) (.bind (consumes_skipBlanks hafter hquoted) htail)))

/-- How an opening tag ends. -/
def tagEnd (closed : Bool) : List Char :=
  if closed then "/>".toList else ">".toList

theorem skipWhile_gap (hgap : Gap gap) (hend : ∀ x ∈ rest.head?, Text.isBlank x = false)
    (h : c.rest = gap ++ rest) : (c.skipWhile Text.isBlank).rest = rest := by
  rw [Cursor.skipWhile, run_eq h hgap hend]
  exact rest_skip h

/-- What begins with a name ends no tag. -/
theorem not_startsWith_of_name {x : Char} {text : String} (hx : isNameChar x = true)
    (h : c.rest.head? = some x) (htext : ∃ y ys, text.toList = y :: ys ∧ isNameChar y = false) :
    c.startsWith text = false := by
  obtain ⟨y, ys, hys, hy⟩ := htext
  obtain ⟨rest, hrest⟩ : ∃ rest, c.rest = x :: rest := by
    cases hc : c.rest with
    | nil => rw [hc] at h; cases h
    | cons z rest =>
      rw [hc] at h
      obtain rfl : z = x := Option.some.inj h
      exact ⟨rest, rfl⟩
  have hne : y ≠ x := by
    rintro rfl
    rw [hx] at hy
    cases hy
  simp [Cursor.startsWith, hys, hrest, List.isPrefixOf, hne]

theorem consumes_scanAttributes {tag : String} {attributes : List (String × String)}
    {written : List Char} (h : WrittenAttributes attributes written) (hgap : Gap gap)
    (before : List (String × String)) (closed : Bool)
    (hkeys : ∀ key ∈ attributes.map Prod.fst, ValidName key)
    (hdistinct : ((before ++ attributes).map Prod.fst).Nodup) :
    Consumes (scanAttributes tag before) (before ++ attributes, closed)
      (written ++ (gap ++ tagEnd closed)) rest := by
  induction h generalizing before with
  | nil =>
    intro c hc
    have hhead : ∀ x ∈ (tagEnd closed ++ rest).head?, Text.isBlank x = false := by
      cases closed <;> simp [tagEnd] <;> decide
    have hhere := skipWhile_gap hgap hhead (by simpa using hc)
    rw [scanAttributes]
    cases closed with
    | true =>
      have hends : (c.skipWhile Text.isBlank).startsWith "/>" = true := by
        simp [Cursor.startsWith, hhere, tagEnd]
      refine ⟨(c.skipWhile Text.isBlank).skip 2, ?_, by simpa [tagEnd] using rest_skip hhere⟩
      simp [hends]
    | false =>
      have hgoes : (c.skipWhile Text.isBlank).startsWith "/>" = false := by
        simp [Cursor.startsWith, hhere, tagEnd, List.isPrefixOf]
      have hends : (c.skipWhile Text.isBlank).startsWith ">" = true := by
        simp [Cursor.startsWith, hhere, tagEnd]
      refine ⟨(c.skipWhile Text.isBlank).skip 1, ?_, by simpa [tagEnd] using rest_skip hhere⟩
      simp [hgoes, hends]
  | @cons key value attributes quote front behind after raw more hfront hbehind hafter hquote
      hvalue hmore ih =>
    intro c hc
    have hkey : ValidName key := hkeys key List.mem_cons_self
    obtain ⟨x, xs, hxs, hx⟩ := exists_head_of_valid hkey
    have hhere : (c.skipWhile Text.isBlank).rest =
        (key.toList ++ (behind ++ '=' :: (after ++ quote :: (raw ++ [quote])))) ++
          ((more ++ (gap ++ tagEnd closed)) ++ rest) := by
      refine skipWhile_gap hfront ?_ (by simpa using hc)
      rw [hxs]
      rintro y hy
      obtain rfl : x = y := Option.some.inj hy
      exact not_isBlank_of_isNameChar hx
    have hhead : (c.skipWhile Text.isBlank).rest.head? = some x := by rw [hhere, hxs]; rfl
    obtain ⟨d, hd, hdrest⟩ := consumes_scanAttribute hkey hbehind hafter hquote hvalue _ hhere
    have hnew : before.any (·.1 == key) = false := by
      rw [List.any_eq_false]
      intro other hother hsame
      rw [List.map_append, List.nodup_append] at hdistinct
      exact hdistinct.2.2 other.1 (List.mem_map_of_mem hother) key List.mem_cons_self
        (by simpa using hsame)
    have hrest := ih (before ++ [(key, value)])
      (fun k hk => hkeys k (List.mem_cons_of_mem _ hk)) (by simpa using hdistinct) d hdrest
    obtain ⟨e, he, herest⟩ := hrest
    refine ⟨e, ?_, herest⟩
    rw [scanAttributes]
    rw [not_startsWith_of_name hx hhead ⟨'/', ['>'], rfl, by decide⟩,
      not_startsWith_of_name hx hhead ⟨'>', [], rfl, by decide⟩]
    simp only [Bool.false_eq_true, if_false]
    split
    · rename_i hfault
      rw [hd] at hfault
      cases hfault
    · rename_i k v u hsome
      rw [hd] at hsome
      simp only [EStateM.Result.ok.injEq, Prod.mk.injEq] at hsome
      obtain ⟨⟨rfl, rfl⟩, rfl⟩ := hsome
      rw [hnew]
      simpa using he

theorem consumes_scanOpening {attributes : List (String × String)} {tag : List Char}
    (htag : WrittenTag name attributes tag) (hname : ValidName name)
    (hkeys : ∀ key ∈ attributes.map Prod.fst, ValidName key)
    (hdistinct : (attributes.map Prod.fst).Nodup) (closed : Bool) :
    Consumes scanOpening (name, attributes, closed) ('<' :: (tag ++ tagEnd closed)) rest := by
  obtain @⟨inside, gap, hinside, hgap, hapart⟩ := htag
  have hend : ∀ x ∈ ((inside ++ (gap ++ tagEnd closed)) ++ rest).head?, isNameChar x = false := by
    intro x hx
    cases inside with
    | nil =>
      rw [List.nil_append, List.append_assoc] at hx
      refine not_isNameChar_gap_append hgap ?_ x hx
      rintro x hx
      cases closed with
      | true => exact Option.some.inj hx ▸ (by decide)
      | false => exact Option.some.inj hx ▸ (by decide)
    | cons y inside =>
      obtain rfl : y = x := Option.some.inj hx
      obtain rfl | ⟨z, hz, hblank⟩ := hapart
      · cases hinside
      · exact isNameChar_of_isBlank (Option.some.inj hz ▸ hblank)
  have htail : Consumes (scanAttributes name [] >>= fun found => pure (name, found.1, found.2))
      (name, attributes, closed) ((inside ++ (gap ++ tagEnd closed)) ++ []) rest :=
    .bind (consumes_scanAttributes hinside hgap [] closed hkeys hdistinct) (consumes_pure _)
  rw [List.append_nil] at htail
  have hall : Consumes scanOpening (name, attributes, closed)
      (['<'] ++ (name.toList ++ (inside ++ (gap ++ tagEnd closed)))) rest :=
    .bind (consumes_modify ['<']) (.bind (consumes_scanName hname hend) htail)
  simpa using hall

theorem consumes_scanClosing {after : List Char} (hname : ValidName name) (hafter : Gap after) :
    Consumes scanClosing name ("</".toList ++ (name.toList ++ (after ++ ['>']))) rest := by
  have hend : ∀ x ∈ (['>'] ++ rest).head?, Text.isBlank x = false := by
    rintro x hx
    exact Option.some.inj hx ▸ (by decide)
  have hname' : ∀ x ∈ ((after ++ ['>']) ++ rest).head?, isNameChar x = false := by
    rw [List.append_assoc]
    refine not_isNameChar_gap_append hafter ?_
    rintro x hx
    exact Option.some.inj hx ▸ (by decide)
  have htail : Consumes (do
      expect '>' (.malformedClosing name)
      pure name) name (['>'] ++ []) rest :=
    .bind (consumes_expect '>' _) (consumes_pure _)
  rw [List.append_nil] at htail
  exact .bind (consumes_modify ['<', '/'])
    (.bind (consumes_scanName hname hname') (.bind (consumes_skipBlanks hafter hend) htail))

end Reading

/-! ### Between tags -/

theorem next_openingTag {c : Cursor} {x : Char} {rest : List Char} (hx : isNameChar x = true)
    (h : c.rest = '<' :: x :: rest) : Piece.next c = .openingTag := by
  have hne : ∀ y, isNameChar y = false → (y == x) = false := by
    intro y hy
    rw [beq_eq_false_iff_ne]
    rintro rfl
    rw [hx] at hy
    cases hy
  simp [Piece.next, Cursor.startsWith, h, List.isPrefixOf, hne '!' (by decide),
    hne '?' (by decide), hne '/' (by decide)]

theorem next_closingTag {c : Cursor} {rest : List Char} (h : c.rest = "</".toList ++ rest) :
    Piece.next c = .closingTag := by
  simp [Piece.next, Cursor.startsWith, h, List.isPrefixOf]

theorem next_characterData {c : Cursor} {rest : List Char}
    (h : c.rest = "<![CDATA[".toList ++ rest) : Piece.next c = .characterData := by
  simp [Piece.next, Cursor.startsWith, h, List.isPrefixOf]

theorem next_text {c : Cursor} (h : c.rest.head? ≠ some '<') : Piece.next c = .text := by
  cases hrest : c.rest with
  | nil => simp [Piece.next, Cursor.startsWith, hrest]
  | cons x rest =>
    have hx : ('<' == x) = false := by
      rw [beq_eq_false_iff_ne]
      rintro rfl
      exact h (by rw [hrest]; rfl)
    simp [Piece.next, Cursor.startsWith, hrest, List.isPrefixOf, hx]

/-- A section of character data ends where its text does, if it can end nowhere before. -/
theorem position?_section {content rest : List Char} (h : ¬"]]>".toList <:+: content) :
    Text.position? "]]>".toList (content ++ ("]]>".toList ++ rest)) = some content.length := by
  induction content with
  | nil => simp [Text.position?, List.isPrefixOf]
  | cons c cs ih =>
    have hnot : "]]>".toList.isPrefixOf (c :: (cs ++ ("]]>".toList ++ rest))) = false := by
      match cs with
      | [] => simp [List.isPrefixOf]
      | [d] => simp [List.isPrefixOf]
      | d :: e :: cs =>
        rw [← Bool.not_eq_true]
        intro hprefix
        rw [show "]]>".toList = [']', ']', '>'] from rfl] at hprefix
        simp only [List.cons_append, List.isPrefixOf, Bool.and_eq_true, beq_iff_eq] at hprefix
        obtain ⟨rfl, rfl, rfl, -⟩ := hprefix
        exact h (List.prefix_append "]]>".toList cs).isInfix
    rw [List.cons_append, Text.position?, if_neg (by rw [hnot]; exact Bool.false_ne_true),
      ih fun hinside => h (List.infix_cons hinside)]
    rfl

namespace Scanner

variable {s t : Scanner} {token : Token} {ts : List Token} {rest gap : List Char}
variable {names : List String} {name : String} {ended : Bool}

/-- The scanner is to read this, with the elements of these names open, before or after the
end of the document's element. -/
structure At (s : Scanner) (rest : List Char) (names : List String) (ended : Bool) : Prop where
  rest : s.cursor.rest = rest
  opened : s.opened = names
  owed : s.owed = none
  finished : s.finished = ended

/-- The tokens from here on, whatever their lines. -/
def Yields (s : Scanner) (ts : List Token) : Prop :=
  ∃ us, s.tokens = .ok us ∧ us.map (Token.onLine 0) = ts

theorem yields_cons (hscan : s.scan = .ok token t) (hmore : token.isFinish = false)
    (h : t.Yields ts) : s.Yields (token.onLine 0 :: ts) := by
  obtain ⟨us, hus, rfl⟩ := h
  refine ⟨token :: us, ?_, rfl⟩
  rw [tokens_of_scan hscan, hmore, hus]
  rfl

/-- What is handed out first decides what is handed out. -/
theorem yields_congr (hscan : s.scan = t.scan) (h : t.Yields ts) : s.Yields ts := by
  obtain ⟨us, hus, rfl⟩ := h
  obtain ⟨token, u, ht⟩ := exists_scan_of_tokens hus
  refine ⟨us, ?_, rfl⟩
  rw [← hus, tokens_of_scan ht, tokens_of_scan (hscan.trans ht)]

theorem At.scan_eq (hs : s.At rest names ended) : s.scan = s.scanText := by
  rw [scan, hs.owed]

/-- White space before a bracket or the end is passed over. -/
theorem yields_of_gap (hs : s.At (gap ++ rest) names ended) (hgap : Gap gap)
    (hrest : rest = [] ∨ rest.head? = some '<')
    (h : ∀ t : Scanner, t.At rest names ended → t.Yields ts) : s.Yields ts := by
  cases gap with
  | nil => exact h s hs
  | cons x gap =>
    have hrun : s.cursor.run (· ≠ '<') = x :: gap := by
      refine run_eq hs.rest ?_ ?_
      · intro y hy
        rw [decide_eq_true_eq]
        rintro rfl
        exact absurd (hgap _ hy) (by decide)
      · intro y hy
        obtain rfl | hrest := hrest
        · cases hy
        · rw [hrest] at hy
          obtain rfl := Option.some.inj hy
          decide
    have hpiece : Piece.next s.cursor = .text := by
      refine next_text ?_
      rw [hs.rest]
      intro hx
      obtain rfl : x = '<' := Option.some.inj hx
      exact absurd (hgap _ List.mem_cons_self) (by decide)
    have hblank : (s.cursor.run (· ≠ '<')).all Text.isBlank = true := by
      rw [hrun]
      exact List.all_eq_true.mpr hgap
    have hne : s.cursor.rest ≠ [] := by
      rw [hs.rest]
      exact List.cons_ne_nil _ _
    have hskipped : At { s with cursor := s.cursor.skip (x :: gap).length } rest names ended :=
      ⟨rest_skip hs.rest, hs.opened, hs.owed, hs.finished⟩
    refine yields_congr ?_ (h _ hskipped)
    rw [hs.scan_eq, hskipped.scan_eq, scanText_blank hne hpiece hblank, hrun]

/-! ### One tag or text -/

theorem At.ne_nil (hs : s.At rest names ended) (hrest : rest ≠ []) : s.cursor.rest ≠ [] := by
  rw [hs.rest]
  exact hrest

theorem scanText_opening (hrest : s.cursor.rest ≠ []) (h : Piece.next s.cursor = .openingTag) :
    s.scanText = s.openElement := by
  rw [scanText, dif_neg hrest, h]

theorem scanText_closing (hrest : s.cursor.rest ≠ []) (h : Piece.next s.cursor = .closingTag) :
    s.scanText = s.closeElement := by
  rw [scanText, dif_neg hrest, h]

theorem scanText_characterData (hrest : s.cursor.rest ≠ [])
    (h : Piece.next s.cursor = .characterData) : s.scanText = s.readCharacterData := by
  rw [scanText, dif_neg hrest, h]

/-- An opening tag, of either sort. -/
theorem At.openElement_written {attributes : List (String × String)} {tag : List Char}
    (closed : Bool) (hs : s.At ('<' :: (tag ++ (tagEnd closed ++ rest))) names false)
    (htag : WrittenTag name attributes tag)
    (hname : ValidName name) (hkeys : ∀ key ∈ attributes.map Prod.fst, ValidName key)
    (hdistinct : (attributes.map Prod.fst).Nodup) :
    ∃ d : Cursor, d.rest = rest ∧ s.scan = .ok (.opening name attributes names.length s.cursor.line)
      (if closed then
        { s with
          cursor := d
          finished := s.finished || names.length = 0
          owed := some (.closing name names.length d.line) }
      else { s with cursor := d, opened := name :: names }) := by
  obtain ⟨x, xs, hxs, hx⟩ := exists_head_of_valid hname
  have hpiece : Piece.next s.cursor = .openingTag := by
    cases htag with
    | intro => exact next_openingTag hx (by rw [hs.rest, hxs]; rfl)
  have hwritten : s.cursor.rest = '<' :: (tag ++ tagEnd closed) ++ rest := by
    rw [hs.rest]
    simp
  obtain ⟨d, hd, hrest⟩ := consumes_scanOpening htag hname hkeys hdistinct closed _ hwritten
  refine ⟨d, hrest, ?_⟩
  rw [hs.scan_eq, scanText_opening (hs.ne_nil (List.cons_ne_nil _ _)) hpiece, openElement]
  dsimp only
  rw [hs.finished, hd, hs.opened]
  rfl

/-- The closing tag of the innermost element. -/
theorem At.scan_closing {after : List Char}
    (hs : s.At ("</".toList ++ (name.toList ++ (after ++ '>' :: rest))) (name :: names)
      false)
    (hname : ValidName name) (hafter : Gap after) :
    ∃ line t, s.scan = .ok (.closing name names.length line) t ∧
      t.At rest names names.isEmpty := by
  have hwritten : s.cursor.rest = "</".toList ++ (name.toList ++ (after ++ ['>'])) ++ rest := by
    rw [hs.rest]
    simp
  obtain ⟨d, hd, hrest⟩ := consumes_scanClosing hname hafter _ hwritten
  refine ⟨s.cursor.line,
    { s with cursor := d, opened := names, finished := s.finished || names.isEmpty }, ?_, ?_⟩
  · rw [hs.scan_eq, scanText_closing (hs.ne_nil (by simp)) (next_closingTag hs.rest), closeElement]
    dsimp only
    rw [hd, hs.opened]
    simp
  · refine ⟨hrest, rfl, hs.owed, ?_⟩
    rw [hs.finished, Bool.false_or]

/-- A text written as characters up to the next bracket. -/
theorem At.scan_characters {content : String} {raw : List Char}
    (hs : s.At (raw ++ rest) names ended)
    (hnames : names ≠ []) (hcontent : Spelled (fun c => c ≠ '<' ∧ c ≠ '&') content.toList raw)
    (hsolid : Text.isBlankText content = false) (hend : rest.head? = some '<') :
    ∃ line t, s.scan = .ok (.text content names.length line) t ∧ t.At rest names ended := by
  have hbracket : '<' ∉ raw := hcontent.not_mem (.inl rfl) fun h => h.1 rfl
  have hrun : s.cursor.run (· ≠ '<') = raw := by
    refine run_eq hs.rest ?_ ?_
    · intro y hy
      rw [decide_eq_true_eq]
      rintro rfl
      exact hbracket hy
    · intro y hy
      rw [hend] at hy
      obtain rfl := Option.some.inj hy
      decide
  have hnotblank : raw.all Text.isBlank = false := hcontent.not_blank hsolid
  have hraw : raw ≠ [] := by
    rintro rfl
    cases hnotblank
  have hpiece : Piece.next s.cursor = .text := by
    refine next_text ?_
    rw [hs.rest, List.head?_append_of_ne_nil _ hraw]
    intro hhead
    exact hbracket (List.mem_of_head? hhead)
  refine ⟨s.cursor.line, { s with cursor := s.cursor.skip raw.length }, ?_,
    rest_skip hs.rest, hs.opened, hs.owed, hs.finished⟩
  rw [hs.scan_eq, scanText, dif_neg (hs.ne_nil (by simp [hraw])), hpiece]
  dsimp only
  rw [hrun, hnotblank, hcontent.decode fun _ h => h.2]
  simp [giveText, hs.opened, hnames]

/-- A text written as a section of character data. -/
theorem At.scan_characterData {content : String}
    (hs : s.At ("<![CDATA[".toList ++ (content.toList ++ ("]]>".toList ++ rest))) names ended)
    (hnames : names ≠ []) (hcontent : ¬"]]>".toList <:+: content.toList) :
    ∃ line t, s.scan = .ok (.text content names.length line) t ∧ t.At rest names ended := by
  have hinside : (s.cursor.skip "<![CDATA[".length).rest =
      content.toList ++ ("]]>".toList ++ rest) := rest_skip hs.rest
  have hpast : ((s.cursor.skip "<![CDATA[".length).skip
      (content.toList.length + "]]>".length)).rest = rest := by
    have hsplit : (s.cursor.skip "<![CDATA[".length).rest =
        (content.toList ++ "]]>".toList) ++ rest := by simp [hinside]
    have hlength : content.toList.length + "]]>".length =
        (content.toList ++ "]]>".toList).length := by
      rw [List.length_append]
      rfl
    rw [hlength]
    exact rest_skip hsplit
  refine ⟨s.cursor.line,
    { s with
      cursor := (s.cursor.skip "<![CDATA[".length).skip (content.toList.length + "]]>".length) },
    ?_, hpast, hs.opened, hs.owed, hs.finished⟩
  rw [hs.scan_eq, scanText_characterData (hs.ne_nil (by simp)) (next_characterData hs.rest),
    readCharacterData]
  rw [hinside, position?_section hcontent]
  simp only [List.take_left, giveText, hs.opened, List.isEmpty_eq_false_iff.mpr hnames,
    String.ofList_toList]
  rfl

/-- The two tokens of an element that closes itself. -/
theorem At.yields_closed {attributes : List (String × String)} {tag : List Char}
    (hs : s.At ('<' :: (tag ++ ("/>".toList ++ rest))) names false)
    (htag : WrittenTag name attributes tag) (hvalid : (Node.element name attributes []).Valid)
    (hnext : ∀ t : Scanner, t.At rest names names.isEmpty → t.Yields ts) :
    s.Yields ((Node.element name attributes []).tokens names.length ++ ts) := by
  cases hvalid with
  | element hname hkeys hdistinct =>
    obtain ⟨d, hrest, hscan⟩ :=
      At.openElement_written true hs htag hname hkeys hdistinct
    have hclose : scan { s with
        cursor := d
        finished := s.finished || names.length = 0
        owed := some (.closing name names.length d.line) } =
        .ok (.closing name names.length d.line)
          { s with cursor := d, finished := s.finished || names.length = 0, owed := none } :=
      rfl
    refine yields_cons hscan rfl (yields_cons hclose rfl (hnext _ ⟨hrest, hs.opened, rfl, ?_⟩))
    rw [hs.finished]
    cases names <;> rfl

/-- The tokens of an element with two tags, given those of its children. -/
theorem At.yields_element {attributes : List (String × String)} {children : List Node}
    {tag inside after : List Char}
    (hs : s.At ('<' :: (tag ++ (">".toList ++
      (inside ++ ("</".toList ++ (name.toList ++ (after ++ '>' :: rest))))))) names false)
    (htag : WrittenTag name attributes tag) (hafter : Gap after)
    (hvalid : (Node.element name attributes children).Valid)
    (hchildren : ∀ (t : Scanner) (us : List Token),
      t.At (inside ++ ("</".toList ++ (name.toList ++ (after ++ '>' :: rest)))) (name :: names)
        false →
      (∀ u : Scanner, u.At ("</".toList ++ (name.toList ++ (after ++ '>' :: rest)))
        (name :: names) false → u.Yields us) →
      t.Yields (Node.tokensAll (names.length + 1) children ++ us))
    (hnext : ∀ t : Scanner, t.At rest names names.isEmpty → t.Yields ts) :
    s.Yields ((Node.element name attributes children).tokens names.length ++ ts) := by
  cases hvalid with
  | element hname hkeys hdistinct =>
    obtain ⟨d, hrest, hscan⟩ :=
      At.openElement_written false hs htag hname hkeys hdistinct
    have hclose : ∀ u : Scanner, u.At ("</".toList ++ (name.toList ++ (after ++ '>' :: rest)))
        (name :: names) false → u.Yields (.closing name names.length 0 :: ts) := by
      intro u hu
      obtain ⟨line, t, ht, hat⟩ := hu.scan_closing hname hafter
      exact yields_cons ht rfl (hnext t hat)
    have hat : At { s with cursor := d, opened := name :: names } _ (name :: names) false :=
      ⟨hrest, rfl, hs.owed, hs.finished⟩
    simpa [Node.tokens, Token.onLine] using yields_cons hscan rfl (hchildren _ _ hat hclose)

/-! ### All that was written -/

/-- **Nodes inside an element give their tokens**, however they were written and whatever
follows them. -/
theorem yields_of_written {nodes : List Node} {written tail : List Char}
    (h : Written nodes written) (hvalid : ∀ node ∈ nodes, node.Valid) (hnames : names ≠ [])
    (htail : tail.head? = some '<') (hs : s.At (written ++ tail) names false)
    (hnext : ∀ t : Scanner, t.At tail names false → t.Yields ts) :
    s.Yields (Node.tokensAll names.length nodes ++ ts) := by
  induction h generalizing s names tail ts with
  | nil hgap => exact yields_of_gap hs hgap (.inr htail) hnext
  | @characters content nodes raw rest hcontent hend _ ih =>
    obtain ⟨hfirst, hmore⟩ := List.forall_mem_cons.mp hvalid
    cases hfirst with
    | text hsolid =>
      have hhead : (rest ++ tail).head? = some '<' := by
        obtain rfl | hend := hend
        · exact htail
        · rw [List.head?_append, hend]
          rfl
      rw [List.append_assoc] at hs
      obtain ⟨line, t, hscan, ht⟩ := hs.scan_characters hnames hcontent hsolid hhead
      exact yields_cons hscan rfl (ih hmore hnames htail ht hnext)
  | @characterData content nodes gap rest hgap hcontent _ ih =>
    obtain ⟨-, hmore⟩ := List.forall_mem_cons.mp hvalid
    simp only [List.append_assoc] at hs
    refine yields_of_gap hs hgap (.inr rfl) ?_
    intro s hs
    obtain ⟨line, t, hscan, ht⟩ := hs.scan_characterData hnames hcontent
    exact yields_cons hscan rfl (ih hmore hnames htail ht hnext)
  | @closed name attributes nodes gap tag rest hgap htag _ ih =>
    obtain ⟨hfirst, hmore⟩ := List.forall_mem_cons.mp hvalid
    simp only [List.append_assoc, List.cons_append] at hs
    refine yields_of_gap hs hgap (.inr rfl) ?_
    intro s hs
    rw [Node.tokensAll, List.append_assoc]
    refine hs.yields_closed htag hfirst ?_
    rw [List.isEmpty_eq_false_iff.mpr hnames]
    intro t ht
    exact ih hmore hnames htail ht hnext
  | @element name attributes children nodes gap tag inside after rest hgap htag _ hafter _ ihc ih =>
    obtain ⟨hfirst, hmore⟩ := List.forall_mem_cons.mp hvalid
    simp only [List.append_assoc, List.cons_append] at hs
    refine yields_of_gap hs hgap (.inr rfl) ?_
    intro s hs
    rw [Node.tokensAll, List.append_assoc]
    refine hs.yields_element htag hafter hfirst ?_ ?_
    · intro t us ht hus
      exact ihc hfirst.children (List.cons_ne_nil name names) rfl ht hus
    · rw [List.isEmpty_eq_false_iff.mpr hnames]
      intro t ht
      exact ih hmore hnames htail ht hnext

/-- After the last gap the document ends. -/
theorem yields_finish (h : Written [] rest) (hs : s.At rest [] ended) : s.Yields [.finish 0] := by
  cases h with
  | nil hgap =>
    rw [← List.append_nil rest] at hs
    refine yields_of_gap hs hgap (.inl rfl) ?_
    intro t ht
    have hscan : t.scan = .ok (.finish t.cursor.line) t := by
      rw [ht.scan_eq, scanText_end ht.rest ht.opened]
    exact ⟨[.finish t.cursor.line], by rw [tokens_of_scan hscan]; rfl, rfl⟩

end Scanner

/-- **A document gives the tokens of its tree, however it was written**: quotes of either
sort, characters as themselves or by reference, sections of character data, tags that close
themselves, and white space in tags and around them make no difference. -/
theorem tokens_of_written {name : String} {attributes : List (String × String)}
    {children : List Node} {written : List Char}
    (hvalid : (Node.element name attributes children).Valid)
    (h : Written [.element name attributes children] written) :
    ∃ ts, tokens (String.ofList written) = .ok ts ∧ ts.map (Token.onLine 0) =
      (Node.element name attributes children).tokens 0 ++ [.finish 0] := by
  have hstart : (Scanner.ofSource (String.ofList written)).At written [] false :=
    ⟨String.toList_ofList, rfl, rfl, rfl⟩
  cases h with
  | @closed _ _ _ gap tag rest hgap htag hrest =>
    refine Scanner.yields_of_gap hstart hgap (.inr rfl) ?_
    intro s hs
    exact hs.yields_closed htag hvalid fun t => Scanner.yields_finish hrest
  | @element _ _ _ _ gap tag inside after rest hgap htag hinside hafter hrest =>
    refine Scanner.yields_of_gap hstart hgap (.inr rfl) ?_
    intro s hs
    refine hs.yields_element htag hafter hvalid ?_ fun t => Scanner.yields_finish hrest
    intro t us ht hus
    exact Scanner.yields_of_written hinside hvalid.children (List.cons_ne_nil name []) rfl ht hus

/-- An element with an attribute, an element that closes itself, and text by reference. -/
theorem tokens_of_note :
    ∃ ts, tokens "<a x='&lt;'> <b/>h&#x69;</a>" = .ok ts ∧ ts.map (Token.onLine 0) =
      [.opening "a" [("x", "<")] 0 0, .opening "b" [] 1 0, .closing "b" 1 0, .text "hi" 1 0,
        .closing "a" 0 0, .finish 0] := by
  have hvalid : (Node.element "a" [("x", "<")] [.element "b" [] [], .text "hi"]).Valid := by
    have ha : ValidName "a" := ⟨by decide, by simp; decide⟩
    have hb : ValidName "b" := ⟨by decide, by simp; decide⟩
    have hx : ValidName "x" := ⟨by decide, by simp; decide⟩
    refine .element ha (by simpa using hx) (List.pairwise_singleton ..) ?_
    rintro child hchild
    obtain rfl | rfl : child = .element "b" [] [] ∨ child = .text "hi" := by simpa using hchild
    · exact .element hb nofun .nil nofun
    · exact .text (by decide)
  have hnone : Gap [] := nofun
  have hspace : Gap [' '] := by simpa [Gap] using (by decide : Text.isBlank ' ' = true)
  have htext : Written [.text "hi"] ['h', '&', '#', 'x', '6', '9', ';'] := by
    have hsix : IsDigit 16 6 '6' := ⟨by decide, .inl rfl⟩
    have hnine : IsDigit 16 9 '9' := ⟨by decide, .inl rfl⟩
    have hi : Reference 'i' ['#', 'x', '6', '9'] :=
      .hexadecimal (.inl rfl) (.append (.digit hsix) hnine)
    have hspelled : Spelled (fun c => c ≠ '<' ∧ c ≠ '&') ['h', 'i'] _ :=
      .itself ⟨by decide, by decide⟩ (.byReference hi .nil)
    rw [show ['h', 'i'] = "hi".toList by decide] at hspelled
    simpa using Written.characters hspelled (.inl rfl) (.nil hnone)
  have hb : WrittenTag "b" [] _ := .intro .nil hnone (.inl rfl)
  have ha : WrittenTag "a" [("x", "<")] "a x='&lt;'".toList := by
    have hlt : ("lt", '<') ∈ entities := by decide
    have hx : WrittenAttributes [("x", "<")] _ :=
      .cons hspace hnone hnone (.inr rfl) (.byReference (.named hlt) .nil) .nil
    have htag : WrittenTag "a" _ _ := .intro hx hnone (.inr ⟨' ', rfl, by decide⟩)
    simpa using htag
  have hwritten := Written.element hnone ha (.closed hspace hb htext) hnone (.nil hnone)
  simpa [Node.tokens, Node.tokensAll] using tokens_of_written hvalid hwritten

end Adventure.Markup
