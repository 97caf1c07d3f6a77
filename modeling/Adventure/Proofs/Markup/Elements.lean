/-
Every element is written once.

The elements of a game can be told from its tokens alone: an opening tag begins one, and the
tags that are open there are those of the elements around it.  What an element is, a class,
an entity, a value or only a place for others, depends on these names and on whether text
follows its tag.

The walk is followed token by token.  Its sections always lie where the names of their
elements say; so each step writes what the element at hand asks for, and nothing is left out
or written twice.  What is written for the first elements stays in front of what is written
for the others, apart from the definitions of entities, which may have been there before.
-/
import Adventure.Proofs.Markup.Plans

namespace Adventure.Markup

variable {v : Vocabulary} {tag : String} {type : EntityType} {token : Token}
variable {path : List String} {rest taken : List Token} {op : Operation}

/-! ### The elements of a game -/

/-- An element, as it shows in the tokens. -/
structure Element where
  /-- The names of the elements around it, innermost first. -/
  outer : List String
  /-- Its opening tag. -/
  tag : Token
  /-- The text that directly follows the tag. -/
  text : Option String
  deriving DecidableEq, Repr

/-- The text with which tokens begin. -/
def leadingText : List Token → Option String
  | .text content _ _ :: _ => some content
  | _ => none

/-- The elements that tokens open, in order, given the names of those that are open
already, innermost first. -/
def elements (outer : List String) : List Token → List Element
  | [] => []
  | .opening name attributes depth line :: rest =>
    ⟨outer, .opening name attributes depth line, leadingText rest⟩ :: elements (name :: outer) rest
  | .closing .. :: rest => elements outer.tail rest
  | .text .. :: rest | .finish _ :: rest => elements outer rest

theorem leadingText_opening (h : token.isOpening = true) : leadingText (token :: rest) = none := by
  cases token with
  | opening => rfl
  | closing | text | finish => cases h

theorem elements_opening {outer : List String} (h : token.isOpening = true) :
    elements outer (token :: rest) =
      ⟨outer, token, leadingText rest⟩ :: elements (token.tagName :: outer) rest := by
  cases token with
  | opening => rfl
  | closing | text | finish => cases h

/-- The tag of an element is one of the tokens, and opens it. -/
theorem tag_of_mem_elements {el : Element} {outer : List String} {ts : List Token}
    (h : el ∈ elements outer ts) : el.tag ∈ ts ∧ el.tag.isOpening = true := by
  induction ts generalizing outer with
  | nil => cases h
  | cons first rest ih =>
    cases first with
    | opening =>
      rcases List.mem_cons.mp h with rfl | h
      · exact ⟨List.mem_cons_self, rfl⟩
      · exact (ih h).imp_left (List.mem_cons_of_mem _)
    | closing | text | finish => exact (ih h).imp_left (List.mem_cons_of_mem _)

theorem elements_concat_closing (outer : List String) (ts : List Token) (name : String)
    (depth line : Nat) : elements outer (ts ++ [.closing name depth line]) = elements outer ts := by
  induction ts generalizing outer with
  | nil => rfl
  | cons first rest ih =>
    have htext : leadingText (rest ++ [.closing name depth line]) = leadingText rest := by
      cases rest with
      | nil => rfl
      | cons next _ => cases next <;> rfl
    cases first with
    | opening => rw [List.cons_append, elements, elements, ih, htext]
    | closing | text | finish => exact ih _

namespace Element

variable {el : Element}

/-- The type of the entity that the element declares, if it stands where entities do. -/
def instanceType? (el : Element) : Option EntityType :=
  match el.outer with
  | [around, "game"] => sectionType? around
  | _ => none

/-- The type of the class that the element declares, if it stands where classes do. -/
def classType? (el : Element) : Option EntityType :=
  match el.outer with
  | [around, "classes", "game"] => sectionType? around
  | _ => none

/-- The file that the element names for a script. -/
def scriptPath? (el : Element) : Option String :=
  if el.outer.head? = some "events" ∧ el.tag.tagName = "script" then el.tag.attribute? "src"
  else none

/-- What is read from the element: its text, or the file of a script. -/
def value? (el : Element) : Option String :=
  el.text.map Text.trim <|> el.scriptPath?

/-- The arguments of the definition that the element asks for, if it declares an entity. -/
def definition? (el : Element) : Option (List String) :=
  el.instanceType?.map fun type =>
    definitionOf (((el.tag.attribute? "name").map Text.trim).getD "") type el.tag.tagName
      (el.tag.attribute? "plural")

/-- Whether the element asks for an operation of its own. -/
def isWritten (el : Element) : Bool :=
  el.classType?.isSome || el.value?.isSome

/-- An operation is the one that the element asks for. -/
inductive Writes (el : Element) (op : Operation) : Prop
  /-- What is read is written down, on the line of the tag. -/
  | value {value : String} (hclass : el.classType? = none) (hvalue : el.value? = some value)
    (hrecords : Records op value el.tag.line)
  | entityClass {type : EntityType} {name : String} (htype : el.classType? = some type)
    (hname : el.tag.attribute "class" = .ok name)
    (hop : op = .defineEntityClass name type el.tag.line)

theorem Writes.isWritten (h : el.Writes op) : el.isWritten = true := by
  cases h with
  | value _ hvalue => simp [Element.isWritten, hvalue]
  | entityClass htype => simp [Element.isWritten, htype]

end Element

/-! ### Where sections lie -/

/-- A section lies where the names of the elements around say: its own name comes first. -/
structure Section.At (around : Section) (path : List String) : Prop where
  nonempty : path ≠ []
  game : around = .game ↔ path = ["game"]
  classes : around = .classes ↔ path = ["classes", "game"]
  classGroup : ∀ type, around = .classGroup type ↔
    ∃ tag, path = [tag, "classes", "game"] ∧ sectionType? tag = some type
  instances : ∀ type, around = .instances type ↔
    ∃ tag, path = [tag, "game"] ∧ sectionType? tag = some type
  events : ∀ subject, around = .events subject → path.head? = some "events"

namespace Section.At

variable {around inner : Section} {text : Option String}

theorem start : Section.game.At ["game"] := by
  refine ⟨nofun, by simp, by simp, ?_, ?_, nofun⟩
  · intro type
    simp
  · intro type
    simp

theorem into (h : around.At path) (hinto : around.Into tag inner) : inner.At (tag :: path) := by
  refine ⟨nofun, iff_of_false hinto.game ?_, ?_, ?_, ?_, ?_⟩
  · simpa using fun _ => h.nonempty
  · rw [hinto.classes, h.game, List.cons_eq_cons, and_comm]
  · intro type
    rw [hinto.classGroup, h.classes]
    simp
  · intro type
    rw [hinto.instances, h.game]
    simp
  · intro subject hinner
    exact congrArg some (hinto.events subject hinner)

theorem classType?_eq_some_iff (h : around.At path) :
    (⟨path, token, text⟩ : Element).classType? = some type ↔ around = .classGroup type := by
  rw [h.classGroup, Element.classType?]
  split
  · simp_all
  · rename_i hne
    simp_all

theorem instanceType?_eq_some_iff (h : around.At path) :
    (⟨path, token, text⟩ : Element).instanceType? = some type ↔ around = .instances type := by
  rw [h.instances, Element.instanceType?]
  split
  · simp_all
  · rename_i hne
    simp_all

theorem classType?_eq_none (h : around.At path) (haround : ∀ type, around ≠ .classGroup type) :
    (⟨path, token, text⟩ : Element).classType? = none :=
  Option.eq_none_iff_forall_ne_some.mpr fun type htype =>
    haround type (h.classType?_eq_some_iff.mp htype)

theorem definition?_eq_none (h : around.At path) (haround : ∀ type, around ≠ .instances type) :
    (⟨path, token, text⟩ : Element).definition? = none :=
  Option.map_eq_none_iff.mpr <| Option.eq_none_iff_forall_ne_some.mpr fun type htype =>
    haround type (h.instanceType?_eq_some_iff.mp htype)

/-- Among the entities of a type there are no scripts. -/
theorem scriptPath?_eq_none (h : (Section.instances type).At path) :
    (⟨path, token, text⟩ : Element).scriptPath? = none := by
  obtain ⟨around, rfl, htype⟩ := (h.instances type).mp rfl
  have hne : around ≠ "events" := by
    rintro rfl
    cases htype
  simp [Element.scriptPath?, hne]

end Section.At

/-! ### What is written for elements -/

/-- What elements make of a draft: entities are defined for those that declare them, and
behind the other operations come those that the elements ask for, in order. -/
def Gains (d : Draft) (els : List Element) (d' : Draft) : Prop :=
  ∀ settled, d.Defines settled →
    d'.Defines (settled ++ els.filterMap Element.definition?) ∧
      ∃ ops, otherOperations d'.operations = otherOperations d.operations ++ ops ∧
        List.Forall₂ Element.Writes (els.filter Element.isWritten) ops

namespace Gains

variable {d d' d'' : Draft} {els more : List Element} {el : Element}

theorem refl (d : Draft) : Gains d [] d := by
  intro settled hd
  refine ⟨?_, [], (List.append_nil _).symm, .nil⟩
  rwa [List.filterMap_nil, List.append_nil]

theorem trans (h : Gains d els d') (h' : Gains d' more d'') : Gains d (els ++ more) d'' := by
  intro settled hd
  obtain ⟨hd', ops, hops, hwrites⟩ := h settled hd
  obtain ⟨hd'', ops', hops', hwrites'⟩ := h' _ hd'
  rw [List.filterMap_append, List.filter_append, ← List.append_assoc]
  refine ⟨hd'', ops ++ ops', ?_, List.rel_append hwrites hwrites'⟩
  rw [hops', hops, List.append_assoc]

/-- An element that only holds others. -/
theorem nothing (hdefinition : el.definition? = none) (hwritten : el.isWritten = false) :
    Gains d [el] d := by
  intro settled hd
  have hdefinitions : [el].filterMap Element.definition? = [] := by simp [hdefinition]
  have hfilter : [el].filter Element.isWritten = [] := by simp [hwritten]
  rw [hdefinitions, hfilter, List.append_nil]
  exact ⟨hd, [], (List.append_nil _).symm, .nil⟩

/-- An element that asks for one operation. -/
theorem adds (hadds : d.Adds v op d') (hdefinition : el.definition? = none)
    (hwrites : el.Writes op) : Gains d [el] d' := by
  intro settled hd
  obtain ⟨hd', hothers⟩ := hd.adds hadds
  have hdefinitions : [el].filterMap Element.definition? = [] := by simp [hdefinition]
  have hfilter : [el].filter Element.isWritten = [el] := by simp [hwrites.isWritten]
  rw [hdefinitions, hfilter, List.append_nil]
  exact ⟨hd', [op], hothers, .cons hwrites .nil⟩

/-- An element that declares an entity. -/
theorem declares {name className : String} {plural : Option String} {line index : Nat}
    (hdeclare : d.declareEntity name type className plural line = (.ok index, d'))
    (hdefinition : el.definition? = some (definitionOf name type className plural))
    (hwritten : el.isWritten = false) : Gains d [el] d' := by
  intro settled hd
  have hdefinitions : [el].filterMap Element.definition? =
      [definitionOf name type className plural] := by simp [hdefinition]
  have hfilter : [el].filter Element.isWritten = [] := by simp [hwritten]
  rw [hdefinitions, hfilter]
  refine ⟨hd.declareEntity hdeclare, [], ?_, .nil⟩
  rw [hd.placed.others_declareEntity hdeclare, List.append_nil]

end Gains

/-! ### Steps of a walk -/

section Steps

variable {around inner : Section} {parent : String} {page page' : Page} {plan : Plan}

/-- **An element that is read as a whole is written as one operation.** -/
theorem gains_stay (rest : List Token) (hat : around.At path)
    (hchild : around.child v parent page token = .ok plan)
    (htakes : plan.Takes page token.tagName taken none page') :
    Gains page.draft [⟨path, token, leadingText (taken ++ rest)⟩] page'.draft := by
  have hdoes := Section.does_child hchild
  cases htakes with
  | read _ hwrite =>
    cases hdoes with
    | writes hclass hinstance hwrites =>
      obtain ⟨op, hadds, hrecords⟩ := hwrites _ _ hwrite
      exact .adds hadds (hat.definition?_eq_none hinstance)
        (.value (hat.classType?_eq_none hclass) rfl hrecords)
  | pass =>
    cases hdoes with
    | @loads subject file haround htag hpath =>
      subst haround
      have hvalue : (⟨path, token, none⟩ : Element).value? = some file := by
        simp [Element.value?, Element.scriptPath?, hat.events subject rfl, htag, hpath]
      exact .adds (.plain (v := v) rfl) (hat.definition?_eq_none nofun)
        (.value (hat.classType?_eq_none nofun) hvalue (records_acting rfl (by simp)))

/-- The section in an element lies where the name of the element says. -/
theorem at_enter (hat : around.At path) (hchild : around.child v parent page token = .ok plan)
    (htakes : plan.Takes page token.tagName taken (some inner) page') :
    inner.At (token.tagName :: path) := by
  have hdoes := Section.does_child hchild
  cases htakes with
  | enter =>
    cases hdoes with
    | goes hinto => exact hat.into hinto
    | defines haround =>
      subst haround
      exact hat.into (Section.into_deep rfl nofun nofun nofun)
    | declares haround =>
      subst haround
      exact hat.into (Section.into_deep rfl nofun nofun nofun)

/-- **An element that holds others is written as nothing**, unless it is that of a class or
of an entity. -/
theorem gains_enter (hat : around.At path) (hchild : around.child v parent page token = .ok plan)
    (htakes : plan.Takes page token.tagName taken (some inner) page')
    (hrest : leadingText rest = none) :
    Gains page.draft [⟨path, token, leadingText (taken ++ rest)⟩] page'.draft := by
  have hdoes := Section.does_child hchild
  cases htakes with
  | enter =>
    rw [List.nil_append, hrest]
    cases hdoes with
    | goes _ hclass hinstance htag hdraft =>
      refine hdraft ▸ .nothing (hat.definition?_eq_none hinstance) ?_
      simp [Element.isWritten, hat.classType?_eq_none hclass, Element.value?, Element.scriptPath?,
        htag]
    | @defines type name _ haround hname hadds =>
      subst haround
      exact .adds hadds (hat.definition?_eq_none nofun)
        (.entityClass (hat.classType?_eq_some_iff.mpr rfl) hname rfl)
    | @declares type name index _ haround hname hdeclare =>
      subst haround
      refine .declares hdeclare ?_ ?_
      · have htype : (⟨path, token, none⟩ : Element).instanceType? = some type :=
          hat.instanceType?_eq_some_iff.mpr rfl
        rw [Element.definition?, htype, Option.map_some, Token.attribute?_of_attribute hname]
        rfl
      · simp [Element.isWritten, hat.classType?_eq_none nofun, Element.value?,
          hat.scriptPath?_eq_none]

end Steps

/-! ### A whole walk -/

/-- Every section that is open lies where the names of its element and of those around it
say. -/
def Located : List Level → Prop
  | [] => True
  | level :: outer => level.within.At ((level :: outer).map Level.tag) ∧ Located outer

/-- What is taken of an element that is read as a whole ends with the element. -/
theorem elements_taken {plan : Plan} {page page' : Page}
    (h : plan.Takes page tag taken none page') (outer : List String) :
    elements (tag :: outer) (taken ++ rest) = elements outer rest := by
  cases h <;> rfl

/-- **A walk writes what the elements ask for that it takes.** -/
theorem Walks.gains {page final : Page} {levels : List Level} {ts : List Token}
    (h : Walks v page levels ts final) (hlevels : Located levels) :
    leadingText ts = none ∧
      Gains page.draft (elements (levels.map Level.tag) ts) final.draft := by
  induction h with
  | done page => exact ⟨rfl, .refl _⟩
  | @stay page page' final level outer token plan taken rest hopens hchild htakes _ ih =>
    have hfirst := gains_stay rest hlevels.1 hchild htakes
    refine ⟨leadingText_opening hopens.1, ?_⟩
    rw [elements_opening hopens.1, elements_taken htakes]
    exact hfirst.trans (ih hlevels).2
  | @enter page page' final level outer token plan inner taken rest hopens hchild htakes _ ih =>
    obtain ⟨htext, hrest⟩ := ih ⟨at_enter hlevels.1 hchild htakes, hlevels⟩
    have hfirst := gains_enter hlevels.1 hchild htakes htext
    refine ⟨leadingText_opening hopens.1, ?_⟩
    rw [elements_opening hopens.1]
    cases htakes
    exact hfirst.trans hrest
  | leave depth line _ ih => exact ⟨rfl, (ih hlevels.2).2⟩

/-- **Every element of a game is written once.**  Of the operations that were read, those
that define no entity are one for each class and one for each value, in the order of the
elements; the others are one definition for each entity that an element declares. -/
theorem operations_of_elements {source : String} {d : Draft}
    (h : readDocument v source = .ok d) :
    ∃ attributes first inner last s,
      (Scanner.ofSource source).Scans
          (.opening "game" attributes 0 first :: inner ++ [.closing "game" 0 last]) s ∧
        (∀ t ∈ inner, 0 < t.depth) ∧
        List.Forall₂ Element.Writes ((elements ["game"] inner).filter Element.isWritten)
          (otherOperations d.operations) ∧
        ((elements ["game"] inner).filterMap Element.definition?).Perm
          (entityDefinitions d.operations) := by
  obtain ⟨s, page, attributes, first, rest, rfl, hawaited, hwalks, hs⟩ := walks_of_readDocument h
  obtain ⟨_, _, inner, last, hcons, hinner⟩ := hs.game.eq_element
  obtain ⟨hfirst, rfl⟩ := List.cons_eq_cons.mp hcons
  obtain ⟨-, hgains⟩ := hwalks.gains ⟨.start, trivial⟩
  obtain ⟨hdefines, ops, hops, hwrites⟩ := hgains [] .empty
  have helements : elements ["game"] (inner ++ [.closing "game" 0 last]) =
      elements ["game"] inner := elements_concat_closing _ inner _ _ _
  have hperm := hdefines.perm
  rw [hawaited, List.map_nil, List.append_nil, List.nil_append] at hperm
  refine ⟨attributes, first, inner, last, s.lexer.source, hs.scans, hinner, ?_, ?_⟩
  · rw [hops, ← helements]
    exact hwrites
  · rw [← helements]
    exact hperm.symm

/-- A key that has the name of the section around it, a script in a file, and a room. -/
def keyInSection : String :=
  "<game><meta><meta>kind</meta></meta><events><script src=\"hall.lua\"/></events>" ++
    "<rooms><room name=\"start\"/></rooms></game>"

set_option maxRecDepth 100000 in
/-- The key and the script are written once, and the room is defined once. -/
theorem key_written_once : ∃ d inner, readDocument .english keyInSection = .ok d ∧
    otherOperations d.operations =
      [.setMeta .game "meta" "kind" 1, .loadScript .game .file "hall.lua" 1] ∧
    List.Forall₂ Element.Writes ((elements ["game"] inner).filter Element.isWritten)
      (otherOperations d.operations) ∧
    (elements ["game"] inner).filterMap Element.definition? =
      [definitionOf "start" .room "room" none] := by
  have hread : (readDocument .english keyInSection).toOption.map Draft.operations =
      some [.setMeta .game "meta" "kind" 1, .loadScript .game .file "hall.lua" 1,
        .defineEntity "start" .room "room" none 1] := by
    decide +kernel
  cases hd : readDocument .english keyInSection with
  | error e =>
    rw [hd] at hread
    exact absurd hread nofun
  | ok d =>
    rw [hd] at hread
    have hops : d.operations = _ := Option.some.inj hread
    obtain ⟨_, _, inner, _, _, -, -, hwrites, hdefinitions⟩ := operations_of_elements hd
    refine ⟨d, inner, rfl, by rw [hops]; rfl, hwrites, List.perm_singleton.mp ?_⟩
    have hentities : entityDefinitions d.operations = [definitionOf "start" .room "room" none] := by
      rw [hops]
      rfl
    rwa [hentities] at hdefinitions

end Adventure.Markup
