/-
Sentences and what they say.

A sentence is the tokens up to the first that ends one.  Reading it gives facts, in the
order in which they are to be taken in, and perhaps a flaw; the facts that stand
before the flaw count all the same.  What a fact means for the story so far is not
decided here.
-/
import Adventure.Prose.Record
import Adventure.Prose.Scanner

namespace Adventure.Prose

/-- A name as it was written. -/
structure Mention where
  name : String
  line : Nat
  deriving DecidableEq, Repr

/-- Something that a sentence says. -/
inductive Fact where
  | title (text : String)
  | author (name : String)
  /-- The sentence is about these things. -/
  | subjects (things : List Mention)
  /-- The subjects have a property, or lack it. -/
  | property (property : Property) (negated : Bool) (line : Nat)
  /-- The subjects are of a kind. -/
  | kind (kind : Kind) (line : Nat)
  /-- The subjects are in or on something. -/
  | placement (preposition : Preposition) (target : Mention) (line : Nat)
  /-- The subject looks like this. -/
  | description (text : String)
  /-- A thing looks like this, and the sentence is about it. -/
  | descriptionOf (thing : Mention) (text : String)
  /-- Text that describes the one thing that the sentence before was about. -/
  | remark (text : String) (line : Nat)
  /-- A room lies in a direction from another. -/
  | location (room : Mention) (direction : String) (origin : Mention) (line : Nat)
  /-- There are further kinds under a kind. -/
  | newKinds (names : List Mention) (parent : Kind)
  deriving DecidableEq, Repr

/-- What a sentence needs at some place. -/
inductive Expected where
  | endOfSentence
  | word (word : String)
  | name
  | subjectOrVerb
  | quotedText
  | origin
  | kind
  | property
  | kindOrProperty
  deriving DecidableEq, Repr

/-- What is needed, in words. -/
def Expected.text : Expected → String
  | endOfSentence => "the end of the sentence"
  | word w => s!"\"{w}\""
  | name => "a name"
  | subjectOrVerb => "a name followed by \"is\" or \"are\""
  | quotedText => "quoted text"
  | origin => "\"of\" or \"from\""
  | kind => "a kind"
  | property => "a property"
  | kindOrProperty => "a kind or property"

/-- What is wrong with a sentence. -/
inductive Flaw where
  | unexpected (found : Token) (expected : Expected)
  | severalRooms (line : Nat)
  | severalDescribed (line : Nat)
  | worldly (word : String) (line : Nat)
  | unknown (word : String) (line : Nat)
  /-- The tokens do not go on, because the scanner failed. -/
  | cutShort
  deriving DecidableEq, Repr

/-- The flaw as an error, given the scanner's own if that cut the sentence short. -/
def Flaw.error (scanning : Error) : Flaw → Error
  | unexpected found expected =>
    .parse s!"expected {expected.text} but found {found.found}" found.line
  | severalRooms line => .parse "only one room can be placed in a direction from another" line
  | severalDescribed line => .parse "quoted text can only describe one thing at a time" line
  | worldly word line =>
    .parse s!"\"{word}\" describes a condition of the world and cannot be asserted" line
  | unknown word line => .parse s!"\"{word}\" is not a known kind or property" line
  | cutShort => scanning

/-- What comes of reading a sentence. -/
structure Reading where
  facts : List Fact
  flaw : Option Flaw
  deriving DecidableEq, Repr

namespace Reading

/-- Nothing is said. -/
def silent : Reading :=
  ⟨[], none⟩

/-- Nothing is said, for a reason. -/
def flawed (f : Flaw) : Reading :=
  ⟨[], some f⟩

/-- A fact before the others. -/
def after (r : Reading) (fact : Fact) : Reading :=
  { r with facts := fact :: r.facts }

end Reading

/-! ### Names -/

/-- The name that words make up. -/
def Mention.ofWords (first : Token) (more : List Token) : Mention :=
  ⟨" ".intercalate ((first :: more).map (·.text)), first.line⟩

/-- Reads a name that ends the sentence, after the words already read.  Articles are
passed over. -/
def readName (before : List Token) : List Token → Except Flaw Mention
  | [] => throw .cutShort
  | t :: ts =>
    match t.kind, before with
    | .article, _ => readName before ts
    | .word, _ => readName (before ++ [t]) ts
    | .stop, first :: more | .finish, first :: more => pure (.ofWords first more)
    | _, _ => throw (.unexpected t .name)

/-- Reads the subjects of a sentence up to its verb, and gives what follows the verb.
Between two subjects stands a comma, a conjunction, or one after the other. -/
def readSubjects (done : List Mention) (before : List Token) (afterComma : Bool) :
    List Token → Except Flaw (List Mention × List Token)
  | [] => throw .cutShort
  | t :: ts =>
    match t.kind, before with
    | .article, _ => readSubjects done before afterComma ts
    | .word, _ => readSubjects done (before ++ [t]) false ts
    | .comma, [] => throw (.unexpected t .name)
    | .comma, first :: more => readSubjects (done ++ [.ofWords first more]) [] true ts
    | .conjunction, [] =>
      if afterComma then readSubjects done [] false ts else throw (.unexpected t .name)
    | .conjunction, first :: more => readSubjects (done ++ [.ofWords first more]) [] false ts
    | .equality, first :: more => pure (done ++ [.ofWords first more], ts)
    | _, _ => throw (.unexpected t .subjectOrVerb)

/-- The flaw of tokens that do not begin with the end of the sentence. -/
def endFlaw? : List Token → Option Flaw
  | [] => some .cutShort
  | t :: _ => if t.endsSentence then none else some (.unexpected t .endOfSentence)

/-- Drops the articles that come first. -/
def skipArticles (ts : List Token) : List Token :=
  ts.dropWhile (·.kind = .article)

/-! ### What is said of the subjects -/

/-- What a word means in a definition. -/
inductive Predicate where
  | negation
  | placement (preposition : Preposition)
  | property (property : Property)
  | kind (kind : Kind)
  deriving DecidableEq, Repr

/-- What a word means in a definition, after a negation or not. -/
def Predicate.ofWord (l : Lexicon) (negated : Bool) (t : Token) : Except Flaw Predicate :=
  let word := t.text.toLower
  if word = "not" then if negated then throw (.unexpected t .property) else pure negation
  else match Preposition.ofWord? word with
    | some p => if negated then throw (.unexpected t .property) else pure (placement p)
    | none =>
      if isWorldly t.text then throw (.worldly t.text t.line)
      else match Property.ofName? t.text with
        | some p => pure (property p)
        | none =>
          match (l.kind? t.text).filter fun _ => !negated with
          | some k => pure (kind k)
          | none => throw (.unknown t.text t.line)

/-- Reads where the subjects are. -/
def readPlacement (p : Preposition) (line : Nat) (ts : List Token) : Reading :=
  match readName [] ts with
  | .ok target => ⟨[.placement p target line], none⟩
  | .error f => .flawed f

/-- Reads properties, kinds, a placement and a description, in this order save that
properties and kinds may be mixed.  At least one property or kind comes before the
description or the end. -/
def readDefinition (l : Lexicon) (several negated started : Bool) : List Token → Reading
  | [] => .flawed .cutShort
  | t :: ts =>
    match t.kind with
    | .article | .comma | .conjunction => readDefinition l several negated started ts
    | .stop | .finish =>
      if started && !negated then .silent else .flawed (.unexpected t .kindOrProperty)
    | .quoted =>
      if !started then .flawed (.unexpected t .kindOrProperty)
      else if several then .flawed (.severalDescribed t.line)
      else ⟨[.description t.text], endFlaw? ts⟩
    | .word =>
      match Predicate.ofWord l negated t with
      | .error f => .flawed f
      | .ok .negation => readDefinition l several true started ts
      | .ok (.placement p) => readPlacement p t.line ts
      | .ok (.property p) =>
        (readDefinition l several false true ts).after (.property p negated t.line)
      | .ok (.kind k) => (readDefinition l several negated true ts).after (.kind k t.line)
    | _ => .flawed (.unexpected t .kindOrProperty)

/-- Reads from where the one subject lies in a direction. -/
def readLocation (subjects : List Mention) (direction : Token) (ts : List Token) : Reading :=
  match subjects with
  | [room] =>
    match ts with
    | [] => .flawed .cutShort
    | t :: ts =>
      if t.isWord "of" || t.isWord "from" then
        match readName [] ts with
        | .ok origin =>
          ⟨[.location room (Text.lower direction.text) origin direction.line], none⟩
        | .error f => .flawed f
      else .flawed (.unexpected t .origin)
  | _ => .flawed (.severalRooms direction.line)

/-- Reads of what kind the subjects are to be kinds. -/
def readNewKinds (l : Lexicon) (subjects : List Mention) : List Token → Reading
  | [] => .flawed .cutShort
  | t :: ts =>
    if !t.isWord "of" then .flawed (.unexpected t (.word "of"))
    else match skipArticles ts with
      | [] => .flawed .cutShort
      | t :: ts =>
        match (l.kind? t.text).filter fun _ => t.kind = .word with
        | none => .flawed (.unexpected t .kind)
        | some parent =>
          match endFlaw? ts with
          | some f => .flawed f
          | none => ⟨[.newKinds subjects parent], none⟩

/-- Reads what is said of the subjects. -/
def readEquality (l : Lexicon) (subjects : List Mention) (ts : List Token) : Reading :=
  match skipArticles ts with
  | [] => .flawed .cutShort
  | t :: ts =>
    if t.isWord "kind" then readNewKinds l subjects ts
    else
      let rest :=
        if t.kind = .word && l.isDirection t.text then readLocation subjects t ts
        else readDefinition l (subjects.length ≠ 1) false false (t :: ts)
      rest.after (.subjects subjects)

/-- The thing whose description a sentence is about. -/
def describedThing? : List Mention → Option Mention
  | [m] =>
    ("description of ".toList.isPrefixOf? (Text.lower m.name).toList).map fun thing =>
      ⟨String.ofList thing, m.line⟩
  | _ => none

/-- Reads a statement: subjects, a verb, and what is said of them. -/
def readStatement (l : Lexicon) (ts : List Token) : Reading :=
  match readSubjects [] [] false ts with
  | .error f => .flawed f
  | .ok (subjects, rest) =>
    match describedThing? subjects with
    | none => readEquality l subjects rest
    | some thing =>
      match rest with
      | [] => .flawed .cutShort
      | t :: rest =>
        if t.kind = .quoted then ⟨[.descriptionOf thing t.text], endFlaw? rest⟩
        else .flawed (.unexpected t .quotedText)

/-! ### Whole sentences -/

/-- The title of a game as it was quoted, without the periods at its end. -/
def titleText (quoted : String) : String :=
  String.ofList (quoted.toList.reverse.dropWhile (· = '.')).reverse

/-- Reads what follows a title: perhaps the author. -/
def readAuthor (ts : List Token) : Reading :=
  match ts with
  | [] => .flawed .cutShort
  | t :: rest =>
    if t.isWord "by" then
      match readName [] rest with
      | .ok author => ⟨[.author author.name], none⟩
      | .error f => .flawed f
    else ⟨[], endFlaw? ts⟩

/-- Reads the tokens of a sentence.  Quoted text at the very beginning of a source is the
title of the game. -/
def readTokens (l : Lexicon) (opening : Bool) : List Token → Reading
  | [] => .flawed .cutShort
  | t :: ts =>
    if t.endsSentence then .silent
    else if t.kind = .quoted then
      if opening then (readAuthor ts).after (.title (titleText t.text))
      else ⟨[.remark t.text t.line], endFlaw? ts⟩
    else readStatement l (t :: ts)

/-- What a scanner gives up to the end of a sentence. -/
inductive Sentence where
  /-- The tokens, the last of which ends the sentence, and the scanner behind it. -/
  | whole (tokens : List Token) (atEnd : Bool) (rest : Scanner)
  /-- The tokens before the scanner failed. -/
  | broken (tokens : List Token) (error : Error)

namespace Sentence

/-- A token before the others. -/
def cons (t : Token) : Sentence → Sentence
  | whole tokens atEnd rest => whole (t :: tokens) atEnd rest
  | broken tokens error => broken (t :: tokens) error

/-- The tokens of a sentence. -/
def tokens : Sentence → List Token
  | whole tokens _ _ | broken tokens _ => tokens

end Sentence

/-- The next sentence. -/
def Scanner.sentence (l : Lexicon) (s : Scanner) : Sentence :=
  match _h : s.scan l with
  | .error e _ => .broken [] e
  | .ok token t =>
    if _hfinish : token.kind = .finish then .whole [token] true t
    else if token.kind = .stop then .whole [token] false t
    else (sentence l t).cons token
termination_by s.remaining
decreasing_by
  exact (remaining_scan _h).resolve_right fun hr => _hfinish hr.1

/-- A sentence within the source takes something away from what remains. -/
theorem Scanner.remaining_sentence {l : Lexicon} {s rest : Scanner} {tokens : List Token}
    (h : s.sentence l = .whole tokens false rest) : rest.remaining < s.remaining := by
  fun_induction Scanner.sentence l s generalizing tokens with
  | case1 => exact absurd h nofun
  | case2 => simp at h
  | case3 s token t hscan hfinish hstop =>
    simp only [Sentence.whole.injEq] at h
    exact h.2.2 ▸ (remaining_scan hscan).resolve_right fun hr => hfinish hr.1
  | case4 s token t hscan hfinish hstop ih =>
    have hlt : t.remaining < s.remaining :=
      (remaining_scan hscan).resolve_right fun hr => hfinish hr.1
    cases hs : t.sentence l with
    | whole inner atEnd behind =>
      simp only [hs, Sentence.cons, Sentence.whole.injEq] at h
      obtain ⟨-, rfl, rfl⟩ := h
      exact Nat.lt_trans (ih hs) hlt
    | broken inner e =>
      simp only [hs, Sentence.cons] at h
      exact absurd h nofun

end Adventure.Prose
