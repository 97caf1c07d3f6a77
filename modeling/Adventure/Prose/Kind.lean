/-
Kinds of things.

Kinds form a tree: `object` is the root, and every other kind stands under one kind.
A kind holds the kinds above it, so that what it is a kind of can be read off it alone
and never changes.  A tree of kinds is the list of its kinds in the order in which
they were added.
-/
import Adventure.EntityType
import Adventure.Prose.Plural
import Adventure.Text.Lowercase

namespace Adventure.Prose

/-- What there is to say about a kind, apart from what it stands under. -/
structure Label where
  /-- How many kinds were added before it. -/
  index : Nat
  /-- The singular, in lowercase. -/
  name : String
  plural : String
  /-- The type of the entities that things of the kind become, if they become any. -/
  type : Option EntityType
  /-- Whether the kind is there from the beginning. -/
  builtin : Bool
  deriving DecidableEq, Repr

/-- A kind, with the kinds above it. -/
inductive Kind where
  | root (label : Label)
  | under (parent : Kind) (label : Label)
  deriving DecidableEq, Repr

namespace Kind

def label : Kind → Label
  | root label | under _ label => label

def index (k : Kind) : Nat :=
  k.label.index

def name (k : Kind) : String :=
  k.label.name

def plural (k : Kind) : String :=
  k.label.plural

def type? (k : Kind) : Option EntityType :=
  k.label.type

def isBuiltin (k : Kind) : Bool :=
  k.label.builtin

/-- The kind directly above. -/
def parent? : Kind → Option Kind
  | root _ => none
  | under parent _ => some parent

/-- The kind and all kinds above it, up to the root. -/
def lineage : Kind → List Kind
  | root label => [root label]
  | under parent label => under parent label :: parent.lineage

/-- Whether the kind is `ancestor` or stands below it. -/
def isA (k ancestor : Kind) : Bool :=
  k.lineage.contains ancestor

/-- Whether one of two kinds is the other or stands below it. -/
def related (a b : Kind) : Bool :=
  a.isA b || b.isA a

theorem mem_lineage_self (k : Kind) : k ∈ k.lineage := by
  cases k <;> simp [lineage]

theorem isA_iff {k ancestor : Kind} : k.isA ancestor = true ↔ ancestor ∈ k.lineage := by
  simp [isA]

theorem isA_refl (k : Kind) : k.isA k = true :=
  isA_iff.mpr k.mem_lineage_self

/-- What stands above an ancestor stands above the kind itself. -/
theorem lineage_suffix_of_mem {k ancestor : Kind} (h : ancestor ∈ k.lineage) :
    ancestor.lineage <:+ k.lineage := by
  induction k with
  | root label =>
    simp only [lineage, List.mem_singleton] at h
    exact h ▸ List.suffix_refl _
  | under parent label ih =>
    rcases List.mem_cons.mp h with rfl | hparent
    · exact List.suffix_refl _
    · exact (ih hparent).trans (List.suffix_cons _ _)

theorem isA_trans {a b c : Kind} (hab : a.isA b = true) (hbc : b.isA c = true) :
    a.isA c = true :=
  isA_iff.mpr ((lineage_suffix_of_mem (isA_iff.mp hab)).subset (isA_iff.mp hbc))

/-! ### The kinds that are there from the beginning -/

/-- A kind of the standard rules. -/
def standard (parent : Kind) (index : Nat) (name : String) (type : Option EntityType) : Kind :=
  under parent ⟨index, name, pluralize name, type, true⟩

def object : Kind :=
  root ⟨0, "object", pluralize "object", none, true⟩

def room : Kind :=
  standard object 1 "room" (some .room)

def thing : Kind :=
  standard object 2 "thing" (some .object)

def direction : Kind :=
  standard object 3 "direction" none

def region : Kind :=
  standard object 4 "region" none

def door : Kind :=
  standard thing 5 "door" none

def container : Kind :=
  standard thing 6 "container" (some .object)

def supporter : Kind :=
  standard thing 7 "supporter" (some .object)

def backdrop : Kind :=
  standard thing 8 "backdrop" none

def device : Kind :=
  standard thing 9 "device" (some .object)

def person : Kind :=
  standard thing 10 "person" (some .creature)

def man : Kind :=
  standard person 11 "man" (some .creature)

def woman : Kind :=
  standard person 12 "woman" (some .creature)

def animal : Kind :=
  standard person 13 "animal" (some .creature)

def vehicle : Kind :=
  standard container 14 "vehicle" none

def holdall : Kind :=
  standard container 15 "player's holdall" none

end Kind

/-- The kinds there are, in the order in which they were added. -/
structure KindTree where
  kinds : List Kind
  deriving DecidableEq, Repr

namespace KindTree

/-- The root alone. -/
def bare : KindTree :=
  ⟨[.object]⟩

/-- The kinds of the standard rules. -/
def standard : KindTree :=
  ⟨[.object, .room, .thing, .direction, .region, .door, .container, .supporter, .backdrop,
    .device, .person, .man, .woman, .animal, .vehicle, .holdall]⟩

/-- The number of kinds. -/
def size (t : KindTree) : Nat :=
  t.kinds.length

/-- The kind that a word means, in whatever case: a singular comes before a plural, and
the kind added last before the others. -/
def lookup? (t : KindTree) (word : String) : Option Kind :=
  let word := Text.lower word
  t.kinds.reverse.find? (·.name == word) <|> t.kinds.reverse.find? (·.plural == word)

/-- The kind that an insertion would add: it makes entities of its parent's type. -/
def freshKind (t : KindTree) (name : String) (parent : Kind) : Kind :=
  let name := Text.lower name
  .under parent ⟨t.size, name, pluralize name, parent.type?, false⟩

/-- Adds a kind under another. -/
def insert (t : KindTree) (name : String) (parent : Kind) : KindTree :=
  ⟨t.kinds ++ [t.freshKind name parent]⟩

/-- The kinds that were added to the standard ones. -/
def added (t : KindTree) : List Kind :=
  t.kinds.filter fun k => !k.isBuiltin

theorem size_insert (t : KindTree) (name : String) (parent : Kind) :
    (t.insert name parent).size = t.size + 1 := by
  simp [insert, size]

example : standard.kinds.map (·.index) = List.range 16 := by decide +kernel

end KindTree

end Adventure.Prose
