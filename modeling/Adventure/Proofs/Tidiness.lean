/-
Texts without white space around them.

What a source says is trimmed before it is written down, so the arguments of operations
should be tidy: none is empty, and none begins or ends with white space.  Whether they are can
only be told for each text that goes into a draft.  Here it is said what one step of writing
brings in: the texts that were held before are still held, and whatever else is held
afterwards is tidy or one of the texts that were given as they were written.

The direction that a word means becomes an argument too, so it is followed as well.
-/
import Adventure.Proofs.Meanings

namespace Adventure

namespace Text

/-- A text that is not empty, and neither begins nor ends with white space. -/
structure Tidy (s : String) : Prop where
  nonempty : s ≠ ""
  first : ∀ c ∈ s.toList.head?, isBlank c = false
  last : ∀ c ∈ s.toList.getLast?, isBlank c = false

/-- It is enough to look at both ends. -/
theorem tidy_iff {s : String} : Tidy s ↔ s ≠ "" ∧ s.toList.head?.all (! isBlank ·) = true ∧
    s.toList.getLast?.all (! isBlank ·) = true := by
  simp only [Option.all_eq_true, Bool.not_eq_true']
  exact ⟨fun h => ⟨h.nonempty, h.first, h.last⟩, fun ⟨hne, hfirst, hlast⟩ => ⟨hne, hfirst, hlast⟩⟩

instance (s : String) : Decidable (Tidy s) :=
  decidable_of_iff _ tidy_iff.symm

/-- A text without any white space is tidy. -/
theorem tidy_of_forall {s : String} (hne : s ≠ "") (h : ∀ c ∈ s.toList, isBlank c = false) :
    Tidy s :=
  ⟨hne, fun c hc => h c (List.mem_of_mem_head? hc), fun c hc => h c (List.mem_of_mem_getLast? hc)⟩

theorem not_isBlank_of_dropWhile {cs : List Char} {c : Char}
    (h : (cs.dropWhile isBlank).head? = some c) : isBlank c = false := by
  have hhead := List.head?_dropWhile_not isBlank cs
  rw [h] at hhead
  simpa using hhead

/-- **What trimming leaves is tidy**, unless nothing is left. -/
theorem tidy_trim {s : String} (h : isBlankText (trim s) = false) : Tidy (trim s) := by
  have hne : trim s ≠ "" := by
    intro hempty
    rw [hempty] at h
    exact absurd h (by decide)
  have hchars : (trim s).toList = trimChars s.toList := by rw [trim, String.toList_ofList]
  refine ⟨hne, ?_, ?_⟩
  · intro c hc
    -- the end was cut off behind the first character that is left
    rw [hchars, trimChars, List.head?_reverse] at hc
    have hsuffix := List.dropWhile_suffix isBlank (l := (s.toList.dropWhile isBlank).reverse)
    have hrest : (s.toList.dropWhile isBlank).reverse.dropWhile isBlank ≠ [] := by
      intro hnil
      rw [hnil] at hc
      cases hc
    rw [List.getLast?_eq_some_getLast hrest, hsuffix.getLast hrest,
      ← List.getLast?_eq_some_getLast, List.getLast?_reverse] at hc
    exact not_isBlank_of_dropWhile hc
  · intro c hc
    rw [hchars, trimChars, List.getLast?_reverse] at hc
    exact not_isBlank_of_dropWhile hc

end Text

open Text (Tidy)

variable {v : Vocabulary} {op : Operation} {name className : String} {type : EntityType}
variable {plural : Option String} {line : Nat}

/-! ### Texts of the program's own -/

theorem EntityType.tidy_name (type : EntityType) : Tidy type.name := by
  cases type <;> decide

theorem Target.tidy_name (target : Target) : Tidy target.name := by
  cases target <;> decide

theorem ScriptMode.tidy_name (mode : ScriptMode) : Tidy mode.name := by
  cases mode <;> decide

/-! ### Directions -/

namespace Vocabulary

/-- Whatever a word of the vocabulary means is tidy. -/
def TidyDirections (v : Vocabulary) : Prop :=
  ∀ word direction, v.resolveDirection word = some direction → Tidy direction

theorem tidyDirections_english : english.TidyDirections := by
  have hown : ∀ p ∈ englishDirections.map fun d => (d.1, some d.2.1), Tidy p.1 := by
    decide +kernel
  have hsynonyms : ∀ p ∈ englishDirections.map fun d => (d.2.2, d.1), Tidy p.2 := by
    decide +kernel
  intro word direction h
  unfold Vocabulary.resolveDirection at h
  split at h
  · rename_i hword
    obtain rfl := Option.some.inj h
    obtain ⟨opposite, hopposite⟩ := Option.isSome_iff_exists.mp
      ((Std.ExtTreeMap.isSome_getElem?_eq_contains ..).trans hword)
    rw [english, NameTable.getElem?_ofPairs (by decide)] at hopposite
    exact hown _ (NameTable.mem_of_lookup hopposite)
  · rw [english, NameTable.getElem?_ofPairs (by decide)] at h
    exact hsynonyms _ (NameTable.mem_of_lookup h)

end Vocabulary

namespace Declarations

/-- Whatever a word means is tidy. -/
def TidyDirections (v : Vocabulary) (e : Declarations) : Prop :=
  ∀ word direction, e.resolveDirection v word = some direction → Tidy direction

theorem tidyDirections_empty (hv : v.TidyDirections) : empty.TidyDirections v := by
  intro word direction h
  have hempty : empty.resolveDirection v word = v.resolveDirection word := by
    simp [resolveDirection, empty]
  exact hv word direction (hempty.symm.trans h)

end Declarations

namespace Draft

variable {d d' d'' : Draft} {raw more : List String}

/-- Another word is declared for a direction, and has had no meaning. -/
theorem resolved_of_declareDirectionSynonym {direction word : String}
    (h : d.declareDirectionSynonym v direction word line = .ok d') :
    d.declarations.resolveDirection v direction = some direction ∧
      d.declarations.resolveDirection v word = none := by
  unfold declareDirectionSynonym at h
  split at h
  · cases h
  rename_i hdeclared
  simp only [Declarations.declareDirectionSynonym, throw_bind, guard_ok_iff, ne_eq, not_not,
    Option.not_isSome_iff_eq_none] at hdeclared
  exact ⟨hdeclared.1, hdeclared.2.1⟩

/-- **A direction is declared by a word that was read, or leads to one that was there.** -/
theorem tidyDirections_adds (hd : d.declarations.TidyDirections v) (h : d.Adds v op d')
    (hop : ∀ word, op.arguments = [word] → Tidy word) : d'.declarations.TidyDirections v := by
  cases h with
  | plain => exact hd
  | mentioning hused => exact (usesEntity_of_ok hused).declarations ▸ hd
  | entityClass hdeclared =>
    obtain ⟨rfl, -⟩ := declareClass_ok hdeclared
    exact hd
  | @direction _ word _ hdeclared hdefine =>
    subst hdefine
    obtain rfl := declareDirection_ok hdeclared
    intro other found hother
    change (d.declarations.addDirection word).resolveDirection v other = some found at hother
    rw [Declarations.resolveDirection_addDirection] at hother
    split at hother
    · exact Option.some.inj hother ▸ hop word rfl
    · exact hd other found hother
  | @directionSynonym _ direction word line hdeclared =>
    obtain ⟨hitself, hfree⟩ := resolved_of_declareDirectionSynonym hdeclared
    obtain rfl := declareDirectionSynonym_ok hdeclared
    intro other found hother
    change (d.declarations.addDirectionSynonym direction word).resolveDirection v other = some found
      at hother
    rw [Declarations.resolveDirection_addDirectionSynonym hfree] at hother
    split at hother
    · exact Option.some.inj hother ▸ hd _ _ hitself
    · exact hd other found hother
  | verbSynonym hdeclared =>
    obtain rfl := declareVerbSynonym_ok hdeclared
    exact hd

/-- Declaring an entity says nothing of directions. -/
theorem tidyDirections_declareEntity {index : Nat} (hd : d.declarations.TidyDirections v)
    (h : d.declareEntity name type className plural line = (.ok index, d')) :
    d'.declarations.TidyDirections v := by
  have hsame := sameWords_declareEntity d name type className plural line
  rw [h] at hsame
  intro word direction hword
  exact hd word direction ((hsame.resolveDirection v word).symm.trans hword)

/-! ### What is brought in -/

/-- A text is an argument of one of the operations. -/
def Holds (d : Draft) (text : String) : Prop :=
  ∃ op ∈ d.operations, text ∈ op.arguments

/-- The arguments of one of the operations come first. -/
theorem holds_iff_of_split {before after : List Operation}
    (h : d.operations = before ++ op :: after) (text : String) :
    d.Holds text ↔ text ∈ op.arguments ∨ ∃ other ∈ before ++ after, text ∈ other.arguments := by
  rw [Holds, h]
  simp only [List.perm_middle.mem_iff, List.exists_mem_cons_iff]

theorem not_holds_empty (text : String) : ¬ Draft.empty.Holds text := by
  rintro ⟨op, hop, -⟩
  cases hop

/-- What was held before is still held, some texts are taken as they are, and whatever else
is brought in is tidy. -/
structure Brings (d : Draft) (raw : List String) (d' : Draft) : Prop where
  placed : d'.Placed
  origin : ∀ text, d'.Holds text → d.Holds text ∨ text ∈ raw ∨ Tidy text
  holds : ∀ text, d.Holds text ∨ text ∈ raw → d'.Holds text

namespace Brings

theorem refl (hd : d.Placed) : d.Brings [] d :=
  ⟨hd, fun _ h => .inl h, fun _ h => h.resolve_right List.not_mem_nil⟩

theorem trans (h : d.Brings raw d') (h' : d'.Brings more d'') : d.Brings (raw ++ more) d'' := by
  refine ⟨h'.placed, ?_, ?_⟩
  · intro text htext
    rcases h'.origin text htext with hheld | hmore | htidy
    · rcases h.origin text hheld with hold | hraw | htidy
      · exact .inl hold
      · exact .inr (.inl (List.mem_append_left _ hraw))
      · exact .inr (.inr htidy)
    · exact .inr (.inl (List.mem_append_right _ hmore))
    · exact .inr (.inr htidy)
  · rintro text (hold | hraw)
    · exact h'.holds text (.inl (h.holds text (.inl hold)))
    · rcases List.mem_append.mp hraw with hraw | hmore
      · exact h'.holds text (.inl (h.holds text (.inr hraw)))
      · exact h'.holds text (.inr hmore)

/-- What is declared holds no texts. -/
theorem withDeclarations (h : d.Brings raw d') (declarations : Declarations) :
    d.Brings raw { d' with declarations } :=
  ⟨h.placed.withDeclarations declarations, h.origin, h.holds⟩

end Brings

/-- **Writing an operation brings in its arguments.** -/
theorem Placed.brings_write (hd : d.Placed)
    (harguments : ∀ text ∈ op.arguments, text ∈ raw ∨ Tidy text)
    (hraw : ∀ text ∈ raw, text ∈ op.arguments) : d.Brings raw (d.write op) := by
  have hholds : ∀ text, (d.write op).Holds text ↔ d.Holds text ∨ text ∈ op.arguments := by
    intro text
    simp [Holds, hd.operations_write, or_and_right, exists_or]
  refine ⟨hd.write op, ?_, ?_⟩
  · intro text htext
    exact ((hholds text).mp htext).imp_right (harguments text)
  · intro text htext
    exact (hholds text).mpr (htext.imp_right (hraw text))

/-- Writing an operation whose arguments are tidy brings in nothing else. -/
theorem Placed.brings_tidy (hd : d.Placed) (hop : ∀ text ∈ op.arguments, Tidy text) :
    d.Brings [] (d.write op) :=
  hd.brings_write (fun text htext => .inr (hop text htext)) nofun

theorem tidy_arguments_defineEntity (hname : Tidy name) (hclass : Tidy className) :
    ∀ text ∈ (Operation.defineEntity name type className plural line).arguments,
      text ∈ plural.toList ∨ Tidy text := by
  intro text htext
  rcases List.mem_append.mp htext with htext | htext
  · refine .inr ?_
    simp only [List.mem_cons, List.not_mem_nil, or_false] at htext
    rcases htext with rfl | rfl | rfl
    · exact hname
    · exact type.tidy_name
    · exact hclass
  · exact .inl htext

/-- **Using an entity brings in its name**, if it was not used before. -/
theorem Placed.brings_usesEntity (hd : d.Placed) (hname : Tidy name)
    (h : d.UsesEntity name type line d') : d.Brings [] d' := by
  have hplaced := hd.usesEntity h
  cases h with
  | declared => exact .refl hd
  | again => exact ⟨hplaced, (Brings.refl hd).origin, (Brings.refl hd).holds⟩
  | first =>
    have hwritten : d.Brings [] (d.write (.defineEntity name type type.name none line)) :=
      hd.brings_write (tidy_arguments_defineEntity hname type.tidy_name) nofun
    exact ⟨hplaced, hwritten.origin, hwritten.holds⟩

/-- **Declaring an entity brings in its name, its class and its plural**, of which the plural
may be untidy.  The definition that it may fill in keeps the texts that it has. -/
theorem Placed.brings_declareEntity {index : Nat} (hd : d.Placed) (hname : Tidy name)
    (hclass : Tidy className)
    (h : d.declareEntity name type className plural line = (.ok index, d')) :
    d.Brings plural.toList d' := by
  obtain ⟨hplaced, hdeclares⟩ := hd.declareEntity h
  have hsettled := hdeclares.operations
  generalize hops : d'.operations = ops at hsettled
  cases hsettled with
  | new =>
    have hwritten :
        d.Brings plural.toList (d.write (.defineEntity name type className plural line)) :=
      hd.brings_write (tidy_arguments_defineEntity hname hclass) fun text htext =>
        List.mem_append_right _ htext
    rw [← hd.operations_write] at hops
    exact ⟨hplaced, by simpa only [Holds, hops] using hwritten.origin,
      by simpa only [Holds, hops] using hwritten.holds⟩
  | @filled use before after first _ _ _ hold =>
    refine ⟨hplaced, ?_, ?_⟩
    · intro text htext
      rcases (holds_iff_of_split hops text).mp htext with hnew | hother
      · exact .inr (tidy_arguments_defineEntity hname hclass text hnew)
      · exact .inl ((holds_iff_of_split hold text).mpr (.inr hother))
    · rintro text (htext | htext)
      · refine (holds_iff_of_split hops text).mpr
          (((holds_iff_of_split hold text).mp htext).imp_left ?_)
        -- the bare type that stood for the class still stands for the type
        simp only [Operation.defineEntity, Option.toList_none, List.append_nil, List.mem_append,
          List.mem_cons, List.not_mem_nil, or_false]
        rintro (rfl | rfl | rfl) <;> simp
      · exact (holds_iff_of_split hops text).mpr (.inl (List.mem_append_right _ htext))

end Draft

end Adventure
