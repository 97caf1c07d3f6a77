/-
Editing a program.

Whoever writes a program pushes operations, and later replaces or adds arguments of those that
were pushed, known by the indices that they were given.  All of this happens in one arena.  Read
as a list of records, an operation with its index each, the program changes as one would write
it down: a push appends a record, and everything else changes one argument of one record.

What carries the induction over a history of calls is that every cell of the arena is in use,
once: as an operation below the root, or as an argument below one operation.  So no change can
reach a second record, and the cells form a tree.
-/
import Adventure.Proofs.Program
import Mathlib.Data.List.Perm.Basic

namespace Adventure

namespace Program

variable {p : Program} {index position : Nat} {text : String} {op : Operation}

/-! ### The arena as a tree -/

/-- The cells below an index: below the root the operations, below an operation its
arguments. -/
def childrenOf (p : Program) (index : Nat) : List Nat :=
  if index = 0 then p.root else p.argumentsOf index

/-- The cells are a tree of operations and their arguments. -/
structure IsTree (p : Program) : Prop where
  /-- Below the root there are operations. -/
  operations : ∀ i ∈ p.childrenOf 0, ∃ opcode line arguments,
    p.cell? i = some (.operation opcode line arguments)
  /-- Below an operation there are values. -/
  values : ∀ i ≠ 0, ∀ a ∈ p.childrenOf i, ∃ text line, p.cell? a = some (.value text line)
  /-- Every cell has a place below some other. -/
  placed : ∀ c, 0 < c → c < p.nextIndex → ∃ i, c ∈ p.childrenOf i
  /-- No cell has two places below others. -/
  unique : ∀ i j c, c ∈ p.childrenOf i → c ∈ p.childrenOf j → i = j
  /-- No cell stands twice below another. -/
  nodup : ∀ i, (p.childrenOf i).Nodup

/-- A well-formed program in which every cell is in use, once. -/
structure Full (p : Program) : Prop where
  wf : p.WF
  used : (p.root ++ p.root.flatMap p.argumentsOf).Perm (List.range' 1 p.cells.size)

theorem Full.mem_root_or_argument (hp : p.Full) {c : Nat} (hpos : 0 < c) (hlt : c < p.nextIndex) :
    c ∈ p.root ∨ ∃ i ∈ p.root, c ∈ p.argumentsOf i := by
  have hmem : c ∈ List.range' 1 p.cells.size := by
    rw [List.mem_range'_1]
    exact ⟨hpos, by rw [nextIndex] at hlt; omega⟩
  rw [← hp.used.mem_iff, List.mem_append, List.mem_flatMap] at hmem
  exact hmem

/-- Only what stands below the root has something below it. -/
theorem Full.mem_root_of_argument (hp : p.Full) {i a : Nat} (ha : a ∈ p.argumentsOf i) :
    i ∈ p.root := by
  unfold argumentsOf at ha
  split at ha
  · rename_i opcode line arguments hcell
    have hpos : 0 < i := by
      by_contra hzero
      rw [Nat.eq_zero_of_not_pos hzero] at hcell
      cases hcell
    rcases hp.mem_root_or_argument hpos (lt_nextIndex_of_cell? hcell) with hroot | ⟨j, hj, hi⟩
    · exact hroot
    · obtain ⟨_, _, _, hcell', hvalues⟩ := hp.wf.complete j hj
      rw [argumentsOf_of_cell? hcell'] at hi
      obtain ⟨_, _, hvalue⟩ := hvalues i hi
      cases hcell.symm.trans hvalue
  · cases ha

/-- **Where every cell is in use once, the cells are a tree.** -/
theorem Full.isTree (hp : p.Full) : p.IsTree := by
  have hnodup : (p.root ++ p.root.flatMap p.argumentsOf).Nodup :=
    hp.used.nodup_iff.mpr List.nodup_range'
  have happart : ∀ c ∈ p.root, ∀ i, c ∉ p.argumentsOf i := by
    intro c hc i hi
    exact List.disjoint_of_nodup_append hnodup hc
      (List.mem_flatMap.mpr ⟨i, hp.mem_root_of_argument hi, hi⟩)
  refine ⟨?_, ?_, ?_, ?_, ?_⟩
  · intro i hi
    obtain ⟨opcode, line, arguments, hcell, -⟩ := hp.wf.complete i hi
    exact ⟨opcode, line, arguments, hcell⟩
  · intro i hi a ha
    rw [childrenOf, if_neg hi] at ha
    obtain ⟨_, _, _, hcell, hvalues⟩ := hp.wf.complete i (hp.mem_root_of_argument ha)
    rw [argumentsOf_of_cell? hcell] at ha
    exact hvalues a ha
  · intro c hpos hlt
    rcases hp.mem_root_or_argument hpos hlt with hroot | ⟨i, hi, hc⟩
    · exact ⟨0, hroot⟩
    · have hne : i ≠ 0 := by
        rintro rfl
        cases hc
      exact ⟨i, by rwa [childrenOf, if_neg hne]⟩
  · intro i j c hi hj
    unfold childrenOf at hi hj
    split at hi <;> split at hj
    · omega
    · exact absurd hj (happart c hi j)
    · exact absurd hi (happart c hj i)
    · exact hp.wf.eq_of_mem_argumentsOf (hp.mem_root_of_argument hi) (hp.mem_root_of_argument hj)
        hi hj
  · intro i
    unfold childrenOf
    split
    · exact hp.wf.root_nodup
    · by_cases hi : i ∈ p.root
      · exact hp.wf.nodup_argumentsOf hi
      · rw [List.eq_nil_iff_forall_not_mem.mpr fun a ha => hi (hp.mem_root_of_argument ha)]
        exact List.nodup_nil

/-! ### Every cell stays in use -/

theorem Full.empty : empty.Full :=
  ⟨.empty, .refl _⟩

theorem size_push (p : Program) (op : Operation) :
    (p.push op).cells.size = p.cells.size + (op.arguments.length + 1) := by
  rw [cells_push]
  simp

theorem Full.push (hp : p.Full) (op : Operation) : (p.push op).Full := by
  refine ⟨hp.wf.push op, ?_⟩
  have hold : p.root.flatMap (p.push op).argumentsOf = p.root.flatMap p.argumentsOf :=
    List.flatMap_congr fun i hi => (hp.wf.complete i hi).argumentsOf_eq (extends_push p op)
  -- the new cells are the arguments in a row, and the operation behind them
  have hrange : List.range' 1 (p.push op).cells.size =
      List.range' 1 p.cells.size ++
        (List.range' p.nextIndex op.arguments.length ++ [p.indexAfter op]) := by
    rw [size_push, indexAfter, nextIndex, ← List.range'_1_concat, Nat.add_comm p.cells.size 1,
      List.range'_append_1]
  rw [hrange, root_push, List.flatMap_append, List.flatMap_singleton, hold,
    argumentsOf_of_cell? (cell?_push_operation p op), List.append_assoc]
  refine (List.perm_append_comm.append_left p.root).trans ?_
  rw [List.append_assoc, ← List.append_assoc p.root]
  exact hp.used.append_right _

theorem Full.setArgument (hp : p.Full) (hindex : index ∈ p.root) (position : Nat)
    (text : String) : (p.setArgument index position text).Full := by
  refine ⟨hp.wf.setArgument hindex position text, ?_⟩
  have hcells : (p.setArgument index position text).cells.size = p.cells.size := by
    unfold Program.setArgument setArgument?
    split
    · split
      · exact Array.size_setIfInBounds
      · rfl
    · rfl
  rw [hp.wf.root_setArgument hindex, hcells,
    List.flatMap_congr fun i hi => hp.wf.argumentsOf_setArgument hindex hi position text]
  exact hp.used

theorem size_pushArgument (hindex : p.Complete index) (text : String) :
    (p.pushArgument index text).cells.size = p.cells.size + 1 := by
  obtain ⟨opcode, line, arguments, hcell, -⟩ := hindex
  cases index with
  | zero => cases hcell
  | succ i => simp [pushArgument, addValue, hcell]

theorem Full.pushArgument (hp : p.Full) (hindex : index ∈ p.root) (text : String) :
    (p.pushArgument index text).Full := by
  refine ⟨hp.wf.pushArgument hindex text, ?_⟩
  have harguments : p.root.flatMap (p.pushArgument index text).argumentsOf =
      p.root.flatMap fun i => p.argumentsOf i ++ if i = index then [p.nextIndex] else [] :=
    List.flatMap_congr fun i hi => hp.wf.argumentsOf_pushArgument hindex hi text
  -- the new cell stands below one operation
  have hnew : p.root.flatMap (fun i => if i = index then [p.nextIndex] else []) =
      [p.nextIndex] := by
    obtain ⟨before, after, hroot⟩ := List.append_of_mem hindex
    have hnodup := hp.wf.root_nodup
    rw [hroot, List.nodup_middle, List.nodup_cons] at hnodup
    have hnone : ∀ l : List Nat, (∀ i ∈ l, i ∈ before ++ after) →
        l.flatMap (fun i => if i = index then [p.nextIndex] else []) = [] := by
      intro l hl
      refine List.flatMap_eq_nil_iff.mpr fun i hi => if_neg ?_
      rintro rfl
      exact hnodup.1 (hl i hi)
    rw [hroot, List.flatMap_append, List.flatMap_cons, if_pos rfl,
      hnone before fun i hi => List.mem_append_left _ hi,
      hnone after fun i hi => List.mem_append_right _ hi]
    rfl
  rw [hp.wf.root_pushArgument hindex, harguments, size_pushArgument (hp.wf.complete index hindex),
    List.range'_1_concat, Nat.add_comm 1]
  refine ((List.flatMap_append_perm ..).symm.append_left p.root).trans ?_
  rw [hnew, ← List.append_assoc]
  exact hp.used.append_right _

/-! ### Records -/

/-- An operation with the index that it was given. -/
structure Record where
  index : Nat
  operation : Operation
  deriving DecidableEq, Repr

/-- The operations of a program with their indices, in the order written. -/
def records (p : Program) : List Record :=
  p.root.filterMap fun i => (p.operation? i).map (⟨i, ·⟩)

/-- Changes the operation in the record of an index. -/
def amend (rs : List Record) (index : Nat) (f : Operation → Operation) : List Record :=
  rs.map fun r => if r.index = index then { r with operation := f r.operation } else r

theorem operations_eq_records (p : Program) : p.operations = p.records.map (·.operation) := by
  rw [operations, records, List.map_filterMap]
  congr 1
  funext i
  cases p.operation? i <;> rfl

theorem WF.exists_operation (hp : p.WF) (hindex : index ∈ p.root) :
    ∃ op, p.operation? index = some op := by
  obtain ⟨opcode, line, arguments, hcell, -⟩ := hp.complete index hindex
  exact ⟨_, operation?_of_cell? hcell⟩

/-- Every operation below the root has its record. -/
theorem WF.root_eq_records (hp : p.WF) : p.root = p.records.map (·.index) := by
  rw [records, List.map_filterMap]
  calc p.root = p.root.filterMap some := List.filterMap_some.symm
    _ = p.root.filterMap _ := List.filterMap_congr fun i hi => by
      obtain ⟨op, hop⟩ := hp.exists_operation hi
      rw [hop]
      rfl

theorem mem_records_iff {r : Record} :
    r ∈ p.records ↔ r.index ∈ p.root ∧ p.operation? r.index = some r.operation := by
  rw [records, List.mem_filterMap]
  constructor
  · rintro ⟨i, hi, hr⟩
    obtain ⟨op, hop, rfl⟩ := Option.map_eq_some_iff.mp hr
    exact ⟨hi, hop⟩
  · rintro ⟨hi, hop⟩
    exact ⟨r.index, hi, by rw [hop]; rfl⟩

theorem WF.records_push (hp : p.WF) (op : Operation) :
    (p.push op).records = p.records ++ [⟨p.indexAfter op, op⟩] := by
  rw [records, root_push, List.filterMap_append, records]
  congr 1
  · exact List.filterMap_congr fun i hi => by rw [hp.operation?_push_of_mem op hi]
  · simp [operation?_push]

/-- Where one operation is changed, so is its record. -/
theorem records_amended {q : Program} {f : Operation → Operation} (hroot : q.root = p.root)
    (hops : ∀ i ∈ p.root, q.operation? i =
      (p.operation? i).map fun op => if i = index then f op else op) :
    q.records = amend p.records index f := by
  rw [records, hroot, amend, records, List.map_filterMap]
  refine List.filterMap_congr fun i hi => ?_
  rw [hops i hi, Option.map_map, Option.map_map]
  congr 1
  funext op
  by_cases hii : i = index <;> simp [hii]

theorem WF.records_setArgument (hp : p.WF) (hindex : index ∈ p.root) (position : Nat)
    (text : String) : (p.setArgument index position text).records =
      amend p.records index fun op => { op with arguments := op.arguments.set position text } :=
  records_amended (hp.root_setArgument hindex position text) fun _ hi =>
    hp.operation?_setArgument hindex hi position text

theorem WF.records_pushArgument (hp : p.WF) (hindex : index ∈ p.root) (text : String) :
    (p.pushArgument index text).records =
      amend p.records index fun op => { op with arguments := op.arguments ++ [text] } :=
  records_amended (hp.root_pushArgument hindex text) fun _ hi =>
    hp.operation?_pushArgument hindex hi text

/-- **An argument is replaced just if the operation has it.** -/
theorem WF.setArgument?_eq (hp : p.WF) {r : Record} (hr : r ∈ p.records) (position : Nat)
    (text : String) : p.setArgument? r.index position text =
      if position < r.operation.arguments.length then some (p.setArgument r.index position text)
      else none := by
  obtain ⟨hindex, hop⟩ := mem_records_iff.mp hr
  obtain ⟨opcode, line, arguments, hcell, hvalues⟩ := hp.complete r.index hindex
  rw [operation?_of_cell? hcell, Option.some.injEq] at hop
  have hlength : r.operation.arguments.length = arguments.length := by
    rw [← hop]
    exact List.length_map _
  rw [hlength]
  split
  · rename_i hlt
    obtain ⟨old, l, hvalue⟩ := hvalues _ (List.getElem_mem hlt)
    have hsome : (p.setArgument? r.index position text).isSome = true := by
      rw [setArgument?, argumentsOf_of_cell? hcell, List.getElem?_eq_getElem hlt]
      cases ha : arguments[position] with
      | zero =>
        rw [ha] at hvalue
        cases hvalue
      | succ a =>
        rw [ha, cell?_succ] at hvalue
        simp [hvalue]
    obtain ⟨q, hq⟩ := Option.isSome_iff_exists.mp hsome
    rw [Program.setArgument, hq, Option.getD_some]
  · rename_i hge
    rw [setArgument?, argumentsOf_of_cell? hcell, List.getElem?_eq_none (Nat.le_of_not_lt hge)]

/-! ### Calls -/

/-- A call that edits a program. -/
inductive Edit where
  | push (op : Operation)
  | setArgument (index position : Nat) (text : String)
  | pushArgument (index : Nat) (text : String)
  deriving DecidableEq, Repr

/-- What a call answers. -/
inductive Answer where
  /-- The operation that was pushed has this index. -/
  | pushed (index : Nat)
  /-- Whether there was an argument to replace. -/
  | replaced (found : Bool)
  | added
  deriving DecidableEq, Repr

/-- What a call answers, and the program that it leaves. -/
def edit (p : Program) : Edit → Answer × Program
  | .push op => (.pushed (p.indexAfter op), p.push op)
  | .setArgument index position text =>
    match p.setArgument? index position text with
    | some q => (.replaced true, q)
    | none => (.replaced false, p)
  | .pushArgument index text => (.added, p.pushArgument index text)

/-- The index of the operation that a call changes. -/
def Edit.index? : Edit → Option Nat
  | push _ => none
  | setArgument index _ _ | pushArgument index _ => some index

/-- Calls made one after another on a new program, with their answers, and the program that
they left.  An operation is known by an index that a push answered before. -/
inductive Edited : List (Edit × Answer) → Program → Prop
  | new : Edited [] .empty
  | call {history : List (Edit × Answer)} {p : Program} (h : Edited history p) (e : Edit)
    (hindex : ∀ i, e.index? = some i → ∃ op, (.push op, .pushed i) ∈ history) :
    Edited (history ++ [(e, (p.edit e).1)]) (p.edit e).2

/-- What a call makes of a list of records, as its answer tells. -/
def write (rs : List Record) : Edit × Answer → List Record
  | (.push op, .pushed index) => rs ++ [⟨index, op⟩]
  | (.setArgument index position text, .replaced true) =>
    amend rs index fun op => { op with arguments := op.arguments.set position text }
  | (.pushArgument index text, .added) =>
    amend rs index fun op => { op with arguments := op.arguments ++ [text] }
  | _ => rs

variable {history : List (Edit × Answer)}

/-- A program is full, and reads as its history says. -/
structure ReadsAs (history : List (Edit × Answer)) (p : Program) : Prop where
  full : p.Full
  records : p.records = history.foldl write []
  given : ∀ i, i ∈ p.root ↔ ∃ op, (.push op, .pushed i) ∈ history

theorem ReadsAs.new : ReadsAs [] .empty :=
  ⟨.empty, rfl, fun _ => by simp [Program.empty]⟩

/-- A call that pushes nothing gives no index. -/
theorem ReadsAs.given_concat (h : ReadsAs history p) {e : Edit} {answer : Answer} {i : Nat}
    (he : ∀ op, e ≠ .push op) :
    i ∈ p.root ↔ ∃ op, (.push op, .pushed i) ∈ history ++ [(e, answer)] := by
  rw [h.given]
  refine exists_congr fun op => ?_
  rw [List.mem_append, List.mem_singleton]
  exact ⟨.inl, fun hor => hor.resolve_right fun hlast => he op (Prod.mk.inj hlast).1.symm⟩

/-- **One call changes the records as it answers.** -/
theorem ReadsAs.call (h : ReadsAs history p) (e : Edit)
    (hindex : ∀ i, e.index? = some i → ∃ op, (.push op, .pushed i) ∈ history) :
    ReadsAs (history ++ [(e, (p.edit e).1)]) (p.edit e).2 := by
  have hwf := h.full.wf
  cases e with
  | push op =>
    refine ⟨h.full.push op, ?_, ?_⟩
    · rw [List.foldl_concat, ← h.records]
      exact hwf.records_push op
    · intro i
      have hroot : i ∈ (p.push op).root ↔ i ∈ p.root ∨ i = p.indexAfter op := by
        rw [root_push, List.mem_append, List.mem_singleton]
      refine hroot.trans ?_
      rw [h.given]
      constructor
      · rintro (⟨other, hother⟩ | rfl)
        · exact ⟨other, List.mem_append_left _ hother⟩
        · exact ⟨op, List.mem_append_right _ (List.mem_singleton_self _)⟩
      · rintro ⟨other, hother⟩
        rcases List.mem_append.mp hother with hother | hother
        · exact .inl ⟨other, hother⟩
        · exact .inr (Answer.pushed.inj (Prod.mk.inj (List.mem_singleton.mp hother)).2)
  | setArgument index position text =>
    have hroot : index ∈ p.root := (h.given index).mpr (hindex index rfl)
    obtain ⟨op, hop⟩ := hwf.exists_operation hroot
    have hset := hwf.setArgument?_eq (mem_records_iff (r := ⟨index, op⟩).mpr ⟨hroot, hop⟩)
      position text
    by_cases hposition : position < op.arguments.length
    · have hedit : p.edit (.setArgument index position text) =
          (.replaced true, p.setArgument index position text) := by
        rw [edit, hset, if_pos hposition]
      rw [hedit]
      refine ⟨h.full.setArgument hroot position text, ?_, ?_⟩
      · rw [List.foldl_concat, ← h.records]
        exact hwf.records_setArgument hroot position text
      · intro i
        rw [hwf.root_setArgument hroot]
        exact h.given_concat nofun
    · have hedit : p.edit (.setArgument index position text) = (.replaced false, p) := by
        rw [edit, hset, if_neg hposition]
      rw [hedit]
      refine ⟨h.full, ?_, fun i => h.given_concat nofun⟩
      rw [List.foldl_concat, ← h.records]
      rfl
  | pushArgument index text =>
    have hroot : index ∈ p.root := (h.given index).mpr (hindex index rfl)
    refine ⟨h.full.pushArgument hroot text, ?_, ?_⟩
    · rw [List.foldl_concat, ← h.records]
      exact hwf.records_pushArgument hroot text
    · intro i
      refine Iff.trans ?_ (h.given_concat nofun)
      exact iff_of_eq (congrArg (i ∈ ·) (hwf.root_pushArgument hroot text))

theorem Edited.readsAs (h : Edited history p) : ReadsAs history p := by
  induction h with
  | new => exact .new
  | call _ e hindex ih => exact ih.call e hindex

/-- **A program is edited as a list of records.**  After any calls, in which operations are known
by the indices that they were given, the program reads as the calls say: every push has appended
a record with its index, every replacement that was answered with true has replaced one argument
in one record, and every addition has added one argument to one record; no two records have the
same index.  A replacement is answered with true just if the operation has the argument, and
changes nothing otherwise.  And the cells are a tree of operations and their arguments. -/
theorem reads_as_edited (h : Edited history p) :
    p.records = history.foldl write [] ∧
      p.operations = p.records.map (·.operation) ∧
      (p.records.map (·.index)).Nodup ∧
      (∀ i, (∃ op, (.push op, .pushed i) ∈ history) ↔ i ∈ p.records.map (·.index)) ∧
      (∀ r ∈ p.records, ∀ position text,
        (position < r.operation.arguments.length →
          (p.edit (.setArgument r.index position text)).1 = .replaced true) ∧
        (r.operation.arguments.length ≤ position →
          p.edit (.setArgument r.index position text) = (.replaced false, p))) ∧
      p.IsTree := by
  have hreads := h.readsAs
  have hwf := hreads.full.wf
  refine ⟨hreads.records, p.operations_eq_records, ?_, ?_, ?_, hreads.full.isTree⟩
  · rw [← hwf.root_eq_records]
    exact hwf.root_nodup
  · intro i
    rw [← hwf.root_eq_records, hreads.given]
  · intro r hr position text
    have hset := hwf.setArgument?_eq hr position text
    constructor
    · intro hposition
      rw [edit, hset, if_pos hposition]
    · intro hposition
      rw [edit, hset, if_neg (Nat.not_lt.mpr hposition)]

/-- A cave that becomes a grotto, and gets a plural behind it: the cells are four at first, so
that the operation has the index four, and there is no seventh argument. -/
theorem cave_becomes_grotto : ∃ p : Program,
    Edited [(.push (.defineEntity "cave" .room "room" none 1), .pushed 4),
      (.setArgument 4 2 "grotto", .replaced true), (.setArgument 4 7 "hall", .replaced false),
      (.pushArgument 4 "caves", .added)] p ∧
    p.records = [⟨4, ⟨.defineEntity, ["cave", "room", "grotto", "caves"], 1⟩⟩] ∧
    p.IsTree := by
  have hknown : ∀ {history : List (Edit × Answer)}, ∀ i, some 4 = some i →
      ∃ op, (.push op, .pushed i) ∈
        (Edit.push (.defineEntity "cave" .room "room" none 1), Answer.pushed 4) :: history := by
    rintro history _ ⟨⟩
    exact ⟨_, List.mem_cons_self⟩
  have h := (((Edited.new.call (.push (.defineEntity "cave" .room "room" none 1)) nofun).call
    (.setArgument 4 2 "grotto") hknown).call (.setArgument 4 7 "hall") hknown).call
    (.pushArgument 4 "caves") hknown
  obtain ⟨hrecords, -, -, -, -, htree⟩ := reads_as_edited h
  exact ⟨_, h, hrecords, htree⟩

end Program

end Adventure
