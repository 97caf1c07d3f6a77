/-
What is written stays written.

A program only grows: a cell that is there keeps its index and what it holds, except
that an argument can be replaced or added.  No cell is an argument of two operations or
an argument twice, so such a change concerns one argument of one operation.  Read as a
list of operations, a program then behaves as one would expect: pushing appends, and
everything else changes one entry.
-/
import Adventure.Program
import Mathlib.Data.List.Basic
import Mathlib.Data.List.Nodup
import Mathlib.Data.List.Pairwise

namespace Adventure

namespace Program

variable {p q : Program} {op : Operation} {index : Nat}

theorem cell?_succ (p : Program) (i : Nat) : p.cell? (i + 1) = p.cells[i]? :=
  rfl

theorem lt_nextIndex_of_cell? {cell : Cell} (h : p.cell? index = some cell) :
    index < p.nextIndex := by
  cases index with
  | zero => simp [cell?] at h
  | succ i =>
    obtain ⟨hlt, -⟩ := Array.getElem?_eq_some_iff.mp h
    exact Nat.succ_lt_succ hlt

/-! ### Complete programs -/

/-- An operation is there in full: so are all its arguments, which are values. -/
def Complete (p : Program) (index : Nat) : Prop :=
  ∃ opcode line arguments, p.cell? index = some (.operation opcode line arguments) ∧
    ∀ a ∈ arguments, ∃ text l, p.cell? a = some (.value text l)

/-- Every operation is there in full, and no argument is shared. -/
structure WF (p : Program) : Prop where
  complete : ∀ i ∈ p.root, p.Complete i
  root_nodup : p.root.Nodup
  arguments_nodup : (p.root.flatMap p.argumentsOf).Nodup

theorem WF.empty : empty.WF :=
  ⟨by simp [Program.empty], List.nodup_nil, List.nodup_nil⟩

/-- Every cell of a program is in the other as well. -/
def Extends (p q : Program) : Prop :=
  ∀ i cell, p.cell? i = some cell → q.cell? i = some cell

theorem operation?_of_cell? {opcode : Opcode} {line : Nat} {arguments : List Nat}
    (h : p.cell? index = some (.operation opcode line arguments)) :
    p.operation? index = some ⟨opcode, arguments.map p.textAt, line⟩ := by
  simp [operation?, h]

theorem argumentsOf_of_cell? {opcode : Opcode} {line : Nat} {arguments : List Nat}
    (h : p.cell? index = some (.operation opcode line arguments)) :
    p.argumentsOf index = arguments := by
  simp [argumentsOf, h]

theorem textAt_of_cell? {text : String} {line : Nat}
    (h : p.cell? index = some (.value text line)) : p.textAt index = text := by
  simp [textAt, h]

theorem Complete.of_extends (h : p.Complete index) (hpq : p.Extends q) : q.Complete index := by
  obtain ⟨opcode, line, arguments, hcell, hvalues⟩ := h
  refine ⟨opcode, line, arguments, hpq _ _ hcell, ?_⟩
  intro a ha
  obtain ⟨text, l, hvalue⟩ := hvalues a ha
  exact ⟨text, l, hpq _ _ hvalue⟩

/-- A complete operation reads the same in every program that has its cells. -/
theorem Complete.operation?_eq (h : p.Complete index) (hpq : p.Extends q) :
    q.operation? index = p.operation? index := by
  obtain ⟨opcode, line, arguments, hcell, hvalues⟩ := h
  rw [operation?_of_cell? hcell, operation?_of_cell? (hpq _ _ hcell)]
  have htexts : arguments.map q.textAt = arguments.map p.textAt := by
    refine List.map_congr_left ?_
    intro a ha
    obtain ⟨text, l, hvalue⟩ := hvalues a ha
    rw [textAt_of_cell? hvalue, textAt_of_cell? (hpq _ _ hvalue)]
  rw [htexts]

theorem Complete.argumentsOf_eq (h : p.Complete index) (hpq : p.Extends q) :
    q.argumentsOf index = p.argumentsOf index := by
  obtain ⟨opcode, line, arguments, hcell, -⟩ := h
  rw [argumentsOf_of_cell? hcell, argumentsOf_of_cell? (hpq _ _ hcell)]

theorem Complete.lt_nextIndex (h : p.Complete index) : index < p.nextIndex := by
  obtain ⟨opcode, line, arguments, hcell, -⟩ := h
  exact lt_nextIndex_of_cell? hcell

theorem Complete.argument_lt (h : p.Complete index) {a : Nat} (ha : a ∈ p.argumentsOf index) :
    a < p.nextIndex := by
  obtain ⟨opcode, line, arguments, hcell, hvalues⟩ := h
  rw [argumentsOf_of_cell? hcell] at ha
  obtain ⟨text, l, hvalue⟩ := hvalues a ha
  exact lt_nextIndex_of_cell? hvalue

/-! ### Appending an operation -/

theorem cells_foldl_addValue (texts : List String) (line : Nat) :
    (texts.foldl (fun q text => q.addValue text line) p).cells =
      p.cells ++ (texts.map (Cell.value · line)).toArray := by
  induction texts generalizing p with
  | nil => simp
  | cons text rest ih => rw [List.foldl_cons, ih]; simp [addValue]

theorem cells_push (p : Program) (op : Operation) :
    (p.push op).cells = p.cells ++
      (op.arguments.map (Cell.value · op.line) ++
        [Cell.operation op.opcode op.line
          (List.range' p.nextIndex op.arguments.length)]).toArray := by
  simp [push, cells_foldl_addValue]

theorem extends_push (p : Program) (op : Operation) : p.Extends (p.push op) := by
  intro i cell h
  cases i with
  | zero => simp [cell?] at h
  | succ i =>
    rw [cell?_succ] at h ⊢
    obtain ⟨hlt, -⟩ := Array.getElem?_eq_some_iff.mp h
    rw [cells_push, Array.getElem?_append_left hlt, h]

theorem cell?_push_argument (p : Program) (op : Operation) {k : Nat}
    (hk : k < op.arguments.length) :
    (p.push op).cell? (p.nextIndex + k) = some (.value op.arguments[k] op.line) := by
  rw [nextIndex, Nat.add_right_comm, cell?_succ, cells_push, Array.getElem?_append_right (by omega)]
  simp [List.getElem?_append, hk]

theorem cell?_push_operation (p : Program) (op : Operation) :
    (p.push op).cell? (p.indexAfter op) =
      some (.operation op.opcode op.line (List.range' p.nextIndex op.arguments.length)) := by
  rw [indexAfter, nextIndex, Nat.add_right_comm, cell?_succ, cells_push,
    Array.getElem?_append_right (by omega)]
  simp [nextIndex]

theorem operation?_push (p : Program) (op : Operation) :
    (p.push op).operation? (p.indexAfter op) = some op := by
  rw [operation?_of_cell? (cell?_push_operation p op)]
  have htexts : (List.range' p.nextIndex op.arguments.length).map (p.push op).textAt =
      op.arguments := by
    refine List.ext_getElem (by simp) ?_
    intro k hk hk'
    rw [List.getElem_map, List.getElem_range', Nat.one_mul]
    exact textAt_of_cell? (cell?_push_argument p op hk')
  rw [htexts]

theorem complete_push (p : Program) (op : Operation) : (p.push op).Complete (p.indexAfter op) := by
  refine ⟨_, _, _, cell?_push_operation p op, fun a ha => ?_⟩
  obtain ⟨k, hk, rfl⟩ := List.mem_range'.mp ha
  rw [Nat.one_mul]
  exact ⟨_, _, cell?_push_argument p op hk⟩

theorem root_push (p : Program) (op : Operation) : (p.push op).root = p.root ++ [p.indexAfter op] :=
  rfl

/-- The operations that were there stay as they are. -/
theorem WF.operation?_push_of_mem (hp : p.WF) (op : Operation) {i : Nat} (hi : i ∈ p.root) :
    (p.push op).operation? i = p.operation? i :=
  (hp.complete i hi).operation?_eq (extends_push p op)

/-- **Pushing an operation appends it.** -/
theorem WF.operations_push (hp : p.WF) (op : Operation) :
    (p.push op).operations = p.operations ++ [op] := by
  rw [operations, root_push, List.filterMap_append, operations]
  congr 1
  · exact List.filterMap_congr fun i hi => hp.operation?_push_of_mem op hi
  · simp [operation?_push]

theorem WF.push (hp : p.WF) (op : Operation) : (p.push op).WF := by
  have hold : ∀ i ∈ p.root, (p.push op).argumentsOf i = p.argumentsOf i := fun i hi =>
    (hp.complete i hi).argumentsOf_eq (extends_push p op)
  have hnew : (p.push op).argumentsOf (p.indexAfter op) =
      List.range' p.nextIndex op.arguments.length :=
    argumentsOf_of_cell? (cell?_push_operation p op)
  refine ⟨?_, ?_, ?_⟩
  · intro i hi
    rw [root_push, List.mem_append, List.mem_singleton] at hi
    rcases hi with hi | rfl
    · exact (hp.complete i hi).of_extends (extends_push p op)
    · exact complete_push p op
  · rw [root_push, List.nodup_append]
    refine ⟨hp.root_nodup, List.nodup_singleton _, ?_⟩
    intro i hi j hj
    have hlt := (hp.complete i hi).lt_nextIndex
    rw [List.mem_singleton.mp hj, indexAfter]
    omega
  · rw [root_push, List.flatMap_append, List.flatMap_singleton, hnew, List.flatMap_congr hold,
      List.nodup_append]
    refine ⟨hp.arguments_nodup, List.nodup_range', ?_⟩
    intro a ha b hb
    obtain ⟨i, hi, hai⟩ := List.mem_flatMap.mp ha
    have hlt := (hp.complete i hi).argument_lt hai
    have := (List.mem_range'_1.mp hb).1
    omega

/-! ### Changing an operation later -/

theorem WF.nodup_argumentsOf (hp : p.WF) {i : Nat} (hi : i ∈ p.root) :
    (p.argumentsOf i).Nodup :=
  (List.nodup_flatMap.mp hp.arguments_nodup).1 i hi

/-- An argument belongs to one operation only. -/
theorem WF.eq_of_mem_argumentsOf (hp : p.WF) {i j a : Nat} (hi : i ∈ p.root) (hj : j ∈ p.root)
    (hai : a ∈ p.argumentsOf i) (haj : a ∈ p.argumentsOf j) : i = j := by
  by_contra hne
  have hpairs := (List.nodup_flatMap.mp hp.arguments_nodup).2
  have : Std.Symm (Function.onFun List.Disjoint p.argumentsOf) :=
    ⟨fun _ _ hdisjoint => List.disjoint_symm hdisjoint⟩
  exact hpairs.forall hi hj hne hai haj

/-- Replacing an argument changes the text in its cell and nothing else. -/
theorem Complete.setArgument_cases (h : p.Complete index) (position : Nat) (text : String) :
    (p.argumentsOf index).length ≤ position ∧ p.setArgument index position text = p ∨
      ∃ a old line, (p.argumentsOf index)[position]? = some a ∧
        p.cell? a = some (.value old line) ∧
        (p.setArgument index position text).root = p.root ∧
        ∀ i, (p.setArgument index position text).cell? i =
          if i = a then some (.value text line) else p.cell? i := by
  obtain ⟨opcode, l, arguments, hcell, hvalues⟩ := h
  rw [argumentsOf_of_cell? hcell]
  cases hargument : arguments[position]? with
  | none =>
    refine Or.inl ⟨List.getElem?_eq_none_iff.mp hargument, ?_⟩
    simp [setArgument, setArgument?, argumentsOf_of_cell? hcell, hargument]
  | some a =>
    obtain ⟨old, line, hvalue⟩ := hvalues a (List.mem_of_getElem? hargument)
    refine Or.inr ⟨a, old, line, rfl, hvalue, ?_⟩
    cases a with
    | zero => simp [cell?] at hvalue
    | succ k =>
      rw [cell?_succ] at hvalue
      obtain ⟨hlt, -⟩ := Array.getElem?_eq_some_iff.mp hvalue
      have hset : p.setArgument index position text =
          { p with cells := p.cells.setIfInBounds k (.value text line) } := by
        simp [setArgument, setArgument?, argumentsOf_of_cell? hcell, hargument, hvalue]
      rw [hset]
      refine ⟨rfl, ?_⟩
      intro i
      cases i with
      | zero => rfl
      | succ i =>
        simp only [cell?_succ, Array.getElem?_setIfInBounds, Nat.add_right_cancel_iff, hlt, if_true]
        by_cases hik : i = k
        · rw [if_pos hik, if_pos hik.symm]
        · rw [if_neg hik, if_neg (Ne.symm hik)]

theorem WF.root_setArgument (hp : p.WF) (hindex : index ∈ p.root) (position : Nat)
    (text : String) : (p.setArgument index position text).root = p.root := by
  rcases (hp.complete index hindex).setArgument_cases position text with
    ⟨-, h⟩ | ⟨-, -, -, -, -, hroot, -⟩
  · rw [h]
  · exact hroot

/-- The cell of an operation is none of those that replacing an argument changes. -/
theorem Complete.operation_setArgument (h : p.Complete index) {i line : Nat} {opcode : Opcode}
    {arguments : List Nat} (hi : p.cell? i = some (.operation opcode line arguments))
    (position : Nat) (text : String) :
    (p.setArgument index position text).cell? i = some (.operation opcode line arguments) := by
  rcases h.setArgument_cases position text with ⟨-, hsame⟩ | ⟨a, old, l, -, hold, -, hcells⟩
  · rw [hsame, hi]
  · have hne : i ≠ a := fun hia => by simp [hia ▸ hi] at hold
    rw [hcells, if_neg hne, hi]

theorem WF.argumentsOf_setArgument (hp : p.WF) (hindex : index ∈ p.root) {i : Nat}
    (hi : i ∈ p.root) (position : Nat) (text : String) :
    (p.setArgument index position text).argumentsOf i = p.argumentsOf i := by
  obtain ⟨opcode, l, arguments, hcell, -⟩ := hp.complete i hi
  rw [argumentsOf_of_cell? hcell,
    argumentsOf_of_cell? ((hp.complete index hindex).operation_setArgument hcell position text)]

theorem WF.setArgument (hp : p.WF) (hindex : index ∈ p.root) (position : Nat) (text : String) :
    (p.setArgument index position text).WF := by
  have hcomplete := hp.complete index hindex
  rcases hcomplete.setArgument_cases position text with
    ⟨-, h⟩ | ⟨a, old, line, -, hold, hroot, hcells⟩
  · rw [h]
    exact hp
  refine ⟨?_, ?_, ?_⟩
  · rw [hroot]
    intro i hi
    obtain ⟨opcode, l, arguments, hcell, hvalues⟩ := hp.complete i hi
    refine ⟨opcode, l, arguments, hcomplete.operation_setArgument hcell position text, ?_⟩
    intro b hb
    rw [hcells]
    by_cases hba : b = a
    · exact ⟨text, line, if_pos hba⟩
    · rw [if_neg hba]
      exact hvalues b hb
  · rw [hroot]
    exact hp.root_nodup
  · rw [hroot,
      List.flatMap_congr fun i hi => hp.argumentsOf_setArgument hindex hi position text]
    exact hp.arguments_nodup

/-- **Replacing an argument changes that argument of that operation.** -/
theorem WF.operation?_setArgument (hp : p.WF) (hindex : index ∈ p.root) {i : Nat}
    (hi : i ∈ p.root) (position : Nat) (text : String) :
    (p.setArgument index position text).operation? i = (p.operation? i).map fun op =>
      if i = index then { op with arguments := op.arguments.set position text } else op := by
  obtain ⟨opcode, l, arguments, hcell, hvalues⟩ := hp.complete i hi
  have hargs := argumentsOf_of_cell? hcell
  rw [operation?_of_cell? hcell, Option.map_some]
  rcases (hp.complete index hindex).setArgument_cases position text with
    ⟨hlength, h⟩ | ⟨a, old, line, ha, hold, hroot, hcells⟩
  · rw [h, operation?_of_cell? hcell]
    by_cases hii : i = index
    · rw [← hii, hargs] at hlength
      rw [if_pos hii, List.set_eq_of_length_le (by simpa using hlength)]
    · rw [if_neg hii]
  have hne : i ≠ a := fun h => by simp [h ▸ hcell] at hold
  have htext : ∀ b ∈ arguments, (p.setArgument index position text).textAt b =
      if b = a then text else p.textAt b := by
    intro b hb
    rw [textAt, hcells]
    by_cases hba : b = a
    · rw [if_pos hba, if_pos hba]
    · rw [if_neg hba, if_neg hba, textAt]
  rw [operation?_of_cell? ((hcells i).trans (by rw [if_neg hne, hcell]))]
  by_cases hii : i = index
  · subst hii
    rw [if_pos rfl]
    rw [hargs] at ha
    have hnodup : arguments.Nodup := hargs ▸ hp.nodup_argumentsOf hi
    congr 2
    refine List.ext_getElem (by simp) ?_
    intro k hk hk'
    rw [List.getElem_map, List.getElem_set, List.getElem_map, htext _ (List.getElem_mem _)]
    obtain ⟨hposition, rfl⟩ := List.getElem?_eq_some_iff.mp ha
    by_cases hkp : k = position
    · subst hkp
      rw [if_pos rfl, if_pos rfl]
    · rw [if_neg (Ne.symm hkp), if_neg (fun h => hkp ((hnodup.getElem_inj_iff).mp h))]
  · rw [if_neg hii]
    congr 2
    refine List.map_congr_left ?_
    intro b hb
    have hba : b ≠ a := by
      rintro rfl
      exact hii (hp.eq_of_mem_argumentsOf hi hindex (hargs ▸ hb) (List.mem_of_getElem? ha))
    rw [htext b hb, if_neg hba]

/-- Adding an argument adds one cell, and changes that of the operation. -/
theorem Complete.pushArgument_spec (h : p.Complete index) (text : String) :
    ∃ opcode line arguments, p.cell? index = some (.operation opcode line arguments) ∧
      (p.pushArgument index text).root = p.root ∧
      ∀ i, (p.pushArgument index text).cell? i =
        if i = index then some (.operation opcode line (arguments ++ [p.nextIndex]))
        else if i = p.nextIndex then some (.value text line) else p.cell? i := by
  obtain ⟨opcode, line, arguments, hcell, -⟩ := h
  refine ⟨opcode, line, arguments, hcell, ?_⟩
  cases index with
  | zero => simp [cell?] at hcell
  | succ k =>
    have hpush : p.pushArgument (k + 1) text =
        { p with
          cells := (p.cells.push (.value text line)).setIfInBounds k
            (.operation opcode line (arguments ++ [p.nextIndex])) } := by
      simp [pushArgument, addValue, hcell]
    rw [cell?_succ] at hcell
    obtain ⟨hlt, -⟩ := Array.getElem?_eq_some_iff.mp hcell
    rw [hpush]
    refine ⟨rfl, ?_⟩
    intro i
    cases i with
    | zero => rfl
    | succ i =>
      have hlast : k < p.cells.size + 1 := by omega
      simp only [cell?_succ, nextIndex, Nat.add_right_cancel_iff, Array.getElem?_setIfInBounds,
        Array.getElem?_push, Array.size_push, hlast, if_true]
      by_cases hik : i = k
      · rw [if_pos hik, if_pos hik.symm]
      · rw [if_neg hik, if_neg (Ne.symm hik)]

theorem WF.root_pushArgument (hp : p.WF) (hindex : index ∈ p.root) (text : String) :
    (p.pushArgument index text).root = p.root := by
  obtain ⟨-, -, -, -, hroot, -⟩ := (hp.complete index hindex).pushArgument_spec text
  exact hroot

theorem Complete.value_pushArgument (h : p.Complete index) {a line : Nat} {old : String}
    (ha : p.cell? a = some (.value old line)) (text : String) :
    (p.pushArgument index text).cell? a = some (.value old line) := by
  obtain ⟨opcode, l, arguments, hcell, -, hcells⟩ := h.pushArgument_spec text
  have hne : a ≠ index := fun hindex => by simp [hindex ▸ hcell] at ha
  have hlt := lt_nextIndex_of_cell? ha
  rw [hcells, if_neg hne, if_neg (Nat.ne_of_lt hlt), ha]

theorem Complete.new_pushArgument (h : p.Complete index) (text : String) :
    ∃ line, (p.pushArgument index text).cell? p.nextIndex = some (.value text line) := by
  have hlt := h.lt_nextIndex
  obtain ⟨opcode, line, arguments, -, -, hcells⟩ := h.pushArgument_spec text
  refine ⟨line, ?_⟩
  rw [hcells, if_neg (Nat.ne_of_gt hlt), if_pos rfl]

theorem Complete.operation_pushArgument (h : p.Complete index) {i line : Nat} {opcode : Opcode}
    {arguments : List Nat} (hi : p.cell? i = some (.operation opcode line arguments))
    (text : String) :
    (p.pushArgument index text).cell? i = some
      (.operation opcode line (arguments ++ if i = index then [p.nextIndex] else [])) := by
  obtain ⟨opcode', l, arguments', hcell, -, hcells⟩ := h.pushArgument_spec text
  by_cases hii : i = index
  · rw [hii, hcell] at hi
    obtain ⟨rfl, rfl, rfl⟩ := Cell.operation.inj (Option.some.inj hi)
    rw [hcells, if_pos hii, if_pos hii]
  · have hlt := lt_nextIndex_of_cell? hi
    rw [hcells, if_neg hii, if_neg (Nat.ne_of_lt hlt), if_neg hii, hi, List.append_nil]

theorem Complete.of_pushArgument (h : p.Complete index) {i : Nat} (hi : p.Complete i)
    (text : String) : (p.pushArgument index text).Complete i := by
  obtain ⟨opcode, line, arguments, hcell, hvalues⟩ := hi
  refine ⟨_, _, _, h.operation_pushArgument hcell text, ?_⟩
  intro a ha
  rcases List.mem_append.mp ha with ha | ha
  · obtain ⟨old, l, hold⟩ := hvalues a ha
    exact ⟨old, l, h.value_pushArgument hold text⟩
  · split at ha
    · obtain ⟨l, hnew⟩ := h.new_pushArgument text
      exact ⟨text, l, List.mem_singleton.mp ha ▸ hnew⟩
    · exact absurd ha (List.not_mem_nil)

theorem WF.argumentsOf_pushArgument (hp : p.WF) (hindex : index ∈ p.root) {i : Nat}
    (hi : i ∈ p.root) (text : String) : (p.pushArgument index text).argumentsOf i =
      p.argumentsOf i ++ if i = index then [p.nextIndex] else [] := by
  obtain ⟨opcode, line, arguments, hcell, -⟩ := hp.complete i hi
  rw [argumentsOf_of_cell? hcell,
    argumentsOf_of_cell? ((hp.complete index hindex).operation_pushArgument hcell text)]

theorem WF.pushArgument (hp : p.WF) (hindex : index ∈ p.root) (text : String) :
    (p.pushArgument index text).WF := by
  have hcomplete := hp.complete index hindex
  have hroot := hp.root_pushArgument hindex text
  have hlast : ∀ {i a : Nat}, a ∈ (if i = index then [p.nextIndex] else []) →
      i = index ∧ a = p.nextIndex := by
    intro i a ha
    rwa [List.mem_ite_nil_right, List.mem_singleton] at ha
  have hfresh : ∀ i ∈ p.root, p.nextIndex ∉ p.argumentsOf i := fun i hi hmem =>
    Nat.lt_irrefl _ ((hp.complete i hi).argument_lt hmem)
  refine ⟨?_, ?_, ?_⟩
  · rw [hroot]
    exact fun i hi => hcomplete.of_pushArgument (hp.complete i hi) text
  · rw [hroot]
    exact hp.root_nodup
  · rw [hroot, List.flatMap_congr fun i hi => hp.argumentsOf_pushArgument hindex hi text,
      List.nodup_flatMap]
    refine ⟨?_, hp.root_nodup.pairwise_of_forall_ne ?_⟩
    · intro i hi
      rw [List.nodup_append]
      refine ⟨hp.nodup_argumentsOf hi, by split <;> simp, ?_⟩
      intro a ha b hb hab
      obtain ⟨-, hnew⟩ := hlast hb
      exact hfresh i hi (hnew ▸ hab ▸ ha)
    · intro i hi j hj hij a hai haj
      rcases List.mem_append.mp hai with hai | hai <;> rcases List.mem_append.mp haj with haj | haj
      · exact hij (hp.eq_of_mem_argumentsOf hi hj hai haj)
      · exact hfresh i hi ((hlast haj).2 ▸ hai)
      · exact hfresh j hj ((hlast hai).2 ▸ haj)
      · exact hij ((hlast hai).1.trans (hlast haj).1.symm)

/-- **Adding an argument adds it to that operation.** -/
theorem WF.operation?_pushArgument (hp : p.WF) (hindex : index ∈ p.root) {i : Nat}
    (hi : i ∈ p.root) (text : String) :
    (p.pushArgument index text).operation? i = (p.operation? i).map fun op =>
      if i = index then { op with arguments := op.arguments ++ [text] } else op := by
  have hcomplete := hp.complete index hindex
  obtain ⟨opcode, line, arguments, hcell, hvalues⟩ := hp.complete i hi
  rw [operation?_of_cell? hcell, operation?_of_cell? (hcomplete.operation_pushArgument hcell text),
    List.map_append, Option.map_some]
  have hold : arguments.map (p.pushArgument index text).textAt = arguments.map p.textAt := by
    refine List.map_congr_left ?_
    intro a ha
    obtain ⟨old, l, hvalue⟩ := hvalues a ha
    rw [textAt_of_cell? hvalue, textAt_of_cell? (hcomplete.value_pushArgument hvalue text)]
  rw [hold]
  by_cases hii : i = index
  · obtain ⟨l, hnew⟩ := hcomplete.new_pushArgument text
    rw [if_pos hii, if_pos hii, List.map_singleton, textAt_of_cell? hnew]
  · rw [if_neg hii, if_neg hii, List.map_nil, List.append_nil]

end Program

end Adventure
