import Mathlib.Data.List.DropRight
import Mathlib.Data.List.TakeWhile
import Shading.Proofs.Structured

/-! # The body of a function

    Three operations build a body: a block is appended, an instruction is
    appended to a block, a stack slot is put in front.  For each of them this
    module says what it does to the blocks, to the slots in front, to the code
    behind them and to the ends of the blocks. -/

namespace Shading.IR

variable {f g : Function} {b b' t : BlockId} {i x : Inst} {j : InstId} {l : List InstId}

namespace Function

/-- Every listed instruction exists. -/
def Valid (f : Function) : Prop := ∀ b, ∀ i ∈ f.blockIds b, i < f.insts.length

theorem inst?_lt {i : InstId} (h : f.inst? i = some x) :
    i < f.insts.length := (List.getElem?_eq_some_iff.1 h).1

theorem isSlot_lt {i : InstId} (h : f.isSlot i = true) : i < f.insts.length := by
  unfold isSlot at h
  cases hi : f.inst? i with
  | none => rw [hi] at h; cases h
  | some x => exact inst?_lt hi

/-- Blocks that do not exist hold nothing. -/
theorem blockIds_of_le (h : f.blocks.length ≤ b) : f.blockIds b = [] := by
  unfold blockIds block?
  rw [List.getElem?_eq_none h]
  rfl

theorem code_sublist (f : Function) (b : BlockId) : (f.code b).Sublist (f.blockIds b) :=
  List.dropWhile_sublist _

/-- The slots of a block are the variables at its front. -/
theorem slots_length_eq_leadingAllocas (hf : f.Valid) (b : BlockId) :
    f.leadingAllocas b = (f.slots b).length := by
  -- The two count along the ids and along the instructions; no id is skipped, as all are valid.
  have key : ∀ l : List InstId, (∀ i ∈ l, i < f.insts.length) →
      ((l.filterMap f.inst?).takeWhile (·.op.isAlloca)).length = (l.takeWhile f.isSlot).length := by
    intro l
    induction l with
    | nil => intro _; rfl
    | cons i rest ih =>
      intro h
      have hi : i < f.insts.length := h i (List.mem_cons_self ..)
      have hget : f.inst? i = some f.insts[i] := List.getElem?_eq_getElem hi
      have hrest := ih fun j hj => h j (List.mem_cons_of_mem i hj)
      have hslot : f.isSlot i = f.insts[i].op.isAlloca := by
        unfold isSlot
        rw [hget]
        rfl
      rw [List.filterMap_cons_some hget, List.takeWhile_cons, List.takeWhile_cons, hslot]
      cases f.insts[i].op.isAlloca with
      | true => simp [hrest]
      | false => rfl
  have hb := key (f.blockIds b) (hf b)
  unfold leadingAllocas blockInsts
  unfold slots
  rw [← hb]
  unfold blockIds
  cases f.block? b <;> rfl

/-! ## A new block -/

@[simp] theorem addBlock_insts (f : Function) (l : String) : (f.addBlock l).insts = f.insts := rfl

@[simp] theorem addBlock_inst? (f : Function) (l : String) (i : InstId) :
    (f.addBlock l).inst? i = f.inst? i := rfl

@[simp] theorem addBlock_isSlot (f : Function) (l : String) (i : InstId) :
    (f.addBlock l).isSlot i = f.isSlot i := rfl

@[simp] theorem addBlock_blocks_length (f : Function) (l : String) :
    (f.addBlock l).blocks.length = f.blocks.length + 1 := by
  simp [addBlock]

@[simp] theorem addBlock_blockIds (f : Function) (l : String) (b : BlockId) :
    (f.addBlock l).blockIds b = f.blockIds b := by
  unfold blockIds block? addBlock
  rcases Nat.lt_trichotomy b f.blocks.length with h | h | h
  · rw [List.getElem?_append_left h]
  · subst h
    simp
  · rw [List.getElem?_append_right (Nat.le_of_lt h)]
    have hne : b - f.blocks.length ≠ 0 := Nat.sub_ne_zero_of_lt h
    obtain ⟨k, hk⟩ := Nat.exists_eq_succ_of_ne_zero hne
    rw [hk, List.getElem?_eq_none (Nat.le_of_lt h)]
    rfl

@[simp] theorem addBlock_slots (f : Function) (l : String) (b : BlockId) :
    (f.addBlock l).slots b = f.slots b := by
  unfold slots
  rw [addBlock_blockIds]
  rfl

@[simp] theorem addBlock_code (f : Function) (l : String) (b : BlockId) :
    (f.addBlock l).code b = f.code b := by
  unfold code
  rw [addBlock_blockIds]
  rfl

theorem addBlock_valid (hf : f.Valid) (l : String) : (f.addBlock l).Valid := by
  intro b i hi
  rw [addBlock_blockIds] at hi
  exact hf b i hi

/-! ## A new instruction at the end of a block -/

@[simp] theorem pushInst_insts (f : Function) (b : BlockId) (i : Inst) :
    (f.pushInst b i).insts = f.insts ++ [i] := rfl

@[simp] theorem pushInst_blocks_length (f : Function) (b : BlockId) (i : Inst) :
    (f.pushInst b i).blocks.length = f.blocks.length := by
  simp [pushInst]

theorem pushInst_inst?_of_lt (hj : j < f.insts.length) (b : BlockId) (i : Inst) :
    (f.pushInst b i).inst? j = f.inst? j :=
  List.getElem?_append_left hj

@[simp] theorem pushInst_inst?_new (f : Function) (b : BlockId) (i : Inst) :
    (f.pushInst b i).inst? f.insts.length = some i := by
  show (f.insts ++ [i])[f.insts.length]? = some i
  simp

theorem pushInst_isSlot_of_lt (hj : j < f.insts.length) (b : BlockId) (i : Inst) :
    (f.pushInst b i).isSlot j = f.isSlot j := by
  unfold isSlot
  rw [pushInst_inst?_of_lt hj]

theorem pushInst_isSlot_new (f : Function) (b : BlockId) (i : Inst) :
    (f.pushInst b i).isSlot f.insts.length = i.op.isAlloca := by
  unfold isSlot
  rw [pushInst_inst?_new]
  rfl

/-- A new instruction stands at the end of its block. -/
theorem pushInst_blockIds_self (hb : b < f.blocks.length) (i : Inst) :
    (f.pushInst b i).blockIds b = f.blockIds b ++ [f.insts.length] := by
  unfold blockIds block? pushInst
  simp [List.getElem?_eq_getElem hb]

/-- Other blocks do not see a new instruction. -/
theorem pushInst_blockIds_ne (hne : b' ≠ b) (i : Inst) :
    (f.pushInst b i).blockIds b' = f.blockIds b' := by
  unfold blockIds block? pushInst
  simp [Ne.symm hne]

theorem pushInst_valid (hf : f.Valid) (hb : b < f.blocks.length) (i : Inst) :
    (f.pushInst b i).Valid := by
  intro b' j hj
  rw [pushInst_insts, List.length_append, List.length_singleton]
  by_cases hne : b' = b
  · subst hne
    rw [pushInst_blockIds_self hb, List.mem_append, List.mem_singleton] at hj
    rcases hj with hj | rfl
    · exact Nat.lt_succ_of_lt (hf b' j hj)
    · exact Nat.lt_succ_self _
  · rw [pushInst_blockIds_ne hne] at hj
    exact Nat.lt_succ_of_lt (hf b' j hj)

/-- Functions that agree on the slots of a list split it alike. -/
theorem dropWhile_isSlot_congr (h : ∀ j ∈ l, g.isSlot j = f.isSlot j) :
    l.dropWhile g.isSlot = l.dropWhile f.isSlot ∧ l.takeWhile g.isSlot = l.takeWhile f.isSlot := by
  induction l with
  | nil => exact ⟨rfl, rfl⟩
  | cons j rest ih =>
    have hrest := ih fun k hk => h k (List.mem_cons_of_mem j hk)
    rw [List.dropWhile_cons, List.dropWhile_cons, List.takeWhile_cons, List.takeWhile_cons,
      h j (List.mem_cons_self ..), hrest.1, hrest.2]
    exact ⟨rfl, rfl⟩

/-- Old instructions are slots in the new function exactly if they were. -/
theorem dropWhile_pushInst (h : ∀ j ∈ l, j < f.insts.length) (b : BlockId) (i : Inst) :
    l.dropWhile (f.pushInst b i).isSlot = l.dropWhile f.isSlot ∧
      l.takeWhile (f.pushInst b i).isSlot = l.takeWhile f.isSlot :=
  dropWhile_isSlot_congr fun j hj => pushInst_isSlot_of_lt (h j hj) b i

theorem pushInst_code_ne (hf : f.Valid) (hne : b' ≠ b) (i : Inst) :
    (f.pushInst b i).code b' = f.code b' := by
  unfold code
  rw [pushInst_blockIds_ne hne, (dropWhile_pushInst (hf b') b i).1]

theorem pushInst_slots_ne (hf : f.Valid) (hne : b' ≠ b) (i : Inst) :
    (f.pushInst b i).slots b' = f.slots b' := by
  unfold slots
  rw [pushInst_blockIds_ne hne, (dropWhile_pushInst (hf b') b i).2]

/-- An instruction that is no slot joins the code of its block. -/
theorem pushInst_code_self (hf : f.Valid) (hb : b < f.blocks.length) (hi : i.op.isAlloca = false) :
    (f.pushInst b i).code b = f.code b ++ [f.insts.length] := by
  have hnew : (f.pushInst b i).isSlot f.insts.length = false := by
    rw [pushInst_isSlot_new, hi]
  unfold code
  rw [pushInst_blockIds_self hb, List.dropWhile_append, (dropWhile_pushInst (hf b) b i).1]
  split
  · next hempty =>
    rw [List.isEmpty_iff.1 hempty, List.dropWhile_cons_of_neg (by simp [hnew])]
    rfl
  · rfl

theorem pushInst_slots_self (hf : f.Valid) (hb : b < f.blocks.length) (hi : i.op.isAlloca = false) :
    (f.pushInst b i).slots b = f.slots b := by
  have hsplit := (f.pushInst b i).slots_append_code b
  rw [pushInst_code_self hf hb hi, pushInst_blockIds_self hb, ← f.slots_append_code b,
    ← List.append_assoc] at hsplit
  exact List.append_cancel_right (List.append_cancel_right hsplit)

/-! ## A new slot -/

/-- Put a slot behind the slots of the entry block. -/
def addSlot (f : Function) (i : Inst) : Function := f.insertInst 0 (f.leadingAllocas 0) i

@[simp] theorem addSlot_insts (f : Function) (i : Inst) :
    (f.addSlot i).insts = f.insts ++ [i] := rfl

@[simp] theorem addSlot_blocks_length (f : Function) (i : Inst) :
    (f.addSlot i).blocks.length = f.blocks.length := by
  simp [addSlot, insertInst]

theorem addSlot_inst?_of_lt (hj : j < f.insts.length) (i : Inst) :
    (f.addSlot i).inst? j = f.inst? j :=
  List.getElem?_append_left hj

@[simp] theorem addSlot_inst?_new (f : Function) (i : Inst) :
    (f.addSlot i).inst? f.insts.length = some i := by
  show (f.insts ++ [i])[f.insts.length]? = some i
  simp

theorem addSlot_isSlot_of_lt (hj : j < f.insts.length) (i : Inst) :
    (f.addSlot i).isSlot j = f.isSlot j := by
  unfold isSlot
  rw [addSlot_inst?_of_lt hj]

theorem addSlot_isSlot_new (f : Function) (i : Inst) :
    (f.addSlot i).isSlot f.insts.length = i.op.isAlloca := by
  unfold isSlot
  rw [addSlot_inst?_new]
  rfl

/-- A slot is inserted between the slots of the entry and its code. -/
theorem addSlot_blockIds_entry (hf : f.Valid) (hb : 0 < f.blocks.length) (i : Inst) :
    (f.addSlot i).blockIds 0 = f.slots 0 ++ f.insts.length :: f.code 0 := by
  have hsplit := f.slots_append_code 0
  have hlen := slots_length_eq_leadingAllocas hf 0
  have hids : f.blockIds 0 = (f.blocks[0]).insts := by
    unfold blockIds block?
    rw [List.getElem?_eq_getElem hb]
    rfl
  have hnew : (f.addSlot i).blockIds 0 = (f.blockIds 0).take (f.leadingAllocas 0) ++
      f.insts.length :: (f.blockIds 0).drop (f.leadingAllocas 0) := by
    rw [hids]
    unfold blockIds block? addSlot insertInst
    simp [List.getElem?_eq_getElem hb]
  rw [hnew, ← hsplit, hlen, List.take_left, List.drop_left]

theorem addSlot_blockIds_ne (hne : b ≠ 0) (i : Inst) : (f.addSlot i).blockIds b = f.blockIds b := by
  unfold blockIds block? addSlot insertInst
  simp [Ne.symm hne]

theorem addSlot_valid (hf : f.Valid) (hb : 0 < f.blocks.length) (i : Inst) :
    (f.addSlot i).Valid := by
  intro b j hj
  rw [addSlot_insts, List.length_append, List.length_singleton]
  by_cases hne : b = 0
  · subst hne
    rw [addSlot_blockIds_entry hf hb, List.mem_append, List.mem_cons] at hj
    have hsplit := f.slots_append_code 0
    rcases hj with hj | rfl | hj
    · exact Nat.lt_succ_of_lt (hf 0 j (by rw [← hsplit]; exact List.mem_append_left _ hj))
    · exact Nat.lt_succ_self _
    · exact Nat.lt_succ_of_lt (hf 0 j (by rw [← hsplit]; exact List.mem_append_right _ hj))
  · rw [addSlot_blockIds_ne hne] at hj
    exact Nat.lt_succ_of_lt (hf b j hj)

theorem dropWhile_addSlot (h : ∀ j ∈ l, j < f.insts.length) (i : Inst) :
    l.dropWhile (f.addSlot i).isSlot = l.dropWhile f.isSlot ∧
      l.takeWhile (f.addSlot i).isSlot = l.takeWhile f.isSlot :=
  dropWhile_pushInst h 0 i

theorem addSlot_code_ne (hf : f.Valid) (hne : b ≠ 0) (i : Inst) :
    (f.addSlot i).code b = f.code b := by
  unfold code
  rw [addSlot_blockIds_ne hne, (dropWhile_addSlot (hf b) i).1]

theorem addSlot_slots_ne (hf : f.Valid) (hne : b ≠ 0) (i : Inst) :
    (f.addSlot i).slots b = f.slots b := by
  unfold slots
  rw [addSlot_blockIds_ne hne, (dropWhile_addSlot (hf b) i).2]

/-- The code of the entry block does not start with a slot. -/
theorem dropWhile_code (f : Function) (b : BlockId) : (f.code b).dropWhile f.isSlot = f.code b :=
  List.dropWhile_idempotent _ _

/-- The code of the entry is not touched by a new slot. -/
theorem addSlot_code_entry (hf : f.Valid) (hb : 0 < f.blocks.length) (hi : i.op.isAlloca = true) :
    (f.addSlot i).code 0 = f.code 0 := by
  have hold : ∀ j ∈ f.code 0, j < f.insts.length := fun j hj =>
    hf 0 j ((f.code_sublist 0).subset hj)
  have hslots : ∀ j ∈ f.slots 0, (f.addSlot i).isSlot j = true := by
    intro j hj
    have hslot : f.isSlot j = true := List.mem_takeWhile_imp hj
    rw [addSlot_isSlot_of_lt (isSlot_lt hslot), hslot]
  unfold code
  rw [addSlot_blockIds_entry hf hb, List.dropWhile_append_of_pos hslots,
    List.dropWhile_cons_of_pos (by rw [addSlot_isSlot_new, hi]), (dropWhile_addSlot hold i).1,
    dropWhile_code]
  rfl

/-- A new slot is the last one of the entry. -/
theorem addSlot_slots_entry (hf : f.Valid) (hb : 0 < f.blocks.length) (hi : i.op.isAlloca = true) :
    (f.addSlot i).slots 0 = f.slots 0 ++ [f.insts.length] := by
  have hsplit := (f.addSlot i).slots_append_code 0
  rw [addSlot_code_entry hf hb hi, addSlot_blockIds_entry hf hb] at hsplit
  rw [← List.append_left_inj (f.code 0), hsplit, List.append_assoc, List.singleton_append]

/-! ## Ends of blocks -/

/-- Only the last instruction of a block may end it. -/
def Clean (f : Function) : Prop :=
  ∀ b, ∀ i ∈ (f.blockIds b).dropLast, ∀ x, f.inst? i = some x → x.op.isTerminator = false

/-- The terminator is the last instruction, if that one ends a block. -/
theorem terminator?_eq (f : Function) (b : BlockId) :
    f.terminator? b =
      (f.blockIds b).getLast?.bind fun i => (f.inst? i).filter (·.op.isTerminator) := by
  unfold terminator? blockIds
  cases f.block? b <;> rfl

/-- The end of a block depends on its last instruction only. -/
theorem terminator?_congr (hf : f.Valid) (hids : g.blockIds b = f.blockIds b)
    (hinst : ∀ i, i < f.insts.length → g.inst? i = f.inst? i) :
    g.terminator? b = f.terminator? b := by
  rw [terminator?_eq, terminator?_eq, hids]
  cases hl : (f.blockIds b).getLast? with
  | none => rfl
  | some i =>
    have hi := hf b i (List.mem_of_getLast? hl)
    show (g.inst? i).filter _ = (f.inst? i).filter _
    rw [hinst i hi]

/-- A block is open if its last instruction, if there is one, does not end it. -/
theorem isTerminated_eq_false : f.isTerminated b = false ↔
    ∀ i x, (f.blockIds b).getLast? = some i → f.inst? i = some x → x.op.isTerminator = false := by
  unfold isTerminated
  rw [terminator?_eq]
  cases (f.blockIds b).getLast? with
  | none => simp
  | some i =>
    rw [Option.bind_some]
    constructor
    · rintro hopen _ x ⟨⟩ hx
      simpa [hx] using hopen
    · intro h
      cases hx : f.inst? i with
      | none => rfl
      | some x => simpa using h i x rfl hx

/-- An empty block is open. -/
theorem isTerminated_of_empty (h : f.blockIds b = []) : f.isTerminated b = false := by
  unfold isTerminated
  rw [terminator?_eq, h]
  rfl

theorem isTerminated_of_le (h : f.blocks.length ≤ b) : f.isTerminated b = false :=
  isTerminated_of_empty (blockIds_of_le h)

/-- A block that is not ended leads nowhere. -/
theorem successors_of_open (h : f.isTerminated b = false) : f.successors b = [] := by
  unfold isTerminated at h
  unfold successors
  cases ht : f.terminator? b with
  | none => rfl
  | some i => rw [ht] at h; cases h

/-- A block that leads somewhere exists. -/
theorem lt_of_mem_successors (h : t ∈ f.successors b) : b < f.blocks.length := by
  by_contra hle
  rw [successors_of_open (isTerminated_of_le (Nat.not_lt.1 hle))] at h
  cases h

@[simp] theorem addBlock_terminator? (f : Function) (l : String) (b : BlockId) :
    (f.addBlock l).terminator? b = f.terminator? b := by
  rw [terminator?_eq, terminator?_eq, addBlock_blockIds]
  rfl

@[simp] theorem addBlock_isTerminated (f : Function) (l : String) (b : BlockId) :
    (f.addBlock l).isTerminated b = f.isTerminated b := by
  unfold isTerminated
  rw [addBlock_terminator?]

@[simp] theorem addBlock_successors (f : Function) (l : String) (b : BlockId) :
    (f.addBlock l).successors b = f.successors b := by
  unfold successors
  rw [addBlock_terminator?]

theorem pushInst_terminator?_self (hb : b < f.blocks.length) (i : Inst) :
    (f.pushInst b i).terminator? b = (some i).filter (·.op.isTerminator) := by
  rw [terminator?_eq, pushInst_blockIds_self hb, List.getLast?_concat]
  show ((f.pushInst b i).inst? f.insts.length).filter _ = _
  rw [pushInst_inst?_new]

theorem pushInst_terminator?_ne (hf : f.Valid) (hne : b' ≠ b) (i : Inst) :
    (f.pushInst b i).terminator? b' = f.terminator? b' :=
  terminator?_congr hf (pushInst_blockIds_ne hne i) fun _ hj => pushInst_inst?_of_lt hj b i

/-- A block is ended by what is put at its end. -/
theorem pushInst_isTerminated_self (hb : b < f.blocks.length) (i : Inst) :
    (f.pushInst b i).isTerminated b = i.op.isTerminator := by
  unfold isTerminated
  rw [pushInst_terminator?_self hb]
  cases h : i.op.isTerminator <;> simp [Option.filter, h]

theorem pushInst_isTerminated_ne (hf : f.Valid) (hne : b' ≠ b) (i : Inst) :
    (f.pushInst b i).isTerminated b' = f.isTerminated b' := by
  unfold isTerminated
  rw [pushInst_terminator?_ne hf hne]

/-- A block leads where its last instruction leads. -/
theorem pushInst_successors_self (hb : b < f.blocks.length) (i : Inst) :
    (f.pushInst b i).successors b = i.op.successors := by
  unfold successors
  rw [pushInst_terminator?_self hb]
  cases hop : i.op <;> simp [Option.filter, hop, Op.isTerminator, Op.successors]

theorem pushInst_successors_ne (hf : f.Valid) (hne : b' ≠ b) (i : Inst) :
    (f.pushInst b i).successors b' = f.successors b' := by
  unfold successors
  rw [pushInst_terminator?_ne hf hne]

/-- A slot in the entry changes no terminator. -/
theorem addSlot_terminator? (hf : f.Valid) (hb : 0 < f.blocks.length) (hi : i.op.isAlloca = true)
    (b : BlockId) : (f.addSlot i).terminator? b = f.terminator? b := by
  by_cases hne : b = 0
  · subst hne
    rw [terminator?_eq, terminator?_eq, addSlot_blockIds_entry hf hb, ← f.slots_append_code 0]
    cases hc : f.code 0 with
    | nil =>
      -- Only slots stand in the block, before and after, and no slot ends it.
      rw [List.append_nil, List.getLast?_concat]
      show ((f.addSlot i).inst? f.insts.length).filter _ = _
      rw [addSlot_inst?_new]
      have hnot : i.op.isTerminator = false := by
        cases hop : i.op <;> simp_all [Op.isAlloca, Op.isTerminator]
      rw [Option.filter_some, if_neg (by simp [hnot])]
      cases hl : (f.slots 0).getLast? with
      | none => rfl
      | some j =>
        have hj : f.isSlot j = true := List.mem_takeWhile_imp (List.mem_of_getLast? hl)
        show none = (f.inst? j).filter _
        unfold isSlot at hj
        cases hx : f.inst? j with
        | none => rfl
        | some x =>
          rw [hx] at hj
          have hx' : x.op.isTerminator = false := by
            cases hop : x.op <;> simp_all [Op.isAlloca, Op.isTerminator]
          rw [Option.filter_some, if_neg (by simp [hx'])]
    | cons j rest =>
      have hlast : (f.slots 0 ++ f.insts.length :: j :: rest).getLast? =
          (f.slots 0 ++ j :: rest).getLast? := by
        rw [List.getLast?_append_of_ne_nil _ (by simp), List.getLast?_append_of_ne_nil _ (by simp),
          List.getLast?_cons_cons]
      rw [hlast]
      cases hl : (f.slots 0 ++ j :: rest).getLast? with
      | none => rfl
      | some k =>
        have hk : k ∈ f.blockIds 0 := by
          rw [← f.slots_append_code 0, hc]
          exact List.mem_of_getLast? hl
        show ((f.addSlot i).inst? k).filter _ = (f.inst? k).filter _
        rw [addSlot_inst?_of_lt (hf 0 k hk)]
  · exact terminator?_congr hf (addSlot_blockIds_ne hne i) fun _ hj => addSlot_inst?_of_lt hj i

theorem addSlot_isTerminated (hf : f.Valid) (hb : 0 < f.blocks.length) (hi : i.op.isAlloca = true)
    (b : BlockId) : (f.addSlot i).isTerminated b = f.isTerminated b := by
  unfold isTerminated
  rw [addSlot_terminator? hf hb hi]

theorem addSlot_successors (hf : f.Valid) (hb : 0 < f.blocks.length) (hi : i.op.isAlloca = true)
    (b : BlockId) : (f.addSlot i).successors b = f.successors b := by
  unfold successors
  rw [addSlot_terminator? hf hb hi]

end Function

end Shading.IR
