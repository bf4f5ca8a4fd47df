import Shading.Proofs.Edits

/-! # Bodies as graphs

    What a body looks like as a graph at every moment of its emission
    (`Function.Regular`): slots stand at the front of the entry block only,
    no instruction stands in two places, branches stay inside the body and
    do not go to its entry, and merges agree with the branches.

    Main result: edits keep a body regular (`Edits.regular`). -/

namespace Shading.IR

/-- The shape of a body as a graph. -/
structure Function.Regular (f : Function) : Prop where
  valid : f.Valid
  pos : 0 < f.blocks.length
  /-- Only the entry block starts with slots. -/
  innerSlots : f.NoInnerSlots
  /-- There is no slot behind those at the front. -/
  codeSlots : ∀ b, ∀ i ∈ f.code b, f.isSlot i = false
  once : ∀ b, (f.blockIds b).Nodup
  apart : ∀ b b' i, i ∈ f.blockIds b → i ∈ f.blockIds b' → b = b'
  targets : ∀ p, ∀ s ∈ f.successors p, s ≠ 0 ∧ s < f.blocks.length
  /-- The entry block has no merge. -/
  entry : f.NoMerge 0
  merges : ∀ b i x incoming, i ∈ f.blockIds b → f.inst? i = some x → x.op = .phi incoming →
    (f.blockIds b).head? = some i ∧ f.Merges b incoming

namespace Function

variable {f : Function} {b : BlockId} {i : Inst}

/-- An instruction of a body after one more has been appended. -/
theorem mem_pushInst_blockIds (hb : b < f.blocks.length) {c : BlockId} {j : InstId} :
    j ∈ (f.pushInst b i).blockIds c ↔ j ∈ f.blockIds c ∨ c = b ∧ j = f.insts.length := by
  by_cases hc : c = b
  · subst hc
    rw [pushInst_blockIds_self hb, List.mem_append, List.mem_singleton]
    simp
  · rw [pushInst_blockIds_ne hc]
    simp [hc]

theorem mem_addSlot_blockIds (hf : f.Valid) (hpos : 0 < f.blocks.length) {c : BlockId}
    {j : InstId} :
    j ∈ (f.addSlot i).blockIds c ↔ j ∈ f.blockIds c ∨ c = 0 ∧ j = f.insts.length := by
  by_cases hc : c = 0
  · subst hc
    rw [addSlot_blockIds_entry hf hpos, ← f.slots_append_code 0]
    simp only [List.mem_append, List.mem_cons, true_and]
    tauto
  · rw [addSlot_blockIds_ne hc]
    simp [hc]

theorem noMerge_mono {g : Function} {c : BlockId} (h : f.NoMerge c)
    (hsub : ∀ j ∈ g.blockIds c, j ∈ f.blockIds c ∧ g.inst? j = f.inst? j ∨
      ∃ x, g.inst? j = some x ∧ ∀ incoming, x.op ≠ .phi incoming) : g.NoMerge c := by
  intro j hj x hx incoming
  rcases hsub j hj with ⟨hold, heq⟩ | ⟨y, hy, hno⟩
  · exact h j hold x (heq ▸ hx) incoming
  · rw [hy] at hx
    cases hx
    exact hno incoming

end Function

namespace Function.Regular

variable {f : Function} {b : BlockId} {i : Inst}

theorem addBlock (h : f.Regular) (label : String) : (f.addBlock label).Regular where
  valid := addBlock_valid h.valid label
  pos := by
    rw [addBlock_blocks_length]
    exact Nat.succ_pos _
  innerSlots b hb := by
    rw [addBlock_slots]
    exact h.innerSlots b hb
  codeSlots b i hi := by
    rw [addBlock_code] at hi
    rw [addBlock_isSlot]
    exact h.codeSlots b i hi
  once b := by
    rw [addBlock_blockIds]
    exact h.once b
  apart b b' i hi hi' := by
    rw [addBlock_blockIds] at hi hi'
    exact h.apart b b' i hi hi'
  -- Old branches stay inside, as there is only one block more.
  targets p s hs := by
    rw [addBlock_successors] at hs
    rw [addBlock_blocks_length]
    obtain ⟨h0, hlt⟩ := h.targets p s hs
    exact ⟨h0, Nat.lt_succ_of_lt hlt⟩
  entry i hi x hx := by
    rw [addBlock_blockIds] at hi
    exact h.entry i hi x hx
  merges b i x incoming hi hx hop := by
    rw [addBlock_blockIds] at hi ⊢
    obtain ⟨hhead, hnodup, hpreds⟩ := h.merges b i x incoming hi hx hop
    refine ⟨hhead, hnodup, fun p => ?_⟩
    rw [addBlock_successors]
    exact hpreds p

theorem addSlot (h : f.Regular) (hi : i.op.isAlloca = true) : (f.addSlot i).Regular where
  valid := addSlot_valid h.valid h.pos i
  pos := by
    rw [addSlot_blocks_length]
    exact h.pos
  innerSlots b hb := by
    rw [addSlot_slots_ne h.valid hb]
    exact h.innerSlots b hb
  codeSlots b j hj := by
    have hcode : (f.addSlot i).code b = f.code b := by
      by_cases hb : b = 0
      · subst hb
        exact addSlot_code_entry h.valid h.pos hi
      · exact addSlot_code_ne h.valid hb i
    rw [hcode] at hj
    have hlt := h.valid b j ((f.code_sublist b).subset hj)
    rw [addSlot_isSlot_of_lt hlt]
    exact h.codeSlots b j hj
  once b := by
    by_cases hb : b = 0
    · subst hb
      have hold := h.once 0
      rw [← f.slots_append_code 0] at hold
      have hnew : f.insts.length ∉ f.slots 0 ++ f.code 0 := by
        rw [f.slots_append_code 0]
        exact fun hmem => absurd (h.valid 0 _ hmem) (Nat.lt_irrefl _)
      rw [addSlot_blockIds_entry h.valid h.pos]
      exact List.perm_middle.nodup_iff.2 (List.nodup_cons.2 ⟨hnew, hold⟩)
    · rw [addSlot_blockIds_ne hb]
      exact h.once b
  apart b b' j hj hj' := by
    rw [mem_addSlot_blockIds h.valid h.pos] at hj hj'
    rcases hj with hj | ⟨rfl, rfl⟩
    · rcases hj' with hj' | ⟨rfl, rfl⟩
      · exact h.apart b b' j hj hj'
      · exact absurd (h.valid b _ hj) (Nat.lt_irrefl _)
    · rcases hj' with hj' | ⟨rfl, -⟩
      · exact absurd (h.valid b' _ hj') (Nat.lt_irrefl _)
      · rfl
  targets p s hs := by
    rw [addSlot_successors h.valid h.pos hi] at hs
    rw [addSlot_blocks_length]
    exact h.targets p s hs
  entry := by
    refine noMerge_mono h.entry fun j hj => ?_
    rw [mem_addSlot_blockIds h.valid h.pos] at hj
    rcases hj with hj | ⟨-, rfl⟩
    · exact .inl ⟨hj, addSlot_inst?_of_lt (h.valid 0 j hj) i⟩
    · refine .inr ⟨i, addSlot_inst?_new f i, fun incoming hop => ?_⟩
      rw [hop] at hi
      cases hi
  merges b j x incoming hj hx hop := by
    have hmem := hj
    rw [mem_addSlot_blockIds h.valid h.pos] at hmem
    rcases hmem with hold | ⟨-, rfl⟩
    · have hx' : f.inst? j = some x := by
        rw [← addSlot_inst?_of_lt (h.valid b j hold) i]
        exact hx
      -- The entry block has no merge, so the block of this one is unchanged.
      have hb : b ≠ 0 := fun hb => h.entry j (hb ▸ hold) x hx' incoming hop
      obtain ⟨hhead, hnodup, hpreds⟩ := h.merges b j x incoming hold hx' hop
      rw [addSlot_blockIds_ne hb]
      refine ⟨hhead, hnodup, fun p => ?_⟩
      rw [addSlot_successors h.valid h.pos hi]
      exact hpreds p
    · rw [addSlot_inst?_new] at hx
      cases hx
      rw [hop] at hi
      cases hi

/-- An instruction that is no slot at the end of an open block.  A branch goes
    to blocks without merge, and a merge starts its block. -/
theorem pushInst (h : f.Regular) (hb : b < f.blocks.length) (hopen : f.isTerminated b = false)
    (hslot : i.op.isAlloca = false)
    (hto : ∀ s ∈ i.op.successors, s ≠ 0 ∧ s < f.blocks.length ∧ f.NoMerge s)
    (hphi : ∀ incoming, i.op = .phi incoming →
      b ≠ 0 ∧ f.blockIds b = [] ∧ f.Merges b incoming) : (f.pushInst b i).Regular where
  valid := pushInst_valid h.valid hb i
  pos := by
    rw [pushInst_blocks_length]
    exact h.pos
  innerSlots c hc := by
    -- Only the block that grows has to be looked at again.
    by_cases hcb : c = b
    · subst hcb
      rw [pushInst_slots_self h.valid hb hslot]
      exact h.innerSlots c hc
    · rw [pushInst_slots_ne h.valid hcb]
      exact h.innerSlots c hc
  codeSlots c j hj := by
    have hold : j ∈ f.code c → (f.pushInst b i).isSlot j = false := by
      intro hj
      rw [pushInst_isSlot_of_lt (h.valid c j ((f.code_sublist c).subset hj))]
      exact h.codeSlots c j hj
    by_cases hcb : c = b
    · subst hcb
      rw [pushInst_code_self h.valid hb hslot, List.mem_append, List.mem_singleton] at hj
      rcases hj with hj | rfl
      · exact hold hj
      · rw [pushInst_isSlot_new]
        exact hslot
    · rw [pushInst_code_ne h.valid hcb] at hj
      exact hold hj
  once c := by
    by_cases hcb : c = b
    · subst hcb
      have hnew : f.insts.length ∉ f.blockIds c :=
        fun hmem => absurd (h.valid c _ hmem) (Nat.lt_irrefl _)
      rw [pushInst_blockIds_self hb]
      exact List.nodup_append.2 ⟨h.once c, List.pairwise_singleton _ _, fun j hj k hk heq =>
        hnew (List.mem_singleton.1 hk ▸ heq ▸ hj)⟩
    · rw [pushInst_blockIds_ne hcb]
      exact h.once c
  -- The new instruction has a number that no block holds yet.
  apart c c' j hj hj' := by
    rw [mem_pushInst_blockIds hb] at hj hj'
    rcases hj with hj | ⟨rfl, rfl⟩
    · rcases hj' with hj' | ⟨rfl, rfl⟩
      · exact h.apart c c' j hj hj'
      · exact absurd (h.valid c _ hj) (Nat.lt_irrefl _)
    · rcases hj' with hj' | ⟨rfl, -⟩
      · exact absurd (h.valid c' _ hj') (Nat.lt_irrefl _)
      · rfl
  targets p s hs := by
    rw [pushInst_blocks_length]
    by_cases hp : p = b
    · subst hp
      rw [pushInst_successors_self hb] at hs
      obtain ⟨h0, hlt, -⟩ := hto s hs
      exact ⟨h0, hlt⟩
    · rw [pushInst_successors_ne h.valid hp] at hs
      exact h.targets p s hs
  entry := by
    refine noMerge_mono h.entry fun j hj => ?_
    rw [mem_pushInst_blockIds hb] at hj
    rcases hj with hj | ⟨rfl, rfl⟩
    · exact .inl ⟨hj, pushInst_inst?_of_lt (h.valid 0 j hj) b i⟩
    · exact .inr ⟨i, pushInst_inst?_new f 0 i, fun incoming hop => (hphi incoming hop).1 rfl⟩
  merges c j x incoming hj hx hop := by
    rw [mem_pushInst_blockIds hb] at hj
    rcases hj with hold | ⟨rfl, rfl⟩
    · have hx' : f.inst? j = some x := by
        rw [← pushInst_inst?_of_lt (h.valid c j hold) b i]
        exact hx
      obtain ⟨hhead, hnodup, hpreds⟩ := h.merges c j x incoming hold hx' hop
      refine ⟨?_, hnodup, fun p => ?_⟩
      · by_cases hcb : c = b
        · subst hcb
          rw [pushInst_blockIds_self hb, List.head?_append, hhead]
          rfl
        · rw [pushInst_blockIds_ne hcb]
          exact hhead
      · -- A branch to this block is not what was appended, since the block has a merge.
        rw [hpreds p]
        by_cases hp : p = b
        · subst hp
          rw [pushInst_successors_self hb, successors_of_open hopen]
          constructor
          · intro hmem
            cases hmem
          · intro hmem
            exact absurd hop ((hto c hmem).2.2 j hold x hx' incoming)
        · rw [pushInst_successors_ne h.valid hp]
    · rw [pushInst_inst?_new] at hx
      cases hx
      obtain ⟨-, hempty, hnodup, hpreds⟩ := hphi incoming hop
      refine ⟨?_, hnodup, fun p => ?_⟩
      · rw [pushInst_blockIds_self hb, hempty]
        rfl
      · rw [hpreds p]
        by_cases hp : p = c
        · subst hp
          rw [pushInst_successors_self hb, successors_of_open hopen, hop]
          rfl
        · rw [pushInst_successors_ne h.valid hp]

end Function.Regular

/-! ## Edits -/

theorem Edit.regular {n : Nat} {home : BlockId} {t : Option Targets} {f g : Function}
    (hn : 0 < n) (he : Edit n home t f g) (h : f.Regular) : g.Regular := by
  -- Each edit has its condition: what closes a block leads to blocks without a merge.
  cases he with
  | block hl => exact h.addBlock _
  | slot => exact h.addSlot rfl
  | plain hb hopen hin hi hslot =>
    refine h.pushInst hb hopen hslot (fun s hs => ?_) fun incoming hop => ?_
    · rw [Op.successors_of_plain hi] at hs
      cases hs
    · rw [hop] at hi
      cases hi
  | close hb hopen hin hi hto =>
    refine h.pushInst hb hopen (Op.not_isAlloca_of_terminator hi) (fun s hs => ?_)
      fun incoming hop => ?_
    · obtain ⟨h0, hlt, hno, -⟩ := hto s hs
      exact ⟨h0, hlt, hno⟩
    · rw [hop] at hi
      cases hi
  | merge hb hin hempty hpreds hops =>
    refine h.pushInst hb (Function.isTerminated_of_empty hempty) rfl
      (fun s hs => by cases hs) fun incoming hop => ?_
    cases hop
    exact ⟨Nat.ne_of_gt (Nat.lt_of_lt_of_le hn hin), hempty, hpreds⟩

theorem Edits.regular {n : Nat} {home : BlockId} {t : Option Targets} {f g : Function}
    (hn : 0 < n) (he : Edits n home t f g) (h : f.Regular) : g.Regular := by
  induction he with
  | refl => exact h
  | tail _ hstep ih => exact hstep.regular hn ih

end Shading.IR
