import Mathlib.Data.List.Infix
import Mathlib.Logic.Relation
import Shading.IR.Builder
import Shading.Proofs.Body

/-! # How a body grows

    What has been emitted stays where it is: a body that has grown extends
    what it was before (`Function.Extends`).

    `Edit` says which single operations the lowering of a construct does, and
    `Edits` what many of them do together.  A construct that starts in block
    `home` of a function with `n` blocks writes to that block and to blocks
    of its own, and it branches to blocks of its own and to the targets of
    the enclosing loop. -/

namespace Shading.IR

variable {b s : BlockId} {f g : Function} {i : Inst}

namespace Function

/-! ## Extension -/

/-- Everything that stands in `f` stands at the same place in `g`. -/
structure Extends (f g : Function) : Prop where
  insts : f.insts <+: g.insts
  code : ∀ b, f.code b <+: g.code b
  slots : ∀ b, f.slots b <+: g.slots b
  blocks : f.blocks.length ≤ g.blocks.length

theorem Extends.refl (f : Function) : f.Extends f :=
  ⟨List.prefix_rfl, fun _ => List.prefix_rfl, fun _ => List.prefix_rfl, Nat.le_refl _⟩

theorem Extends.trans {h : Function} (h₁ : f.Extends g) (h₂ : g.Extends h) : f.Extends h :=
  ⟨h₁.insts.trans h₂.insts, fun b => (h₁.code b).trans (h₂.code b),
    fun b => (h₁.slots b).trans (h₂.slots b), h₁.blocks.trans h₂.blocks⟩

theorem Extends.inst? (h : f.Extends g) {i : InstId} {x : Inst} (hi : f.inst? i = some x) :
    g.inst? i = some x := by
  obtain ⟨rest, hrest⟩ := h.insts
  unfold Function.inst? at hi ⊢
  rw [← hrest, List.getElem?_append_left (List.getElem?_eq_some_iff.1 hi).1, hi]

theorem Extends.at? (h : f.Extends g) {p : Point} {x : InstId × Inst} (hp : f.at? p = some x) :
    g.at? p = some x := by
  unfold Function.at? at hp ⊢
  simp only [Option.bind_eq_bind, Option.bind_eq_some_iff] at hp ⊢
  obtain ⟨id, hid, i, hi, hx⟩ := hp
  obtain ⟨rest, hrest⟩ := h.code p.block
  refine ⟨id, ?_, i, h.inst? hi, hx⟩
  rw [← hrest, List.getElem?_append_left (List.getElem?_eq_some_iff.1 hid).1, hid]

theorem addBlock_extends (f : Function) (l : String) : f.Extends (f.addBlock l) :=
  ⟨List.prefix_rfl, fun b => by rw [addBlock_code], fun b => by rw [addBlock_slots],
    by rw [addBlock_blocks_length]; omega⟩

theorem pushInst_extends (hf : f.Valid) (hb : b < f.blocks.length) (hi : i.op.isAlloca = false) :
    f.Extends (f.pushInst b i) := by
  refine ⟨List.prefix_append .., fun b' => ?_, fun b' => ?_, by rw [pushInst_blocks_length]⟩
  · by_cases hne : b' = b
    · subst hne
      rw [pushInst_code_self hf hb hi]
      exact List.prefix_append ..
    · rw [pushInst_code_ne hf hne]
  · by_cases hne : b' = b
    · subst hne
      rw [pushInst_slots_self hf hb hi]
    · rw [pushInst_slots_ne hf hne]

theorem addSlot_extends (hf : f.Valid) (hb : 0 < f.blocks.length) (hi : i.op.isAlloca = true) :
    f.Extends (f.addSlot i) := by
  refine ⟨List.prefix_append .., fun b => ?_, fun b => ?_, by rw [addSlot_blocks_length]⟩
  · by_cases hne : b = 0
    · subst hne
      rw [addSlot_code_entry hf hb hi]
    · rw [addSlot_code_ne hf hne]
  · by_cases hne : b = 0
    · subst hne
      rw [addSlot_slots_entry hf hb hi]
      exact List.prefix_append ..
    · rw [addSlot_slots_ne hf hne]

/-- The instruction that has just been appended is at the end of the code. -/
theorem pushInst_at? (hf : f.Valid) (hb : b < f.blocks.length) (hi : i.op.isAlloca = false) :
    (f.pushInst b i).at? ⟨b, (f.code b).length⟩ = some (f.insts.length, i) := by
  unfold Function.at?
  simp [pushInst_code_self hf hb hi]

/-! ## Edits -/

/-- No instruction of the block is a merge. -/
def NoMerge (f : Function) (b : BlockId) : Prop :=
  ∀ i ∈ f.blockIds b, ∀ x, f.inst? i = some x → ∀ incoming, x.op ≠ .phi incoming

/-- The blocks that a merge names are those that lead to its block, each
    named once. -/
def Merges (f : Function) (b : BlockId) (incoming : List (Value × BlockId)) : Prop :=
  (incoming.map Prod.snd).Nodup ∧ ∀ p, p ∈ incoming.map Prod.snd ↔ b ∈ f.successors p

end Function

/-- The operand is computed by one of the first so many instructions, if by
    any. -/
def Value.Below (n : Nat) : Value → Prop
  | .inst i => i < n
  | _ => True

/-- The labels that lowering gives to blocks. -/
def Build.labels : List String :=
  ["entry", "and.rhs", "and.end", "or.rhs", "or.end", "then", "else", "if.end", "while.cond",
    "while.body", "while.end"]

/-- The blocks that the jumps of a loop go to. -/
def Targets.blocks (t : Option Targets) : List BlockId :=
  t.elim [] fun t => [t.continueBlock, t.breakBlock]

/-- One operation of a construct that starts in block `home` of a function
    with `n` blocks, inside a loop with the given targets. -/
inductive Edit (n : Nat) (home : BlockId) (t : Option Targets) : Function → Function → Prop
  | block {f : Function} {label : String} (hl : label ∈ Build.labels) :
    Edit n home t f (f.addBlock (Build.newLabel f.blocks label))
  | slot {f : Function} {ty : Ty} {size : UInt32} {name : String} :
    Edit n home t f (f.addSlot ⟨.alloca ty size, .ptr ty, some name⟩)
  | plain {f : Function} {b : BlockId} {i : Inst} (hb : b < f.blocks.length)
    (hopen : f.isTerminated b = false) (hin : b = home ∨ n ≤ b)
    (hi : i.op.isPlain = true) (hslot : i.op.isAlloca = false) :
    Edit n home t f (f.pushInst b i)
  | close {f : Function} {b : BlockId} {i : Inst} (hb : b < f.blocks.length)
    (hopen : f.isTerminated b = false) (hin : b = home ∨ n ≤ b)
    (hi : i.op.isTerminator = true)
    (hto : ∀ s ∈ i.op.successors, s ≠ 0 ∧ s < f.blocks.length ∧ f.NoMerge s ∧
      (n ≤ s ∨ s ∈ Targets.blocks t)) :
    Edit n home t f (f.pushInst b i)
  | merge {f : Function} {b : BlockId} {ty : Ty} {incoming : List (Value × BlockId)}
    (hb : b < f.blocks.length) (hin : n ≤ b) (hempty : f.blockIds b = [])
    (hpreds : f.Merges b incoming) (hops : ∀ q ∈ incoming, q.1.Below f.insts.length) :
    Edit n home t f (f.pushInst b ⟨.phi incoming, ty, none⟩)

/-- What many operations of a construct do together. -/
abbrev Edits (n : Nat) (home : BlockId) (t : Option Targets) : Function → Function → Prop :=
  Relation.ReflTransGen (Edit n home t)

/-! ## What edits keep -/

variable {n n' : Nat} {home home' : BlockId} {t t' : Option Targets} {f g : Function}

theorem Op.not_isAlloca_of_terminator {op : Op} (h : op.isTerminator = true) :
    op.isAlloca = false := by
  cases op <;> simp_all [isTerminator, isAlloca]

theorem Op.successors_of_plain {op : Op} (h : op.isPlain = true) : op.successors = [] := by
  cases op <;> simp_all [isPlain, isTerminator, successors]

namespace Edit

theorem blocks_le (h : Edit n home t f g) : f.blocks.length ≤ g.blocks.length := by
  cases h with
  | block hl => rw [Function.addBlock_blocks_length]; omega
  | slot => rw [Function.addSlot_blocks_length]
  | plain hb hopen hin hi hslot => rw [Function.pushInst_blocks_length]
  | close hb hopen hin hi hto => rw [Function.pushInst_blocks_length]
  | merge hb hin hempty hpreds hops => rw [Function.pushInst_blocks_length]

theorem valid (hf : f.Valid) (hpos : 0 < f.blocks.length) (h : Edit n home t f g) : g.Valid := by
  cases h with
  | block hl => exact Function.addBlock_valid hf _
  | slot => exact Function.addSlot_valid hf hpos _
  | plain hb hopen hin hi hslot => exact Function.pushInst_valid hf hb _
  | close hb hopen hin hi hto => exact Function.pushInst_valid hf hb _
  | merge hb hin hempty hpreds hops => exact Function.pushInst_valid hf hb _

/-- Nothing that has been emitted moves. -/
theorem extend (hf : f.Valid) (hpos : 0 < f.blocks.length) (h : Edit n home t f g) :
    f.Extends g := by
  cases h with
  | block hl => exact Function.addBlock_extends f _
  | slot => exact Function.addSlot_extends hf hpos rfl
  | plain hb hopen hin hi hslot => exact Function.pushInst_extends hf hb hslot
  | close hb hopen hin hi hto =>
    exact Function.pushInst_extends hf hb (Op.not_isAlloca_of_terminator hi)
  | merge hb hin hempty hpreds hops => exact Function.pushInst_extends hf hb rfl

/-- A construct inside another one does what the outer one may do. -/
theorem widen (hn : n' ≤ n) (hhome : home = home' ∨ n' ≤ home)
    (ht : ∀ s ∈ Targets.blocks t, n' ≤ s ∨ s ∈ Targets.blocks t') (h : Edit n home t f g) :
    Edit n' home' t' f g := by
  have into : ∀ {b}, b = home ∨ n ≤ b → b = home' ∨ n' ≤ b := by
    rintro b (rfl | hb)
    · exact hhome
    · exact .inr (hn.trans hb)
  -- Each edit stays one if more blocks count as new.
  cases h with
  | block hl => exact .block hl
  | slot => exact .slot
  | plain hb hopen hin hi hslot => exact .plain hb hopen (into hin) hi hslot
  | close hb hopen hin hi hto =>
    refine .close hb hopen (into hin) hi fun s hs => ?_
    obtain ⟨h0, hlt, hno, hs'⟩ := hto s hs
    refine ⟨h0, hlt, hno, ?_⟩
    rcases hs' with hs' | hs'
    · exact .inl (hn.trans hs')
    · exact ht s hs'
  | merge hb hin hempty hpreds hops => exact .merge hb (hn.trans hin) hempty hpreds hops

/-- Only the home block and new blocks are written to. -/
theorem blockIds_old (h : Edit n home t f g) (hb : b < n) (hne : b ≠ home) (h0 : b ≠ 0) :
    g.blockIds b = f.blockIds b := by
  have apart : ∀ {c}, c = home ∨ n ≤ c → b ≠ c := by
    rintro c (rfl | hc) rfl
    · exact hne rfl
    · exact absurd hb (Nat.not_lt.2 hc)
  cases h with
  | block hl => exact Function.addBlock_blockIds f _ b
  | slot => exact Function.addSlot_blockIds_ne h0 _
  | plain hc hopen hin hi hslot => exact Function.pushInst_blockIds_ne (apart hin) _
  | close hc hopen hin hi hto => exact Function.pushInst_blockIds_ne (apart hin) _
  | merge hc hin hempty hpreds hops => exact Function.pushInst_blockIds_ne (apart (.inr hin)) _

/-- Merges are put in new blocks only. -/
theorem noMerge (hf : f.Valid) (hpos : 0 < f.blocks.length) (h : Edit n home t f g) (hb : b < n)
    (hno : f.NoMerge b) : g.NoMerge b := by
  -- Pushed instructions are the last of their block, so the old ones stay as they were.
  have push : ∀ {c : BlockId} {i : Inst}, c < f.blocks.length →
      (b = c → ∀ incoming, i.op ≠ .phi incoming) → (f.pushInst c i).NoMerge b := by
    intro c i hc hi j hj x hx
    by_cases hbc : b = c
    · subst hbc
      rw [Function.pushInst_blockIds_self hc, List.mem_append, List.mem_singleton] at hj
      rcases hj with hj | rfl
      · rw [Function.pushInst_inst?_of_lt (hf b j hj)] at hx
        exact hno j hj x hx
      · rw [Function.pushInst_inst?_new] at hx
        cases hx
        exact hi rfl
    · rw [Function.pushInst_blockIds_ne hbc] at hj
      rw [Function.pushInst_inst?_of_lt (hf b j hj)] at hx
      exact hno j hj x hx
  cases h with
  | block hl =>
    intro i hi x hx
    rw [Function.addBlock_blockIds] at hi
    exact hno i hi x hx
  | slot =>
    intro i hi x hx
    by_cases h0 : b = 0
    · subst h0
      rw [Function.addSlot_blockIds_entry hf hpos, List.mem_append, List.mem_cons] at hi
      have hold : i ∈ f.blockIds 0 → ∀ incoming, x.op ≠ .phi incoming := by
        intro hi'
        rw [Function.addSlot_inst?_of_lt (hf 0 i hi')] at hx
        exact hno i hi' x hx
      rcases hi with hi | rfl | hi
      · exact hold (by rw [← f.slots_append_code 0]; exact List.mem_append_left _ hi)
      · rw [Function.addSlot_inst?_new] at hx
        cases hx
        simp
      · exact hold (by rw [← f.slots_append_code 0]; exact List.mem_append_right _ hi)
    · rw [Function.addSlot_blockIds_ne h0] at hi
      rw [Function.addSlot_inst?_of_lt (hf b i hi)] at hx
      exact hno i hi x hx
  | plain hc hopen hin hi hslot =>
    refine push hc fun _ incoming hphi => ?_
    rw [hphi] at hi
    cases hi
  | close hc hopen hin hi hto =>
    refine push hc fun _ incoming hphi => ?_
    rw [hphi] at hi
    cases hi
  -- A merge is pushed into a block that is new, and `b` is not.
  | merge hc hin hempty hpreds hops =>
    exact push hc fun hbc => absurd hb (Nat.not_lt.2 (hbc ▸ hin))

/-- Branches go to new blocks and to the targets of the loop only. -/
theorem successors_old (hf : f.Valid) (hpos : 0 < f.blocks.length) (h : Edit n home t f g)
    {p : BlockId} (hs : s < n) (hst : s ∉ Targets.blocks t) :
    s ∈ g.successors p ↔ s ∈ f.successors p := by
  -- An open block has no edges, so pushing into it only adds those of the instruction.
  have push : ∀ {c : BlockId} {i : Inst}, c < f.blocks.length → f.isTerminated c = false →
      s ∉ i.op.successors → (s ∈ (f.pushInst c i).successors p ↔ s ∈ f.successors p) := by
    intro c i hc hopen hi
    by_cases hpc : p = c
    · subst hpc
      rw [Function.pushInst_successors_self hc, Function.successors_of_open hopen]
      simp [hi]
    · rw [Function.pushInst_successors_ne hf hpc]
  cases h with
  | block hl => rw [Function.addBlock_successors]
  | slot => rw [Function.addSlot_successors hf hpos rfl]
  | plain hc hopen hin hi hslot =>
    refine push hc hopen ?_
    rw [Op.successors_of_plain hi]
    exact List.not_mem_nil
  | close hc hopen hin hi hto =>
    refine push hc hopen fun hmem => ?_
    rcases (hto s hmem).2.2.2 with hle | hmem'
    · exact absurd hs (Nat.not_lt.2 hle)
    · exact hst hmem'
  | merge hc hin hempty hpreds hops =>
    exact push hc (Function.isTerminated_of_empty hempty) (by simp [Op.successors])

end Edit

namespace Edits

theorem blocks_le (h : Edits n home t f g) : f.blocks.length ≤ g.blocks.length := by
  induction h with
  | refl => exact Nat.le_refl _
  | tail _ he ih => exact ih.trans he.blocks_le

theorem valid (hf : f.Valid) (hpos : 0 < f.blocks.length) (h : Edits n home t f g) :
    g.Valid := by
  induction h with
  | refl => exact hf
  | tail hs he ih => exact he.valid ih (Nat.lt_of_lt_of_le hpos (blocks_le hs))

theorem extend (hf : f.Valid) (hpos : 0 < f.blocks.length) (h : Edits n home t f g) :
    f.Extends g := by
  induction h with
  | refl => exact .refl f
  | tail hs he ih =>
    exact ih.trans (he.extend (valid hf hpos hs) (Nat.lt_of_lt_of_le hpos (blocks_le hs)))

theorem widen (hn : n' ≤ n) (hhome : home = home' ∨ n' ≤ home)
    (ht : ∀ s ∈ Targets.blocks t, n' ≤ s ∨ s ∈ Targets.blocks t') (h : Edits n home t f g) :
    Edits n' home' t' f g := by
  induction h with
  | refl => exact .refl
  | tail _ he ih => exact ih.tail (he.widen hn hhome ht)

theorem blockIds_old (h : Edits n home t f g) (hb : b < n) (hne : b ≠ home)
    (h0 : b ≠ 0) : g.blockIds b = f.blockIds b := by
  induction h with
  | refl => rfl
  | tail _ he ih => rw [he.blockIds_old hb hne h0, ih]

theorem noMerge (hf : f.Valid) (hpos : 0 < f.blocks.length) (h : Edits n home t f g)
    (hb : b < n) (hno : f.NoMerge b) : g.NoMerge b := by
  induction h with
  | refl => exact hno
  | tail hs he ih =>
    exact he.noMerge (valid hf hpos hs) (Nat.lt_of_lt_of_le hpos (blocks_le hs)) hb ih

theorem successors_old (hf : f.Valid) (hpos : 0 < f.blocks.length) (h : Edits n home t f g)
    {p : BlockId} (hs : s < n) (hst : s ∉ Targets.blocks t) :
    s ∈ g.successors p ↔ s ∈ f.successors p := by
  induction h with
  | refl => exact Iff.rfl
  | tail hs' he ih =>
    exact (he.successors_old (valid hf hpos hs') (Nat.lt_of_lt_of_le hpos (blocks_le hs')) hs
      hst).trans ih

end Edits

end Shading.IR
