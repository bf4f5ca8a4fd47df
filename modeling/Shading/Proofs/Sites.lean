import Shading.Proofs.Building

/-! # Steps between sites

    Code with branches is emitted in steps: blocks are appended, the builder
    moves from block to block, blocks are ended.  `Grown` says that such
    steps lead from one site to another; the larger constructs are put
    together from it. -/

namespace Shading.IR

variable {b home target : BlockId} {k n : Nat} {u : Unit} {op : Op} {F f g : Function} {i : Inst}
    {ty : Ty} {context label : String} {v : Value}

/-! ## Branches stay inside the function -/

/-- Branches go to blocks of the function. -/
def Function.Bounded (f : Function) : Prop := ∀ p, ∀ s ∈ f.successors p, s < f.blocks.length

theorem Edit.bounded {t : Option Targets} (hf : f.Valid) (hpos : 0 < f.blocks.length)
    (h : Edit n home t f g) (hb : f.Bounded) : g.Bounded := by
  -- An instruction adds edges only to the block it is pushed into.
  have push : ∀ {c : BlockId} {i : Inst}, c < f.blocks.length →
      (∀ s ∈ i.op.successors, s < f.blocks.length) → (f.pushInst c i).Bounded := by
    intro c i hc hi p s hs
    rw [Function.pushInst_blocks_length]
    by_cases hp : p = c
    · subst hp
      rw [Function.pushInst_successors_self hc] at hs
      exact hi s hs
    · rw [Function.pushInst_successors_ne hf hp] at hs
      exact hb p s hs
  cases h with
  | block hl =>
    intro p s hs
    rw [Function.addBlock_successors] at hs
    rw [Function.addBlock_blocks_length]
    exact Nat.lt_succ_of_lt (hb p s hs)
  | slot =>
    intro p s hs
    rw [Function.addSlot_successors hf hpos rfl] at hs
    rw [Function.addSlot_blocks_length]
    exact hb p s hs
  | plain hc hopen hin hi hslot =>
    refine push hc fun s hs => ?_
    rw [Op.successors_of_plain hi] at hs
    cases hs
  | close hc hopen hin hi hto => exact push hc fun s hs => (hto s hs).2.1
  | merge hc hin hempty hpreds hops => exact push hc fun s hs => by cases hs

theorem Edits.bounded {t : Option Targets} (hf : f.Valid) (hpos : 0 < f.blocks.length)
    (h : Edits n home t f g) (hb : f.Bounded) : g.Bounded := by
  induction h with
  | refl => exact hb
  | tail hs he ih =>
    exact he.bounded (Edits.valid hf hpos hs) (Nat.lt_of_lt_of_le hpos (Edits.blocks_le hs)) ih

variable {func : FuncId} {n n' : Nat} {home home' : BlockId} {t t' : Option Targets}
  {S S' S'' : Site func}

/-- The jumps of the enclosing loop have targets that may be branched to. -/
structure Site.Sound (S : Site func) (t : Option Targets) : Prop where
  targets : ∀ s ∈ Targets.blocks t, s ≠ 0 ∧ s < S.body.blocks.length ∧ S.body.NoMerge s
  bounded : S.body.Bounded

/-! ## Growth -/

/-- Steps of a construct that started in block `home` of a function with `n`
    blocks. -/
structure Grown (n : Nat) (home : BlockId) (t : Option Targets) (S S' : Site func) : Prop where
  grows : S.builder.module.Grows func S'.builder.module
  edits : Edits n home t S.body S'.body
  insts : S.body.insts.length ≤ S'.body.insts.length

namespace Grown

theorem trans (h₁ : Grown n home t S S') (h₂ : Grown n home t S' S'') : Grown n home t S S'' :=
  ⟨h₁.grows.trans h₂.grows, h₁.edits.trans h₂.edits, h₁.insts.trans h₂.insts⟩

theorem extend (h : Grown n home t S S') : S.body.Extends S'.body := h.edits.extend S.valid S.pos

theorem blocks_le (h : Grown n home t S S') : S.body.blocks.length ≤ S'.body.blocks.length :=
  h.edits.blocks_le

theorem widen (h : Grown n home t S S') (hn : n' ≤ n) (hhome : home = home' ∨ n' ≤ home)
    (ht : ∀ s ∈ Targets.blocks t, n' ≤ s ∨ s ∈ Targets.blocks t') : Grown n' home' t' S S' :=
  ⟨h.grows, h.edits.widen hn hhome ht, h.insts⟩

theorem sound (h : Grown n home t S S') (hn : S.body.blocks.length ≤ n) (hs : S.Sound t') :
    S'.Sound t' where
  targets s hmem := by
    obtain ⟨h0, hlt, hno⟩ := hs.targets s hmem
    exact ⟨h0, Nat.lt_of_lt_of_le hlt h.blocks_le,
      h.edits.noMerge S.valid S.pos (Nat.lt_of_lt_of_le hlt hn) hno⟩
  bounded := h.edits.bounded S.valid S.pos hs.bounded

theorem moveTo (S : Site func) (hb : b < S.body.blocks.length) :
    Grown n home t S (S.moveTo b hb) := ⟨.refl func _, .refl, Nat.le_refl _⟩

theorem addBlock (S : Site func) (hl : label ∈ Build.labels) :
    Grown n home t S (S.addBlock (Build.newLabel S.body.blocks label)) :=
  ⟨.update S.found (Function.addBlock_extends ..), .single (.block hl), Nat.le_refl _⟩

/-- An instruction that ends the current block. -/
theorem close (hopen : S.Open) (hin : S.block = home ∨ n ≤ S.block) (hi : i.op.isTerminator = true)
    (hto : ∀ s ∈ i.op.successors, s ≠ 0 ∧ s < S.body.blocks.length ∧ S.body.NoMerge s ∧
      (n ≤ s ∨ s ∈ Targets.blocks t)) : Grown n home t S (S.push i) where
  grows := .update S.found
    (Function.pushInst_extends S.valid S.inside (Op.not_isAlloca_of_terminator hi))
  edits := .single (.close S.inside hopen hin hi hto)
  insts := by
    show _ ≤ (S.body.pushInst S.block i).insts.length
    rw [Function.pushInst_insts, List.length_append]
    exact Nat.le_add_right _ _

/-- A merge at the start of the current block. -/
theorem merge (hin : n ≤ S.block) (hempty : S.body.blockIds S.block = [])
    {incoming : List (Value × BlockId)} (hpreds : S.body.Merges S.block incoming)
    (hops : ∀ q ∈ incoming, q.1.Below S.body.insts.length) :
    Grown n home t S (S.push ⟨.phi incoming, ty, none⟩) where
  grows := .update S.found (Function.pushInst_extends S.valid S.inside rfl)
  edits := .single (.merge S.inside hin hempty hpreds hops)
  insts := by
    show _ ≤ (S.body.pushInst S.block _).insts.length
    rw [Function.pushInst_insts, List.length_append]
    exact Nat.le_add_right _ _

end Grown

theorem Emitted.grown {c : Code} (h : Emitted t c S S') :
    Grown S.body.blocks.length S.block t S S' := ⟨h.grows, h.edits, h.within.1⟩

theorem Emitted.sound {c : Code} (h : Emitted t c S S') (hs : S.Sound t') : S'.Sound t' :=
  h.grown.sound (Nat.le_refl _) hs

/-! ## Places -/

namespace Site

/-- The place of an instruction that has just been appended. -/
theorem push_at? (S : Site func) (hi : i.op.isAlloca = false) (hF : (S.push i).body.Extends F) :
    F.at? S.point = some (S.body.insts.length, i) :=
  hF.at? (Function.pushInst_at? S.valid S.inside hi)

theorem push_has (S : Site func) (hi : i.op.isAlloca = false) (hF : (S.push i).body.Extends F) :
    F.Has S.point i.op :=
  ⟨_, i, S.push_at? hi hF, rfl⟩

theorem push_grows (S : Site func) (hi : i.op.isAlloca = false) :
    S.builder.module.Grows func (S.push i).builder.module :=
  .update S.found (Function.pushInst_extends S.valid S.inside hi)

theorem push_insts_length (S : Site func) (i : Inst) :
    (S.push i).body.insts.length = S.body.insts.length + 1 := by
  show (S.body.pushInst S.block i).insts.length = _
  simp

theorem push_blocks_length (S : Site func) (i : Inst) :
    (S.push i).body.blocks.length = S.body.blocks.length :=
  Function.pushInst_blocks_length ..

theorem point_of_empty (hb : S.block = b) (h : S.body.blockIds b = []) : S.point = .start b := by
  have hcode : S.body.code b = [] := by
    unfold Function.code
    rw [h]
    rfl
  unfold point
  rw [hb, hcode]
  rfl

theorem open_of_empty (hb : S.block = b) (h : S.body.blockIds b = []) : S.Open := by
  unfold Open
  rw [hb]
  exact Function.isTerminated_of_empty h

/-- A block with nothing in it has no merge. -/
theorem noMerge_of_empty (h : f.blockIds b = []) : f.NoMerge b := by
  intro i hi
  rw [h] at hi
  cases hi

end Site

/-! ## New blocks -/

/-- So many blocks have been appended, and nothing else has happened. -/
structure Appended (k : Nat) (S S' : Site func) : Prop where
  block : S'.block = S.block
  code : ∀ b, S'.body.code b = S.body.code b
  ended : ∀ b, S'.body.isTerminated b = S.body.isTerminated b
  grown : ∀ {n home t}, Grown n home t S S'
  length : S'.body.blocks.length = S.body.blocks.length + k
  insts : S'.body.insts.length = S.body.insts.length
  blockIds : ∀ b, S'.body.blockIds b = S.body.blockIds b
  successors : ∀ p, S'.body.successors p = S.body.successors p

theorem Appended.refl (S : Site func) : Appended 0 S S :=
  ⟨rfl, fun _ => rfl, fun _ => rfl, ⟨.refl func _, .refl, Nat.le_refl _⟩, rfl, rfl, fun _ => rfl,
    fun _ => rfl⟩

theorem Appended.addBlock (h : Appended k S S') (hl : label ∈ Build.labels) :
    Appended (k + 1) S (S'.addBlock (Build.newLabel S'.body.blocks label)) where
  block := h.block
  code b := (Function.addBlock_code ..).trans (h.code b)
  ended b := (Function.addBlock_isTerminated ..).trans (h.ended b)
  grown := h.grown.trans (.addBlock S' hl)
  length := by
    show (S'.body.addBlock _).blocks.length = _
    rw [Function.addBlock_blocks_length, h.length, Nat.add_assoc]
  insts := h.insts
  blockIds b := (Function.addBlock_blockIds ..).trans (h.blockIds b)
  successors p := (Function.addBlock_successors ..).trans (h.successors p)

theorem Appended.extend (h : Appended k S S') : S.body.Extends S'.body :=
  (h.grown : Grown 0 0 none S S').extend

theorem Appended.point (h : Appended k S S') : S'.point = S.point := by
  unfold Site.point
  rw [h.block, h.code]

/-- Some blocks have been appended, and the current block has been ended by a
    branch that goes to new blocks only. -/
structure Forked (k : Nat) (S S' : Site func) (op : Op) : Prop where
  grown : ∀ {n home t}, n ≤ S.body.blocks.length → (S.block = home ∨ n ≤ S.block) →
    Grown n home t S S'
  length : S'.body.blocks.length = S.body.blocks.length + k
  insts : S'.body.insts.length = S.body.insts.length + 1
  empty : ∀ b, S.body.blocks.length ≤ b → S'.body.blockIds b = []
  has : ∀ F, S'.body.Extends F → F.Has S.point op
  preds : ∀ s p, S.body.blocks.length ≤ s →
    (s ∈ S'.body.successors p ↔ p = S.block ∧ s ∈ op.successors)

theorem Appended.fork (h : Appended k S S') (hopen : S.Open) (hbounded : S.body.Bounded)
    (hop : op.isTerminator = true)
    (hto : ∀ s ∈ op.successors, S.body.blocks.length ≤ s ∧ s < S.body.blocks.length + k) :
    Forked k S (S'.push ⟨op, .void, none⟩) op := by
  have hslot := Op.not_isAlloca_of_terminator hop
  have hopen' : S'.Open := by
    unfold Site.Open
    rw [h.block, h.ended]
    exact hopen
  -- A block beyond the old ones holds nothing yet.
  have hempty : ∀ b, S.body.blocks.length ≤ b → S'.body.blockIds b = [] := fun b hb => by
    rw [h.blockIds, Function.blockIds_of_le hb]
  refine ⟨?_, ?_, ?_, ?_, ?_, ?_⟩
  · intro n home t hn hin
    refine h.grown.trans (Grown.close hopen' (by rw [h.block]; exact hin) hop fun s hs => ?_)
    obtain ⟨hle, hlt⟩ := hto s hs
    exact ⟨Nat.ne_of_gt (Nat.lt_of_lt_of_le S.pos hle), by rw [h.length]; exact hlt,
      Site.noMerge_of_empty (hempty s hle), .inl (hn.trans hle)⟩
  · show (S'.body.pushInst S'.block _).blocks.length = _
    rw [Function.pushInst_blocks_length, h.length]
  · rw [S'.push_insts_length, h.insts]
  · -- The new blocks are empty still: only the block in hand got an instruction.
    intro b hb
    have hne : b ≠ S'.block := by
      rw [h.block]
      exact Nat.ne_of_gt (Nat.lt_of_lt_of_le S.inside hb)
    show (S'.body.pushInst S'.block _).blockIds b = []
    rw [Function.pushInst_blockIds_ne hne, hempty b hb]
  · intro F hF
    rw [← h.point]
    exact S'.push_has hslot hF
  · -- Edges into the new blocks are the terminator's own, as no old block leads out of bounds.
    intro s p hs
    show s ∈ (S'.body.pushInst S'.block _).successors p ↔ _
    rw [← h.block]
    by_cases hp : p = S'.block
    · subst hp
      rw [Function.pushInst_successors_self S'.inside]
      simp
    · rw [Function.pushInst_successors_ne S'.valid hp, h.successors]
      constructor
      · intro hmem
        exact absurd (hbounded p s hmem) (Nat.not_lt.2 hs)
      · rintro ⟨rfl, -⟩
        exact absurd rfl hp

/-- A conditional branch to two new blocks. -/
theorem Appended.condBr (h : Appended 2 S S') (hopen : S.Open) (hbounded : S.body.Bounded)
    (c : Value) {a : BlockId} (ha : a = S.body.blocks.length ∨ a = S.body.blocks.length + 1)
    (hb : b = S.body.blocks.length ∨ b = S.body.blocks.length + 1) :
    Forked 2 S (S'.push ⟨.condBr c a b, .void, none⟩) (.condBr c a b) := by
  refine h.fork hopen hbounded rfl fun s hs => ?_
  have hs' : s = a ∨ s = b := by simpa [Op.successors] using hs
  have hnew : s = S.body.blocks.length ∨ s = S.body.blocks.length + 1 := by
    rcases hs' with rfl | rfl
    · exact ha
    · exact hb
  rcases hnew with rfl | rfl
  · exact ⟨Nat.le_refl _, Nat.lt_add_of_pos_right Nat.two_pos⟩
  · exact ⟨Nat.le_succ _, Nat.lt_succ_self _⟩

theorem Forked.sound (h : Forked k S S' op) (hs : S.Sound t) : S'.Sound t :=
  (h.grown (Nat.le_refl _) (.inl rfl) : Grown _ S.block t S S').sound (Nat.le_refl _) hs

/-- Loops have their targets among the new blocks. -/
theorem Forked.sound_new (h : Forked k S S' op) (hs : S.Sound t) {tg : Targets}
    (htg : ∀ s ∈ Targets.blocks (some tg), S.body.blocks.length ≤ s ∧ s < S.body.blocks.length + k) :
    S'.Sound (some tg) where
  targets s hmem := by
    obtain ⟨hle, hlt⟩ := htg s hmem
    refine ⟨Nat.ne_of_gt (Nat.lt_of_lt_of_le S.pos hle), ?_, Site.noMerge_of_empty (h.empty s hle)⟩
    rw [h.length]
    exact hlt
  bounded := (h.sound hs).bounded

/-- The builder moves to a block that a branch goes to. -/
theorem Forked.moveTo_open (h : Forked k S S' op) (hb : S.body.blocks.length ≤ b)
    (hin : b < S'.body.blocks.length) : (S'.moveTo b hin).Open :=
  Site.open_of_empty rfl (h.empty b hb)

theorem Site.Sound.moveTo (hs : S.Sound t) (hin : b < S.body.blocks.length) :
    (S.moveTo b hin).Sound t := ⟨hs.targets, hs.bounded⟩

/-! ## The builder -/

namespace Build

variable {w : Builder}

theorem currentFunction_run {id : FuncId} (h : currentFunction.run S.builder = (.ok id, w)) :
    id = func ∧ w = S.builder := by
  obtain ⟨c, w₁, hc, h⟩ := Act.run_bind_eq_ok.1 h
  obtain ⟨rfl, rfl⟩ := cursor_run hc
  exact Act.run_pure_eq_ok.1 h

theorem currentBlock_run (h : currentBlock.run S.builder = (.ok b, w)) :
    b = S.block ∧ w = S.builder := by
  obtain ⟨c, w₁, hc, h⟩ := Act.run_bind_eq_ok.1 h
  obtain ⟨rfl, rfl⟩ := cursor_run hc
  exact Act.run_pure_eq_ok.1 h

/-- One more block behind those that a construct has appended. -/
theorem appendBlock_run (hS : Appended k S S') (hl : label ∈ labels)
    (h : (appendBlock func label).run S'.builder = (.ok b, w)) :
    b = S.body.blocks.length + k ∧ ∃ S'' : Site func, S''.builder = w ∧ Appended (k + 1) S S'' := by
  obtain ⟨f, w₁, hf, h⟩ := Act.run_bind_eq_ok.1 h
  obtain ⟨hfound, rfl⟩ := function_run hf
  rw [S'.found] at hfound
  cases hfound
  obtain ⟨_, w₂, hu, h⟩ := Act.run_bind_eq_ok.1 h
  have hw := Act.run_modify_eq_ok.1 hu
  obtain ⟨rfl, rfl⟩ := Act.run_pure_eq_ok.1 h
  exact ⟨hS.length, _, hw.symm, hS.addBlock hl⟩

theorem moveTo_run (h : (moveTo func b).run S.builder = (.ok u, w))
    (hb : b < S.body.blocks.length) : w = (S.moveTo b hb).builder :=
  Act.run_modify_eq_ok.1 h

theorem emitVoid_run (h : (emitVoid op).run S.builder = (.ok u, w)) :
    S.Open ∧ w = (S.push ⟨op, .void, none⟩).builder := by
  obtain ⟨id, w₁, hid, h⟩ := Act.run_bind_eq_ok.1 h
  obtain ⟨hopen, rfl, rfl⟩ := emit_run hid
  obtain ⟨-, rfl⟩ := Act.run_pure_eq_ok.1 h
  exact ⟨hopen, rfl⟩

/-- A check of an operand leaves the builder as it is. -/
theorem expect_run (h : (expect v ty context).run S.builder = (.ok u, w)) :
    S.body.valueType v = .ok ty ∧ S.builder = w := by
  obtain ⟨found, w₁, hv, h⟩ := Act.run_bind_eq_ok.1 h
  obtain ⟨f, w₂, hf, hv⟩ := Act.run_bind_eq_ok.1 hv
  obtain ⟨rfl, rfl⟩ := current_run hf
  obtain ⟨htype, rfl⟩ := Act.run_ofExcept_eq_ok.1 hv
  obtain ⟨hsame, rfl⟩ := Act.run_refuseIf_eq_ok.1 h
  exact ⟨not_not.1 hsame ▸ htype, rfl⟩

theorem br_run (h : (br target).run S.builder = (.ok u, w)) :
    S.Open ∧ w = (S.push ⟨.br target, .void, none⟩).builder := emitVoid_run h

theorem condBr_run {c : Value} {a : BlockId} (h : (condBr c a b).run S.builder = (.ok u, w)) :
    S.Open ∧ w = (S.push ⟨.condBr c a b, .void, none⟩).builder := by
  obtain ⟨_, w₁, he, h⟩ := Act.run_bind_eq_ok.1 h
  obtain ⟨-, rfl⟩ := expect_run he
  exact emitVoid_run h

theorem ret_run {v : Option Value} (h : (ret v).run S.builder = (.ok u, w)) :
    S.Open ∧ w = (S.push ⟨.ret v, .void, none⟩).builder := by
  obtain ⟨f, w₁, hf, h⟩ := Act.run_bind_eq_ok.1 h
  obtain ⟨rfl, rfl⟩ := current_run hf
  obtain ⟨_, w₂, he, h⟩ := Act.run_bind_eq_ok.1 h
  cases v with
  | none =>
    obtain ⟨-, rfl⟩ := Act.run_refuseIf_eq_ok.1 he
    exact emitVoid_run h
  | some v =>
    obtain ⟨-, rfl⟩ := expect_run he
    exact emitVoid_run h

/-- An operand that has a type has been computed. -/
theorem below_of_valueType (h : f.valueType v = .ok ty) : v.Below f.insts.length := by
  cases v with
  | inst i =>
    unfold Function.valueType at h
    cases hi : f.inst? i with
    | none => simp [hi] at h
    | some x => exact Function.inst?_lt hi
  | _ => trivial

theorem phi_run {a b : Value × BlockId} (h : (phi ty [a, b]).run S.builder = (.ok v, w)) :
    v = .inst S.body.insts.length ∧ w = (S.push ⟨.phi [a, b], ty, none⟩).builder ∧
      b.1.Below S.body.insts.length := by
  obtain ⟨_, w₁, he, h⟩ := Act.run_bind_eq_ok.1 h
  obtain ⟨_, w₂, ha, he⟩ := Act.run_bind_eq_ok.1 he
  obtain ⟨-, rfl⟩ := expect_run ha
  obtain ⟨_, w₃, hb, he⟩ := Act.run_bind_eq_ok.1 he
  obtain ⟨hbelow, rfl⟩ := expect_run hb
  obtain ⟨-, rfl⟩ := Act.run_pure_eq_ok.1 he
  obtain ⟨id, w₄, hid, h⟩ := Act.run_bind_eq_ok.1 h
  obtain ⟨-, rfl, rfl⟩ := emit_run hid
  obtain ⟨rfl, rfl⟩ := Act.run_pure_eq_ok.1 h
  exact ⟨rfl, rfl, below_of_valueType hbelow⟩

end Build

end Shading.IR
