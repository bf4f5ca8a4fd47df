import Mathlib.Data.List.Forall2
import Shading.IR.Text
import Shading.Proofs.TwinExpressions

/-! # Functions that differ in the numbers of their callees

    Two modules may hold the same functions in different places.  The bodies
    of such functions are the same but for the numbers in their calls, which
    are related by a relation `R` (`Function.Like`).  Nothing that the builder
    looks at depends on these numbers, and neither does the written form if
    related numbers belong to functions of one symbol (`Function.Like.text`). -/

namespace Shading

/-- Lists that are related member by member have related members in the same
    places. -/
theorem forall₂_getElem? {α β : Type} {R : α → β → Prop} {l : List α} {l' : List β}
    (h : List.Forall₂ R l l') (i : Nat) :
    (l[i]? = none ∧ l'[i]? = none) ∨ ∃ a b, l[i]? = some a ∧ l'[i]? = some b ∧ R a b := by
  obtain ⟨hlength, hget⟩ := List.forall₂_iff_get.1 h
  by_cases hi : i < l.length
  · have hi' : i < l'.length := hlength ▸ hi
    exact .inr ⟨_, _, List.getElem?_eq_getElem hi, List.getElem?_eq_getElem hi', hget i hi hi'⟩
  · have hi' : l'.length ≤ i := hlength ▸ Nat.not_lt.1 hi
    exact .inl ⟨List.getElem?_eq_none (Nat.not_lt.1 hi), List.getElem?_eq_none hi'⟩

namespace IR

variable {R R' : FuncId → FuncId → Prop}

/-! ## Instructions -/

/-- The same operation, with a related callee if it is a call. -/
inductive Op.Like (R : FuncId → FuncId → Prop) : Op → Op → Prop
  | call {c c' : FuncId} (h : R c c') (args : List Value) : Like R (.call c args) (.call c' args)
  | same {op : Op} (h : ∀ c, op.calls c = false) : Like R op op

namespace Op.Like

variable {op op' : Op}

theorem mono (h : op.Like R op') (hR : ∀ c c', R c c' → R' c c') : op.Like R' op' := by
  cases h with
  | call h args => exact .call (hR _ _ h) args
  | same h => exact .same h

theorem symm (h : op.Like R op') : op'.Like (fun c c' => R c' c) op := by
  cases h with
  | @call c c' h args => exact .call (R := fun c c' => R c' c) h args
  | same h => exact .same h

theorem isTerminator (h : op.Like R op') : op'.isTerminator = op.isTerminator := by
  cases h <;> rfl

theorem isAlloca (h : op.Like R op') : op'.isAlloca = op.isAlloca := by
  cases h <;> rfl

theorem successors (h : op.Like R op') : op'.successors = op.successors := by
  cases h <;> rfl

end Op.Like

/-- The same instruction, with a related callee if it is a call. -/
structure Inst.Like (R : FuncId → FuncId → Prop) (i i' : Inst) : Prop where
  op : i.op.Like R i'.op
  ty : i'.ty = i.ty
  name : i'.name = i.name

theorem Inst.Like.mono {i i' : Inst} (h : i.Like R i') (hR : ∀ c c', R c c' → R' c c') :
    i.Like R' i' :=
  ⟨h.op.mono hR, h.ty, h.name⟩

theorem Inst.Like.symm {i i' : Inst} (h : i.Like R i') : i'.Like (fun c c' => R c' c) i :=
  ⟨h.op.symm, h.ty.symm, h.name.symm⟩

namespace Function

/-! ## Functions -/

/-- The functions are declared alike. -/
structure SameHead (f f' : Function) : Prop where
  name : f'.name = f.name
  signature : f'.signature = f.signature
  linkage : f'.linkage = f.linkage

theorem SameHead.symm {f f' : Function} (h : f.SameHead f') : f'.SameHead f :=
  ⟨h.name.symm, h.signature.symm, h.linkage.symm⟩

theorem SameHead.withBodyOf {f f' : Function} (h : f.SameHead f') : f.withBodyOf f' = f' := by
  unfold Function.withBodyOf
  rw [← h.name, ← h.signature, ← h.linkage]

/-- The functions are declared alike and have the same body, with related
    callees. -/
structure Like (R : FuncId → FuncId → Prop) (f f' : Function) : Prop extends SameHead f f' where
  blocks : f'.blocks = f.blocks
  insts : List.Forall₂ (Inst.Like R) f.insts f'.insts

namespace Like

variable {f f' : Function}

theorem mono (h : f.Like R f') (hR : ∀ c c', R c c' → R' c c') : f.Like R' f' :=
  { h with insts := h.insts.imp fun _ _ hi => hi.mono hR }

theorem symm (h : f.Like R f') : f'.Like (fun c c' => R c' c) f :=
  { h.toSameHead.symm with
    blocks := h.blocks.symm
    insts := (h.insts.imp fun _ _ hi => hi.symm).flip }

/-- Functions without a body that are declared alike. -/
theorem of_empty (h : f.SameHead f') (hblocks : f.blocks = []) (hinsts : f.insts = [])
    (hblocks' : f'.blocks = []) (hinsts' : f'.insts = []) : f.Like R f' where
  toSameHead := h
  blocks := hblocks'.trans hblocks.symm
  insts := by rw [hinsts, hinsts']; exact .nil

theorem block? (h : f.Like R f') (b : BlockId) : f'.block? b = f.block? b := by
  unfold Function.block?
  rw [h.blocks]

theorem inst? (h : f.Like R f') (id : InstId) :
    (f.inst? id = none ∧ f'.inst? id = none) ∨
      ∃ i i', f.inst? id = some i ∧ f'.inst? id = some i' ∧ i.Like R i' :=
  forall₂_getElem? h.insts id

/-- What does not depend on callees is found alike. -/
theorem inst?_map {α : Type} (h : f.Like R f') (key : Inst → α)
    (hkey : ∀ i i', i.Like R i' → key i' = key i) (id : InstId) :
    (f'.inst? id).map key = (f.inst? id).map key := by
  rcases h.inst? id with ⟨hi, hi'⟩ | ⟨i, i', hi, hi', hlike⟩
  · rw [hi, hi']
  · rw [hi, hi', Option.map_some, Option.map_some, hkey i i' hlike]

/-! ## What the builder looks at -/

/-- Alike functions give every value the same type. -/
theorem valueType (h : f.Like R f') (v : Value) : f'.valueType v = f.valueType v := by
  cases v with
  | const c => rfl
  | arg i =>
    unfold Function.valueType
    rw [h.signature, h.name]
  | inst id =>
    unfold Function.valueType
    rcases h.inst? id with ⟨hi, hi'⟩ | ⟨i, i', hi, hi', hlike⟩
    · simp only [hi, hi']
    · simp only [hi, hi', hlike.ty]
  | void => rfl

theorem terminator?_map {α : Type} (h : f.Like R f') (key : Inst → α)
    (hkey : ∀ i i', i.Like R i' → key i' = key i) (b : BlockId) :
    (f'.terminator? b).map key = (f.terminator? b).map key := by
  unfold Function.terminator?
  rw [h.block? b]
  cases f.block? b with
  | none => rfl
  | some block =>
    simp only [Option.bind_eq_bind, Option.bind_some]
    cases block.insts.getLast? with
    | none => rfl
    | some last =>
      simp only [Option.bind_some]
      -- The last instructions are alike or both missing.
      rcases h.inst? last with ⟨hi, hi'⟩ | ⟨i, i', hi, hi', hlike⟩
      · rw [hi, hi']
      · rw [hi, hi', Option.filter_some, Option.filter_some, hlike.op.isTerminator]
        by_cases hend : i.op.isTerminator = true
        · rw [if_pos hend, if_pos hend, Option.map_some, Option.map_some, hkey i i' hlike]
        · rw [if_neg hend, if_neg hend]

/-- Alike functions end the same blocks. -/
theorem isTerminated (h : f.Like R f') (b : BlockId) : f'.isTerminated b = f.isTerminated b := by
  have hkey := h.terminator?_map (fun _ => ()) (fun _ _ _ => rfl) b
  unfold Function.isTerminated
  rw [← Option.isSome_map (f := fun _ => ()), hkey, Option.isSome_map]

theorem successors (h : f.Like R f') (b : BlockId) : f'.successors b = f.successors b := by
  have hkey := h.terminator?_map (fun i => i.op.successors)
    (fun _ _ hlike => hlike.op.successors) b
  unfold Function.successors
  cases hi : f.terminator? b with
  | none =>
    rw [hi, Option.map_none, Option.map_eq_none_iff] at hkey
    rw [hkey]
  | some i =>
    rw [hi, Option.map_some] at hkey
    obtain ⟨i', hi', heq⟩ := Option.map_eq_some_iff.1 hkey
    rw [hi']
    exact heq

theorem leadingAllocas (h : f.Like R f') (b : BlockId) :
    f'.leadingAllocas b = f.leadingAllocas b := by
  -- The count depends only on which instructions of the block are slots.
  have hkeys : (f'.blockInsts b).map (·.op.isAlloca) = (f.blockInsts b).map (·.op.isAlloca) := by
    unfold Function.blockInsts
    rw [h.block? b]
    cases f.block? b with
    | none => rfl
    | some block =>
      simp only [List.map_filterMap]
      exact congrArg (List.filterMap · block.insts)
        (funext (h.inst?_map _ fun _ _ hlike => hlike.op.isAlloca))
  have hcount : ∀ l : List Inst, (l.takeWhile (·.op.isAlloca)).length =
      ((l.map (·.op.isAlloca)).takeWhile id).length := by
    intro l
    rw [List.takeWhile_map, List.length_map]
    rfl
  unfold Function.leadingAllocas
  rw [hcount, hcount, hkeys]

/-! ## Checks on finished functions -/

/-- A search through alike functions finds the same blocks. -/
theorem explore (h : f.Like R f') (turns : Nat) (marked pending : List BlockId) :
    f'.explore turns marked pending = f.explore turns marked pending := by
  have hnext : f'.next = f.next := by
    funext b
    unfold Function.next
    rw [h.successors, h.blocks]
  -- By induction on the turns: each one follows the branches of a block, the same in both.
  induction turns generalizing marked pending with
  | zero => rfl
  | succ turns ih =>
    cases pending with
    | nil => rfl
    | cons b rest =>
      unfold Function.explore
      rw [hnext]
      exact ih _ _

theorem reachable (h : f.Like R f') : f'.reachable = f.reachable := by
  unfold Function.reachable
  rw [h.blocks, h.explore]

/-- The verifier does not tell alike functions apart. -/
theorem verifyBlock (h : f.Like R f') : f'.verifyBlock = f.verifyBlock := by
  have hends : ∀ i, (f'.inst? i).any (·.op.isTerminator) = (f.inst? i).any (·.op.isTerminator) := by
    intro id
    rcases h.inst? id with ⟨hi, hi'⟩ | ⟨i, i', hi, hi', hlike⟩
    · rw [hi, hi']
    · rw [hi, hi', Option.any_some, Option.any_some, hlike.op.isTerminator]
  funext block
  unfold Function.verifyBlock
  simp only [hends]

theorem sameChecks (h : f.Like R f') : f.SameChecks f' where
  isReachable := by
    funext b
    unfold Function.isReachable
    rw [h.reachable]
  allPathsReturn := by
    have hopen : f'.openBlocks = f.openBlocks := by
      unfold Function.openBlocks
      rw [h.reachable]
      exact List.filter_congr fun b _ => by rw [h.isTerminated]
    unfold Function.allPathsReturn
    rw [h.blocks, hopen]
  verify := by
    unfold Function.verify
    rw [h.blocks, h.verifyBlock]

/-! ## Changes -/

theorem addBlock (h : f.Like R f') (label : String) : (f.addBlock label).Like R (f'.addBlock label) :=
  { h with
    blocks := by
      unfold Function.addBlock
      rw [h.blocks] }

theorem clearBody (h : f.SameHead f') : f.clearBody.Like R f'.clearBody :=
  { h with
    blocks := rfl
    insts := .nil }

theorem insts_append (h : f.Like R f') {i i' : Inst} (hi : i.Like R i') :
    List.Forall₂ (Inst.Like R) (f.insts ++ [i]) (f'.insts ++ [i']) :=
  List.rel_append h.insts (.cons hi .nil)

theorem pushInst (h : f.Like R f') {i i' : Inst} (hi : i.Like R i') (b : BlockId) :
    (f.pushInst b i).Like R (f'.pushInst b i') :=
  { h with
    blocks := by
      unfold Function.pushInst
      rw [h.blocks, h.insts.length_eq]
    insts := h.insts_append hi }

theorem insertInst (h : f.Like R f') {i i' : Inst} (hi : i.Like R i') (b : BlockId) (place : Nat) :
    (f.insertInst b place i).Like R (f'.insertInst b place i') :=
  { h with
    blocks := by
      unfold Function.insertInst
      rw [h.blocks, h.insts.length_eq]
    insts := h.insts_append hi }

/-! ## The written form -/

variable {m m' : Module}

/-- Alike instructions read alike, if callees that correspond have one name. -/
theorem opText (h : f.Like R f')
    (hR : ∀ c c', R c c' → (m'.function? c').map (·.name) = (m.function? c).map (·.name))
    {i i' : Inst} (hi : i.Like R i') : f'.opText m' i' = f.opText m i := by
  have hlabel : f'.labelOf = f.labelOf := by
    funext b
    unfold Function.labelOf
    rw [h.block? b]
  have hcallee : ∀ c c', R c c' →
      (m'.function? c').elim "?" (·.name) = (m.function? c).elim "?" (·.name) := by
    intro c c' hc
    have hname := hR c c' hc
    cases hg : m.function? c with
    | none =>
      rw [hg, Option.map_none, Option.map_eq_none_iff] at hname
      rw [hname]
    | some g =>
      rw [hg, Option.map_some] at hname
      obtain ⟨g', hg', hgg'⟩ := Option.map_eq_some_iff.1 hname
      rw [hg']
      exact hgg'
  obtain ⟨op, ty, name⟩ := i
  obtain ⟨op', ty', name'⟩ := i'
  obtain rfl : ty' = ty := hi.ty
  have hop : op.Like R op' := hi.op
  -- A call is written with the symbol of its callee, and no other operation names a function.
  unfold Function.opText
  cases hop with
  | @call c c' hc args => simp only [hcallee c c' hc]
  | same hne =>
    cases op with
    | call c args => exact absurd (hne c) (by simp [Op.calls])
    | cmp pred float l r => cases float <;> rfl
    | ret v => cases v <;> rfl
    | phi | br | condBr => simp only [hlabel]
    | _ => rfl

/-- Functions that differ in the numbers of their callees are written alike. -/
theorem text (h : f.Like R f')
    (hR : ∀ c c', R c c' → (m'.function? c').map (·.name) = (m.function? c).map (·.name)) :
    f'.text m' = f.text m := by
  -- From the line of one instruction to the block and to the function.
  have hline : f'.instLine m' = f.instLine m := by
    funext id
    unfold Function.instLine
    rcases h.inst? id with ⟨hi, hi'⟩ | ⟨i, i', hi, hi', hlike⟩
    · rw [hi, hi']
    · have htext := h.opText hR hlike
      obtain ⟨op, ty, name⟩ := i
      obtain ⟨op', ty', name'⟩ := i'
      obtain rfl : ty' = ty := hlike.ty
      obtain rfl : name' = name := hlike.name
      simp only [hi, hi', htext]
      rfl
  have hblock : f'.blockText m' = f.blockText m := by
    funext block
    unfold Function.blockText
    rw [hline]
  have hdeclared : f'.isDeclaration = f.isDeclaration := by
    unfold Function.isDeclaration
    rw [h.blocks]
  have hhead : f'.headText = f.headText := by
    unfold Function.headText
    rw [hdeclared, h.linkage, h.signature, h.name]
  unfold Function.text
  rw [hdeclared, hhead, h.blocks, hblock]

end Like

end Function

end IR

end Shading
