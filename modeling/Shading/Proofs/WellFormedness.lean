import Mathlib.Data.List.Nodup
import Shading.Proofs.Operations

/-! # Functions stay well formed

    However a builder is used, the functions of its module keep a form that
    everything else relies on.  Each kind of change keeps it: a cleared
    function has nothing left that could break it, a new block is empty, and
    a new instruction satisfies its rule, has a number of its own and goes
    to a place where it does no harm.  Main result:
    `performAll_keeps_functions_wellFormed`. -/

namespace Shading.IR

/-! ## The form -/

/-- A function of a module as a builder leaves it. -/
structure Function.WellFormed (m : Module) (f : Function) : Prop where
  /-- What a block lists exists. -/
  listed : f.Valid
  /-- No instruction is listed twice in a block, or in two blocks. -/
  once : ∀ b, (f.blockIds b).Nodup
  apart : ∀ b b' i, i ∈ f.blockIds b → i ∈ f.blockIds b' → b = b'
  /-- Only the last instruction of a block may end it. -/
  ended : f.Clean
  /-- The slots that the entry block starts with are in the order of their
      creation, and no slot stands behind them or in another block. -/
  order : (f.slots 0).Pairwise (· < ·)
  front : ∀ i ∈ f.code 0, f.isSlot i = false
  inner : ∀ b, b ≠ 0 → ∀ i ∈ f.blockIds b, f.isSlot i = false
  /-- Operands were created before the instructions that use them. -/
  operands : ∀ id i, f.inst? id = some i → ∀ j, .inst j ∈ i.op.operands → j < id
  /-- Every instruction satisfies its rule, with the types that operands have
      now. -/
  rules : ∀ id i, f.inst? id = some i → i.WellTyped m f

namespace Function

variable {m m' : Module} {f : Function} {i : Inst} {b : BlockId}

/-- Types of operands do not depend on what is added behind. -/
theorem valueType_append {g : Function} {rest : List Inst} (hsig : g.signature = f.signature)
    (hinsts : g.insts = f.insts ++ rest) {v : Value} {ty : Ty} (h : f.valueType v = .ok ty) :
    g.valueType v = .ok ty := by
  -- Constants have a type of their own; the others are found where they were before.
  cases v with
  | const c => exact h
  | void => exact h
  | arg k =>
    unfold valueType at h ⊢
    rw [hsig]
    cases hk : f.signature.params[k]? with
    | none => simp [hk] at h
    | some t =>
      simp only [hk] at h ⊢
      exact h
  | inst id =>
    unfold valueType at h ⊢
    cases hid : f.inst? id with
    | none => simp [hid] at h
    | some x =>
      have hid' : g.inst? id = some x := by
        unfold inst?
        rw [hinsts, List.getElem?_append_left (inst?_lt hid)]
        exact hid
      simp only [hid, hid'] at h ⊢
      exact h

theorem valueType_inst_lt {id : InstId} {ty : Ty} (h : f.valueType (.inst id) = .ok ty) :
    id < f.insts.length := by
  unfold valueType at h
  cases hid : f.inst? id with
  | none => simp [hid] at h
  | some x => exact inst?_lt hid

/-- An instruction of a longer function is an old one or the last one. -/
theorem inst?_concat {g : Function} (hinsts : g.insts = f.insts ++ [i]) {id : InstId} {x : Inst}
    (h : g.inst? id = some x) : f.inst? id = some x ∨ id = f.insts.length ∧ x = i := by
  unfold inst? at h ⊢
  rw [hinsts] at h
  rcases Nat.lt_trichotomy id f.insts.length with hlt | heq | hgt
  · rw [List.getElem?_append_left hlt] at h
    exact .inl h
  · subst heq
    simp only [List.getElem?_concat_length, Option.some.injEq] at h
    exact .inr ⟨rfl, h.symm⟩
  · rw [List.getElem?_eq_none (by simp; omega)] at h
    cases h

namespace WellFormed

/-- Nothing is wrong with a function that has no body. -/
theorem of_no_body (hblocks : f.blocks = []) (hinsts : f.insts = []) : f.WellFormed m := by
  -- There is nothing in any block, and there is no instruction at all.
  have hids : ∀ b, f.blockIds b = [] := fun b => blockIds_of_le (by rw [hblocks]; exact Nat.zero_le b)
  have hnone : ∀ id i, f.inst? id ≠ some i := by
    intro id i h
    unfold inst? at h
    rw [hinsts] at h
    cases h
  refine ⟨?_, ?_, ?_, ?_, ?_, ?_, ?_, ?_, ?_⟩
  · intro b i hi
    rw [hids] at hi
    cases hi
  · intro b
    rw [hids]
    exact List.nodup_nil
  · intro b b' i hi
    rw [hids] at hi
    cases hi
  · intro b i hi
    rw [hids] at hi
    cases hi
  · rw [slots, hids]
    exact List.Pairwise.nil
  · intro i hi
    rw [code, hids] at hi
    cases hi
  · intro b _ i hi
    rw [hids] at hi
    cases hi
  · intro id i h
    exact absurd h (hnone id i)
  · intro id i h
    exact absurd h (hnone id i)

/-- Only the signatures of other functions matter. -/
theorem module_mono (h : f.WellFormed m) (hheads : ∀ id g, m.function? id = some g →
    ∃ g', m'.function? id = some g' ∧ g'.signature = g.signature) : f.WellFormed m' :=
  { h with rules := fun id i hi => (h.rules id i hi).mono rfl (fun _ _ hv => hv) hheads }

theorem addBlock (h : f.WellFormed m) (label : String) : (f.addBlock label).WellFormed m where
  listed := addBlock_valid h.listed label
  once b := by
    rw [addBlock_blockIds]
    exact h.once b
  apart b b' i := by
    rw [addBlock_blockIds, addBlock_blockIds]
    exact h.apart b b' i
  ended := h.ended.addBlock label
  order := by
    rw [addBlock_slots]
    exact h.order
  front i hi := by
    rw [addBlock_code] at hi
    exact h.front i hi
  inner b hb i hi := by
    rw [addBlock_blockIds] at hi
    exact h.inner b hb i hi
  operands := h.operands
  rules id i hi := (h.rules id i hi).mono rfl (fun _ _ hv => hv) fun _ g hg => ⟨g, hg, rfl⟩

/-- An instruction that is listed at most at one new place is listed once. -/
theorem listed_once {g : Function} (h : f.WellFormed m) (hinsts : g.insts = f.insts ++ [i])
    (hids : ∀ b', g.blockIds b' = f.blockIds b' ∨ b' = b ∧ ∃ xs ys,
      f.blockIds b' = xs ++ ys ∧ g.blockIds b' = xs ++ f.insts.length :: ys) :
    g.Valid ∧ (∀ b, (g.blockIds b).Nodup) ∧
      ∀ b b' j, j ∈ g.blockIds b → j ∈ g.blockIds b' → b = b' := by
  -- The number of the new instruction is not in use, which keeps the lists apart.
  have hfresh : ∀ b, f.insts.length ∉ f.blockIds b := fun b hb => Nat.lt_irrefl _ (h.listed b _ hb)
  have hmem : ∀ b' j, j ∈ g.blockIds b' → j ∈ f.blockIds b' ∨ j = f.insts.length ∧ b' = b := by
    intro b' j hj
    rcases hids b' with hsame | ⟨rfl, xs, ys, hf, hg⟩
    · rw [hsame] at hj
      exact .inl hj
    · rw [hg] at hj
      rw [hf]
      simp only [List.mem_append, List.mem_cons] at hj ⊢
      tauto
  refine ⟨?_, ?_, ?_⟩
  · intro b' j hj
    rw [hinsts, List.length_append, List.length_singleton]
    rcases hmem b' j hj with hold | ⟨rfl, -⟩
    · exact Nat.lt_succ_of_lt (h.listed b' j hold)
    · exact Nat.lt_succ_self _
  · intro b'
    rcases hids b' with hsame | ⟨rfl, xs, ys, hf, hg⟩
    · rw [hsame]
      exact h.once b'
    · rw [hg, List.nodup_middle, ← hf]
      exact List.nodup_cons.2 ⟨hfresh b', h.once b'⟩
  · intro b₁ b₂ j hj₁ hj₂
    rcases hmem b₁ j hj₁ with hold₁ | ⟨rfl, rfl⟩
    · rcases hmem b₂ j hj₂ with hold₂ | ⟨rfl, rfl⟩
      · exact h.apart b₁ b₂ j hold₁ hold₂
      · exact absurd hold₁ (hfresh b₁)
    · rcases hmem b₂ _ hj₂ with hold₂ | ⟨-, rfl⟩
      · exact absurd hold₂ (hfresh b₂)
      · rfl

/-- The new instruction satisfies its rule, and the old ones still do. -/
theorem rules_concat {g : Function} (h : f.WellFormed m) (hsig : g.signature = f.signature)
    (hinsts : g.insts = f.insts ++ [i]) (hrule : i.WellTyped m f) :
    (∀ id x, g.inst? id = some x → ∀ j, .inst j ∈ x.op.operands → j < id) ∧
      ∀ id x, g.inst? id = some x → x.WellTyped m g := by
  have hkeep : ∀ {x : Inst}, x.WellTyped m f → x.WellTyped m g := fun hx =>
    hx.mono hsig (fun _ _ hv => valueType_append hsig hinsts hv) fun _ g hg => ⟨g, hg, rfl⟩
  constructor
  · intro id x hx j hj
    rcases inst?_concat hinsts hx with hold | ⟨rfl, rfl⟩
    · exact h.operands id x hold j hj
    · obtain ⟨ty, hty⟩ := hrule.operands _ hj
      exact valueType_inst_lt hty
  · intro id x hx
    rcases inst?_concat hinsts hx with hold | ⟨rfl, rfl⟩
    · exact hkeep (h.rules id x hold)
    · exact hkeep hrule

/-- What stood in a function is what it was. -/
theorem inst?_old {g : Function} (hinsts : g.insts = f.insts ++ [i]) {j : InstId}
    (hj : j < f.insts.length) : g.inst? j = f.inst? j := by
  unfold inst?
  rw [hinsts, List.getElem?_append_left hj]

/-- An instruction that no block lists does no harm. -/
theorem unlisted {g : Function} (h : f.WellFormed m) (hsig : g.signature = f.signature)
    (hinsts : g.insts = f.insts ++ [i]) (hids : ∀ b, g.blockIds b = f.blockIds b)
    (hrule : i.WellTyped m f) : g.WellFormed m := by
  obtain ⟨hlisted, honce, hapart⟩ := h.listed_once (b := 0) hinsts fun b => .inl (hids b)
  obtain ⟨hoperands, hrules⟩ := h.rules_concat hsig hinsts hrule
  -- The old instructions are what they were, so slots and code split in the same place.
  have hslot : ∀ b, ∀ j ∈ f.blockIds b, g.isSlot j = f.isSlot j := by
    intro b j hj
    unfold isSlot
    rw [inst?_old hinsts (h.listed b j hj)]
  have hsplit : g.code 0 = f.code 0 ∧ g.slots 0 = f.slots 0 := by
    unfold code slots
    rw [hids 0]
    exact dropWhile_isSlot_congr (hslot 0)
  refine ⟨hlisted, honce, hapart, ?_, ?_, ?_, ?_, hoperands, hrules⟩
  · intro b j hj x hx
    rw [hids] at hj
    rw [inst?_old hinsts (h.listed b j (List.dropLast_subset _ hj))] at hx
    exact h.ended b j hj x hx
  · rw [hsplit.2]
    exact h.order
  · intro j hj
    rw [hsplit.1] at hj
    rw [hslot 0 j ((f.code_sublist 0).subset hj)]
    exact h.front j hj
  · intro b hb j hj
    rw [hids] at hj
    rw [hslot b j hj]
    exact h.inner b hb j hj

/-- An instruction at the end of a block. -/
theorem pushInst (h : f.WellFormed m) (hopen : f.isTerminated b = false)
    (hi : i.op.isAlloca = false) (hrule : i.WellTyped m f) : (f.pushInst b i).WellFormed m := by
  by_cases hb : b < f.blocks.length
  · obtain ⟨hlisted, honce, hapart⟩ := h.listed_once (g := f.pushInst b i) (b := b) rfl fun b' => by
      by_cases hb' : b' = b
      · subst hb'
        exact .inr ⟨rfl, f.blockIds b', [], by simp, pushInst_blockIds_self hb i⟩
      · exact .inl (pushInst_blockIds_ne hb' i)
    obtain ⟨hoperands, hrules⟩ := h.rules_concat (g := f.pushInst b i) rfl rfl hrule
    have hnew : (f.pushInst b i).isSlot f.insts.length = false := by rw [pushInst_isSlot_new, hi]
    -- Old instructions are slots or not, as before.
    have hold : ∀ b', ∀ j ∈ f.blockIds b', (f.pushInst b i).isSlot j = f.isSlot j :=
      fun b' j hj => pushInst_isSlot_of_lt (h.listed b' j hj) b i
    refine ⟨hlisted, honce, hapart, h.ended.pushInst h.listed hb hopen i, ?_, ?_, ?_, hoperands,
      hrules⟩
    · by_cases hentry : 0 = b
      · subst hentry
        rw [pushInst_slots_self h.listed hb hi]
        exact h.order
      · rw [pushInst_slots_ne h.listed hentry]
        exact h.order
    · intro j hj
      have hcode : j ∈ f.code 0 ∨ j = f.insts.length := by
        by_cases hentry : 0 = b
        · subst hentry
          rw [pushInst_code_self h.listed hb hi, List.mem_append, List.mem_singleton] at hj
          exact hj
        · rw [pushInst_code_ne h.listed hentry] at hj
          exact .inl hj
      rcases hcode with hj | rfl
      · rw [hold 0 j ((f.code_sublist 0).subset hj)]
        exact h.front j hj
      · exact hnew
    · intro b' hb' j hj
      by_cases hhere : b' = b
      · subst hhere
        rw [pushInst_blockIds_self hb, List.mem_append, List.mem_singleton] at hj
        rcases hj with hj | rfl
        · rw [hold b' j hj]
          exact h.inner b' hb' j hj
        · exact hnew
      · rw [pushInst_blockIds_ne hhere] at hj
        rw [hold b' j hj]
        exact h.inner b' hb' j hj
  · -- There is no such block, so the instruction is created but not listed.
    refine h.unlisted rfl rfl (fun b' => ?_) hrule
    by_cases hb' : b' = b
    · subst hb'
      rw [blockIds_of_le (Nat.not_lt.1 hb), blockIds_of_le]
      rw [pushInst_blocks_length]
      exact Nat.not_lt.1 hb
    · exact pushInst_blockIds_ne hb' i

/-- A slot behind the slots of the entry block. -/
theorem addSlot (h : f.WellFormed m) (hi : i.op.isAlloca = true) (hrule : i.WellTyped m f) :
    (f.addSlot i).WellFormed m := by
  by_cases hb : 0 < f.blocks.length
  · obtain ⟨hlisted, honce, hapart⟩ := h.listed_once (g := f.addSlot i) (b := 0) rfl fun b' => by
      by_cases hb' : b' = 0
      · subst hb'
        exact .inr ⟨rfl, f.slots 0, f.code 0, (f.slots_append_code 0).symm,
          addSlot_blockIds_entry h.listed hb i⟩
      · exact .inl (addSlot_blockIds_ne hb' i)
    obtain ⟨hoperands, hrules⟩ := h.rules_concat (g := f.addSlot i) rfl rfl hrule
    have hold : ∀ b', ∀ j ∈ f.blockIds b', (f.addSlot i).isSlot j = f.isSlot j :=
      fun b' j hj => addSlot_isSlot_of_lt (h.listed b' j hj) i
    refine ⟨hlisted, honce, hapart, h.ended.addSlot h.listed hb hi, ?_, ?_, ?_, hoperands, hrules⟩
    · -- The new slot has the largest number, and it is the last of the slots.
      rw [addSlot_slots_entry h.listed hb hi, List.pairwise_append]
      refine ⟨h.order, List.pairwise_singleton _ _, fun j hj k hk => ?_⟩
      rw [List.mem_singleton.1 hk]
      exact h.listed 0 j ((List.takeWhile_sublist _).subset hj)
    · intro j hj
      rw [addSlot_code_entry h.listed hb hi] at hj
      rw [hold 0 j ((f.code_sublist 0).subset hj)]
      exact h.front j hj
    · intro b' hb' j hj
      rw [addSlot_blockIds_ne hb'] at hj
      rw [hold b' j hj]
      exact h.inner b' hb' j hj
  -- Without a block the slot is created but not listed.
  · refine h.unlisted rfl rfl (fun b' => ?_) hrule
    have hnone : f.blocks.length ≤ b' := Nat.le_trans (Nat.not_lt.1 hb) (Nat.zero_le b')
    rw [blockIds_of_le hnone, blockIds_of_le]
    rw [addSlot_blocks_length]
    exact hnone

end WellFormed

end Function

/-! ## Modules -/

namespace Module

variable {m m' : Module}

/-- All functions are well formed. -/
def WellFormed (m : Module) : Prop := ∀ id f, m.function? id = some f → f.WellFormed m

/-- A function keeps its place, its symbol, its signature and its linkage. -/
def KeepsHeads (m m' : Module) : Prop := ∀ id f, m.function? id = some f →
  ∃ g, m'.function? id = some g ∧ g.name = f.name ∧ g.signature = f.signature ∧
    g.linkage = f.linkage

theorem KeepsHeads.refl (m : Module) : m.KeepsHeads m := fun _ f hf => ⟨f, hf, rfl, rfl, rfl⟩

theorem KeepsHeads.trans {m'' : Module} (h₁ : m.KeepsHeads m') (h₂ : m'.KeepsHeads m'') :
    m.KeepsHeads m'' := by
  intro id f hf
  obtain ⟨g, hg, hname, hsig, hlink⟩ := h₁ id f hf
  obtain ⟨k, hk, hname', hsig', hlink'⟩ := h₂ id g hg
  exact ⟨k, hk, hname'.trans hname, hsig'.trans hsig, hlink'.trans hlink⟩

theorem KeepsHeads.update (m : Module) (func : FuncId) (g : Function → Function) :
    m.KeepsHeads (m.update func g) := by
  intro id f hf
  by_cases hid : id = func
  · subst hid
    exact ⟨f.withBodyOf (g f), by rw [update_function?_self, hf, Option.map_some], rfl, rfl, rfl⟩
  · exact ⟨f, by rw [update_function?_ne _ hid, hf], rfl, rfl, rfl⟩

theorem Change.keepsHeads (h : m.Change m') : m.KeepsHeads m' := by
  cases h with
  | body h =>
    obtain rfl | ⟨func, g, rfl⟩ := h.eq_update
    · exact .refl _
    · exact .update m func g
  | declared hfind =>
    intro id f hf
    exact ⟨f, by rw [add_function?_of_lt (function?_lt hf), hf], rfl, rfl, rfl⟩

/-- A function is changed, and all others are as they were. -/
theorem WellFormed.update (h : m.WellFormed) {func : FuncId} {g : Function → Function}
    (hg : ∀ f, m.function? func = some f → (f.withBodyOf (g f)).WellFormed m) :
    (m.update func g).WellFormed := by
  intro id f hf
  have hsigs : ∀ id h, m.function? id = some h →
      ∃ h', (m.update func g).function? id = some h' ∧ h'.signature = h.signature := by
    intro id h hh
    obtain ⟨h', hh', -, hsig, -⟩ := KeepsHeads.update m func g id h hh
    exact ⟨h', hh', hsig⟩
  by_cases hid : id = func
  · subst hid
    rw [update_function?_self] at hf
    obtain ⟨f₀, hf₀, rfl⟩ := Option.map_eq_some_iff.1 hf
    exact (hg f₀ hf₀).module_mono hsigs
  · rw [update_function?_ne _ hid] at hf
    exact (h id f hf).module_mono hsigs

/-- What a change of bodies keeps. -/
theorem WellFormed.rework (h : m.WellFormed) (hrework : m.Rework m') : m'.WellFormed := by
  -- Each kind of change is settled by its own lemma about the function that it is in.
  cases hrework with
  | none => exact h
  | block func label => exact h.update fun f hf => (h func f hf).addBlock label
  | cleared func => exact h.update fun f _ => .of_no_body rfl rfl
  | @slot func f i hf hi hrule =>
    refine h.update fun g hg => ?_
    obtain rfl : f = g := Option.some.inj (hf.symm.trans hg)
    exact (h func f hf).addSlot hi hrule
  | @push func f block i hf hopen hi hrule =>
    refine h.update fun g hg => ?_
    obtain rfl : f = g := Option.some.inj (hf.symm.trans hg)
    exact (h func f hf).pushInst hopen hi hrule

/-- What one operation keeps. -/
theorem WellFormed.change (h : m.WellFormed) (hchange : m.Change m') : m'.WellFormed := by
  cases hchange with
  | body hrework => exact h.rework hrework
  | @declared name sig linkage hfind =>
    -- A change of heads is seen by calls only.
    intro id f hf
    have hsigs : ∀ id g, m.function? id = some g →
        ∃ g', (m.add name sig linkage).function? id = some g' ∧ g'.signature = g.signature :=
      fun id g hg => ⟨g, by rw [add_function?_of_lt (function?_lt hg), hg], rfl⟩
    rcases add_function?_cases hf with hf | rfl
    · exact (h id f hf).module_mono hsigs
    · exact .of_no_body rfl rfl

end Module

/-! ## Every use of a builder -/

/-- What any number of operations keeps. -/
theorem Builder.performAll_wellFormed {b : Builder} (h : b.module.WellFormed)
    (os : List Operation) : (b.performAll os).module.WellFormed ∧
      b.module.KeepsHeads (b.performAll os).module := by
  refine List.foldlRecOn (motive := fun t : Builder => t.module.WellFormed ∧
    b.module.KeepsHeads t.module) os _ ⟨h, .refl _⟩ ?_
  intro t ht o _
  have hchange := Operation.perform_change t o
  exact ⟨ht.1.change hchange, ht.2.trans hchange.keepsHeads⟩

/-- A builder that starts with an empty module may be used in any way,
    whichever of its operations are refused: all functions are well formed
    at all times, and a function that has been declared keeps its place, its
    symbol, its signature and its linkage for good. -/
theorem performAll_keeps_functions_wellFormed (name : String) (os more : List Operation)
    {id : FuncId} {f : Function}
    (hf : ((Builder.start (.empty name)).performAll os).module.function? id = some f) :
    f.WellFormed ((Builder.start (.empty name)).performAll os).module ∧
      ∃ g, ((Builder.start (.empty name)).performAll (os ++ more)).module.function? id = some g ∧
        g.name = f.name ∧ g.signature = f.signature ∧ g.linkage = f.linkage := by
  have hempty : (Builder.start (.empty name)).module.WellFormed := by
    intro id f hf
    cases hf
  have hform := (Builder.performAll_wellFormed hempty os).1
  refine ⟨hform id f hf, ?_⟩
  have hsplit : (Builder.start (.empty name)).performAll (os ++ more) =
      ((Builder.start (.empty name)).performAll os).performAll more := List.foldl_append
  rw [hsplit]
  exact (Builder.performAll_wellFormed hform more).2 id f hf

/-- A slot reaches an entry block that has ended, behind a second return that
    is refused and an instruction in a block that does not exist. -/
def lateSlot : List Operation :=
  [.declare "f" ⟨[.f32], .f32⟩ .internal, .appendBlock 0 "entry", .moveTo 0 0, .neg (.arg 0),
    .ret (some (.inst 0)), .ret none, .moveTo 0 7, .neg (.inst 0), .alloca .f32 "late"]

theorem lateSlot_wellFormed : ∃ f,
    ((Builder.start (.empty "m")).performAll lateSlot).module.function? 0 = some f ∧
      f.blockIds 0 = [3, 0, 1] ∧
      f.WellFormed ((Builder.start (.empty "m")).performAll lateSlot).module ∧
      ∃ g, ((Builder.start (.empty "m")).performAll (lateSlot ++ [.clearBody 0])).module.function? 0 =
        some g ∧ g.name = f.name ∧ g.signature = f.signature ∧ g.linkage = f.linkage := by
  have hids : (((Builder.start (.empty "m")).performAll lateSlot).module.function? 0).map
      (·.blockIds 0) = some [3, 0, 1] := by decide +kernel
  obtain ⟨f, hf, hf0⟩ := Option.map_eq_some_iff.1 hids
  exact ⟨f, hf, hf0, performAll_keeps_functions_wellFormed "m" lateSlot [.clearBody 0] hf⟩

end Shading.IR
