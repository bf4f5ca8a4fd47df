import Shading.Proofs.Building
import Shading.Proofs.Faults
import Shading.Proofs.Hooks
import Shading.Proofs.Labels
import Shading.Proofs.Outcomes
import Shading.Lower.Lifetime

/-! # What emission leaves alone

    Whatever an action that emits code does, answered or refused, it touches
    only the function that the builder stands in and declares functions of
    the runtime (`Builder.Framed`).

    An action without branches stays in its block, and neither ends a block
    nor appends one (`Builder.Straight`).  The hooks of the built-in types
    are of this kind.  The hooks that come with other types can do anything
    to the builder; whoever needs them to stay in their block asks for it
    (`TypeTable.Straight`). -/

namespace Shading

open IR

variable {f g : Function} {func : FuncId} {b block home : BlockId} {i : Inst} {d : Descriptor}
    {e : Fault} {op : Op}

/-! ## Ends of blocks -/

namespace IR.Function

/-- An instruction that ends no block leaves a block open, at its end or
    elsewhere. -/
theorem isTerminated_of_last (hinsts : g.insts = f.insts ++ [i]) (hi : i.op.isTerminator = false)
    (hlast : (g.blockIds b).getLast? = (f.blockIds b).getLast? ∨
      (g.blockIds b).getLast? = some f.insts.length) (hopen : f.isTerminated b = false) :
    g.isTerminated b = false := by
  have hnew : ((g.inst? f.insts.length).filter (·.op.isTerminator)) = none := by
    show Option.filter _ (g.insts[f.insts.length]?) = none
    rw [hinsts, List.getElem?_concat_length, Option.filter_some, hi]
    rfl
  unfold isTerminated at hopen ⊢
  rw [terminator?_eq] at hopen ⊢
  -- The last instruction of the block is an old one or the new one.
  rcases hlast with hlast | hlast
  · rw [hlast]
    cases hids : (f.blockIds b).getLast? with
    | none => rfl
    | some j =>
      rw [hids] at hopen
      show Option.isSome ((g.inst? j).filter (·.op.isTerminator)) = false
      rcases Nat.lt_trichotomy j f.insts.length with hlt | rfl | hgt
      · have hsame : g.inst? j = f.inst? j := by
          show g.insts[j]? = f.insts[j]?
          rw [hinsts, List.getElem?_append_left hlt]
        rw [hsame]
        exact hopen
      · rw [hnew]
        rfl
      · have hnone : g.inst? j = none := by
          show g.insts[j]? = none
          rw [hinsts]
          exact List.getElem?_eq_none (by simpa [Nat.succ_le_iff] using hgt)
        rw [hnone]
        rfl
  · rw [hlast]
    show Option.isSome ((g.inst? f.insts.length).filter (·.op.isTerminator)) = false
    rw [hnew]
    rfl

/-- A body stands in front of another one.  Its instructions come first, its
    blocks are the first ones and hold what they held, but that more slots may
    have been reserved in its entry. -/
structure Front (f g : Function) : Prop where
  insts : f.insts <+: g.insts
  labels : f.blocks.map (·.label) <+: g.blocks.map (·.label)
  code : ∀ k, k < f.blocks.length → g.code k = f.code k
  slots : ∀ k, k < f.blocks.length → k ≠ 0 → g.slots k = f.slots k
  entry : 0 < f.blocks.length → f.slots 0 <+: g.slots 0

namespace Front

variable {f g : Function}

theorem refl (f : Function) : f.Front f :=
  ⟨List.prefix_rfl, List.prefix_rfl, fun _ _ => rfl, fun _ _ _ => rfl, fun _ => List.prefix_rfl⟩

theorem addBlock (h : f.Front g) (label : String) : f.Front (g.addBlock label) where
  insts := h.insts
  labels := by
    rw [show (g.addBlock label).blocks = g.blocks ++ [⟨label, []⟩] from rfl, List.map_append]
    exact h.labels.trans (List.prefix_append _ _)
  code k hk := by rw [addBlock_code, h.code k hk]
  slots k hk hne := by rw [addBlock_slots, h.slots k hk hne]
  entry hpos := by
    rw [addBlock_slots]
    exact h.entry hpos

/-- Instructions are added behind its blocks. -/
theorem pushInst (h : f.Front g) (hg : g.Valid) (hb : f.blocks.length ≤ b) (i : Inst) :
    f.Front (g.pushInst b i) where
  insts := h.insts.trans (List.prefix_append _ _)
  labels := by
    show _ <+: (g.blocks.modify _ _).map (·.label)
    rw [Build.labels_modify]
    exact h.labels
  code k hk := by rw [pushInst_code_ne hg (Nat.ne_of_lt (Nat.lt_of_lt_of_le hk hb)), h.code k hk]
  slots k hk hne := by
    rw [pushInst_slots_ne hg (Nat.ne_of_lt (Nat.lt_of_lt_of_le hk hb)), h.slots k hk hne]
  entry hpos := by
    rw [pushInst_slots_ne hg (Nat.ne_of_lt (Nat.lt_of_lt_of_le hpos hb))]
    exact h.entry hpos

/-- A new variable of the entry leaves what stood in front where it was. -/
theorem addSlot (h : f.Front g) (hg : g.Valid) (hpos : 0 < g.blocks.length)
    (hi : i.op.isAlloca = true) : f.Front (g.addSlot i) where
  insts := h.insts.trans (List.prefix_append _ _)
  labels := by
    show _ <+: (g.blocks.modify _ _).map (·.label)
    rw [Build.labels_modify]
    exact h.labels
  code k hk := by
    by_cases hne : k = 0
    · rw [hne, addSlot_code_entry hg hpos hi, ← hne, h.code k hk]
    · rw [addSlot_code_ne hg hne, h.code k hk]
  slots k hk hne := by rw [addSlot_slots_ne hg hne, h.slots k hk hne]
  entry hold := by
    rw [addSlot_slots_entry hg hpos hi]
    exact (h.entry hold).trans (List.prefix_append _ _)

end Front

/-- Instructions that end no block have been added, to one block or to the
    slots at the entry. -/
structure Steady (home : BlockId) (f g : Function) : Prop where
  signature : g.signature = f.signature
  insts : f.insts <+: g.insts
  length : g.blocks.length = f.blocks.length
  others : ∀ k, k ≠ home → k ≠ 0 → g.blockIds k = f.blockIds k
  isOpen : f.isTerminated home = false → g.isTerminated home = false

theorem Steady.refl (home : BlockId) (f : Function) : f.Steady home f :=
  ⟨rfl, List.prefix_refl _, rfl, fun _ _ _ => rfl, id⟩

theorem Steady.trans {h : Function} (h₁ : f.Steady home g) (h₂ : g.Steady home h) :
    f.Steady home h where
  signature := h₂.signature.trans h₁.signature
  insts := h₁.insts.trans h₂.insts
  length := h₂.length.trans h₁.length
  others k hk hk' := (h₂.others k hk hk').trans (h₁.others k hk hk')
  isOpen h := h₂.isOpen (h₁.isOpen h)

/-- An instruction that does not end its block leaves all ends as they are. -/
theorem Steady.pushInst (hb : b < f.blocks.length) (hi : i.op.isTerminator = false) :
    f.Steady b (f.pushInst b i) where
  signature := rfl
  insts := List.prefix_append _ _
  length := f.pushInst_blocks_length b i
  others _ hk _ := pushInst_blockIds_ne hk i
  isOpen _ := by
    rw [pushInst_isTerminated_self hb]
    exact hi

theorem Steady.addSlot (home : BlockId) (f : Function) (hi : i.op.isTerminator = false) :
    f.Steady home (f.addSlot i) where
  signature := rfl
  insts := List.prefix_append _ _
  length := f.addSlot_blocks_length i
  others _ _ hk := addSlot_blockIds_ne hk i
  isOpen := by
    refine isTerminated_of_last rfl hi ?_
    by_cases hhome : home = 0
    · subst hhome
      -- The slot goes somewhere into the entry block, perhaps to its end.
      cases hblocks : f.blocks with
      | nil => exact .inl (by simp [blockIds, block?, Function.addSlot, insertInst, hblocks])
      | cons entry rest =>
        have hids : f.blockIds 0 = entry.insts := by simp [blockIds, block?, hblocks]
        have hids' : (f.addSlot i).blockIds 0 = entry.insts.take (f.leadingAllocas 0) ++
            f.insts.length :: entry.insts.drop (f.leadingAllocas 0) := by
          simp [blockIds, block?, Function.addSlot, insertInst, hblocks]
        rw [hids, hids', List.getLast?_append, List.getLast?_cons]
        cases hdrop : entry.insts.drop (f.leadingAllocas 0) with
        | nil => exact .inr rfl
        | cons j l =>
          left
          conv_rhs => rw [← List.take_append_drop (f.leadingAllocas 0) entry.insts, hdrop]
          simp [List.getLast?_append, List.getLast?_cons]
    · exact .inl (by rw [addSlot_blockIds_ne hhome])

/-- In a block that is not ended no instruction is a terminator. -/
theorem Clean.of_open (hf : f.Clean) (hopen : f.isTerminated b = false) {i : InstId}
    (hi : i ∈ f.blockIds b) {x : Inst} (hx : f.inst? i = some x) : x.op.isTerminator = false := by
  by_cases hlast : (f.blockIds b).getLast? = some i
  · exact isTerminated_eq_false.1 hopen _ _ hlast hx
  · refine hf b i ?_ x hx
    obtain ⟨l, j, hids⟩ := List.eq_nil_or_concat' (f.blockIds b) |>.resolve_left
      (List.ne_nil_of_mem hi)
    rw [hids, List.getLast?_concat] at hlast
    rw [hids] at hi ⊢
    rw [List.dropLast_concat]
    rcases List.mem_append.1 hi with hi | hi
    · exact hi
    · exact absurd (congrArg some (List.mem_singleton.1 hi).symm) hlast

theorem Clean.addBlock (hf : f.Clean) (label : String) : (f.addBlock label).Clean := by
  intro b i hi x hx
  rw [addBlock_blockIds] at hi
  exact hf b i hi x hx

/-- Code may be added to an open block without ending one in the middle. -/
theorem Clean.pushInst (hf : f.Clean) (hvalid : f.Valid) (hb : b < f.blocks.length)
    (hopen : f.isTerminated b = false) (i : Inst) : (f.pushInst b i).Clean := by
  intro b' j hj x hx
  by_cases hne : b' = b
  · subst hne
    rw [pushInst_blockIds_self hb, List.dropLast_concat] at hj
    rw [pushInst_inst?_of_lt (hvalid b' j hj)] at hx
    exact hf.of_open hopen hj hx
  · rw [pushInst_blockIds_ne hne] at hj
    rw [pushInst_inst?_of_lt (hvalid b' j (List.dropLast_subset _ hj))] at hx
    exact hf b' j hj x hx

/-- A slot goes in front of the code, so no block is ended by it. -/
theorem Clean.addSlot (hf : f.Clean) (hvalid : f.Valid) (hpos : 0 < f.blocks.length)
    (hi : i.op.isAlloca = true) : (f.addSlot i).Clean := by
  intro b j hj x hx
  by_cases hne : b = 0
  · subst hne
    rw [addSlot_blockIds_entry hvalid hpos] at hj
    have hslot : ∀ y : Inst, y.op.isAlloca = true → y.op.isTerminator = false := by
      intro y hy
      cases hop : y.op <;> simp_all [Op.isAlloca, Op.isTerminator]
    -- A slot ends no block, and neither does what stood in front of the last instruction.
    have hold : ∀ k ∈ f.slots 0, k = j → x.op.isTerminator = false := by
      rintro k hk rfl
      have his : f.isSlot k = true := List.mem_takeWhile_imp hk
      rw [addSlot_inst?_of_lt (isSlot_lt his)] at hx
      unfold isSlot at his
      rw [hx] at his
      exact hslot x his
    have hnew : f.insts.length = j → x.op.isTerminator = false := by
      rintro rfl
      rw [addSlot_inst?_new] at hx
      cases hx
      exact hslot i hi
    by_cases hcode : f.code 0 = []
    · rw [hcode, List.dropLast_concat] at hj
      exact hold j hj rfl
    · rw [List.dropLast_append_of_ne_nil (by simp), List.dropLast_cons_of_ne_nil hcode,
        List.mem_append, List.mem_cons] at hj
      rcases hj with hj | hj | hj
      · exact hold j hj rfl
      · exact hnew hj.symm
      · have hmem : j ∈ (f.blockIds 0).dropLast := by
          rw [← f.slots_append_code 0, List.dropLast_append_of_ne_nil hcode]
          exact List.mem_append_right _ hj
        rw [addSlot_inst?_of_lt (hvalid 0 j (List.dropLast_subset _ hmem))] at hx
        exact hf 0 j hmem x hx
  · rw [addSlot_blockIds_ne hne] at hj
    rw [addSlot_inst?_of_lt (hvalid b j (List.dropLast_subset _ hj))] at hx
    exact hf b j hj x hx

end IR.Function

/-- No edit ends a block in the middle. -/
theorem IR.Edits.clean {n : Nat} {t : Option Targets} (he : Edits n home t f g) (hvalid : f.Valid)
    (hpos : 0 < f.blocks.length) (h : f.Clean) : g.Clean := by
  induction he with
  | refl => exact h
  | tail hedits hedit ih =>
    have hvalid' := Edits.valid hvalid hpos hedits
    have hpos' := Nat.lt_of_lt_of_le hpos (Edits.blocks_le hedits)
    cases hedit with
    | block hl => exact ih.addBlock _
    | slot => exact ih.addSlot hvalid' hpos' rfl
    | plain hb hopen hin hi hslot => exact ih.pushInst hvalid' hb hopen _
    | close hb hopen hin hi hto => exact ih.pushInst hvalid' hb hopen _
    | merge hb hin hempty hpreds hops =>
      exact ih.pushInst hvalid' hb (Function.isTerminated_of_empty hempty) _

/-! ## Modules -/

namespace IR.Module

/-- No two functions have the same symbol. -/
def Distinct (m : Module) : Prop := (m.functions.map (·.name)).Nodup

/-- The function at one position may have got another body, and functions
    of the runtime may have been declared; nothing else has changed. -/
structure Frames (func : FuncId) (m m' : Module) : Prop where
  others : ∀ id f, id ≠ func → m.function? id = some f → m'.function? id = some f
  head : ∀ f, m.function? func = some f → ∃ f', m'.function? func = some f' ∧
    f'.name = f.name ∧ f'.signature = f.signature ∧ f'.linkage = f.linkage
  length : m.functions.length ≤ m'.functions.length
  added : ∀ id f, id ≠ func → m.functions.length ≤ id → m'.function? id = some f →
    f.blocks = [] ∧ f.insts = [] ∧ f.linkage = .external
  distinct : m.Distinct → m'.Distinct

variable {func : FuncId} {m m' m'' : Module}

theorem Frames.refl (func : FuncId) (m : Module) : m.Frames func m where
  others _ _ _ h := h
  head f h := ⟨f, h, rfl, rfl, rfl⟩
  length := Nat.le_refl _
  added _ _ _ hle h := absurd (function?_lt h) (Nat.not_lt.2 hle)
  distinct h := h

theorem Frames.trans (h₁ : m.Frames func m') (h₂ : m'.Frames func m'') : m.Frames func m'' where
  others id f hne h := h₂.others id f hne (h₁.others id f hne h)
  head f h := by
    obtain ⟨f', hf', hname, hsig, hlink⟩ := h₁.head f h
    obtain ⟨f'', hf'', hname', hsig', hlink'⟩ := h₂.head f' hf'
    exact ⟨f'', hf'', hname'.trans hname, hsig'.trans hsig, hlink'.trans hlink⟩
  length := h₁.length.trans h₂.length
  added id f hne hle h := by
    -- It was added in the first step or in the second one.
    by_cases hid : id < m'.functions.length
    · have hget : m'.function? id = some m'.functions[id] := List.getElem?_eq_getElem hid
      have hnew := h₁.added id _ hne hle hget
      rw [h₂.others id _ hne hget] at h
      cases h
      exact hnew
    · exact h₂.added id f hne (Nat.not_lt.1 hid) h
  distinct h := h₂.distinct (h₁.distinct h)

/-- A new body is the only change of an update. -/
theorem Frames.update (func : FuncId) (m : Module) (g : Function → Function) :
    m.Frames func (m.update func g) where
  others id f hne h := by
    rw [update_function?_ne m hne]
    exact h
  head f h := ⟨f.withBodyOf (g f), by rw [update_function?_self, h]; rfl, rfl, rfl, rfl⟩
  length := by rw [update_length]
  added id f hne hle h := by
    rw [update_function?_ne m hne] at h
    exact absurd (function?_lt h) (Nat.not_lt.2 hle)
  distinct h := by
    unfold Distinct
    rw [show (m.update func g).functions.map (·.name) = _ from names_modify ..]
    exact h

theorem Distinct.add (h : m.Distinct) {name : String} (hfind : m.find? name = none)
    (signature : Signature) (linkage : Linkage) : (m.add name signature linkage).Distinct := by
  unfold Distinct Module.add
  rw [List.map_append, List.nodup_append]
  refine ⟨h, by simp, fun a ha b hb => ?_⟩
  rintro rfl
  obtain rfl := List.mem_singleton.1 hb
  exact find?_eq_none.1 hfind ha

/-- A declaration of the runtime touches no function that is there. -/
theorem Frames.add (func : FuncId) {name : String} (hfind : m.find? name = none)
    (signature : Signature) : m.Frames func (m.add name signature .external) where
  others id f _ h := by
    rw [add_function?_of_lt (function?_lt h)]
    exact h
  head f h := ⟨f, by rw [add_function?_of_lt (function?_lt h)]; exact h, rfl, rfl, rfl⟩
  length := by
    rw [add_length]
    omega
  added id f _ hle h := by
    rcases add_function?_cases h with h | rfl
    · exact absurd (function?_lt h) (Nat.not_lt.2 hle)
    · exact ⟨rfl, rfl, rfl⟩
  distinct h := h.add hfind signature .external

end IR.Module

/-! ## Builders -/

namespace IR

/-- The builder still stands in its function, and other functions are as
    before. -/
def Builder.Framed (b b' : Builder) : Prop :=
  ∀ func, b.currentFunction? = some func →
    b'.currentFunction? = some func ∧ b.module.Frames func b'.module

theorem Builder.Framed.refl (b : Builder) : b.Framed b := fun func h => ⟨h, .refl func _⟩

theorem Builder.Framed.trans {b b' b'' : Builder} (h₁ : b.Framed b') (h₂ : b'.Framed b'') :
    b.Framed b'' := by
  intro func h
  obtain ⟨hcur, hframe⟩ := h₁ func h
  obtain ⟨hcur', hframe'⟩ := h₂ func hcur
  exact ⟨hcur', hframe.trans hframe'⟩

/-- No block has been appended or ended, and the builder has not moved. -/
structure Site.Level {func : FuncId} (S S' : Site func) : Prop where
  block : S'.block = S.block
  length : S'.body.blocks.length = S.body.blocks.length
  ended : ∀ b, S'.body.isTerminated b = S.body.isTerminated b
  clean : S.body.Clean → S'.body.Clean
  /-- What stands in front of the block of the builder still does. -/
  front : ∀ {f : Function}, f.blocks.length ≤ S.block → f.Front S.body → f.Front S'.body

theorem Site.Level.refl (S : Site func) : S.Level S :=
  ⟨rfl, rfl, fun _ => rfl, id, fun _ => id⟩

theorem Site.Level.trans {S S' S'' : Site func} (h₁ : S.Level S') (h₂ : S'.Level S'') :
    S.Level S'' :=
  ⟨h₂.block.trans h₁.block, h₂.length.trans h₁.length,
    fun b => (h₂.ended b).trans (h₁.ended b), fun h => h₂.clean (h₁.clean h),
    fun hle h => h₂.front (h₁.block ▸ hle) (h₁.front hle h)⟩

/-- The builder stands at the end of a block of a function. -/
structure Builder.StandsAt (func : FuncId) (block : BlockId) (f : Function) (b : Builder) :
    Prop where
  cursor : b.cursor = some ⟨func, block⟩
  found : b.module.function? func = some f
  inside : block < f.blocks.length

/-- Code without branches has been emitted. -/
structure Builder.Straight (b b' : Builder) : Prop where
  framed : b.Framed b'
  level : ∀ {func : FuncId} (S : Site func), S.builder = b →
    ∃ S' : Site func, S'.builder = b' ∧ S.Level S'
  steady : ∀ {func block f}, b.StandsAt func block f →
    ∃ g, b'.StandsAt func block g ∧ f.Steady block g

theorem Builder.Straight.refl (b : Builder) : b.Straight b :=
  ⟨.refl b, fun S hS => ⟨S, hS, .refl S⟩, fun {_ block f} h => ⟨f, h, .refl block f⟩⟩

theorem Builder.Straight.trans {b b' b'' : Builder} (h₁ : b.Straight b') (h₂ : b'.Straight b'') :
    b.Straight b'' := by
  refine ⟨h₁.framed.trans h₂.framed, fun S hS => ?_, fun hb => ?_⟩
  · obtain ⟨S', hS', hlevel⟩ := h₁.level S hS
    obtain ⟨S'', hS'', hlevel'⟩ := h₂.level S' hS'
    exact ⟨S'', hS'', hlevel.trans hlevel'⟩
  · obtain ⟨g, hb', hsteady⟩ := h₁.steady hb
    obtain ⟨g', hb'', hsteady'⟩ := h₂.steady hb'
    exact ⟨g', hb'', hsteady.trans hsteady'⟩

/-- The function that a builder stands in is changed. -/
theorem Builder.StandsAt.update {b : Builder} (h : b.StandsAt func block f)
    {g : Function → Function} (hg : f.withBodyOf (g f) = g f)
    (hlength : f.blocks.length ≤ (g f).blocks.length) :
    StandsAt func block (g f) { b with module := b.module.update func g } where
  cursor := h.cursor
  found := Module.update_function?_eq h.found hg
  inside := Nat.lt_of_lt_of_le h.inside hlength

namespace Build

/-- The builder emits code without branches, and does not move when it is
    refused either. -/
def straight : Act.Law Builder Error where
  answered := Builder.Straight
  refused _ := Builder.Straight
  refl := Builder.Straight.refl
  trans := Builder.Straight.trans
  after := Builder.Straight.trans

/-! ### Reading -/

variable {α : Type} {b : Builder}

/-- Reading the cursor changes nothing. -/
theorem cursor_meets : cursor.Meets b (fun c t => t = b ∧ b.cursor = some c) fun _ t => t = b := by
  unfold cursor
  rw [Act.meets_bind, Act.meets_get]
  cases b.cursor with
  | none => rfl
  | some c => exact ⟨rfl, rfl⟩

theorem function_meets (id : FuncId) :
    (function id).Meets b (fun f t => t = b ∧ b.module.function? id = some f) fun _ t => t = b := by
  unfold function Module.function
  rw [Act.meets_bind, Act.meets_get, Act.meets_ofExcept]
  cases b.module.function? id with
  | none => simp
  | some f => simp

theorem current_meets : current.Meets b (fun _ t => t = b) fun _ t => t = b := by
  refine cursor_meets.bind fun c t ht => ?_
  rw [ht.1]
  exact (function_meets c.func).mono (fun _ _ h => h.1) fun _ _ h => h

/-- An action that leaves the builder as it is. -/
theorem straight_of_still {x : Build α} (h : ∀ b, x.Meets b (fun _ t => t = b) fun _ t => t = b) :
    straight.Holds x := by
  intro b
  refine (h b).mono (fun a t ht => ?_) fun e t ht => ?_
  · rw [ht]
    exact straight.refl b
  · rw [ht]
    exact straight.refl b

theorem function_straight (id : FuncId) : straight.Holds (function id) :=
  straight_of_still fun _ => (function_meets id).mono (fun _ _ h => h.1) fun _ _ h => h

theorem valueType_straight (v : Value) : straight.Holds (valueType v) :=
  .bind (straight_of_still fun _ => current_meets) fun _ => .ofExcept fun _ _ => straight.refl

theorem refuseIf_straight {c : Prop} [Decidable c] (e : Error) :
    straight.Holds (Act.refuseIf c e : Build Unit) := .refuseIf straight.refl

theorem expect_straight (v : Value) (ty : Ty) (context : String) :
    straight.Holds (expect v ty context) :=
  .bind (valueType_straight v) fun _ => refuseIf_straight _

theorem current_straight : straight.Holds current := straight_of_still fun _ => current_meets

theorem expectResult_straight (v : Option Value) (ty : Ty) :
    straight.Holds (expectResult v ty) := by
  cases v with
  | none => exact refuseIf_straight _
  | some v => exact expect_straight v ty _

theorem pointee_straight (p : Value) (context : String) : straight.Holds (pointee p context) := by
  refine .bind (valueType_straight p) fun found => ?_
  cases found.pointee? with
  | none => exact .throw straight.refl
  | some t => exact .pure t

/-! ### Instructions -/

/-- Instructions are added to the function that the builder stands in. -/
theorem framed_update {c : Cursor} (hc : b.cursor = some c) (g : Function → Function) :
    b.Framed { b with module := b.module.update c.func g } := by
  intro func hfunc
  have hc' : c.func = func := by simpa [Builder.currentFunction?, hc] using hfunc
  subst hc'
  exact ⟨hfunc, .update c.func b.module g⟩

/-- An instruction goes to the end of the open block in hand. -/
theorem emit_meets (op : Op) (ty : Ty) :
    (emit op ty).Meets b (fun id t => ∃ c f, b.cursor = some c ∧
        b.module.function? c.func = some f ∧ f.isTerminated c.block = false ∧
        id = f.insts.length ∧
        t = { b with module := b.module.update c.func (·.pushInst c.block ⟨op, ty, none⟩) })
      fun _ t => t = b := by
  refine cursor_meets.bind fun c t ht => ?_
  obtain ⟨rfl, hc⟩ := ht
  refine (function_meets c.func).bind fun f t' ht => ?_
  obtain ⟨rfl, hf⟩ := ht
  rw [Act.meets_bind, Act.meets_refuseIf]
  refine ⟨fun _ => rfl, fun hopen => ?_⟩
  exact ⟨c, f, hc, hf, eq_false_of_ne_true hopen, rfl, rfl⟩

theorem cursor_at (S : Site func) :
    cursor.run S.builder = (.ok ⟨func, S.block⟩, S.builder) := cursor_run_eq_ok.2 ⟨S.cursor, rfl⟩

theorem function_at (S : Site func) :
    (function func).run S.builder = (.ok S.body, S.builder) := function_run_eq_ok.2 ⟨S.found, rfl⟩

/-- In a block that is not ended nothing keeps an instruction from being
    added. -/
theorem emit_open {S : Site func} (hopen : S.Open) (op : Op) (ty : Ty) :
    (emit op ty).run S.builder = (.ok S.body.insts.length, (S.push ⟨op, ty, none⟩).builder) :=
  emit_run_eq_ok.2 ⟨⟨func, S.block⟩, S.body, ⟨S.cursor, S.found, hopen⟩, rfl, rfl⟩

/-- An instruction touches no other function. -/
theorem emit_framed (op : Op) (ty : Ty) :
    (emit op ty).Meets b (fun _ t => b.Framed t) fun _ t => b.Framed t := by
  refine (emit_meets op ty).mono (fun id t ht => ?_) fun e t ht => ?_
  · obtain ⟨c, f, hc, -, -, -, rfl⟩ := ht
    exact framed_update hc _
  · rw [ht]
    exact .refl b

/-- An instruction that does not end the block keeps code straight. -/
theorem emit_straight (hop : op.isTerminator = false) (ty : Ty) : straight.Holds (emit op ty) := by
  intro b
  refine Act.meets_of_run (fun id t hrun => ?_) fun e t hrun => ?_
  · have hframed := (emit_framed op ty).of_ok hrun
    obtain ⟨c, f, hc, hf, hopen, -, rfl⟩ := (emit_meets op ty).of_ok hrun
    -- Once for a builder that is known to be sound, once for any other.
    refine ⟨hframed, fun {func} S hS => ?_, fun {func block g} hb => ?_⟩
    · subst hS
      rw [S.cursor] at hc
      cases hc
      rw [S.found] at hf
      cases hf
      refine ⟨S.push ⟨op, ty, none⟩, rfl, rfl, S.body.pushInst_blocks_length .., fun k => ?_,
        fun h => h.pushInst S.valid S.inside hopen _, fun hle h => h.pushInst S.valid hle _⟩
      show (S.body.pushInst S.block ⟨op, ty, none⟩).isTerminated k = _
      by_cases hk : k = S.block
      · subst hk
        rw [Function.pushInst_isTerminated_self S.inside]
        exact hop.trans hopen.symm
      · rw [Function.pushInst_isTerminated_ne S.valid hk]
    · rw [hb.cursor] at hc
      cases hc
      exact ⟨_, hb.update rfl (g.pushInst_blocks_length ..).ge, .pushInst hb.inside hop⟩
  · rw [(emit_meets op ty).of_error hrun]
    exact .refl b

theorem emitValue_straight (hop : op.isTerminator = false) (ty : Ty) :
    straight.Holds (emitValue op ty) := .bind (emit_straight hop ty) fun _ => .pure _

theorem emitVoid_straight (hop : op.isTerminator = false) :
    straight.Holds (emitVoid op) := .bind (emit_straight hop .void) fun _ => .pure _

/-- A variable is added to the entry, in front of the code in hand. -/
theorem alloca_straight (ty : Ty) (name : String) : straight.Holds (alloca ty name) := by
  intro b
  unfold alloca
  cases ty.size? with
  | none => exact straight.refl b
  | some size =>
    refine Act.Meets.bind (E := fun _ t => b.Straight t) (cursor_meets.mono (fun _ _ h => h)
      fun _ t ht => ht ▸ .refl b) fun c t ht => ?_
    obtain ⟨rfl, hc⟩ := ht
    refine Act.Meets.bind ((function_meets c.func).mono (fun _ _ h => h)
      fun _ t' ht => ht ▸ .refl t) fun f t' ht => ?_
    obtain ⟨rfl, hf⟩ := ht
    -- A slot goes to the front of the entry, wherever the builder stands.
    refine ⟨framed_update hc _, fun {func} S hS => ?_,
      fun {func block g} hb => ?_⟩
    · subst hS
      rw [S.cursor] at hc
      cases hc
      rw [S.found] at hf
      cases hf
      refine ⟨S.slot ⟨.alloca ty size, .ptr ty, some name⟩, rfl, rfl,
        S.body.addSlot_blocks_length _, fun k => ?_, fun h => h.addSlot S.valid S.pos rfl,
        fun _ h => h.addSlot S.valid S.pos rfl⟩
      exact Function.addSlot_isTerminated S.valid S.pos rfl k
    · rw [hb.cursor] at hc
      cases hc
      obtain rfl : g = f := Option.some.inj (hb.found.symm.trans hf)
      exact ⟨_, hb.update (g := fun x => x.insertInst 0 (g.leadingAllocas 0) _) rfl
        (g.addSlot_blocks_length _).ge, .addSlot block g rfl⟩

/-- A function of the runtime is declared outside of all bodies. -/
theorem declare_straight (name : String) (sig : Signature) :
    straight.Holds (declare name sig .external) := by
  intro b
  unfold declare
  rw [Act.meets_bind, Act.meets_get]
  -- A symbol that is new becomes a function behind all others.
  cases hfind : b.module.find? name with
  | some id =>
    exact (Act.Law.Holds.bind (function_straight id)
      fun _ => .bind (refuseIf_straight _) fun _ => .pure _) b
  | none =>
    refine ⟨fun func hfunc => ⟨hfunc, .add func hfind sig⟩, fun {func} S hS => ?_,
      fun {func block f} hb => ⟨f, ⟨hb.cursor, ?_, hb.inside⟩, .refl block f⟩⟩
    · subst hS
      exact ⟨S.declare name sig, rfl, rfl, rfl, fun _ => rfl, id, fun _ => id⟩
    · rw [Module.add_function?_of_lt (Module.function?_lt hb.found)]
      exact hb.found

theorem load_straight (p : Value) : straight.Holds (load p) :=
  .bind (pointee_straight p _) fun _ => emitValue_straight rfl _

theorem store_straight (v p : Value) : straight.Holds (store v p) :=
  .bind (pointee_straight p _) fun _ => .bind (expect_straight v _ _) fun _ => emitVoid_straight rfl

theorem arith_straight (op : ArithOp) (x y : Value) : straight.Holds (arith op x y) :=
  .bind (valueType_straight x) fun _ => .bind (expect_straight y _ _) fun _ =>
    .bind (refuseIf_straight _) fun _ => emitValue_straight rfl _

theorem cmp_straight (pred : CmpPred) (x y : Value) : straight.Holds (cmp pred x y) := by
  refine .bind (valueType_straight x) fun ty => .bind (expect_straight y ty _) fun _ => ?_
  split
  · exact emitValue_straight rfl _
  · exact emitValue_straight rfl _
  · exact emitValue_straight rfl _
  · exact .throw straight.refl

theorem neg_straight (x : Value) : straight.Holds (neg x) :=
  .bind (valueType_straight x) fun _ => .bind (refuseIf_straight _) fun _ =>
    emitValue_straight rfl _

theorem not_straight (x : Value) : straight.Holds (Build.not x) :=
  .bind (expect_straight x _ _) fun _ => emitValue_straight rfl _

theorem cast_straight (op : CastOp) (x : Value) : straight.Holds (cast op x) :=
  .bind (expect_straight x _ _) fun _ => emitValue_straight rfl _

theorem vector_straight (lanes : List Value) : straight.Holds (vector lanes) :=
  .bind (.forM fun _ => expect_straight _ _ _) fun _ => emitValue_straight rfl _

theorem splat_straight (x : Value) (lanes : UInt8) : straight.Holds (splat x lanes) :=
  .bind (expect_straight x _ _) fun _ => emitValue_straight rfl _

theorem call_straight (callee : FuncId) (args : List Value) : straight.Holds (call callee args) :=
  .bind (function_straight callee) fun _ => .bind (refuseIf_straight _) fun _ =>
    .bind (.forM fun _ => expect_straight _ _ _) fun _ => .bind (emit_straight rfl _) fun _ => .pure _

theorem phi_straight (ty : Ty) (incoming : List (Value × BlockId)) :
    straight.Holds (phi ty incoming) :=
  .bind (.forM fun _ => expect_straight _ _ _) fun _ => emitValue_straight rfl _

end Build

end IR

/-! ## Hooks -/

namespace Emit

/-- Code without branches is emitted, and no path without `return` is
    reported. -/
def straight : Act.Law Builder Fault where
  answered := Builder.Straight
  refused e b b' := b.Straight b' ∧ e.isMissingReturn = false
  refl := Builder.Straight.refl
  trans := Builder.Straight.trans
  after h h' := ⟨h.trans h'.1, h'.2⟩

variable {α : Type}

/-- A fault that has nothing to do with paths. -/
theorem straight_refused (he : e.isMissingReturn = false) (b : Builder) :
    straight.refused e b b := ⟨.refl b, he⟩

/-- What a builder does straight, emission does straight. -/
theorem straight_lift {x : Build α} (h : Build.straight.Holds x) :
    straight.Holds (liftM x : Emit α) :=
  h.mapError (fun _ _ h => h) fun _ _ _ h => ⟨h, rfl⟩

theorem straight_located {x : Emit α} (h : straight.Holds x) (span : Span) :
    straight.Holds (located span x) :=
  h.mapError (fun _ _ h => h) fun e _ _ h => ⟨h.1, by rw [Fault.isMissingReturn_locate]; exact h.2⟩

/-- A lookup that reports nothing about control flow. -/
theorem straight_ofExcept {r : Except Fault α} (h : ∀ {e}, r = .error e → e.kind ≠ .control) :
    straight.Holds (Act.ofExcept r : Emit α) :=
  .ofExcept fun _ he => straight_refused (Fault.isMissingReturn_of_kind (h he))

theorem straight_throw (he : e.isMissingReturn = false) :
    straight.Holds (throw e : Emit α) := .throw (straight_refused he)

/-- Calls of the runtime do not branch. -/
theorem callIntrinsic_straight (name : String) (params : List Ty) (ret : Ty) (args : List Value) :
    straight.Holds (callIntrinsic name params ret args) :=
  .bind (straight_lift (Build.declare_straight name ⟨params, ret⟩)) fun _ =>
    straight_lift (Build.call_straight _ _)

end Emit

section

variable {types : TypeTable}

theorem TypeTable.resolve_straight (id : TypeId) :
    Emit.straight.Holds (Act.ofExcept (types.resolve id) : Emit Descriptor) :=
  Emit.straight_ofExcept fun h => by simp [TypeTable.resolve_error h]

theorem TypeTable.representation_straight (id : TypeId) :
    Emit.straight.Holds (Act.ofExcept (types.representation id) : Emit Ty) :=
  Emit.straight_ofExcept fun h => by simp [TypeTable.representation_error h]

theorem Typed.promote_straight (x : Typed) : Emit.straight.Holds x.promote :=
  .ite (Emit.straight_lift (Build.cast_straight _ _)) (.pure _)

theorem Typed.toFloat?_straight (x : Typed) : Emit.straight.Holds x.toFloat? :=
  .ite (.bind x.promote_straight fun _ => .pure _) (.pure _)

/-- A missing operator is a fault of types. -/
theorem noOperator_straight {α : Type} (op : BinaryOp) (l r : Typed) :
    Emit.straight.Holds (throw (noOperator types op l r) : Emit α) := Emit.straight_throw rfl

/-- Arithmetic on numbers does not branch. -/
theorem numericArith_straight (op : BinaryOp) (l r : Typed) :
    Emit.straight.Holds (numericArith types op l r) := by
  unfold numericArith
  refine .ite ?_ (.ite ?_ (noOperator_straight op l r))
  · cases op.intOp? with
    | none => exact noOperator_straight op l r
    | some o => exact .bind (Emit.straight_lift (Build.arith_straight _ _ _)) fun _ => .pure _
  · cases op.floatOp? with
    | none => exact noOperator_straight op l r
    | some o =>
      exact .bind l.promote_straight fun _ => .bind r.promote_straight fun _ =>
        .bind (Emit.straight_lift (Build.arith_straight _ _ _)) fun _ => .pure _

theorem numericCompare_straight (op : BinaryOp) (l r : Typed) :
    Emit.straight.Holds (numericCompare types op l r) := by
  unfold numericCompare
  cases op.predicate? with
  | none => exact noOperator_straight op l r
  | some pred =>
    refine .ite ?_ (.ite ?_ (noOperator_straight op l r))
    · exact .bind (Emit.straight_lift (Build.cmp_straight _ _ _)) fun _ => .pure _
    · exact .bind l.promote_straight fun _ => .bind r.promote_straight fun _ =>
        .bind (Emit.straight_lift (Build.cmp_straight _ _ _)) fun _ => .pure _

theorem boolCompare_straight (op : BinaryOp) (l r : Typed) :
    Emit.straight.Holds (boolCompare types op l r) := by
  have equality : ∀ pred, Emit.straight.Holds (do
      Act.refuseIf (r.ty ≠ Builtin.bool.id) (noOperator types op l r)
      let v ← (liftM (Build.cmp pred l.value r.value) : Emit Value)
      Pure.pure (⟨Builtin.bool.id, v⟩ : Typed)) := fun pred =>
    .bind (.refuseIf (Emit.straight_refused rfl)) fun _ =>
      .bind (Emit.straight_lift (Build.cmp_straight _ _ _)) fun _ => .pure _
  cases op with
  | eq => exact equality .eq
  | ne => exact equality .ne
  | _ => exact noOperator_straight _ l r

theorem vectorArith_straight (d : Descriptor) (width : UInt8) (op : BinaryOp) (o : ArithOp)
    (allowScalar : Bool) (l r : Typed) :
    Emit.straight.Holds (vectorArith types d width op o allowScalar l r) :=
  .ite (.bind (Emit.straight_lift (Build.arith_straight _ _ _)) fun _ => .pure _)
    (.ite (.bind r.promote_straight fun _ =>
      .bind (Emit.straight_lift (Build.splat_straight _ _)) fun _ =>
      .bind (Emit.straight_lift (Build.arith_straight _ _ _)) fun _ => .pure _)
      (noOperator_straight op l r))

theorem vectorLanes_straight (d : Descriptor) (args : List Typed) :
    Emit.straight.Holds (vectorLanes types d args) := by
  refine .mapM fun arg => .bind arg.toFloat?_straight fun lane => ?_
  cases lane with
  | some lane => exact .pure lane
  | none => exact Emit.straight_throw rfl

theorem vectorConstruct_straight (d : Descriptor) (width : UInt8) (args : List Typed) :
    Emit.straight.Holds (vectorConstruct types d width args) := by
  refine .bind (vectorLanes_straight d args) fun lanes => ?_
  split
  · exact .bind (Emit.straight_lift (Build.splat_straight _ _)) fun _ => .pure _
  · exact .ite (.bind (Emit.straight_lift (Build.vector_straight _)) fun _ => .pure _)
      (Emit.straight_throw rfl)

theorem Distribution.construct_straight (args : List Typed) :
    Emit.straight.Holds (Distribution.construct types args) := by
  match args with
  | [shader, context] =>
    exact .bind (.refuseIf (Emit.straight_refused rfl)) fun _ =>
      .bind (TypeTable.representation_straight _) fun _ =>
      .bind (TypeTable.representation_straight _) fun _ =>
      .bind (Emit.callIntrinsic_straight _ _ _ _) fun _ => .pure _
  | [] => exact Emit.straight_throw rfl
  | [_] => exact Emit.straight_throw rfl
  | _ :: _ :: _ :: _ => exact Emit.straight_throw rfl

theorem Distribution.add_straight (l r : Typed) :
    Emit.straight.Holds (Distribution.add types l r) :=
  .bind (.refuseIf (Emit.straight_refused rfl)) fun _ =>
    .bind (Emit.callIntrinsic_straight _ _ _ _) fun _ => .pure _

theorem Distribution.scale_straight (l r : Typed) :
    Emit.straight.Holds (Distribution.scale types l r) := by
  refine .bind r.toFloat?_straight fun weight => ?_
  cases weight with
  | some w => exact .bind (Emit.callIntrinsic_straight _ _ _ _) fun _ => .pure _
  | none => exact noOperator_straight _ l r

/-- The hooks that come with a type emit code without branches. -/
structure Descriptor.Straight (d : Descriptor) : Prop where
  construct : ∀ hook, d.behaviour.hooks.construct = some hook →
    ∀ args, Emit.straight.Holds (hook args)
  initial : ∀ hook, d.behaviour.hooks.initial = some hook → Emit.straight.Holds hook
  copy : ∀ v, Emit.straight.Holds (d.behaviour.hooks.copy d.repr v)
  destroy : ∀ v, Emit.straight.Holds (d.behaviour.hooks.destroy d.repr v)
  binary : ∀ hook, d.behaviour.hooks.binary = some hook →
    ∀ op l r, Emit.straight.Holds (hook op l r)
  unary : ∀ hook, d.behaviour.hooks.unary = some hook → ∀ op x, Emit.straight.Holds (hook op x)

/-- Built-in types and types that call the runtime bring nothing else. -/
theorem Descriptor.Straight.of_plain
    (h : (∃ c f, d.behaviour = .plain c f) ∨ d.behaviour.hooks = {}) : d.Straight := by
  rcases h with ⟨c, f, h⟩ | h
  · constructor <;> rw [h]
    · rintro _ ⟨⟩
    · rintro _ ⟨⟩
    -- Without a function of the runtime for it, a value is copied as it is.
    · intro v
      cases c with
      | none => exact .pure v
      | some symbol =>
        cases d.repr with
        | none => exact .pure v
        | some ty => exact Emit.callIntrinsic_straight symbol [ty] ty [v]
    · intro v
      cases f with
      | none => exact .pure ()
      | some symbol =>
        cases d.repr with
        | none => exact .pure ()
        | some ty => exact .bind (Emit.callIntrinsic_straight symbol [ty] .void [v]) fun _ => .pure ()
    · rintro _ ⟨⟩
    · rintro _ ⟨⟩
  · constructor <;> rw [h]
    · rintro _ ⟨⟩
    · rintro _ ⟨⟩
    · exact fun v => .pure v
    · exact fun _ => .pure ()
    · rintro _ ⟨⟩
    · rintro _ ⟨⟩

/-- No hook of a builtin type branches. -/
theorem Builtin.straight (b : Builtin) : b.descriptor.Straight := by
  apply Descriptor.Straight.of_plain
  cases b with
  | ray | isect | light | shaderHandle | contextPtr | module => exact .inl ⟨none, none, rfl⟩
  | _ => exact .inr rfl

/-- A hook may touch the builder where it stands and no more: the hooks of all
    types of a table emit code without branches, and where they refuse, they
    do not report a path without `return`. -/
class TypeTable.Straight (types : TypeTable) : Prop where
  hooks : ∀ id d, types.get? id = some d → d.Straight

/-- A type that is found in a straight table has straight hooks. -/
theorem TypeTable.Straight.of_resolve [h : types.Straight] {id : TypeId}
    (hd : types.resolve id = .ok d) : d.Straight := by
  unfold resolve at hd
  split at hd
  · cases hd
    exact h.hooks id _ ‹_›
  · cases hd

instance TypeTable.builtins_straight : builtins.Straight where
  hooks id d h := by
    obtain ⟨b, -, rfl⟩ := builtins_get?_eq_some.1 h
    exact b.straight

/-- A type may be added if its hooks are of this kind. -/
theorem TypeTable.Straight.register [h : types.Straight] (hd : d.Straight) {types' : TypeTable}
    (hregister : types.register d = .ok types') : types'.Straight where
  hooks id other hother := by
    rw [register_eq_insert hregister, get?, insert, Index.get?_insert] at hother
    split at hother
    · cases hother
      exact hd
    · exact h.hooks id other hother

namespace Descriptor

variable {d : Descriptor}

theorem Straight.construct_straight (hd : d.Straight) (args : List Typed) :
    Emit.straight.Holds (d.construct types args) := by
  unfold Descriptor.construct
  cases hhook : d.behaviour.hooks.construct with
  | some hook => exact hd.construct hook hhook args
  | none =>
    show Emit.straight.Holds (d.standardConstruct types args)
    unfold standardConstruct
    cases d.behaviour with
    | vector width => exact vectorConstruct_straight d width args
    | distribution => exact Distribution.construct_straight args
    | _ => exact Emit.straight_throw rfl

theorem Straight.defaultValue_straight (hd : d.Straight) : Emit.straight.Holds d.defaultValue := by
  unfold Descriptor.defaultValue
  cases hhook : d.behaviour.hooks.initial with
  | some hook => exact hd.initial hook hhook
  | none =>
    show Emit.straight.Holds d.standardValue
    unfold standardValue
    cases d.behaviour with
    | void => exact Emit.straight_throw rfl
    | distribution => exact .bind (Emit.callIntrinsic_straight _ _ _ _) fun _ => .pure _
    | _ =>
      cases d.repr with
      | none => exact Emit.straight_throw rfl
      | some ty => exact .pure _

theorem Straight.copy_straight (hd : d.Straight) (v : Value) : Emit.straight.Holds (d.copy v) := by
  unfold Descriptor.copy
  split
  · exact Emit.callIntrinsic_straight _ _ _ _
  · exact hd.copy v

theorem Straight.destroy_straight (hd : d.Straight) (v : Value) :
    Emit.straight.Holds (d.destroy v) := by
  unfold Descriptor.destroy
  split
  · exact .bind (Emit.callIntrinsic_straight _ _ _ _) fun _ => .pure _
  · exact hd.destroy v

theorem arith_straight (d : Descriptor) (op : BinaryOp) (l r : Typed) :
    Emit.straight.Holds (d.arith types op l r) := by
  unfold arith
  cases d.behaviour with
  | int => exact numericArith_straight _ l r
  | float => exact numericArith_straight _ l r
  | vector width =>
    cases op with
    | add | sub | mul | div => exact vectorArith_straight d _ _ _ _ l r
    | _ => exact noOperator_straight _ l r
  | distribution =>
    cases op with
    | add => exact Distribution.add_straight l r
    | mul => exact Distribution.scale_straight l r
    | _ => exact noOperator_straight _ l r
  | _ => exact noOperator_straight _ l r

theorem compare_straight (d : Descriptor) (op : BinaryOp) (l r : Typed) :
    Emit.straight.Holds (d.compare types op l r) := by
  unfold compare
  split
  · exact boolCompare_straight op l r
  · exact numericCompare_straight op l r
  · exact numericCompare_straight op l r
  · exact noOperator_straight op l r

/-- A binary operator does not branch, whoever provides it. -/
theorem Straight.binary_straight (hd : d.Straight) (op : BinaryOp) (l r : Typed) :
    Emit.straight.Holds (d.binary types op l r) := by
  unfold Descriptor.binary
  cases hhook : d.behaviour.hooks.binary with
  | some hook => exact hd.binary hook hhook op l r
  | none =>
    exact .ite (d.arith_straight op l r) (.ite (d.compare_straight op l r) (noOperator_straight op l r))

theorem Straight.unary_straight (hd : d.Straight) (op : UnaryOp) (x : Typed) :
    Emit.straight.Holds (d.unary types op x) := by
  have neg : ∀ ty, Emit.straight.Holds (do
      let v ← (liftM (Build.neg x.value) : Emit Value)
      Pure.pure (⟨ty, v⟩ : Typed)) := fun ty =>
    .bind (Emit.straight_lift (Build.neg_straight _)) fun _ => .pure _
  unfold Descriptor.unary
  -- A hook comes before the operators of the kind.
  cases hhook : d.behaviour.hooks.unary with
  | some hook => exact hd.unary hook hhook op x
  | none =>
    show Emit.straight.Holds (d.standardUnary types op x)
    unfold standardUnary
    split
    · exact .bind (Emit.straight_lift (Build.not_straight _)) fun _ => .pure _
    · exact neg _
    · exact neg _
    · exact neg _
    · exact Emit.straight_throw rfl

end Descriptor

/-! ## Lifetimes -/

namespace Lifetime

variable [types.Straight]

theorem copyValue_straight (ty : TypeId) (v : Value) :
    Emit.straight.Holds (copyValue types ty v) :=
  .bind_ofExcept (TypeTable.resolve_straight ty) fun _ hd =>
    .ite ((TypeTable.Straight.of_resolve hd).copy_straight v) (.pure v)

theorem destroyValue_straight (ty : TypeId) (v : Value) :
    Emit.straight.Holds (destroyValue types ty v) :=
  .bind_ofExcept (TypeTable.resolve_straight ty) fun _ hd =>
    .onlyIf ((TypeTable.Straight.of_resolve hd).destroy_straight v)

theorem materialize_straight (x : ExprValue) : Emit.straight.Holds (materialize types x) :=
  .ite (.pure _) (copyValue_straight _ _)

theorem release_straight (x : ExprValue) : Emit.straight.Holds (release types x) :=
  .ite (destroyValue_straight _ _) (.pure _)

omit [types.Straight] in
theorem needsDestroy_error {ty : TypeId} (h : needsDestroy types ty = .error e) :
    e.kind = .internal := by
  unfold needsDestroy at h
  cases hr : types.resolve ty with
  | error e' =>
    rw [hr] at h
    cases h
    exact TypeTable.resolve_error hr
  | ok d =>
    rw [hr] at h
    cases h

/-- Destroying a variable does not branch. -/
theorem destroySlot_straight (slot : Slot) : Emit.straight.Holds (destroySlot types slot) :=
  .bind (Emit.straight_ofExcept fun h => by simp [needsDestroy_error h]) fun _ =>
    .onlyIf (.bind (Emit.straight_lift (Build.load_straight _)) fun _ => destroyValue_straight _ _)

theorem destroySlots_straight (slots : List Slot) :
    Emit.straight.Holds (destroySlots types slots) := .forM fun slot => destroySlot_straight slot

end Lifetime

end

end Shading
