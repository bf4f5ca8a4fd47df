import Shading.Proofs.WellFormedness

/-! # Where instructions are listed

    An instruction that a builder accepts is added to the function of the
    cursor.  An ordinary one then stands at the end of the block of the
    cursor, and a slot stands in the entry block, behind the slots that the
    block starts with (`accepted_instructions_listed`).

    The cursor is not checked, and the body it stands in may have been
    dropped.  If there is no such block, the instruction is accepted all the
    same and no block lists it (`strayed`). -/

namespace Shading.IR

namespace Function

/-- A function has got one instruction more, and a block lists it between
    what it listed before. -/
structure Lists (f : Function) (block : BlockId) (front back : List InstId) (i : Inst)
    (g : Function) : Prop where
  insts : g.insts = f.insts ++ [i]
  before : f.blockIds block = front ++ back
  after : g.blockIds block = front ++ f.insts.length :: back
  others : ∀ b, b ≠ block → g.blockIds b = f.blockIds b

/-- A function has got one instruction more, which no block lists. -/
structure Strays (f : Function) (i : Inst) (g : Function) : Prop where
  insts : g.insts = f.insts ++ [i]
  blocks : g.blocks = f.blocks
  unlisted : ∀ b, f.insts.length ∉ g.blockIds b

variable {f : Function} {block : BlockId} {i : Inst}

theorem pushInst_lists (h : block < f.blocks.length) :
    f.Lists block (f.blockIds block) [] i (f.pushInst block i) where
  insts := rfl
  before := (List.append_nil _).symm
  after := pushInst_blockIds_self h i
  others _ hne := pushInst_blockIds_ne hne i

/-- What the blocks list exists already, so they do not list what is new. -/
theorem Strays.of_blocks (hvalid : f.Valid) {g : Function} (hinsts : g.insts = f.insts ++ [i])
    (hblocks : g.blocks = f.blocks) : f.Strays i g where
  insts := hinsts
  blocks := hblocks
  unlisted b hmem := by
    unfold blockIds block? at hmem
    rw [hblocks] at hmem
    exact Nat.lt_irrefl _ (hvalid b _ hmem)

theorem pushInst_strays (hvalid : f.Valid) (h : f.blocks.length ≤ block) :
    f.Strays i (f.pushInst block i) := .of_blocks hvalid rfl (List.modify_eq_self h)

theorem addSlot_lists (hvalid : f.Valid) (h : f.blocks ≠ []) :
    f.Lists 0 (f.slots 0) (f.code 0) i (f.addSlot i) where
  insts := rfl
  before := (f.slots_append_code 0).symm
  after := addSlot_blockIds_entry hvalid (List.length_pos_iff.2 h) i
  others _ hne := addSlot_blockIds_ne hne i

theorem addSlot_strays (hvalid : f.Valid) (h : f.blocks = []) : f.Strays i (f.addSlot i) :=
  .of_blocks hvalid rfl (List.modify_eq_self (by rw [h]; exact Nat.zero_le _))

end Function

/-- The function that the cursor stands in was changed, and nothing else. -/
structure Builder.ChangesHere (b : Builder) (c : Cursor) (f g : Function) (t : Builder) : Prop where
  cursor : b.cursor = some c
  stays : t.cursor = some c
  before : b.module.function? c.func = some f
  after : t.module.function? c.func = some g
  others : ∀ id, id ≠ c.func → t.module.function? id = b.module.function? id

theorem Builder.changesHere_update {b : Builder} {c : Cursor} {f : Function}
    (hc : b.cursor = some c) (hf : b.module.function? c.func = some f) {g : Function → Function}
    (hg : f.withBodyOf (g f) = g f) :
    b.ChangesHere c f (g f) { b with module := b.module.update c.func g } where
  cursor := hc
  stays := hc
  before := hf
  after := Module.update_function?_eq hf hg
  others _ hne := Module.update_function?_ne _ hne g

/-- However a builder has been used, all that a block lists exists. -/
theorem Builder.performAll_valid (name : String) (os : List Operation) {id : FuncId} {f : Function}
    (hf : ((Builder.start (.empty name)).performAll os).module.function? id = some f) :
    f.Valid := by
  have hempty : (Builder.start (.empty name)).module.WellFormed := by
    intro id f hf
    cases hf
  exact ((performAll_wellFormed hempty os).1 id f hf).listed

/-- However a builder has been used, an operation that it accepts adds one
    instruction to the function of the cursor.  An ordinary instruction is
    the last one in the block of the cursor, if there is such a block.  A slot
    stands in the entry block, behind the slots that the block starts with and
    in front of everything else, if there is an entry block.  Otherwise no
    block lists the instruction. -/
theorem accepted_instructions_listed (name : String) (os : List Operation) {o : Operation}
    {t : Builder} (hrun : o.act.run ((Builder.start (.empty name)).performAll os) = (.ok (), t)) :
    (o.isEmission = true → ∃ c f g i,
      ((Builder.start (.empty name)).performAll os).ChangesHere c f g t ∧
        (c.block < f.blocks.length → f.Lists c.block (f.blockIds c.block) [] i g) ∧
        (f.blocks.length ≤ c.block → f.Strays i g)) ∧
      ∀ ty x, o = .alloca ty x → ∃ c f g i,
        ((Builder.start (.empty name)).performAll os).ChangesHere c f g t ∧
          i.op.isAlloca = true ∧
          (f.blocks ≠ [] → f.Lists 0 (f.slots 0) (f.code 0) i g) ∧
          (f.blocks = [] → f.Strays i g) := by
  constructor
  · intro hemission
    obtain ⟨hc, hf, -, -, -⟩ := (o.act_emits _ hemission).of_ok hrun
    exact ⟨_, _, _, _, Builder.changesHere_update hc hf rfl, Function.pushInst_lists,
      Function.pushInst_strays (Builder.performAll_valid name os hf)⟩
  · rintro ty x rfl
    obtain ⟨v, u, halloca, hanswer⟩ := Act.run_bind_eq_ok.1 hrun
    obtain ⟨-, rfl⟩ := Act.run_pure_eq_ok.1 hanswer
    obtain ⟨hc, hf, hi, -⟩ := (Build.alloca_slots ty x).of_ok halloca
    -- The slots in front are counted as they are listed, because all of them exist.
    have hvalid := Builder.performAll_valid name os hf
    exact ⟨_, _, _, _, Builder.changesHere_update hc hf rfl, hi, Function.addSlot_lists hvalid,
      Function.addSlot_strays hvalid⟩

/-- A function with a body, in which the cursor stands at the end of the second
    of two blocks. -/
def twoBlocks : List Operation :=
  [.declare "f" ⟨[.f32], .f32⟩ .internal, .appendBlock 0 "entry", .appendBlock 0 "exit",
    .moveTo 0 0, .alloca .f32 "x", .store (.arg 0) (.inst 0), .br 1, .moveTo 0 1]

/-- A load goes to the end of the second block, and a slot behind the slot of
    the first. -/
theorem twoBlocks_listed :
    (∃ t c f g i, (Operation.load (.inst 0)).act.run
        ((Builder.start (.empty "m")).performAll twoBlocks) = (.ok (), t) ∧
      ((Builder.start (.empty "m")).performAll twoBlocks).ChangesHere c f g t ∧
      f.Lists 1 (f.blockIds 1) [] i g) ∧
    ∃ t c f g i, (Operation.alloca .i32 "n").act.run
        ((Builder.start (.empty "m")).performAll twoBlocks) = (.ok (), t) ∧
      ((Builder.start (.empty "m")).performAll twoBlocks).ChangesHere c f g t ∧
      f.Lists 0 [0] [1, 2] i g := by
  have hload := Act.run_eq_of_fst (x := (Operation.load (.inst 0)).act) (r := .ok ())
    (s := (Builder.start (.empty "m")).performAll twoBlocks) (by decide +kernel)
  have halloca := Act.run_eq_of_fst (x := (Operation.alloca .i32 "n").act) (r := .ok ())
    (s := (Builder.start (.empty "m")).performAll twoBlocks) (by decide +kernel)
  have hcursor : ((Builder.start (.empty "m")).performAll twoBlocks).cursor = some ⟨0, 1⟩ := by
    decide +kernel
  have hbody : (((Builder.start (.empty "m")).performAll twoBlocks).module.function? 0).map
      (fun f => (f.blocks.length, f.slots 0, f.code 0)) = some (2, [0], [1, 2]) := by
    decide +kernel
  -- Both operations find the same cursor and the same function.
  have hhere : ∀ {c f g t},
      ((Builder.start (.empty "m")).performAll twoBlocks).ChangesHere c f g t →
        c = ⟨0, 1⟩ ∧ f.blocks.length = 2 ∧ f.slots 0 = [0] ∧ f.code 0 = [1, 2] := by
    intro c f g t h
    obtain rfl : c = ⟨0, 1⟩ := Option.some.inj (h.cursor.symm.trans hcursor)
    rw [h.before] at hbody
    simpa using hbody
  constructor
  · obtain ⟨c, f, g, i, h, hlists, -⟩ := (accepted_instructions_listed "m" twoBlocks hload).1 rfl
    obtain ⟨rfl, hlen, -, -⟩ := hhere h
    exact ⟨_, _, f, g, i, hload, h, hlists (by rw [hlen]; decide)⟩
  · obtain ⟨c, f, g, i, h, -, hlists, -⟩ :=
      (accepted_instructions_listed "m" twoBlocks halloca).2 _ _ rfl
    obtain ⟨-, hlen, hslots, hcode⟩ := hhere h
    have hne : f.blocks ≠ [] := fun hnil => by rw [hnil] at hlen; cases hlen
    rw [hslots, hcode] at hlists
    exact ⟨_, c, f, g, i, halloca, h, hlists hne⟩

/-- A function whose body is dropped while the cursor stands in it. -/
def strayed : List Operation :=
  [.declare "f" ⟨[], .void⟩ .internal, .appendBlock 0 "entry", .moveTo 0 0, .clearBody 0]

/-- A return and a slot are accepted, and no block lists them. -/
theorem strayed_instructions_not_listed :
    let b := (Builder.start (.empty "m")).performAll strayed
    ((Operation.ret none).act.run b).1 = .ok () ∧
      ((Operation.alloca .i32 "n").act.run b).1 = .ok () ∧
      ((b.performAll [.ret none, .alloca .i32 "n"]).module.function? 0).map
        (fun f => (f.insts.length, f.blocks)) = some (2, []) := by
  decide +kernel

end Shading.IR
