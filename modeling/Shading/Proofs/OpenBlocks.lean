import Shading.Proofs.Closing
import Shading.Proofs.Operations

/-! # Open blocks

    Where a builder stands at the end of a block that is not ended, lowering
    an expression leaves it at the end of such a block again: the same one, or
    one that the expression has appended (`Expr.lower_carrying`).  Blocks that
    were there before keep their instructions, but for the one that the
    builder stood in and for the entry, where slots are reserved.  Nothing is
    asked of the rest of the function, so this holds in every module. -/

namespace Shading

open IR

/-! ## Functions -/

namespace IR.Function

variable {f g h : Function} {home here : BlockId}

/-- Blocks have been appended and instructions added, to the entry, to one
    more block and to those that are new. -/
structure Beyond (home : BlockId) (f g : Function) : Prop where
  signature : g.signature = f.signature
  insts : f.insts <+: g.insts
  length : f.blocks.length ≤ g.blocks.length
  others : ∀ k, k < f.blocks.length → k ≠ home → k ≠ 0 → g.blockIds k = f.blockIds k

theorem Beyond.refl (home : BlockId) (f : Function) : f.Beyond home f :=
  ⟨rfl, List.prefix_refl _, Nat.le_refl _, fun _ _ _ _ => rfl⟩

/-- Work goes on in the same block or in one that was appended. -/
theorem Beyond.trans (h₁ : f.Beyond home g) (h₂ : g.Beyond here h)
    (hhere : here = home ∨ f.blocks.length ≤ here) : f.Beyond home h where
  signature := h₂.signature.trans h₁.signature
  insts := h₁.insts.trans h₂.insts
  length := h₁.length.trans h₂.length
  others k hk hne hpos := by
    rw [h₂.others k (Nat.lt_of_lt_of_le hk h₁.length) ?_ hpos, h₁.others k hk hne hpos]
    rcases hhere with rfl | hle
    · exact hne
    · exact Nat.ne_of_lt (Nat.lt_of_lt_of_le hk hle)

theorem Steady.beyond (h : f.Steady home g) : f.Beyond home g :=
  ⟨h.signature, h.insts, h.length.ge, fun k _ hne hpos => h.others k hne hpos⟩

theorem Beyond.addBlock (home : BlockId) (f : Function) (label : String) :
    f.Beyond home (f.addBlock label) :=
  ⟨rfl, List.prefix_refl _, by simp, fun k _ _ _ => f.addBlock_blockIds label k⟩

theorem Beyond.pushInst (home : BlockId) (f : Function) (i : Inst) :
    f.Beyond home (f.pushInst home i) :=
  ⟨rfl, List.prefix_append _ _, (f.pushInst_blocks_length home i).ge,
    fun _ _ hne _ => pushInst_blockIds_ne hne i⟩

/-- Values keep their types. -/
theorem Beyond.valueType (h : f.Beyond home g) {v : Value} {ty : Ty}
    (hv : f.valueType v = .ok ty) : g.valueType v = .ok ty := by
  unfold Function.valueType at hv ⊢
  -- Arguments go by the signature, instructions by the list that has only grown.
  cases v with
  | const c => exact hv
  | void => exact hv
  | arg i =>
    simp only [h.signature]
    cases hp : f.signature.params[i]? with
    | none => simp [hp] at hv
    | some t => simpa [hp] using hv
  | inst id =>
    cases hi : f.inst? id with
    | none => simp [hi] at hv
    | some i =>
      have hg : g.inst? id = some i := by
        obtain ⟨rest, hrest⟩ := h.insts
        show g.insts[id]? = some i
        rw [← hrest, List.getElem?_append_left (List.getElem?_eq_some_iff.1 hi).1]
        exact hi
      simpa [hi, hg] using hv

theorem Waits.beyond (h : f.Waits here) (hbeyond : f.Beyond home g) (hne : here ≠ home) :
    g.Waits here where
  pos := h.pos
  inside := Nat.lt_of_lt_of_le h.inside hbeyond.length
  empty := (hbeyond.others here h.inside hne h.pos).trans h.empty

end IR.Function

/-! ## Builders -/

namespace IR.Builder

variable {func : FuncId} {block home : BlockId} {f g : Function} {b b' b'' : Builder}

/-- The builder has left the end of a block for the end of a block that is the
    same one, grown, or was appended since. -/
structure Reaches (func : FuncId) (home : BlockId) (f : Function) (block : BlockId) (g : Function)
    (b : Builder) : Prop where
  stands : b.StandsAt func block g
  beyond : f.Beyond home g
  place : block = home ∨ f.blocks.length ≤ block

/-- The block that was reached is ended or not. -/
def From (func : FuncId) (home : BlockId) (f : Function) (ended : Bool) (b : Builder) : Prop :=
  ∃ block g, b.Reaches func home f block g ∧ g.isTerminated block = ended

theorem StandsAt.reaches (h : b.StandsAt func block f) : b.Reaches func block f block f :=
  ⟨h, .refl block f, .inl rfl⟩

theorem StandsAt.isTerminated (h : b.StandsAt func block f) :
    b.isTerminated = f.isTerminated block := by
  unfold Builder.isTerminated
  rw [h.cursor]
  simp only [h.found, Option.any_some]

theorem Reaches.trans {here : BlockId} {g' : Function} (h : b.Reaches func home f block g)
    (h' : b'.Reaches func block g here g') : b'.Reaches func home f here g' where
  stands := h'.stands
  beyond := h.beyond.trans h'.beyond h.place
  place := by
    rcases h'.place with rfl | hle
    · exact h.place
    · exact .inr (h.beyond.length.trans hle)

theorem From.trans {ended : Bool} (h : b.Reaches func home f block g)
    (h' : b'.From func block g ended) : b'.From func home f ended := by
  obtain ⟨here, g', hb', hended⟩ := h'
  exact ⟨here, g', h.trans hb', hended⟩

theorem From.isTerminated {ended : Bool} (h : b.From func home f ended) :
    b.isTerminated = ended := by
  obtain ⟨block, g, hb, hended⟩ := h
  rw [hb.stands.isTerminated, hended]

/-- From the end of an open block the builder has got to the end of an open
    block. -/
def Carries (b b' : Builder) : Prop :=
  ∀ {func block f}, b.StandsAt func block f → f.isTerminated block = false →
    b'.From func block f false

theorem Carries.refl (b : Builder) : b.Carries b := by
  intro func block f hb hopen
  exact ⟨block, f, hb.reaches, hopen⟩

theorem Carries.trans (h₁ : b.Carries b') (h₂ : b'.Carries b'') : b.Carries b'' := by
  intro func block f hb hopen
  obtain ⟨block', g, hb', hopen'⟩ := h₁ hb hopen
  exact .trans hb' (h₂ hb'.stands hopen')

theorem Straight.carries (h : b.Straight b') : b.Carries b' := by
  intro func block f hb hopen
  obtain ⟨g, hb', hsteady⟩ := h.steady hb
  exact ⟨block, g, ⟨hb', hsteady.beyond, .inl rfl⟩, hsteady.isOpen hopen⟩

/-! ## Blocks -/

theorem StandsAt.moveTo (h : b.StandsAt func block f) {target : BlockId}
    (htarget : target < f.blocks.length) : (b.moveTo func target).StandsAt func target f :=
  ⟨rfl, h.found, htarget⟩

namespace Reaches

/-- The builder goes on with a block that was appended. -/
theorem moveTo (h : b.Reaches func home f block g) {target : BlockId}
    (htarget : target < g.blocks.length) (hnew : f.blocks.length ≤ target) :
    (b.moveTo func target).Reaches func home f target g :=
  ⟨h.stands.moveTo htarget, h.beyond, .inr hnew⟩

/-- What starts behind some blocks stays behind them. -/
theorem le_block (h : b.Reaches func home f block g) {n : Nat} (hhome : n ≤ home)
    (hn : n ≤ f.blocks.length) : n ≤ block := by
  rcases h.place with hblock | hle
  · rwa [hblock]
  · exact hn.trans hle

/-- A block that waits is not the one that was reached. -/
theorem waits (h : b.Reaches func home f block g) {k : BlockId} (hk : f.Waits k) (hne : k ≠ home) :
    g.Waits k ∧ k ≠ block := by
  refine ⟨hk.beyond h.beyond hne, ?_⟩
  rcases h.place with hblock | hle
  · rwa [hblock]
  · exact Nat.ne_of_lt (Nat.lt_of_lt_of_le hk.inside hle)

/-- A block is appended, and the builder stays where it stands. -/
theorem appendBlock (h : b.Reaches func home f block g) (label : String) :
    (Build.appendBlock func label).Yields b fun id t => id = g.blocks.length ∧
      ∃ l, t.Reaches func home f block (g.addBlock l) := by
  refine (Act.Yields.of_meets (Build.function_meets func)).bind ?_
  rintro g' t ⟨rfl, hg⟩
  rw [h.stands.found] at hg
  cases hg
  exact ⟨rfl, _, h.trans
    ⟨h.stands.update (g := (·.addBlock _)) rfl (by simp), .addBlock block g _, .inl rfl⟩⟩

/-- The block is ended. -/
theorem finish (h : b.Reaches func home f block g) (op : Op) :
    (Build.emitVoid op).Yields b fun _ t =>
      t.Reaches func home f block (g.pushInst block ⟨op, .void, none⟩) := by
  refine (Act.Yields.of_meets (Build.emit_meets op .void)).bind ?_
  rintro id t ⟨c, g', hc, hg, -, -, rfl⟩
  rw [h.stands.cursor] at hc
  cases hc
  rw [h.stands.found] at hg
  cases hg
  exact h.trans ⟨h.stands.update (g := (·.pushInst block _)) rfl (g.pushInst_blocks_length ..).ge,
    .pushInst block g _, .inl rfl⟩

/-- Checks in front of the end of a block change nothing. -/
theorem condBr (h : b.Reaches func home f block g) (c : Value) (t e : BlockId) :
    (Build.condBr c t e).Yields b fun _ b' =>
      b'.Reaches func home f block (g.pushInst block ⟨.condBr c t e, .void, none⟩) := by
  refine (Act.Yields.of_meets (Build.expect_checks c .bool _)).bind ?_
  rintro _ _ ⟨rfl, -⟩
  exact h.finish _

theorem ret (h : b.Reaches func home f block g) (v : Option Value) :
    (Build.ret v).Yields b fun _ b' =>
      b'.Reaches func home f block (g.pushInst block ⟨.ret v, .void, none⟩) := by
  refine (Act.Yields.of_meets Build.current_checks).bind ?_
  rintro g' _ ⟨rfl, -⟩
  refine (Act.Yields.of_meets (Build.expectResult_checks v g'.signature.ret)).bind ?_
  rintro _ _ ⟨rfl, -⟩
  exact h.finish _

/-- The end of a block has been reached. -/
theorem ended (h : b.Reaches func home f block g) {i : Inst} (hi : i.op.isTerminator = true)
    (h' : b'.Reaches func home f block (g.pushInst block i)) : b'.From func home f true := by
  refine ⟨block, _, h', ?_⟩
  rw [Function.pushInst_isTerminated_self h.stands.inside, hi]

end Reaches

/-- Blocks have been appended for what follows, and the builder is still in the
    block that it was in. -/
structure Opened (func : FuncId) (home : BlockId) (f : Function) (n : Nat) (g : Function)
    (b : Builder) : Prop where
  reaches : b.Reaches func home f home g
  inside : home < f.blocks.length
  length : g.blocks.length = f.blocks.length + n
  fresh : ∀ k, f.blocks.length ≤ k → g.blockIds k = []

theorem StandsAt.opened (h : b.StandsAt func home f) : b.Opened func home f 0 f :=
  ⟨h.reaches, h.inside, rfl, fun _ hk => Function.blockIds_of_le hk⟩

namespace Opened

variable {n : Nat}

theorem appendBlock (h : b.Opened func home f n g) (label : String) :
    (Build.appendBlock func label).Yields b fun id t => id = f.blocks.length + n ∧
      ∃ g', t.Opened func home f (n + 1) g' := by
  refine (h.reaches.appendBlock label).mono ?_
  rintro id t ⟨rfl, l, ht⟩
  refine ⟨h.length, _, ht, h.inside, ?_, fun k hk => ?_⟩
  · rw [Function.addBlock_blocks_length, h.length, Nat.add_assoc]
  · rw [Function.addBlock_blockIds, h.fresh k hk]

theorem pushInst (h : b.Opened func home f n g) {i : Inst}
    (hb' : b'.Reaches func home f home (g.pushInst home i)) :
    b'.Opened func home f n (g.pushInst home i) where
  reaches := hb'
  inside := h.inside
  length := by rw [Function.pushInst_blocks_length, h.length]
  fresh k hk := by
    rw [Function.pushInst_blockIds_ne (Nat.ne_of_gt (Nat.lt_of_lt_of_le h.inside hk)), h.fresh k hk]

theorem finish (h : b.Opened func home f n g) (op : Op) :
    (Build.emitVoid op).Yields b fun _ t => ∃ g', t.Opened func home f n g' :=
  (h.reaches.finish op).mono fun _ _ ht => ⟨_, h.pushInst ht⟩

theorem condBr (h : b.Opened func home f n g) (c : Value) (t e : BlockId) :
    (Build.condBr c t e).Yields b fun _ b' => ∃ g', b'.Opened func home f n g' :=
  (h.reaches.condBr c t e).mono fun _ _ ht => ⟨_, h.pushInst ht⟩

theorem waits (h : b.Opened func home f n g) {k : Nat} (hk : k < n) :
    g.Waits (f.blocks.length + k) where
  pos := Nat.ne_of_gt (Nat.lt_of_lt_of_le (Nat.zero_lt_of_lt h.inside) (Nat.le_add_right _ k))
  inside := by
    rw [h.length]
    exact Nat.add_lt_add_left hk _
  empty := h.fresh _ (Nat.le_add_right _ k)

/-- The builder goes on with one of the new blocks. -/
theorem enter (h : b.Opened func home f n g) {k : Nat} (hk : k < n) :
    (b.moveTo func (f.blocks.length + k)).Reaches func home f (f.blocks.length + k) g :=
  h.reaches.moveTo (h.waits hk).inside (Nat.le_add_right _ k)

end Opened

/-- The builder has worked in one of the blocks that were appended and goes on
    with another one, which is still empty. -/
theorem Reaches.resume {here k : BlockId} {g' : Function} (h : b.Reaches func home f block g)
    (h' : b'.Reaches func block g here g') (hk : g.Waits k) (hne : k ≠ block)
    (hnew : f.blocks.length ≤ k) : (b'.moveTo func k).From func home f false := by
  have hwaits := (h'.waits hk hne).1
  exact ⟨k, g', (h.trans h').moveTo hwaits.inside hnew, hwaits.isOpen⟩

/-- The new block of a function, wherever the builder stands. -/
theorem appendBlock_enters (func : FuncId) (label : String) (b : Builder) :
    (Build.appendBlock func label).Yields b fun id t =>
      ∃ g, (t.moveTo func id).StandsAt func id g ∧ g.isTerminated id = false := by
  refine (Act.Yields.of_meets (Build.function_meets func)).bind ?_
  rintro f t ⟨rfl, hf⟩
  refine ⟨f.addBlock (Build.newLabel f.blocks label), ⟨rfl, ?_, by simp⟩, ?_⟩
  · show (t.module.update func _).function? func = _
    exact Module.update_function?_eq hf rfl
  · rw [Function.addBlock_isTerminated, Function.isTerminated_of_le (Nat.le_refl _)]

theorem StandsAt.currentFunction_run (h : b.StandsAt func block f) :
    (liftM Build.currentFunction : Emit FuncId).run b = (.ok func, b) := by
  obtain ⟨m, c⟩ := b
  cases h.cursor
  rfl

theorem StandsAt.currentBlock_run (h : b.StandsAt func block f) :
    (liftM Build.currentBlock : Emit BlockId).run b = (.ok block, b) := by
  obtain ⟨m, c⟩ := b
  cases h.cursor
  rfl

end IR.Builder

/-! ## Expressions -/

namespace Emit

/-- From the end of an open block an action gets to the end of an open block. -/
def carrying : Act.Law Builder Fault where
  answered := Builder.Carries
  refused _ _ _ := True
  refl := Builder.Carries.refl
  trans := Builder.Carries.trans
  after _ h := h

theorem carrying_of_straight {α : Type} {x : Emit α} (h : straight.Holds x) : carrying.Holds x :=
  fun b => (h b).mono (fun _ _ h => h.carries) fun _ _ _ => trivial

/-- What an action does from one place to another. -/
theorem carrying_reaches {α : Type} {x : Emit α} (h : carrying.Holds x) {b : Builder}
    {func : FuncId} {block : BlockId} {f : Function} (hb : b.StandsAt func block f)
    (hopen : f.isTerminated block = false) :
    x.Yields b fun _ t => ∃ here g, t.Reaches func block f here g ∧ g.isTerminated here = false :=
  (Act.Yields.of_law h b).mono fun _ _ ht => ht hb hopen

/-- The second operand of a short-circuit operator is computed in a block of
    its own, and then the builder stands in an empty block behind both. -/
theorem logical_carrying {env : Env} {left right : Emit ExprValue} (hl : carrying.Holds left)
    (hr : carrying.Holds right) (op : BinaryOp) (span : Span) :
    carrying.Holds (Lower.logical env op span left right) := by
  intro b
  suffices h : ∀ func home f, b.StandsAt func home f → f.isTerminated home = false →
      (Lower.logical env op span left right).Yields b fun _ t => t.From func home f false from
    Act.meets_of_run (fun _ _ hrun _ _ _ hb hopen => (h _ _ _ hb hopen).of_ok hrun)
      fun _ _ _ => trivial
  intro func home f hb hopen
  refine (carrying_reaches hl hb hopen).bind ?_
  rintro l b₁ ⟨here, g, h₁, -⟩
  refine .refuseIf_bind fun _ => .bind_of_run h₁.stands.currentFunction_run ?_
  refine .bind_of_run h₁.stands.currentBlock_run ?_
  refine (h₁.stands.opened.appendBlock _).mapError.bind ?_
  rintro _ b₂ ⟨rfl, g₂, h₂⟩
  refine (h₂.appendBlock _).mapError.bind ?_
  rintro _ b₃ ⟨rfl, g₃, h₃⟩
  refine (h₃.condBr ..).mapError.bind ?_
  rintro _ b₄ ⟨g₄, h₄⟩
  have h₅ := h₄.enter Nat.zero_lt_two
  refine .bind_of_run (t := b₄.moveTo func _) rfl ?_
  refine (carrying_reaches hr h₅.stands (h₄.waits Nat.zero_lt_two).isOpen).bind ?_
  rintro r b₆ ⟨here₆, g₆, h₆, -⟩
  refine .refuseIf_bind fun _ => .bind_of_run h₆.stands.currentBlock_run ?_
  refine (h₆.finish _).mapError.bind fun _ b₇ h₇ => ?_
  -- The second operand has not been in the block behind both.
  have hjoin := h₅.resume h₇ (h₄.waits Nat.one_lt_two) (Nat.succ_ne_self _) (Nat.le_add_right _ 1)
  refine .bind_of_run (t := b₇.moveTo func _) rfl ?_
  obtain ⟨here₈, g₈, h₈, hopen₈⟩ := hjoin
  refine (carrying_reaches (carrying_of_straight (straight_lift fun b => Build.phi_straight _ _ b))
    h₈.stands hopen₈).bind ?_
  rintro v b₉ ⟨here₉, g₉, h₉, hopen₉⟩
  exact .pure ⟨here₉, g₉, (h₁.trans h₈).trans h₉, hopen₉⟩

theorem carrying_covers : Covers carrying := ⟨carrying_of_straight, logical_carrying⟩

end Emit

theorem Expr.lower_carrying (env : Env) [env.types.Straight] (symbols : Symbols) (e : Expr) :
    Emit.carrying.Holds (e.lower env symbols) :=
  Expr.lower_covered env symbols Emit.carrying_covers e

theorem Lower.check_carrying {env : Env} [env.types.Straight] {symbols : Symbols} (e : Expr)
    (expected : TypeId) (span : Span) (context : String) :
    Emit.carrying.Holds (Lower.check env (e.lower env symbols) expected span context) :=
  Emit.carrying_covers.check (e.lower_carrying env symbols) expected span context

end Shading
