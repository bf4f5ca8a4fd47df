import Shading.Proofs.Framing
import Shading.Proofs.Statements

/-! # Every opened block is closed

    While a construct is being lowered, some blocks wait to be filled: the
    one that the builder stands in, and those that enclosing constructs will
    go on with.  All others are ended.  Lowering keeps this up whichever
    blocks wait (`Builder.Closing`), so at the end of a body only the current
    block can be open.

    Nothing here depends on the types of a program: the table of types may
    hold anything. -/

namespace Shading

open IR

instance Env.default_straight : Env.default.types.Straight := TypeTable.builtins_straight

/-! ## Closed functions -/

namespace IR

/-- Every block is ended, but for waiting ones. -/
structure Function.Closed (f : Function) (waiting : BlockId → Prop) : Prop where
  clean : f.Clean
  ended : ∀ b, b < f.blocks.length → f.isTerminated b = true ∨ waiting b

namespace Function.Closed

variable {f : Function} {P Q : BlockId → Prop}

theorem mono (h : f.Closed P) (hPQ : ∀ b, P b → Q b) : f.Closed Q where
  clean := h.clean
  ended b hb := by
    rcases h.ended b hb with he | hp
    · exact .inl he
    · exact .inr (hPQ b hp)

/-- A block that is ended does not wait. -/
theorem drop {b : BlockId} (h : f.Closed fun c => c = b ∨ P c) (hb : f.isTerminated b = true) :
    f.Closed P where
  clean := h.clean
  ended c hc := by
    rcases h.ended c hc with he | rfl | hp
    · exact .inl he
    · exact .inl hb
    · exact .inr hp

end Function.Closed

section

variable {func : FuncId} {S S' : Site func} {P : BlockId → Prop}

theorem Site.Level.closed (h : S.Level S') (hS : S.body.Closed P) : S'.body.Closed P where
  clean := h.clean hS.clean
  ended b hb := by
    rw [h.length] at hb
    rw [h.ended]
    exact hS.ended b hb

theorem Site.push_closed (hopen : S.Open) (hS : S.body.Closed fun c => c = S.block ∨ P c)
    (i : Inst) : (S.push i).body.Closed fun c => c = S.block ∨ P c where
  clean := hS.clean.pushInst S.valid S.inside hopen i
  ended b hb := by
    show (S.body.pushInst S.block i).isTerminated b = true ∨ _
    rw [S.push_blocks_length] at hb
    by_cases hbS : b = S.block
    · exact .inr (.inl hbS)
    · rw [Function.pushInst_isTerminated_ne S.valid hbS]
      exact hS.ended b hb

/-- A terminator ends the block in hand. -/
theorem Site.push_ended (S : Site func) {i : Inst} (hi : i.op.isTerminator = true) :
    (S.push i).body.isTerminated S.block = true := by
  show (S.body.pushInst S.block i).isTerminated S.block = true
  rw [Function.pushInst_isTerminated_self S.inside, hi]

/-- A new block is the only one that is open in addition. -/
theorem Site.addBlock_closed (hS : S.body.Closed P) (label : String) :
    (S.addBlock label).body.Closed fun c => P c ∨ c = S.body.blocks.length where
  clean := hS.clean.addBlock label
  ended b hb := by
    show (S.body.addBlock label).isTerminated b = true ∨ _
    have hlt : b < S.body.blocks.length + 1 := by
      rw [← Function.addBlock_blocks_length S.body label]
      exact hb
    rw [Function.addBlock_isTerminated]
    by_cases hnew : b = S.body.blocks.length
    · exact .inr (.inr hnew)
    · rcases hS.ended b (by omega) with he | hp
      · exact .inl he
      · exact .inr (.inl hp)

end

/-- The body has at least `n` blocks, and what the function held before stands
    in front of it and of the current block. -/
structure Site.Behind {func : FuncId} (S : Site func) (old : Function) (n : Nat) : Prop where
  front : old.Front S.body
  block : old.blocks.length ≤ S.block
  old_le : old.blocks.length ≤ n
  length : n ≤ S.body.blocks.length

theorem Site.Behind.push {func : FuncId} {S : Site func} {old : Function} {n : Nat}
    (h : S.Behind old n) (i : Inst) : (S.push i).Behind old n :=
  ⟨h.front.pushInst S.valid h.block i, h.block, h.old_le, S.push_blocks_length i ▸ h.length⟩

/-! ## Builders -/

namespace Builder

/-- The builder stands in a function of at least `n` blocks, behind those of an
    old body, and besides its own block only others that wait may be open. -/
def Fills (func : FuncId) (old : Function) (n : Nat) (P : BlockId → Prop) (b : Builder) : Prop :=
  ∃ S : Site func, S.builder = b ∧ S.Behind old n ∧ S.body.Closed fun c => c = S.block ∨ P c

/-- The block that the builder stands in is no longer open either. -/
def Filled (func : FuncId) (old : Function) (n : Nat) (P : BlockId → Prop) (b : Builder) : Prop :=
  ∃ S : Site func, S.builder = b ∧ S.Behind old n ∧ S.body.Closed P

section

variable {func : FuncId} {old : Function} {m n : Nat} {P Q : BlockId → Prop} {b : Builder}

/-- More blocks may be open, and fewer may be reserved. -/
theorem Fills.mono (h : b.Fills func old n P) (hm : old.blocks.length ≤ m) (hmn : m ≤ n)
    (hPQ : ∀ c, P c → Q c) : b.Fills func old m Q := by
  obtain ⟨S, hS, hn, hP⟩ := h
  refine ⟨S, hS, { hn with old_le := hm, length := hmn.trans hn.length }, hP.mono fun c hc => ?_⟩
  rcases hc with hc | hc
  · exact .inl hc
  · exact .inr (hPQ c hc)

theorem Fills.old_le (h : b.Fills func old n P) : old.blocks.length ≤ n := by
  obtain ⟨S, -, hn, -⟩ := h
  exact hn.old_le

end

/-- Whichever blocks wait besides the current one, no other block is left
    open. -/
structure Closing (b b' : Builder) : Prop where
  framed : b.Framed b'
  fills : ∀ func old n P, b.Fills func old n P → b'.Fills func old n P

theorem Closing.refl (b : Builder) : b.Closing b := ⟨.refl b, fun _ _ _ _ h => h⟩

theorem Closing.trans {b b' b'' : Builder} (h₁ : b.Closing b') (h₂ : b'.Closing b'') :
    b.Closing b'' :=
  ⟨h₁.framed.trans h₂.framed, fun _ _ _ _ h => h₂.fills _ _ _ _ (h₁.fills _ _ _ _ h)⟩

/-- Code without branches leaves no block open behind it. -/
theorem Straight.closing {b b' : Builder} (h : b.Straight b') : b.Closing b' := by
  refine ⟨h.framed, fun func old n P hb => ?_⟩
  obtain ⟨S, hS, hn, hP⟩ := hb
  obtain ⟨S', hS', hlevel⟩ := h.level S hS
  refine ⟨S', hS', ⟨hlevel.front hn.block hn.front, hlevel.block ▸ hn.block, hn.old_le,
    hlevel.length ▸ hn.length⟩, ?_⟩
  rw [hlevel.block]
  exact hlevel.closed hP

/-- The builder still stands in a function, and other functions are as
    before. -/
def Stays (func : FuncId) (b b' : Builder) : Prop :=
  b.currentFunction? = some func →
    b'.currentFunction? = some func ∧ b.module.Frames func b'.module

theorem Stays.refl (func : FuncId) (b : Builder) : b.Stays func b := fun h => ⟨h, .refl func _⟩

theorem Stays.trans {func : FuncId} {b b' b'' : Builder} (h₁ : b.Stays func b')
    (h₂ : b'.Stays func b'') : b.Stays func b'' := by
  intro h
  obtain ⟨hcur, hframe⟩ := h₁ h
  obtain ⟨hcur', hframe'⟩ := h₂ hcur
  exact ⟨hcur', hframe.trans hframe'⟩

end Builder

end IR

/-! ## Three laws -/

namespace Emit

/-- No block is left open where an action answers. -/
def closing : Act.Law Builder Fault where
  answered := Builder.Closing
  refused e b b' := b.Framed b' ∧ e.isMissingReturn = false
  refl := Builder.Closing.refl
  trans := Builder.Closing.trans
  after h h' := ⟨h.framed.trans h'.1, h'.2⟩

/-- The builder stays in a function, whether an action answers or not. -/
def staying (func : FuncId) : Act.Law Builder Fault where
  answered b b' := b.Stays func b'
  refused e b b' := b.Stays func b' ∧ e.isMissingReturn = false
  refl := Builder.Stays.refl func
  trans := Builder.Stays.trans
  after h h' := ⟨h.trans h'.1, h'.2⟩

/-- Nothing but the function of the builder is touched, whether an action
    answers or not. -/
def framing : Act.Law Builder Fault where
  answered := Builder.Framed
  refused _ b b' := b.Framed b'
  refl := Builder.Framed.refl
  trans := Builder.Framed.trans
  after := Builder.Framed.trans

variable {α β : Type} {func : FuncId} {old : Function} {n : Nat} {P Q : BlockId → Prop}
  {b : Builder}

theorem closing_refused {e : Fault} (he : e.isMissingReturn = false) (b : Builder) :
    closing.refused e b b := ⟨.refl b, he⟩

/-- A law for straight code is a law for code that closes its blocks. -/
theorem closing_of_straight {x : Emit α} (h : straight.Holds x) : closing.Holds x :=
  fun b => (h b).mono (fun _ _ h => h.closing) fun _ _ h => ⟨h.1.framed, h.2⟩

theorem staying_of_closing {x : Emit α} (h : closing.Holds x) : (staying func).Holds x :=
  fun b => (h b).mono (fun _ _ h => h.framed func) fun _ _ h => ⟨h.1 func, h.2⟩

theorem closing_lift {x : Build α} (h : Build.straight.Holds x) :
    closing.Holds (liftM x : Emit α) := closing_of_straight (straight_lift h)

/-- An action that stays in its function and fills what it opens. -/
theorem closing_of_staying {x : Emit α} (hstay : ∀ func, (staying func).Holds x)
    (hfills : ∀ func old n P b, b.Fills func old n P →
      x.Meets b (fun _ t => t.Fills func old n P) fun _ _ => True) : closing.Holds x := by
  intro b
  exact Act.meets_of_run
    (fun a t hrun => ⟨fun func => (hstay func b).of_ok hrun, fun func old n P hb =>
      (hfills func old n P b hb).of_ok hrun⟩)
    fun e t hrun => ⟨fun func => ((hstay func b).of_error hrun).1, ((hstay 0 b).of_error hrun).2⟩

/-! ### Staying -/

/-- The function in hand is the one that is being filled. -/
theorem currentFunction_staying {k : FuncId → Emit β} (h : ∀ id, (staying id).Holds (k id)) :
    (staying func).Holds ((liftM Build.currentFunction : Emit FuncId) >>= k) := by
  intro b
  have hread : Build.currentFunction.Meets b
      (fun id t => t = b ∧ b.currentFunction? = some id) fun _ t => t = b := by
    refine Build.cursor_meets.bind fun c t ht => ?_
    obtain ⟨rfl, hc⟩ := ht
    exact ⟨rfl, by simp [Builder.currentFunction?, hc]⟩
  refine Act.meets_bind.2 (Act.meets_mapError.2 (hread.mono (fun id t ht => ?_) fun e t ht => ?_))
  · obtain ⟨rfl, hid⟩ := ht
    -- A builder that stands elsewhere is under no obligation.
    have here : ∀ u, t.Stays id u → t.Stays func u := by
      intro u hu hcur
      rw [hid, Option.some.injEq] at hcur
      rw [← hcur]
      exact hu hid
    exact (h id t).mono (fun _ u hu => here u hu) fun _ u hu => ⟨here u hu.1, hu.2⟩
  · rw [ht]
    exact ⟨.refl func b, rfl⟩

theorem appendBlock_staying (label : String) :
    (staying func).Holds (liftM (Build.appendBlock func label) : Emit BlockId) := by
  intro b
  refine Act.meets_mapError.2 (Act.meets_bind.2 ((Build.function_meets func).mono
    (fun f t ht => ?_) fun e t ht => ?_))
  · rw [ht.1]
    exact fun hcur => ⟨hcur, .update func b.module _⟩
  · rw [ht]
    exact ⟨.refl func b, rfl⟩

theorem moveTo_staying (block : BlockId) :
    (staying func).Holds (liftM (Build.moveTo func block) : Emit Unit) :=
  fun _ _ => ⟨rfl, .refl func _⟩

theorem currentBlock_closing : closing.Holds (liftM Build.currentBlock : Emit BlockId) := by
  refine closing_lift (Build.straight_of_still fun b => ?_)
  exact Build.cursor_meets.bind fun c t ht => ht.1

/-! ### Filling blocks

    Where an action answers, what is known about the waiting blocks; nothing
    is said about refusals. -/

theorem fills_of_closing {x : Emit α} (hx : closing.Holds x) (h : b.Fills func old n P) :
    x.Meets b (fun _ t => t.Fills func old n P) fun _ _ => True :=
  (hx b).mono (fun _ _ hb => hb.fills func old n P h) fun _ _ _ => trivial

theorem currentFunction_fills (h : b.Fills func old n P) :
    (liftM Build.currentFunction : Emit FuncId).Meets b
      (fun id t => id = func ∧ t.Fills func old n P) fun _ _ => True := by
  obtain ⟨S, rfl, hS⟩ := h
  refine Act.meets_of_run (fun id t hrun => ?_) fun _ _ _ => trivial
  obtain ⟨rfl, rfl⟩ := Build.currentFunction_run (Act.run_mapError_eq_ok.1 hrun)
  exact ⟨rfl, S, rfl, hS⟩

/-- An appended block waits. -/
theorem appendBlock_filled (h : b.Filled func old n P) (label : String) :
    (liftM (Build.appendBlock func label) : Emit BlockId).Meets b
      (fun r t => n ≤ r ∧ t.cursor = b.cursor ∧ t.Filled func old (r + 1) fun c => P c ∨ c = r)
      fun _ _ => True := by
  obtain ⟨S, rfl, hn, hP⟩ := h
  refine Act.meets_mapError.2 (Act.meets_bind.2 ((Build.function_meets func).mono
    (fun f t ht => ?_) fun _ _ _ => trivial))
  obtain ⟨rfl, hf⟩ := ht
  rw [S.found] at hf
  cases hf
  refine ⟨hn.length, rfl, S.addBlock _, rfl, ⟨hn.front.addBlock _, hn.block, ?_, ?_⟩,
    Site.addBlock_closed hP _⟩
  · exact hn.old_le.trans (hn.length.trans (Nat.le_succ _))
  · exact Nat.le_of_eq (Function.addBlock_blocks_length ..).symm

/-- A new block is open until it is filled. -/
theorem appendBlock_fills (h : b.Fills func old n P) (label : String) :
    (liftM (Build.appendBlock func label) : Emit BlockId).Meets b
      (fun r t => n ≤ r ∧ t.Fills func old (r + 1) fun c => P c ∨ c = r) fun _ _ => True := by
  obtain ⟨S, rfl, hn, hP⟩ := h
  refine (appendBlock_filled ⟨S, rfl, hn, hP⟩ label).mono (fun r t ht => ?_) fun _ _ h => h
  obtain ⟨hr, hcursor, S', rfl, hlen, hP'⟩ := ht
  have hblock : S'.block = S.block := by
    rw [S'.cursor, S.cursor, Option.some.injEq, Cursor.mk.injEq] at hcursor
    exact hcursor.2
  refine ⟨hr, S', rfl, hlen, hP'.mono fun c hc => ?_⟩
  rw [hblock]
  tauto

/-- The current block is ended. -/
theorem emitVoid_filled {op : Op} (hop : op.isTerminator = true) (h : b.Fills func old n P) :
    (liftM (Build.emitVoid op) : Emit Unit).Meets b (fun _ t => t.Filled func old n P)
      fun _ _ => True := by
  obtain ⟨S, rfl, hn, hP⟩ := h
  refine Act.meets_of_run (fun u t hrun => ?_) fun _ _ _ => trivial
  obtain ⟨hopen, rfl⟩ := Build.emitVoid_run (Act.run_mapError_eq_ok.1 hrun)
  exact ⟨_, rfl, hn.push _, (Site.push_closed hopen hP _).drop (S.push_ended hop)⟩

/-- A branch closes the block in hand, and its targets wait to be filled. -/
theorem condBr_filled (c : Value) (x y : BlockId) (h : b.Fills func old n P) :
    (liftM (Build.condBr c x y) : Emit Unit).Meets b (fun _ t => t.Filled func old n P)
      fun _ _ => True := by
  have hx := fills_of_closing (closing_lift (Build.expect_straight c .bool "branch condition")) h
  refine Act.meets_mapError.2 (Act.meets_bind.2 ((Act.meets_mapError.1 hx).mono
    (fun _ t ht => ?_) fun _ _ h => h))
  exact Act.meets_mapError.1 (emitVoid_filled rfl ht)

/-- The builder goes on with a block that waits. -/
theorem moveTo_fills (h : b.Filled func old n P) {r : BlockId} (hold : old.blocks.length ≤ r)
    (hr : r < n) (hPQ : ∀ c, P c → c = r ∨ Q c) :
    (liftM (Build.moveTo func r) : Emit Unit).Meets b (fun _ t => t.Fills func old n Q)
      fun _ _ => True := by
  obtain ⟨S, rfl, hn, hP⟩ := h
  exact ⟨S.moveTo r (Nat.lt_of_lt_of_le hr hn.length), rfl, ⟨hn.front, hold, hn.old_le, hn.length⟩,
    hP.mono hPQ⟩

/-! ### Branches -/

theorem emitVoid_closing (op : Op) : closing.Holds (liftM (Build.emitVoid op) : Emit Unit) := by
  intro b
  refine Act.meets_mapError.2 (Act.meets_bind.2 (Act.meets_of_run (fun id t hrun => ?_)
    fun e t hrun => ⟨(Build.emit_framed op .void).of_error hrun, rfl⟩))
  refine ⟨(Build.emit_framed op .void).of_ok hrun, fun func old n P hb => ?_⟩
  obtain ⟨S, rfl, hn, hP⟩ := hb
  obtain ⟨hopen, -, rfl⟩ := Build.emit_run hrun
  exact ⟨_, rfl, hn.push _, Site.push_closed hopen hP _⟩

theorem condBr_closing (c : Value) (x y : BlockId) :
    closing.Holds (liftM (Build.condBr c x y) : Emit Unit) := by
  intro b
  refine Act.meets_mapError.2 (Act.meets_bind.2 ((Build.expect_straight c .bool _ b).mono
    (fun _ t ht => ?_) fun _ _ h => ⟨h.framed, rfl⟩))
  exact (Act.meets_mapError.1 (emitVoid_closing _ t)).mono (fun _ _ h => ht.closing.trans h)
    fun _ _ h => closing.after ht.closing h

theorem ret_closing (v : Option Value) : closing.Holds (liftM (Build.ret v) : Emit Unit) := by
  intro b
  refine Act.meets_mapError.2 (Act.meets_bind.2 ((Build.current_straight b).mono (fun f t ht => ?_)
    fun e t ht => ⟨ht.framed, rfl⟩))
  refine Act.meets_bind.2 ((Build.expectResult_straight v f.signature.ret t).mono
    (fun _ u hu => ?_) fun e u hu => ⟨ht.framed.trans hu.framed, rfl⟩)
  have hbu := ht.closing.trans hu.closing
  exact (Act.meets_mapError.1 (emitVoid_closing (.ret v) u)).mono
    (fun _ _ h => hbu.trans h) fun _ _ h => closing.after hbu h

/-- A return closes the block in hand. -/
theorem ret_filled (v : Option Value) (h : b.Fills func old n P) :
    (liftM (Build.ret v) : Emit Unit).Meets b (fun _ t => t.Filled func old n P) fun _ _ => True := by
  refine Act.meets_mapError.2 (Act.meets_bind.2 ((Build.current_straight b).mono (fun f t ht => ?_)
    fun _ _ _ => trivial))
  refine Act.meets_bind.2 ((Build.expectResult_straight v f.signature.ret t).mono
    (fun _ u hu => ?_) fun _ _ _ => trivial)
  exact Act.meets_mapError.1 (emitVoid_filled rfl ((ht.closing.trans hu.closing).fills func old n P h))

end Emit

/-! ## Expressions -/

namespace Lower

section

variable {env : Env} {left right : Emit ExprValue}

/-- Conversions do not branch. -/
theorem coerce_straight (x : ExprValue) (expected : TypeId) (span : Span) (what : String) :
    Emit.straight.Holds (coerce env x expected span what) := by
  unfold coerce
  split
  · exact .pure _
  · rename_i c _ _
    refine .bind ?_ fun _ => .pure _
    cases c with
    | identity => exact .pure _
    | intToFloat => exact Emit.straight_lift (Build.cast_straight _ _)
  · exact Emit.straight_throw rfl

/-- Operators do not branch, apart from the short-circuit ones. -/
theorem applyBinary_straight {types : TypeTable} [types.Straight] (op : BinaryOp) (l r : Typed) :
    Emit.straight.Holds (applyBinary types op l r) := by
  refine .bind_ofExcept (TypeTable.resolve_straight l.ty) fun d hd => .tryCatch fun b => ?_
  refine ((TypeTable.Straight.of_resolve hd).binary_straight op l r b).mono (fun _ _ h => h)
    fun e t ht => ?_
  have hthrow : (throw e : Emit Typed).Meets t (fun _ u => b.Straight u)
      fun e' u => Emit.straight.refused e' b u := ht
  -- The second attempt runs on top of what the first one has emitted.
  have hswap : ((do
      let right ← Act.ofExcept (types.resolve r.ty)
      (right.binary types op r l).mapError fun _ => e) : Emit Typed).Meets t
        (fun _ u => b.Straight u) fun e' u => Emit.straight.refused e' b u := by
    have hswapped : Emit.straight.Holds ((do
        let right ← Act.ofExcept (types.resolve r.ty)
        (right.binary types op r l).mapError fun _ => e) : Emit Typed) :=
      .bind_ofExcept (TypeTable.resolve_straight r.ty) fun _ hd =>
        ((TypeTable.Straight.of_resolve hd).binary_straight op r l).mapError (fun _ _ h => h)
          fun _ _ _ h => ⟨h.1, ht.2⟩
    exact (hswapped t).mono (fun _ u hu => ht.1.trans hu) fun _ u hu => ⟨ht.1.trans hu.1, hu.2⟩
  split
  · split
    · exact hswap
    · exact hthrow
  · exact hthrow

theorem requireBool_closing (op : BinaryOp) (span : Span) (x : ExprValue) :
    Emit.closing.Holds (requireBool env op span x) := .refuseIf (Emit.closing_refused rfl)

/-- A short-circuit operator fills the blocks that it opens. -/
theorem logical_closing (hl : Emit.closing.Holds left) (hr : Emit.closing.Holds right)
    (op : BinaryOp) (span : Span) : Emit.closing.Holds (logical env op span left right) := by
  refine Emit.closing_of_staying (fun func => ?_) fun func old n P b hb => ?_
  · exact .bind (Emit.staying_of_closing hl) fun x =>
      .bind (Emit.staying_of_closing (requireBool_closing op span x)) fun _ =>
      Emit.currentFunction_staying fun id =>
      .bind (Emit.staying_of_closing Emit.currentBlock_closing) fun _ =>
      .bind (Emit.appendBlock_staying _) fun _ => .bind (Emit.appendBlock_staying _) fun _ =>
      .bind (Emit.staying_of_closing (Emit.condBr_closing _ _ _)) fun _ =>
      .bind (Emit.moveTo_staying _) fun _ => .bind (Emit.staying_of_closing hr) fun y =>
      .bind (Emit.staying_of_closing (requireBool_closing op span y)) fun _ =>
      .bind (Emit.staying_of_closing Emit.currentBlock_closing) fun _ =>
      .bind (Emit.staying_of_closing (Emit.emitVoid_closing _)) fun _ =>
      .bind (Emit.moveTo_staying _) fun _ =>
      .bind (Emit.staying_of_closing (Emit.closing_lift (Build.phi_straight _ _))) fun _ => .pure _
  · refine (Emit.fills_of_closing hl hb).bind fun x b₁ hb₁ => ?_
    refine (Emit.fills_of_closing (requireBool_closing op span x) hb₁).bind fun _ b₂ hb₂ => ?_
    refine (Emit.currentFunction_fills hb₂).bind fun id b₃ hb₃ => ?_
    obtain ⟨rfl, hb₃⟩ := hb₃
    refine (Emit.fills_of_closing Emit.currentBlock_closing hb₃).bind fun _ b₄ hb₄ => ?_
    refine (Emit.appendBlock_fills hb₄ _).bind fun right b₅ hb₅ => ?_
    obtain ⟨hright, hb₅⟩ := hb₅
    refine (Emit.appendBlock_fills hb₅ _).bind fun join b₆ hb₆ => ?_
    obtain ⟨hjoin, hb₆⟩ := hb₆
    refine (Emit.condBr_filled _ _ _ hb₆).bind fun _ b₇ hb₇ => ?_
    -- The right operand is filled while the join waits.
    have hold := hb.old_le
    refine (Emit.moveTo_fills (Q := fun c => P c ∨ c = join) hb₇ (hold.trans hright)
      (Nat.lt_succ_of_lt hjoin) (by tauto)).bind fun _ b₈ hb₈ => ?_
    refine (Emit.fills_of_closing hr hb₈).bind fun y b₉ hb₉ => ?_
    refine (Emit.fills_of_closing (requireBool_closing op span y) hb₉).bind fun _ b₁₀ hb₁₀ => ?_
    refine (Emit.fills_of_closing Emit.currentBlock_closing hb₁₀).bind fun _ b₁₁ hb₁₁ => ?_
    refine (Emit.emitVoid_filled rfl hb₁₁).bind fun _ b₁₂ hb₁₂ => ?_
    refine (Emit.moveTo_fills (Q := P) hb₁₂ (by omega) (Nat.lt_succ_self join) (by tauto)).bind
      fun _ b₁₃ hb₁₃ => ?_
    refine (Emit.fills_of_closing (Emit.closing_lift (Build.phi_straight _ _)) hb₁₃).bind
      fun v b₁₄ hb₁₄ => ?_
    exact hb₁₄.mono hold (by omega) fun _ h => h

theorem convertArgs_straight (xs : List ExprValue) (cs : List Conversion) :
    Emit.straight.Holds (convertArgs xs cs) := by
  have happly : ∀ (c : Conversion) (v : Value), Emit.straight.Holds (c.apply v) := by
    intro c v
    cases c with
    | identity => exact .pure _
    | intToFloat => exact Emit.straight_lift (Build.cast_straight _ _)
  induction xs generalizing cs with
  | nil => exact .pure _
  | cons x xs ih =>
    cases cs with
    | nil => exact .pure _
    | cons c cs => exact .bind (happly c x.value) fun _ => .bind (ih cs) fun _ => .pure _

end

end Lower

/-- A law that code without branches obeys, and the short-circuit operators if
    their operands do. -/
structure Emit.Covers (L : Act.Law Builder Fault) : Prop where
  straight : ∀ {α : Type} {x : Emit α}, Emit.straight.Holds x → L.Holds x
  logical : ∀ {env : Env} {left right : Emit ExprValue}, L.Holds left → L.Holds right →
    ∀ op span, L.Holds (Lower.logical env op span left right)

theorem Emit.closing_covers : Emit.Covers Emit.closing where
  straight := Emit.closing_of_straight
  logical := Lower.logical_closing

namespace Emit.Covers

variable {L : Act.Law Builder Fault} {env : Env} [env.types.Straight] {symbols : Symbols}
  {left right operand value : Emit ExprValue} {args : Emit (List ExprValue)}

theorem ofExcept (hL : Emit.Covers L) {α : Type} {r : Except Fault α}
    (h : ∀ {e}, r = .error e → e.kind ≠ .control) : L.Holds (Act.ofExcept r : Emit α) :=
  hL.straight (straight_ofExcept h)

theorem lift (hL : Emit.Covers L) {α : Type} {x : Build α} (h : Build.straight.Holds x) :
    L.Holds (liftM x : Emit α) := hL.straight (straight_lift h)

omit [env.types.Straight] in
theorem check (hL : Emit.Covers L) (h : L.Holds value) (expected : TypeId) (span : Span)
    (what : String) : L.Holds (Lower.check env value expected span what) :=
  .bind h fun x => hL.straight (Lower.coerce_straight x expected span what)

omit [env.types.Straight] in
theorem condition (hL : Emit.Covers L) (h : L.Holds value) (span : Span) :
    L.Holds (Lower.condition env value span) :=
  .bind h fun _ => .bind (hL.straight (.refuseIf (straight_refused rfl))) fun _ => .pure _

theorem readVar (hL : Emit.Covers L) (x : Ident) : L.Holds (Lower.readVar symbols x) :=
  .bind (hL.ofExcept fun h => by simp [Scopes.resolve_error h]) fun _ =>
    .bind (hL.lift (Build.load_straight _)) fun _ => .pure _

theorem unary (hL : Emit.Covers L) (h : L.Holds operand) (op : UnaryOp) (span : Span) :
    L.Holds (Lower.unary env op span operand) :=
  .bind h fun x => .bind_ofExcept (hL.straight (TypeTable.resolve_straight x.ty)) fun _ hd =>
    .bind (hL.straight (straight_located
      ((TypeTable.Straight.of_resolve hd).unary_straight op x.typed) span)) fun _ =>
    .bind (hL.straight (Lifetime.release_straight x)) fun _ => .pure _

theorem binary (hL : Emit.Covers L) (hl : L.Holds left) (hr : L.Holds right) (op : BinaryOp)
    (span : Span) : L.Holds (Lower.binary env op span left right) :=
  .bind hl fun x => .bind hr fun y =>
    .bind (hL.straight (straight_located (Lower.applyBinary_straight op x.typed y.typed) span))
    fun _ => .bind (hL.straight (Lifetime.release_straight x)) fun _ =>
    .bind (hL.straight (Lifetime.release_straight y)) fun _ => .pure _

theorem assign (hL : Emit.Covers L) (h : L.Holds value) (x : Ident) (span : Span) :
    L.Holds (Lower.assign env symbols x span value) :=
  .bind (hL.ofExcept fun h => by simp [Scopes.resolve_error h]) fun slot =>
    .bind (hL.check h _ _ _) fun y => .bind (hL.straight (Lifetime.materialize_straight y)) fun _ =>
    .bind (hL.straight (Lifetime.destroySlot_straight slot)) fun _ =>
    .bind (hL.lift (Build.store_straight _ _)) fun _ => .pure _

theorem call (hL : Emit.Covers L) (h : L.Holds args) (callee : Ident) (span : Span) :
    L.Holds (Lower.call env symbols callee span args) :=
  .bind h fun xs => .bind (hL.ofExcept fun h => by simp [Functions.resolve_error h]) fun _ =>
    .bind (hL.ofExcept fun h => by simp [Functions.entry_error h]) fun _ =>
    .bind (hL.straight (Lower.convertArgs_straight xs _)) fun _ =>
    .bind (hL.lift (Build.call_straight _ _)) fun _ =>
    .bind (.forM fun x => hL.straight (Lifetime.release_straight x)) fun _ => .pure _

theorem construct (hL : Emit.Covers L) (h : L.Holds args) (ty : TypeName) (span : Span) :
    L.Holds (Lower.construct env ty span args) :=
  .bind (hL.ofExcept fun h => by simp [TypeTable.resolveName_error h]) fun id => .bind h fun _ =>
    .bind_ofExcept (hL.straight (TypeTable.resolve_straight id)) fun _ hd =>
    .bind (hL.straight (straight_located
      ((TypeTable.Straight.of_resolve hd).construct_straight _) span)) fun _ =>
    .bind (.forM fun x => hL.straight (Lifetime.release_straight x)) fun _ => .pure _

end Emit.Covers

section

variable {L : Act.Law Builder Fault} (env : Env) [env.types.Straight] (symbols : Symbols)

set_option linter.unusedSectionVars false in
mutual

/-- An expression obeys every law of this kind. -/
theorem Expr.lower_covered (hL : Emit.Covers L) : (e : Expr) → L.Holds (e.lower env symbols)
  | .literal _ _ => .pure _
  | .var x => hL.readVar x
  | .unary op e span => hL.unary (e.lower_covered hL) op span
  | .binary op l r span =>
    .ite (hL.logical (l.lower_covered hL) (r.lower_covered hL) op span)
      (hL.binary (l.lower_covered hL) (r.lower_covered hL) op span)
  | .assign x e _ => hL.assign (e.lower_covered hL) x e.span
  | .call f args span => hL.call (Expr.lowerAll_covered hL args) f span
  | .construct t args span => hL.construct (Expr.lowerAll_covered hL args) t span

theorem Expr.lowerAll_covered (hL : Emit.Covers L) :
    (es : List Expr) → L.Holds (Expr.lowerAll env symbols es)
  | [] => .pure _
  | e :: es => .bind (e.lower_covered hL) fun _ => .bind (Expr.lowerAll_covered hL es) fun _ => .pure _

end

end

/-- An expression fills every block it appends. -/
theorem Expr.lower_closing (env : Env) [env.types.Straight] (symbols : Symbols) (e : Expr) :
    Emit.closing.Holds (e.lower env symbols) := e.lower_covered env symbols Emit.closing_covers

end Shading
