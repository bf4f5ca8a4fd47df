import Shading.Proofs.Constructs
import Shading.Proofs.Translation

/-! # Lowering expressions

    `EmitsCode` is the logic of actions that emit code with branches.  Main
    result: a lowered expression is translated (`Expr.lower_compiles`). -/

namespace Shading

open IR

variable {α β : Type}
variable {x : Emit α} {Q : Host → Nat → α → Code → Nat → Prop} {k : α → Emit β} {span : Span}

/-- The answer of an action and the code it emits satisfy `Q`; control gets
    to the end of the code. -/
def EmitsCode (x : Emit α) (Q : Host → Nat → α → Code → Nat → Prop) : Prop :=
  ∀ (func : FuncId) (t : Option Targets) (S : Site func), S.Open → S.Sound t →
    ∀ a w, x.run S.builder = (.ok a, w) →
      ∃ (S' : Site func) (T : Code), S'.builder = w ∧ Emitted t T S S' ∧ T.ends = false ∧
        ∀ H : Host, H.Completes func w.module →
          Q H S.body.insts.length a T S'.body.insts.length

namespace EmitsCode

theorem mono {R : Host → Nat → α → Code → Nat → Prop} (h : EmitsCode x Q)
    (hQR : ∀ H lo a T hi, Q H lo a T hi → R H lo a T hi) : EmitsCode x R := by
  intro func t S hopen hsound a w hrun
  obtain ⟨S', T, hw, he, hT, hQ⟩ := h func t S hopen hsound a w hrun
  exact ⟨S', T, hw, he, hT, fun H hH => hQR _ _ _ _ _ (hQ H hH)⟩

theorem ofLine {Q : Host → α → Lines → Prop} (h : EmitsLine x Q) :
    EmitsCode x fun H lo a T hi => ∃ l, T = .line l ∧ Q H a l ∧ Code.Within lo hi (.line l) := by
  intro func t S hopen _ a w hrun
  obtain ⟨S', l, hw, he, hQ⟩ := h func t S hopen a w hrun
  exact ⟨S', .line l, hw, he, rfl, fun H hH => ⟨l, rfl, hQ H hH, he.within⟩⟩

theorem pure (a : α) :
    EmitsCode (Pure.pure a) fun _ lo b T hi => b = a ∧ T = .line [] ∧ hi = lo := by
  intro func t S hopen _ b w hrun
  obtain ⟨rfl, rfl⟩ := Act.run_pure_eq_ok.1 hrun
  exact ⟨S, .line [], rfl, .nil t S hopen, rfl, fun _ _ => ⟨rfl, rfl, rfl⟩⟩

theorem bind {R : α → Host → Nat → β → Code → Nat → Prop} (hx : EmitsCode x Q)
    (hk : ∀ a, EmitsCode (k a) (R a)) :
    EmitsCode (x >>= k) fun H lo b T hi => ∃ a mid T₁ T₂, T = .seq T₁ T₂ ∧
      Q H lo a T₁ mid ∧ R a H mid b T₂ hi := by
  intro func t S hopen hsound b w hrun
  obtain ⟨a, w₁, h₁, h₂⟩ := Act.run_bind_eq_ok.1 hrun
  obtain ⟨S₁, T₁, rfl, he₁, hT₁, hQ⟩ := hx func t S hopen hsound a w₁ h₁
  have hopen₁ : S₁.Open := he₁.ends.trans hT₁
  obtain ⟨S₂, T₂, rfl, he₂, hT₂, hR⟩ := hk a func t S₁ hopen₁ (he₁.sound hsound) b w h₂
  exact ⟨S₂, .seq T₁ T₂, rfl, he₁.seq he₂, by rw [Code.ends, hT₁, hT₂]; rfl, fun H hH =>
    ⟨a, _, T₁, T₂, rfl, hQ H (hH.before he₂.grows), hR H hH⟩⟩

/-- Code, then instructions that use its result. -/
theorem thenLine {R : α → Host → β → Lines → Prop} (hx : EmitsCode x Q)
    (hk : ∀ a, EmitsLine (k a) (R a)) :
    EmitsCode (x >>= k) fun H lo b T hi => ∃ a mid T₁ l, T = .seq T₁ (.line l) ∧
      Q H lo a T₁ mid ∧ R a H b l ∧ Code.Within mid hi (.line l) :=
  (bind hx fun a => ofLine (hk a)).mono fun H lo b T hi h => by
    obtain ⟨a, mid, T₁, _, rfl, hQ, l, rfl, hR, hin⟩ := h
    exact ⟨a, mid, T₁, l, rfl, hQ, hR, hin⟩

/-- Code whose result is put in another form. -/
theorem answer (hx : EmitsCode x Q) (g : α → β) :
    EmitsCode (x >>= fun a => Pure.pure (g a)) fun H lo b T hi => ∃ a, b = g a ∧ Q H lo a T hi := by
  intro func t S hopen hsound b w hrun
  obtain ⟨a, w₁, h₁, h₂⟩ := Act.run_bind_eq_ok.1 hrun
  obtain ⟨rfl, rfl⟩ := Act.run_pure_eq_ok.1 h₂
  obtain ⟨S', T, hw, he, hT, hQ⟩ := hx func t S hopen hsound a w h₁
  exact ⟨S', T, hw, he, hT, fun H hH => ⟨a, rfl, hQ H hH⟩⟩

/-- An outcome that does not depend on the builder, then code. -/
theorem ofExcept {r : Except Fault α} {R : α → Host → Nat → β → Code → Nat → Prop}
    (hk : ∀ a, r = .ok a → EmitsCode (k a) (R a)) :
    EmitsCode (Act.ofExcept r >>= k) fun H lo b T hi => ∃ a, r = .ok a ∧ R a H lo b T hi := by
  intro func t S hopen hsound b w hrun
  obtain ⟨a, w₁, ha, hrun⟩ := Act.run_bind_eq_ok.1 hrun
  obtain ⟨hr, rfl⟩ := Act.run_ofExcept_eq_ok.1 ha
  obtain ⟨S', T, hw, he, hT, hR⟩ := hk a hr func t S hopen hsound b w hrun
  exact ⟨S', T, hw, he, hT, fun H hH => ⟨a, hr, hR H hH⟩⟩

end EmitsCode

/-- A builder's action as part of the emission of code. -/
theorem run_liftM_eq_ok {x : Build α} {a : α} {b w : Builder} :
    (liftM x : Emit α).run b = (.ok a, w) ↔ x.run b = (.ok a, w) := Act.run_mapError_eq_ok

/-! ## Logical operators -/

namespace Lower

theorem requireBool_run {env : Env} {op : BinaryOp} {x : ExprValue} {u : Unit} {b w : Builder}
    (h : (requireBool env op span x).run b = (.ok u, w)) : x.ty = Builtin.bool.id ∧ w = b := by
  obtain ⟨hty, hw⟩ := Act.run_refuseIf_eq_ok.1 h
  exact ⟨not_not.1 hty, hw⟩

/-- An assignment, with the conversion of the new value in line. -/
theorem assign_eq (env : Env) (symbols : Symbols) (x : Ident) (span : Span)
    (value : Emit ExprValue) :
    assign env symbols x span value = (do
      let slot ← Act.ofExcept (symbols.scopes.resolve x.name x.span)
      let y ← value
      let z ← coerce env y slot.ty span s!"assignment to '{slot.name}'"
      let new ← Lifetime.materialize env.types z
      Lifetime.destroySlot env.types slot
      liftM (Build.store new slot.ptr)
      Pure.pure ⟨slot.ty, new, false⟩) := by
  unfold assign check
  simp only [bind_assoc]
  rfl

theorem logical_emits {env : Env} {op : BinaryOp} {left right : Emit ExprValue}
    {Q R : Host → Nat → ExprValue → Code → Nat → Prop} (hl : EmitsCode left Q)
    (hr : EmitsCode right R) :
    EmitsCode (logical env op span left right) fun H lo z T hi => ∃ x y Ta Tb m₁ m₂ m₃ id,
      T = .seq Ta (.shortcut (op == .and) x.value Tb y.value id) ∧
      z = ⟨Builtin.bool.id, .inst id, true⟩ ∧
      Q H lo x Ta m₁ ∧ x.ty = Builtin.bool.id ∧ m₁ ≤ m₂ ∧ R H m₂ y Tb m₃ ∧
      y.ty = Builtin.bool.id ∧ m₃ ≤ id ∧ id < hi ∧ H.HasType (.inst id) .bool := by
  intro func t S hopen hsound z w hrun
  obtain ⟨x, w₁, hx, hrun⟩ := Act.run_bind_eq_ok.1 hrun
  obtain ⟨S₁, Ta, rfl, hea, hTa, hQ⟩ := hl func t S hopen hsound x w₁ hx
  have hopen₁ : S₁.Open := hea.ends.trans hTa
  have hsound₁ : S₁.Sound t := hea.sound hsound
  obtain ⟨_, w₂, hb, hrun⟩ := Act.run_bind_eq_ok.1 hrun
  obtain ⟨hxty, rfl⟩ := requireBool_run hb
  obtain ⟨f', w₃, hf, hrun⟩ := Act.run_bind_eq_ok.1 hrun
  obtain ⟨rfl, rfl⟩ := Build.currentFunction_run (run_liftM_eq_ok.1 hf)
  obtain ⟨leftBlock, w₄, hlb, hrun⟩ := Act.run_bind_eq_ok.1 hrun
  obtain ⟨rfl, rfl⟩ := Build.currentBlock_run (run_liftM_eq_ok.1 hlb)
  have hlabels : ∀ b : Bool, (if b then "and.rhs" else "or.rhs") ∈ Build.labels ∧
      (if b then "and.end" else "or.end") ∈ Build.labels := by decide
  obtain ⟨rightStart, w₅, hrs, hrun⟩ := Act.run_bind_eq_ok.1 hrun
  obtain ⟨hright, S₂, rfl, h₂⟩ :=
    Build.appendBlock_run (.refl S₁) (hlabels (op == .and)).1 (run_liftM_eq_ok.1 hrs)
  obtain ⟨join, w₆, hj, hrun⟩ := Act.run_bind_eq_ok.1 hrun
  obtain ⟨hjoin, S₃, rfl, h₃⟩ :=
    Build.appendBlock_run h₂ (hlabels (op == .and)).2 (run_liftM_eq_ok.1 hj)
  obtain ⟨_, w₇, hc, hrun⟩ := Act.run_bind_eq_ok.1 hrun
  obtain ⟨-, rfl⟩ := Build.condBr_run (run_liftM_eq_ok.1 hc)
  -- Both ways out of the fork lead into the two new blocks, whichever operator it is.
  have hways : ∀ b : Bool, (if b then rightStart else join) = S₁.body.blocks.length ∨
      (if b then rightStart else join) = S₁.body.blocks.length + 1 := by
    intro b
    cases b
    · exact .inr hjoin
    · exact .inl hright
  have hways' : ∀ b : Bool, (if b then join else rightStart) = S₁.body.blocks.length ∨
      (if b then join else rightStart) = S₁.body.blocks.length + 1 := by
    intro b
    cases b
    · exact .inl hright
    · exact .inr hjoin
  have hfork := h₃.condBr hopen₁ hsound₁.bounded x.value (hways (op == .and)) (hways' (op == .and))
  generalize S₃.push ⟨.condBr x.value (if (op == .and) = true then rightStart else join)
      (if (op == .and) = true then join else rightStart), .void, none⟩ = S₄ at hrun hfork
  obtain ⟨_, w₈, hm, hrun⟩ := Act.run_bind_eq_ok.1 hrun
  have hin : rightStart < S₄.body.blocks.length := by
    rw [hright, hfork.length]
    exact Nat.lt_add_of_pos_right (by decide)
  obtain rfl := Build.moveTo_run (run_liftM_eq_ok.1 hm) hin
  -- The right operand runs in a site grown from the one behind the left operand.
  obtain ⟨y, w₉, hy, hrun⟩ := Act.run_bind_eq_ok.1 hrun
  have hgrown : Grown S₁.body.blocks.length S₁.block t S₁ (S₄.moveTo rightStart hin) :=
    (hfork.grown (Nat.le_refl _) (.inl rfl)).trans (.moveTo S₄ hin)
  obtain ⟨S₆, Tb, rfl, heb, hTb, hR⟩ := hr _ t _ (hfork.moveTo_open (Nat.le_of_eq hright.symm) hin)
    ((hfork.sound hsound₁).moveTo hin) y w₉ hy
  obtain ⟨_, w₁₀, hb', hrun⟩ := Act.run_bind_eq_ok.1 hrun
  obtain ⟨hyty, rfl⟩ := requireBool_run hb'
  obtain ⟨rightEnd, w₁₁, hre, hrun⟩ := Act.run_bind_eq_ok.1 hrun
  obtain ⟨rfl, rfl⟩ := Build.currentBlock_run (run_liftM_eq_ok.1 hre)
  obtain ⟨_, w₁₂, hbr, hrun⟩ := Act.run_bind_eq_ok.1 hrun
  obtain ⟨-, rfl⟩ := Build.br_run (run_liftM_eq_ok.1 hbr)
  obtain ⟨_, w₁₃, hm', hrun⟩ := Act.run_bind_eq_ok.1 hrun
  have hin' : join < (S₆.push ⟨.br join, .void, none⟩).body.blocks.length := by
    show join < (S₆.body.pushInst S₆.block _).blocks.length
    rw [Function.pushInst_blocks_length, hjoin]
    have hlt : S₁.body.blocks.length + 1 < S₄.body.blocks.length := by
      rw [hfork.length]
      exact Nat.lt_succ_self _
    exact Nat.lt_of_lt_of_le hlt heb.edits.blocks_le
  obtain rfl := Build.moveTo_run (run_liftM_eq_ok.1 hm') hin'
  obtain ⟨v, w₁₄, hphi, hrun⟩ := Act.run_bind_eq_ok.1 hrun
  obtain ⟨rfl, rfl, hbelow⟩ := Build.phi_run (run_liftM_eq_ok.1 hphi)
  obtain ⟨rfl, rfl⟩ := Act.run_pure_eq_ok.1 hrun
  have hshort := Emitted.shortcut (r := y.value) hopen₁ hsound₁ hright hjoin hfork hin heb hTb hin'
    hbelow
  have hid : (Site.moveTo (S₆.push ⟨.br join, .void, none⟩) join hin').body.insts.length =
      S₆.body.insts.length + 1 := S₆.push_insts_length _
  -- `a`, then the fork over `b`; the result is the phi that opens the join block.
  refine ⟨_, _, rfl, hea.seq hshort, by rw [Code.ends, hTa]; rfl, fun H hH => ?_⟩
  refine ⟨x, y, Ta, Tb, _, _, _, _, rfl, ?_, hQ H (hH.before hshort.grows), hxty, hgrown.insts,
    hR H (hH.before ?_), hyty, Nat.le_succ _, ?_, ?_⟩
  · rw [hid]
  · exact (S₆.push_grows rfl).trans (Site.push_grows (Site.moveTo _ join hin') rfl)
  · rw [Site.push_insts_length, hid]
    exact Nat.lt_succ_self _
  · rw [← hid]
    exact Host.hasType_inst (hH.inst? (S := Site.push _ _) (Function.pushInst_inst?_new ..))

end Lower

/-! ## The tree -/

theorem Scopes.resolve_eq_ok {scopes : Scopes} {name : String} {slot : Slot}
    (h : scopes.resolve name span = .ok slot) : scopes.lookup? name = some slot := by
  unfold Scopes.resolve at h
  cases hl : scopes.lookup? name with
  | none => rw [hl] at h; cases h
  | some s => rw [hl] at h; cases h; rfl

section

variable (options : Options) (symbols : Symbols)

mutual

/-- The code that lowering emits for an expression is a translation of it. -/
theorem Expr.lower_compiles : (e : Expr) →
    EmitsCode (e.lower ⟨.builtins, options⟩ symbols) fun H lo x T hi =>
      Expr.Compiles ⟨.builtins, options⟩ symbols.functions H symbols.scopes lo e T x hi
  | .literal v span => (EmitsCode.pure (Lower.literal v)).mono fun H lo x T hi h => by
    obtain ⟨rfl, rfl, rfl⟩ := h
    exact .literal
  | .var x => by
    refine (EmitsCode.ofExcept fun slot _ => EmitsCode.ofLine
      (EmitsLine.answer (Build.load_line slot.ptr).lift _)).mono fun H lo y T hi h => ?_
    obtain ⟨slot, hslot, l, rfl, ⟨v, rfl, ty, hty, hload⟩, hin⟩ := h
    exact .var (Scopes.resolve_eq_ok hslot) hty hload hin
  | .unary op e span => by
    refine (EmitsCode.thenLine (Expr.lower_compiles e) fun x => resolve_line fun b hb =>
      EmitsLine.bind ((b.unary_line op x.typed hb).mapError _) fun r =>
      EmitsLine.answer (Lifetime.release_line x) fun _ => ExprValue.ofTyped r).mono
      fun H lo z T hi h => ?_
    obtain ⟨x, mid, T₁, l, rfl, he, ⟨r, l₁, l₂, rfl, hop, _, rfl, hx⟩, hin⟩ := h
    exact .unary he hop hx hin
  | .binary op a b span => by
    unfold Expr.lower
    -- A logical operator has blocks of its own; all others add one line.
    by_cases hlog : op.isLogical = true
    · rw [if_pos hlog]
      refine (Lower.logical_emits (Expr.lower_compiles a) (Expr.lower_compiles b)).mono
        fun H lo z T hi h => ?_
      obtain ⟨x, y, Ta, Tb, m₁, m₂, m₃, id, rfl, rfl, ha, hx, h₁₂, hb, hy, hid, hhi, hty⟩ := h
      exact .logical hlog ha hx h₁₂ hb hy hid hhi hty
    · rw [if_neg hlog]
      refine (EmitsCode.bind (Expr.lower_compiles a) fun x =>
        EmitsCode.thenLine (Expr.lower_compiles b) fun y =>
        EmitsLine.bind ((Lower.applyBinary_line op x.typed y.typed).mapError _) fun r =>
        EmitsLine.bind (Lifetime.release_line x) fun _ =>
        EmitsLine.answer (Lifetime.release_line y) fun _ => ExprValue.ofTyped r).mono
        fun H lo z T hi h => ?_
      obtain ⟨x, mid, Ta, _, rfl, ha, y, mid', Tb, l, rfl, hb, hline, hin⟩ := h
      obtain ⟨r, l₁, _, rfl, hop, _, l₂, l₃, rfl, hx, _, rfl, hy⟩ := hline
      exact .binary (eq_false_of_ne_true hlog) ha hb hop hx hy hin
  | .assign x e span => by
    -- The old value is destroyed after the new one has been made.
    show EmitsCode (Lower.assign _ symbols x e.span _) _
    rw [Lower.assign_eq]
    refine (EmitsCode.ofExcept fun slot _ =>
      EmitsCode.thenLine (Expr.lower_compiles e) fun y =>
      EmitsLine.bind (Lower.coerce_line y slot.ty e.span _) fun z =>
      EmitsLine.bind (Lifetime.materialize_line z) fun v =>
      EmitsLine.bind (Lifetime.destroySlot_line slot) fun _ =>
      EmitsLine.answer (Build.store_line v slot.ptr).lift fun _ =>
        (⟨slot.ty, v, false⟩ : ExprValue)).mono fun H lo r T hi h => ?_
    obtain ⟨slot, hslot, y, mid, T₁, l, rfl, he, hline, hin⟩ := h
    obtain ⟨z, l₁, _, rfl, hc, v, l₂, _, rfl, hm, _, l₃, l₄, rfl, hd, _, rfl, hs⟩ := hline
    exact .assign (Scopes.resolve_eq_ok hslot) he hc hm hd hs hin
  | .call f args span => by
    refine (EmitsCode.thenLine (Expr.lowerAll_compiles args) fun xs =>
      EmitsLine.after (EmitsLine.ofExcept (symbols.functions.resolve .builtins options f.name
        (xs.map (·.ty)) span)) fun chosen =>
      EmitsLine.after (EmitsLine.ofExcept (symbols.functions.entry chosen.entry)) fun entry =>
      EmitsLine.bind (Lower.convertArgs_line xs chosen.conversions) fun vs =>
      EmitsLine.bind (Build.call_line entry.func vs).lift fun v =>
      EmitsLine.answer (forM_line Lifetime.release_line xs) fun _ =>
        (⟨entry.prototype.ret, v, true⟩ : ExprValue)).mono fun H lo r T hi h => ?_
    obtain ⟨xs, mid, T₁, l, rfl, hargs, hline, hin⟩ := h
    obtain ⟨chosen, hchosen, entry, hentry, vs, l₁, _, rfl, hconv, v, l₂, l₃, rfl, hcall, _, rfl,
      hrel⟩ := hline
    exact .call hargs hchosen hentry hconv hcall hrel hin
  | .construct ty args span => by
    refine (EmitsCode.ofExcept fun id _ =>
      EmitsCode.thenLine (Expr.lowerAll_compiles args) fun xs => resolve_line fun b _ =>
      EmitsLine.bind ((b.construct_line (xs.map (·.typed))).mapError _) fun r =>
      EmitsLine.answer (forM_line Lifetime.release_line xs) fun _ => ExprValue.ofTyped r).mono
      fun H lo z T hi h => ?_
    obtain ⟨id, -, xs, mid, T₁, l, rfl, hargs, ⟨r, l₁, l₂, rfl, hc, _, rfl, hrel⟩, hin⟩ := h
    exact .construct hargs hc hrel hin

theorem Expr.lowerAll_compiles : (es : List Expr) →
    EmitsCode (Expr.lowerAll ⟨.builtins, options⟩ symbols es) fun H lo xs T hi =>
      Expr.CompilesAll ⟨.builtins, options⟩ symbols.functions H symbols.scopes lo es T xs hi
  | [] => (EmitsCode.pure []).mono fun H lo xs T hi h => by
    obtain ⟨rfl, rfl, rfl⟩ := h
    exact .nil
  | e :: es => by
    refine (EmitsCode.bind (Expr.lower_compiles e) fun x =>
      EmitsCode.answer (Expr.lowerAll_compiles es) (x :: ·)).mono fun H lo xs T hi h => ?_
    obtain ⟨x, mid, T₁, T₂, rfl, he, xs', rfl, hes⟩ := h
    exact .cons he hes

end

end

end Shading
