import Shading.IR.Flow
import Shading.Lower.Expr
import Shading.Proofs.Twins

/-! # Expressions lowered side by side

    An expression is lowered twice, under two sets of options or beside two
    modules.  If everything that lowering does to a builder has its twin, and
    conversions and calls do too, then so does the whole expression
    (`Expr.lower_twin`). -/

namespace Shading

open IR

variable {types : TypeTable} {o o' : Options} {E : Act.Bond Builder Fault}
  {cur : FuncId → FuncId → Prop} {s s' : Symbols}

/-! ## Builders -/

/-- The checks on a finished function find the same. -/
structure IR.Function.SameChecks (f f' : Function) : Prop where
  isReachable : f'.isReachable = f.isReachable
  allPathsReturn : f'.allPathsReturn = f.allPathsReturn
  verify : f'.verify = f.verify

/-- What lowering does to a builder has its twin.  The functions that two
    builders stand in are related. -/
structure Emit.Pairing (types : TypeTable) (E : Act.Bond Builder Fault)
    (cur : FuncId → FuncId → Prop) : Prop where
  plain : E.Plain
  currentFunction : E.Twin cur (liftM Build.currentFunction : Emit FuncId)
    (liftM Build.currentFunction)
  function : ∀ {f f' : FuncId}, cur f f' → E.Twin Function.SameChecks
    (liftM (Build.function f) : Emit Function) (liftM (Build.function f'))
  currentBlock : E.Twin Eq (liftM Build.currentBlock : Emit BlockId) (liftM Build.currentBlock)
  appendBlock : ∀ {f f' : FuncId}, cur f f' → ∀ label,
    E.Twin Eq (liftM (Build.appendBlock f label) : Emit BlockId) (liftM (Build.appendBlock f' label))
  moveTo : ∀ {f f' : FuncId}, cur f f' → ∀ block,
    E.Twin Eq (liftM (Build.moveTo f block) : Emit Unit) (liftM (Build.moveTo f' block))
  br : ∀ target, E.Twin Eq (liftM (Build.br target) : Emit Unit) (liftM (Build.br target))
  condBr : ∀ c t e,
    E.Twin Eq (liftM (Build.condBr c t e) : Emit Unit) (liftM (Build.condBr c t e))
  ret : ∀ v, E.Twin Eq (liftM (Build.ret v) : Emit Unit) (liftM (Build.ret v))
  unreachable : E.Twin Eq (liftM Build.unreachable : Emit Unit) (liftM Build.unreachable)
  phi : ∀ ty incoming,
    E.Twin Eq (liftM (Build.phi ty incoming) : Emit Value) (liftM (Build.phi ty incoming))
  alloca : ∀ ty name,
    E.Twin Eq (liftM (Build.alloca ty name) : Emit Value) (liftM (Build.alloca ty name))
  load : ∀ ptr, E.Twin Eq (liftM (Build.load ptr) : Emit Value) (liftM (Build.load ptr))
  store : ∀ v ptr, E.Twin Eq (liftM (Build.store v ptr) : Emit Unit) (liftM (Build.store v ptr))
  applyBinary : ∀ op l r,
    E.Twin Eq (Lower.applyBinary types op l r) (Lower.applyBinary types op l r)
  unary : ∀ {ty d}, types.resolve ty = .ok d → ∀ op x,
    E.Twin Eq (d.unary types op x) (d.unary types op x)
  construct : ∀ {ty d}, types.resolve ty = .ok d → ∀ args,
    E.Twin Eq (d.construct types args) (d.construct types args)
  defaultValue : ∀ {ty d}, types.resolve ty = .ok d → E.Twin Eq d.defaultValue d.defaultValue
  copy : ∀ {ty d}, types.resolve ty = .ok d → ∀ v, E.Twin Eq (d.copy v) (d.copy v)
  destroy : ∀ {ty d}, types.resolve ty = .ok d → ∀ v, E.Twin Eq (d.destroy v) (d.destroy v)

/-- Builders that are the same do the same. -/
theorem Emit.Pairing.of_eq (types : TypeTable) (hplain : E.Plain)
    (heq : ∀ b b', E.agree b b' ↔ b = b') : Emit.Pairing types E Eq where
  plain := hplain
  currentFunction := .refl hplain heq _
  function h := h ▸ (Act.Bond.Twin.refl hplain heq _).mono fun _ _ h => h ▸ ⟨rfl, rfl, rfl⟩
  currentBlock := .refl hplain heq _
  appendBlock h _ := h ▸ .refl hplain heq _
  moveTo h _ := h ▸ .refl hplain heq _
  br _ := .refl hplain heq _
  condBr _ _ _ := .refl hplain heq _
  ret _ := .refl hplain heq _
  unreachable := .refl hplain heq _
  phi _ _ := .refl hplain heq _
  alloca _ _ := .refl hplain heq _
  load _ := .refl hplain heq _
  store _ _ := .refl hplain heq _
  applyBinary _ _ _ := .refl hplain heq _
  unary _ _ _ := .refl hplain heq _
  construct _ _ := .refl hplain heq _
  defaultValue _ := .refl hplain heq _
  copy _ _ := .refl hplain heq _
  destroy _ _ := .refl hplain heq _

namespace Emit.Pairing

variable (h : Emit.Pairing types E cur)

include h

theorem located {α : Type} {x y : Emit α} (hx : E.Twin Eq x y) (span : Span) :
    E.Twin Eq (Emit.located span x) (Emit.located span y) :=
  hx.mapError h.plain h.plain (fun _ _ => Iff.rfl) (fun hl => hl) _

theorem copyValue (ty : TypeId) (v : Value) :
    E.Twin Eq (Lifetime.copyValue types ty v) (Lifetime.copyValue types ty v) :=
  .ofExcept_bind fun _ hd => .ite _ (h.copy hd v) (.pure rfl)

theorem destroyValue (ty : TypeId) (v : Value) :
    E.Twin Eq (Lifetime.destroyValue types ty v) (Lifetime.destroyValue types ty v) :=
  .ofExcept_bind fun _ hd => .onlyIf _ (h.destroy hd v)

theorem materialize (x : ExprValue) :
    E.Twin Eq (Lifetime.materialize types x) (Lifetime.materialize types x) :=
  .ite _ (.pure rfl) (h.copyValue x.ty x.value)

theorem release (x : ExprValue) :
    E.Twin Eq (Lifetime.release types x) (Lifetime.release types x) :=
  .ite _ (h.destroyValue x.ty x.value) (.pure rfl)

theorem destroySlot (slot : Slot) :
    E.Twin Eq (Lifetime.destroySlot types slot) (Lifetime.destroySlot types slot) :=
  .bind (.ofExcept _) fun _ => .onlyIf _ (.bind (h.load _) fun v => h.destroyValue slot.ty v)

theorem destroySlots (slots : List Slot) :
    E.Twin Eq (Lifetime.destroySlots types slots) (Lifetime.destroySlots types slots) :=
  .forM h.destroySlot

end Emit.Pairing

/-! ## Expressions -/

/-- Beside what builders do, conversions and calls have their twins. -/
structure Expr.Pairing (types : TypeTable) (o o' : Options) (E : Act.Bond Builder Fault)
    (cur : FuncId → FuncId → Prop) (s s' : Symbols) : Prop extends
    Emit.Pairing types E cur where
  scopes : s'.scopes = s.scopes
  coerce : ∀ x ty span what,
    E.Twin Eq (Lower.coerce ⟨types, o⟩ x ty span what) (Lower.coerce ⟨types, o'⟩ x ty span what)
  call : ∀ callee span {args args' : Emit (List ExprValue)}, E.Twin Eq args args' →
    E.Twin Eq (Lower.call ⟨types, o⟩ s callee span args) (Lower.call ⟨types, o'⟩ s' callee span args')

namespace Expr.Pairing

variable {x x' y y' : Emit ExprValue} (h : Expr.Pairing types o o' E cur s s')

include h

theorem check (hx : E.Twin Eq x x') (ty : TypeId) (span : Span) (what : String) :
    E.Twin Eq (Lower.check ⟨types, o⟩ x ty span what) (Lower.check ⟨types, o'⟩ x' ty span what) :=
  .bind hx fun a => h.coerce a ty span what

omit h in
theorem condition (hx : E.Twin Eq x x') (span : Span) :
    E.Twin Eq (Lower.condition ⟨types, o⟩ x span) (Lower.condition ⟨types, o'⟩ x' span) :=
  .bind hx fun _ => .bind (.refuseIf _ _) fun _ => .pure rfl

theorem readVar (x : Ident) :
    E.Twin Eq (Lower.readVar s x) (Lower.readVar s' x) := by
  unfold Lower.readVar
  rw [h.scopes]
  exact .bind (.ofExcept _) fun slot => .bind (h.load _) fun _ => .pure rfl

theorem unary_twin (op : UnaryOp) (span : Span) (hx : E.Twin Eq x x') :
    E.Twin Eq (Lower.unary ⟨types, o⟩ op span x) (Lower.unary ⟨types, o'⟩ op span x') := by
  refine .bind hx fun a => .ofExcept_bind fun d hd => ?_
  exact .bind (h.located (h.unary hd op a.typed) span) fun _ =>
    .bind (h.release a) fun _ => .pure rfl

theorem binary (op : BinaryOp) (span : Span) (hx : E.Twin Eq x x') (hy : E.Twin Eq y y') :
    E.Twin Eq (Lower.binary ⟨types, o⟩ op span x y) (Lower.binary ⟨types, o'⟩ op span x' y') := by
  refine .bind hx fun a => .bind hy fun b => ?_
  exact .bind (h.located (h.applyBinary op a.typed b.typed) span) fun _ =>
    .bind (h.release a) fun _ => .bind (h.release b) fun _ => .pure rfl

omit h in
theorem requireBool (op : BinaryOp) (span : Span) (a : ExprValue) :
    E.Twin Eq (Lower.requireBool ⟨types, o⟩ op span a) (Lower.requireBool ⟨types, o'⟩ op span a) :=
  .refuseIf _ _

theorem logical (op : BinaryOp) (span : Span) (hx : E.Twin Eq x x') (hy : E.Twin Eq y y') :
    E.Twin Eq (Lower.logical ⟨types, o⟩ op span x y) (Lower.logical ⟨types, o'⟩ op span x' y') := by
  refine .bind hx fun l => .bind (requireBool op span l) fun _ => ?_
  refine .bind_rel h.currentFunction (.inr h.plain) fun f f' hf => ?_
  refine .bind h.currentBlock fun _ => .bind (h.appendBlock hf _) fun _ => ?_
  refine .bind (h.appendBlock hf _) fun _ => .bind (h.condBr _ _ _) fun _ => ?_
  refine .bind (h.moveTo hf _) fun _ => .bind hy fun r => .bind (requireBool op span r) fun _ => ?_
  refine .bind h.currentBlock fun _ => .bind (h.br _) fun _ => .bind (h.moveTo hf _) fun _ => ?_
  exact .bind (h.phi _ _) fun _ => .pure rfl

theorem assign (target : Ident) (span : Span) (hx : E.Twin Eq x x') :
    E.Twin Eq (Lower.assign ⟨types, o⟩ s target span x)
      (Lower.assign ⟨types, o'⟩ s' target span x') := by
  unfold Lower.assign
  rw [h.scopes]
  refine .bind (.ofExcept _) fun slot => .bind (h.check hx _ _ _) fun a => ?_
  refine .bind (h.materialize a) fun new => .bind (h.destroySlot slot) fun _ => ?_
  exact .bind (h.store _ _) fun _ => .pure rfl

theorem construct_twin (ty : TypeName) (span : Span) {args args' : Emit (List ExprValue)}
    (hargs : E.Twin Eq args args') :
    E.Twin Eq (Lower.construct ⟨types, o⟩ ty span args)
      (Lower.construct ⟨types, o'⟩ ty span args') := by
  refine .bind (.ofExcept _) fun id => .bind hargs fun xs => .ofExcept_bind fun d hd => ?_
  exact .bind (h.located (h.construct hd _) span) fun _ =>
    .bind (.forM h.release) fun _ => .pure rfl

end Expr.Pairing

mutual

/-- An expression that is lowered twice has its twin. -/
theorem Expr.lower_twin (h : Expr.Pairing types o o' E cur s s') :
    ∀ e : Expr, E.Twin Eq (e.lower ⟨types, o⟩ s) (e.lower ⟨types, o'⟩ s')
  | .literal _ _ => .pure rfl
  | .var x => h.readVar x
  | .unary op e span => h.unary_twin op span (e.lower_twin h)
  | .binary op l r span => by
    unfold Expr.lower
    exact .ite _ (h.logical op span (l.lower_twin h) (r.lower_twin h))
      (h.binary op span (l.lower_twin h) (r.lower_twin h))
  | .assign x e _ => h.assign x e.span (e.lower_twin h)
  | .call f args span => h.call f span (Expr.lowerAll_twin h args)
  | .construct t args span => h.construct_twin t span (Expr.lowerAll_twin h args)

theorem Expr.lowerAll_twin (h : Expr.Pairing types o o' E cur s s') :
    ∀ es : List Expr, E.Twin Eq (Expr.lowerAll ⟨types, o⟩ s es) (Expr.lowerAll ⟨types, o'⟩ s' es)
  | [] => .pure rfl
  | e :: es => .bind (e.lower_twin h) fun _ => .bind (Expr.lowerAll_twin h es) fun _ => .pure rfl

end

end Shading
