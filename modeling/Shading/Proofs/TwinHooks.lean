import Shading.Proofs.Hooks
import Shading.Proofs.Operands
import Shading.Proofs.TwinExpressions

/-! # What types do side by side

    Operators, constructors, conversions and the copying and destroying of
    values are made of a few operations of a builder and of calls of the
    runtime.  If these have their twins, then so has everything that the
    built-in types do. -/

namespace Shading

open IR

variable {d : Descriptor} {ty : TypeId}

/-- The operations that types are made of have their twins. -/
structure Emit.Primitives (E : Act.Bond Builder Fault) : Prop where
  plain : E.Plain
  strict : ¬E.lenient
  arith : ∀ op x y,
    E.Twin Eq (liftM (Build.arith op x y) : Emit Value) (liftM (Build.arith op x y))
  cmp : ∀ pred x y,
    E.Twin Eq (liftM (Build.cmp pred x y) : Emit Value) (liftM (Build.cmp pred x y))
  neg : ∀ x, E.Twin Eq (liftM (Build.neg x) : Emit Value) (liftM (Build.neg x))
  not : ∀ x, E.Twin Eq (liftM (Build.not x) : Emit Value) (liftM (Build.not x))
  cast : ∀ op x, E.Twin Eq (liftM (Build.cast op x) : Emit Value) (liftM (Build.cast op x))
  vector : ∀ lanes, E.Twin Eq (liftM (Build.vector lanes) : Emit Value) (liftM (Build.vector lanes))
  splat : ∀ x lanes,
    E.Twin Eq (liftM (Build.splat x lanes) : Emit Value) (liftM (Build.splat x lanes))
  callIntrinsic : ∀ {name params ret}, (name, ⟨params, ret⟩) ∈ Distribution.runtime → ∀ args,
    E.Twin Eq (Emit.callIntrinsic name params ret args) (Emit.callIntrinsic name params ret args)

namespace Emit.Primitives

variable {E : Act.Bond Builder Fault} {types : TypeTable} (h : Emit.Primitives E)

include h

/-! ## Operators -/

/-- An integer is converted, and any other operand is taken as it is. -/
theorem promote (x : Typed) : E.Twin Eq x.promote x.promote :=
  .ite _ (h.cast _ _) (.pure rfl)

theorem toFloat? (x : Typed) : E.Twin Eq x.toFloat? x.toFloat? :=
  .ite _ (.bind (h.promote x) fun _ => .pure rfl) (.pure rfl)

/-- Two numbers: the kinds of the operands and the operator decide what is
    emitted, and both runs see the same ones. -/
theorem numericArith (op : BinaryOp) (l r : Typed) :
    E.Twin Eq (numericArith types op l r) (Shading.numericArith types op l r) := by
  refine .ite _ ?_ (.ite _ ?_ (.throw _))
  -- Integers stay integers, without a promotion.
  · cases op.intOp? with
    | none => exact .throw _
    | some o => exact .bind (h.arith _ _ _) fun _ => .pure rfl
  -- Otherwise both operands are promoted, in the order of the source.
  · cases op.floatOp? with
    | none => exact .throw _
    | some o =>
      exact .bind (h.promote l) fun _ => .bind (h.promote r) fun _ =>
        .bind (h.arith _ _ _) fun _ => .pure rfl

theorem numericCompare (op : BinaryOp) (l r : Typed) :
    E.Twin Eq (numericCompare types op l r) (Shading.numericCompare types op l r) := by
  unfold Shading.numericCompare
  -- The predicate belongs to the operator alone.
  cases op.predicate? with
  | none => exact .throw _
  | some pred =>
    refine .ite _ ?_ (.ite _ ?_ (.throw _))
    · exact .bind (h.cmp _ _ _) fun _ => .pure rfl
    · exact .bind (h.promote l) fun _ => .bind (h.promote r) fun _ =>
        .bind (h.cmp _ _ _) fun _ => .pure rfl

theorem boolCompare (op : BinaryOp) (l r : Typed) :
    E.Twin Eq (boolCompare types op l r) (Shading.boolCompare types op l r) := by
  -- An order of booleans is refused on both sides.
  cases op with
  | eq | ne => exact .bind (.refuseIf _ _) fun _ => .bind (h.cmp _ _ _) fun _ => .pure rfl
  | _ => exact .throw _

theorem vectorArith (d : Descriptor) (width : UInt8) (op : BinaryOp)
    (o : ArithOp) (allowScalar : Bool) (l r : Typed) :
    E.Twin Eq (vectorArith types d width op o allowScalar l r)
      (Shading.vectorArith types d width op o allowScalar l r) :=
  .ite _ (.bind (h.arith _ _ _) fun _ => .pure rfl)
    (.ite _ (.bind (h.promote r) fun _ => .bind (h.splat _ _) fun _ =>
      .bind (h.arith _ _ _) fun _ => .pure rfl) (.throw _))

theorem arith_hook (d : Descriptor) (op : BinaryOp) (l r : Typed) :
    E.Twin Eq (d.arith types op l r) (d.arith types op l r) := by
  unfold Descriptor.arith
  -- The kind of the left operand's type chooses the operation.
  cases d.behaviour with
  | int | float => exact h.numericArith op l r
  | vector width =>
    cases op with
    | add | sub | mul | div => exact h.vectorArith d width _ _ _ l r
    | _ => exact .throw _
  | distribution =>
    cases op with
    | add =>
      exact .bind (.refuseIf _ _) fun _ => .bind (h.callIntrinsic (by decide) _) fun _ => .pure rfl
    | mul =>
      -- A weight that is no number makes both runs report the missing operator.
      refine .bind (h.toFloat? r) fun weight => ?_
      cases weight with
      | some w => exact .bind (h.callIntrinsic (by decide) _) fun _ => .pure rfl
      | none => exact .throw _
    | _ => exact .throw _
  | _ => exact .throw _

theorem compare_hook (d : Descriptor) (op : BinaryOp) (l r : Typed) :
    E.Twin Eq (d.compare types op l r) (d.compare types op l r) := by
  unfold Descriptor.compare
  cases d.behaviour with
  | bool => exact h.boolCompare op l r
  | int | float => exact h.numericCompare op l r
  | _ => exact .throw _

/-- A built-in type has no operators of its own, so those of its kind decide. -/
theorem binary_hook (hd : TypeTable.builtins.resolve ty = .ok d)
    (op : BinaryOp) (l r : Typed) :
    E.Twin Eq (d.binary .builtins op l r) (d.binary .builtins op l r) := by
  obtain ⟨b, -, rfl⟩ := TypeTable.builtins_resolve_eq_ok.1 hd
  rw [Descriptor.binary_builtin]
  exact .ite _ (h.arith_hook _ op l r) (.ite _ (h.compare_hook _ op l r) (.throw _))

/-- The second attempt with swapped operands is made in both runs or in none. -/
theorem applyBinary (op : BinaryOp) (l r : Typed) :
    E.Twin Eq (Lower.applyBinary .builtins op l r) (Lower.applyBinary .builtins op l r) := by
  refine .ofExcept_bind fun left hleft => .tryCatch (h.binary_hook hleft op l r) h.plain h.strict
    fun fault => ?_
  -- Only a missing operator gives the right operand its turn.
  split
  · refine .ite _ (.ofExcept_bind fun right hright => ?_) (.throw _)
    exact (h.binary_hook hright op r l).mapError h.plain h.plain (fun _ _ => Iff.rfl) id _
  · exact .throw _

theorem unary_hook (hd : TypeTable.builtins.resolve ty = .ok d)
    (op : UnaryOp) (x : Typed) : E.Twin Eq (d.unary .builtins op x) (d.unary .builtins op x) := by
  obtain ⟨b, -, rfl⟩ := TypeTable.builtins_resolve_eq_ok.1 hd
  rw [Descriptor.unary_builtin]
  unfold Descriptor.standardUnary
  split
  · exact .bind (h.not _) fun _ => .pure rfl
  -- Numbers and vectors are negated in the same way.
  · exact .bind (h.neg _) fun _ => .pure rfl
  · exact .bind (h.neg _) fun _ => .pure rfl
  · exact .bind (h.neg _) fun _ => .pure rfl
  · exact .throw _

/-! ## Values -/

theorem vectorConstruct (d : Descriptor) (width : UInt8)
    (args : List Typed) :
    E.Twin Eq (vectorConstruct types d width args) (Shading.vectorConstruct types d width args) := by
  refine .bind (.mapM fun arg => .bind (h.toFloat? arg) fun lane => ?_) fun lanes => ?_
  · cases lane with
    | some lane => exact .pure rfl
    | none => exact .throw _
  -- One lane is spread over the vector; otherwise there is one for each component.
  · split
    · exact .bind (h.splat _ _) fun _ => .pure rfl
    · exact .ite _ (.bind (h.vector _) fun _ => .pure rfl) (.throw _)

theorem distributionConstruct (args : List Typed) :
    E.Twin Eq (Distribution.construct .builtins args) (Distribution.construct .builtins args) := by
  unfold Distribution.construct
  split
  · refine .bind (.refuseIf _ _) fun _ => .ofExcept_bind fun s hs => .ofExcept_bind fun c hc => ?_
    -- The shapes of the two parameters are fixed, so the call is one of the runtime.
    obtain rfl : s = .handle "shader" := by
      have hshape := (TypeTable.builtins_representation .shaderHandle).1 hs
      exact (Option.some.inj hshape).symm
    obtain rfl : c = .handle "context" := by
      have hshape := (TypeTable.builtins_representation .contextPtr).1 hc
      exact (Option.some.inj hshape).symm
    exact .bind (h.callIntrinsic (by decide) _) fun _ => .pure rfl
  · exact .throw _

/-- Only vectors and distributions can be constructed. -/
theorem construct (hd : TypeTable.builtins.resolve ty = .ok d)
    (args : List Typed) : E.Twin Eq (d.construct .builtins args) (d.construct .builtins args) := by
  obtain ⟨b, -, rfl⟩ := TypeTable.builtins_resolve_eq_ok.1 hd
  rw [Descriptor.construct_builtin]
  unfold Descriptor.standardConstruct
  cases b.descriptor.behaviour with
  | vector width => exact h.vectorConstruct _ width args
  | distribution => exact h.distributionConstruct args
  | _ => exact .throw _

theorem defaultValue (hd : TypeTable.builtins.resolve ty = .ok d) :
    E.Twin Eq d.defaultValue d.defaultValue := by
  obtain ⟨b, -, rfl⟩ := TypeTable.builtins_resolve_eq_ok.1 hd
  rw [Descriptor.defaultValue_builtin]
  unfold Descriptor.standardValue
  cases b.descriptor.behaviour with
  | void => exact .throw _
  -- An empty distribution comes from the runtime, all else is a constant.
  | distribution => exact .bind (h.callIntrinsic (by decide) _) fun _ => .pure rfl
  | _ =>
    cases b.descriptor.repr with
    | none => exact .throw _
    | some shape => exact .pure rfl

theorem copy (hd : TypeTable.builtins.resolve ty = .ok d) (v : Value) :
    E.Twin Eq (d.copy v) (d.copy v) := by
  obtain ⟨b, -, rfl⟩ := TypeTable.builtins_resolve_eq_ok.1 hd
  -- Distributions are the only values with a copy of their own.
  cases b with
  | dfunc => exact h.callIntrinsic (by decide) _
  | _ => exact .pure rfl

theorem destroy (hd : TypeTable.builtins.resolve ty = .ok d) (v : Value) :
    E.Twin Eq (d.destroy v) (d.destroy v) := by
  obtain ⟨b, -, rfl⟩ := TypeTable.builtins_resolve_eq_ok.1 hd
  cases b with
  | dfunc => exact .bind (h.callIntrinsic (by decide) _) fun _ => .pure rfl
  | _ => exact .pure rfl

/-! ## Conversions -/

theorem conversion (c : Conversion) (v : Value) :
    E.Twin Eq (c.apply v) (c.apply v) := by
  cases c with
  | identity => exact .pure rfl
  | intToFloat => exact h.cast _ _

/-- Arguments are converted one after the other, as many as there are conversions. -/
theorem convertArgs (xs : List ExprValue) (cs : List Conversion) :
    E.Twin Eq (Lower.convertArgs xs cs) (Lower.convertArgs xs cs) := by
  induction xs generalizing cs with
  | nil => exact .pure rfl
  | cons x xs ih =>
    cases cs with
    | nil => exact .pure rfl
    | cons c cs => exact .bind (h.conversion c _) fun _ => .bind (ih cs) fun _ => .pure rfl

theorem coerce (env : Env) (x : ExprValue) (ty : TypeId) (span : Span)
    (what : String) :
    E.Twin Eq (Lower.coerce env x ty span what) (Lower.coerce env x ty span what) := by
  unfold Lower.coerce
  -- The conversion is found from the types, which are those of both runs.
  split
  · exact .pure rfl
  · exact .bind (h.conversion _ _) fun _ => .pure rfl
  · exact .throw _

end Emit.Primitives

end Shading
