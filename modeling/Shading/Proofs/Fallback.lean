import Shading.Lower.Expr
import Shading.Proofs.Hooks
import Shading.Proofs.Outcomes

/-! # Operators that a type does not have

    An operator of a type looks at the types of its operands.  Either they
    do not suit it, and then it is refused on the spot, or it goes on to
    emit code and is refused for malformed instructions only
    (`Emit.MissesFirst`).  So a missing operator is found out before anything
    is emitted, and the attempt with swapped operands starts from the state
    in which the first attempt started
    (`missing_operators_leave_no_trace`). -/

namespace Shading

open IR

/-- Is it the fault of an operator that a type does not have? -/
def Fault.missesOperator : Fault → Bool
  | .located (.noOperator ..) _ | .located (.noUnaryOperator ..) _ => true
  | _ => false

namespace Emit

variable {α β : Type} {x : Emit α} {k : α → Emit β} {e : Fault}

/-- No missing operator is found out any more. -/
def working : Act.Law Builder Fault where
  answered _ _ := True
  refused e _ _ := e.missesOperator = false
  refl _ := trivial
  trans _ _ := trivial
  after _ h := h

/-- What the builder refuses is malformed. -/
theorem working_build (x : Build α) : working.Holds (liftM x : Emit α) := fun _ =>
  Act.meets_mapError.2 (Act.meets_of_run (fun _ _ _ => trivial) fun _ _ _ => rfl)

theorem working_promote (x : Typed) : working.Holds x.promote := .ite (working_build _) (.pure _)

theorem working_callIntrinsic (name : String) (params : List Ty) (ret : Ty) (args : List Value) :
    working.Holds (callIntrinsic name params ret args) :=
  .bind (working_build _) fun _ => working_build _

/-- An action that is refused at once with the given fault, or else reports no
    missing operator. -/
def MissesFirst (x : Emit α) (e : Fault) : Prop := x = throw e ∨ working.Holds x

theorem MissesFirst.throw (e : Fault) : MissesFirst (throw e : Emit α) e := .inl rfl

theorem MissesFirst.answer {g : α → β} (hx : working.Holds x) :
    MissesFirst (do return g (← x)) e := .inr (.bind hx fun _ => .pure _)

/-- A choice that depends on the types of the operands. -/
theorem MissesFirst.ite {c : Prop} [Decidable c] {y : Emit α} (hx : c → MissesFirst x e)
    (hy : ¬ c → MissesFirst y e) : MissesFirst (if c then x else y) e := by
  by_cases hc : c
  · rw [if_pos hc]
    exact hx hc
  · rw [if_neg hc]
    exact hy hc

/-- A check in front of all code. -/
theorem MissesFirst.refuseIf {c : Prop} [Decidable c] {k : Unit → Emit β}
    (hk : working.Holds (k ())) : MissesFirst (Act.refuseIf c e >>= k) e := by
  unfold Act.refuseIf
  by_cases hc : c
  · rw [if_pos hc]
    exact .throw e
  · rw [if_neg hc]
    exact .inr hk

/-- A missing operator is found out before anything is emitted, and the fault
    is the one that was to be expected. -/
theorem MissesFirst.of_missing {s t : Builder} {e' : Fault} (hx : MissesFirst x e)
    (hrun : x.run s = (.error e', t)) (he' : e'.missesOperator = true) : e' = e ∧ t = s := by
  rcases hx with rfl | hx
  · cases hrun
    exact ⟨rfl, rfl⟩
  · have hno : e'.missesOperator = false := (hx s).of_error hrun
    rw [he'] at hno
    cases hno

end Emit

/-! ## The operators of types -/

section

open Emit

variable (types : TypeTable)

theorem numericArith_missesFirst (op : BinaryOp) (l r : Typed) :
    MissesFirst (numericArith types op l r) (noOperator types op l r) := by
  refine .ite (fun _ => ?_) fun _ => .ite (fun _ => ?_) fun _ => .throw _
  -- Two integers: some operators have no instruction for them.
  · cases op.intOp? with
    | none => exact .throw _
    | some arith => exact .answer (working_build _)
  -- A single integer is promoted, but only for an operator that there is.
  · cases op.floatOp? with
    | none => exact .throw _
    | some arith =>
      exact .inr (.bind (working_promote l) fun _ => .bind (working_promote r) fun _ =>
        .bind (working_build _) fun _ => .pure _)

theorem numericCompare_missesFirst (op : BinaryOp) (l r : Typed) :
    MissesFirst (numericCompare types op l r) (noOperator types op l r) := by
  unfold numericCompare
  cases op.predicate? with
  | none => exact .throw _
  | some pred =>
    refine .ite (fun _ => .answer (working_build _)) fun _ => .ite (fun _ => ?_) fun _ => .throw _
    -- The predicate has been found before an operand is promoted.
    exact .inr (.bind (working_promote l) fun _ => .bind (working_promote r) fun _ =>
      .bind (working_build _) fun _ => .pure _)

theorem boolCompare_missesFirst (op : BinaryOp) (l r : Typed) :
    MissesFirst (boolCompare types op l r) (noOperator types op l r) := by
  -- Booleans can only be equal or not.
  cases op with
  | eq | ne => exact .refuseIf (.bind (working_build _) fun _ => .pure _)
  | _ => exact .throw _

theorem vectorArith_missesFirst (d : Descriptor) (width : UInt8) (op : BinaryOp) (arith : ArithOp)
    (allowScalar : Bool) (l r : Typed) :
    MissesFirst (vectorArith types d width op arith allowScalar l r) (noOperator types op l r) := by
  refine .ite (fun _ => .answer (working_build _)) fun _ => .ite (fun _ => ?_) fun _ => .throw _
  -- The types suit each other from here on, so only instructions can be malformed.
  exact .inr (.bind (working_promote r) fun _ => .bind (working_build _) fun _ =>
    .bind (working_build _) fun _ => .pure _)

theorem Distribution.add_missesFirst (l r : Typed) :
    MissesFirst (Distribution.add types l r) (noOperator types .add l r) :=
  .refuseIf (.bind (working_callIntrinsic _ _ _ _) fun _ => .pure _)

/-- A weight that is no number is found out before any conversion. -/
theorem Distribution.scale_missesFirst (l r : Typed) :
    MissesFirst (Distribution.scale types l r) (noOperator types .mul l r) := by
  unfold Distribution.scale Typed.toFloat?
  by_cases hr : r.ty.isNumeric
  -- A number is promoted first, and this cannot fail for want of an operator.
  · simp only [if_pos hr, map_eq_pure_bind, bind_assoc, pure_bind]
    exact .inr (.bind (working_promote r) fun _ => .bind (working_callIntrinsic _ _ _ _) fun _ =>
      .pure _)
  · rw [if_neg hr]
    exact .throw _

namespace Descriptor

variable (d : Descriptor)

theorem arith_missesFirst (op : BinaryOp) (l r : Typed) :
    MissesFirst (d.arith types op l r) (noOperator types op l r) := by
  unfold Descriptor.arith
  cases d.behaviour with
  | int | float => exact numericArith_missesFirst types op l r
  | vector width =>
    cases op with
    | add | sub | mul | div => exact vectorArith_missesFirst types d width _ _ _ l r
    | _ => exact .throw _
  -- Of two distributions there is a sum, and of one and a number a product.
  | distribution =>
    cases op with
    | add => exact Distribution.add_missesFirst types l r
    | mul => exact Distribution.scale_missesFirst types l r
    | _ => exact .throw _
  | _ => exact .throw _

theorem compare_missesFirst (op : BinaryOp) (l r : Typed) :
    MissesFirst (d.compare types op l r) (noOperator types op l r) := by
  unfold Descriptor.compare
  cases d.behaviour with
  | bool => exact boolCompare_missesFirst types op l r
  | int | float => exact numericCompare_missesFirst types op l r
  | _ => exact .throw _

variable {d}

/-- A type without operators of its own has those of its kind. -/
theorem binary_missesFirst (hd : d.behaviour.hooks.binary = none) (op : BinaryOp) (l r : Typed) :
    MissesFirst (d.binary types op l r) (noOperator types op l r) := by
  rw [binary_eq_standard hd]
  exact .ite (fun _ => d.arith_missesFirst types op l r) fun _ =>
    .ite (fun _ => d.compare_missesFirst types op l r) fun _ => .throw _

theorem unary_missesFirst (hd : d.behaviour.hooks.unary = none) (op : UnaryOp) (x : Typed) :
    MissesFirst (d.unary types op x) (noUnaryOperator types op x) := by
  rw [unary_eq_standard hd]
  unfold standardUnary
  -- `!` of a boolean and `-` of the three kinds of numbers; nothing else.
  split
  · exact .answer (working_build _)
  · exact .answer (working_build _)
  · exact .answer (working_build _)
  · exact .answer (working_build _)
  · exact .throw _

end Descriptor

end

/-! ## Swapped operands -/

/-- The name of a type that is registered. -/
theorem TypeTable.nameOrId_of_resolve {types : TypeTable} {id : TypeId} {d : Descriptor}
    (h : types.resolve id = .ok d) : types.nameOrId id = d.name := by
  unfold resolve at h
  unfold nameOrId nameOf?
  cases hd : types.get? id with
  | none =>
    rw [hd] at h
    cases h
  | some d' =>
    rw [hd] at h
    cases h
    rfl

namespace Lower

variable {types : TypeTable} {op : BinaryOp} {l r : Typed} {dl dr : Descriptor} {s t : Builder}
  {e : Fault}

/-- A sum or a product that the type of its left operand does not have is what
    the type of the right operand makes of it. -/
theorem applyBinary_swapped (hl : types.resolve l.ty = .ok dl) (hr : types.resolve r.ty = .ok dr)
    (hdl : dl.behaviour.hooks.binary = none) (hne : l.ty ≠ r.ty) (hop : op.isCommutative = true)
    (hrun : (dl.binary types op l r).run s = (.error e, t)) (he : e.missesOperator = true) :
    (applyBinary types op l r).run s = ((dr.binary types op r l).mapError fun _ => e).run s := by
  obtain ⟨rfl, rfl⟩ := (Descriptor.binary_missesFirst types hdl op l r).of_missing hrun he
  unfold applyBinary
  rw [hl, hr, Act.run_bind]
  show (tryCatch (dl.binary types op l r) _).run t = _
  rw [Act.run_tryCatch, hrun]
  show (if op.isCommutative = true ∧ l.ty ≠ r.ty then _ else _ : Emit Typed).run t = _
  rw [if_pos ⟨hop, hne⟩]
  rfl

end Lower

/-- An operator that a type does not have is refused before anything is
    emitted, whatever the operands are, unless the type brings operators of
    its own; no built-in type does.  So a sum or a product that the type
    of its left operand does not have is, from the same state, what the type
    of the right operand makes of the swapped operands; and if that type does
    not have it either, nothing has been emitted and the fault names the two
    types in the order of the source. -/
theorem missing_operators_leave_no_trace (types : TypeTable) (s : Builder) :
    (∀ (d : Descriptor) (op : BinaryOp) (l r : Typed) (e : Fault) (t : Builder),
      d.behaviour.hooks.binary = none →
      (d.binary types op l r).run s = (.error e, t) → e.missesOperator = true → t = s) ∧
    (∀ (d : Descriptor) (op : UnaryOp) (x : Typed) (e : Fault) (t : Builder),
      d.behaviour.hooks.unary = none →
      (d.unary types op x).run s = (.error e, t) → e.missesOperator = true → t = s) ∧
    ∀ (dl dr : Descriptor) (op : BinaryOp) (l r : Typed) (e : Fault) (t : Builder),
      types.resolve l.ty = .ok dl → types.resolve r.ty = .ok dr →
      dl.behaviour.hooks.binary = none → dr.behaviour.hooks.binary = none →
      l.ty ≠ r.ty → op.isCommutative = true →
      (dl.binary types op l r).run s = (.error e, t) → e.missesOperator = true →
      (Lower.applyBinary types op l r).run s =
          ((dr.binary types op r l).mapError fun _ => e).run s ∧
        ∀ (e' : Fault) (t' : Builder), (dr.binary types op r l).run s = (.error e', t') →
          e'.missesOperator = true → (Lower.applyBinary types op l r).run s =
            (.error (Cause.noOperator op.symbol dl.name dr.name).unplaced, s) := by
  refine ⟨?_, ?_, ?_⟩
  · intro d op l r e t hd hrun he
    exact ((Descriptor.binary_missesFirst types hd op l r).of_missing hrun he).2
  · intro d op x e t hd hrun he
    exact ((Descriptor.unary_missesFirst types hd op x).of_missing hrun he).2
  · intro dl dr op l r e t hl hr hdl hdr hne hop hrun he
    have hswapped := Lower.applyBinary_swapped hl hr hdl hne hop hrun he
    refine ⟨hswapped, fun e' t' hrun' he' => ?_⟩
    -- The fault is the one of the source order, and the second attempt starts where the first did.
    obtain ⟨rfl, -⟩ := (Descriptor.binary_missesFirst types hdl op l r).of_missing hrun he
    obtain ⟨-, rfl⟩ := (Descriptor.binary_missesFirst types hdr op r l).of_missing hrun' he'
    rw [hswapped, Act.run_mapError, hrun', ← TypeTable.nameOrId_of_resolve hl,
      ← TypeTable.nameOrId_of_resolve hr]
    rfl

/-- A function of a float and a vector, at the end of its entry block. -/
def scaling : Builder :=
  ⟨⟨"scene", [⟨"f", ⟨[.f32, .vector 3], .void⟩, .internal, [⟨"entry", []⟩], []⟩], _, rfl⟩,
    some ⟨0, 0⟩⟩

/-- A float times a vector is the vector times the float; a float plus a vector
    is refused, and so is `!` of a float. -/
theorem scaling_leaves_no_trace :
    let x : Typed := ⟨Builtin.float.id, .arg 0⟩
    let v : Typed := ⟨Builtin.float3.id, .arg 1⟩
    (∃ e, (Builtin.float.descriptor.binary .builtins .mul x v).run scaling = (.error e, scaling) ∧
      (Lower.applyBinary .builtins .mul x v).run scaling =
        ((Builtin.float3.descriptor.binary .builtins .mul v x).mapError fun _ => e).run scaling) ∧
      ((Lower.applyBinary .builtins .mul x v).run scaling).1 =
        .ok ⟨Builtin.float3.id, .inst 1⟩ ∧
      (Lower.applyBinary .builtins .add x v).run scaling =
        (.error (Cause.noOperator "+" "float" "float3").unplaced, scaling) ∧
      ∃ e, (Builtin.float.descriptor.unary .builtins .not x).run scaling = (.error e, scaling) := by
  intro x v
  obtain ⟨hbinary, hunary, hswapped⟩ := missing_operators_leave_no_trace .builtins scaling
  have hresolve : ∀ b : Builtin, TypeTable.builtins.resolve b.id = .ok b.descriptor := fun b =>
    TypeTable.builtins_resolve_eq_ok.2 ⟨b, rfl, rfl⟩
  have hne : x.ty ≠ v.ty := fun h => Builtin.noConfusion (Builtin.id_injective h)
  have hmul := Act.run_eq_of_fst (x := Builtin.float.descriptor.binary .builtins .mul x v)
    (s := scaling) (r := .error (noOperator .builtins .mul x v)) (by decide +kernel)
  have hadd := Act.run_eq_of_fst (x := Builtin.float.descriptor.binary .builtins .add x v)
    (s := scaling) (r := .error (noOperator .builtins .add x v)) (by decide +kernel)
  have hadd' := Act.run_eq_of_fst (x := Builtin.float3.descriptor.binary .builtins .add v x)
    (s := scaling) (r := .error (noOperator .builtins .add v x)) (by decide +kernel)
  have hnot := Act.run_eq_of_fst (x := Builtin.float.descriptor.unary .builtins .not x)
    (s := scaling) (r := .error (noUnaryOperator .builtins .not x)) (by decide +kernel)
  refine ⟨⟨noOperator .builtins .mul x v, ?_, ?_⟩, by decide +kernel, ?_, ?_⟩
  · rw [hmul, hbinary _ _ _ _ _ _ rfl hmul rfl]
  · exact (hswapped _ _ _ _ _ _ _ (hresolve .float) (hresolve .float3) rfl rfl hne rfl hmul rfl).1
  · exact (hswapped _ _ _ _ _ _ _ (hresolve .float) (hresolve .float3) rfl rfl hne rfl hadd
      rfl).2 _ _ hadd' rfl
  · exact ⟨_, hnot.trans (by rw [hunary _ _ _ _ _ rfl hnot rfl])⟩

end Shading
