import Shading.Types.Table

/-! # What types do in expressions

    Construction, default values, copying, destruction and operators of
    every type.  A hook that comes with a type is used as it is.  An operator
    of a built-in kind first decides from the operand types whether it
    applies, and emits nothing if it does not. -/

namespace Shading

open IR (Build Value)

/-! ## Numbers -/

/-- The float value of a scalar number; integers are converted. -/
def Typed.promote (x : Typed) : Emit Value :=
  if x.ty = Builtin.int.id then Build.cast .sitofp x.value else pure x.value

/-- The float value of a scalar number, and nothing for any other type. -/
def Typed.toFloat? (x : Typed) : Emit (Option Value) :=
  if x.ty.isNumeric then some <$> x.promote else pure none

/-- The fault of a missing binary operator. -/
def noOperator (types : TypeTable) (op : BinaryOp) (l r : Typed) : Fault :=
  (Cause.noOperator op.symbol (types.nameOrId l.ty) (types.nameOrId r.ty)).unplaced

/-- The fault of a missing unary operator. -/
def noUnaryOperator (types : TypeTable) (op : UnaryOp) (x : Typed) : Fault :=
  (Cause.noUnaryOperator op.symbol (types.nameOrId x.ty)).unplaced

namespace BinaryOp

/-- The integer operation of an arithmetic operator. -/
def intOp? : BinaryOp → Option IR.ArithOp
  | add => some .iadd
  | sub => some .isub
  | mul => some .imul
  | div => some .sdiv
  | _ => none

/-- The float operation of an arithmetic operator. -/
def floatOp? : BinaryOp → Option IR.ArithOp
  | add => some .fadd
  | sub => some .fsub
  | mul => some .fmul
  | div => some .fdiv
  | _ => none

/-- The predicate of a comparison operator. -/
def predicate? : BinaryOp → Option IR.CmpPred
  | eq => some .eq
  | ne => some .ne
  | lt => some .lt
  | le => some .le
  | gt => some .gt
  | ge => some .ge
  | _ => none

end BinaryOp

/-- Arithmetic on two integers stays integer; with a float among the
    operands both become floats. -/
def numericArith (types : TypeTable) (op : BinaryOp) (l r : Typed) : Emit Typed := do
  if l.ty = Builtin.int.id ∧ r.ty = Builtin.int.id then
    match op.intOp? with
    | some arith => return ⟨Builtin.int.id, ← Build.arith arith l.value r.value⟩
    | none => throw (noOperator types op l r)
  else if l.ty.isNumeric ∧ r.ty.isNumeric then
    match op.floatOp? with
    | some arith =>
      let x ← l.promote
      let y ← r.promote
      return ⟨Builtin.float.id, ← Build.arith arith x y⟩
    | none => throw (noOperator types op l r)
  else throw (noOperator types op l r)

/-- Comparison of two numbers, as floats if one of them is a float. -/
def numericCompare (types : TypeTable) (op : BinaryOp) (l r : Typed) : Emit Typed := do
  match op.predicate? with
  | none => throw (noOperator types op l r)
  | some pred =>
    if l.ty = Builtin.int.id ∧ r.ty = Builtin.int.id then
      return ⟨Builtin.bool.id, ← Build.cmp pred l.value r.value⟩
    else if l.ty.isNumeric ∧ r.ty.isNumeric then
      let x ← l.promote
      let y ← r.promote
      return ⟨Builtin.bool.id, ← Build.cmp pred x y⟩
    else throw (noOperator types op l r)

/-- Booleans can be compared for equality with one another only. -/
def boolCompare (types : TypeTable) (op : BinaryOp) (l r : Typed) : Emit Typed := do
  match op with
  | .eq | .ne =>
    Act.refuseIf (r.ty ≠ Builtin.bool.id) (noOperator types op l r)
    let pred : IR.CmpPred := if op = .eq then .eq else .ne
    return ⟨Builtin.bool.id, ← Build.cmp pred l.value r.value⟩
  | _ => throw (noOperator types op l r)

/-! ## Vectors -/

/-- Component by component, with a vector of the same type or, where scalars
    are allowed, with a number in every component. -/
def vectorArith (types : TypeTable) (d : Descriptor) (width : UInt8) (op : BinaryOp)
    (arith : IR.ArithOp) (allowScalar : Bool) (l r : Typed) : Emit Typed := do
  if r.ty = d.id then
    return ⟨d.id, ← Build.arith arith l.value r.value⟩
  else if allowScalar ∧ r.ty.isNumeric then
    let scalar ← r.promote
    let spread ← Build.splat scalar width
    return ⟨d.id, ← Build.arith arith l.value spread⟩
  else throw (noOperator types op l r)

/-- The components that a vector is built from. -/
def vectorLanes (types : TypeTable) (d : Descriptor) (args : List Typed) : Emit (List Value) :=
  args.mapM fun arg => do
    match ← arg.toFloat? with
    | some lane => pure lane
    | none =>
      let found := types.nameOrId arg.ty
      throw (Cause.typeMismatch
        s!"{d.name} component must be numeric, found '{found}'").unplaced

/-- One number for all components, or one number for each. -/
def vectorConstruct (types : TypeTable) (d : Descriptor) (width : UInt8) (args : List Typed) :
    Emit Typed := do
  match ← vectorLanes types d args with
  | [lane] => return ⟨d.id, ← Build.splat lane width⟩
  | lanes =>
    if lanes.length = width.toNat then return ⟨d.id, ← Build.vector lanes⟩
    else
      let wanted := width.toNat
      let got := lanes.length
      throw (Cause.typeMismatch s!"{d.name} expects {wanted} components, got {got}").unplaced

/-! ## Distributions

    A distribution is a handle to an object of the renderer.  The runtime
    creates, copies and combines them, and each must be destroyed once. -/

namespace Distribution

def createSymbol : String := "gd_builtin_dfunc_create"
def emptySymbol : String := "gd_builtin_dfunc_empty"
def copySymbol : String := "gd_builtin_dfunc_copy"
def destroySymbol : String := "gd_builtin_dfunc_destroy"
def addSymbol : String := "gd_builtin_dfunc_add"
def scaleSymbol : String := "gd_builtin_dfunc_scale"

/-- The symbols of the runtime. -/
def symbols : List String :=
  [createSymbol, emptySymbol, copySymbol, destroySymbol, addSymbol, scaleSymbol]

/-- The shape of a distribution. -/
def ty : IR.Ty := .handle "dfunc"

def typed (v : Value) : Typed := ⟨Builtin.dfunc.id, v⟩

/-- The fault of a distribution that is built from something else than a
    shader and a context. -/
def badArguments (got : String) : Fault :=
  (Cause.typeMismatch s!"dfunc expects (shader_handle, context_ptr), got {got}").unplaced

/-- The distribution of a shader in a context. -/
def construct (types : TypeTable) (args : List Typed) : Emit Typed := do
  match args with
  | [shader, context] =>
    let first := types.nameOrId shader.ty
    let second := types.nameOrId context.ty
    Act.refuseIf (shader.ty ≠ Builtin.shaderHandle.id ∨ context.ty ≠ Builtin.contextPtr.id)
      (badArguments s!"({first}, {second})")
    let shaderTy ← types.representation Builtin.shaderHandle.id
    let contextTy ← types.representation Builtin.contextPtr.id
    let v ← Emit.callIntrinsic createSymbol [shaderTy, contextTy] ty [shader.value, context.value]
    pure (typed v)
  | _ =>
    let count := args.length
    throw (badArguments s!"{count} argument(s)")

/-- The empty distribution, so that a declared variable always owns one. -/
def empty : Emit Typed := return typed (← Emit.callIntrinsic emptySymbol [] ty [])

def copy (v : Value) : Emit Value := Emit.callIntrinsic copySymbol [ty] ty [v]

def destroy (v : Value) : Emit Unit := do
  let _ ← Emit.callIntrinsic destroySymbol [ty] .void [v]

/-- The sum of two distributions. -/
def add (types : TypeTable) (l r : Typed) : Emit Typed := do
  Act.refuseIf (r.ty ≠ Builtin.dfunc.id) (noOperator types .add l r)
  return typed (← Emit.callIntrinsic addSymbol [ty, ty] ty [l.value, r.value])

/-- A distribution with a weight. -/
def scale (types : TypeTable) (l r : Typed) : Emit Typed := do
  match ← r.toFloat? with
  | some weight =>
    return typed (← Emit.callIntrinsic scaleSymbol [ty, .f32] ty [l.value, weight])
  | none => throw (noOperator types .mul l r)

end Distribution

/-! ## The hooks of a descriptor

    What the kind of a type has to offer, and then what the type does: a hook
    that comes with it goes first. -/

namespace Descriptor

def standardConstruct (types : TypeTable) (d : Descriptor) (args : List Typed) : Emit Typed :=
  match d.behaviour with
  | .vector width => vectorConstruct types d width args
  | .distribution => Distribution.construct types args
  | _ => throw (Cause.notConstructible d.name).unplaced

/-- `T(args)` -/
def construct (types : TypeTable) (d : Descriptor) (args : List Typed) : Emit Typed :=
  match d.behaviour.hooks.construct with
  | some hook => hook args
  | none => d.standardConstruct types args

/-- Null for pointers and zero otherwise, unless the kind has its own
    default. -/
def standardValue (d : Descriptor) : Emit Typed :=
  match d.behaviour with
  | .void => throw (Cause.invalidOperation "cannot declare a value of type 'void'").unplaced
  | .distribution => Distribution.empty
  | _ =>
    match d.repr with
    | none => throw (Cause.noRepresentation d.name).unplaced
    | some ty => pure ⟨d.id, .const (if ty.isPointer then .null ty else .zero ty)⟩

/-- The value of a variable that is declared without one. -/
def defaultValue (d : Descriptor) : Emit Typed := d.behaviour.hooks.initial.getD d.standardValue

/-- An independent copy of a value. -/
def copy (d : Descriptor) (v : Value) : Emit Value :=
  match d.behaviour with
  | .distribution => Distribution.copy v
  | b => b.hooks.copy d.repr v

/-- Release what a value owns. -/
def destroy (d : Descriptor) (v : Value) : Emit Unit :=
  match d.behaviour with
  | .distribution => Distribution.destroy v
  | b => b.hooks.destroy d.repr v

/-- A comparison whose left operand has this type. -/
def compare (types : TypeTable) (d : Descriptor) (op : BinaryOp) (l r : Typed) : Emit Typed :=
  match d.behaviour with
  | .bool => boolCompare types op l r
  | .int | .float => numericCompare types op l r
  | _ => throw (noOperator types op l r)

/-- `+ - * /` with a left operand of this type. -/
def arith (types : TypeTable) (d : Descriptor) (op : BinaryOp) (l r : Typed) : Emit Typed :=
  match d.behaviour, op with
  | .int, _ | .float, _ => numericArith types op l r
  | .vector width, .add => vectorArith types d width op .fadd false l r
  | .vector width, .sub => vectorArith types d width op .fsub false l r
  | .vector width, .mul => vectorArith types d width op .fmul true l r
  | .vector width, .div => vectorArith types d width op .fdiv true l r
  | .distribution, .add => Distribution.add types l r
  | .distribution, .mul => Distribution.scale types l r
  | _, _ => throw (noOperator types op l r)

/-- The logical operators belong to no kind. -/
def standardBinary (types : TypeTable) (d : Descriptor) (op : BinaryOp) (l r : Typed) :
    Emit Typed :=
  if op.isArithmetic then d.arith types op l r
  else if op.isComparison then d.compare types op l r
  else throw (noOperator types op l r)

/-- A binary operator whose left operand has this type. -/
def binary (types : TypeTable) (d : Descriptor) (op : BinaryOp) (l r : Typed) : Emit Typed :=
  match d.behaviour.hooks.binary with
  | some hook => hook op l r
  | none => d.standardBinary types op l r

def standardUnary (types : TypeTable) (d : Descriptor) (op : UnaryOp) (x : Typed) : Emit Typed :=
  match d.behaviour, op with
  | .bool, .not => return ⟨Builtin.bool.id, ← Build.not x.value⟩
  | .int, .neg => return ⟨Builtin.int.id, ← Build.neg x.value⟩
  | .float, .neg => return ⟨Builtin.float.id, ← Build.neg x.value⟩
  | .vector _, .neg => return ⟨d.id, ← Build.neg x.value⟩
  | _, _ => throw (noUnaryOperator types op x)

/-- A unary operator on this type. -/
def unary (types : TypeTable) (d : Descriptor) (op : UnaryOp) (x : Typed) : Emit Typed :=
  match d.behaviour.hooks.unary with
  | some hook => hook op x
  | none => d.standardUnary types op x

theorem binary_eq_standard {d : Descriptor} (h : d.behaviour.hooks.binary = none)
    (types : TypeTable) (op : BinaryOp) (l r : Typed) :
    d.binary types op l r = d.standardBinary types op l r := by
  simp only [binary, h]

theorem unary_eq_standard {d : Descriptor} (h : d.behaviour.hooks.unary = none)
    (types : TypeTable) (op : UnaryOp) (x : Typed) :
    d.unary types op x = d.standardUnary types op x := by
  simp only [unary, h]

end Descriptor

/-- A built-in type brings no operators, no constructor and no default. -/
theorem Builtin.hooks_eq_none (b : Builtin) :
    b.descriptor.behaviour.hooks.binary = none ∧ b.descriptor.behaviour.hooks.unary = none ∧
      b.descriptor.behaviour.hooks.construct = none ∧
      b.descriptor.behaviour.hooks.initial = none := by
  cases b <;> exact ⟨rfl, rfl, rfl, rfl⟩

namespace Descriptor

variable (types : TypeTable) (b : Builtin)

@[simp] theorem binary_builtin (op : BinaryOp) (l r : Typed) :
    b.descriptor.binary types op l r = b.descriptor.standardBinary types op l r :=
  binary_eq_standard b.hooks_eq_none.1 types op l r

@[simp] theorem unary_builtin (op : UnaryOp) (x : Typed) :
    b.descriptor.unary types op x = b.descriptor.standardUnary types op x :=
  unary_eq_standard b.hooks_eq_none.2.1 types op x

@[simp] theorem construct_builtin (args : List Typed) :
    b.descriptor.construct types args = b.descriptor.standardConstruct types args := by
  simp only [construct, b.hooks_eq_none.2.2.1]

@[simp] theorem defaultValue_builtin : b.descriptor.defaultValue = b.descriptor.standardValue := by
  simp only [defaultValue, b.hooks_eq_none.2.2.2, Option.getD_none]

end Descriptor

end Shading
