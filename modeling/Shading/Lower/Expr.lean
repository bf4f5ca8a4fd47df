import Shading.Lower.Lifetime
import Shading.Lower.Work

/-! # Lowering expressions

    An expression emits code at the end of the current block and may leave
    the builder in another block.  It reads the symbols and changes none of
    them.  Each form of expression is an action made from the actions of its
    parts; `Expr.lower` puts them together along the tree. -/

namespace Shading

open IR (Build Value)

namespace Lower

/-! ## Conversion -/

/-- Convert a value to the type that its place expects; `what` names the
    place. -/
def coerce (env : Env) (x : ExprValue) (expected : TypeId) (span : Span) (what : String) :
    Emit ExprValue := do
  match Conversion.find? x.ty expected env.options with
  | some .identity => pure x
  | some conversion => return ⟨expected, ← conversion.apply x.value, true⟩
  | none =>
    let wanted := env.types.nameOrMark expected
    let found := env.types.nameOrMark x.ty
    throw ((Cause.typeMismatch s!"{what}: expected '{wanted}', found '{found}'").atSpan span)

/-- Compute a value of the type that its place expects. -/
def check (env : Env) (e : Emit ExprValue) (expected : TypeId) (span : Span) (what : String) :
    Emit ExprValue := do
  coerce env (← e) expected span what

/-- Compute a condition, which must be a boolean. -/
def condition (env : Env) (e : Emit ExprValue) (span : Span) : Emit Value := do
  let x ← e
  let found := env.types.nameOrMark x.ty
  Act.refuseIf (x.ty ≠ Builtin.bool.id)
    ((Cause.typeMismatch s!"condition must be 'bool', found '{found}'").atSpan span)
  pure x.value

/-! ## Forms of expressions -/

/-- A constant. -/
def literal : Literal → ExprValue
  | .bool b => ⟨Builtin.bool.id, .const (.bool b), true⟩
  | .int i => ⟨Builtin.int.id, .const (.int i), true⟩
  | .float x => ⟨Builtin.float.id, .const (.float x), true⟩

/-- Read a variable, which keeps its value. -/
def readVar (symbols : Symbols) (x : Ident) : Emit ExprValue := do
  let slot ← symbols.scopes.resolve x.name x.span
  return ⟨slot.ty, ← Build.load slot.ptr, false⟩

/-- Apply a unary operator. -/
def unary (env : Env) (op : UnaryOp) (span : Span) (operand : Emit ExprValue) :
    Emit ExprValue := do
  let x ← operand
  let d ← env.types.resolve x.ty
  let result ← Emit.located span (d.unary env.types op x.typed)
  Lifetime.release env.types x
  pure (.ofTyped result)

/-- Apply an operator through the type of its left operand.  A sum or a
    product that this type does not have is tried through the type of the
    right operand with the operands swapped; if that fails too, the first
    fault stands. -/
def applyBinary (types : TypeTable) (op : BinaryOp) (l r : Typed) : Emit Typed := do
  let left ← types.resolve l.ty
  try left.binary types op l r
  catch fault =>
    match fault with
    | .located (.noOperator ..) _ =>
      if op.isCommutative ∧ l.ty ≠ r.ty then
        let right ← types.resolve r.ty
        (right.binary types op r l).mapError fun _ => fault
      else throw fault
    | _ => throw fault

/-- Compute two operands and apply an operator that is not logical. -/
def binary (env : Env) (op : BinaryOp) (span : Span) (left right : Emit ExprValue) :
    Emit ExprValue := do
  let l ← left
  let r ← right
  let result ← Emit.located span (applyBinary env.types op l.typed r.typed)
  Lifetime.release env.types l
  Lifetime.release env.types r
  pure (.ofTyped result)

/-- Refuse an operand of a logical operator that is not a boolean. -/
def requireBool (env : Env) (op : BinaryOp) (span : Span) (x : ExprValue) : Emit Unit :=
  let found := env.types.nameOrMark x.ty
  Act.refuseIf (x.ty ≠ Builtin.bool.id)
    ((Cause.typeMismatch
      s!"operands of '{op.symbol}' must be 'bool', found '{found}'").atSpan span)

/-- `a && b` or `a || b`: the second operand is computed in a block of its
    own, which is left out if the first one decides. -/
def logical (env : Env) (op : BinaryOp) (span : Span) (left right : Emit ExprValue) :
    Emit ExprValue := do
  let isAnd := op == .and
  let l ← left
  requireBool env op span l
  let func ← Build.currentFunction
  let leftBlock ← Build.currentBlock
  let rightStart ← Build.appendBlock func (if isAnd then "and.rhs" else "or.rhs")
  let join ← Build.appendBlock func (if isAnd then "and.end" else "or.end")
  Build.condBr l.value (if isAnd then rightStart else join) (if isAnd then join else rightStart)
  Build.moveTo func rightStart
  let r ← right
  requireBool env op span r
  -- The second operand may itself branch, so it need not end where it started.
  let rightEnd ← Build.currentBlock
  Build.br join
  Build.moveTo func join
  let decided : Value := .const (.bool (!isAnd))
  let v ← Build.phi .bool [(decided, leftBlock), (r.value, rightEnd)]
  pure ⟨Builtin.bool.id, v, true⟩

/-- Assign to a variable.  The new value is complete before the old one is
    destroyed; the result is the new value, which the variable keeps. -/
def assign (env : Env) (symbols : Symbols) (target : Ident) (valueSpan : Span)
    (value : Emit ExprValue) : Emit ExprValue := do
  let slot ← symbols.scopes.resolve target.name target.span
  let x ← check env value slot.ty valueSpan s!"assignment to '{slot.name}'"
  let new ← Lifetime.materialize env.types x
  -- `x = x` is safe: the copy is made before the old value goes.
  Lifetime.destroySlot env.types slot
  Build.store new slot.ptr
  pure ⟨slot.ty, new, false⟩

/-- Convert the arguments of a call. -/
def convertArgs : List ExprValue → List Conversion → Emit (List Value)
  | x :: xs, c :: cs => do
    let v ← c.apply x.value
    return v :: (← convertArgs xs cs)
  | _, _ => pure []

/-- Call the best overload of a name.  Arguments are lent to the callee;
    the result is new. -/
def call (env : Env) (symbols : Symbols) (callee : Ident) (span : Span)
    (args : Emit (List ExprValue)) : Emit ExprValue := do
  let xs ← args
  let chosen ←
    symbols.functions.resolve env.types env.options callee.name (xs.map (·.ty)) span
  let entry ← symbols.functions.entry chosen.entry
  let operands ← convertArgs xs chosen.conversions
  let v ← Build.call entry.func operands
  xs.forM (Lifetime.release env.types)
  pure ⟨entry.prototype.ret, v, true⟩

/-- Construct a value of a named type. -/
def construct (env : Env) (ty : TypeName) (span : Span) (args : Emit (List ExprValue)) :
    Emit ExprValue := do
  let id ← env.types.resolveName ty.name ty.span
  let xs ← args
  let d ← env.types.resolve id
  let result ← Emit.located span (d.construct env.types (xs.map (·.typed)))
  xs.forM (Lifetime.release env.types)
  pure (.ofTyped result)

end Lower

/-! ## The tree -/

mutual
/-- Emit the code of an expression. -/
def Expr.lower (env : Env) (symbols : Symbols) : Expr → Emit ExprValue
  | .literal v _ => pure (Lower.literal v)
  | .var x => Lower.readVar symbols x
  | .unary op e span => Lower.unary env op span (e.lower env symbols)
  | .binary op l r span =>
    if op.isLogical then Lower.logical env op span (l.lower env symbols) (r.lower env symbols)
    else Lower.binary env op span (l.lower env symbols) (r.lower env symbols)
  | .assign x e _ => Lower.assign env symbols x e.span (e.lower env symbols)
  | .call f args span => Lower.call env symbols f span (Expr.lowerAll env symbols args)
  | .construct t args span => Lower.construct env t span (Expr.lowerAll env symbols args)

/-- Emit the code of expressions from left to right. -/
def Expr.lowerAll (env : Env) (symbols : Symbols) : List Expr → Emit (List ExprValue)
  | [] => pure []
  | e :: es => do
    let x ← e.lower env symbols
    return x :: (← Expr.lowerAll env symbols es)
end

end Shading
