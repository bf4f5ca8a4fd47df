import Shading.IR.Flow
import Shading.Lower.Stmt

/-! # Lowering functions

    A function is declared and then given a body.  Its arguments are copied
    into slots of their own.  If its body is refused, the body is dropped
    and only the declaration stays. -/

namespace Shading

open IR (Build)

namespace Lower

/-! ## Declarations -/

/-- Declare a function in the module, or refuse a symbol that is already
    declared differently. -/
def declareSymbol (p : Prototype) (symbol : String) (signature : IR.Signature) :
    Lower IR.FuncId :=
  emit <| (Build.declare symbol signature p.linkage).mapError fun e =>
    match e with
    | .signatureMismatch _ =>
      (Cause.prototypeConflict p.name
        s!"symbol '{symbol}' is already declared with another signature").atSpan p.span
    | other => other.toFault.locate p.span

/-- Declare a function, or find it if it is declared alike. -/
def declare (types : TypeTable) (p : Prototype) : Lower EntryId := do
  let functions := (← symbols).functions
  match ← functions.find p with
  | some id => pure id
  | none =>
    let symbol ← p.irName types
    let signature ← p.irSignature types
    let func ← declareSymbol p symbol signature
    setFunctions (functions.insert p func)
    pure functions.entries.length

/-- Declare a function and return its function in the module. -/
def declareFunction (types : TypeTable) (p : Prototype) : Lower IR.FuncId := do
  let id ← declare types p
  let e ← (← symbols).functions.entry id
  pure e.func

/-- Declare the function of a head in the source. -/
def declarePrototype (env : Env) (decl : PrototypeDecl) : Lower EntryId := do
  declare env.types (← Prototype.ofDecl env.types decl)

/-! ## Bodies -/

/-- Copy an argument into a slot of its own. -/
def bindArgument (env : Env) (param : Param) (index : Nat) : Lower Unit := do
  let shape ← Prototype.shape env.types param.ty param.span
  let ptr ← Build.alloca shape param.name
  let v ← Lifetime.copyValue env.types param.ty (.arg index)
  Build.store v ptr
  let scopes ← (← symbols).scopes.declare param.name param.ty ptr param.span
  setScopes scopes

/-- Close a body whose last block is not ended.  If control cannot get
    there, the block is marked; otherwise a function without result destroys
    its variables and returns, and a function with one lacks a `return`. -/
def implicitExit (env : Env) (p : Prototype) (func : IR.FuncId) (span : Span) : Lower Unit := do
  let ended ← isTerminated
  Act.onlyIf (!ended) do
    let block ← Build.currentBlock
    let f ← Build.function func
    if f.isReachable block then
      Act.refuseIf (p.ret ≠ Builtin.void.id) ((Cause.missingReturn p.name).atSpan span)
      Lifetime.destroySlots env.types ((← symbols).scopes.liveFrom 1)
      Build.ret none
    else Build.unreachable

/-- Check that every path of a finished body returns. -/
def checkBody (p : Prototype) (func : IR.FuncId) (span : Span) : Lower Unit := do
  let f ← Build.function func
  Act.refuseIf (!f.allPathsReturn) ((Cause.missingReturn p.name).atSpan span)
  (f.verify.mapError IR.Error.toFault : Except Fault Unit)

/-- The body of a function. -/
def body (env : Env) (p : Prototype) (func : IR.FuncId) (decl : FunctionDecl) : Lower Unit := do
  p.params.zipIdx.forM fun q => bindArgument env q.1 q.2
  -- The statements share the scope of the arguments and cannot redeclare them.
  Stmt.lowerAll env decl.body
  implicitExit env p func decl.span
  checkBody p func decl.span

/-- The entry block, the scope of the arguments and the frame around a
    body. -/
def frameBody (env : Env) (p : Prototype) (func : IR.FuncId) (decl : FunctionDecl) :
    Lower Unit := do
  let entry ← Build.appendBlock func "entry"
  Build.moveTo func entry
  setScopes (← symbols).scopes.push
  let depth := (← symbols).scopes.depth
  Act.andAlways (withFrame (.function ⟨p.name, p.ret, depth⟩) (body env p func decl))
    fun w => { w with symbols := { w.symbols with scopes := w.symbols.scopes.pop } }

/-- Lower a function definition. -/
def function (env : Env) (decl : FunctionDecl) : Lower IR.FuncId := do
  let p ← Prototype.ofDecl env.types decl.prototype
  Act.refuseIf p.isExternal
    ((Cause.invalidOperation
      s!"external function '{p.name}' cannot have a body").atSpan decl.span)
  let id ← declare env.types p
  let e ← (← symbols).functions.entry id
  let functions ← (← symbols).functions.markDefined id decl.span
  setFunctions functions
  try
    frameBody env p e.func decl
    Build.leave
    pure e.func
  catch fault =>
    -- A refused body is dropped as a whole, and the function may be defined later.
    Build.leave
    setFunctions ((← symbols).functions.markUndefined id)
    Build.clearBody e.func
    throw fault

end Lower

end Shading
