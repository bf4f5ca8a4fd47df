import Shading.Lower.Expr

/-! # Lowering statements

    A statement emits code, declares variables and leaves the enclosing
    scopes and control structures as it found them.  Statements that follow
    the end of a block are not emitted.  As with expressions, each form of
    statement is an action made from the actions of its parts. -/

namespace Shading

open IR (Build)

namespace Lower

/-! ## Lists and scopes -/

/-- What happens to a statement behind the end of a block: a warning, or a
    fault if the options say so. -/
def dropUnreachable (env : Env) (span : Span) : Lower Unit := do
  let fault := Cause.unreachableCode.atSpan span
  match env.options.unreachable with
  | .error => throw fault
  | .warn =>
    let function := (← symbols).control.currentFunction?.map (·.name)
    report ⟨.warning, fault, function⟩

/-- Run the lowering of a statement, unless the current block is ended. -/
def unlessEnded (env : Env) (span : Span) (x : Lower Unit) : Lower Unit := do
  if ← isTerminated then dropUnreachable env span else x

/-- Run an action in a scope of its own.  If control can run off its end,
    the variables of the scope are destroyed there, the last one first. -/
def inScope (env : Env) (x : Lower Unit) : Lower Unit := do
  let outer := (← symbols).scopes
  setScopes outer.push
  let slots ← Act.andAlways
    (do x
        return (← symbols).scopes.innermost)
    fun w => { w with symbols := { w.symbols with scopes := w.symbols.scopes.pop } }
  let ended ← isTerminated
  Act.onlyIf (!ended) (Lifetime.destroySlots env.types slots)

/-! ## Forms of statements -/

/-- Compute an expression and drop its result. -/
def exprStmt (env : Env) (e : Expr) : Lower Unit := do
  let s ← symbols
  let x ← e.lower env s
  Lifetime.release env.types x

/-- The first value of a declared variable. -/
def initialValue (env : Env) (ty : TypeId) (name : String) (init : Option Expr) (span : Span) :
    Lower IR.Value := do
  match init with
  | some e =>
    let s ← symbols
    let x ← check env (e.lower env s) ty e.span s!"initializer of '{name}'"
    Lifetime.materialize env.types x
  | none =>
    let d ← env.types.resolve ty
    return (← Emit.located span d.defaultValue).value

/-- Declare a variable.  Its first value is computed before the name is
    declared, so the name still has its outer meaning there. -/
def varDecl (env : Env) (ty : TypeName) (name : Ident) (init : Option Expr) (span : Span) :
    Lower Unit := do
  let id ← env.types.resolveName ty.name ty.span
  Act.refuseIf (id = Builtin.void.id)
    ((Cause.invalidOperation
      s!"variable '{name.name}' cannot have type 'void'").atSpan ty.span)
  (← symbols).scopes.checkDeclarable name.name name.span
  let shape ← Prototype.shape env.types id ty.span
  let v ← initialValue env id name.name init span
  let ptr ← Build.alloca shape name.name
  Build.store v ptr
  let scopes ← (← symbols).scopes.declare name.name id ptr name.span
  setScopes scopes

/-- The value of a `return`, which the caller will own.  It must be there
    exactly if the function has a result. -/
def returnValue (env : Env) (frame : FunctionFrame) (value : Option Expr) (span : Span) :
    Lower (Option IR.Value) := do
  match value with
  | none =>
    let wanted := env.types.nameOrMark frame.ret
    Act.refuseIf (frame.ret ≠ Builtin.void.id)
      ((Cause.typeMismatch
        s!"function '{frame.name}' must return a value of type '{wanted}'").atSpan span)
    pure none
  | some e =>
    Act.refuseIf (frame.ret = Builtin.void.id)
      ((Cause.typeMismatch
        s!"void function '{frame.name}' cannot return a value").atSpan e.span)
    let s ← symbols
    let x ← check env (e.lower env s) frame.ret e.span s!"return value of '{frame.name}'"
    return some (← Lifetime.materialize env.types x)

/-- Leave the function: compute the result, then destroy every variable of
    the function. -/
def returnStmt (env : Env) (value : Option Expr) (span : Span) : Lower Unit := do
  match (← symbols).control.currentFunction? with
  | none => throw ((Cause.internal "return outside of a function").atSpan span)
  | some frame =>
    let v ← returnValue env frame value span
    Lifetime.destroySlots env.types ((← symbols).scopes.liveFrom frame.scopeDepth)
    Build.ret v

/-- Leave the loop body: destroy its variables and go where the jump goes. -/
def jump (env : Env) (keyword : String) (target : LoopFrame → IR.BlockId) (span : Span) :
    Lower Unit := do
  match (← symbols).control.innermostLoop? with
  | none => throw ((Cause.jumpOutsideLoop keyword).atSpan span)
  | some frame =>
    Lifetime.destroySlots env.types ((← symbols).scopes.liveFrom frame.scopeDepth)
    Build.br (target frame)

/-- Go to a block unless the current one is ended. -/
def fallInto (target : IR.BlockId) : Lower Unit := do
  let ended ← isTerminated
  Act.onlyIf (!ended) (Build.br target)

/-- Compute a condition. -/
def branchCondition (env : Env) (cond : Expr) : Lower IR.Value := do
  let s ← symbols
  condition env (cond.lower env s) cond.span

/-- A branch or loop body in its own scope. -/
def nested (env : Env) (span : Span) (x : Lower Unit) : Lower Unit :=
  inScope env (unlessEnded env span x)

/-- A conditional without alternative always joins behind it. -/
def ifThen (env : Env) (cond : Expr) (thenBranch : Lower Unit) : Lower Unit := do
  let c ← branchCondition env cond
  let func ← Build.currentFunction
  let thenBlock ← Build.appendBlock func "then"
  let join ← Build.appendBlock func "if.end"
  Build.condBr c thenBlock join
  withFrame .conditional do
    Build.moveTo func thenBlock
    thenBranch
    fallInto join
  Build.moveTo func join

/-- Lower a branch and return the block in which control leaves it, if it
    does. -/
def branch (func : IR.FuncId) (start : IR.BlockId) (x : Lower Unit) :
    Lower (Option IR.BlockId) := do
  Build.moveTo func start
  x
  if ← isTerminated then pure none else some <$> Build.currentBlock

/-- A conditional with an alternative joins only if one of the branches can
    be left; otherwise the builder stays in an ended block. -/
def ifThenElse (env : Env) (cond : Expr) (thenBranch elseBranch : Lower Unit) : Lower Unit := do
  let c ← branchCondition env cond
  let func ← Build.currentFunction
  let thenBlock ← Build.appendBlock func "then"
  let elseBlock ← Build.appendBlock func "else"
  Build.condBr c thenBlock elseBlock
  let ends ← withFrame .conditional do
    let a ← branch func thenBlock thenBranch
    let b ← branch func elseBlock elseBranch
    return a.toList ++ b.toList
  -- The join comes last, because it is made only if control reaches it.
  Act.onlyIf (ends ≠ []) do
    let join ← Build.appendBlock func "if.end"
    ends.forM fun block => do
      Build.moveTo func block
      Build.br join
    Build.moveTo func join

/-- Enter a loop body if its condition holds, and leave the loop otherwise.
    A condition that is the constant `true` never leaves it. -/
def enterBody (c : IR.Value) (bodyBlock endBlock : IR.BlockId) : Build Unit :=
  if c = .const (.bool true) then Build.br bodyBlock else Build.condBr c bodyBlock endBlock

/-- A loop tests its condition before each turn. -/
def loop (env : Env) (cond : Expr) (body : Lower Unit) : Lower Unit := do
  let func ← Build.currentFunction
  let condBlock ← Build.appendBlock func "while.cond"
  let bodyBlock ← Build.appendBlock func "while.body"
  let endBlock ← Build.appendBlock func "while.end"
  Build.br condBlock
  Build.moveTo func condBlock
  let c ← branchCondition env cond
  enterBody c bodyBlock endBlock
  -- The body will stand in a scope of its own, one deeper than this one.
  let depth := (← symbols).scopes.depth
  withFrame (.loop ⟨condBlock, endBlock, depth + 1⟩) do
    Build.moveTo func bodyBlock
    body
    fallInto condBlock
  Build.moveTo func endBlock

end Lower

/-! ## The tree -/

mutual
/-- Emit the code of a statement. -/
def Stmt.lower (env : Env) : Stmt → Lower Unit
  | .expr e _ => Lower.exprStmt env e
  | .decl ty name init span => Lower.varDecl env ty name init span
  | .ret value span => Lower.returnStmt env value span
  | .breakLoop span => Lower.jump env "break" LoopFrame.breakBlock span
  | .continueLoop span => Lower.jump env "continue" LoopFrame.continueBlock span
  | .block stmts _ => Lower.inScope env (Stmt.lowerAll env stmts)
  | .ifThen c t _ => Lower.ifThen env c (Lower.nested env t.span (t.lower env))
  | .ifThenElse c t e _ =>
    Lower.ifThenElse env c (Lower.nested env t.span (t.lower env))
      (Lower.nested env e.span (e.lower env))
  | .loop c b _ => Lower.loop env c (Lower.nested env b.span (b.lower env))

/-- Emit the code of statements in the current scope.  What follows the end
    of a block is dropped. -/
def Stmt.lowerAll (env : Env) : List Stmt → Lower Unit
  | [] => pure ()
  | s :: rest => Lower.unlessEnded env s.span do
    s.lower env
    Stmt.lowerAll env rest
end

end Shading
