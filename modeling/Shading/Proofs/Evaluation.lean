import Shading.Proofs.Structured
import Shading.Source.Tree

/-! # The meaning of programs over integers and booleans

    Programs that use no other types are evaluated directly on the tree.
    Operands are evaluated from left to right, `&&` and `||` skip their right
    operand where the left one decides, and a name means the innermost
    variable that bears it.  A declaration gives its variable a value each
    time it is executed.

    Only loops can go on forever, so evaluation is given a number of turns
    that each loop may take. -/

namespace Shading

open IR (Jump Outcome)

/-! ## Values -/

/-- An integer or a boolean. -/
inductive Scalar where
  | int (i : Int32)
  | bool (b : Bool)
  deriving DecidableEq, Repr, Inhabited

namespace Scalar

/-- The name of its type in source text. -/
def typeName : Scalar → String
  | int _ => "int"
  | bool _ => "bool"

/-- The value of a variable that is declared without one. -/
def default? (typeName : String) : Option Scalar :=
  if typeName = "int" then some (int 0) else if typeName = "bool" then some (bool false) else none

/-- Division rounds toward zero.  There is no quotient by zero, and none that
    is too large for an integer. -/
def quotient? (a b : Int32) : Option Int32 :=
  if b = 0 ∨ a = Int32.minValue ∧ b = -1 then none else some (a / b)

end Scalar

def UnaryOp.eval? : UnaryOp → Scalar → Option Scalar
  | .neg, .int a => some (.int (-a))
  | .not, .bool a => some (.bool !a)
  | _, _ => none

/-- Arithmetic and comparisons; the logical operators are not computed from
    two values. -/
def BinaryOp.eval? : BinaryOp → Scalar → Scalar → Option Scalar
  | .add, .int a, .int b => some (.int (a + b))
  | .sub, .int a, .int b => some (.int (a - b))
  | .mul, .int a, .int b => some (.int (a * b))
  | .div, .int a, .int b => (Scalar.quotient? a b).map .int
  | .lt, .int a, .int b => some (.bool (a < b))
  | .le, .int a, .int b => some (.bool (a ≤ b))
  | .gt, .int a, .int b => some (.bool (b < a))
  | .ge, .int a, .int b => some (.bool (b ≤ a))
  | .eq, .int a, .int b => some (.bool (a == b))
  | .ne, .int a, .int b => some (.bool (a != b))
  | .eq, .bool a, .bool b => some (.bool (a == b))
  | .ne, .bool a, .bool b => some (.bool (a != b))
  | _, _, _ => none

/-! ## Variables -/

/-- The variables of one scope, the latest first. -/
abbrev Bindings := List (String × Scalar)

namespace Bindings

def get? (scope : Bindings) (x : String) : Option Scalar := (scope.find? (·.1 == x)).map (·.2)

/-- Give a variable another value. -/
def set (x : String) (v : Scalar) : Bindings → Bindings
  | [] => []
  | b :: rest => if b.1 == x then (b.1, v) :: rest else b :: set x v rest

end Bindings

/-- The variables of the open scopes, the innermost scope first. -/
abbrev Variables := List Bindings

namespace Variables

/-- The value of the innermost variable of a name. -/
def get? (vars : Variables) (x : String) : Option Scalar := vars.findSome? (·.get? x)

/-- Give the innermost variable of a name another value. -/
def set (x : String) (v : Scalar) : Variables → Variables
  | [] => []
  | scope :: outer =>
    if (scope.get? x).isSome then scope.set x v :: outer else scope :: set x v outer

/-- A new variable of the innermost scope. -/
def declare (x : String) (v : Scalar) : Variables → Variables
  | [] => []
  | scope :: outer => ((x, v) :: scope) :: outer

/-- The scope of the arguments of a function. -/
def ofArguments (names : List String) (args : List Scalar) : Variables := [(names.zip args).reverse]

end Variables

/-! ## Evaluation -/

/-- The value of an expression and the variables after it. -/
def Expr.eval? : Expr → Variables → Option (Scalar × Variables)
  | .literal (.int i) _, vars => some (.int i, vars)
  | .literal (.bool b) _, vars => some (.bool b, vars)
  | .var x, vars => (vars.get? x.name).map (·, vars)
  | .unary op e _, vars =>
    (e.eval? vars).bind fun (x, vars) => (op.eval? x).map (·, vars)
  | .binary op a b _, vars =>
    (a.eval? vars).bind fun (x, vars) =>
      if op.isLogical then
        match x with
        | .bool p =>
          -- The left operand decides unless it is neutral for the operator.
          if p = (op == .and) then
            (b.eval? vars).bind fun
              | (.bool q, vars) => some (.bool q, vars)
              | (.int _, _) => none
          else some (.bool p, vars)
        | .int _ => none
      else (b.eval? vars).bind fun (y, vars) => (op.eval? x y).map (·, vars)
  | .assign x e _, vars =>
    (e.eval? vars).bind fun (v, vars) => (vars.get? x.name).map fun _ => (v, vars.set x.name v)
  | _, _ => none

/-- The first value of a declared variable, and the variables after it. -/
def Stmt.firstValue? (ty : TypeName) (init : Option Expr) (vars : Variables) :
    Option (Scalar × Variables) :=
  match init with
  | some e => e.eval? vars
  | none => (Scalar.default? ty.name).map (·, vars)

/-- Run in a scope of its own, which is closed however it is left. -/
def Variables.inScope (body : Variables → Outcome Variables (Option Scalar)) (vars : Variables) :
    Outcome Variables (Option Scalar) :=
  match body ([] :: vars) with
  | .done vars => .done vars.tail
  | .jumped j vars => .jumped j vars.tail
  | .returned r => .returned r
  | .stuck => .stuck
  | .timeout => .timeout

/-- At most so many turns of a loop. -/
def Variables.turns (cond : Variables → Option (Scalar × Variables))
    (body : Variables → Outcome Variables (Option Scalar)) :
    Nat → Variables → Outcome Variables (Option Scalar)
  | 0, _ => .timeout
  | k + 1, vars =>
    match cond vars with
    | some (.bool true, vars) => (body vars).endTurn (turns cond body k)
    | some (.bool false, vars) => .done vars
    | _ => .stuck

mutual

/-- What a statement does, where each loop may take `n` turns. -/
def Stmt.eval (n : Nat) : Stmt → Variables → Outcome Variables (Option Scalar)
  | .expr e _, vars => .ofOption ((e.eval? vars).map (·.2))
  | .decl ty x init _, vars =>
    .ofOption ((Stmt.firstValue? ty init vars).map fun (v, vars) => vars.declare x.name v)
  | .ret none _, _ => .returned none
  | .ret (some e) _, vars =>
    match e.eval? vars with
    | some (v, _) => .returned (some v)
    | none => .stuck
  | .breakLoop _, vars => .jumped .breakLoop vars
  | .continueLoop _, vars => .jumped .continueLoop vars
  | .block stmts _, vars => Variables.inScope (Stmt.evalAll n stmts) vars
  | .ifThen c t _, vars =>
    match c.eval? vars with
    | some (.bool true, vars) => Variables.inScope (t.eval n) vars
    | some (.bool false, vars) => .done vars
    | _ => .stuck
  | .ifThenElse c t e _, vars =>
    match c.eval? vars with
    | some (.bool true, vars) => Variables.inScope (t.eval n) vars
    | some (.bool false, vars) => Variables.inScope (e.eval n) vars
    | _ => .stuck
  | .loop c b _, vars => Variables.turns c.eval? (Variables.inScope (b.eval n)) n vars

/-- Statements one after the other. -/
def Stmt.evalAll (n : Nat) : List Stmt → Variables → Outcome Variables (Option Scalar)
  | [], vars => .done vars
  | s :: rest, vars => (s.eval n vars).andThen (Stmt.evalAll n rest)

end

/-- The end of a body.  A function may run off its end only if it has no
    result, and there is no loop to jump out of. -/
def FunctionDecl.finish (decl : FunctionDecl) :
    Outcome Variables (Option Scalar) → Outcome Variables (Option Scalar)
  | .done _ => if decl.prototype.ret.name = "void" then .returned none else .stuck
  | .jumped _ _ => .stuck
  | o => o

/-- What a function does with its arguments. -/
def FunctionDecl.eval (n : Nat) (decl : FunctionDecl) (args : List Scalar) :
    Outcome Variables (Option Scalar) :=
  decl.finish (Stmt.evalAll n decl.body
    (Variables.ofArguments (decl.prototype.args.map (·.name.name)) args))

/-! ## The programs -/

/-- Is it the name of one of the two types? -/
def TypeName.isScalar (ty : TypeName) : Bool := ty.name == "int" || ty.name == "bool"

/-- Does an expression use integers and booleans only? -/
def Expr.isScalar : Expr → Bool
  | .literal (.float _) _ => false
  | .literal _ _ => true
  | .var _ => true
  | .unary _ e _ => e.isScalar
  | .binary _ a b _ => a.isScalar && b.isScalar
  | .assign _ e _ => e.isScalar
  | .call .. | .construct .. => false

mutual

def Stmt.isScalar : Stmt → Bool
  | .expr e _ => e.isScalar
  | .decl ty _ init _ => ty.isScalar && init.all Expr.isScalar
  | .ret value _ => value.all Expr.isScalar
  | .breakLoop _ | .continueLoop _ => true
  | .block stmts _ => Stmt.areScalar stmts
  | .ifThen c t _ => c.isScalar && t.isScalar
  | .ifThenElse c t e _ => c.isScalar && t.isScalar && e.isScalar
  | .loop c b _ => c.isScalar && b.isScalar

def Stmt.areScalar : List Stmt → Bool
  | [] => true
  | s :: rest => s.isScalar && Stmt.areScalar rest

end

/-- Does a function use integers and booleans only? -/
def FunctionDecl.isScalar (decl : FunctionDecl) : Bool :=
  decl.prototype.args.all (·.ty.isScalar) &&
    (decl.prototype.ret.isScalar || decl.prototype.ret.name == "void") && Stmt.areScalar decl.body

end Shading
