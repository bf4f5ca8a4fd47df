import Shading.Source.Tree

/-! # Trees with numbered positions

    A program that is built by a tool has no source text.  Its nodes get
    positions from a supply: the next line, column one, length one.  Each
    node is numbered after the nodes it consists of, so no two nodes have
    the same position and a diagnostic leads back to its node. -/

namespace Shading

/-- Constructions that number their nodes; the state is the last line used. -/
abbrev Supply := StateM Nat

namespace Supply

/-- The next position. -/
def span : Supply Span := modifyGet fun n => (⟨n + 1, 1, 1⟩, n + 1)

def ident (name : String) : Supply Ident := return ⟨name, ← span⟩

def typeName (name : String) : Supply TypeName := return ⟨name, ← span⟩

/-! ## Expressions -/

def literal (v : Literal) : Supply Expr := return .literal v (← span)

def var (name : String) : Supply Expr := return .var (← ident name)

def unary (op : UnaryOp) (e : Expr) : Supply Expr := return .unary op e (← span)

def binary (op : BinaryOp) (l r : Expr) : Supply Expr := return .binary op l r (← span)

def assign (target : String) (e : Expr) : Supply Expr := do
  let x ← ident target
  return .assign x e (← span)

def call (callee : String) (args : List Expr) : Supply Expr := do
  let f ← ident callee
  return .call f args (← span)

def construct (ty : String) (args : List Expr) : Supply Expr := do
  let t ← typeName ty
  return .construct t args (← span)

/-! ## Statements -/

def exprStmt (e : Expr) : Supply Stmt := return .expr e (← span)

def decl (ty name : String) (init : Option Expr) : Supply Stmt := do
  let t ← typeName ty
  let x ← ident name
  return .decl t x init (← span)

def ret (value : Option Expr) : Supply Stmt := return .ret value (← span)

def breakLoop : Supply Stmt := return .breakLoop (← span)

def continueLoop : Supply Stmt := return .continueLoop (← span)

def block (stmts : List Stmt) : Supply Stmt := return .block stmts (← span)

def ifThen (c : Expr) (t : Stmt) : Supply Stmt := return .ifThen c t (← span)

def ifThenElse (c : Expr) (t e : Stmt) : Supply Stmt := return .ifThenElse c t e (← span)

def loop (c : Expr) (body : Stmt) : Supply Stmt := return .loop c body (← span)

/-! ## Declarations -/

def arg (name ty : String) : Supply ArgDecl := do
  let x ← ident name
  let t ← typeName ty
  return ⟨x, t, ← span⟩

def prototype (name : String) (symbol : Option String) (ret : String) (args : List ArgDecl) :
    Supply PrototypeDecl := do
  let f ← ident name
  let t ← typeName ret
  return ⟨f, symbol, t, args, ← span⟩

def function (prototype : PrototypeDecl) (body : List Stmt) : Supply FunctionDecl :=
  return ⟨prototype, body, ← span, prototype.span⟩

end Supply

end Shading
