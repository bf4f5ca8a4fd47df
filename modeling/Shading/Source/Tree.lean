import Shading.Binary32
import Shading.Source.Operator
import Shading.Source.Span

/-! # Syntax trees

    The programs that the compiler takes.  Types are named as in the source
    text and looked up during lowering. -/

namespace Shading

/-- A name with its position. -/
structure Ident where
  name : String
  span : Span
  deriving DecidableEq, Repr, Inhabited

/-- A type as written, with its position. -/
structure TypeName where
  name : String
  span : Span
  deriving DecidableEq, Repr, Inhabited

/-! ## Expressions -/

inductive Literal where
  | bool (b : Bool)
  | int (i : Int32)
  | float (x : Binary32)
  deriving DecidableEq, Repr, Inhabited

inductive Expr where
  | literal (value : Literal) (span : Span)
  | var (name : Ident)
  | unary (op : UnaryOp) (operand : Expr) (span : Span)
  | binary (op : BinaryOp) (left right : Expr) (span : Span)
  /-- `target = value` -/
  | assign (target : Ident) (value : Expr) (span : Span)
  /-- `callee(args)` -/
  | call (callee : Ident) (args : List Expr) (span : Span)
  /-- `T(args)` -/
  | construct (ty : TypeName) (args : List Expr) (span : Span)
  deriving Repr, Inhabited

namespace Expr

def span : Expr → Span
  | literal _ s | unary _ _ s | binary _ _ _ s | assign _ _ s | call _ _ s | construct _ _ s => s
  | var x => x.span

/-- The same expression at another position. -/
def withSpan (s : Span) : Expr → Expr
  | literal v _ => literal v s
  | var x => var { x with span := s }
  | unary op e _ => unary op e s
  | binary op l r _ => binary op l r s
  | assign x e _ => assign x e s
  | call f args _ => call f args s
  | construct t args _ => construct t args s

end Expr

/-! ## Statements -/

inductive Stmt where
  /-- An expression for its effects. -/
  | expr (e : Expr) (span : Span)
  /-- `T name;` or `T name = init;` -/
  | decl (ty : TypeName) (name : Ident) (init : Option Expr) (span : Span)
  | ret (value : Option Expr) (span : Span)
  | breakLoop (span : Span)
  | continueLoop (span : Span)
  | block (stmts : List Stmt) (span : Span)
  | ifThen (cond : Expr) (thenStmt : Stmt) (span : Span)
  | ifThenElse (cond : Expr) (thenStmt elseStmt : Stmt) (span : Span)
  | loop (cond : Expr) (body : Stmt) (span : Span)
  deriving Repr, Inhabited

namespace Stmt

def span : Stmt → Span
  | expr _ s | decl _ _ _ s | ret _ s | breakLoop s | continueLoop s | block _ s
  | ifThen _ _ s | ifThenElse _ _ _ s | loop _ _ s => s

/-- The same statement at another position. -/
def withSpan (s : Span) : Stmt → Stmt
  | expr e _ => expr e s
  | decl t x init _ => decl t x init s
  | ret v _ => ret v s
  | breakLoop _ => breakLoop s
  | continueLoop _ => continueLoop s
  | block stmts _ => block stmts s
  | ifThen c t _ => ifThen c t s
  | ifThenElse c t e _ => ifThenElse c t e s
  | loop c b _ => loop c b s

/-- Does the statement itself leave its list? -/
def isTerminator : Stmt → Bool
  | ret .. | breakLoop _ | continueLoop _ => true
  | _ => false

end Stmt

/-! ## Declarations -/

/-- An argument of a declared function. -/
structure ArgDecl where
  name : Ident
  ty : TypeName
  span : Span
  deriving DecidableEq, Repr, Inhabited

/-- The head of a function, with the symbol it links to if it is defined
    elsewhere. -/
structure PrototypeDecl where
  name : Ident
  symbol : Option String
  ret : TypeName
  args : List ArgDecl
  span : Span
  deriving DecidableEq, Repr, Inhabited

/-- A function with its body. -/
structure FunctionDecl where
  prototype : PrototypeDecl
  body : List Stmt
  bodySpan : Span
  /-- A function is where its head is, unless it is said otherwise. -/
  span : Span := prototype.span
  deriving Repr, Inhabited

inductive Item where
  | prototype (decl : PrototypeDecl)
  | function (decl : FunctionDecl)
  deriving Repr, Inhabited

namespace Item

/-- The name of the declared function. -/
def name : Item → String
  | prototype p => p.name.name
  | function f => f.prototype.name.name

def span : Item → Span
  | prototype p => p.span
  | function f => f.span

end Item

end Shading
