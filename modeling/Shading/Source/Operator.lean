/-! # Operators of the language

    Every operator belongs to one hook of a type: arithmetic operators have
    a hook each, the six comparisons share one, and the two logical
    operators share the name of a hook that no type has, because they are
    lowered to branches. -/

namespace Shading

/-- The binary operators. -/
inductive BinaryOp where
  | add | sub | mul | div
  | eq | ne | lt | le | gt | ge
  | and | or
  deriving DecidableEq, Repr, Inhabited

namespace BinaryOp

/-- The spelling of the operator in source text. -/
def symbol : BinaryOp → String
  | add => "+"
  | sub => "-"
  | mul => "*"
  | div => "/"
  | eq => "=="
  | ne => "!="
  | lt => "<"
  | le => "<="
  | gt => ">"
  | ge => ">="
  | and => "&&"
  | or => "||"

/-- All binary operators. -/
def all : List BinaryOp := [add, sub, mul, div, eq, ne, lt, le, gt, ge, and, or]

/-- The operator with a given spelling. -/
def ofSymbol? (s : String) : Option BinaryOp := all.find? (·.symbol == s)

/-- Does the operator compare its operands? -/
def isComparison : BinaryOp → Bool
  | eq | ne | lt | le | gt | ge => true
  | _ => false

/-- Is it one of the short-circuit operators? -/
def isLogical : BinaryOp → Bool
  | and | or => true
  | _ => false

/-- Is it one of `+ - * /`? -/
def isArithmetic : BinaryOp → Bool
  | add | sub | mul | div => true
  | _ => false

/-- The operators that may be retried with their operands swapped. -/
def isCommutative : BinaryOp → Bool
  | add | mul => true
  | _ => false

/-- The name of the type hook that implements the operator. -/
def hook : BinaryOp → String
  | add => "op_add"
  | sub => "op_sub"
  | mul => "op_mul"
  | div => "op_div"
  | eq | ne | lt | le | gt | ge => "op_compare"
  | and | or => "op_logical"

end BinaryOp

/-- The unary operators. -/
inductive UnaryOp where
  | neg | not
  deriving DecidableEq, Repr, Inhabited

namespace UnaryOp

/-- The spelling of the operator in source text. -/
def symbol : UnaryOp → String
  | neg => "-"
  | not => "!"

/-- Both unary operators. -/
def all : List UnaryOp := [neg, not]

/-- The operator with a given spelling. -/
def ofSymbol? (s : String) : Option UnaryOp := all.find? (·.symbol == s)

/-- The name of the type hook that implements the operator. -/
def hook : UnaryOp → String
  | neg => "op_neg"
  | not => "op_not"

end UnaryOp

end Shading
