import Shading.IR.Value

/-! # Instructions -/

namespace Shading.IR

/-- Arithmetic on two operands of one type. -/
inductive ArithOp where
  | iadd | isub | imul | sdiv
  | fadd | fsub | fmul | fdiv
  deriving DecidableEq, Repr, Inhabited

namespace ArithOp

def mnemonic : ArithOp → String
  | iadd => "add"
  | isub => "sub"
  | imul => "mul"
  | sdiv => "sdiv"
  | fadd => "fadd"
  | fsub => "fsub"
  | fmul => "fmul"
  | fdiv => "fdiv"

/-- Does it work on floats and vectors of floats? -/
def isFloat : ArithOp → Bool
  | fadd | fsub | fmul | fdiv => true
  | _ => false

/-- The scalar that the operation works on. -/
def scalar (op : ArithOp) : Ty := if op.isFloat then .f32 else .i32

/-- Does the operation work on a type? -/
def accepts (op : ArithOp) (ty : Ty) : Bool := if op.isFloat then ty.isFloatLike else ty == .i32

end ArithOp

/-- Comparison predicates. -/
inductive CmpPred where
  | eq | ne | lt | le | gt | ge
  deriving DecidableEq, Repr, Inhabited

def CmpPred.mnemonic : CmpPred → String
  | .eq => "eq"
  | .ne => "ne"
  | .lt => "lt"
  | .le => "le"
  | .gt => "gt"
  | .ge => "ge"

/-- Conversions between the scalar numbers. -/
inductive CastOp where
  /-- Signed integer to float. -/
  | sitofp
  /-- Float to signed integer, toward zero. -/
  | fptosi
  deriving DecidableEq, Repr, Inhabited

namespace CastOp

def mnemonic : CastOp → String
  | sitofp => "sitofp"
  | fptosi => "fptosi"

/-- The type that is converted. -/
def source : CastOp → Ty
  | sitofp => .i32
  | fptosi => .f32

/-- The type that results. -/
def target : CastOp → Ty
  | sitofp => .f32
  | fptosi => .i32

end CastOp

/-- What an instruction does. -/
inductive Op where
  /-- Reserve a stack slot. -/
  | alloca (ty : Ty) (size : UInt32)
  | load (ptr : Value)
  | store (value ptr : Value)
  | arith (op : ArithOp) (lhs rhs : Value)
  /-- Compare; `float` selects the ordered comparison of floats. -/
  | cmp (pred : CmpPred) (float : Bool) (lhs rhs : Value)
  | neg (value : Value)
  | not (value : Value)
  | cast (op : CastOp) (value : Value)
  /-- Assemble a vector from its lanes. -/
  | vector (lanes : List Value)
  /-- Repeat a float in every lane of a vector. -/
  | splat (value : Value) (lanes : UInt8)
  | call (callee : FuncId) (args : List Value)
  /-- Choose by the block that control came from. -/
  | phi (incoming : List (Value × BlockId))
  | ret (value : Option Value)
  | br (target : BlockId)
  | condBr (cond : Value) (thenBlock elseBlock : BlockId)
  /-- Mark the end of a block that control never reaches. -/
  | unreachable
  deriving DecidableEq, Repr, Inhabited

namespace Op

/-- Does the instruction end its block? -/
def isTerminator : Op → Bool
  | ret _ | br _ | condBr .. | unreachable => true
  | _ => false

/-- The blocks that control may go to next. -/
def successors : Op → List BlockId
  | br target => [target]
  | condBr _ thenBlock elseBlock => [thenBlock, elseBlock]
  | _ => []

def isAlloca : Op → Bool
  | alloca .. => true
  | _ => false

/-- Is it a call of the given function? -/
def calls (callee : FuncId) : Op → Bool
  | call c _ => c == callee
  | _ => false

/-- The operands in order. -/
def operands : Op → List Value
  | alloca .. | br _ | unreachable | ret none => []
  | load p => [p]
  | store v p => [v, p]
  | arith _ l r | cmp _ _ l r => [l, r]
  | neg v | not v | cast _ v | splat v _ | ret (some v) | condBr v _ _ => [v]
  | vector vs | call _ vs => vs
  | phi incoming => incoming.map Prod.fst

end Op

/-- An instruction with the type of its result and a name for readers. -/
structure Inst where
  op : Op
  ty : Ty
  name : Option String
  deriving DecidableEq, Repr, Inhabited

/-- Does the instruction have a result? -/
def Inst.hasResult (i : Inst) : Bool := !i.ty.isVoid

end Shading.IR
