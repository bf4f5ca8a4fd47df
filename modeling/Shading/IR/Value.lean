import Shading.Binary32.Text
import Shading.IR.Ty

/-! # Constants and operands -/

namespace Shading.IR

/-- The position of a function in its module. -/
abbrev FuncId := Nat

/-- The position of a block in its function; block zero is the entry. -/
abbrev BlockId := Nat

/-- The number of an instruction of a function, in order of creation. -/
abbrev InstId := Nat

/-- A constant. -/
inductive Const where
  | bool (b : Bool)
  | int (i : Int32)
  | float (x : Binary32)
  /-- The null pointer of a pointer type. -/
  | null (ty : Ty)
  /-- The value of a type whose bytes are all zero. -/
  | zero (ty : Ty)
  deriving DecidableEq, Repr, Inhabited

namespace Const

def ty : Const → Ty
  | bool _ => .bool
  | int _ => .i32
  | float _ => .f32
  | null t | zero t => t

def text : Const → String
  | bool b => if b then "true" else "false"
  | int i => toString i.toInt
  | float x => x.text
  | null _ => "null"
  | zero _ => "zeroinitializer"

/-- Equality of constants, where floats are compared as numbers. -/
def same : Const → Const → Bool
  | float x, float y => x.same y
  | c, d => c == d

end Const

/-- An operand. -/
inductive Value where
  | const (c : Const)
  /-- An incoming parameter of the enclosing function. -/
  | arg (index : Nat)
  /-- The result of an instruction. -/
  | inst (id : InstId)
  /-- The absence of a value, as a call without result leaves it. -/
  | void
  deriving DecidableEq, Repr, Inhabited

namespace Value

def isVoid : Value → Bool
  | void => true
  | _ => false

def text : Value → String
  | const c => c.text
  | arg i => s!"%arg{i}"
  | inst id => s!"%{id}"
  | void => "void"

/-- Equality of operands, where float constants are compared as numbers. -/
def same : Value → Value → Bool
  | const c, const d => c.same d
  | v, w => v == w

end Value

end Shading.IR
