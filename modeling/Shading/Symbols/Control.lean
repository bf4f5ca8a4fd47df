import Shading.IR.Value
import Shading.TypeId

/-! # Enclosing control structures

    What a statement has to know about its surroundings: the function that
    a `return` leaves, and the loop that a `break` or `continue` refers to. -/

namespace Shading

/-- The function whose body is being lowered. -/
structure FunctionFrame where
  name : String
  ret : TypeId
  /-- The depth of the scope that holds the arguments. -/
  scopeDepth : Nat
  deriving DecidableEq, Repr, Inhabited

/-- An enclosing loop. -/
structure LoopFrame where
  continueBlock : IR.BlockId
  breakBlock : IR.BlockId
  /-- The depth of the scope of the loop body. -/
  scopeDepth : Nat
  deriving DecidableEq, Repr, Inhabited

inductive Frame where
  | function (f : FunctionFrame)
  | loop (l : LoopFrame)
  | conditional
  deriving DecidableEq, Repr, Inhabited

/-- The enclosing structures, innermost first. -/
abbrev Control := List Frame

namespace Control

/-- The innermost function. -/
def currentFunction? : Control → Option FunctionFrame
  | [] => none
  | .function f :: _ => some f
  | _ :: rest => currentFunction? rest

/-- The innermost loop of the innermost function. -/
def innermostLoop? : Control → Option LoopFrame
  | [] => none
  | .loop l :: _ => some l
  | .function _ :: _ => none
  | .conditional :: rest => innermostLoop? rest

end Control

end Shading
