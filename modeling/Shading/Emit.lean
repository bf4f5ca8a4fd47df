import Shading.Fault
import Shading.IR.Builder
import Shading.TypeId

/-! # Emitting code

    Lowering emits instructions through a builder and reports faults of the
    language.  A refusal of the builder itself becomes a fault without
    position. -/

namespace Shading

/-- Actions that emit code and may report a fault. -/
abbrev Emit := Act IR.Builder Fault

instance : MonadLift IR.Build Emit := ⟨Act.mapError IR.Error.toFault⟩

/-- A value with its language type. -/
structure Typed where
  ty : TypeId
  value : IR.Value
  deriving DecidableEq, Repr, Inhabited

namespace Emit

/-- Supply a position to the faults of an action. -/
def located {α : Type} (span : Span) (x : Emit α) : Emit α := x.mapError (·.locate span)

/-- Declare a function of the runtime, once for each module. -/
def intrinsic (name : String) (params : List IR.Ty) (ret : IR.Ty) : Emit IR.FuncId :=
  IR.Build.declare name ⟨params, ret⟩ .external

/-- Declare a function of the runtime if needed, and call it. -/
def callIntrinsic (name : String) (params : List IR.Ty) (ret : IR.Ty) (args : List IR.Value) :
    Emit IR.Value := do
  let callee ← intrinsic name params ret
  IR.Build.call callee args

end Emit

end Shading
