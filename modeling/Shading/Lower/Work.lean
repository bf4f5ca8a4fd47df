import Shading.Diagnostic
import Shading.Symbols.Control
import Shading.Symbols.Overload
import Shading.Symbols.Scopes

/-! # The state of a compilation

    Functions stay known from one item to the next and from one unit to the
    next.  Variables and control structures belong to the function that is
    being lowered and are gone after it. -/

namespace Shading

/-- What names mean, and what encloses the current statement. -/
structure Symbols where
  scopes : Scopes
  functions : Functions
  control : Control
  deriving DecidableEq, Repr, Inhabited

namespace Symbols

def empty : Symbols := ⟨.empty, .empty, []⟩

/-- Forget what belongs to a single function. -/
def reset (s : Symbols) : Symbols := { s with scopes := .empty, control := [] }

end Symbols

/-- What does not change during a compilation. -/
structure Env where
  types : TypeTable
  options : Options
  deriving Inhabited

/-- The built-in types with default options. -/
def Env.default : Env := ⟨.builtins, .default⟩

/-- The state of a compilation. -/
structure Work where
  builder : IR.Builder
  symbols : Symbols
  diagnostics : Diagnostics
  deriving DecidableEq, Repr, Inhabited

/-- Actions of a compilation. -/
abbrev Lower := Act Work Fault

namespace Lower

/-- Emit code as part of a compilation. -/
def emit {α : Type} (x : Emit α) : Lower α :=
  x.onPart Work.builder fun w b => { w with builder := b }

instance : MonadLift Emit Lower := ⟨emit⟩

instance : MonadLift IR.Build Lower := ⟨fun x => emit (x.mapError IR.Error.toFault)⟩

def symbols : Lower Symbols := return (← get).symbols

/-- Replace the symbols. -/
def setSymbols (s : Symbols) : Lower Unit := modify fun w => { w with symbols := s }

/-- Replace the scopes. -/
def setScopes (s : Scopes) : Lower Unit :=
  modify fun w => { w with symbols := { w.symbols with scopes := s } }

/-- Replace the declared functions. -/
def setFunctions (t : Functions) : Lower Unit :=
  modify fun w => { w with symbols := { w.symbols with functions := t } }

/-- Note a diagnostic. -/
def report (d : Diagnostic) : Lower Unit :=
  modify fun w => { w with diagnostics := w.diagnostics ++ [d] }

/-- Is the current block already ended? -/
def isTerminated : Lower Bool := return (← get).builder.isTerminated

/-- Run an action inside a control structure. -/
def withFrame {α : Type} (frame : Frame) (x : Lower α) : Lower α := do
  modify fun w => { w with symbols := { w.symbols with control := frame :: w.symbols.control } }
  Act.andAlways x fun w =>
    { w with symbols := { w.symbols with control := w.symbols.control.tail } }

end Lower

end Shading
