import Shading.Fault
import Shading.IR.Ty

/-! # Refusals of the instruction builder -/

namespace Shading.IR

/-- Why an instruction or a declaration was refused. -/
inductive Error where
  | noInsertPoint
  | blockTerminated (label : String)
  | missingTerminator (label : String)
  | typeMismatch (context : String) (expected found : Ty)
  | notAPointer (context : String) (found : Ty)
  | argumentCount (function : String) (expected got : Nat)
  | signatureMismatch (name : String)
  | unknownFunction (id : Nat)
  | unknownValue (id : Nat)
  | unknownArgument (function : String) (index : Nat)
  | unsized (ty : Ty)
  deriving DecidableEq, Repr, Inhabited

def Error.message : Error → String
  | .noInsertPoint => "no insertion point"
  | .blockTerminated label => s!"block '{label}' is already terminated"
  | .missingTerminator label => s!"block '{label}' has no terminator"
  | .typeMismatch context expected found =>
    s!"{context}: expected '{expected.text}', found '{found.text}'"
  | .notAPointer context found => s!"{context}: '{found.text}' is not a pointer"
  | .argumentCount function expected got =>
    s!"call to '{function}' expects {expected} argument(s), got {got}"
  | .signatureMismatch name => s!"function '{name}' redeclared with a different signature"
  | .unknownFunction id => s!"unknown function id {id}"
  | .unknownValue id => s!"unknown value %{id}"
  | .unknownArgument function index => s!"function '{function}' has no argument {index}"
  | .unsized ty => s!"cannot allocate unsized type '{ty.text}'"

/-- A malformed instruction is a fault of the compiler, without position. -/
def Error.toFault (e : Error) : Fault := .malformed e.message

end Shading.IR
