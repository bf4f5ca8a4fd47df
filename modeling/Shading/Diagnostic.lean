import Shading.Fault

/-! # Diagnostics

    A function that is refused does not stop the rest of its unit: its fault
    is written down as a diagnostic.  Warnings use the same vocabulary and
    go into the same list, in the order in which they arise. -/

namespace Shading

/-- How serious a diagnostic is. -/
inductive Severity where
  | error | warning
  deriving DecidableEq, Repr, Inhabited

def Severity.text : Severity → String
  | .error => "error"
  | .warning => "warning"

/-- A fault with its severity and the function it arose in, if any. -/
structure Diagnostic where
  severity : Severity
  fault : Fault
  function : Option String
  deriving DecidableEq, Repr, Inhabited

namespace Diagnostic

def isError (d : Diagnostic) : Bool := d.severity == .error

def isWarning (d : Diagnostic) : Bool := d.severity == .warning

/-- The line that is shown for a diagnostic. -/
def text (d : Diagnostic) : String :=
  match d.function with
  | some f => s!"{d.severity.text} in '{f}': {d.fault.message}"
  | none => s!"{d.severity.text}: {d.fault.message}"

end Diagnostic

/-- Diagnostics in the order in which they arose. -/
abbrev Diagnostics := List Diagnostic

namespace Diagnostics

def errors (ds : Diagnostics) : Diagnostics := ds.filter (·.isError)

def warnings (ds : Diagnostics) : Diagnostics := ds.filter (·.isWarning)

def hasErrors (ds : Diagnostics) : Bool := ds.any (·.isError)

def hasWarnings (ds : Diagnostics) : Bool := ds.any (·.isWarning)

/-- One line for each diagnostic. -/
def text (ds : Diagnostics) : String := String.join (ds.map fun d => d.text ++ "\n")

end Diagnostics

end Shading
