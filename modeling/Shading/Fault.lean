import Shading.Source.Span

/-! # Faults

    A fault is why a program, or one step of its compilation, was refused.
    Most faults carry the position of the construct at fault.  A fault that
    arises below the source level starts without a position, and the first
    construct on the way up that has one supplies it.  Only a malformed
    instruction has no position at all. -/

namespace Shading

/-- What was wrong. -/
inductive Cause where
  | typeMismatch (message : String)
  | noOperator (op left right : String)
  | noUnaryOperator (op operand : String)
  | notConstructible (name : String)
  | invalidOperation (message : String)
  | unknownType (name : String)
  | unknownFunction (name : String)
  | unknownVariable (name : String)
  | noMatchingOverload (name args : String)
  | ambiguousOverload (name candidates : String)
  | prototypeConflict (name message : String)
  | functionRedefinition (name : String)
  | variableRedeclaration (name : String) (earlier : Span)
  | missingReturn (name : String)
  | unreachableCode
  | jumpOutsideLoop (keyword : String)
  | noRepresentation (name : String)
  | internal (message : String)
  deriving DecidableEq, Repr, Inhabited

/-- The broad kind of a fault. -/
inductive Kind where
  | type | resolution | redeclaration | control | internal
  deriving DecidableEq, Repr, Inhabited

/-- The name of a kind in diagnostics. -/
def Kind.text : Kind → String
  | .type => "type error"
  | .resolution => "resolution error"
  | .redeclaration => "redeclaration error"
  | .control => "control error"
  | .internal => "internal error"

namespace Cause

/-- The kind that a cause belongs to. -/
def kind : Cause → Kind
  | typeMismatch _ | noOperator .. | noUnaryOperator .. | notConstructible _
  | invalidOperation _ | unknownType _ => .type
  | unknownFunction _ | unknownVariable _ | noMatchingOverload .. | ambiguousOverload .. =>
    .resolution
  | prototypeConflict .. | functionRedefinition _ | variableRedeclaration .. => .redeclaration
  | missingReturn _ | unreachableCode | jumpOutsideLoop _ => .control
  | noRepresentation _ | internal _ => .internal

/-- The wording of a cause, without its position. -/
def message : Cause → String
  | typeMismatch m => m
  | noOperator op left right => s!"no operator '{op}' for types '{left}' and '{right}'"
  | noUnaryOperator op operand => s!"no operator '{op}' for type '{operand}'"
  | notConstructible name => s!"type '{name}' cannot be constructed"
  | invalidOperation m => m
  | unknownType name => s!"unknown type '{name}'"
  | unknownFunction name => s!"unknown function '{name}'"
  | unknownVariable name => s!"unknown variable '{name}'"
  | noMatchingOverload name args => s!"no matching overload for '{name}({args})'"
  | ambiguousOverload name candidates =>
    s!"ambiguous call to '{name}': candidates are {candidates}"
  | prototypeConflict name m => s!"conflicting declaration of '{name}': {m}"
  | functionRedefinition name => s!"function '{name}' already has a body"
  | variableRedeclaration name earlier =>
    s!"variable '{name}' redeclared (originally declared at {earlier.text})"
  | missingReturn name => s!"not all code paths of '{name}' return a value"
  | unreachableCode => "unreachable code"
  | jumpOutsideLoop keyword => s!"'{keyword}' outside of a loop"
  | noRepresentation name => s!"type '{name}' has no runtime representation"
  | internal m => s!"internal error: {m}"

end Cause

/-- A refusal: a cause at a position, or a malformed instruction. -/
inductive Fault where
  | located (cause : Cause) (span : Span)
  | malformed (message : String)
  deriving DecidableEq, Repr, Inhabited

namespace Fault

/-- The position of a fault; a malformed instruction has the unknown one. -/
def span : Fault → Span
  | located _ s => s
  | malformed _ => .unknown

/-- The kind of a fault. -/
def kind : Fault → Kind
  | located c _ => c.kind
  | malformed _ => .internal

/-- The whole wording, with the position in front if there can be one. -/
def message : Fault → String
  | located c s => s!"at {s.text}: {c.message}"
  | malformed m => s!"internal error: {m}"

/-- Supply a position to a fault that has none yet. -/
def locate (s : Span) : Fault → Fault
  | located c t => if t.isUnknown then located c s else located c t
  | malformed m => malformed m

@[simp] theorem locate_malformed (s : Span) (m : String) :
    (malformed m).locate s = malformed m := rfl

@[simp] theorem kind_locate (s : Span) (f : Fault) : (f.locate s).kind = f.kind := by
  cases f with
  | malformed m => rfl
  | located c t =>
    simp only [locate]
    split <;> rfl

end Fault

namespace Cause

/-- The fault of a cause whose position is not known yet. -/
def unplaced (c : Cause) : Fault := .located c .unknown

/-- The fault of a cause at a position. -/
def atSpan (c : Cause) (s : Span) : Fault := .located c s

end Cause

end Shading
