import Shading.Fault
import Shading.Index
import Shading.IR.Value
import Shading.TypeId

/-! # Variables and their scopes

    Scopes nest, and a name means the variable of the innermost scope that
    declares it.  Within one scope a name is declared at most once, and an
    index of the names finds it. -/

namespace Shading

/-- A variable and the stack slot that holds it. -/
structure Slot where
  name : String
  ty : TypeId
  /-- The address of the slot. -/
  ptr : IR.Value
  span : Span
  /-- How many scopes were open at the declaration. -/
  depth : Nat
  deriving DecidableEq, Repr, Inhabited

/-- The variables of one scope in the order of their declaration, and an
    index of their names. -/
structure Scope where
  slots : List Slot
  /-- Where the variable with a name stands. -/
  byName : Index String Nat
  indexed : byName = .positions (slots.map (·.name))
  deriving DecidableEq, Repr

namespace Scope

def empty : Scope := ⟨[], .empty, rfl⟩

instance : Inhabited Scope := ⟨empty⟩

/-- The variable with a name. -/
def find? (scope : Scope) (name : String) : Option Slot :=
  (scope.byName.get? name).bind (scope.slots[·]?)

/-- Add a variable. -/
def declare (scope : Scope) (slot : Slot) : Scope where
  slots := scope.slots ++ [slot]
  byName := scope.byName.insert slot.name scope.slots.length
  indexed := by
    rw [List.map_append, List.map_singleton, Index.positions_concat, ← scope.indexed,
      List.length_map]

end Scope

/-- The open scopes, innermost first. -/
structure Scopes where
  nested : List Scope
  deriving DecidableEq, Repr, Inhabited

namespace Scopes

/-- No open scope. -/
def empty : Scopes := ⟨[]⟩

/-- How many scopes are open. -/
def depth (s : Scopes) : Nat := s.nested.length

/-- Open a scope. -/
def push (s : Scopes) : Scopes := ⟨.empty :: s.nested⟩

/-- Close the innermost scope, if there is one. -/
def pop (s : Scopes) : Scopes := ⟨s.nested.tail⟩

/-- The variables of the innermost scope in the order of their declaration. -/
def innermost (s : Scopes) : List Slot := (s.nested.headD .empty).slots

/-- The variable that a name means. -/
def lookup? (s : Scopes) (name : String) : Option Slot := s.nested.findSome? (·.find? name)

/-- The variable that a name in the source means. -/
def resolve (s : Scopes) (name : String) (span : Span) : Except Fault Slot :=
  match s.lookup? name with
  | some slot => .ok slot
  | none => .error ((Cause.unknownVariable name).atSpan span)

/-- The innermost scope must exist and must not declare the name. -/
def checkDeclarable (s : Scopes) (name : String) (span : Span) : Except Fault Unit :=
  match s.nested with
  | [] => .error ((Cause.internal s!"variable '{name}' declared outside any scope").atSpan span)
  | scope :: _ =>
    match scope.find? name with
    | some slot => .error ((Cause.variableRedeclaration name slot.span).atSpan span)
    | none => .ok ()

/-- Declare a variable in the innermost scope. -/
def declare (s : Scopes) (name : String) (ty : TypeId) (ptr : IR.Value) (span : Span) :
    Except Fault Scopes := do
  s.checkDeclarable name span
  match s.nested with
  | [] => pure s
  | scope :: outer => pure ⟨scope.declare ⟨name, ty, ptr, span, s.depth⟩ :: outer⟩

/-- The variables at a depth or deeper, outermost first and within a scope in
    the order of their declaration. -/
def liveFrom (s : Scopes) (depth : Nat) : List Slot :=
  (s.nested.reverse.drop (depth - 1)).flatMap (·.slots)

end Scopes

end Shading
