import Shading.Emit
import Shading.Source.Operator

/-! # Type descriptors

    A descriptor says what a language type is: its name, the token that
    stands for it in symbols, its shape in generated code, which hooks it
    announces, and how it behaves in expressions.  The behaviour of the
    built-in types is fixed; a type that is registered later may bring hooks
    of its own, which can emit any code. -/

namespace Shading

/-- The hooks that a type announces. -/
structure Capabilities where
  construct : Bool
  defaultInit : Bool
  copy : Bool
  destroy : Bool
  arithmetic : Bool
  compare : Bool
  deriving DecidableEq, Repr, Inhabited

namespace Capabilities

def none : Capabilities := ⟨false, false, false, false, false, false⟩

/-- Announce everything that one of two sets announces. -/
def union (a b : Capabilities) : Capabilities where
  construct := a.construct || b.construct
  defaultInit := a.defaultInit || b.defaultInit
  copy := a.copy || b.copy
  destroy := a.destroy || b.destroy
  arithmetic := a.arithmetic || b.arithmetic
  compare := a.compare || b.compare

/-- What a type announces that owns a runtime resource. -/
def lifecycle : Capabilities := { none with copy := true, destroy := true }

end Capabilities

/-- The hooks that come with a type.  One that is missing behaves as for a
    plain value: no constructor and no operators, zero or null at first,
    copied by taking the value, and nothing to destroy.  What is copied or
    destroyed has the given shape, if there is one. -/
structure Hooks where
  construct : Option (List Typed → Emit Typed) := none
  initial : Option (Emit Typed) := none
  copy : Option IR.Ty → IR.Value → Emit IR.Value := fun _ v => pure v
  destroy : Option IR.Ty → IR.Value → Emit Unit := fun _ _ => pure ()
  binary : Option (BinaryOp → Typed → Typed → Emit Typed) := none
  unary : Option (UnaryOp → Typed → Emit Typed) := none

/-- How the values of a type behave. -/
inductive Behaviour where
  | void
  | bool
  | int
  | float
  /-- A float vector of so many components. -/
  | vector (width : UInt8)
  /-- A distribution, which lives in the renderer. -/
  | distribution
  /-- As its own hooks say. -/
  | custom (hooks : Hooks)

namespace Behaviour

/-- The hooks that a type brings; the built-in kinds bring none. -/
def hooks : Behaviour → Hooks
  | custom own => own
  | _ => {}

/-- No operators and no constructor; copied and destroyed through the given
    runtime functions, if any. -/
def plain (copySymbol destroySymbol : Option String) : Behaviour :=
  custom
    { copy := fun shape v =>
        match copySymbol, shape with
        | some symbol, some ty => Emit.callIntrinsic symbol [ty] ty [v]
        | _, _ => pure v
      destroy := fun shape v =>
        match destroySymbol, shape with
        | some symbol, some ty => do
          let _ ← Emit.callIntrinsic symbol [ty] .void [v]
        | _, _ => pure () }

instance : Inhabited Behaviour := ⟨plain none none⟩

end Behaviour

structure Descriptor where
  name : String
  /-- The token that stands for the type in the symbol of a function. -/
  token : String
  id : TypeId
  /-- The shape of a value; a type of compile time only has none. -/
  repr : Option IR.Ty
  caps : Capabilities
  behaviour : Behaviour
  deriving Inhabited

namespace Builtin

/-- The token of a built-in type. -/
def token : Builtin → String
  | void => "v"
  | bool => "b"
  | int => "i"
  | float => "f"
  | float2 => "f2"
  | float3 => "f3"
  | float4 => "f4"
  | ray => "r"
  | isect => "is"
  | light => "lt"
  | shaderHandle => "sh"
  | contextPtr => "ctx"
  | module => "mod"
  | dfunc => "df"

/-- The shape of a built-in type.  A ray is an origin, a direction and an
    interval; an intersection is a point, a normal and a ray parameter. -/
def repr : Builtin → Option IR.Ty
  | void => some .void
  | bool => some .bool
  | int => some .i32
  | float => some .f32
  | float2 => some (.vector 2)
  | float3 => some (.vector 3)
  | float4 => some (.vector 4)
  | ray => some (.struct "ray" [.vector 3, .vector 3, .f32, .f32])
  | isect => some (.struct "isect" [.vector 3, .vector 3, .f32])
  | light => some (.handle "light")
  | shaderHandle => some (.handle "shader")
  | contextPtr => some (.handle "context")
  | module => none
  | dfunc => some (.handle "dfunc")

/-- What a built-in type announces. -/
def caps : Builtin → Capabilities
  | bool => { Capabilities.none with compare := true }
  | int | float => { Capabilities.none with arithmetic := true, compare := true }
  | float2 | float3 | float4 =>
    { Capabilities.none with construct := true, arithmetic := true }
  | dfunc =>
    { Capabilities.lifecycle with construct := true, defaultInit := true, arithmetic := true }
  | _ => .none

/-- How a built-in type behaves. -/
def behaviour : Builtin → Behaviour
  | void => .void
  | bool => .bool
  | int => .int
  | float => .float
  | float2 => .vector 2
  | float3 => .vector 3
  | float4 => .vector 4
  | dfunc => .distribution
  | ray | isect | light | shaderHandle | contextPtr | module => .plain none none

def descriptor (b : Builtin) : Descriptor :=
  ⟨b.name, b.token, b.id, b.repr, b.caps, b.behaviour⟩

end Builtin

end Shading
