import Shading.IR.Function
import Shading.Source.Tree
import Shading.Types.Table

/-! # Prototypes

    The head of a function with its types looked up.  A function of this
    program gets a symbol from its name and the tokens of its parameter
    types, so that functions of one name and different parameters have
    different symbols; a function defined elsewhere keeps its own symbol. -/

namespace Shading

structure Param where
  name : String
  ty : TypeId
  span : Span
  deriving DecidableEq, Repr, Inhabited

structure Prototype where
  name : String
  /-- The symbol of a function that is defined elsewhere. -/
  symbol : Option String
  ret : TypeId
  params : List Param
  span : Span
  deriving DecidableEq, Repr, Inhabited

namespace Prototype

/-- Look up the types of a declaration: the result first, then the
    arguments in order. -/
def ofDecl (types : TypeTable) (decl : PrototypeDecl) : Except Fault Prototype := do
  let ret ← types.resolveName decl.ret.name decl.ret.span
  let params ← decl.args.mapM fun arg => do
    let ty ← types.resolveName arg.ty.name arg.ty.span
    pure (⟨arg.name.name, ty, arg.span⟩ : Param)
  pure ⟨decl.name.name, decl.symbol, ret, params, decl.span⟩

def isExternal (p : Prototype) : Bool := p.symbol.isSome

def linkage (p : Prototype) : IR.Linkage := if p.isExternal then .external else .internal

def paramTypes (p : Prototype) : List TypeId := p.params.map (·.ty)

/-- Do two prototypes take the same parameter types? -/
def sameParams (p q : Prototype) : Bool := p.paramTypes == q.paramTypes

/-- `name(T, U)` -/
def describe (p : Prototype) (types : TypeTable) : String :=
  p.name ++ "(" ++ ", ".intercalate (p.paramTypes.map types.nameOrMark) ++ ")"

/-- `name$token.token` -/
def mangledName (p : Prototype) (types : TypeTable) : Except Fault String := do
  let tokens ← p.params.mapM fun param =>
    match types.tokenOf? param.ty with
    | some token => pure token
    | none =>
      throw (Cause.internal
        s!"argument '{param.name}' of '{p.name}' has an unregistered type").unplaced
  pure (p.name ++ "$" ++ ".".intercalate tokens)

/-- The symbol of the function in the module. -/
def irName (p : Prototype) (types : TypeTable) : Except Fault String :=
  match p.symbol with
  | some symbol => .ok symbol
  | none => p.mangledName types

/-- The shape of a type, with a position for the fault if it has none. -/
def shape (types : TypeTable) (ty : TypeId) (span : Span) : Except Fault IR.Ty :=
  (types.representation ty).mapError (·.locate span)

/-- The signature of the function in the module. -/
def irSignature (p : Prototype) (types : TypeTable) : Except Fault IR.Signature := do
  let params ← p.params.mapM fun param =>
    if param.ty = Builtin.void.id then
      .error ((Cause.invalidOperation
        s!"argument '{param.name}' cannot have type 'void'").atSpan param.span)
    else shape types param.ty param.span
  let ret ← shape types p.ret p.span
  pure ⟨params, ret⟩

end Prototype

end Shading
