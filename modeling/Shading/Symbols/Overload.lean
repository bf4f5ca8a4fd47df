import Shading.Emit
import Shading.Symbols.Functions

/-! # Conversions and overloads

    The only implicit conversion is from an integer to a float, and only if
    the options allow it.  A call selects among the functions of its name
    that take its arguments, possibly converted, the one with the fewest
    conversions; if there are several, the call is ambiguous. -/

namespace Shading

/-- What happens to statements that control cannot reach. -/
inductive UnreachablePolicy where
  /-- They are dropped with a warning. -/
  | warn
  /-- The function is refused. -/
  | error
  deriving DecidableEq, Repr, Inhabited

/-- The options of a compilation. -/
structure Options where
  unreachable : UnreachablePolicy
  /-- May an integer stand where a float is expected? -/
  implicit : Bool
  deriving DecidableEq, Repr, Inhabited

def Options.default : Options := ⟨.warn, true⟩

/-- How an argument becomes a parameter. -/
inductive Conversion where
  | identity
  | intToFloat
  deriving DecidableEq, Repr, Inhabited

namespace Conversion

def isExact : Conversion → Bool
  | identity => true
  | intToFloat => false

def cost : Conversion → Nat
  | identity => 0
  | intToFloat => 1

/-- The cost of converting all arguments of a call. -/
def totalCost : List Conversion → Nat
  | [] => 0
  | c :: cs => c.cost + totalCost cs

/-- The conversion between two types, if there is one. -/
def find? (source target : TypeId) (options : Options) : Option Conversion :=
  if source = target then some identity
  else if options.implicit ∧ source = Builtin.int.id ∧ target = Builtin.float.id then
    some intToFloat
  else none

/-- Emit a conversion. -/
def apply (c : Conversion) (v : IR.Value) : Emit IR.Value :=
  match c with
  | identity => pure v
  | intToFloat => IR.Build.cast .sitofp v

end Conversion

/-- A function that a call may select, with what it costs. -/
structure Candidate where
  entry : EntryId
  conversions : List Conversion
  cost : Nat
  deriving DecidableEq, Repr, Inhabited

namespace Candidate

/-- How many arguments are passed as they are. -/
def exactCount (c : Candidate) : Nat := c.conversions.countP (·.isExact)

end Candidate

namespace Functions

/-- The candidate that an overload makes for some argument types. -/
def candidate? (options : Options) (args : List TypeId) (e : Entry) (id : EntryId) :
    Option Candidate :=
  if e.prototype.params.length = args.length then do
    let conversions ← (e.prototype.paramTypes.zip args).mapM fun p =>
      Conversion.find? p.2 p.1 options
    pure ⟨id, conversions, Conversion.totalCost conversions⟩
  else none

/-- All candidates of a call, in order of declaration. -/
def viable (t : Functions) (options : Options) (name : String) (args : List TypeId) :
    List Candidate :=
  (t.overloads name).filterMap fun (e, id) => candidate? options args e id

/-- The fault of a call with several best candidates. -/
def ambiguous (t : Functions) (types : TypeTable) (tied : List Candidate) (span : Span) :
    Fault :=
  let entries := tied.filterMap fun c => t.get? c.entry
  let name := ((tied.head?.bind fun c => t.get? c.entry).map (·.prototype.name)).getD ""
  let described := ", ".intercalate (entries.map (·.prototype.describe types))
  (Cause.ambiguousOverload name described).atSpan span

/-- Of the candidates of least cost those with most exact arguments. -/
def cheapest (candidates : List Candidate) : List Candidate :=
  match (candidates.map (·.cost)).min? with
  | none => []
  | some least =>
    let tied := candidates.filter (·.cost == least)
    let most := ((tied.map (·.exactCount)).max?).getD 0
    tied.filter (·.exactCount == most)

/-- The best candidate, which must be the only one. -/
def best (t : Functions) (types : TypeTable) (candidates : List Candidate) (span : Span) :
    Except Fault Candidate :=
  if candidates.isEmpty then
    .error ((Cause.internal "overload ranking without candidates").atSpan span)
  else
    match cheapest candidates with
    | [c] => .ok c
    | tied => .error (t.ambiguous types tied span)

/-- The function that a call selects. -/
def resolve (t : Functions) (types : TypeTable) (options : Options) (name : String)
    (args : List TypeId) (span : Span) : Except Fault Candidate :=
  if !t.contains name then .error ((Cause.unknownFunction name).atSpan span)
  else
    match t.viable options name args with
    | [] =>
      let shown := ", ".intercalate (args.map types.nameOrMark)
      .error ((Cause.noMatchingOverload name shown).atSpan span)
    | candidates => t.best types candidates span

end Functions

end Shading
