import Shading.Index
import Shading.Text.Quoted
import Shading.Types.Descriptor

/-! # The type table

    The registered types are kept under their identities.  Two more indexes
    lead from names and from tokens to identities.  The built-in types are
    entered as they are; a later type must bring a name, an identity and a
    token that are not taken. -/

namespace Shading

/-- Why a type was not registered. -/
inductive RegistrationError where
  | typeNotFound (name : String)
  | duplicateType (name : String)
  | collision (name existing : String)
  deriving DecidableEq, Repr, Inhabited

def RegistrationError.message : RegistrationError → String
  | .typeNotFound name => s!"type not found: {name}"
  | .duplicateType name => s!"duplicate type: {name}"
  | .collision name existing => s!"type '{name}' collides with registered type '{existing}'"

structure TypeTable where
  types : Index TypeId Descriptor
  byName : Index String TypeId
  byToken : Index String TypeId
  deriving Inhabited

namespace TypeTable

def empty : TypeTable := ⟨.empty, .empty, .empty⟩

/-- Enter a type into the three indexes, whatever they hold. -/
def insert (t : TypeTable) (d : Descriptor) : TypeTable where
  types := t.types.insert d.id d
  byName := t.byName.insert d.name d.id
  byToken := t.byToken.insert d.token d.id

/-- The table of the built-in types. -/
def builtins : TypeTable := Builtin.all.foldl (fun t b => t.insert b.descriptor) empty

/-! ## Finding types -/

def get? (t : TypeTable) (id : TypeId) : Option Descriptor := t.types.get? id

/-- The identity of a named type. -/
def lookup? (t : TypeTable) (name : String) : Option TypeId := t.byName.get? name

/-- The identity of the type with a token. -/
def lookupToken? (t : TypeTable) (token : String) : Option TypeId := t.byToken.get? token

def named? (t : TypeTable) (name : String) : Option Descriptor := (t.lookup? name).bind t.get?

def contains (t : TypeTable) (id : TypeId) : Bool := t.types.contains id

def nameOf? (t : TypeTable) (id : TypeId) : Option String := (t.get? id).map (·.name)

def tokenOf? (t : TypeTable) (id : TypeId) : Option String := (t.get? id).map (·.token)

/-- The name of a type, or its identity if it is not registered. -/
def nameOrId (t : TypeTable) (id : TypeId) : String := (t.nameOf? id).getD id.text

/-- The name of a type, or a question mark if it is not registered. -/
def nameOrMark (t : TypeTable) (id : TypeId) : String := (t.nameOf? id).getD "?"

/-- A type that must be registered; if it is not, the compiler is at fault. -/
def resolve (t : TypeTable) (id : TypeId) : Except Fault Descriptor :=
  match t.get? id with
  | some d => .ok d
  | none => .error (Cause.internal s!"unregistered type {id.text}").unplaced

/-- A type named in the source. -/
def resolveName (t : TypeTable) (name : String) (span : Span) : Except Fault TypeId :=
  match t.lookup? name with
  | some id => .ok id
  | none => .error ((Cause.unknownType name).atSpan span)

/-- The shape of a type in generated code. -/
def representation (t : TypeTable) (id : TypeId) : Except Fault IR.Ty := do
  let d ← t.resolve id
  match d.repr with
  | some ty => pure ty
  | none => throw (Cause.noRepresentation d.name).unplaced

/-! ## Registration -/

/-- The name of the type that clashes with a new one: of the owner of its
    identity, or else of the owner of its token. -/
def clash? (t : TypeTable) (d : Descriptor) : Option String :=
  (t.nameOf? d.id).or ((t.lookupToken? d.token).bind t.nameOf?)

/-- Register a type under a new name, identity and token. -/
def register (t : TypeTable) (d : Descriptor) : Except RegistrationError TypeTable :=
  if t.byName.contains d.name then .error (.duplicateType d.name)
  else
    match t.clash? d with
    | some existing => .error (.collision d.name existing)
    | none => .ok (t.insert d)

/-! ## Listing -/

/-- All types, the last one first. -/
def descriptors (t : TypeTable) : List Descriptor := t.types.toList.map (·.2)

def size (t : TypeTable) : Nat := t.types.size

/-- The descriptors in the order of their names. -/
def sorted (t : TypeTable) : List Descriptor :=
  t.descriptors.mergeSort fun a b => decide (a.name ≤ b.name)

/-- The names of all types, for inspection. -/
def text (t : TypeTable) : String :=
  let names := (t.byName.toList.map (·.1)).mergeSort fun a b => decide (a ≤ b)
  "TypeTable \x7b types: [" ++ ", ".intercalate (names.map Text.quoted) ++ "] \x7d"

end TypeTable

end Shading
