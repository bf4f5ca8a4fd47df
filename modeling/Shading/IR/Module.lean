import Shading.IR.Function
import Shading.Index

/-! # Modules

    A module is a list of functions with distinct symbols, and an index of
    the symbols.  Declaring a symbol again is allowed if signature and
    linkage agree, and then finds the function that is there. -/

namespace Shading.IR

structure Module where
  name : String
  functions : List Function
  /-- Where the function with a symbol stands. -/
  byName : Index String FuncId
  indexed : byName = .positions (functions.map (·.name))
  deriving DecidableEq, Repr

namespace Module

/-- A module without functions. -/
def empty (name : String) : Module := ⟨name, [], .empty, rfl⟩

instance : Inhabited Module := ⟨empty ""⟩

/-- The position of the function with a symbol. -/
def find? (m : Module) (symbol : String) : Option FuncId := m.byName.get? symbol

def function? (m : Module) (id : FuncId) : Option Function := m.functions[id]?

/-- The function at a position. -/
def function (m : Module) (id : FuncId) : Except Error Function :=
  match m.function? id with
  | some f => .ok f
  | none => .error (.unknownFunction id)

/-- The function with a symbol. -/
def functionNamed? (m : Module) (symbol : String) : Option Function :=
  (m.find? symbol).bind m.function?

theorem names_modify (fs : List Function) (id : FuncId) (change : Function → Function) :
    (fs.modify id fun f => f.withBodyOf (change f)).map (·.name) = fs.map (·.name) := by
  apply List.ext_getElem?
  intro k
  rw [List.getElem?_map, List.getElem?_map, List.getElem?_modify]
  cases fs[k]? with
  | none => rfl
  | some f => by_cases h : id = k <;> simp [h, Function.withBodyOf]

/-- Change the body of the function at a position.  Its head stays, and so
    does the index. -/
def update (m : Module) (id : FuncId) (change : Function → Function) : Module where
  name := m.name
  functions := m.functions.modify id fun f => f.withBodyOf (change f)
  byName := m.byName
  indexed := by rw [names_modify, m.indexed]

/-- Add a function that has only a declaration. -/
def add (m : Module) (name : String) (signature : Signature) (linkage : Linkage) : Module where
  name := m.name
  functions := m.functions ++ [.declaration name signature linkage]
  byName := m.byName.insert name m.functions.length
  indexed := by
    rw [List.map_append, List.map_singleton, Index.positions_concat, ← m.indexed, List.length_map]
    rfl

/-- How many instructions of `caller` call `callee`; none if one of the two
    symbols is not declared. -/
def countCalls (m : Module) (caller callee : String) : Nat :=
  match m.functionNamed? caller, m.find? callee with
  | some f, some id => f.instructions.countP (·.op.calls id)
  | _, _ => 0

end Module

end Shading.IR
