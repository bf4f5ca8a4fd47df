import Shading.Index
import Shading.Symbols.Prototype

/-! # Declared functions

    All functions declared so far, in order, and an index of their names.
    Functions of one name are overloads of each other and differ in their
    parameter types. -/

namespace Shading

/-- The position of a function in the table. -/
abbrev EntryId := Nat

/-- A declared function. -/
structure Entry where
  prototype : Prototype
  /-- Its function in the module. -/
  func : IR.FuncId
  /-- Has it a body? -/
  defined : Bool
  deriving DecidableEq, Repr, Inhabited

structure Functions where
  entries : List Entry
  /-- The positions of the functions with a name. -/
  byName : Index String (List EntryId)
  indexed : byName = .groups (entries.map (·.prototype.name))
  deriving DecidableEq, Repr

namespace Functions

def empty : Functions := ⟨[], .empty, rfl⟩

instance : Inhabited Functions := ⟨empty⟩

def get? (t : Functions) (id : EntryId) : Option Entry := t.entries[id]?

/-- An entry that must exist; if it does not, the compiler is at fault. -/
def entry (t : Functions) (id : EntryId) : Except Fault Entry :=
  match t.get? id with
  | some e => .ok e
  | none => .error (Cause.internal s!"unknown function entry {id}").unplaced

/-- The functions of a name with their positions, in order of declaration. -/
def overloads (t : Functions) (name : String) : List (Entry × EntryId) :=
  ((t.byName.get? name).getD []).filterMap fun id => (t.get? id).map (·, id)

def contains (t : Functions) (name : String) : Bool := t.byName.contains name

/-- The function with the name and parameter types of a prototype.  The two
    must then agree on result type and linkage. -/
def find (t : Functions) (p : Prototype) : Except Fault (Option EntryId) :=
  match (t.overloads p.name).find? (·.1.prototype.sameParams p) with
  | none => .ok none
  | some (e, id) =>
    let conflict (message : String) : Fault :=
      (Cause.prototypeConflict p.name message).atSpan p.span
    if e.prototype.ret ≠ p.ret then .error (conflict "redeclared with a different return type")
    else if e.prototype.symbol ≠ p.symbol then
      .error (conflict "redeclared with a different linkage")
    else .ok (some id)

/-- Add a function that has no body yet. -/
def insert (t : Functions) (p : Prototype) (func : IR.FuncId) : Functions where
  entries := t.entries ++ [⟨p, func, false⟩]
  byName := t.byName.enter p.name t.entries.length
  indexed := by
    rw [List.map_append, List.map_singleton, Index.groups_concat, ← t.indexed, List.length_map]

theorem names_modify (es : List Entry) (id : EntryId) (defined : Bool) :
    (es.modify id fun e => { e with defined := defined }).map (·.prototype.name) =
      es.map (·.prototype.name) := by
  apply List.ext_getElem?
  intro k
  rw [List.getElem?_map, List.getElem?_map, List.getElem?_modify]
  cases es[k]? with
  | none => rfl
  | some e => by_cases h : id = k <;> simp [h]

/-- Say whether a function has a body. -/
def setDefined (t : Functions) (id : EntryId) (defined : Bool) : Functions where
  entries := t.entries.modify id fun e => { e with defined := defined }
  byName := t.byName
  indexed := by rw [names_modify, t.indexed]

/-- Give a function its body, which it must not have yet. -/
def markDefined (t : Functions) (id : EntryId) (span : Span) : Except Fault Functions := do
  let e ← t.entry id
  if e.defined then throw ((Cause.functionRedefinition e.prototype.name).atSpan span)
  else pure (t.setDefined id true)

/-- Take the body of a function away. -/
def markUndefined (t : Functions) (id : EntryId) : Functions := t.setDefined id false

end Functions

end Shading
