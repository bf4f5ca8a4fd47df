import Shading.Lower.Function

/-! # Compiling units

    A unit is compiled item by item.  An item that is refused is noted and
    the next one is compiled; functions known from earlier items and units
    stay known. -/

namespace Shading

/-- What has been compiled of a unit so far. -/
structure Progress where
  work : Work
  /-- The functions whose bodies were lowered. -/
  compiled : List String
  /-- The items that were refused. -/
  failed : List String
  deriving DecidableEq, Repr, Inhabited

namespace Progress

/-- Before the first item. -/
def start (module : IR.Module) (symbols : Symbols) : Progress :=
  ⟨⟨.start module, symbols, []⟩, [], []⟩

def diagnostics (p : Progress) : Diagnostics := p.work.diagnostics

/-- Was no item refused? -/
def isSuccess (p : Progress) : Bool := !p.diagnostics.hasErrors

/-- Forget what belongs to the item that was compiled last. -/
def forgetItem (w : Work) : Work := { w with symbols := w.symbols.reset }

/-- Lower one item. -/
def lowerItem (env : Env) : Item → Lower Unit
  | .prototype decl => do
    let _ ← Lower.declarePrototype env decl
  | .function decl => do
    let _ ← Lower.function env decl

/-- The names that a successful item adds to the compiled functions. -/
def compiledNames : Item → List String
  | .prototype _ => []
  | item@(.function _) => [item.name]

/-- Compile one more item. -/
def step (env : Env) (p : Progress) (item : Item) : Progress :=
  match (lowerItem env item).run p.work with
  | (.ok (), w) =>
    { p with work := forgetItem w, compiled := p.compiled ++ compiledNames item }
  | (.error fault, w) =>
    let diagnostic : Diagnostic := ⟨.error, fault.locate item.span, some item.name⟩
    { p with
      work := forgetItem { w with diagnostics := w.diagnostics ++ [diagnostic] }
      failed := p.failed ++ [item.name] }

end Progress

/-- Compile a unit into a module, with the functions already known. -/
def compileUnit (env : Env) (items : List Item) (module : IR.Module) (symbols : Symbols) :
    Progress :=
  items.foldl (Progress.step env) (.start module symbols)

/-- Compile a unit into a module, with no function known before. -/
def compileFresh (env : Env) (items : List Item) (module : IR.Module) : Progress :=
  compileUnit env items module .empty

end Shading
