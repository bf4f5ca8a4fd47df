import Shading.Symbols.Scopes
import Shading.Types.Hooks

/-! # Lifetimes

    A value is owned if whoever computed it must see to its destruction, and
    borrowed if a variable still owns it.  Only types that announce the
    hooks are copied and destroyed through them. -/

namespace Shading

open IR (Value)

/-- The result of an expression. -/
structure ExprValue where
  ty : TypeId
  value : Value
  owned : Bool
  deriving DecidableEq, Repr, Inhabited

namespace ExprValue

def typed (x : ExprValue) : Typed := ⟨x.ty, x.value⟩

/-- A new value, which its consumer owns. -/
def ofTyped (x : Typed) : ExprValue := ⟨x.ty, x.value, true⟩

end ExprValue

namespace Lifetime

/-- Copy a value through the hook of its type, if it announces one. -/
def copyValue (types : TypeTable) (ty : TypeId) (v : Value) : Emit Value := do
  let d ← types.resolve ty
  if d.caps.copy then d.copy v else pure v

/-- Destroy a value through the hook of its type, if it announces one. -/
def destroyValue (types : TypeTable) (ty : TypeId) (v : Value) : Emit Unit := do
  let d ← types.resolve ty
  Act.onlyIf d.caps.destroy (d.destroy v)

/-- Must values of a type be destroyed? -/
def needsDestroy (types : TypeTable) (ty : TypeId) : Except Fault Bool := do
  let d ← types.resolve ty
  pure d.caps.destroy

/-- A value that the consumer owns: an owned one as it is, a borrowed one
    copied. -/
def materialize (types : TypeTable) (x : ExprValue) : Emit Value :=
  if x.owned then pure x.value else copyValue types x.ty x.value

/-- Destroy an owned value that nobody keeps. -/
def release (types : TypeTable) (x : ExprValue) : Emit Unit :=
  if x.owned && !x.value.isVoid then destroyValue types x.ty x.value else pure ()

/-- Destroy what a slot holds. -/
def destroySlot (types : TypeTable) (slot : Slot) : Emit Unit := do
  let needed ← needsDestroy types slot.ty
  Act.onlyIf needed do
    let v ← IR.Build.load slot.ptr
    destroyValue types slot.ty v

/-- Destroy what slots hold, the last one first. -/
def destroySlots (types : TypeTable) (slots : List Slot) : Emit Unit :=
  slots.reverse.forM (destroySlot types)

end Lifetime

end Shading
