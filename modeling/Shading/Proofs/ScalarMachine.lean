import Shading.Proofs.Evaluation
import Shading.Proofs.Memory

/-! # Generated code over integers and booleans

    What the instructions do that programs over integers and booleans are
    compiled to.  Words wrap around, a division without a quotient is stuck,
    and so is every instruction that works on something else. -/

namespace Shading

open IR

namespace Scalar

/-! ## Operands -/

def ofConst? : Const → Option Scalar
  | .bool b => some (.bool b)
  | .int i => some (.int i)
  | .zero .i32 => some (.int 0)
  | .zero .bool => some (.bool false)
  | _ => none

def operand? (args : List Scalar) (s : Store Scalar) : Value → Option Scalar
  | .const c => ofConst? c
  | .arg i => args[i]?
  | .inst id => s.regs id
  | .void => none

/-! ## Instructions -/

def arith? : ArithOp → Scalar → Scalar → Option Scalar
  | .iadd, int a, int b => some (int (a + b))
  | .isub, int a, int b => some (int (a - b))
  | .imul, int a, int b => some (int (a * b))
  | .sdiv, int a, int b => (quotient? a b).map int
  | _, _, _ => none

/-- Words are ordered as signed ones; bits are only compared for equality. -/
def compare? : CmpPred → Scalar → Scalar → Option Bool
  | .eq, int a, int b => some (a == b)
  | .ne, int a, int b => some (a != b)
  | .lt, int a, int b => some (a < b)
  | .le, int a, int b => some (a ≤ b)
  | .gt, int a, int b => some (b < a)
  | .ge, int a, int b => some (b ≤ a)
  | .eq, bool a, bool b => some (a == b)
  | .ne, bool a, bool b => some (a != b)
  | _, _, _ => none

def negate? : Scalar → Option Scalar
  | int a => some (int (-a))
  | bool _ => none

def invert? : Scalar → Option Scalar
  | bool a => some (bool !a)
  | int _ => none

/-- The result of an instruction that writes its register. -/
def compute? (args : List Scalar) (s : Store Scalar) : Op → Option Scalar
  | .load p => s.load? p
  | .arith op a b =>
    (operand? args s a).bind fun x => (operand? args s b).bind fun y => arith? op x y
  | .cmp pred false a b =>
    (operand? args s a).bind fun x => (operand? args s b).bind fun y =>
      (compare? pred x y).map bool
  | .neg a => (operand? args s a).bind negate?
  | .not a => (operand? args s a).bind invert?
  | _ => none

/-- The way of a branch. -/
def asBool? : Scalar → Option Bool
  | bool b => some b
  | int _ => none

end Scalar

open Scalar

/-- The machine that runs generated code with the given arguments. -/
def scalarMachine (args : List Scalar) : Interp (Store Scalar) (Option Scalar) where
  exec id i s :=
    match i.op with
    | .alloca _ _ => some (s.setCell id none)
    | .store v p => (operand? args s v).bind fun x => s.store? x p
    | op => (compute? args s op).map (s.setReg id)
  merge id v s := (operand? args s v).map (s.setReg id)
  test v s := ((operand? args s v).bind asBool?).map (·, s)
  result v s :=
    match v with
    | none => some none
    | some v => (operand? args s v).map some

variable {args : List Scalar} {s s' : Store Scalar} {n : Nat}

/-! ## Single instructions -/

theorem scalarMachine_exec {op : Op} {id : InstId} {ty : Ty} (halloca : op.isAlloca = false)
    (hstore : ∀ v p, op ≠ .store v p) :
    (scalarMachine args).exec id ⟨op, ty, none⟩ s = (compute? args s op).map (s.setReg id) := by
  cases op with
  | alloca ty size => cases halloca
  | store v p => exact absurd rfl (hstore v p)
  | _ => rfl

/-- A line with one instruction that writes its register. -/
theorem scalarMachine_one {op : Op} {id : InstId} {ty : Ty} (halloca : op.isAlloca = false)
    (hstore : ∀ v p, op ≠ .store v p) :
    (scalarMachine args).execAll [(id, ⟨op, ty, none⟩)] s =
      (compute? args s op).map (s.setReg id) := by
  rw [Interp.execAll, scalarMachine_exec halloca hstore]
  cases compute? args s op <;> rfl

theorem scalarMachine_store {v : Value} {a id : InstId} {ty : Ty} {c : Scalar}
    (hv : operand? args s v = some c) (ha : (s.cells a).isSome = true) :
    (scalarMachine args).execAll [(id, ⟨.store v (.inst a), ty, none⟩)] s =
      some (s.setCell a (some c)) := by
  have hexec : (scalarMachine args).exec id ⟨.store v (.inst a), ty, none⟩ s =
      (operand? args s v).bind fun x => s.store? x (.inst a) := rfl
  rw [Interp.execAll, hexec, hv, Option.bind_some, Store.store?_inst c ha]
  rfl

theorem scalarMachine_test {v : Value} {b : Bool} (hv : operand? args s v = some (.bool b)) :
    (scalarMachine args).test v s = some (b, s) := by
  show ((operand? args s v).bind asBool?).map (·, s) = _
  rw [hv]
  rfl

/-- The test before a turn of a loop is left out for `true` only. -/
theorem scalarMachine_guard {v : Value} {b : Bool} (hv : operand? args s v = some (.bool b)) :
    (scalarMachine args).guard v s = some (b, s) := by
  unfold Interp.guard
  split
  · rename_i htrue
    rw [htrue] at hv
    cases hv
    rfl
  · exact scalarMachine_test hv

/-! ## Frames -/

/-- Instructions with large numbers leave the registers with small ones. -/
theorem scalarMachine_keeps {lo : Nat} {ids : List InstId} (hids : ∀ i ∈ ids, lo ≤ i) :
    (scalarMachine args).Keeps ids (Store.Keeps lo) where
  refl := .refl lo
  trans := .trans
  exec := by
    intro id i s s' hid h
    -- A slot and a store write a cell, all else the register of its own id, which is not below `lo`.
    by_cases halloca : i.op.isAlloca = true
    · have hsome : (scalarMachine args).exec id i s = some (s.setCell id none) := by
        cases hop : i.op <;> simp_all [Op.isAlloca, scalarMachine]
      rw [hsome] at h
      cases h
      exact .setCell lo s id none
    · by_cases hstore : ∃ v p, i.op = .store v p
      · obtain ⟨v, p, hop⟩ := hstore
        have hexec : (scalarMachine args).exec id i s =
            (operand? args s v).bind fun x => s.store? x p := by
          simp only [scalarMachine, hop]
        rw [hexec] at h
        obtain ⟨c, -, hc⟩ := Option.bind_eq_some_iff.1 h
        exact .store? lo hc
      · have hexec : (scalarMachine args).exec id i s =
            (compute? args s i.op).map (s.setReg id) := by
          cases hop : i.op <;> simp_all [Op.isAlloca, scalarMachine]
        rw [hexec] at h
        obtain ⟨c, -, rfl⟩ := Option.map_eq_some_iff.1 h
        exact .setReg (hids id hid) s c
  merge := by
    intro id v s s' hid h
    obtain ⟨c, -, rfl⟩ := Option.map_eq_some_iff.1 h
    exact .setReg (hids id hid) s c
  test := by
    intro v s b s' h
    obtain ⟨c, -, hc⟩ := Option.map_eq_some_iff.1 h
    cases hc
    exact .refl lo s

/-- Code leaves the registers of earlier code. -/
theorem IR.Code.Within.keeps {T : Code} {lo hi : Nat} (h : T.Within lo hi)
    (hrun : (T.run (scalarMachine args) n s).state? = some s') : Store.Keeps lo s s' :=
  Code.run_keeps (scalarMachine_keeps fun i hi => (h.2 i hi).1) T (fun _ hi => hi) s s' hrun

theorem IR.Code.Within.keeps_done {T : Code} {lo hi : Nat} (h : T.Within lo hi)
    (hrun : T.run (scalarMachine args) n s = .done s') : Store.Keeps lo s s' := by
  have hstate : (T.run (scalarMachine args) n s).state? = some s' := by rw [hrun]; rfl
  exact h.keeps hstate

/-- All slots of a function can be reserved. -/
theorem scalarMachine_slotLines (F : Function) :
    (scalarMachine args).execAll F.slotLines s = some (s.reserve (F.slots 0)) := by
  refine F.execAll_slotLines (fun {id i s} halloca => ?_) s
  cases hop : i.op <;> simp_all [Op.isAlloca, scalarMachine]

end Shading
