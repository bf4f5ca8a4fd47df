import Shading.Proofs.Execution

/-! # Registers, slots and variables

    Runs keep values in registers and in stack slots.  A register is written
    by the one instruction that bears its number, so code leaves the registers
    of earlier instructions as they are (`Store.Keeps`).  A slot belongs to
    one variable: no two variables that are visible at once share a slot, and
    a new variable has a slot of its own (`Laid`). -/

namespace Shading.IR

/-! ## Stores -/

/-- Registers and stack slots.  A slot that has been reserved may be empty. -/
structure Store (V : Type) where
  regs : InstId → Option V
  cells : InstId → Option (Option V)

namespace Store

variable {V : Type}

/-- Nothing has been computed and nothing reserved. -/
def empty : Store V := ⟨fun _ => none, fun _ => none⟩

/-- Write a register. -/
def setReg (s : Store V) (id : InstId) (v : V) : Store V :=
  { s with regs := fun i => if i = id then some v else s.regs i }

/-- Write a slot. -/
def setCell (s : Store V) (a : InstId) (v : Option V) : Store V :=
  { s with cells := fun i => if i = a then some v else s.cells i }

@[simp] theorem setReg_regs_self (s : Store V) (id : InstId) (v : V) :
    (s.setReg id v).regs id = some v := by
  simp [setReg]

theorem setReg_regs_ne {s : Store V} {id i : InstId} {v : V} (h : i ≠ id) :
    (s.setReg id v).regs i = s.regs i := by
  simp [setReg, h]

@[simp] theorem setReg_cells (s : Store V) (id : InstId) (v : V) :
    (s.setReg id v).cells = s.cells := rfl

@[simp] theorem setCell_cells_self (s : Store V) (a : InstId) (v : Option V) :
    (s.setCell a v).cells a = some v := by
  simp [setCell]

theorem setCell_cells_ne {s : Store V} {a b : InstId} {v : Option V} (h : b ≠ a) :
    (s.setCell a v).cells b = s.cells b := by
  simp [setCell, h]

@[simp] theorem setCell_regs (s : Store V) (a : InstId) (v : Option V) :
    (s.setCell a v).regs = s.regs := rfl

/-- What the slot behind an address holds. -/
def load? (s : Store V) : Value → Option V
  | .inst a => (s.cells a).join
  | _ => none

/-- Fill the slot behind an address, which must have been reserved. -/
def store? (s : Store V) (v : V) : Value → Option (Store V)
  | .inst a => if (s.cells a).isSome then some (s.setCell a (some v)) else none
  | _ => none

theorem load?_inst {s : Store V} {a : InstId} {v : V} (h : s.cells a = some (some v)) :
    s.load? (.inst a) = some v := by
  simp [load?, h]

theorem isSome_of_load? {s : Store V} {a : InstId} {v : V} (h : s.load? (.inst a) = some v) :
    (s.cells a).isSome = true := by
  cases hcell : s.cells a with
  | none => simp [load?, hcell] at h
  | some o => rfl

theorem store?_inst {s : Store V} {a : InstId} (v : V) (h : (s.cells a).isSome = true) :
    s.store? v (.inst a) = some (s.setCell a (some v)) := by
  simp [store?, h]

/-- Registers below a number are unchanged, and what is reserved stays
    reserved. -/
structure Keeps (lo : Nat) (s s' : Store V) : Prop where
  regs : ∀ i, i < lo → s'.regs i = s.regs i
  cells : ∀ a, (s.cells a).isSome = true → (s'.cells a).isSome = true

namespace Keeps

variable {lo : Nat} {s s' s'' : Store V}

theorem refl (lo : Nat) (s : Store V) : Keeps lo s s := ⟨fun _ _ => rfl, fun _ h => h⟩

theorem trans (h : Keeps lo s s') (h' : Keeps lo s' s'') : Keeps lo s s'' :=
  ⟨fun i hi => (h'.regs i hi).trans (h.regs i hi), fun a ha => h'.cells a (h.cells a ha)⟩

theorem setReg {id : InstId} (h : lo ≤ id) (s : Store V) (v : V) : Keeps lo s (s.setReg id v) :=
  ⟨fun _ hi => setReg_regs_ne (Nat.ne_of_lt (Nat.lt_of_lt_of_le hi h)), fun _ ha => ha⟩

theorem setCell (lo : Nat) (s : Store V) (a : InstId) (v : Option V) :
    Keeps lo s (s.setCell a v) := by
  refine ⟨fun _ _ => rfl, fun b hb => ?_⟩
  by_cases hab : b = a
  · simp [hab]
  · rw [setCell_cells_ne hab]
    exact hb

theorem store? {v : V} {p : Value} (lo : Nat) (h : s.store? v p = some s') : Keeps lo s s' := by
  cases p with
  | inst a =>
    simp only [Store.store?] at h
    split at h
    · cases h
      exact setCell lo s a (some v)
    · cases h
  | const c => cases h
  | arg i => cases h
  | void => cases h

end Keeps

/-- Reserve slots. -/
def reserve (as : List InstId) (s : Store V) : Store V := as.foldl (fun s a => s.setCell a none) s

theorem reserve_keeps (as : List InstId) : ∀ s : Store V, Keeps 0 s (s.reserve as) := by
  induction as with
  | nil => exact fun s => .refl 0 s
  | cons a rest ih => exact fun s => (Keeps.setCell 0 s a none).trans (ih _)

theorem reserve_isSome {as : List InstId} {a : InstId} (ha : a ∈ as) :
    ∀ s : Store V, ((s.reserve as).cells a).isSome = true := by
  induction as with
  | nil => cases ha
  | cons b rest ih =>
    intro s
    rcases List.mem_cons.1 ha with rfl | ha
    · exact (reserve_keeps rest (s.setCell a none)).cells a (by simp)
    · exact ih ha (s.setCell b none)

end Store

end Shading.IR

namespace Shading

open IR

/-! ## The slots of variables -/

/-- The slots of variables are different ones, and their numbers are below a
    bound. -/
structure Laid (H : Host) (bound : Nat) (slots : List Slot) : Prop where
  placed : ∀ slot ∈ slots, ∃ a shape, slot.ptr = .inst a ∧ a < bound ∧ a ∈ H.body.slots 0 ∧
    TypeTable.builtins.representation slot.ty = .ok shape ∧ H.HasType slot.ptr (.ptr shape)
  apart : (slots.map (·.ptr)).Nodup

namespace Laid

variable {H : Host} {lo hi : Nat} {slots : List Slot}

theorem nil (H : Host) (lo : Nat) : Laid H lo [] :=
  ⟨fun _ h => (List.not_mem_nil h).elim, List.nodup_nil⟩

theorem weaken (h : Laid H lo slots) (hle : lo ≤ hi) : Laid H hi slots := by
  refine ⟨fun slot hslot => ?_, h.apart⟩
  obtain ⟨a, shape, hptr, ha, hrest⟩ := h.placed slot hslot
  exact ⟨a, shape, hptr, Nat.lt_of_lt_of_le ha hle, hrest⟩

/-- A new variable gets a slot of its own. -/
theorem cons (h : Laid H lo slots) {slot : Slot} {a : InstId} {shape : Ty}
    (hptr : slot.ptr = .inst a) (ha : FreshSlot H lo hi shape a)
    (hshape : TypeTable.builtins.representation slot.ty = .ok shape) :
    Laid H hi (slot :: slots) := by
  have hle : lo ≤ hi := Nat.le_of_lt (Nat.lt_of_le_of_lt ha.above ha.below)
  constructor
  · intro s hs
    rcases List.mem_cons.1 hs with rfl | hs
    · exact ⟨a, shape, hptr, ha.below, ha.slot, hshape, hptr ▸ ha.hasType⟩
    · exact (h.weaken hle).placed s hs
  · refine List.nodup_cons.2 ⟨fun hmem => ?_, h.apart⟩
    obtain ⟨s, hs, heq⟩ := List.mem_map.1 hmem
    obtain ⟨b, _, hb, hlt, _⟩ := h.placed s hs
    -- The slots so far have smaller numbers.
    have hab : Value.inst b = .inst a := hb.symm.trans (heq.trans hptr)
    cases hab
    exact Nat.lt_irrefl a (Nat.lt_of_lt_of_le hlt ha.above)

end Laid

section

variable {options : Options} {functions : Functions} {H : Host} {ret : TypeId} {base : Nat}

/-- Only a declaration changes the variables of its scope. -/
theorem Stmt.Compiles.laid {loop : Option Nat} {outer : List (List Slot)} {lo hi : Nat}
    {top top' : List Slot} {s : Stmt} {T : Code}
    (h : Stmt.Compiles ⟨.builtins, options⟩ functions H ret base loop outer lo top s T top' hi)
    (hlaid : Laid H lo (top ++ outer.flatten)) : Laid H hi (top' ++ outer.flatten) := by
  have hle : lo ≤ hi := h.within.1
  cases h with
  | decl hty hvoid hshape hfree hinit ha hs hin =>
    exact (hlaid.weaken hinit.within.1).cons rfl ha hshape
  | expr => exact hlaid.weaken hle
  | ret => exact hlaid.weaken hle
  | jump => exact hlaid.weaken hle
  | block => exact hlaid.weaken hle
  | ifThen => exact hlaid.weaken hle
  | ifThenElse => exact hlaid.weaken hle
  | loop => exact hlaid.weaken hle

theorem Stmt.CompilesAll.laid {loop : Option Nat} {outer : List (List Slot)} {lo hi : Nat}
    {top top' : List Slot} {stmts : List Stmt} {T : Code}
    (h : Stmt.CompilesAll ⟨.builtins, options⟩ functions H ret base loop outer lo top stmts T top'
      hi) (hlaid : Laid H lo (top ++ outer.flatten)) : Laid H hi (top' ++ outer.flatten) := by
  induction stmts generalizing lo top T with
  | nil =>
    cases h
    exact hlaid
  | cons s rest ih =>
    cases h with
    | ended hs hend => exact hs.laid hlaid
    | cons hs hend hrest => exact ih hrest (hs.laid hlaid)

theorem Arguments.laid {depth lo hi index : Nat} {top top' : List Slot} {params : List Param}
    {l : Lines} (h : Arguments .builtins H depth lo index top params l top' hi)
    (hlaid : Laid H lo top) : Laid H hi top' := by
  induction h with
  | nil => exact hlaid
  | cons hshape hfree ha hcopy hs hin rest ih => exact ih (hlaid.cons rfl ha hshape)

end

end Shading
