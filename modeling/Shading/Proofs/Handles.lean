import Mathlib.Algebra.Order.Group.Multiset
import Mathlib.Data.List.Nodup
import Mathlib.Data.List.Pairwise
import Shading.Proofs.Memory
import Shading.Proofs.Safety

/-! # Distributions at run time

    Generated code makes distributions, hands them around and destroys them.
    The machine of this module follows the handles of distributions through
    registers and slots and notes what happens to each of them: every call
    with a distribution as its result makes a new one, arguments of calls are
    used, and the argument of a destruction is destroyed.

    A ledger says which handles are still to be destroyed (`Tracking.Owes`).
    Those are the ones that variables in scope hold, and those that somebody
    still has in hand (`Tracking.Holds`). -/

namespace Shading

open IR

namespace IR

/-! ## The machine -/

/-- A handle of a distribution. -/
inductive Handle where
  /-- The distribution that an argument brings along. -/
  | arg (index : Nat)
  /-- A distribution that was made in the run; they are counted. -/
  | made (number : Nat)
  deriving DecidableEq, Repr, Inhabited

/-- What happens to a distribution. -/
inductive Event where
  | made (h : Handle)
  | used (h : Handle)
  | destroyed (h : Handle)
  | returned (h : Handle)
  deriving DecidableEq, Repr, Inhabited

def Event.handle : Event → Handle
  | made h | used h | destroyed h | returned h => h

/-- The handles in registers and slots, how many distributions have been
    made, and what has happened so far. -/
structure Tracking where
  regs : InstId → Option Handle
  cells : InstId → Option Handle
  count : Nat
  trace : List Event

namespace Tracking

def start : Tracking := ⟨fun _ => none, fun _ => none, 0, []⟩

def setReg (s : Tracking) (id : InstId) (h : Option Handle) : Tracking :=
  { s with regs := fun i => if i = id then h else s.regs i }

def setCell (s : Tracking) (a : InstId) (h : Option Handle) : Tracking :=
  { s with cells := fun i => if i = a then h else s.cells i }

/-- Something has happened. -/
def note (s : Tracking) (es : List Event) : Tracking := { s with trace := s.trace ++ es }

/-- A new distribution is the result of an instruction. -/
def make (s : Tracking) (id : InstId) : Tracking :=
  { s with
    regs := fun i => if i = id then some (.made s.count) else s.regs i
    count := s.count + 1
    trace := s.trace ++ [.made (.made s.count)] }

/-- The handle in the slot behind an address. -/
def cell? (s : Tracking) : Value → Option Handle
  | .inst a => s.cells a
  | _ => none

end Tracking

namespace Host

/-- The handle that an operand stands for. -/
def operand? (H : Host) (s : Tracking) : Value → Option Handle
  | .inst id => s.regs id
  | .arg i => if H.body.signature.params[i]? = some Distribution.ty then some (.arg i) else none
  | .const _ | .void => none

/-- The handles among the arguments of a call. -/
def used (H : Host) (s : Tracking) (args : List Value) (params : List Ty) : List Handle :=
  (args.zip params).filterMap fun q => if q.2 = Distribution.ty then H.operand? s q.1 else none

/-- A call.  Its callee decides what happens to the distributions. -/
def call? (H : Host) (s : Tracking) (id : InstId) (callee : FuncId) (args : List Value) :
    Option Tracking :=
  match H.module.function? callee with
  | none => none
  | some g =>
    if g.name = Distribution.destroySymbol then
      (args.head?.bind (H.operand? s)).map fun h => s.note [.destroyed h]
    else
      let t := s.note ((H.used s args g.signature.params).map .used)
      some (if g.signature.ret = Distribution.ty then t.make id else t)

end Host

/-- The argument that an operand is itself. -/
def Value.argument? : Value → Option Handle
  | .arg i => some (.arg i)
  | .inst _ | .const _ | .void => none

/-- Instructions of a function, as far as distributions are concerned.  The
    result of a run is all that has happened. -/
def Interp.tracking (H : Host) : Interp Tracking (List Event) where
  exec id i s :=
    match i.op with
    | .call callee args => H.call? s id callee args
    | .load (.inst a) => some (s.setReg id (s.cells a))
    | .store v (.inst a) => some (s.setCell a (H.operand? s v))
    | .load _ | .store .. => none
    | _ => some s
  merge id v s := some (s.setReg id (H.operand? s v))
  test _ s := some (true, s)
  result v s :=
    if H.body.signature.ret = Distribution.ty then
      (v.bind (H.operand? s)).map fun h => s.trace ++ [.returned h]
    else some (s.trace ++ (v.bind Value.argument?).toList.map .returned)

namespace Tracking

variable {s t : Tracking}

@[simp] theorem setReg_self (s : Tracking) (id : InstId) (h : Option Handle) :
    (s.setReg id h).regs id = h := if_pos rfl

theorem setReg_ne {id i : InstId} (hne : i ≠ id) (s : Tracking) (h : Option Handle) :
    (s.setReg id h).regs i = s.regs i := if_neg hne

@[simp] theorem make_self (s : Tracking) (id : InstId) :
    (s.make id).regs id = some (.made s.count) := if_pos rfl

theorem make_ne {id i : InstId} (hne : i ≠ id) (s : Tracking) :
    (s.make id).regs i = s.regs i := if_neg hne

@[simp] theorem setReg_cell? (s : Tracking) (id : InstId) (h : Option Handle) :
    (s.setReg id h).cell? = s.cell? := by
  funext v
  cases v <;> rfl

@[simp] theorem note_cell? (s : Tracking) (es : List Event) : (s.note es).cell? = s.cell? := by
  funext v
  cases v <;> rfl

@[simp] theorem make_cell? (s : Tracking) (id : InstId) : (s.make id).cell? = s.cell? := by
  funext v
  cases v <;> rfl

@[simp] theorem setCell_cell?_self (s : Tracking) (a : InstId) (h : Option Handle) :
    (s.setCell a h).cell? (.inst a) = h := if_pos rfl

theorem setCell_cell?_ne {a : InstId} {v : Value} (hne : v ≠ .inst a) (s : Tracking)
    (h : Option Handle) : (s.setCell a h).cell? v = s.cell? v := by
  cases v with
  | inst b =>
    refine if_neg fun heq => hne ?_
    rw [heq]
  | const c => rfl
  | arg i => rfl
  | void => rfl

/-! ## The ledger -/

/-- What has been made and not been destroyed is still owed.  Everything is
    made once, only new distributions are made, and nothing has been returned
    yet. -/
structure Owes (s : Tracking) (own : Multiset Handle) : Prop where
  balance : ∀ h, s.trace.count (.destroyed h) + own.count h = s.trace.count (.made h)
  once : ∀ h, s.trace.count (.made h) ≤ 1
  new : ∀ h, .made h ∈ s.trace → ∃ n, n < s.count ∧ h = .made n
  kept : ∀ h, .returned h ∉ s.trace

variable {own : Multiset Handle} {h : Handle}

theorem Owes.start : start.Owes 0 where
  balance _ := rfl
  once _ := Nat.zero_le 1
  new _ hmem := by cases hmem
  kept _ hmem := by cases hmem

/-- What is owed has not been destroyed. -/
theorem Owes.live (hs : s.Owes own) (hh : h ∈ own) : .destroyed h ∉ s.trace := by
  have hown : 0 < own.count h := Multiset.count_pos.2 hh
  have hbalance := hs.balance h
  have honce := hs.once h
  intro hmem
  have hdestroyed := List.count_pos_iff.2 hmem
  omega

/-- What has been destroyed was made before. -/
theorem Owes.made_of_destroyed (hs : s.Owes own) (hh : .destroyed h ∈ s.trace) :
    .made h ∈ s.trace := by
  have hdestroyed := List.count_pos_iff.2 hh
  have hbalance := hs.balance h
  exact List.count_pos_iff.1 (by omega)

/-- The ledger depends on what has happened alone. -/
theorem Owes.of_trace (hs : s.Owes own) (htrace : t.trace = s.trace) (hcount : t.count = s.count) :
    t.Owes own where
  balance := by rw [htrace]; exact hs.balance
  once := by rw [htrace]; exact hs.once
  new := by rw [htrace, hcount]; exact hs.new
  kept := by rw [htrace]; exact hs.kept

theorem Owes.note_used (hs : s.Owes own) (hs' : List Handle) :
    (s.note (hs'.map .used)).Owes own := by
  -- Uses are none of the events that `Owes` counts, so each of its four parts is the old one.
  have hcount : ∀ e : Event, (∀ h, e ≠ .used h) → (hs'.map Event.used).count e = 0 := by
    intro e he
    refine List.count_eq_zero.2 fun hmem => ?_
    obtain ⟨h, -, rfl⟩ := List.mem_map.1 hmem
    exact he h rfl
  have hmem : ∀ e : Event, (∀ h, e ≠ .used h) → e ∈ (s.note (hs'.map .used)).trace →
      e ∈ s.trace := by
    intro e he hmem
    rcases List.mem_append.1 hmem with hmem | hmem
    · exact hmem
    · obtain ⟨h, -, rfl⟩ := List.mem_map.1 hmem
      exact absurd rfl (he h)
  refine ⟨fun h => ?_, fun h => ?_, fun h hh => ?_, fun h hh => ?_⟩
  · unfold note
    rw [List.count_append, List.count_append, hcount _ (by simp), hcount _ (by simp)]
    exact hs.balance h
  · unfold note
    rw [List.count_append, hcount _ (by simp)]
    exact hs.once h
  · exact hs.new h (hmem _ (by simp) hh)
  · exact hs.kept h (hmem _ (by simp) hh)

/-- A new distribution is owed. -/
theorem Owes.make (hs : s.Owes own) (id : InstId) : (s.make id).Owes (.made s.count ::ₘ own) := by
  -- It has not been made before.
  have hnew : s.trace.count (.made (.made s.count)) = 0 := by
    refine List.count_eq_zero.2 fun hmem => ?_
    obtain ⟨n, hn, heq⟩ := hs.new _ hmem
    cases heq
    exact Nat.lt_irrefl _ hn
  refine ⟨fun h => ?_, fun h => ?_, fun h hh => ?_, fun h hh => ?_⟩
  · have hbalance := hs.balance h
    simp only [Tracking.make, List.count_append, List.count_singleton, Multiset.count_cons]
    by_cases heq : h = .made s.count
    · subst heq
      simp
      omega
    · have hne : (Event.made (.made s.count) == .made h) = false := by
        simpa using fun hc => heq hc.symm
      simp [heq, hne]
      omega
  · have honce := hs.once h
    simp only [Tracking.make, List.count_append, List.count_singleton]
    by_cases heq : h = .made s.count
    · subst heq
      simp [hnew]
    · have hne : (Event.made (.made s.count) == .made h) = false := by
        simpa using fun hc => heq hc.symm
      simpa [hne] using honce
  · rcases List.mem_append.1 hh with hh | hh
    · obtain ⟨n, hn, heq⟩ := hs.new h hh
      exact ⟨n, Nat.lt_succ_of_lt hn, heq⟩
    · cases List.mem_singleton.1 hh
      exact ⟨s.count, Nat.lt_succ_self _, rfl⟩
  · rcases List.mem_append.1 hh with hh | hh
    · exact hs.kept h hh
    · cases List.mem_singleton.1 hh

/-- What is destroyed is no longer owed. -/
theorem Owes.destroy (hs : s.Owes (h ::ₘ own)) : (s.note [.destroyed h]).Owes own := by
  -- One handle leaves the debts, and one event takes its place in the trace.
  refine ⟨fun h' => ?_, fun h' => ?_, fun h' hh => ?_, fun h' hh => ?_⟩
  · have hbalance := hs.balance h'
    rw [Multiset.count_cons] at hbalance
    simp only [note, List.count_append, List.count_singleton]
    by_cases heq : h' = h
    · subst heq
      simp at hbalance ⊢
      omega
    · have hne : (Event.destroyed h == .destroyed h') = false := by
        simpa using fun hc => heq hc.symm
      simp [hne, heq] at hbalance ⊢
      omega
  · have honce := hs.once h'
    simpa [note, List.count_append] using honce
  · rcases List.mem_append.1 hh with hh | hh
    · exact hs.new h' hh
    · cases List.mem_singleton.1 hh
  · rcases List.mem_append.1 hh with hh | hh
    · exact hs.kept h' hh
    · cases List.mem_singleton.1 hh

end Tracking

/-! ## Orderly traces -/

/-- Once a distribution has been destroyed, nothing happens to it any more. -/
def Orderly (trace : List Event) : Prop :=
  trace.Pairwise fun e e' => e ≠ .destroyed e'.handle

theorem Orderly.append {trace es : List Event} (h : Orderly trace) (hes : Orderly es)
    (hlive : ∀ e ∈ es, .destroyed e.handle ∉ trace) : Orderly (trace ++ es) := by
  refine List.pairwise_append.2 ⟨h, hes, fun e he e' he' heq => ?_⟩
  rw [heq] at he
  exact hlive e' he' he

theorem Orderly.uses (hs : List Handle) : Orderly (hs.map .used) := by
  refine List.pairwise_of_forall_mem_list fun e he e' _ heq => ?_
  obtain ⟨h, -, rfl⟩ := List.mem_map.1 he
  cases heq

/-! ## Whole runs -/

/-- Every distribution that was made is destroyed once, or it is the result
    and not destroyed at all.  Arguments are neither destroyed nor returned. -/
structure Disposed (trace : List Event) : Prop where
  once : ∀ h, .made h ∈ trace → trace.count (.made h) = 1 ∧
    trace.count (.destroyed h) + trace.count (.returned h) = 1
  made : ∀ h, .destroyed h ∈ trace ∨ .returned h ∈ trace → .made h ∈ trace
  arguments : ∀ i, .destroyed (.arg i) ∉ trace ∧ .returned (.arg i) ∉ trace

theorem Disposed.of_balance {trace : List Event}
    (hbalance : ∀ h, trace.count (.destroyed h) + trace.count (.returned h) = trace.count (.made h))
    (honce : ∀ h, trace.count (.made h) ≤ 1) (hnew : ∀ h, .made h ∈ trace → ∃ n, h = .made n) :
    Disposed trace := by
  have hmade : ∀ h, .destroyed h ∈ trace ∨ .returned h ∈ trace → .made h ∈ trace := by
    intro h hmem
    have hsum := hbalance h
    rw [← List.count_pos_iff, ← List.count_pos_iff] at hmem
    exact List.count_pos_iff.1 (by omega)
  -- Arguments are made by nobody, so they are neither destroyed nor returned.
  refine ⟨fun h hmem => ?_, hmade, fun i => ⟨fun hmem => ?_, fun hmem => ?_⟩⟩
  · have hpos := List.count_pos_iff.2 hmem
    have hle := honce h
    have hsum := hbalance h
    omega
  · obtain ⟨n, hn⟩ := hnew _ (hmade _ (.inl hmem))
    cases hn
  · obtain ⟨n, hn⟩ := hnew _ (hmade _ (.inr hmem))
    cases hn

/-- All accounts of a run are closed, and in a strict run they were in order. -/
structure Accounted (strict : Prop) (trace : List Event) : Prop where
  disposed : Disposed trace
  orderly : strict → Orderly trace

/-! ## Variables -/

namespace Tracking

variable {s t : Tracking} {slots slots' : List Slot} {slot : Slot} {h : Handle}

/-- The handle that a variable holds, if it is a distribution. -/
def slotHandle? (s : Tracking) (slot : Slot) : Option Handle :=
  if slot.ty = Builtin.dfunc.id then s.cell? slot.ptr else none

/-- The handles that variables hold. -/
def held (s : Tracking) (slots : List Slot) : Multiset Handle := slots.filterMap s.slotHandle?

theorem held_cons_some (hty : slot.ty = Builtin.dfunc.id) (hh : s.cell? slot.ptr = some h) :
    s.held (slot :: slots) = h ::ₘ s.held slots := by
  have hslot : s.slotHandle? slot = some h := (if_pos hty).trans hh
  unfold held
  rw [List.filterMap_cons_some hslot]
  rfl

theorem held_cons_none (hty : slot.ty ≠ Builtin.dfunc.id) :
    s.held (slot :: slots) = s.held slots := by
  have hslot : s.slotHandle? slot = none := if_neg hty
  unfold held
  rw [List.filterMap_cons_none hslot]

theorem held_perm (hperm : slots.Perm slots') : s.held slots = s.held slots' :=
  Multiset.coe_eq_coe.2 (hperm.filterMap _)

theorem mem_held (hslot : slot ∈ slots) (hty : slot.ty = Builtin.dfunc.id)
    (hh : s.cell? slot.ptr = some h) : h ∈ s.held slots :=
  List.mem_filterMap.2 ⟨slot, hslot, (if_pos hty).trans hh⟩

/-- What variables hold depends on their slots alone. -/
theorem held_congr (hcells : ∀ slot ∈ slots, t.cell? slot.ptr = s.cell? slot.ptr) :
    t.held slots = s.held slots := by
  unfold held
  rw [List.filterMap_congr fun slot hslot => ?_]
  unfold slotHandle?
  rw [hcells slot hslot]

/-- Each variable that is a distribution holds one, and what is owed is what
    the variables hold and what is pending.  In a strict run the trace is
    orderly. -/
structure Holds (strict : Prop) (s : Tracking) (slots : List Slot) (pending : Multiset Handle) :
    Prop where
  filled : ∀ slot ∈ slots, slot.ty = Builtin.dfunc.id → ∃ h, s.cell? slot.ptr = some h
  owes : s.Owes (s.held slots + pending)
  orderly : strict → Orderly s.trace

namespace Holds

variable {strict : Prop} {pending pending' : Multiset Handle}

theorem start (strict : Prop) : start.Holds strict [] 0 where
  filled _ hslot := by cases hslot
  owes := .start
  orderly _ := .nil

theorem live (hs : s.Holds strict slots pending) (hh : h ∈ pending) : .destroyed h ∉ s.trace :=
  hs.owes.live (Multiset.mem_add.2 (.inr hh))

theorem live_held (hs : s.Holds strict slots pending) (hh : h ∈ s.held slots) :
    .destroyed h ∉ s.trace := hs.owes.live (Multiset.mem_add.2 (.inl hh))

theorem cast (hs : s.Holds strict slots pending) (heq : pending = pending') :
    s.Holds strict slots pending' := heq ▸ hs

theorem perm (hs : s.Holds strict slots pending) (hperm : slots.Perm slots') :
    s.Holds strict slots' pending where
  filled slot hslot := hs.filled slot (hperm.mem_iff.2 hslot)
  owes := held_perm (s := s) hperm ▸ hs.owes
  orderly := hs.orderly

/-- Only slots and what has happened matter. -/
theorem of_trace (hs : s.Holds strict slots pending) (htrace : t.trace = s.trace)
    (hcount : t.count = s.count)
    (hcells : ∀ slot ∈ slots, t.cell? slot.ptr = s.cell? slot.ptr) :
    t.Holds strict slots pending where
  filled slot hslot hty := by
    rw [hcells slot hslot]
    exact hs.filled slot hslot hty
  owes := by
    rw [held_congr hcells]
    exact hs.owes.of_trace htrace hcount
  orderly := by
    rw [htrace]
    exact hs.orderly

theorem setReg (hs : s.Holds strict slots pending) (id : InstId) (v : Option Handle) :
    (s.setReg id v).Holds strict slots pending :=
  hs.of_trace rfl rfl fun slot _ => by rw [setReg_cell?]

/-- The same slots, while something else has happened. -/
theorem of_cells (hs : s.Holds strict slots pending) (hcells : t.cell? = s.cell?)
    (howes : t.Owes (s.held slots + pending')) (horderly : strict → Orderly t.trace) :
    t.Holds strict slots pending' where
  filled slot hslot hty := by
    rw [hcells]
    exact hs.filled slot hslot hty
  owes := by
    rw [held_congr (s := s) fun slot _ => by rw [hcells]]
    exact howes
  orderly := horderly

theorem note_used (hs : s.Holds strict slots pending) {used : List Handle}
    (hlive : strict → ∀ h ∈ used, .destroyed h ∉ s.trace) :
    (s.note (used.map .used)).Holds strict slots pending := by
  refine hs.of_cells (note_cell? ..) (hs.owes.note_used used) fun hstrict => ?_
  refine (hs.orderly hstrict).append (.uses used) fun e he => ?_
  obtain ⟨h, hh, rfl⟩ := List.mem_map.1 he
  exact hlive hstrict h hh

theorem make (hs : s.Holds strict slots pending) (id : InstId) :
    (s.make id).Holds strict slots (.made s.count ::ₘ pending) := by
  refine hs.of_cells (make_cell? ..) ?_ fun hstrict => ?_
  · rw [Multiset.add_cons]
    exact hs.owes.make id
  · refine (hs.orderly hstrict).append (List.pairwise_singleton _ _) fun e he hmem => ?_
    obtain rfl := List.mem_singleton.1 he
    obtain ⟨n, hn, heq⟩ := hs.owes.new _ (hs.owes.made_of_destroyed hmem)
    cases heq
    exact Nat.lt_irrefl _ hn

/-- The handles of the slots and of what is pending are owed together. -/
theorem destroyed {own : Multiset Handle} (horderly : strict → Orderly s.trace)
    (howes : s.Owes (h ::ₘ own)) :
    (s.note [.destroyed h]).Owes own ∧ (strict → Orderly (s.note [.destroyed h]).trace) := by
  refine ⟨howes.destroy, fun hstrict => ?_⟩
  refine (horderly hstrict).append (List.pairwise_singleton _ _) fun e he => ?_
  obtain rfl := List.mem_singleton.1 he
  exact howes.live (Multiset.mem_cons_self _ _)

theorem destroy (hs : s.Holds strict slots (h ::ₘ pending)) :
    (s.note [.destroyed h]).Holds strict slots pending := by
  have howes := hs.owes
  rw [Multiset.add_cons] at howes
  obtain ⟨howes', horderly⟩ := destroyed hs.orderly howes
  exact hs.of_cells (note_cell? ..) howes' horderly

/-- A variable comes to its end. -/
theorem destroySlot (hs : s.Holds strict (slot :: slots) pending)
    (hty : slot.ty = Builtin.dfunc.id) (hh : s.cell? slot.ptr = some h) :
    (s.note [.destroyed h]).Holds strict slots pending := by
  have howes := hs.owes
  rw [held_cons_some hty hh, Multiset.cons_add] at howes
  obtain ⟨howes', horderly⟩ := destroyed hs.orderly howes
  refine ⟨fun other hother => ?_, ?_, horderly⟩
  · rw [note_cell?]
    exact hs.filled other (List.mem_cons_of_mem _ hother)
  · rw [held_congr (s := s) fun other _ => by rw [note_cell?]]
    exact howes'

theorem dropSlot (hs : s.Holds strict (slot :: slots) pending)
    (hty : slot.ty ≠ Builtin.dfunc.id) : s.Holds strict slots pending where
  filled other hother := hs.filled other (List.mem_cons_of_mem _ hother)
  owes := held_cons_none (s := s) hty ▸ hs.owes
  orderly := hs.orderly

variable {a : InstId}

/-- A slot that no variable has yet is filled. -/
theorem setCell (hs : s.Holds strict slots pending) (v : Option Handle)
    (hfresh : ∀ other ∈ slots, other.ptr ≠ .inst a) :
    (s.setCell a v).Holds strict slots pending :=
  hs.of_trace rfl rfl fun other hother => setCell_cell?_ne (hfresh other hother) s v

/-- A variable takes over a pending handle. -/
theorem store (hs : s.Holds strict slots (h ::ₘ pending)) (hty : slot.ty = Builtin.dfunc.id)
    (hptr : slot.ptr = .inst a) (hfresh : ∀ other ∈ slots, other.ptr ≠ .inst a) :
    (s.setCell a (some h)).Holds strict (slot :: slots) pending := by
  have hother := hs.setCell (some h) hfresh
  have hslot : (s.setCell a (some h)).cell? slot.ptr = some h := by rw [hptr, setCell_cell?_self]
  refine ⟨fun other hmem hdf => ?_, ?_, hs.orderly⟩
  · rcases List.mem_cons.1 hmem with rfl | hmem
    · exact ⟨h, hslot⟩
    · exact hother.filled other hmem hdf
  · rw [held_cons_some hty hslot, Multiset.cons_add, ← Multiset.add_cons]
    exact hother.owes

/-- A variable that is no distribution. -/
theorem storeOther (hs : s.Holds strict slots pending) (hty : slot.ty ≠ Builtin.dfunc.id)
    (v : Option Handle) (hfresh : ∀ other ∈ slots, other.ptr ≠ .inst a) :
    (s.setCell a v).Holds strict (slot :: slots) pending := by
  have hother := hs.setCell v hfresh
  refine ⟨fun other hmem hdf => ?_, ?_, hs.orderly⟩
  · rcases List.mem_cons.1 hmem with rfl | hmem
    · exact absurd hdf hty
    · exact hother.filled other hmem hdf
  · rw [held_cons_none hty]
    exact hother.owes

/-- One of several variables with different slots, in front of the others. -/
theorem slots_split (hslot : slot ∈ slots)
    (hapart : (slots.map (·.ptr)).Nodup) :
    ∃ others, slots.Perm (slot :: others) ∧ ∀ other ∈ others, other.ptr ≠ slot.ptr := by
  obtain ⟨front, back, rfl⟩ := List.append_of_mem hslot
  refine ⟨front ++ back, List.perm_middle, fun other hother heq => ?_⟩
  rw [List.map_append, List.map_cons, List.nodup_middle, List.nodup_cons, ← List.map_append] at hapart
  exact hapart.1 (heq ▸ List.mem_map_of_mem hother)

/-- A run that owes nothing at its end. -/
theorem accounted (hs : s.Holds strict [] 0) : Accounted strict s.trace := by
  refine ⟨.of_balance (fun h => ?_) hs.owes.once fun h hh => ?_, hs.orderly⟩
  · rw [List.count_eq_zero.2 (hs.owes.kept h)]
    exact hs.owes.balance h
  · obtain ⟨n, -, rfl⟩ := hs.owes.new h hh
    exact ⟨n, rfl⟩

/-- A run that owes its result. -/
theorem accounted_returned (hs : s.Holds strict [] {h}) :
    Accounted strict (s.trace ++ [.returned h]) := by
  have hbalance : ∀ h', s.trace.count (.destroyed h') + Multiset.count h' {h} =
      s.trace.count (.made h') := hs.owes.balance
  refine ⟨.of_balance (fun h' => ?_) (fun h' => ?_) fun h' hh => ?_, fun hstrict => ?_⟩
  · have hsum := hbalance h'
    rw [Multiset.count_singleton] at hsum
    simp only [List.count_append, List.count_eq_zero.2 (hs.owes.kept h'), List.count_singleton]
    -- Returning settles the one handle still owed; every other handle keeps its balance.
    by_cases heq : h' = h
    · subst heq
      simp at hsum ⊢
      exact hsum
    · have hne : (Event.returned h == .returned h') = false := by
        simpa using fun hc => heq hc.symm
      simp [heq, hne] at hsum ⊢
      exact hsum
  · simpa [List.count_append] using hs.owes.once h'
  · rcases List.mem_append.1 hh with hh | hh
    · obtain ⟨n, -, rfl⟩ := hs.owes.new h' hh
      exact ⟨n, rfl⟩
    · cases List.mem_singleton.1 hh
  · refine (hs.orderly hstrict).append (List.pairwise_singleton _ _) fun e he => ?_
    obtain rfl := List.mem_singleton.1 he
    exact hs.live (Multiset.mem_singleton_self h)

end Holds

end Tracking

end IR

end Shading
