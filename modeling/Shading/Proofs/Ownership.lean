import Mathlib.Algebra.Order.BigOperators.Group.List
import Mathlib.Data.Multiset.OrderedMonoid
import Shading.Proofs.Handles
import Shading.Proofs.TypedExpressions

/-! # Who owns a distribution

    The result of an expression is owned by whoever computed it, or it is
    borrowed from a variable.  Each piece of emitted code keeps the ledger: a
    new distribution comes with its owner, a copy is made of what is only
    borrowed, and what nobody keeps is destroyed.

    `Tracking.Runs` is about instructions that run one after the other, and
    `Code.Yields` about code with branches, whatever way they take. -/

namespace Shading

open IR

variable {v w : Value} {xs : List ExprValue} {i : Inst} {a id : InstId} {l : Lines} {r : Typed}

/-- Only distributions have the shape of distributions. -/
theorem TypeTable.representation_eq_distribution {ty : TypeId} {shape : Ty}
    (h : builtins.representation ty = .ok shape) :
    shape = Distribution.ty ↔ ty = Builtin.dfunc.id := by
  obtain ⟨b, rfl, hb⟩ := builtins_representation_eq_ok.1 h
  rw [Builtin.id_eq_iff]
  cases b with
  | module => cases hb
  | _ =>
    cases hb
    decide

namespace IR

/-! ## Operands in hand -/

namespace Tracking

variable {s t u : Tracking} {x : ExprValue} {bound bound' : Nat}

/-- Registers below a bound are as they were. -/
def Keeps (bound : Nat) (s t : Tracking) : Prop := ∀ i, i < bound → t.regs i = s.regs i

theorem Keeps.refl (bound : Nat) (s : Tracking) : Keeps bound s s := fun _ _ => rfl

theorem Keeps.trans (h : Keeps bound s t) (h' : Keeps bound t u) : Keeps bound s u :=
  fun i hi => (h' i hi).trans (h i hi)

theorem Keeps.mono (h : Keeps bound s t) (hle : bound' ≤ bound) : Keeps bound' s t :=
  fun i hi => h i (Nat.lt_of_lt_of_le hi hle)

/-- An operand that is a distribution is in a register below a bound. -/
def Carries (s : Tracking) (bound : Nat) (x : ExprValue) : Prop :=
  x.ty = Builtin.dfunc.id → ∃ id h, x.value = .inst id ∧ id < bound ∧ s.regs id = some h

theorem Carries.keep (hx : s.Carries bound x) (hkeeps : Keeps bound s t) (hle : bound ≤ bound') :
    t.Carries bound' x := by
  intro hty
  obtain ⟨id, h, hv, hid, hh⟩ := hx hty
  exact ⟨id, h, hv, Nat.lt_of_lt_of_le hid hle, (hkeeps id hid).trans hh⟩

end Tracking

namespace Host

open Tracking

variable {H : Host} {strict : Prop} {s t : Tracking} {slots : List Slot} {x : ExprValue}
  {h : Handle} {bound : Nat}

/-- The handle that comes with the result of an expression. -/
def owned (H : Host) (s : Tracking) (x : ExprValue) : Multiset Handle :=
  if x.owned = true ∧ x.ty = Builtin.dfunc.id then (H.operand? s x.value).toList else 0

theorem owned_of_borrowed (hx : x.owned = false) : H.owned s x = 0 :=
  if_neg fun h => by simp [hx] at h

theorem owned_of_ne (hty : x.ty ≠ Builtin.dfunc.id) : H.owned s x = 0 := if_neg fun h => hty h.2

theorem owned_of_some (hx : x.owned = true) (hty : x.ty = Builtin.dfunc.id)
    (hh : H.operand? s x.value = some h) : H.owned s x = {h} := by
  unfold owned
  rw [if_pos ⟨hx, hty⟩, hh]
  rfl

theorem operand?_keep (hx : s.Carries bound x) (hkeeps : Keeps bound s t)
    (hty : x.ty = Builtin.dfunc.id) : H.operand? t x.value = H.operand? s x.value := by
  obtain ⟨id, h, hv, hid, -⟩ := hx hty
  rw [hv]
  exact hkeeps id hid

theorem owned_keep (hx : s.Carries bound x) (hkeeps : Keeps bound s t) :
    H.owned t x = H.owned s x := by
  by_cases hty : x.ty = Builtin.dfunc.id
  · unfold owned
    rw [operand?_keep hx hkeeps hty]
  · rw [owned_of_ne hty, owned_of_ne hty]

theorem owned_of_regs (hregs : t.regs = s.regs) : H.owned t x = H.owned s x := by
  have hop : H.operand? t x.value = H.operand? s x.value := by
    cases x.value with
    | inst id => exact congrFun hregs id
    | const c => rfl
    | arg i => rfl
    | void => rfl
  unfold owned
  rw [hop]

theorem owned_le (hx : x ∈ xs) (pending : Multiset Handle) :
    H.owned s x ≤ (xs.map (H.owned s)).sum + pending :=
  (List.le_sum_of_mem (List.mem_map_of_mem hx)).trans (Multiset.le_add_right ..)

/-- In a strict run a distribution in hand has not been destroyed. -/
def Alive (H : Host) (strict : Prop) (s : Tracking) (x : ExprValue) : Prop :=
  strict → x.ty = Builtin.dfunc.id → ∀ h, H.operand? s x.value = some h → .destroyed h ∉ s.trace

/-- The distribution was read from a variable that still holds it. -/
def Lent (H : Host) (slots : List Slot) (s : Tracking) (x : ExprValue) : Prop :=
  x.ty = Builtin.dfunc.id → x.owned = false → ∃ slot ∈ slots, slot.ty = Builtin.dfunc.id ∧
    s.cell? slot.ptr = H.operand? s x.value

/-- What is owned and what a variable still holds is alive. -/
theorem alive_of_lent {pending : Multiset Handle} (hs : s.Holds strict slots pending)
    (hx : H.owned s x ≤ pending) (hlent : strict → H.Lent slots s x) : H.Alive strict s x := by
  intro hstrict hty h hh
  cases hown : x.owned with
  | true =>
    refine hs.live (Multiset.mem_of_le hx ?_)
    rw [owned_of_some hown hty hh]
    exact Multiset.mem_singleton_self h
  | false =>
    obtain ⟨slot, hslot, hdf, hcell⟩ := hlent hstrict hty hown
    exact hs.live_held (mem_held hslot hdf (hcell.trans hh))

theorem mem_used {args : List Value} {params : List Ty} (hh : h ∈ H.used s args params) :
    ∃ v ∈ args, H.operand? s v = some h := by
  obtain ⟨q, hq, hif⟩ := List.mem_filterMap.1 hh
  split at hif
  · exact ⟨q.1, (List.of_mem_zip hq).1, hif⟩
  · cases hif

end Host

/-! ## Instructions -/

namespace Interp

open Tracking Host

variable {H : Host} {s : Tracking} {id : InstId} {callee : FuncId} {name : String}
  {sig : Signature} {ty : Ty} {label : Option String}

theorem tracking_call (hd : H.module.Declares callee name sig)
    (hname : name ≠ Distribution.destroySymbol) (s : Tracking) (id : InstId) (args : List Value) :
    (tracking H).exec id ⟨.call callee args, sig.ret, none⟩ s =
      some (if sig.ret = Distribution.ty
        then (s.note ((H.used s args sig.params).map .used)).make id
        else s.note ((H.used s args sig.params).map .used)) := by
  obtain ⟨g, hg, rfl, rfl⟩ := hd
  show H.call? s id callee args = _
  unfold Host.call?
  rw [hg]
  exact if_neg hname

theorem tracking_destroy {h : Handle} (hd : H.module.Declares callee Distribution.destroySymbol sig)
    (hv : H.operand? s v = some h) :
    (tracking H).exec id ⟨.call callee [v], ty, label⟩ s = some (s.note [.destroyed h]) := by
  obtain ⟨g, hg, hname, -⟩ := hd
  show H.call? s id callee [v] = _
  unfold Host.call?
  rw [hg]
  simp only [if_pos hname, List.head?_cons, Option.bind_some, hv, Option.map_some]

theorem tracking_isPure (h : i.op.isPure = true) : (tracking H).exec id i s = some s := by
  unfold tracking
  cases hop : i.op <;> simp_all [Op.isPure]

end Interp

namespace Tracking

open Host

variable {H : Host} {strict : Prop} {lo hi : Nat} {s t : Tracking} {l l' : Lines}
  {Q R : Tracking → Prop} {slots : List Slot} {pending : Multiset Handle} {x y : ExprValue}

/-- Instructions run one after the other, they leave registers below a bound
    as they are, and the state behind them satisfies `Q`. -/
def Runs (H : Host) (lo : Nat) (s : Tracking) (l : Lines) (Q : Tracking → Prop) : Prop :=
  ∃ t, (Interp.tracking H).execAll l s = some t ∧ Keeps lo s t ∧ Q t

namespace Runs

theorem nil (h : Q s) : Runs H lo s [] Q := ⟨s, rfl, .refl lo s, h⟩

theorem append (h : Runs H lo s l Q) (h' : ∀ t, Keeps lo s t → Q t → Runs H lo t l' R) :
    Runs H lo s (l ++ l') R := by
  obtain ⟨t, ht, hkeeps, hQ⟩ := h
  obtain ⟨u, hu, hkeeps', hR⟩ := h' t hkeeps hQ
  refine ⟨u, ?_, hkeeps.trans hkeeps', hR⟩
  rw [Interp.execAll_append, ht]
  exact hu

theorem mono (h : Runs H lo s l Q) (hQ : ∀ t, Keeps lo s t → Q t → R t) : Runs H lo s l R := by
  obtain ⟨t, ht, hkeeps, hQt⟩ := h
  exact ⟨t, ht, hkeeps, hQ t hkeeps hQt⟩

theorem weaken (h : Runs H hi s l Q) (hle : lo ≤ hi) : Runs H lo s l Q := by
  obtain ⟨t, ht, hkeeps, hQ⟩ := h
  exact ⟨t, ht, hkeeps.mono hle, hQ⟩

theorem one (hexec : (Interp.tracking H).exec id i s = some t) (hkeeps : Keeps lo s t) (hQ : Q t) :
    Runs H lo s [(id, i)] Q := by
  refine ⟨t, ?_, hkeeps, hQ⟩
  rw [Interp.execAll, hexec]
  rfl

/-- Instructions that only compute have nothing to do with distributions. -/
theorem computes {given out : List Value} (h : Computes given l out) (hQ : Q s) :
    Runs H lo s l Q := by
  induction h with
  | nil h => exact .nil hQ
  | cons hpure hops rest ih =>
    obtain ⟨t, ht, hkeeps, hQt⟩ := ih
    refine ⟨t, ?_, hkeeps, hQt⟩
    rw [Interp.execAll, Interp.tracking_isPure hpure]
    exact ht

theorem pure {op : Op} {ty : Ty} (h : Build.OneInst H op ty v l) (hpure : op.isPure = true)
    (hQ : Q s) : Runs H lo s l Q := by
  obtain ⟨id, rfl, rfl, -⟩ := h
  exact .one (Interp.tracking_isPure hpure) (.refl lo s) hQ

end Runs

/-- A result is in hand: it is in a register if it is a distribution, and its
    handle is owed beside what is pending. -/
structure Offers (H : Host) (strict : Prop) (slots : List Slot) (pending : Multiset Handle)
    (bound : Nat) (x : ExprValue) (t : Tracking) : Prop where
  carries : t.Carries bound x
  holds : t.Holds strict slots (H.owned t x + pending)

/-- A result that is no distribution. -/
theorem Offers.plain (hs : s.Holds strict slots pending) (hty : x.ty ≠ Builtin.dfunc.id) :
    Offers H strict slots pending hi x s where
  carries h := absurd h hty
  holds := by
    rw [owned_of_ne hty, zero_add]
    exact hs

/-- A result is in hand, and no slot has changed. -/
structure Brings (H : Host) (strict : Prop) (slots : List Slot) (pending : Multiset Handle)
    (bound : Nat) (x : ExprValue) (s t : Tracking) : Prop
    extends Offers H strict slots pending bound x t where
  cells : t.cell? = s.cell?

theorem Brings.plain (hs : s.Holds strict slots pending) (hty : x.ty ≠ Builtin.dfunc.id) :
    Brings H strict slots pending hi x s s := ⟨.plain hs hty, rfl⟩

/-- A call whose result is a distribution. -/
theorem Runs.makes {symbol : String} {sig : Signature} {args : List Value}
    (h : Build.OneCall H symbol sig args v l) (hname : symbol ≠ Distribution.destroySymbol)
    (hret : sig.ret = Distribution.ty) (hin : ∀ q ∈ l, lo ≤ q.1 ∧ q.1 < hi)
    (hs : s.Holds strict slots pending)
    (hlive : strict → ∀ h ∈ H.used s args sig.params, .destroyed h ∉ s.trace) :
    Runs H lo s l (Brings H strict slots pending hi ⟨Builtin.dfunc.id, v, true⟩ s) := by
  obtain ⟨callee, id, hd, rfl, rfl⟩ := h
  obtain ⟨hlo, hhi⟩ := hin _ (List.mem_singleton.2 rfl)
  have hv : Build.callResult sig.ret id = .inst id := by rw [hret]; rfl
  have hexec := Interp.tracking_call hd hname s id args
  rw [if_pos hret] at hexec
  -- The result is a new handle, and it is owed from here on.
  refine .one hexec (fun i hi => make_ne (Nat.ne_of_lt (Nat.lt_of_lt_of_le hi hlo)) _)
    ⟨⟨?_, ?_⟩, ?_⟩
  · exact fun _ => ⟨id, _, hv, hhi, make_self ..⟩
  · have hheld := (hs.note_used hlive).make id
    rw [owned_of_some rfl rfl (show H.operand? _ (Build.callResult sig.ret id) = some (.made s.count)
      by rw [hv]; exact make_self ..), Multiset.singleton_add]
    exact hheld
  · rw [make_cell?, note_cell?]

/-! ## Copies and ends -/

/-- A value that its consumer owns. -/
theorem Runs.materialize (h : MaterializeLine H x v l) (hin : ∀ q ∈ l, lo ≤ q.1 ∧ q.1 < hi)
    (hle : lo ≤ hi) (hx : s.Carries lo x) (halive : H.Alive strict s x)
    (hs : s.Holds strict slots (H.owned s x + pending)) :
    Runs H lo s l (Brings H strict slots pending hi ⟨x.ty, v, true⟩ s) := by
  cases h with
  | owned h =>
    have heq : (⟨x.ty, x.value, true⟩ : ExprValue) = x := by rw [← h]
    rw [heq]
    exact .nil ⟨⟨hx.keep (.refl lo s) hle, hs⟩, rfl⟩
  | borrowed h hcopy =>
    rw [owned_of_borrowed h, zero_add] at hs
    -- A borrowed distribution is copied, and the copy is what is owned.
    cases hcopy with
    | same hty => exact .nil (.plain hs hty)
    | copy hty hcall =>
      rw [hty]
      refine .makes hcall (by decide) rfl hin hs fun hstrict h hh => ?_
      obtain ⟨w, hw, hop⟩ := mem_used hh
      rw [List.mem_singleton.1 hw] at hop
      exact halive hstrict hty h hop

/-- One call that destroys a distribution. -/
theorem Runs.destroys {r : Value} {sig : Signature} {h : Handle}
    (hcall : Build.OneCall H Distribution.destroySymbol sig [v] r l) (hv : H.operand? s v = some h)
    (hQ : Q (s.note [.destroyed h])) : Runs H lo s l Q := by
  obtain ⟨callee, id, hd, -, rfl⟩ := hcall
  exact .one (Interp.tracking_destroy hd hv) (fun _ _ => rfl) hQ

/-- The end of a value that nobody keeps. -/
theorem Runs.release (h : ReleaseLine H x l) (hx : s.Carries lo x)
    (hs : s.Holds strict slots (H.owned s x + pending)) :
    Runs H lo s l fun t => t.Holds strict slots pending ∧ t.cell? = s.cell? ∧ t.regs = s.regs := by
  -- A value that owns nothing leaves no line behind.
  have hnone : H.owned s x = 0 → Runs H lo s [] fun t =>
      t.Holds strict slots pending ∧ t.cell? = s.cell? ∧ t.regs = s.regs := by
    intro hzero
    rw [hzero, zero_add] at hs
    exact .nil ⟨hs, rfl, rfl⟩
  cases h with
  | kept h =>
    rcases h with h | h
    · exact hnone (owned_of_borrowed h)
    · refine hnone ?_
      unfold Host.owned
      rw [h]
      exact ite_self _
  | released hown hv hdestroy =>
    cases hdestroy with
    | none hty => exact hnone (owned_of_ne hty)
    | destroy hty hcall =>
      obtain ⟨id, h, hval, -, hh⟩ := hx hty
      have hop : H.operand? s x.value = some h := by rw [hval]; exact hh
      rw [owned_of_some hown hty hop, Multiset.singleton_add] at hs
      exact .destroys hcall hop ⟨hs.destroy, note_cell? .., rfl⟩

theorem Runs.releases (h : Each (ReleaseLine H) xs l) (hxs : ∀ x ∈ xs, s.Carries lo x)
    (hs : s.Holds strict slots ((xs.map (H.owned s)).sum + pending)) :
    Runs H lo s l fun t => t.Holds strict slots pending ∧ t.cell? = s.cell? ∧ t.regs = s.regs := by
  induction h generalizing s with
  | nil =>
    rw [List.map_nil, List.sum_nil, zero_add] at hs
    exact .nil ⟨hs, rfl, rfl⟩
  | @cons x xs l l' hx rest ih =>
    rw [List.map_cons, List.sum_cons, add_assoc] at hs
    refine (Runs.release hx (hxs x List.mem_cons_self) hs).append fun t hkeeps ht => ?_
    obtain ⟨hheld, hcells, hregs⟩ := ht
    have hcarries : ∀ y ∈ xs, s.Carries lo y := fun y hy => hxs y (List.mem_cons_of_mem _ hy)
    -- The other results are still where they were.
    have howned : xs.map (H.owned s) = xs.map (H.owned t) :=
      List.map_congr_left fun y hy => (owned_keep (hcarries y hy) hkeeps).symm
    rw [howned] at hheld
    refine (ih (fun y hy => (hcarries y hy).keep hkeeps (Nat.le_refl lo)) hheld).mono ?_
    rintro u - ⟨hu, hc, hr⟩
    exact ⟨hu, hc.trans hcells, hr.trans hregs⟩

/-- The operands of an operation come to their end when its result is there. -/
theorem Runs.operate {r : ExprValue} {mid : Nat} (hrel : Each (ReleaseLine H) xs l)
    (hxs : ∀ x ∈ xs, s.Carries mid x) (hkeeps : Keeps mid s t)
    (hr : Brings H strict slots ((xs.map (H.owned s)).sum + pending) hi r s t) :
    Runs H mid t l (Brings H strict slots pending hi r s) := by
  have howned : xs.map (H.owned s) = xs.map (H.owned t) :=
    List.map_congr_left fun x hx => (owned_keep (hxs x hx) hkeeps).symm
  have hheld := hr.holds.cast (add_left_comm _ _ _)
  rw [howned] at hheld
  refine (Runs.releases hrel (fun x hx => (hxs x hx).keep hkeeps (Nat.le_refl mid)) hheld).mono ?_
  rintro u - ⟨hu, hcells, hregs⟩
  refine ⟨⟨fun hty => ?_, ?_⟩, hcells.trans hr.cells⟩
  · rw [hregs]
    exact hr.carries hty
  · rw [owned_of_regs hregs]
    exact hu

/-- A variable comes to its end.  Only registers of loads have changed. -/
theorem Runs.destroySlot {slot : Slot} (h : DestroySlotLine H slot l) (hin : ∀ q ∈ l, lo ≤ q.1)
    (hptr : slot.ptr = .inst a) (hs : s.Holds strict (slot :: slots) pending) :
    Runs H lo s l fun t => t.Holds strict slots pending ∧ t.cell? = s.cell? ∧
      ∀ i, (∀ p ty, (i, ⟨.load p, ty, none⟩) ∉ l) → t.regs i = s.regs i := by
  cases h with
  | none hty => exact .nil ⟨hs.dropSlot hty, rfl, fun _ _ => rfl⟩
  | @destroy ty v r l l' hty hload hcall =>
    -- The handle is read from the slot and destroyed; the slot itself is not touched.
    obtain ⟨id, rfl, rfl, -⟩ := hload
    obtain ⟨h, hh⟩ := hs.filled slot List.mem_cons_self hty
    have hlo : lo ≤ id := hin _ (List.mem_append_left _ (List.mem_singleton.2 rfl))
    have hexec : (Interp.tracking H).exec id ⟨.load slot.ptr, ty, none⟩ s =
        some (s.setReg id (s.cells a)) := by
      rw [hptr]
      rfl
    have hcell : s.cells a = some h := by
      rw [hptr] at hh
      exact hh
    refine Runs.append (.one hexec (fun i hi =>
      setReg_ne (Nat.ne_of_lt (Nat.lt_of_lt_of_le hi hlo)) _ _) rfl) ?_
    rintro t - rfl
    have hreg : H.operand? (s.setReg id (s.cells a)) (.inst id) = some h :=
      (setReg_self ..).trans hcell
    refine .destroys hcall hreg ⟨?_, ?_, fun i hi => ?_⟩
    · refine (hs.setReg id (s.cells a)).destroySlot hty ?_
      rw [setReg_cell?]
      exact hh
    · rw [note_cell?, setReg_cell?]
    · refine setReg_ne (fun heq => ?_) _ _
      subst heq
      exact hi _ _ (List.mem_append_left _ (List.mem_singleton.2 rfl))

/-- The ends of several variables. -/
theorem Runs.destroySlots {ends : List Slot} (h : Each (DestroySlotLine H) ends l)
    (hin : ∀ q ∈ l, lo ≤ q.1) (hptrs : ∀ slot ∈ ends, ∃ a, slot.ptr = .inst a)
    (hs : s.Holds strict (ends ++ slots) pending) :
    Runs H lo s l fun t => t.Holds strict slots pending := by
  induction h generalizing s with
  | nil => exact .nil hs
  | @cons slot rest l l' hslot hrest ih =>
    obtain ⟨a, hptr⟩ := hptrs slot List.mem_cons_self
    refine (Runs.destroySlot hslot (fun q hq => hin q (List.mem_append_left _ hq)) hptr hs).append ?_
    rintro t - ⟨ht, -, -⟩
    exact ih (fun q hq => hin q (List.mem_append_right _ hq))
      (fun other hother => hptrs other (List.mem_cons_of_mem _ hother)) ht

/-- A new slot takes over a value. -/
theorem Runs.store (slot : Slot) (h : StoreLine H v (.inst a) l) (hptr : slot.ptr = .inst a)
    (hs : Offers H strict slots pending hi ⟨slot.ty, v, true⟩ s)
    (hfresh : ∀ other ∈ slots, other.ptr ≠ .inst a) :
    Runs H lo s l fun t => t.Holds strict (slot :: slots) pending ∧
      t = s.setCell a (H.operand? s v) := by
  obtain ⟨_, -, -, id, rfl⟩ := h
  refine .one rfl (fun _ _ => rfl) ⟨?_, rfl⟩
  have hheld := hs.holds
  -- The debt moves from the value to the variable.
  by_cases hty : slot.ty = Builtin.dfunc.id
  · obtain ⟨j, h, hv, -, hreg⟩ := hs.carries hty
    have hop : H.operand? s v = some h := by
      rw [show v = .inst j from hv]
      exact hreg
    rw [owned_of_some rfl hty hop, Multiset.singleton_add] at hheld
    rw [hop]
    exact hheld.store hty hptr hfresh
  · rw [owned_of_ne hty, zero_add] at hheld
    exact hheld.storeOther hty _ hfresh

/-! ## Operators -/

theorem Runs.binary {op : BinaryOp} (h : BinaryLine H op x.typed y.typed r l)
    (hin : ∀ q ∈ l, lo ≤ q.1 ∧ q.1 < hi) (hx : H.Alive strict s x) (hy : H.Alive strict s y)
    (hs : s.Holds strict slots pending) :
    Runs H lo s l (Brings H strict slots pending hi (.ofTyped r) s) := by
  have plain : ∀ {b : Builtin} {v : Value}, b ≠ .dfunc →
      Brings H strict slots pending hi (.ofTyped ⟨b.id, v⟩) s s := by
    intro b v hb
    exact .plain hs fun heq => hb (Builtin.id_eq_iff.1 heq)
  cases h with
  | intArith _ _ _ _ hone => exact .pure hone rfl (plain (by decide))
  | intCompare _ _ _ hcmp =>
    obtain ⟨ty, -, hone⟩ := hcmp
    exact .pure hone rfl (plain (by decide))
  | boolCompare _ _ _ _ hcmp =>
    obtain ⟨ty, -, hone⟩ := hcmp
    exact .pure hone rfl (plain (by decide))
  | computed _ hr _ hc => exact .computes hc (.plain hs hr)
  | sum ha hb hcall =>
    refine .makes hcall (by decide) rfl hin hs fun hstrict h hh => ?_
    obtain ⟨w, hw, hop⟩ := mem_used hh
    rcases List.mem_cons.1 hw with rfl | hw
    · exact hx hstrict ha h hop
    · rw [List.mem_singleton.1 hw] at hop
      exact hy hstrict hb h hop
  | @scaled d n w v l l' hab hd hn hw hcall =>
    refine Runs.append (Q := (· = s)) (.computes hw rfl) ?_
    rintro t - rfl
    refine .makes hcall (by decide) rfl (fun q hq => hin q (List.mem_append_right _ hq)) hs
      fun hstrict h hh => ?_
    -- Of the two arguments only the first one is a distribution.
    obtain ⟨q, hq, hif⟩ := List.mem_filterMap.1 hh
    rw [List.zip_cons_cons, List.zip_cons_cons, List.zip_nil_right] at hq
    rcases List.mem_cons.1 hq with rfl | hq
    · rw [if_pos rfl] at hif
      rcases hab with ⟨rfl, -⟩ | ⟨rfl, -⟩
      · exact hx hstrict hd h hif
      · exact hy hstrict hd h hif
    · rw [List.mem_singleton.1 hq] at hif
      cases hif

theorem Runs.unary {op : UnaryOp} (hi : Nat) (h : UnaryLine H op x.typed r l)
    (hs : s.Holds strict slots pending) :
    Runs H lo s l (Brings H strict slots pending hi (.ofTyped r) s) := by
  cases h with
  | negInt _ _ _ hone =>
    exact .pure hone rfl (.plain hs fun heq => by simpa using Builtin.id_eq_iff.1 heq)
  | notBool _ _ hone =>
    exact .pure hone rfl (.plain hs fun heq => by simpa using Builtin.id_eq_iff.1 heq)
  | computed _ hr hd hc =>
    refine .computes hc (.plain hs fun heq => hd ?_)
    rw [← hr]
    exact heq

theorem Runs.construct {args : List Typed} (h : ConstructLine H args r l)
    (hin : ∀ q ∈ l, lo ≤ q.1 ∧ q.1 < hi) (hs : s.Holds strict slots pending) :
    Runs H lo s l (Brings H strict slots pending hi (.ofTyped r) s) := by
  cases h with
  | computed hr _ hc => exact .computes hc (.plain hs hr)
  | create _ _ _ hcall =>
    refine .makes hcall (by decide) rfl hin hs fun _ h hh => ?_
    -- A shader and a context are no distributions.
    obtain ⟨q, hq, hif⟩ := List.mem_filterMap.1 hh
    rw [List.zip_cons_cons, List.zip_cons_cons, List.zip_nil_right] at hq
    rcases List.mem_cons.1 hq with rfl | hq
    · cases hif
    · rw [List.mem_singleton.1 hq] at hif
      cases hif

theorem Runs.default {ty : TypeId} (h : DefaultLine H ty v l) (hin : ∀ q ∈ l, lo ≤ q.1 ∧ q.1 < hi)
    (hs : s.Holds strict slots pending) :
    Runs H lo s l (Brings H strict slots pending hi ⟨ty, v, true⟩ s) := by
  cases h with
  | zero hty _ => exact .nil (.plain hs hty)
  | empty hty hcall =>
    rw [hty]
    refine .makes hcall (by decide) rfl hin hs fun _ h hh => ?_
    cases hh

/-! ## Calls -/

/-- A conversion changes no distribution. -/
theorem Runs.coerce {z : ExprValue} {expected : TypeId} (lo : Nat) (h : CoerceLine H x expected z l)
    (hQ : Q s) : Runs H lo s l Q ∧ z.ty = expected ∧ (expected = Builtin.dfunc.id → z = x) := by
  cases h with
  | same h => exact ⟨.nil hQ, h, fun _ => rfl⟩
  | toFloat _ he hone =>
    refine ⟨.pure hone rfl hQ, rfl, fun hdf => ?_⟩
    rw [he, Builtin.id_eq_iff] at hdf
    cases hdf

/-- Converted arguments are distributions where the results were. -/
theorem Runs.converts {cs : List Conversion} {vs : List Value} (options : Options) (lo : Nat)
    (h : ConvertLines H xs cs vs l) (hQ : Q s) :
    Runs H lo s l Q ∧ ∀ {tys : List TypeId} {params : List Ty},
      ((tys.zip (xs.map (·.ty))).mapM fun p => Conversion.find? p.2 p.1 options) = some cs →
      List.Forall₂ (fun ty shape => TypeTable.builtins.representation ty = .ok shape) tys params →
      ∀ h ∈ H.used s vs params, ∃ x ∈ xs, x.ty = Builtin.dfunc.id ∧
        H.operand? s x.value = some h := by
  -- By induction on the arguments: a conversion hands a distribution on as it is.
  induction h with
  | nil h =>
    refine ⟨.nil hQ, fun _ _ h hh => ?_⟩
    cases hh
  | @cons x xs c cs v vs l l' hc rest ih =>
    refine ⟨Runs.append (Q := (· = s)) ?_ fun t _ ht => ht ▸ ih.1, fun hcs hparams h hh => ?_⟩
    · cases hc with
      | identity => exact .nil rfl
      | intToFloat hone => exact .pure hone rfl rfl
    · cases hparams with
      | nil => cases hcs
      | @cons ty shape tys params hshape hrest =>
        rw [List.map_cons, List.zip_cons_cons, List.mapM_cons] at hcs
        obtain ⟨c', hc', hcs⟩ := Option.bind_eq_some_iff.1 hcs
        obtain ⟨cs', hcs', heq⟩ := Option.bind_eq_some_iff.1 hcs
        cases heq
        obtain ⟨q, hq, hif⟩ := List.mem_filterMap.1 hh
        rw [List.zip_cons_cons] at hq
        rcases List.mem_cons.1 hq with rfl | hq
        · -- Only a parameter of the shape of a distribution uses one.
          by_cases hdf : shape = Distribution.ty
          · simp only [if_pos hdf] at hif
            obtain rfl := (TypeTable.representation_eq_distribution hshape).1 hdf
            rcases Conversion.find?_eq_some hc' with ⟨rfl, hty⟩ | ⟨-, -, -, hty⟩
            · cases hc
              exact ⟨x, List.mem_cons_self, hty, hif⟩
            · rw [Builtin.id_eq_iff] at hty
              cases hty
          · simp only [if_neg hdf] at hif
            cases hif
        · obtain ⟨y, hy, hres⟩ := ih.2 hcs' hrest h (List.mem_filterMap.2 ⟨q, hq, hif⟩)
          exact ⟨y, List.mem_cons_of_mem _ hy, hres⟩

end Tracking

/-! ## Code -/

theorem Interp.tracking_exec_keeps {H : Host} {lo : Nat} {s t : Tracking} (hid : lo ≤ id)
    (h : (tracking H).exec id i s = some t) : Tracking.Keeps lo s t := by
  -- A new register has a number above the mark; everything else changes no register.
  have hne : ∀ j, j < lo → j ≠ id := fun j hj => Nat.ne_of_lt (Nat.lt_of_lt_of_le hj hid)
  unfold tracking at h
  simp only at h
  split at h
  · unfold Host.call? at h
    split at h
    · cases h
    · split at h
      · obtain ⟨_, -, rfl⟩ := Option.map_eq_some_iff.1 h
        exact fun _ _ => rfl
      · obtain rfl := Option.some.inj h
        split
        · exact fun j hj => Tracking.make_ne (hne j hj) _
        · exact fun _ _ => rfl
  · obtain rfl := Option.some.inj h
    exact fun j hj => Tracking.setReg_ne (hne j hj) _ _
  · obtain rfl := Option.some.inj h
    exact fun _ _ => rfl
  · cases h
  · cases h
  · obtain rfl := Option.some.inj h
    exact .refl lo s

/-- Instructions from a number on leave the registers below it. -/
theorem Interp.tracking_keeps (H : Host) {lo : Nat} {ids : List InstId}
    (hids : ∀ i ∈ ids, lo ≤ i) :
    (tracking H).choosing.Keeps ids fun s t => Tracking.Keeps lo s.1 t.1 where
  refl s := .refl lo s.1
  trans h h' := h.trans h'
  -- A step only writes its own register.
  exec := by
    intro id i s s' hid h
    obtain ⟨t, ht, rfl⟩ := Option.map_eq_some_iff.1 h
    exact tracking_exec_keeps (hids id hid) ht
  merge := by
    intro id v s s' hid h
    cases h
    exact fun j hj => Tracking.setReg_ne (Nat.ne_of_lt (Nat.lt_of_lt_of_le hj (hids id hid))) _ _
  test := by
    intro v s b s' h
    cases h
    exact .refl lo s.1

namespace Code

open Tracking

/-- Whatever way its branches take, code does not get stuck: the state behind
    it satisfies `D`, that at a jump out of it satisfies `J`, and all that has
    happened at a return satisfies `P`. -/
def Yields (H : Host) (P : List Event → Prop) (T : Code) (s : Tracking) (D J : Tracking → Prop) :
    Prop :=
  ∀ (n : Nat) (ch : Choices), (T.run (Interp.tracking H).choosing n (s, ch)).Safe
    (fun t => D t.1) (fun _ t => J t.1) P

namespace Yields

variable {H : Host} {P : List Event → Prop} {s : Tracking} {D D' I J J' : Tracking → Prop}
  {a b : Code} {v : Value} {lo hi : Nat}

theorem line (lo : Nat) (h : Runs H lo s l D) : (Code.line l).Yields H P s D J := by
  intro n ch
  obtain ⟨t, ht, -, hD⟩ := h
  refine line_safe ⟨(t, ch), ?_, hD⟩
  rw [Interp.execAll_choosing, ht]
  rfl

theorem mono (h : a.Yields H P s D J) (hD : ∀ t, D t → D' t) (hJ : ∀ t, J t → J' t) :
    a.Yields H P s D' J' :=
  fun n ch => (h n ch).mono (fun t => hD t.1) (fun _ t => hJ t.1) fun _ hr => hr

/-- Code leaves the registers of earlier code alone. -/
theorem keeping (h : a.Yields H P s D J) (hin : a.Within lo hi) :
    a.Yields H P s (fun t => Keeps lo s t ∧ D t) J := by
  intro n ch
  have hkeeps := run_keeps (n := n) (Interp.tracking_keeps H fun i hi => (hin.2 i hi).1) a
    (fun i hi => hi) (s, ch)
  have hsafe := h n ch
  -- Only a run that ends regularly has to say more than before.
  cases ho : a.run (Interp.tracking H).choosing n (s, ch) with
  | done t =>
    rw [ho] at hkeeps hsafe
    exact ⟨hkeeps t rfl, hsafe⟩
  | jumped j t =>
    rw [ho] at hsafe
    exact hsafe
  | returned r =>
    rw [ho] at hsafe
    exact hsafe
  | stuck =>
    rw [ho] at hsafe
    exact hsafe
  | timeout => trivial

theorem seq (ha : a.Yields H P s I J) (hb : ∀ t, I t → b.Yields H P t D J) :
    (Code.seq a b).Yields H P s D J :=
  fun n ch => seq_safe (ha n ch) fun t ht => hb t.1 ht n t.2

/-- Control does not get behind code that ends a block. -/
theorem ended (h : a.Yields H P s D J) (hends : a.ends = true) : a.Yields H P s D' J := by
  intro n ch
  have hsafe := h n ch
  cases ho : a.run (Interp.tracking H).choosing n (s, ch) with
  | done t => exact absurd ho (run_ne_done a hends _ _)
  | jumped j t =>
    rw [ho] at hsafe
    exact hsafe
  | returned r =>
    rw [ho] at hsafe
    exact hsafe
  | stuck =>
    rw [ho] at hsafe
    exact hsafe
  | timeout => trivial

/-- Code that ends with a line. -/
theorem seqLine (lo : Nat) (ha : a.Yields H P s I J) (hl : ∀ t, I t → Runs H lo t l D) :
    (Code.seq a (.line l)).Yields H P s D J :=
  ha.seq fun t ht => .line lo (hl t ht)

theorem test_tracking (v : Value) (s : Tracking) (ch : Choices) :
    (Interp.tracking H).choosing.test v (s, ch) = some (ch.head, s, ch.tail) := rfl

theorem shortcut {isAnd : Bool} (hright : b.Yields H P s I J)
    (hmerge : ∀ t, I t → D (t.setReg id (H.operand? t w))) (hskip : D (s.setReg id none)) :
    (Code.shortcut isAnd v b w id).Yields H P s D J := fun n ch =>
  shortcut_safe (test_tracking v s ch) (fun _ => hright n ch.tail)
    (fun t ht => ⟨_, rfl, hmerge t.1 ht⟩) fun _ => ⟨_, rfl, hskip⟩

theorem ifThen (ha : a.Yields H P s D J) (hskip : D s) : (Code.ifThen v a).Yields H P s D J :=
  fun n ch => ifThen_safe (test_tracking v s ch) (fun _ => ha n ch.tail) fun _ => hskip

theorem ifThenElse (ha : a.Yields H P s D J) (hb : b.Yields H P s D J) :
    (Code.ifThenElse v a b).Yields H P s D J :=
  fun n ch => ifThenElse_safe (test_tracking v s ch) (fun _ => ha n ch.tail) fun _ => hb n ch.tail

/-- Each turn starts and ends in a state that satisfies the invariant. -/
theorem loop {head body : Code} (hhead : ∀ t, I t → head.Yields H P t I J)
    (hbody : ∀ t, I t → body.Yields H P t I I) (hs : I s) :
    (Code.loop head v body).Yields H P s I J := by
  intro n ch
  refine loop_safe (I := fun t => I t.1) (A := fun t => I t.1) (B := fun t => I t.1)
    (fun t ht => hhead t.1 ht n t.2) (fun t ht => ?_) (fun t ht => ?_) hs
  · unfold Interp.guard
    split
    · exact ⟨true, t, rfl, fun _ => ht, fun h => by cases h⟩
    · exact ⟨_, _, test_tracking v t.1 t.2, fun _ => ht, fun _ => ht⟩
  · refine (hbody t.1 ht n t.2).mono (fun _ hu => hu) (fun j u hu => ?_) fun _ hr => hr
    cases j with
    | continueLoop => exact hu
    | breakLoop => exact hu

theorem leave (j : Jump) (hJ : J s) : (Code.leave j).Yields H P s D J := fun _ _ => hJ

theorem ret {u : Option Value} {r : List Event} (hr : (Interp.tracking H).result u s = some r)
    (hP : P r) : (Code.ret u).Yields H P s D J := fun _ _ => ret_safe ⟨r, hr, hP⟩

end Yields

/-- The instructions of lines are those of a function. -/
def Listed (f : Function) : Code → Prop
  | line l => ∀ q ∈ l, f.inst? q.1 = some q.2
  | seq a b => a.Listed f ∧ b.Listed f
  | shortcut _ _ r _ _ => r.Listed f
  | ifThen _ t => t.Listed f
  | ifThenElse _ t e => t.Listed f ∧ e.Listed f
  | loop h _ b => h.Listed f ∧ b.Listed f
  | leave _ | ret _ => True

theorem listed_of_liesLine {f : Function} {p : Point} (h : liesLine f l p) :
    (Code.line l).Listed f := by
  induction l generalizing p with
  | nil => exact fun q hq => by cases hq
  | cons x rest ih =>
    obtain ⟨hx, -, hrest⟩ := h
    intro q hq
    rcases List.mem_cons.1 hq with rfl | hq
    · obtain ⟨id, -, hid⟩ := Option.bind_eq_some_iff.1 hx
      obtain ⟨i, hi, heq⟩ := Option.bind_eq_some_iff.1 hid
      cases heq
      exact hi
    · exact ih hrest q hq

/-- Code that lies in a function has its instructions. -/
theorem listed_of_lies {f : Function} : (c : Code) → ∀ {t : Option Targets} {p q : Point},
    c.lies f t p q → c.Listed f
  -- By recursion on the code; its jumps and returns hold no lines.
  | line _, _, _, _, h => listed_of_liesLine h.1
  | seq a b, _, _, _, h => by
    obtain ⟨m, ha, hb⟩ := h
    exact ⟨listed_of_lies a ha, listed_of_lies b hb⟩
  | shortcut _ _ r _ _, _, _, _, h => by
    obtain ⟨_, _, _, -, -, -, -, hr, -⟩ := h
    exact listed_of_lies r hr
  | ifThen _ b, _, _, _, h => by
    obtain ⟨_, _, _, -, -, -, hb, -⟩ := h
    exact listed_of_lies b hb
  | ifThenElse _ a b, _, _, _, h => by
    obtain ⟨_, _, _, _, -, -, -, ha, hb, -⟩ := h
    exact ⟨listed_of_lies a ha, listed_of_lies b hb⟩
  | loop c _ b, _, _, _, h => by
    obtain ⟨_, _, _, _, _, -, -, -, -, hc, -, hb, -⟩ := h
    exact ⟨listed_of_lies c hc, listed_of_lies b hb⟩
  | leave _, _, _, _, _ => trivial
  | ret _, _, _, _, _ => trivial

end Code

end IR

end Shading
