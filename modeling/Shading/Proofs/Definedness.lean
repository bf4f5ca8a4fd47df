import Shading.Proofs.Safety
import Shading.Proofs.Translation

/-! # Nothing is used before it is there

    A run can note which instructions have run and which slots have been
    filled.  The machine of this module gets stuck where an operand has not
    been computed or where a slot is read that nothing was stored in.  Main
    result: generated code never gets stuck in that way, whatever way its
    branches take (`Body.Compiles.defined`).

    What has been computed stays computed, so the state only grows
    (`Known.Le`), and each rule says what is there in addition. -/

namespace Shading

open IR

variable {v v' w : Value} {depth hi index lo : Nat} {slot : Slot} {T T' body head : Code}
    {l : Lines} {slots top top' : List Slot} {id : InstId} {op : Op} {b r : Typed}
    {x z : ExprValue}

namespace IR

/-! ## The machine -/

/-- The slot that an instruction reads. -/
def Op.slotRead : Op → Option InstId
  | .load (.inst a) => some a
  | _ => none

/-- The slot that an instruction fills. -/
def Op.slotFilled : Op → Option InstId
  | .store _ (.inst a) => some a
  | _ => none

/-- The instructions that have run, and the slots that have been filled. -/
structure Known where
  computed : List InstId
  filled : List InstId

namespace Known

def empty : Known := ⟨[], []⟩

/-- Is an operand there?  Only the result of an instruction must be computed
    first. -/
def Has (s : Known) : Value → Prop
  | .inst i => i ∈ s.computed
  | .const _ | .arg _ | .void => True

instance (s : Known) : DecidablePred s.Has
  | .inst i => inferInstanceAs (Decidable (i ∈ s.computed))
  | .const _ | .arg _ | .void => .isTrue trivial

/-- Is everything there that an instruction needs? -/
def Ready (s : Known) (op : Op) : Prop :=
  (∀ v ∈ op.operands, s.Has v) ∧ ∀ a ∈ op.slotRead.toList, a ∈ s.filled

instance (s : Known) (op : Op) : Decidable (s.Ready op) := inferInstanceAs (Decidable (_ ∧ _))

/-- An instruction has run. -/
def after (s : Known) (id : InstId) (op : Op) : Known :=
  ⟨id :: s.computed, op.slotFilled.toList ++ s.filled⟩

/-- Nothing is lost. -/
structure Le (s t : Known) : Prop where
  computed : s.computed ⊆ t.computed
  filled : s.filled ⊆ t.filled

theorem Le.refl (s : Known) : s.Le s := ⟨List.Subset.refl _, List.Subset.refl _⟩

theorem Le.trans {s t u : Known} (h : s.Le t) (h' : t.Le u) : s.Le u :=
  ⟨List.Subset.trans h.computed h'.computed, List.Subset.trans h.filled h'.filled⟩

/-- Nothing that is known gets lost by a step. -/
theorem le_after (s : Known) (id : InstId) (op : Op) : s.Le (s.after id op) :=
  ⟨List.subset_cons_self _ _, List.subset_append_right _ _⟩

theorem Has.mono {s t : Known} (h : s.Has v) (hle : s.Le t) : t.Has v := by
  cases v with
  | inst i => exact hle.computed h
  | const c => trivial
  | arg i => trivial
  | void => trivial

@[simp] theorem has_after_self (s : Known) (id : InstId) (op : Op) :
    (s.after id op).Has (.inst id) := List.mem_cons_self

end Known

/-- Instructions get stuck where something is missing that they need. -/
def Interp.known : Interp Known Unit where
  exec id i s := if s.Ready i.op then some (s.after id i.op) else none
  merge id v s := if s.Has v then some (s.after id (.phi [])) else none
  test v s := if s.Has v then some (true, s) else none
  result v s := if ∀ u ∈ v.toList, s.Has u then some () else none

/-! ## Lines -/

namespace Known

variable {s : Known} {Q R : Known → Prop} {l l' : Lines} {H : Host}

/-- The instructions of a line find what they need, and what they leave
    satisfies `Q`. -/
def Runs (s : Known) (l : Lines) (Q : Known → Prop) : Prop :=
  ∃ t, Interp.known.execAll l s = some t ∧ s.Le t ∧ Q t

theorem Runs.nil (h : Q s) : Runs s [] Q := ⟨s, rfl, .refl s, h⟩

/-- Lines run one behind the other, each knowing what those in front have made. -/
theorem Runs.append (h : Runs s l Q) (h' : ∀ t, s.Le t → Q t → Runs t l' R) :
    Runs s (l ++ l') R := by
  obtain ⟨t, ht, hle, hQ⟩ := h
  obtain ⟨u, hu, hle', hR⟩ := h' t hle hQ
  refine ⟨u, ?_, hle.trans hle', hR⟩
  rw [Interp.execAll_append, ht]
  exact hu

theorem Runs.mono (h : Runs s l Q) (hQ : ∀ t, s.Le t → Q t → R t) : Runs s l R := by
  obtain ⟨t, ht, hle, hQt⟩ := h
  exact ⟨t, ht, hle, hQ t hle hQt⟩

theorem Runs.cons {i : Inst} (hready : s.Ready i.op) (h : Runs (s.after id i.op) l Q) :
    Runs s ((id, i) :: l) Q := by
  obtain ⟨t, ht, hle, hQ⟩ := h
  have hexec : Interp.known.exec id i s = some (s.after id i.op) := if_pos hready
  refine ⟨t, ?_, (s.le_after id i.op).trans hle, hQ⟩
  rw [Interp.execAll, hexec]
  exact ht

/-- An instruction that reads no slot needs its operands only. -/
theorem ready_of_operands (hread : op.slotRead = none) (h : ∀ v ∈ op.operands, s.Has v) :
    s.Ready op := by
  refine ⟨h, fun a ha => ?_⟩
  rw [hread] at ha
  cases ha

theorem slotRead_of_isPure (h : op.isPure = true) : op.slotRead = none := by
  cases op <;> simp_all [Op.isPure, Op.slotRead]

/-- An instruction whose operands are known makes its result known. -/
theorem oneInst {ty : Ty} (h : Build.OneInst H op ty v l) (hready : s.Ready op) :
    Runs s l (·.Has v) := by
  obtain ⟨id, rfl, rfl, -⟩ := h
  exact .cons hready (.nil (has_after_self ..))

theorem oneCall {callee : FuncId} {args : List Value} {ret : Ty} {name : Option String}
    (hargs : ∀ v ∈ args, s.Has v) :
    Runs s [(id, ⟨.call callee args, ret, name⟩)] (·.Has (Build.callResult ret id)) := by
  refine .cons (ready_of_operands rfl hargs) (.nil ?_)
  unfold Build.callResult
  split
  · trivial
  · exact has_after_self ..

/-- A call of the runtime makes its result known. -/
theorem runtimeCall {symbol : String} {sig : Signature} {args : List Value}
    (h : Build.OneCall H symbol sig args v l) (hargs : ∀ u ∈ args, s.Has u) :
    Runs s l (·.Has v) := by
  obtain ⟨callee, id, -, rfl, rfl⟩ := h
  exact oneCall hargs

/-- Pure lines use what they are given and make what they promise. -/
theorem computes {given out : List Value} (h : Computes given l out)
    (hgiven : ∀ v ∈ given, s.Has v) : Runs s l fun t => ∀ v ∈ out, t.Has v := by
  induction h generalizing s with
  | nil h => exact .nil fun v hv => hgiven v (h v hv)
  | @cons given out id i l hpure hops rest ih =>
    refine .cons (ready_of_operands (slotRead_of_isPure hpure) fun v hv => hgiven v (hops v hv))
      (ih fun v hv => ?_)
    rcases List.mem_cons.1 hv with rfl | hv
    · exact has_after_self ..
    · exact (hgiven v hv).mono (s.le_after id i.op)

/-- Code for each of some elements. -/
theorem each {α : Type} {R : α → Lines → Prop} {as : List α} (h : Each R as l)
    (hone : ∀ a ∈ as, ∀ t, s.Le t → ∀ l, R a l → Runs t l fun _ => True) :
    Runs s l fun _ => True := by
  induction h generalizing s with
  | nil => exact .nil trivial
  | @cons a as l l' ha rest ih =>
    refine (hone a List.mem_cons_self s (.refl s) l ha).append fun t hle _ => ih ?_
    intro b hb u hu
    exact hone b (List.mem_cons_of_mem _ hb) u (hle.trans hu)

end Known

end IR

/-! ## The code of types -/

namespace IR.Known

variable {s : Known} {l : Lines} {H : Host}

theorem copy {ty : TypeId} {v v' : Value} (h : CopyLine H ty v v' l) (hv : s.Has v) :
    Runs s l (·.Has v') := by
  cases h with
  | same h => exact .nil hv
  | copy h hcall => exact runtimeCall hcall (by simpa using hv)

theorem destroy {ty : TypeId} {v : Value} (h : DestroyLine H ty v l) (hv : s.Has v) :
    Runs s l fun _ => True := by
  cases h with
  | none h => exact .nil trivial
  | destroy h hcall => exact (runtimeCall hcall (by simpa using hv)).mono fun _ _ _ => trivial

/-- A value that is owned is known, be it a copy or the value itself. -/
theorem materialize (h : MaterializeLine H x v l) (hx : s.Has x.value) : Runs s l (·.Has v) := by
  cases h with
  | owned h => exact .nil hx
  | borrowed h hcopy => exact copy hcopy hx

theorem release (h : ReleaseLine H x l) (hx : s.Has x.value) : Runs s l fun _ => True := by
  cases h with
  | kept h => exact .nil trivial
  | released h hv hdestroy => exact destroy hdestroy hx

theorem coerce {expected : TypeId} (h : CoerceLine H x expected z l) (hx : s.Has x.value) :
    Runs s l (·.Has z.value) := by
  cases h with
  | same h => exact .nil hx
  | toFloat ht he hone =>
    exact oneInst hone (ready_of_operands rfl (by simpa [Op.operands] using hx))

theorem convert {c : Conversion} (h : ConvertLine H v c v' l) (hv : s.Has v) :
    Runs s l (·.Has v') := by
  cases h with
  | identity => exact .nil hv
  | intToFloat hone =>
    exact oneInst hone (ready_of_operands rfl (by simpa [Op.operands] using hv))

theorem converts {xs : List ExprValue} {cs : List Conversion} {vs : List Value}
    (h : ConvertLines H xs cs vs l) (hxs : ∀ x ∈ xs, s.Has x.value) :
    Runs s l fun t => ∀ v ∈ vs, t.Has v := by
  induction h generalizing s with
  | nil h => exact .nil (by simp)
  | @cons x xs c cs v vs l l' h rest ih =>
    refine (convert h (hxs x List.mem_cons_self)).append fun t hle hv => ?_
    refine (ih fun y hy => (hxs y (List.mem_cons_of_mem _ hy)).mono hle).mono ?_
    intro u hle' hvs w hw
    rcases List.mem_cons.1 hw with rfl | hw
    · exact hv.mono hle'
    · exact hvs w hw

/-- The operands are all that an operator has to know. -/
theorem binary {op : BinaryOp} {a : Typed} (h : BinaryLine H op a b r l) (ha : s.Has a.value)
    (hb : s.Has b.value) : Runs s l (·.Has r.value) := by
  -- Both operands are there, so any operation on the two of them is ready.
  have two : ∀ o : Op, o.slotRead = none → o.operands = [a.value, b.value] → s.Ready o := by
    intro o hread hops
    refine ready_of_operands hread ?_
    simp [hops, ha, hb]
  cases h with
  | intArith _ _ _ _ hone => exact oneInst hone (two _ rfl rfl)
  | intCompare _ _ _ hcmp =>
    obtain ⟨ty, -, hone⟩ := hcmp
    exact oneInst hone (two _ rfl rfl)
  | boolCompare _ _ _ _ hcmp =>
    obtain ⟨ty, -, hone⟩ := hcmp
    exact oneInst hone (two _ rfl rfl)
  | computed _ _ _ hc =>
    exact (computes hc (by simp [ha, hb])).mono fun t _ ht => ht _ (List.mem_singleton.2 rfl)
  | sum _ _ hcall => exact runtimeCall hcall (by simp [ha, hb])
  | @scaled d n w v l l' hab _ _ hw hcall =>
    obtain ⟨hd, hn⟩ : s.Has d.value ∧ s.Has n.value := by
      rcases hab with ⟨rfl, rfl⟩ | ⟨rfl, rfl⟩
      · exact ⟨ha, hb⟩
      · exact ⟨hb, ha⟩
    refine (computes hw (by simpa using hn)).append fun t hle ht => runtimeCall hcall ?_
    simp [hd.mono hle, ht w (List.mem_singleton.2 rfl)]

theorem unary {op : UnaryOp} {x : Typed} (h : UnaryLine H op x r l) (hx : s.Has x.value) :
    Runs s l (·.Has r.value) := by
  cases h with
  | negInt _ _ _ hone =>
    exact oneInst hone (ready_of_operands rfl (by simpa [Op.operands] using hx))
  | notBool _ _ hone =>
    exact oneInst hone (ready_of_operands rfl (by simpa [Op.operands] using hx))
  | computed _ _ _ hc =>
    exact (computes hc (by simpa using hx)).mono fun t _ ht => ht _ (List.mem_singleton.2 rfl)

/-- The arguments are all that a construction has to know. -/
theorem construct {args : List Typed} (h : ConstructLine H args r l)
    (hargs : ∀ x ∈ args, s.Has x.value) : Runs s l (·.Has r.value) := by
  cases h with
  | computed _ _ hc =>
    refine (computes hc fun v hv => ?_).mono fun t _ ht => ht _ (List.mem_singleton.2 rfl)
    obtain ⟨x, hx, rfl⟩ := List.mem_map.1 hv
    exact hargs x hx
  | create hlist _ _ hcall =>
    subst hlist
    exact runtimeCall hcall (by simpa using hargs)

theorem default {ty : TypeId} (h : DefaultLine H ty v l) : Runs s l (·.Has v) := by
  cases h with
  | zero h ht => exact .nil trivial
  | empty h hcall => exact runtimeCall hcall (by simp)

/-! ## Variables -/

/-- A variable whose slot is there and has been filled. -/
def Holds (s : Known) (slot : Slot) : Prop :=
  ∃ a, slot.ptr = .inst a ∧ a ∈ s.computed ∧ a ∈ s.filled

theorem Holds.mono {s t : Known} (h : s.Holds slot) (hle : s.Le t) : t.Holds slot := by
  obtain ⟨a, hptr, hc, hf⟩ := h
  exact ⟨a, hptr, hle.computed hc, hle.filled hf⟩

theorem Holds.has (h : s.Holds slot) : s.Has slot.ptr := by
  obtain ⟨a, hptr, hc, -⟩ := h
  rw [hptr]
  exact hc

/-- A variable that holds something can be read. -/
theorem Holds.ready_load (h : s.Holds slot) : s.Ready (.load slot.ptr) := by
  refine ⟨by simpa [Op.operands] using h.has, ?_⟩
  obtain ⟨a, hptr, -, hf⟩ := h
  simpa [hptr, Op.slotRead] using hf

theorem destroySlot (h : DestroySlotLine H slot l) (hslot : s.Holds slot) :
    Runs s l fun _ => True := by
  cases h with
  | none h => exact .nil trivial
  | destroy h hload hcall =>
    refine (oneInst hload hslot.ready_load).append fun t _ hv => ?_
    exact (runtimeCall hcall (by simpa using hv)).mono fun _ _ _ => trivial

theorem destroySlots (h : Each (DestroySlotLine H) slots l)
    (hslots : ∀ slot ∈ slots, s.Holds slot) : Runs s l fun _ => True :=
  each h fun slot hslot _ hle _ hl => destroySlot hl ((hslots slot hslot).mono hle)

/-- A slot that is there is filled by a store. -/
theorem store {a : InstId} (h : StoreLine H v (.inst a) l) (hv : s.Has v) (ha : a ∈ s.computed) :
    Runs s l fun t => a ∈ t.computed ∧ a ∈ t.filled := by
  obtain ⟨ty, -, -, id, rfl⟩ := h
  have hready : s.Ready (.store v (.inst a)) := by
    refine ready_of_operands rfl ?_
    have hp : s.Has (.inst a) := ha
    simp [Op.operands, hv, hp]
  exact .cons hready (.nil ⟨List.mem_cons_of_mem _ ha, by simp [after, Op.slotFilled]⟩)

/-- All visible variables are there. -/
def Sees (s : Known) (scopes : Scopes) : Prop := ∀ slot ∈ scopes.stack.flatten, s.Holds slot

theorem Sees.mono {s t : Known} {scopes : Scopes} (h : s.Sees scopes) (hle : s.Le t) :
    t.Sees scopes := fun slot hslot => (h slot hslot).mono hle

theorem Sees.lookup {scopes : Scopes} {x : String} (h : s.Sees scopes)
    (hslot : scopes.lookup? x = some slot) : s.Holds slot :=
  h slot (Scopes.mem_flatten_of_lookup? hslot)

theorem sees_of {stack : List (List Slot)} :
    s.Sees (.of stack) ↔ ∀ slot ∈ stack.flatten, s.Holds slot := by
  rw [Sees, Scopes.stack_of]

theorem Sees.push {stack : List (List Slot)} (h : s.Sees (.of stack)) : s.Sees (.of ([] :: stack)) := by
  rwa [sees_of] at h ⊢

/-- A variable that holds something may come into scope. -/
theorem Sees.declare {outer : List (List Slot)} (h : s.Sees (.of (top :: outer)))
    (hslot : s.Holds slot) : s.Sees (.of ((slot :: top) :: outer)) := by
  rw [sees_of] at h ⊢
  intro other hother
  rcases List.mem_cons.1 hother with rfl | hother
  · exact hslot
  · exact h other hother

end IR.Known

/-! ## Code -/

namespace IR.Code

open Known

/-- Code finds what it needs, whatever way its branches take, and at its end
    the state satisfies `Q`. -/
def Defined (T : Code) (s : Known) (Q : Known → Prop) : Prop :=
  ∀ (n : Nat) (ch : Choices), (T.run Interp.known.choosing n (s, ch)).Safe
    (fun t => s.Le t.1 ∧ Q t.1) (fun _ t => s.Le t.1) fun _ => True

namespace Defined

variable {s : Known} {Q R : Known → Prop} {a b : Code} {v : Value}

theorem line (h : Runs s l Q) : (Code.line l).Defined s Q := by
  intro n ch
  obtain ⟨t, ht, hle, hQ⟩ := h
  refine line_safe ⟨(t, ch), ?_, hle, hQ⟩
  rw [Interp.execAll_choosing, ht]
  rfl

theorem mono (h : a.Defined s Q) (hQ : ∀ t, s.Le t → Q t → R t) : a.Defined s R := fun n ch =>
  (h n ch).mono (fun t ht => ⟨ht.1, hQ t.1 ht.1 ht.2⟩) (fun _ _ hj => hj) fun _ hr => hr

/-- Code that runs in a later state. -/
theorem later {t : Known} (h : a.Defined t Q) (hle : s.Le t) (n : Nat) (ch : Choices) :
    (a.run Interp.known.choosing n (t, ch)).Safe (fun u => s.Le u.1 ∧ Q u.1)
      (fun _ u => s.Le u.1) fun _ => True :=
  (h n ch).mono (fun _ hu => ⟨hle.trans hu.1, hu.2⟩) (fun _ _ hu => hle.trans hu) fun _ hr => hr

/-- Behind the first part all is known that it has made. -/
theorem seq (ha : a.Defined s Q) (hb : ∀ t, s.Le t → Q t → b.Defined t R) :
    (Code.seq a b).Defined s R := fun n ch =>
  seq_safe (ha n ch) fun t ht => (hb t.1 ht.1 ht.2).later ht.1 n t.2

/-- Code that ends with a line. -/
theorem seqLine (ha : a.Defined s Q) (hl : ∀ t, s.Le t → Q t → Runs t l R) :
    (Code.seq a (.line l)).Defined s R :=
  ha.seq fun t hle hQ => .line (hl t hle hQ)

theorem test_known (hv : s.Has v) (ch : Choices) :
    Interp.known.choosing.test v (s, ch) = some (ch.head, s, ch.tail) := by
  simp [Interp.choosing, Interp.known, hv]

/-- The merge is known on both ways. -/
theorem shortcut {isAnd : Bool} (hv : s.Has v) (hright : b.Defined s (·.Has w)) :
    (Code.shortcut isAnd v b w id).Defined s (·.Has (.inst id)) := by
  intro n ch
  have merged : ∀ (t : Known × Choices) (u : Value), s.Le t.1 → t.1.Has u →
      ∃ t', Interp.known.choosing.merge id u t = some t' ∧ s.Le t'.1 ∧ t'.1.Has (.inst id) := by
    intro t u hle hu
    refine ⟨(t.1.after id (.phi []), t.2), ?_, hle.trans (t.1.le_after ..), has_after_self ..⟩
    simp [Interp.choosing, Interp.known, hu]
  exact shortcut_safe (test_known hv ch) (fun _ => hright n ch.tail)
    (fun t ht => merged t w ht.1 ht.2) fun _ => merged _ _ (.refl s) trivial

theorem ifThen (hv : s.Has v) (ha : a.Defined s Q) :
    (Code.ifThen v a).Defined s fun _ => True := fun n ch =>
  ifThen_safe (test_known hv ch) (fun _ => (ha.mono fun _ _ _ => trivial) n ch.tail)
    fun _ => ⟨.refl s, trivial⟩

/-- What both branches make is known behind them. -/
theorem ifThenElse (hv : s.Has v) (ha : a.Defined s Q) (hb : b.Defined s Q) :
    (Code.ifThenElse v a b).Defined s Q := fun n ch =>
  ifThenElse_safe (test_known hv ch) (fun _ => ha n ch.tail) fun _ => hb n ch.tail

/-- Since nothing is lost, each turn of a loop finds what the first one does. -/
theorem loop (hhead : ∀ t, s.Le t → head.Defined t (·.Has v))
    (hbody : ∀ t, s.Le t → body.Defined t Q) : (Code.loop head v body).Defined s fun _ => True := by
  intro n ch
  refine loop_safe (I := fun t => s.Le t.1) (A := fun t => s.Le t.1 ∧ t.1.Has v)
    (B := fun t => s.Le t.1) (fun t ht => (hhead t.1 ht).later ht n t.2) (fun t ht => ?_)
    (fun t ht => ?_) (.refl s)
  · unfold Interp.guard
    split
    · exact ⟨true, t, rfl, fun _ => ht.1, fun h => by cases h⟩
    · exact ⟨_, _, test_known ht.2 t.2, fun _ => ht.1, fun _ => ⟨ht.1, trivial⟩⟩
  · refine ((hbody t.1 ht).later ht n t.2).mono (fun _ hu => hu.1) (fun j u hu => ?_)
      fun _ hr => hr
    cases j with
    | continueLoop => exact hu
    | breakLoop => exact ⟨hu, trivial⟩

theorem leave (j : Jump) : (Code.leave j).Defined s Q := fun _ _ => Le.refl s

theorem ret {u : Option Value} (hu : ∀ w ∈ u.toList, s.Has w) : (Code.ret u).Defined s Q :=
  fun _ _ => ret_safe ⟨(), if_pos hu, trivial⟩

end Defined

end IR.Code

/-! ## Expressions -/

section

variable {env : Env} {functions : Functions} {H : Host} {scopes : Scopes}

open Known

theorem IR.Known.releases {s : Known} {xs : List ExprValue} (h : Each (ReleaseLine H) xs l)
    (hxs : ∀ x ∈ xs, s.Has x.value) : Runs s l fun _ => True :=
  each h fun x hx _ hle _ hl => release hl ((hxs x hx).mono hle)

mutual

/-- An expression finds all it needs, and then its value is there. -/
theorem Expr.Compiles.defined {lo hi : Nat} {e : Expr} {T : Code} {x : ExprValue}
    (h : Expr.Compiles env functions H scopes lo e T x hi) {s : Known} (hs : s.Sees scopes) :
    T.Defined s (·.Has x.value) := by
  -- In each case what has been computed is still known when it is used further on.
  cases h with
  | @literal _ v span =>
    refine .line (.nil ?_)
    cases v <;> trivial
  | var hslot hty hload hin => exact .line (oneInst hload (hs.lookup hslot).ready_load)
  | unary he hop hx hin =>
    refine (he.defined hs).seqLine fun t _ ht => ?_
    refine (Known.unary hop ht).append fun u hle hr => ?_
    exact (release hx (ht.mono hle)).mono fun _ hle' _ => hr.mono hle'
  | binary hlog ha hb hop hx hy hin =>
    refine (ha.defined hs).seq fun t hle ht => (hb.defined (hs.mono hle)).seqLine ?_
    intro u hle' hu
    have hxu := ht.mono hle'
    refine (Known.binary hop hxu hu).append fun w hle₁ hr => ?_
    refine (release hx (hxu.mono hle₁)).append fun w' hle₂ _ => ?_
    have hle₁₂ := hle₁.trans hle₂
    exact (release hy (hu.mono hle₁₂)).mono fun _ hle₃ _ => hr.mono (hle₂.trans hle₃)
  | logical hlog ha hx h₁₂ hb hy hid hhi hty =>
    exact (ha.defined hs).seq fun t hle ht => .shortcut ht (hb.defined (hs.mono hle))
  | assign hslot he hc hm hd hst hin =>
    refine (he.defined hs).seqLine fun t hle hy => ?_
    have hholds := (hs.mono hle).lookup hslot
    refine (coerce hc hy).append fun u hle₁ hz => ?_
    refine (materialize hm hz).append fun w hle₂ hv => ?_
    have hle₁₂ := hle₁.trans hle₂
    refine (destroySlot hd (hholds.mono hle₁₂)).append fun w' hle₃ _ => ?_
    obtain ⟨a, hptr, ha, -⟩ := hholds.mono (hle₁₂.trans hle₃)
    rw [hptr] at hst
    exact (Known.store hst (hv.mono hle₃) ha).mono fun _ hle₄ _ => hv.mono (hle₃.trans hle₄)
  | call hargs hchosen hentry hconv hcall hrel hin =>
    refine (hargs.defined hs).seqLine fun t _ hxs => ?_
    refine (converts hconv hxs).append fun u hle₁ hvs => ?_
    obtain ⟨id, name, sig, -, rfl, rfl⟩ := hcall
    refine (oneCall hvs).append fun w hle₂ hv => ?_
    exact (releases hrel fun x hx => (hxs x hx).mono (hle₁.trans hle₂)).mono
      fun _ hle₃ _ => hv.mono hle₃
  | construct hargs hc hrel hin =>
    refine (hargs.defined hs).seqLine fun t _ hxs => ?_
    refine (Known.construct hc (List.forall_mem_map.2 hxs)).append fun u hle hr => ?_
    exact (releases hrel fun x hx => (hxs x hx).mono hle).mono fun _ hle' _ => hr.mono hle'

theorem Expr.CompilesAll.defined {lo hi : Nat} {es : List Expr} {T : Code} {xs : List ExprValue}
    (h : Expr.CompilesAll env functions H scopes lo es T xs hi) {s : Known} (hs : s.Sees scopes) :
    T.Defined s fun t => ∀ x ∈ xs, t.Has x.value := by
  cases h with
  | nil => exact .line (.nil (by simp))
  | cons he hes =>
    refine (he.defined hs).seq fun t hle hx => (hes.defined (hs.mono hle)).mono ?_
    intro u hle' hxs y hy
    rcases List.mem_cons.1 hy with rfl | hy
    · exact hx.mono hle'
    · exact hxs y hy

end

/-! ## Statements -/

/-- The end of a scope only reads what the scope has filled. -/
theorem ScopeEnd.defined {outer : List (List Slot)} (h : ScopeEnd H top lo T T' hi) {s : Known}
    (hT : T.Defined s fun t => t.Sees (.of (top :: outer))) : T'.Defined s fun _ => True := by
  cases h with
  | ended h => exact hT.mono fun _ _ _ => trivial
  | left h hd hin =>
    refine hT.seqLine fun t _ ht => destroySlots hd fun slot hslot => sees_of.1 ht slot ?_
    exact List.mem_append_left _ hslot

/-- An initial value is known before it is stored. -/
theorem Stmt.Initial.defined {ty : TypeId} {init : Option Expr}
    (h : Stmt.Initial env functions H scopes ty lo init T v hi) {s : Known} (hs : s.Sees scopes) :
    T.Defined s (·.Has v) := by
  cases h with
  | given he hc hm hin =>
    refine (he.defined hs).seqLine fun t _ hy => ?_
    exact (coerce hc hy).append fun u _ hz => materialize hm hz
  | default hd hin => exact .line (Known.default hd)

/-- A returned value is known before the return. -/
theorem Stmt.Result.defined {ret : TypeId} {value : Option Expr} {v : Option Value}
    (h : Stmt.Result env functions H ret scopes lo value T v hi) {s : Known} (hs : s.Sees scopes) :
    T.Defined s fun t => ∀ w ∈ v.toList, t.Has w := by
  cases h with
  | none h => exact .line (.nil (by simp))
  | some h he hc hm hin =>
    refine (he.defined hs).seqLine fun t _ hy => ?_
    refine (coerce hc hy).append fun u _ hz => (materialize hm hz).mono fun _ _ hv => ?_
    simpa using hv

/-- The variables that a jump leaves behind. -/
theorem IR.Known.Sees.destroyed {s : Known} (hs : s.Sees scopes)
    (hd : Each (DestroySlotLine H) (scopes.liveFrom depth).reverse l) : Runs s l fun _ => True := by
  obtain ⟨stack, rfl⟩ := scopes.exists_of
  exact destroySlots hd fun slot hslot =>
    sees_of.1 hs slot (Scopes.mem_flatten_of_mem_liveFrom hslot)

variable {ret : TypeId} {base : Nat}

mutual

/-- A statement finds all it needs, if the slots have been reserved. -/
theorem Stmt.Compiles.defined {loop : Option Nat} {outer : List (List Slot)} {lo hi : Nat}
    {top top' : List Slot} {st : Stmt} {T : Code}
    (h : Stmt.Compiles env functions H ret base loop outer lo top st T top' hi) {s : Known}
    (hslots : ∀ a ∈ H.body.slots 0, a ∈ s.computed) (hs : s.Sees (.of (top :: outer))) :
    T.Defined s (·.Sees (.of (top' :: outer))) := by
  -- What is known only grows, so every scope that was seen is seen behind the statement.
  cases h with
  | expr he hx hin =>
    refine (he.defined hs).seqLine fun t hle ht => (release hx ht).mono ?_
    exact fun u hle' _ => hs.mono (hle.trans hle')
  | decl hty hvoid hshape hfree hinit ha hst hin =>
    refine (hinit.defined hs).seqLine fun t hle hv => ?_
    refine (Known.store hst hv (hle.computed (hslots _ ha.slot))).mono fun u hle' hu => ?_
    exact (hs.mono (hle.trans hle')).declare ⟨_, rfl, hu⟩
  | ret hv hd hin =>
    refine (hv.defined hs).seq fun t hle ht => ?_
    refine Code.Defined.seq (.line ((hs.mono hle).destroyed hd)) fun u hle' _ => .ret ?_
    exact fun w hw => (ht w hw).mono hle'
  | jump hj hd hin => exact Code.Defined.seq (.line (hs.destroyed hd)) fun t _ _ => .leave _
  | block hss hend =>
    exact (hend.defined (hss.defined hslots hs.push)).mono fun t hle _ => hs.mono hle
  | ifThen hc hx h₁₂ ht hend hhi =>
    have hthen : ∀ t, s.Le t → Code.Defined _ t fun _ => True := fun t hle =>
      hend.defined (ht.defined (fun a ha => hle.computed (hslots a ha)) (hs.mono hle).push)
    exact ((hc.defined hs).seq fun t hle hv => .ifThen hv (hthen t hle)).mono
      fun t hle _ => hs.mono hle
  | ifThenElse hc hx h₁₂ ht hend₁ he hend₂ hhi =>
    have hthen : ∀ t, s.Le t → Code.Defined _ t fun _ => True := fun t hle =>
      hend₁.defined (ht.defined (fun a ha => hle.computed (hslots a ha)) (hs.mono hle).push)
    have helse : ∀ t, s.Le t → Code.Defined _ t fun _ => True := fun t hle =>
      hend₂.defined (he.defined (fun a ha => hle.computed (hslots a ha)) (hs.mono hle).push)
    exact ((hc.defined hs).seq fun t hle hv => .ifThenElse hv (hthen t hle) (helse t hle)).mono
      fun t hle _ => hs.mono hle
  | loop h₁ hc hx h₂₃ hb hend hhi =>
    have hbody : ∀ t, s.Le t → Code.Defined _ t fun _ => True := fun t hle =>
      hend.defined (hb.defined (fun a ha => hle.computed (hslots a ha)) (hs.mono hle).push)
    exact (Code.Defined.loop (fun t hle => hc.defined (hs.mono hle)) hbody).mono
      fun t hle _ => hs.mono hle

theorem Stmt.CompilesAll.defined {loop : Option Nat} {outer : List (List Slot)} {lo hi : Nat}
    {top top' : List Slot} {stmts : List Stmt} {T : Code}
    (h : Stmt.CompilesAll env functions H ret base loop outer lo top stmts T top' hi) {s : Known}
    (hslots : ∀ a ∈ H.body.slots 0, a ∈ s.computed) (hs : s.Sees (.of (top :: outer))) :
    T.Defined s (·.Sees (.of (top' :: outer))) := by
  cases h with
  | nil => exact .line (.nil hs)
  | ended hst hend => exact hst.defined hslots hs
  | cons hst hend hrest =>
    refine (hst.defined hslots hs).seq fun t hle ht => hrest.defined ?_ ht
    exact fun a ha => hle.computed (hslots a ha)

end

/-! ## Bodies -/

theorem Arguments.defined {types : TypeTable} {params : List Param}
    (h : Arguments types H depth lo index top params l top' hi) {s : Known}
    (hslots : ∀ a ∈ H.body.slots 0, a ∈ s.computed) (hs : s.Sees (.of [top])) :
    Runs s l (·.Sees (.of [top'])) := by
  induction h generalizing s with
  | nil => exact .nil hs
  | cons hshape hfree ha hcopy hst hin rest ih =>
    refine Runs.append (Runs.append (copy hcopy trivial) fun t hle hv =>
      Known.store hst hv (hle.computed (hslots _ ha.slot))) fun t hle ht => ih ?_ ?_
    · exact fun a ha => hle.computed (hslots a ha)
    · exact (hs.mono hle).declare ⟨_, rfl, ht⟩

theorem BodyEnd.defined (h : BodyEnd H ret top lo T T' hi) {s : Known}
    (hT : T.Defined s (·.Sees (.of [top]))) : T'.Defined s fun _ => True := by
  cases h with
  | ended h => exact hT.mono fun _ _ _ => trivial
  | returns h hret hd hin =>
    refine hT.seq fun t _ ht => Code.Defined.seq (.line (destroySlots hd ?_)) fun u _ _ =>
      .ret (by simp)
    exact fun slot hslot => sees_of.1 ht slot (List.mem_append_left _ hslot)
  | sealed h => exact hT.mono fun _ _ _ => trivial

/-- A body finds all it needs, once its slots have been reserved. -/
theorem Body.Compiles.defined {p : Prototype} {stmts : List Stmt}
    (h : Body.Compiles env functions H p lo stmts T hi) {s : Known}
    (hslots : ∀ a ∈ H.body.slots 0, a ∈ s.computed) : T.Defined s fun _ => True := by
  cases h with
  | intro hargs hs hend =>
    refine Code.Defined.seq (.line (hargs.defined hslots fun slot hslot => ?_)) fun t hle ht =>
      hend.defined (hs.defined (fun a ha => hle.computed (hslots a ha)) ht)
    simp at hslot

end

end Shading
