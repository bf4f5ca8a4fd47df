import Mathlib.Data.List.Forall2
import Shading.Proofs.Framing

/-! # Using a builder

    A builder may be used in any order and with any operands: its cursor can
    be set to blocks that do not exist, instructions can be added to
    functions that were just cleared, and an operation that is refused does
    not stop the ones behind it.  Every operation checks its operands first,
    so a change of the module is one of a few kinds, and what is known of an
    added instruction is the rule of its operation (`Operation.perform_change`).
    What additions keep of a function lasts until its body is dropped
    (`Builder.Has.performAll`). -/

namespace Shading.IR

/-! ## Rules of instructions -/

/-- The rule that an instruction of a function satisfies: the types of its
    operands and of its result. -/
inductive Inst.WellTyped (m : Module) (f : Function) : Inst → Prop
  | alloca {ty : Ty} {size : UInt32} {name : String} (hsize : ty.size? = some size) :
    WellTyped m f ⟨.alloca ty size, .ptr ty, some name⟩
  /-- A load gives what its pointer points to. -/
  | load {p : Value} {ty : Ty} (hp : f.valueType p = .ok (.ptr ty)) :
    WellTyped m f ⟨.load p, ty, none⟩
  /-- What is stored is what the pointer points to. -/
  | store {v p : Value} {ty : Ty} (hp : f.valueType p = .ok (.ptr ty))
    (hv : f.valueType v = .ok ty) : WellTyped m f ⟨.store v p, .void, none⟩
  | arith {op : ArithOp} {l r : Value} {ty : Ty} (hl : f.valueType l = .ok ty)
    (hr : f.valueType r = .ok ty) (hop : op.accepts ty = true) :
    WellTyped m f ⟨.arith op l r, ty, none⟩
  | cmpFloat {pred : CmpPred} {l r : Value} (hl : f.valueType l = .ok .f32)
    (hr : f.valueType r = .ok .f32) : WellTyped m f ⟨.cmp pred true l r, .bool, none⟩
  | cmp {pred : CmpPred} {l r : Value} {ty : Ty} (hty : ty = .i32 ∨ ty = .bool)
    (hl : f.valueType l = .ok ty) (hr : f.valueType r = .ok ty) :
    WellTyped m f ⟨.cmp pred false l r, .bool, none⟩
  | neg {v : Value} {ty : Ty} (hv : f.valueType v = .ok ty)
    (hty : (ty.isFloatLike || ty == .i32) = true) : WellTyped m f ⟨.neg v, ty, none⟩
  | not {v : Value} (hv : f.valueType v = .ok .bool) : WellTyped m f ⟨.not v, .bool, none⟩
  | cast {op : CastOp} {v : Value} (hv : f.valueType v = .ok op.source) :
    WellTyped m f ⟨.cast op v, op.target, none⟩
  | vector {lanes : List Value} (hlanes : ∀ v ∈ lanes, f.valueType v = .ok .f32) :
    WellTyped m f ⟨.vector lanes, .vector (UInt8.ofNat lanes.length), none⟩
  | splat {v : Value} {lanes : UInt8} (hv : f.valueType v = .ok .f32) :
    WellTyped m f ⟨.splat v lanes, .vector lanes, none⟩
  /-- The arguments are those of the called function, one by one. -/
  | call {callee : FuncId} {args : List Value} {g : Function}
    (hcallee : m.function? callee = some g)
    (hargs : List.Forall₂ (fun v ty => f.valueType v = .ok ty) args g.signature.params) :
    WellTyped m f ⟨.call callee args, g.signature.ret, none⟩
  | phi {incoming : List (Value × BlockId)} {ty : Ty}
    (hincoming : ∀ q ∈ incoming, f.valueType q.1 = .ok ty) : WellTyped m f ⟨.phi incoming, ty, none⟩
  | ret {v : Value} (hv : f.valueType v = .ok f.signature.ret) :
    WellTyped m f ⟨.ret (some v), .void, none⟩
  | retVoid (hret : f.signature.ret = .void) : WellTyped m f ⟨.ret none, .void, none⟩
  | br {t : BlockId} : WellTyped m f ⟨.br t, .void, none⟩
  | condBr {c : Value} {t e : BlockId} (hc : f.valueType c = .ok .bool) :
    WellTyped m f ⟨.condBr c t e, .void, none⟩
  | unreachable : WellTyped m f ⟨.unreachable, .void, none⟩

namespace Inst.WellTyped

variable {m m' : Module} {f g : Function} {i : Inst}

/-- The rule stays satisfied while operands keep their types and called
    functions their signatures. -/
theorem mono (h : i.WellTyped m f) (hsig : g.signature = f.signature)
    (hvalues : ∀ v ty, f.valueType v = .ok ty → g.valueType v = .ok ty)
    (hheads : ∀ id h, m.function? id = some h →
      ∃ h', m'.function? id = some h' ∧ h'.signature = h.signature) : i.WellTyped m' g := by
  -- A rule speaks of the values it takes and, in a call, of the head of the callee.
  cases h with
  | alloca hsize => exact .alloca hsize
  | load hp => exact .load (hvalues _ _ hp)
  | store hp hv => exact .store (hvalues _ _ hp) (hvalues _ _ hv)
  | arith hl hr hop => exact .arith (hvalues _ _ hl) (hvalues _ _ hr) hop
  | cmpFloat hl hr => exact .cmpFloat (hvalues _ _ hl) (hvalues _ _ hr)
  | cmp hty hl hr => exact .cmp hty (hvalues _ _ hl) (hvalues _ _ hr)
  | neg hv hty => exact .neg (hvalues _ _ hv) hty
  | not hv => exact .not (hvalues _ _ hv)
  | cast hv => exact .cast (hvalues _ _ hv)
  | vector hlanes => exact .vector fun v hv => hvalues _ _ (hlanes v hv)
  | splat hv => exact .splat (hvalues _ _ hv)
  | @call callee args h hcallee hargs =>
    obtain ⟨h', hh', hsig'⟩ := hheads callee h hcallee
    rw [← hsig'] at hargs ⊢
    exact .call hh' (hargs.imp hvalues)
  | phi hincoming => exact .phi fun q hq => hvalues _ _ (hincoming q hq)
  | ret hv =>
    rw [← hsig] at hv
    exact .ret (hvalues _ _ hv)
  | retVoid hret => exact .retVoid (hsig ▸ hret)
  | br => exact .br
  | condBr hc => exact .condBr (hvalues _ _ hc)
  | unreachable => exact .unreachable

/-- Every operand has a type. -/
theorem operands (h : i.WellTyped m f) : ∀ v ∈ i.op.operands, ∃ ty, f.valueType v = .ok ty := by
  intro v hv
  -- A rule gives a type to every operand that it mentions.
  cases h with
  | alloca | retVoid | br | unreachable => cases hv
  | load hp | neg hp _ | not hp | cast hp | splat hp | ret hp | condBr hp =>
    rw [List.mem_singleton.1 hv]
    exact ⟨_, hp⟩
  | store hp hw | arith hw hp _ | cmpFloat hw hp | cmp _ hw hp =>
    rcases List.mem_cons.1 hv with rfl | hv
    · exact ⟨_, hw⟩
    · rw [List.mem_singleton.1 hv]
      exact ⟨_, hp⟩
  | vector hlanes => exact ⟨_, hlanes v hv⟩
  | @call callee args g hcallee hargs =>
    replace hv : v ∈ args := hv
    generalize g.signature.params = tys at hargs
    induction hargs with
    | nil => cases hv
    | cons ha _ ih =>
      rcases List.mem_cons.1 hv with rfl | hv
      · exact ⟨_, ha⟩
      · exact ih hv
  | phi hincoming =>
    obtain ⟨q, hq, rfl⟩ := List.mem_map.1 hv
    exact ⟨_, hincoming q hq⟩

end Inst.WellTyped

/-! ## Operations -/

/-- What can be done with a builder. -/
inductive Operation where
  | declare (name : String) (signature : Signature) (linkage : Linkage)
  | appendBlock (func : FuncId) (label : String)
  /-- Stand at the end of a block, whether it exists or not. -/
  | moveTo (func : FuncId) (block : BlockId)
  | leave
  | clearBody (func : FuncId)
  | alloca (ty : Ty) (name : String)
  | load (ptr : Value)
  | store (value ptr : Value)
  | arith (op : ArithOp) (lhs rhs : Value)
  | cmp (pred : CmpPred) (lhs rhs : Value)
  | neg (value : Value)
  | not (value : Value)
  | cast (op : CastOp) (value : Value)
  | vector (lanes : List Value)
  | splat (value : Value) (lanes : UInt8)
  | call (callee : FuncId) (args : List Value)
  | phi (ty : Ty) (incoming : List (Value × BlockId))
  | ret (value : Option Value)
  | br (target : BlockId)
  | condBr (cond : Value) (thenBlock elseBlock : BlockId)
  | unreachable
  deriving DecidableEq, Repr, Inhabited

namespace Operation

/-- The action of an operation, without its answer. -/
def act : Operation → Build Unit
  | declare name signature linkage => do let _ ← Build.declare name signature linkage
  | appendBlock func label => do let _ ← Build.appendBlock func label
  | moveTo func block => Build.moveTo func block
  | leave => Build.leave
  | clearBody func => Build.clearBody func
  | alloca ty name => do let _ ← Build.alloca ty name
  | load ptr => do let _ ← Build.load ptr
  | store value ptr => Build.store value ptr
  | arith op lhs rhs => do let _ ← Build.arith op lhs rhs
  | cmp pred lhs rhs => do let _ ← Build.cmp pred lhs rhs
  | neg value => do let _ ← Build.neg value
  | not value => do let _ ← Build.not value
  | cast op value => do let _ ← Build.cast op value
  | vector lanes => do let _ ← Build.vector lanes
  | splat value lanes => do let _ ← Build.splat value lanes
  | call callee args => do let _ ← Build.call callee args
  | phi ty incoming => do let _ ← Build.phi ty incoming
  | ret value => Build.ret value
  | br target => Build.br target
  | condBr cond thenBlock elseBlock => Build.condBr cond thenBlock elseBlock
  | unreachable => Build.unreachable

end Operation

/-- What an operation leaves behind, refused or not. -/
def Builder.perform (b : Builder) (o : Operation) : Builder := (o.act.run b).2

/-- Operations one after the other. -/
def Builder.performAll (b : Builder) (os : List Operation) : Builder := os.foldl perform b

/-! ## Checks -/

/-- The function that the cursor is in. -/
def Builder.Here (b : Builder) (f : Function) : Prop :=
  ∃ c, b.cursor = some c ∧ b.module.function? c.func = some f

theorem Builder.Here.unique {b : Builder} {f g : Function} (hf : b.Here f) (hg : b.Here g) :
    f = g := by
  obtain ⟨c, hc, hf⟩ := hf
  obtain ⟨d, hd, hg⟩ := hg
  obtain rfl : c = d := Option.some.inj (hc.symm.trans hd)
  exact Option.some.inj (hf.symm.trans hg)

/-- In the current function an operand has a type. -/
def Builder.Gives (b : Builder) (v : Value) (ty : Ty) : Prop :=
  ∀ f, b.Here f → f.valueType v = .ok ty

namespace Build

variable {b : Builder} {α : Type}

/-- A check passes only if something holds, and changes nothing. -/
def Checks (x : Build α) (b : Builder) (Q : α → Prop) : Prop :=
  x.Meets b (fun a t => t = b ∧ Q a) fun _ t => t = b

theorem current_checks : Checks current b fun f => b.Here f := by
  apply cursor_meets.bind
  rintro c t ⟨rfl, hc⟩
  exact (function_meets c.func).mono (fun f u h => ⟨h.1, c, hc, h.2⟩) fun _ _ h => h

theorem valueType_checks (v : Value) : Checks (valueType v) b fun ty => b.Gives v ty := by
  apply current_checks.bind
  rintro f t ⟨rfl, hf⟩
  refine Act.meets_ofExcept.2 ⟨fun ty hty => ⟨rfl, fun g hg => ?_⟩, fun _ _ => rfl⟩
  rw [hg.unique hf]
  exact hty

theorem expect_checks (v : Value) (ty : Ty) (context : String) :
    Checks (expect v ty context) b fun _ => b.Gives v ty := by
  apply (valueType_checks v).bind
  rintro found t ⟨rfl, hfound⟩
  refine Act.meets_refuseIf.2 ⟨fun _ => rfl, fun hty => ⟨rfl, ?_⟩⟩
  rwa [not_not.1 hty] at hfound

theorem forM_checks {x : α → Build PUnit} {Q : α → Prop}
    (hx : ∀ a, Checks (x a) b fun _ => Q a) (l : List α) :
    Checks (l.forM x) b fun _ => ∀ a ∈ l, Q a := by
  induction l with
  | nil => exact ⟨rfl, fun a ha => by cases ha⟩
  | cons a l ih =>
    apply (hx a).bind
    rintro _ t ⟨rfl, ha⟩
    apply ih.mono
    · rintro _ u ⟨rfl, hl⟩
      refine ⟨rfl, fun a' ha' => ?_⟩
      rcases List.mem_cons.1 ha' with rfl | ha'
      · exact ha
      · exact hl a' ha'
    · intro _ _ h
      exact h

theorem pointee_checks (p : Value) (context : String) :
    Checks (pointee p context) b fun ty => b.Gives p (.ptr ty) := by
  apply (valueType_checks p).bind
  rintro found t ⟨rfl, hfound⟩
  cases found with
  | ptr ty => exact ⟨rfl, hfound⟩
  | _ => rfl

theorem expectResult_checks (v : Option Value) (ty : Ty) :
    Checks (expectResult v ty) b fun _ =>
      (∀ w, v = some w → b.Gives w ty) ∧ (v = none → ty = .void) := by
  -- A value has to have the type; no value asks for the type to be void.
  cases v with
  | some w =>
    apply (expect_checks w ty "return").mono
    · rintro _ t ⟨rfl, hw⟩
      refine ⟨rfl, fun w' hw' => ?_, fun h => by cases h⟩
      cases hw'
      exact hw
    · intro _ _ h
      exact h
  | none =>
    apply Act.meets_refuseIf.2
    refine ⟨fun _ => rfl, fun hvoid => ⟨rfl, ?_, fun _ => ?_⟩⟩
    · intro w hw
      cases hw
    · cases ty with
      | void => rfl
      | _ => exact absurd rfl hvoid

end Build

/-! ## Changes -/

/-- A change of a function depends on that function only. -/
theorem Module.update_congr {m : Module} {func : FuncId} {f : Function}
    {g h : Function → Function} (hf : m.function? func = some f) (hg : g f = h f) :
    m.update func g = m.update func h := by
  unfold update
  congr 1
  apply List.ext_getElem?
  intro k
  rw [List.getElem?_modify, List.getElem?_modify]
  by_cases hk : func = k
  · subst hk
    rw [show m.functions[func]? = some f from hf]
    simp [hg]
  · simp [hk]

/-- All that an operation can do to the bodies of a module. -/
inductive Module.Rework (m : Module) : Module → Prop
  | none : Rework m m
  | block (func : FuncId) (label : String) : Rework m (m.update func (·.addBlock label))
  | cleared (func : FuncId) : Rework m (m.update func Function.clearBody)
  /-- A slot goes behind the slots of the entry block, ended or not. -/
  | slot {func : FuncId} {f : Function} {i : Inst} (hf : m.function? func = some f)
    (hi : i.op.isAlloca = true) (hrule : i.WellTyped m f) : Rework m (m.update func (·.addSlot i))
  /-- Any other instruction goes to the end of a block that is not ended. -/
  | push {func : FuncId} {f : Function} {block : BlockId} {i : Inst}
    (hf : m.function? func = some f) (hopen : f.isTerminated block = false)
    (hi : i.op.isAlloca = false) (hrule : i.WellTyped m f) :
    Rework m (m.update func (·.pushInst block i))

/-- A rework is an update, and an update leaves every head alone. -/
theorem Module.Rework.eq_update {m m' : Module} (h : m.Rework m') :
    m' = m ∨ ∃ func g, m' = m.update func g := by
  cases h with
  | none => exact .inl rfl
  | _ => exact .inr ⟨_, _, rfl⟩

/-- All that an operation can do to a module. -/
inductive Module.Change (m : Module) : Module → Prop
  | body {m' : Module} (h : m.Rework m') : Change m m'
  | declared {name : String} {sig : Signature} {linkage : Linkage} (hfind : m.find? name = none) :
    Change m (m.add name sig linkage)

namespace Build

variable {b : Builder} {α β : Type}

/-- The bodies of a module change in one of the ways there are. -/
def Changes (x : Build α) (b : Builder) : Prop :=
  x.Meets b (fun _ t => b.module.Rework t.module) fun _ t => b.module.Rework t.module

theorem Checks.changes {x : Build α} {Q : α → Prop} {k : α → Build β} (hx : Checks x b Q)
    (hk : ∀ a, Q a → Changes (k a) b) : Changes (x >>= k) b := by
  apply Act.Meets.bind (hx.mono (fun _ _ h => h) ?_)
  · rintro a t ⟨rfl, ha⟩
    exact hk a ha
  · rintro _ t rfl
    exact .none

/-- What comes of an answer does not matter. -/
theorem Changes.discard {x : Build α} (hx : Changes x b) : Changes (do let _ ← x) b :=
  Act.Meets.bind hx fun _ _ h => h

theorem Changes.answer {x : Build α} (hx : Changes x b) (g : α → β) :
    Changes (do return g (← x)) b :=
  Act.Meets.bind hx fun _ _ h => h

theorem refuseIf_checks {c : Prop} [Decidable c] (e : Error) :
    Checks (Act.refuseIf c e) b fun _ => ¬ c :=
  Act.meets_refuseIf.2 ⟨fun _ => rfl, fun hc => ⟨rfl, hc⟩⟩

theorem function_checks (id : FuncId) :
    Checks (function id) b fun f => b.module.function? id = some f :=
  (function_meets id).mono (fun _ _ h => h) fun _ _ h => h

/-- A declaration adds a function or leaves everything as it is. -/
theorem declare_adds (name : String) (sig : Signature) (linkage : Linkage) :
    (declare name sig linkage).Meets b
      (fun _ t => t = b ∨ b.module.find? name = none ∧
        t = { b with module := b.module.add name sig linkage })
      fun _ t => t = b := by
  apply Act.meets_bind.2
  apply Act.meets_get.2
  cases hfind : b.module.find? name with
  | some id =>
    apply (function_meets id).bind
    rintro f t ⟨rfl, -⟩
    exact (refuseIf_checks _).bind fun _ _ h => .inl h.1
  | none => exact .inr ⟨rfl, rfl⟩

/-- A declaration is the one operation that changes more than bodies. -/
theorem declare_change (name : String) (sig : Signature) (linkage : Linkage) :
    (declare name sig linkage).Meets b (fun _ t => b.module.Change t.module)
      fun _ t => b.module.Change t.module := by
  apply (declare_adds name sig linkage).mono
  · rintro _ t (rfl | ⟨hfind, rfl⟩)
    · exact .body .none
    · exact .declared hfind
  · rintro _ t rfl
    exact .body .none

/-- A change of a function that is there. -/
theorem update_changes {func : FuncId} {g : Function → Function}
    (hg : b.module.Rework (b.module.update func g)) : Changes (update func g) b := hg

end Build

/-! ## Emissions -/

/-- An instruction that satisfies its rule was added at the cursor. -/
inductive Builder.Pushed (b : Builder) : Builder → Prop
  | mk {c : Cursor} {f : Function} {i : Inst} (hc : b.cursor = some c)
    (hf : b.module.function? c.func = some f) (hopen : f.isTerminated c.block = false)
    (hi : i.op.isAlloca = false) (hrule : i.WellTyped b.module f) :
    Pushed b { b with module := b.module.update c.func (·.pushInst c.block i) }

/-- A slot was put behind the slots of the entry block, ended or not. -/
inductive Builder.Slotted (b : Builder) : Builder → Prop
  | mk {c : Cursor} {f : Function} {i : Inst} (hc : b.cursor = some c)
    (hf : b.module.function? c.func = some f) (hi : i.op.isAlloca = true)
    (hrule : i.WellTyped b.module f) :
    Slotted b { b with module := b.module.update c.func (·.addSlot i) }

namespace Build

variable {b : Builder} {α β : Type}

theorem alloca_slots (ty : Ty) (name : String) :
    (alloca ty name).Meets b (fun _ t => b.Slotted t) fun _ t => t = b := by
  unfold alloca
  cases hsize : ty.size? with
  | none => exact rfl
  | some size =>
    apply cursor_meets.bind
    rintro c t ⟨rfl, hc⟩
    apply (function_meets c.func).bind
    rintro f u ⟨rfl, hf⟩
    -- The place is the one behind the slots of this very function.
    have hslot := Builder.Slotted.mk (i := ⟨.alloca ty size, .ptr ty, some name⟩) hc hf rfl
      (.alloca hsize)
    rw [Module.update_congr (h := fun x => x.insertInst 0 (f.leadingAllocas 0) _) hf rfl] at hslot
    exact hslot

theorem alloca_changes (ty : Ty) (name : String) : Changes (alloca ty name) b := by
  apply (alloca_slots ty name).mono
  · rintro _ _ ⟨-, hf, hi, hrule⟩
    exact .slot hf hi hrule
  · rintro _ _ rfl
    exact .none

/-- One instruction is added, or the action is refused without effect. -/
def Emits (x : Build α) (b : Builder) : Prop :=
  x.Meets b (fun _ t => b.Pushed t) fun _ t => t = b

theorem Emits.changes {x : Build α} (hx : Emits x b) : Changes x b := by
  apply hx.mono
  · rintro _ _ ⟨-, hf, hopen, hi, hrule⟩
    exact .push hf hopen hi hrule
  · rintro _ _ rfl
    exact .none

/-- Any number of checks may stand before an emission. -/
theorem Checks.emits {x : Build α} {Q : α → Prop} {k : α → Build β} (hx : Checks x b Q)
    (hk : ∀ a, Q a → Emits (k a) b) : Emits (x >>= k) b := by
  apply Act.Meets.bind hx
  rintro a t ⟨rfl, ha⟩
  exact hk a ha

/-- Only an answer may stand behind it. -/
theorem Emits.answer {x : Build α} (hx : Emits x b) (g : α → β) : Emits (do return g (← x)) b :=
  Act.Meets.bind hx fun _ _ h => h

theorem Emits.throw (e : Error) : Emits (throw e : Build α) b := rfl

theorem emit_emits {op : Op} {ty : Ty} (hop : op.isAlloca = false)
    (hrule : ∀ f, b.Here f → (⟨op, ty, none⟩ : Inst).WellTyped b.module f) :
    Emits (emit op ty) b := by
  apply (emit_meets op ty).mono
  · rintro id t ⟨c, f, hc, hf, hopen, -, rfl⟩
    exact .mk hc hf hopen hop (hrule f ⟨c, hc, hf⟩)
  · intro _ _ h
    exact h

theorem emitValue_emits {op : Op} {ty : Ty} (hop : op.isAlloca = false)
    (hrule : ∀ f, b.Here f → (⟨op, ty, none⟩ : Inst).WellTyped b.module f) :
    Emits (emitValue op ty) b := (emit_emits hop hrule).answer _

theorem emitVoid_emits {op : Op} (hop : op.isAlloca = false)
    (hrule : ∀ f, b.Here f → (⟨op, .void, none⟩ : Inst).WellTyped b.module f) :
    Emits (emitVoid op) b := (emit_emits hop hrule).answer _

theorem store_emits (value ptr : Value) : Emits (store value ptr) b := by
  apply (pointee_checks ptr _).emits
  intro ty hptr
  apply (expect_checks value ty _).emits
  intro _ hvalue
  exact emitVoid_emits rfl fun f hf => .store (hptr f hf) (hvalue f hf)

theorem arith_emits (op : ArithOp) (lhs rhs : Value) : Emits (arith op lhs rhs) b := by
  apply (valueType_checks lhs).emits
  intro ty hl
  apply (expect_checks rhs ty _).emits
  intro _ hr
  apply (refuseIf_checks _).emits
  intro _ hop
  exact emitValue_emits rfl fun f hf => .arith (hl f hf) (hr f hf) (by simpa using hop)

theorem cmp_emits (pred : CmpPred) (lhs rhs : Value) : Emits (cmp pred lhs rhs) b := by
  apply (valueType_checks lhs).emits
  intro ty hl
  apply (expect_checks rhs ty _).emits
  intro _ hr
  cases ty with
  | f32 => exact emitValue_emits rfl fun f hf => .cmpFloat (hl f hf) (hr f hf)
  | i32 => exact emitValue_emits rfl fun f hf => .cmp (.inl rfl) (hl f hf) (hr f hf)
  | bool => exact emitValue_emits rfl fun f hf => .cmp (.inr rfl) (hl f hf) (hr f hf)
  | _ => exact .throw _

theorem call_emits (callee : FuncId) (args : List Value) : Emits (call callee args) b := by
  apply (function_checks callee).emits
  intro g hg
  apply (refuseIf_checks _).emits
  intro _ hlength
  apply (forM_checks (fun p : Value × Ty => expect_checks p.1 p.2 _) _).emits
  intro _ hargs
  refine (emit_emits rfl fun f hf => .call hg ?_).answer _
  refine List.forall₂_iff_zip.2 ⟨(not_not.1 hlength).symm, fun hmem => ?_⟩
  exact hargs _ hmem f hf

theorem ret_emits (value : Option Value) : Emits (ret value) b := by
  apply current_checks.emits
  intro f hf
  apply (expectResult_checks value _).emits
  rintro _ ⟨hsome, hnone⟩
  refine emitVoid_emits rfl fun g hg => ?_
  obtain rfl := hf.unique hg
  cases value with
  | some v => exact .ret (hsome v rfl f hf)
  | none => exact .retVoid (hnone rfl)

end Build

/-- Does an operation add an instruction at the cursor? -/
def Operation.isEmission : Operation → Bool
  | declare .. | appendBlock .. | moveTo .. | leave | clearBody _ | alloca .. => false
  | _ => true

/-- Each emission checks its operands, and what it then adds obeys the rule
    that it has checked. -/
theorem Operation.act_emits (b : Builder) {o : Operation} (ho : o.isEmission = true) :
    Build.Emits o.act b := by
  -- One case for each operation: its checks give the typing rule of its instruction.
  cases o with
  | declare | appendBlock | moveTo | leave | clearBody | alloca => cases ho
  | load ptr =>
    exact Build.Emits.answer ((Build.pointee_checks ptr _).emits fun ty hptr =>
      Build.emitValue_emits rfl fun f hf => .load (hptr f hf)) _
  | store value ptr => exact Build.store_emits value ptr
  | arith op lhs rhs => exact (Build.arith_emits op lhs rhs).answer _
  | cmp pred lhs rhs => exact (Build.cmp_emits pred lhs rhs).answer _
  | neg value =>
    exact Build.Emits.answer ((Build.valueType_checks value).emits fun ty hv =>
      (Build.refuseIf_checks _).emits fun _ hty =>
      Build.emitValue_emits rfl fun f hf => .neg (hv f hf)
        (eq_true_of_ne_false fun h => hty (by rw [h]; rfl))) _
  | not value =>
    exact Build.Emits.answer ((Build.expect_checks value _ _).emits fun _ hv =>
      Build.emitValue_emits rfl fun f hf => .not (hv f hf)) _
  | cast op value =>
    exact Build.Emits.answer ((Build.expect_checks value _ _).emits fun _ hv =>
      Build.emitValue_emits rfl fun f hf => .cast (hv f hf)) _
  | vector lanes =>
    exact Build.Emits.answer ((Build.forM_checks (fun v => Build.expect_checks v _ _) lanes).emits
      fun _ hlanes => Build.emitValue_emits rfl fun f hf => .vector fun v hv => hlanes v hv f hf) _
  | splat value lanes =>
    exact Build.Emits.answer ((Build.expect_checks value _ _).emits fun _ hv =>
      Build.emitValue_emits rfl fun f hf => .splat (hv f hf)) _
  | call callee args => exact (Build.call_emits callee args).answer _
  | phi ty incoming =>
    exact Build.Emits.answer ((Build.forM_checks
      (fun p : Value × BlockId => Build.expect_checks p.1 ty _) incoming).emits
        fun _ hincoming => Build.emitValue_emits rfl fun f hf =>
          .phi fun q hq => hincoming q hq f hf) _
  | ret value => exact Build.ret_emits value
  | br target => exact Build.emitVoid_emits rfl fun _ _ => .br
  | condBr cond thenBlock elseBlock =>
    exact (Build.expect_checks cond _ _).emits fun _ hc =>
      Build.emitVoid_emits rfl fun f hf => .condBr (hc f hf)
  | unreachable => exact Build.emitVoid_emits rfl fun _ _ => .unreachable

/-- Does an operation declare a function? -/
def Operation.isDeclare : Operation → Bool
  | declare .. => true
  | _ => false

/-- An operation that declares nothing changes bodies in one of the ways there
    are, and not at all if it is refused. -/
theorem Operation.perform_rework (b : Builder) {o : Operation} (ho : o.isDeclare = false) :
    b.module.Rework (b.perform o).module := by
  refine Act.Meets.state (R := fun t : Builder => b.module.Rework t.module) ?_
  show Build.Changes o.act b
  -- What is no emission opens a block, moves the cursor, clears a body or adds a slot.
  cases hemission : o.isEmission with
  | true => exact (o.act_emits b hemission).changes
  | false =>
    cases o with
    | declare name sig linkage => cases ho
    | appendBlock func label =>
      exact Build.Changes.discard ((Build.function_checks func).changes fun f _ =>
        Build.Changes.answer (Build.update_changes (.block func _)) _)
    | moveTo func block => exact .none
    | leave => exact .none
    | clearBody func =>
      exact (Build.function_checks func).changes fun f _ => Build.update_changes (.cleared func)
    | alloca ty name => exact (Build.alloca_changes ty name).discard
    | _ => cases hemission

theorem Operation.perform_change (b : Builder) (o : Operation) :
    b.module.Change (b.perform o).module := by
  cases ho : o.isDeclare with
  | false => exact .body (perform_rework b ho)
  | true =>
    cases o with
    | declare name sig linkage =>
      refine Act.Meets.state (R := fun t : Builder => b.module.Change t.module) ?_
      exact (Build.declare_change name sig linkage).bind fun _ _ h => h
    | _ => cases ho

/-! ## What stays in a function -/

/-- A function of the module has a property. -/
def Builder.Has (b : Builder) (id : FuncId) (R : Function → Prop) : Prop :=
  ∃ f, b.module.function? id = some f ∧ R f

namespace Builder

variable {b : Builder} {id : FuncId} {R : Function → Prop}

/-- Of a change, only what it makes of this function matters. -/
theorem Has.update (h : b.Has id R) (func : FuncId) {g : Function → Function}
    (hg : func = id → ∀ f, b.module.function? id = some f → R f → R (f.withBodyOf (g f))) :
    ({ b with module := b.module.update func g } : Builder).Has id R := by
  obtain ⟨f, hf, hR⟩ := h
  by_cases hid : func = id
  · subst hid
    refine ⟨f.withBodyOf (g f), ?_, hg rfl f hf hR⟩
    rw [Module.update_function?_self, hf, Option.map_some]
  · exact ⟨f, (Module.update_function?_ne _ (Ne.symm hid) g).trans hf, hR⟩

/-- A property that additions keep is kept by every operation that does not
    drop the body. -/
theorem Has.perform (h : b.Has id R) {o : Operation} (ho : o ≠ .clearBody id)
    (hblock : ∀ f base, o = .appendBlock id base → R f →
      R (f.addBlock (Build.newLabel f.blocks base)))
    (hpush : ∀ f block i, R f → R (f.pushInst block i)) (hslot : ∀ f i, R f → R (f.addSlot i)) :
    (b.perform o).Has id R := by
  refine Act.Meets.state (R := fun t : Builder => t.Has id R) ?_
  have hrefused : ∀ t, t = b → t.Has id R := by
    rintro t rfl
    exact h
  cases hemission : o.isEmission with
  | true =>
    apply (o.act_emits b hemission).mono
    · rintro _ _ ⟨-, -, -, -, -⟩
      exact h.update _ fun _ f _ => hpush f _ _
    · exact fun _ => hrefused
  | false =>
    cases o with
    | declare name sig linkage =>
      refine Act.Meets.bind ((Build.declare_adds name sig linkage).mono ?_ fun _ => hrefused)
        fun _ _ ht => ht
      rintro _ t (rfl | ⟨-, rfl⟩)
      · exact h
      · obtain ⟨f, hf, hR⟩ := h
        exact ⟨f, (Module.add_function?_of_lt (Module.function?_lt hf) ..).trans hf, hR⟩
    | appendBlock func base =>
      refine Act.Meets.bind (Q := fun _ (t : Builder) => t.Has id R) ?_ fun _ _ ht => ht
      apply Act.Meets.bind ((Build.function_checks func).mono (fun _ _ ht => ht) fun _ => hrefused)
      rintro g t ⟨rfl, hg⟩
      refine h.update func fun hid f hf hR => ?_
      -- The label was chosen for the blocks of this very function.
      subst hid
      obtain rfl : f = g := Option.some.inj (hf.symm.trans hg)
      exact hblock f base rfl hR
    | moveTo func block => exact h
    | leave => exact h
    | clearBody func =>
      apply Act.Meets.bind ((Build.function_checks func).mono (fun _ _ ht => ht) fun _ => hrefused)
      rintro g t ⟨rfl, -⟩
      exact h.update func fun hid => absurd (congrArg Operation.clearBody hid) ho
    | alloca ty name =>
      refine Act.Meets.bind ((Build.alloca_slots ty name).mono ?_ fun _ => hrefused)
        fun _ _ ht => ht
      rintro _ _ ⟨-, -, -, -⟩
      exact h.update _ fun _ f _ => hslot f _
    | _ => cases hemission

/-- What additions keep, operations keep as long as none drops the body. -/
theorem Has.performAll (h : b.Has id R) {os : List Operation} (hos : .clearBody id ∉ os)
    (hblock : ∀ f label, R f → R (f.addBlock label))
    (hpush : ∀ f block i, R f → R (f.pushInst block i)) (hslot : ∀ f i, R f → R (f.addSlot i)) :
    (b.performAll os).Has id R := by
  refine List.foldlRecOn (motive := fun t : Builder => t.Has id R) os _ h ?_
  intro t ht o ho
  exact ht.perform (ne_of_mem_of_not_mem ho hos) (fun f _ _ => hblock f _) hpush hslot

end Builder

end Shading.IR
