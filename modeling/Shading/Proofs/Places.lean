import Shading.Proofs.OpenBlocks
import Shading.Proofs.Operands

/-! # Places

    A place is a builder at the end of a block that is not ended.  Actions get
    from places to places (`Lands`), where values keep their types and
    functions their signatures.  Each instruction of the builder gives its
    result a type.  Nothing is said about actions that are refused, so nothing
    is asked of a module besides the place. -/

namespace Shading

open IR

/-! ## Places -/

namespace IR

/-- A builder at the end of an open block of a function. -/
structure Place (func : FuncId) where
  builder : Builder
  block : BlockId
  body : Function
  stands : builder.StandsAt func block body
  isOpen : body.isTerminated block = false

namespace Place

variable {func : FuncId} {P P' P'' : Place func}

/-- Where operands have types. -/
def host (P : Place func) : Host := ⟨P.builder.module, P.body⟩

theorem here (P : Place func) : P.builder.Here P.body := ⟨_, P.stands.cursor, P.stands.found⟩

theorem hasType_of_gives {v : Value} {ty : Ty} (h : P.builder.Gives v ty) : P.host.HasType v ty :=
  h P.body P.here

/-- One place is behind another. -/
structure Leads (P P' : Place func) : Prop where
  reaches : P'.builder.Reaches func P.block P.body P'.block P'.body
  frames : P.builder.module.Frames func P'.builder.module

namespace Leads

theorem refl (P : Place func) : P.Leads P := ⟨P.stands.reaches, .refl func _⟩

theorem trans (h₁ : P.Leads P') (h₂ : P'.Leads P'') : P.Leads P'' :=
  ⟨h₁.reaches.trans h₂.reaches, h₁.frames.trans h₂.frames⟩

theorem hasType (h : P.Leads P') {v : Value} {ty : Ty} (hv : P.host.HasType v ty) :
    P'.host.HasType v ty := h.reaches.beyond.valueType hv

/-- Functions keep their signatures. -/
theorem function (h : P.Leads P') {id : FuncId} {g : Function}
    (hg : P.builder.module.function? id = some g) :
    ∃ g', P'.builder.module.function? id = some g' ∧ g'.signature = g.signature := by
  by_cases hid : id = func
  · subst hid
    obtain ⟨g', hg', -, hsig, -⟩ := h.frames.head g hg
    exact ⟨g', hg', hsig⟩
  · exact ⟨g, h.frames.others id g hid hg, rfl⟩

end Leads

theorem exists_leads (P : Place func) {b : Builder} (hcarries : P.builder.Carries b)
    (hframed : P.builder.Framed b) : ∃ P' : Place func, P'.builder = b ∧ P.Leads P' := by
  obtain ⟨block, g, hreaches, hopen⟩ := hcarries P.stands P.isOpen
  have hframes := (hframed func (by simp [Builder.currentFunction?, P.stands.cursor])).2
  exact ⟨⟨b, block, g, hreaches.stands, hopen⟩, rfl, hreaches, hframes⟩

end Place

end IR

/-! ## Landing -/

/-- Where an action answers, it has got to a place. -/
def Lands {ε α : Type} {func : FuncId} (x : Act Builder ε α) (P : Place func)
    (Q : Place func → α → Prop) : Prop :=
  x.Yields P.builder fun a b => ∃ P' : Place func, P'.builder = b ∧ P.Leads P' ∧ Q P' a

namespace Lands

variable {ε α β : Type} {func : FuncId} {P : Place func} {x : Act Builder ε α}
  {k : α → Act Builder ε β} {Q Q' : Place func → α → Prop} {R : Place func → β → Prop}

theorem of_ok (h : Lands x P Q) {a : α} {b : Builder} (hrun : x.run P.builder = (.ok a, b)) :
    ∃ P' : Place func, P'.builder = b ∧ P.Leads P' ∧ Q P' a := Act.Meets.of_ok h hrun

theorem pure {a : α} (h : Q P a) : Lands (Pure.pure a : Act Builder ε α) P Q :=
  ⟨P, rfl, .refl P, h⟩

theorem throw (e : ε) : Lands (throw e : Act Builder ε α) P Q := trivial

theorem mono (h : Lands x P Q) (hQ : ∀ P' a, P.Leads P' → Q P' a → Q' P' a) : Lands x P Q' := by
  refine Act.Yields.mono h ?_
  rintro a b ⟨P', hb, hleads, hQa⟩
  exact ⟨P', hb, hleads, hQ P' a hleads hQa⟩

theorem bind (hx : Lands x P Q) (hk : ∀ P' a, P.Leads P' → Q P' a → Lands (k a) P' R) :
    Lands (x >>= k) P R := by
  refine Act.Yields.bind hx ?_
  rintro a b ⟨P', rfl, hleads, hQa⟩
  refine Act.Yields.mono (hk P' a hleads hQa) ?_
  rintro c b' ⟨P'', hb', hleads', hR⟩
  exact ⟨P'', hb', hleads.trans hleads', hR⟩

/-- What is made of an answer. -/
theorem answer {g : α → β} (h : Lands x P fun P' a => R P' (g a)) :
    Lands (x >>= fun a => Pure.pure (g a)) P R :=
  h.bind fun _ _ _ ha => .pure ha

theorem ofExcept {r : Except ε α} (hk : ∀ a, r = .ok a → Lands (k a) P R) :
    Lands ((Act.ofExcept r : Act Builder ε α) >>= k) P R := Act.Yields.ofExcept_bind hk

theorem refuseIf {c : Prop} [Decidable c] {e : ε} {k : Unit → Act Builder ε β}
    (hk : ¬c → Lands (k ()) P R) : Lands ((Act.refuseIf c e : Act Builder ε Unit) >>= k) P R :=
  Act.Yields.refuseIf_bind hk

/-- An action with another fault. -/
theorem mapError {ε' : Type} {f : ε → ε'} (h : Lands x P Q) : Lands (x.mapError f) P Q :=
  Act.Yields.mapError h

theorem lift {x : Build α} (h : Lands x P Q) : Lands (liftM x : Emit α) P Q := h.mapError

theorem located {x : Emit α} (h : Lands x P Q) (span : Span) : Lands (Emit.located span x) P Q :=
  h.mapError

end Lands

namespace Lands

variable {α β : Type} {func : FuncId} {P : Place func}

/-- The builder has checked something and is still there. -/
theorem checked {x : Build α} {k : α → Build β} {C : α → Prop} {R : Place func → β → Prop}
    (hx : Build.Checks x P.builder C) (hk : ∀ a, C a → Lands (k a) P R) : Lands (x >>= k) P R := by
  refine (Act.Yields.of_meets hx).bind ?_
  rintro a b ⟨rfl, ha⟩
  exact hk a ha

/-- An action that keeps to the function and to open blocks gets to a place,
    whatever else is known of its answer. -/
theorem of_yields {ε : Type} {x : Act Builder ε α} {R : α → Builder → Prop}
    (h : x.Yields P.builder fun a b => P.builder.Carries b ∧ P.builder.Framed b ∧ R a b) :
    Lands x P fun P' a => R a P'.builder := by
  refine Act.Yields.mono h ?_
  rintro a b ⟨hcarries, hframed, ha⟩
  obtain ⟨P', rfl, hleads⟩ := P.exists_leads hcarries hframed
  exact ⟨P', rfl, hleads, ha⟩

theorem of_laws {x : Emit α} (hcarries : Emit.carrying.Holds x) (hcloses : Emit.closing.Holds x)
    {R : α → Builder → Prop} (hR : x.Yields P.builder R) : Lands x P fun P' a => R a P'.builder :=
  of_yields (((Act.Yields.of_law hcarries _).and ((Act.Yields.of_law hcloses _).and hR)).mono
    fun _ _ h => ⟨h.1, h.2.1.framed, h.2.2⟩)

theorem of_straight {x : Emit α} (h : Emit.straight.Holds x) : Lands x P fun _ _ => True :=
  of_laws (Emit.carrying_of_straight h) (Emit.closing_of_straight h) (.of_run fun _ _ _ => trivial)

/-- Code without branches stays at a place even if it is refused. -/
theorem tryCatch {x : Emit α} {handle : Fault → Emit α} {Q : Place func → α → Prop}
    (h : Emit.straight.Holds x) (hx : Lands x P Q)
    (hhandle : ∀ e P', P.Leads P' → Lands (handle e) P' Q) :
    Lands (tryCatch x handle) P Q := by
  refine Act.Yields.tryCatch hx fun e b hrun => ?_
  have hb := ((h P.builder).of_error hrun).1
  obtain ⟨P', rfl, hleads⟩ := P.exists_leads hb.carries hb.framed
  refine Act.Yields.mono (hhandle e P' hleads) ?_
  rintro a b' ⟨P'', hb', hleads', hQ⟩
  exact ⟨P'', hb', hleads.trans hleads', hQ⟩

end Lands

/-! ## Instructions -/

namespace IR.Build

variable {func : FuncId} {P : Place func} {b : Builder} {ty : Ty} {v w p : Value}

/-- The result of an instruction has its type, wherever the builder stands. -/
theorem emit_gives (op : Op) (ty : Ty) (b : Builder) :
    (emit op ty).Yields b fun id t => t.Gives (.inst id) ty := by
  refine (Act.Yields.of_meets (emit_meets op ty)).mono ?_
  rintro id t ⟨c, f, hc, hf, -, rfl, rfl⟩ g ⟨c', hc', hg⟩
  rw [hc, Option.some.injEq] at hc'
  subst hc'
  rw [Module.update_function?_self, hf, Option.map_some, Option.some.injEq] at hg
  subst hg
  exact Host.hasType_inst (H := ⟨b.module, _⟩) (Function.pushInst_inst?_new ..)

theorem emitValue_gives (op : Op) (ty : Ty) (b : Builder) :
    (emitValue op ty).Yields b fun v t => t.Gives v ty :=
  (emit_gives op ty b).bind fun _ _ h => .pure h

/-- So has a merged value. -/
theorem phi_gives (ty : Ty) (incoming : List (Value × BlockId)) (b : Builder) :
    (phi ty incoming).Yields b fun v t => t.Gives v ty :=
  .skip fun _ t => emitValue_gives _ ty t

theorem emit_lands {op : Op} (hop : op.isTerminator = false) (ty : Ty) :
    Lands (emit op ty) P fun P' id => P'.host.HasType (.inst id) ty := by
  refine Lands.mono (Lands.of_yields (R := fun id t => t.Gives (.inst id) ty) ?_)
    fun P' _ _ h => P'.hasType_of_gives h
  refine ((Act.Yields.of_law (emit_straight hop ty) P.builder).and (emit_gives op ty _)).mono ?_
  rintro id t ⟨hb, hid⟩
  exact ⟨hb.carries, hb.framed, hid⟩

theorem emitValue_lands {op : Op} (hop : op.isTerminator = false) (ty : Ty) :
    Lands (emitValue op ty) P fun P' v => P'.host.HasType v ty := (emit_lands hop ty).answer

theorem load_lands (hp : P.host.HasType p (.ptr ty)) :
    Lands (load p) P fun P' v => P'.host.HasType v ty := by
  refine .checked (pointee_checks p _) fun ty' hty' => ?_
  cases (P.hasType_of_gives hty').unique hp
  exact emitValue_lands rfl ty

/-- Arithmetic stays in the type of its operands. -/
theorem arith_lands (op : ArithOp) (hv : P.host.HasType v ty) (w : Value) :
    Lands (arith op v w) P fun P' z => P'.host.HasType z ty := by
  refine .checked (valueType_checks v) fun ty' hty' => ?_
  cases (P.hasType_of_gives hty').unique hv
  refine .checked (expect_checks w ty _) fun _ _ => .checked (refuseIf_checks _) fun _ _ => ?_
  exact emitValue_lands rfl ty

theorem cmp_lands (pred : CmpPred) (v w : Value) :
    Lands (cmp pred v w) P fun P' z => P'.host.HasType z .bool := by
  refine .checked (valueType_checks v) fun ty _ => .checked (expect_checks w ty _) fun _ _ => ?_
  split
  · exact emitValue_lands rfl .bool
  · exact emitValue_lands rfl .bool
  · exact emitValue_lands rfl .bool
  · exact .throw _

theorem neg_lands (hv : P.host.HasType v ty) :
    Lands (neg v) P fun P' z => P'.host.HasType z ty := by
  refine .checked (valueType_checks v) fun ty' hty' => ?_
  cases (P.hasType_of_gives hty').unique hv
  exact .checked (refuseIf_checks _) fun _ _ => emitValue_lands rfl ty

theorem not_lands (v : Value) : Lands (Build.not v) P fun P' z => P'.host.HasType z .bool :=
  .checked (expect_checks v .bool _) fun _ _ => emitValue_lands rfl .bool

theorem cast_lands (op : CastOp) (v : Value) :
    Lands (cast op v) P fun P' z => P'.host.HasType z op.target :=
  .checked (expect_checks v op.source _) fun _ _ => emitValue_lands rfl op.target

theorem vector_lands (lanes : List Value) :
    Lands (vector lanes) P fun P' z => P'.host.HasType z (.vector (UInt8.ofNat lanes.length)) :=
  .checked (forM_checks (fun v => expect_checks v .f32 _) lanes) fun _ _ => emitValue_lands rfl _

theorem splat_lands (v : Value) (lanes : UInt8) :
    Lands (splat v lanes) P fun P' z => P'.host.HasType z (.vector lanes) :=
  .checked (expect_checks v .f32 _) fun _ _ => emitValue_lands rfl _

/-- The result of a call has the type that the callee returns. -/
theorem call_lands {callee : FuncId} {g : Function}
    (hg : P.builder.module.function? callee = some g) (args : List Value) :
    Lands (call callee args) P fun P' z => P'.host.HasType z g.signature.ret := by
  refine .checked (function_checks callee) fun g' hg' => ?_
  rw [hg, Option.some.injEq] at hg'
  subst hg'
  refine .checked (refuseIf_checks _) fun _ _ => ?_
  refine .checked (forM_checks (fun q : Value × Ty => expect_checks q.1 q.2 _) _) fun _ _ => ?_
  refine (emit_lands rfl g.signature.ret).bind fun P' id _ hid => .pure ?_
  -- A call without result has the operand that stands for nothing.
  generalize g.signature.ret = ret at hid ⊢
  cases ret with
  | void => rfl
  | _ => exact hid

/-- A declared function has its signature. -/
theorem declare_lands (name : String) (sig : Signature) :
    Lands (declare name sig .external) P fun P' id =>
      ∃ g, P'.builder.module.function? id = some g ∧ g.signature = sig := by
  refine Lands.of_yields
    (R := fun id t => ∃ g, t.module.function? id = some g ∧ g.signature = sig) ?_
  refine ((Act.Yields.of_law (declare_straight name sig) P.builder).and (Act.Yields.of_run ?_)).mono
    fun id t ht => ⟨ht.1.carries, ht.1.framed, ht.2⟩
  intro id t hrun
  obtain ⟨m, hdeclared, rfl⟩ := declare_run hrun
  cases hdeclared with
  | found hf _ hsig _ => exact ⟨_, hf, hsig⟩
  | added _ => exact ⟨_, Module.add_function?_new .., rfl⟩

end IR.Build

/-- A runtime function returns what it was declared to return. -/
theorem Emit.callIntrinsic_lands {func : FuncId} {P : Place func} (name : String) (params : List Ty)
    (ret : Ty) (args : List Value) :
    Lands (Emit.callIntrinsic name params ret args) P fun P' v => P'.host.HasType v ret := by
  refine (Build.declare_lands name ⟨params, ret⟩).lift.bind ?_
  rintro P' id - ⟨g, hg, hsig⟩
  have hcall := Build.call_lands hg args
  rw [hsig] at hcall
  exact hcall.lift

end Shading
