import Shading.Proofs.Definitions
import Shading.Proofs.Framing

/-! # Instructions with fitting operands

    The builder checks every instruction that it is given.  From a block that
    is not ended, and with operands of the types that an instruction takes, no
    check fails.

    `Proceeds E x S Q` is the logic of actions that emit code: from the site
    `S` the action answers and gets to a site that satisfies `Q`, or its
    refusal satisfies `E`.  An action of the builder with fitting operands is
    never refused, so it proceeds whatever `E` is. -/

namespace Shading

open IR

variable {name : String} {op : Op} {sig : Signature} {k : Nat} {v : Value}

/-! ## Faults of programs -/

/-- The fault is one of the program.  The compiler gives up only on the one
    built-in type that has no shape. -/
def Fault.OfProgram (e : Fault) : Prop :=
  e.kind = .internal → ∃ span, e = .located (.noRepresentation "module") span

theorem Fault.ofProgram_of_kind {e : Fault} (h : e.kind ≠ .internal) : e.OfProgram :=
  fun hk => absurd hk h

theorem Fault.OfProgram.locate {e : Fault} (h : e.OfProgram) (span : Span) :
    (e.locate span).OfProgram := by
  intro hk
  rw [Fault.kind_locate] at hk
  obtain ⟨s, rfl⟩ := h hk
  by_cases hs : s.isUnknown = true
  · exact ⟨span, by simp [Fault.locate, hs]⟩
  · exact ⟨s, by simp [Fault.locate, hs]⟩

/-! ## The runtime -/

/-- The signatures of the functions of the runtime. -/
def Distribution.runtime : List (String × Signature) :=
  [(createSymbol, ⟨[.handle "shader", .handle "context"], ty⟩), (emptySymbol, ⟨[], ty⟩),
    (copySymbol, ⟨[ty], ty⟩), (destroySymbol, ⟨[ty], .void⟩), (addSymbol, ⟨[ty, ty], ty⟩),
    (scaleSymbol, ⟨[ty, .f32], ty⟩)]

theorem Distribution.runtime_symbols : runtime.map Prod.fst = symbols := rfl

/-- A function of the runtime is known by its name. -/
theorem Distribution.runtime_injective {p q : String × Signature} (hp : p ∈ runtime)
    (hq : q ∈ runtime) (h : p.1 = q.1) : p = q := by
  have hnodup : (runtime.map Prod.fst).Nodup := by decide
  have hfind := find?_key hnodup hp
  rw [h, find?_key hnodup hq, Option.some.injEq] at hfind
  exact hfind.symm

namespace IR.Module

variable {m : Module}

/-- Every function is declared as it may be. -/
def EveryHead (P : String → Signature → Linkage → Prop) (m : Module) : Prop :=
  ∀ f ∈ m.functions, P f.name f.signature f.linkage

/-- Bodies can be changed. -/
theorem EveryHead.update {P : String → Signature → Linkage → Prop} (h : m.EveryHead P) (id : FuncId)
    (g : Function → Function) : (m.update id g).EveryHead P := by
  intro f hf
  obtain ⟨k, hk⟩ := List.mem_iff_getElem?.1 hf
  by_cases hid : k = id
  · subst hid
    have hget := (update_function?_self m k g).symm.trans hk
    obtain ⟨f₀, hf₀, rfl⟩ := Option.map_eq_some_iff.1 hget
    exact h f₀ (List.mem_of_getElem? hf₀)
  · have hget : m.function? k = some f := by rw [← update_function?_ne m hid g]; exact hk
    exact h f (List.mem_of_getElem? hget)

theorem EveryHead.add {P : String → Signature → Linkage → Prop} (h : m.EveryHead P)
    {linkage : Linkage} (hnew : P name sig linkage) : (m.add name sig linkage).EveryHead P := by
  intro f hf
  rcases List.mem_append.1 hf with hf | hf
  · exact h f hf
  · obtain rfl := List.mem_singleton.1 hf
    exact hnew

/-- What bears the symbol of a runtime function is declared as that
    function. -/
def Runtime (m : Module) : Prop :=
  ∀ f ∈ m.functions, ∀ p ∈ Distribution.runtime, f.name = p.1 →
    f.signature = p.2 ∧ f.linkage = .external

theorem Runtime.update (h : m.Runtime) (id : FuncId) (g : Function → Function) :
    (m.update id g).Runtime :=
  EveryHead.update (P := fun name sig linkage => ∀ p ∈ Distribution.runtime, name = p.1 →
    sig = p.2 ∧ linkage = .external) h id g

theorem Runtime.add (h : m.Runtime) {linkage : Linkage}
    (hnew : ∀ p ∈ Distribution.runtime, name = p.1 → sig = p.2 ∧ linkage = .external) :
    (m.add name sig linkage).Runtime :=
  EveryHead.add (P := fun name sig linkage => ∀ p ∈ Distribution.runtime, name = p.1 →
    sig = p.2 ∧ linkage = .external) h hnew

end IR.Module

/-! ## Sites -/

namespace IR.Site

variable {func : FuncId} {S S' S'' : Site func}

/-- The module and the body as they are at a site. -/
def host (S : Site func) : Host := ⟨S.builder.module, S.body⟩

/-- A site is determined by its builder. -/
theorem eq_of_builder (h : S.builder = S'.builder) : S = S' := by
  obtain ⟨b, block, body, hcursor, hfound, hin, hvalid⟩ := S
  obtain ⟨b', block', body', hcursor', hfound', hin', hvalid'⟩ := S'
  obtain rfl : b = b' := h
  obtain rfl : block = block' := by simpa using hcursor.symm.trans hcursor'
  obtain rfl : body = body' := by simpa using hfound.symm.trans hfound'
  rfl

/-- Code can be emitted here. -/
structure Ready (S : Site func) : Prop where
  isOpen : S.Open
  bounded : S.body.Bounded
  runtime : S.builder.module.Runtime

theorem Ready.sound (h : S.Ready) : S.Sound none :=
  ⟨fun _ hs => (List.not_mem_nil hs).elim, h.bounded⟩

/-- Code without jumps has been emitted between two sites. -/
structure Leads (S S' : Site func) : Prop where
  grown : Grown S.body.blocks.length S.block none S S'
  home : S'.block = S.block ∨ S.body.blocks.length ≤ S'.block

namespace Leads

theorem refl (S : Site func) : S.Leads S := ⟨⟨.refl func _, .refl, Nat.le_refl _⟩, .inl rfl⟩

theorem of_emitted {c : Code} (h : Emitted none c S S') : S.Leads S' := ⟨h.grown, h.home⟩

/-- One site leads to the next, and so on. -/
theorem trans (h₁ : S.Leads S') (h₂ : S'.Leads S'') : S.Leads S'' where
  grown := h₁.grown.trans (h₂.grown.widen h₁.grown.blocks_le h₁.home fun _ hs => .inr hs)
  home := by
    rcases h₂.home with h | h
    · rw [h]
      exact h₁.home
    · exact .inr (h₁.grown.blocks_le.trans h)

theorem hasType (h : S.Leads S') {ty : Ty} (hv : S.host.HasType v ty) : S'.host.HasType v ty :=
  Host.Completes.hasType (S := S) ((Host.Completes.self S').before h.grown.grows) hv

theorem declares (h : S.Leads S') {id : FuncId} (hd : S.builder.module.Declares id name sig) :
    S'.builder.module.Declares id name sig :=
  h.grown.grows.declares hd

theorem sound (h : S.Leads S') {t : Option Targets} (hs : S.Sound t) : S'.Sound t :=
  h.grown.sound (Nat.le_refl _) hs

theorem ready (h : S.Leads S') (hs : S.Ready) (hopen : S'.Open) (hrun : S'.builder.module.Runtime) :
    S'.Ready := ⟨hopen, (h.sound hs.sound).bounded, hrun⟩

end Leads

end IR.Site

/-! ## Actions that proceed -/

variable {ε α β : Type} {func : FuncId} {S : Site func}

/-- From a site where code can be emitted, the action gets to another such
    site with an answer that satisfies `Q`, or its refusal satisfies `E`. -/
def Proceeds (E : ε → Prop) (x : Act Builder ε α) (S : Site func)
    (Q : Site func → α → Prop) : Prop :=
  S.Ready → x.Meets S.builder
    (fun a b => ∃ S' : Site func, S'.builder = b ∧ S.Leads S' ∧ S'.Ready ∧ Q S' a)
    fun e b => E e ∧ b.module.Runtime

namespace Proceeds

variable {E : ε → Prop} {x : Act Builder ε α} {k : α → Act Builder ε β} {Q : Site func → α → Prop}
  {R : Site func → β → Prop}

theorem pure {a : α} (h : Q S a) : Proceeds E (Pure.pure a) S Q := fun hS =>
  ⟨S, rfl, .refl S, hS, h⟩

theorem throw {e : ε} (h : E e) : Proceeds E (throw e : Act Builder ε α) S Q := fun hS =>
  ⟨h, hS.runtime⟩

theorem mono {Q' : Site func → α → Prop} (h : Proceeds E x S Q)
    (hQ : ∀ S' a, S.Leads S' → Q S' a → Q' S' a) : Proceeds E x S Q' := by
  intro hS
  refine (h hS).mono (fun a b hb => ?_) fun _ _ he => he
  obtain ⟨S', hb, hleads, hready, ha⟩ := hb
  exact ⟨S', hb, hleads, hready, hQ S' a hleads ha⟩

/-- What proceeds from each place that the first action leads to proceeds behind
    it. -/
theorem bind (hx : Proceeds E x S Q) (hk : ∀ S' a, S.Leads S' → Q S' a → Proceeds E (k a) S' R) :
    Proceeds E (x >>= k) S R := by
  intro hS
  refine (hx hS).bind fun a b hb => ?_
  obtain ⟨S', rfl, hleads, hready, ha⟩ := hb
  refine (hk S' a hleads ha hready).mono (fun c b' hb' => ?_) fun _ _ he => he
  obtain ⟨S'', hb', hleads', hrest⟩ := hb'
  exact ⟨S'', hb', hleads.trans hleads', hrest⟩

/-- A step that only looks at the builder. -/
theorem still {a : α} (hx : x.run S.builder = (.ok a, S.builder)) (hk : Proceeds E (k a) S R) :
    Proceeds E (x >>= k) S R := fun hS => Act.meets_bind.2 (Act.meets_of_answer hx (hk hS))

/-- A step that is known to lead to a site. -/
theorem step {a : α} {S' : Site func} (hx : S.Ready → x.run S.builder = (.ok a, S'.builder))
    (hleads : S.Ready → S.Leads S' ∧ S'.Ready) (h : Q S' a) : Proceeds E x S Q := fun hS =>
  Act.meets_of_answer (hx hS) ⟨S', rfl, (hleads hS).1, (hleads hS).2, h⟩

theorem refuseIf {c : Prop} [Decidable c] {e : ε} {k : Unit → Act Builder ε β} (he : c → E e)
    (hk : ¬ c → Proceeds E (k ()) S R) : Proceeds E (Act.refuseIf c e >>= k) S R := fun hS =>
  Act.meets_bind.2 (Act.meets_refuseIf.2 ⟨fun hc => ⟨he hc, hS.runtime⟩, fun hc => hk hc hS⟩)

theorem ofExcept {r : Except ε α} (he : ∀ e, r = .error e → E e)
    (hk : ∀ a, r = .ok a → Proceeds E (k a) S R) : Proceeds E (Act.ofExcept r >>= k) S R :=
  fun hS => Act.meets_bind.2 (Act.meets_ofExcept.2 ⟨fun a ha => hk a ha hS, fun e h =>
    ⟨he e h, hS.runtime⟩⟩)

theorem answer {g : α → β} (h : Proceeds E x S fun S' a => R S' (g a)) :
    Proceeds E (x >>= fun a => Pure.pure (g a)) S R :=
  h.bind fun _ _ _ ha => .pure ha

/-- One action after the other for the members of a list. -/
theorem forM {as : List α} {x : α → Act Builder ε PUnit} {P : Site func → α → Prop}
    (hmono : ∀ {S S' : Site func} {a}, S.Leads S' → P S a → P S' a)
    (hx : ∀ (S : Site func) a, P S a → Proceeds E (x a) S fun _ _ => True)
    (has : ∀ a ∈ as, P S a) : Proceeds E (as.forM x) S fun _ _ => True := by
  induction as generalizing S with
  | nil => exact pure trivial
  | cons a rest ih =>
    refine bind (hx S a (has a List.mem_cons_self)) fun S' _ hleads _ => ?_
    exact ih fun b hb => hmono hleads (has b (List.mem_cons_of_mem _ hb))

end Proceeds

/-- The action proceeds, or its refusal is the fault of the program. -/
abbrev Emit.Proceeds (x : Emit α) (S : Site func) (Q : Site func → α → Prop) : Prop :=
  Shading.Proceeds Fault.OfProgram x S Q

/-- The action proceeds and is not refused. -/
abbrev IR.Build.Proceeds (x : Build α) (S : Site func) (Q : Site func → α → Prop) : Prop :=
  Shading.Proceeds (fun _ => False) x S Q

/-- The builder refuses nothing here, so neither does emission. -/
theorem IR.Build.Proceeds.lift {x : Build α} {Q : Site func → α → Prop} {E : Fault → Prop}
    (h : x.Proceeds S Q) : Shading.Proceeds E (liftM x : Emit α) S Q := by
  intro hS
  exact Act.meets_mapError.2 ((h hS).mono (fun _ _ hQ => hQ) fun _ _ he => he.1.elim)

theorem Emit.Proceeds.located {x : Emit α} {Q : Site func → α → Prop} (h : Emit.Proceeds x S Q)
    (span : Span) : Emit.Proceeds (Emit.located span x) S Q := by
  intro hS
  exact Act.meets_mapError.2 ((h hS).mono (fun _ _ hQ => hQ) fun _ _ he =>
    ⟨he.1.locate span, he.2⟩)

/-! ## The builder -/

namespace IR

/-- An instruction that neither branches nor merges nor reserves a slot. -/
theorem Site.push_leads (hop : op.isPlain = true) (hslot : op.isAlloca = false) (ty : Ty)
    (hS : S.Ready) : S.Leads (S.push ⟨op, ty, none⟩) ∧ (S.push ⟨op, ty, none⟩).Ready := by
  have he := Emitted.push none S hS.isOpen (i := ⟨op, ty, none⟩) hop hslot
  have hleads := Site.Leads.of_emitted he
  exact ⟨hleads, hleads.ready hS he.ends
    (hS.runtime.update func _)⟩

theorem Site.push_hasType (S : Site func) (i : Inst) :
    (S.push i).host.HasType (.inst S.body.insts.length) i.ty :=
  Host.hasType_inst (Function.pushInst_inst?_new ..)

namespace Build

theorem current_at (S : Site func) : current.run S.builder = (.ok S.body, S.builder) := by
  unfold current
  rw [Act.run_bind, cursor_at]
  exact function_at S

/-- A value that has a type is found to have it. -/
theorem valueType_at {ty : Ty} (h : S.host.HasType v ty) :
    (valueType v).run S.builder = (.ok ty, S.builder) := by
  have hty : S.body.valueType v = .ok ty := h
  unfold valueType
  rw [Act.run_bind, current_at]
  simp only [hty]
  rfl

theorem expect_at {ty : Ty} (h : S.host.HasType v ty) (context : String) :
    (expect v ty context).run S.builder = (.ok (), S.builder) := by
  unfold expect
  rw [Act.run_bind, valueType_at h]
  simp only [Act.run_refuseIf]
  rw [if_neg (by simp)]

theorem pointee_at {p : Value} {ty : Ty} (h : S.host.HasType p (.ptr ty)) (context : String) :
    (pointee p context).run S.builder = (.ok ty, S.builder) := by
  unfold pointee
  rw [Act.run_bind, valueType_at h]
  rfl

theorem forM_still {as : List α} {x : α → Build PUnit} {b : Builder}
    (h : ∀ a ∈ as, (x a).run b = (.ok (), b)) : (as.forM x).run b = (.ok (), b) := by
  induction as with
  | nil => rfl
  | cons a rest ih =>
    show (x a >>= fun _ => rest.forM x).run b = _
    rw [Act.run_bind, h a List.mem_cons_self]
    exact ih fun c hc => h c (List.mem_cons_of_mem _ hc)

variable {v p : Value} {ty : Ty}

theorem emit_proceeds (hop : op.isPlain = true) (hslot : op.isAlloca = false) (ty : Ty) :
    (emit op ty).Proceeds S fun S' id => S'.host.HasType (.inst id) ty :=
  .step (fun hS => emit_open hS.isOpen op ty) (Site.push_leads hop hslot ty)
    (S.push_hasType ⟨op, ty, none⟩)

theorem emitValue_proceeds (hop : op.isPlain = true) (hslot : op.isAlloca = false) (ty : Ty) :
    (emitValue op ty).Proceeds S fun S' v => S'.host.HasType v ty :=
  (emit_proceeds hop hslot ty).answer

theorem emitVoid_proceeds (hop : op.isPlain = true) (hslot : op.isAlloca = false) :
    (emitVoid op).Proceeds S fun _ _ => True :=
  (emit_proceeds hop hslot .void).bind fun _ _ _ _ => .pure trivial

theorem load_proceeds (h : S.host.HasType p (.ptr ty)) :
    (load p).Proceeds S fun S' v => S'.host.HasType v ty :=
  .still (pointee_at h _) (emitValue_proceeds rfl rfl ty)

theorem store_proceeds (hv : S.host.HasType v ty) (hp : S.host.HasType p (.ptr ty)) :
    (store v p).Proceeds S fun _ _ => True :=
  .still (pointee_at hp _) (.still (expect_at hv _) (emitVoid_proceeds rfl rfl))

/-- Operands of one type that the operator accepts give a result of that type. -/
theorem arith_proceeds {op : ArithOp} {a b : Value} (ha : S.host.HasType a ty)
    (hb : S.host.HasType b ty) (hop : op.accepts ty = true) :
    (arith op a b).Proceeds S fun S' v => S'.host.HasType v ty :=
  .still (valueType_at ha) (.still (expect_at hb _) (.refuseIf (fun h => by simp [hop] at h) fun _ =>
    emitValue_proceeds rfl rfl ty))

/-- Floats, integers and booleans can be compared. -/
theorem cmp_proceeds (pred : CmpPred) {a b : Value} (ha : S.host.HasType a ty)
    (hb : S.host.HasType b ty) (hty : ty = .f32 ∨ ty = .i32 ∨ ty = .bool) :
    (cmp pred a b).Proceeds S fun S' v => S'.host.HasType v .bool := by
  refine .still (valueType_at ha) (.still (expect_at hb _) ?_)
  rcases hty with rfl | rfl | rfl
  · exact emitValue_proceeds rfl rfl _
  · exact emitValue_proceeds rfl rfl _
  · exact emitValue_proceeds rfl rfl _

theorem neg_proceeds (h : S.host.HasType v ty) (hty : (ty.isFloatLike || ty == .i32) = true) :
    (neg v).Proceeds S fun S' r => S'.host.HasType r ty :=
  .still (valueType_at h) (.refuseIf (fun hn => by simp [hty] at hn) fun _ =>
    emitValue_proceeds rfl rfl ty)

theorem not_proceeds (h : S.host.HasType v .bool) :
    (Build.not v).Proceeds S fun S' r => S'.host.HasType r .bool :=
  .still (expect_at h _) (emitValue_proceeds rfl rfl _)

theorem cast_proceeds (op : CastOp) (h : S.host.HasType v op.source) :
    (cast op v).Proceeds S fun S' r => S'.host.HasType r op.target :=
  .still (expect_at h _) (emitValue_proceeds rfl rfl _)

theorem vector_proceeds {lanes : List Value} (h : ∀ v ∈ lanes, S.host.HasType v .f32) :
    (vector lanes).Proceeds S fun S' r =>
      S'.host.HasType r (.vector (UInt8.ofNat lanes.length)) :=
  .still (forM_still fun v hv => expect_at (h v hv) _) (emitValue_proceeds rfl rfl _)

theorem splat_proceeds (h : S.host.HasType v .f32) (lanes : UInt8) :
    (splat v lanes).Proceeds S fun S' r => S'.host.HasType r (.vector lanes) :=
  .still (expect_at h _) (emitValue_proceeds rfl rfl _)

/-- A call whose arguments have the types of the parameters. -/
theorem call_proceeds {callee : FuncId} {args : List Value}
    (hd : S.builder.module.Declares callee name sig)
    (hargs : List.Forall₂ S.host.HasType args sig.params) :
    (call callee args).Proceeds S fun S' r => S'.host.HasType r sig.ret := by
  obtain ⟨f, hf, -, rfl⟩ := hd
  have hread : (function callee).run S.builder = (.ok f, S.builder) := by
    show (Act.ofExcept (S.builder.module.function callee) : Build Function).run _ = _
    rw [Module.function_eq_ok.2 hf]
    rfl
  refine .still hread (.refuseIf (fun hlen => hlen hargs.length_eq.symm) fun _ => ?_)
  have hzip : ∀ q ∈ args.zip f.signature.params, S.host.HasType q.1 q.2 := by
    rw [List.forall₂_iff_zip] at hargs
    exact fun q hq => hargs.2 hq
  refine .still (forM_still fun q hq => expect_at (hzip q hq) _) ?_
  refine (emit_proceeds rfl rfl f.signature.ret).bind fun S' id _ hid => .pure ?_
  -- A call of a `void` function answers with the `void` value and not with its register.
  by_cases hvoid : f.signature.ret.isVoid = true
  · rw [if_pos hvoid]
    cases hret : f.signature.ret with
    | void => rfl
    | _ => simp [hret, Ty.isVoid] at hvoid
  · rw [if_neg hvoid]
    exact hid

/-- A slot can be reserved for every type that has a size. -/
theorem alloca_proceeds {size : UInt32} (hsize : ty.size? = some size) (name : String) :
    (alloca ty name).Proceeds S fun S' p => S'.host.HasType p (.ptr ty) := by
  have hrun : (alloca ty name).run S.builder = (.ok (.inst S.body.insts.length),
      (S.slot ⟨.alloca ty size, .ptr ty, some name⟩).builder) := by
    unfold alloca
    rw [hsize]
    simp only [Act.run_bind, cursor_at, function_at]
    rfl
  -- The pointer is the instruction that has just been added.
  have hslot : (S.slot ⟨.alloca ty size, .ptr ty, some name⟩).host.HasType
      (.inst S.body.insts.length) (.ptr ty) :=
    Host.hasType_inst (i := ⟨.alloca ty size, .ptr ty, some name⟩)
      (Function.addSlot_inst?_new S.body _)
  refine .step (fun _ => hrun) (fun hS => ?_) hslot
  have he := Emitted.slot none S hS.isOpen ty size name
  have hleads := Site.Leads.of_emitted he
  exact ⟨hleads, hleads.ready hS he.ends
    (hS.runtime.update func _)⟩

/-- The functions of the runtime can always be declared. -/
theorem declare_proceeds (hp : (name, sig) ∈ Distribution.runtime) :
    (declare name sig .external).Proceeds S fun S' id => S'.builder.module.Declares id name sig := by
  intro hS
  refine (declare_meets name sig .external S.builder).mono (fun id b hb => ?_) fun e b hb => ?_
  · obtain ⟨m, hdecl, rfl⟩ := hb
    -- The function is in the module already or is added behind the others.
    cases hdecl with
    | found hf hname hsig hlink => exact ⟨S, rfl, .refl S, hS, _, hf, hname, hsig⟩
    | added hfind =>
      have he := Emitted.declare none S hS.isOpen name sig
      have hleads := Site.Leads.of_emitted he
      refine ⟨S.declare name sig, rfl, hleads, hleads.ready hS he.ends (hS.runtime.add ?_), _,
        Module.add_function?_new .., rfl, rfl⟩
      intro q hq hn
      obtain rfl : (name, sig) = q := Distribution.runtime_injective hp hq hn
      exact ⟨rfl, rfl⟩
  · -- A found function with the name has the runtime's own head, so there is nothing to refuse.
    obtain ⟨-, -, id, f, hfind, hf, hdiffer⟩ := hb
    obtain ⟨f', hf', hname⟩ := Module.name_of_find? hfind
    rw [hf, Option.some.injEq] at hf'
    subst hf'
    obtain ⟨hsig, hlink⟩ := hS.runtime f (List.mem_of_getElem? hf) _ hp hname
    rcases hdiffer with h | h
    · exact (h hsig).elim
    · exact (h hlink).elim

/-! ### Blocks -/

theorem currentFunction_at (S : Site func) :
    currentFunction.run S.builder = (.ok func, S.builder) := by
  unfold currentFunction
  rw [Act.run_bind, cursor_at]
  rfl

theorem currentBlock_at (S : Site func) :
    currentBlock.run S.builder = (.ok S.block, S.builder) := by
  unfold currentBlock
  rw [Act.run_bind, cursor_at]
  rfl

theorem appendBlock_at (S : Site func) (label : String) :
    (appendBlock func label).run S.builder =
      (.ok S.body.blocks.length, (S.addBlock (newLabel S.body.blocks label)).builder) := by
  unfold appendBlock
  rw [Act.run_bind, function_at]
  rfl

theorem emitVoid_at (hopen : S.Open) (op : Op) :
    (emitVoid op).run S.builder = (.ok (), (S.push ⟨op, .void, none⟩).builder) := by
  unfold emitVoid
  rw [Act.run_bind, emit_open hopen]
  rfl

theorem condBr_at (hopen : S.Open) (hv : S.host.HasType v .bool) (a b : BlockId) :
    (condBr v a b).run S.builder = (.ok (), (S.push ⟨.condBr v a b, .void, none⟩).builder) := by
  unfold condBr
  rw [Act.run_bind, expect_at hv]
  exact emitVoid_at hopen _

theorem phi_at (hopen : S.Open) {incoming : List (Value × BlockId)}
    (h : ∀ q ∈ incoming, S.host.HasType q.1 ty) :
    (phi ty incoming).run S.builder =
      (.ok (.inst S.body.insts.length), (S.push ⟨.phi incoming, ty, none⟩).builder) := by
  unfold phi emitValue
  rw [Act.run_bind, forM_still fun q hq => expect_at (h q hq) _]
  simp only [Act.run_bind, emit_open hopen]
  rfl

end Build

theorem Site.addBlock_runtime (h : S.builder.module.Runtime) (label : String) :
    (S.addBlock label).builder.module.Runtime :=
  h.update func _

theorem Site.push_runtime (h : S.builder.module.Runtime) (i : Inst) :
    (S.push i).builder.module.Runtime := h.update func _

/-! ### Branches to new blocks -/

/-- One more block behind those that a construct has appended. -/
theorem Appended.append_at {S' : Site func} (h : Appended k S S') (hrun : S'.builder.module.Runtime)
    (label : String) (hl : label ∈ Build.labels) :
    ∃ S'' : Site func, (Build.appendBlock func label).run S'.builder =
        (.ok (S.body.blocks.length + k), S''.builder) ∧ Appended (k + 1) S S'' ∧
      S''.builder.module.Runtime :=
  ⟨_, h.length ▸ Build.appendBlock_at S' label, h.addBlock hl, Site.addBlock_runtime hrun _⟩

theorem Appended.leads {S' : Site func} (h : Appended k S S') : S.Leads S' :=
  ⟨h.grown, .inl h.block⟩

theorem Appended.isOpen {S' : Site func} (h : Appended k S S') (hopen : S.Open) : S'.Open := by
  unfold Site.Open
  rw [h.block, h.ended]
  exact hopen

/-- A conditional branch to two new blocks. -/
theorem Appended.condBr_at {S' : Site func} (h : Appended 2 S S') (hS : S.Ready)
    (hrun : S'.builder.module.Runtime) (hv : S.host.HasType v .bool) {a b : BlockId}
    (ha : a = S.body.blocks.length ∨ a = S.body.blocks.length + 1)
    (hb : b = S.body.blocks.length ∨ b = S.body.blocks.length + 1) :
    ∃ S'' : Site func, (Build.condBr v a b).run S'.builder = (.ok (), S''.builder) ∧
      Forked 2 S S'' (.condBr v a b) ∧ S''.builder.module.Runtime :=
  ⟨_, Build.condBr_at (h.isOpen hS.isOpen) (h.leads.hasType hv) a b,
    h.condBr hS.isOpen hS.bounded v ha hb, Site.push_runtime hrun _⟩

/-- The builder moves to one of the new blocks. -/
theorem Forked.enter {S' : Site func} (h : Forked k S S' op) (hS : S.Ready)
    (hrun : S'.builder.module.Runtime) {b : BlockId} (hb : S.body.blocks.length ≤ b)
    (hin : b < S'.body.blocks.length) : S.Leads (S'.moveTo b hin) ∧ (S'.moveTo b hin).Ready := by
  have hleads : S.Leads (S'.moveTo b hin) :=
    ⟨(h.grown (Nat.le_refl _) (.inl rfl)).trans (.moveTo S' hin), .inr hb⟩
  exact ⟨hleads, hleads.ready hS (h.moveTo_open hb hin) hrun⟩

end IR

/-- A step of the builder that is known, then the rest. -/
theorem Emit.meets_step {x : Build α} {k : α → Emit β} {a : α} {b₀ b : Builder}
    {Q : β → Builder → Prop} {E : Fault → Builder → Prop} (hx : x.run b₀ = (.ok a, b))
    (hk : (k a).Meets b Q E) : ((liftM x : Emit α) >>= k).Meets b₀ Q E :=
  Act.meets_bind.2 (Act.meets_mapError.2 (Act.meets_of_answer hx hk))

/-- A call of the runtime is not refused. -/
theorem Emit.callIntrinsic_proceeds {params : List Ty} {ret : Ty} {args : List Value}
    {E : Fault → Prop} (hp : (name, ⟨params, ret⟩) ∈ Distribution.runtime)
    (hargs : List.Forall₂ S.host.HasType args params) :
    Shading.Proceeds E (callIntrinsic name params ret args) S fun S' v => S'.host.HasType v ret :=
  (Build.declare_proceeds hp).lift.bind fun _ _ hleads hd =>
    (Build.call_proceeds hd (hargs.imp fun _ _ h => hleads.hasType h)).lift

end Shading
