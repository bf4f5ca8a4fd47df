import Shading.Proofs.Memory
import Shading.Proofs.TypedExpressions

/-! # Statements emit fitting instructions

    Where the surroundings of a statement are known to the site (`Work.Fits`),
    its lowering is refused only with faults of the program (`StmtProceeds`).
    Where it answers, what has been emitted is its translation, so the
    surroundings of the next statement are known again. -/

namespace Shading

open IR

variable
    {Q R : Functions → Host → Option Nat → List (List Slot) → Nat → List Slot → Code →
      List Slot → Nat → Prop}
    {span : Span} {x y : Lower Unit}

/-! ## Surroundings -/

section

variable {func : FuncId} {S S' : Site func}

/-- Slots stay where they are while the function grows. -/
theorem Laid.grow {bound : Nat} {slots : List Slot} (h : Laid S.host bound slots)
    (hgrows : S.builder.module.Grows func S'.builder.module) : Laid S'.host bound slots := by
  have hH : Host.Completes S'.host func S.builder.module := ⟨hgrows, S'.found⟩
  refine ⟨fun slot hslot => ?_, h.apart⟩
  obtain ⟨a, shape, hptr, ha, hmem, hshape, htype⟩ := h.placed slot hslot
  exact ⟨a, shape, hptr, ha, (hH.extend.2.slots 0).subset hmem, hshape, hH.hasType htype⟩

/-- What a statement refers to is there: its variables, the functions and the
    result type of the function that it is part of. -/
structure Work.Fits (w : Work) (S : Site func) (ret : TypeId) : Prop where
  runtime : S.builder.module.Runtime
  laid : Laid S.host S.body.insts.length w.symbols.scopes.stack.flatten
  functions : ∀ e ∈ w.symbols.functions.entries, e.Callable S.builder.module
  result : TypeTable.builtins.representation ret = .ok S.body.signature.ret

namespace Work.Fits

variable {w w' : Work} {ret : TypeId}

theorem knows (h : w.Fits S ret) : S.Knows w.symbols where
  slots slot hslot := by
    obtain ⟨-, shape, -, -, -, hshape, htype⟩ := h.laid.placed slot hslot
    exact ⟨shape, hshape, htype⟩
  functions := h.functions

/-- The same names at a later site. -/
theorem grow (h : w.Fits S ret) (hgrows : S.builder.module.Grows func S'.builder.module)
    (hinsts : S.body.insts.length ≤ S'.body.insts.length) (hrun : S'.builder.module.Runtime)
    (hscopes : w'.symbols.scopes = w.symbols.scopes)
    (hfunctions : w'.symbols.functions = w.symbols.functions) : w'.Fits S' ret where
  runtime := hrun
  laid := by
    rw [hscopes]
    exact (h.laid.grow hgrows).weaken hinsts
  functions e he := by
    rw [hfunctions] at he
    obtain ⟨name, sig, hd, hshaped⟩ := h.functions e he
    exact ⟨name, sig, hgrows.declares hd, hshaped⟩
  result := by
    have hH : Host.Completes S'.host func S.builder.module := ⟨hgrows, S'.found⟩
    have hsig : S'.body.signature = S.body.signature := hH.extend.1
    rw [hsig]
    exact h.result

theorem leads (h : w.Fits S ret) (hleads : S.Leads S') (hS' : S'.Ready) :
    Work.Fits { w with builder := S'.builder } S' ret :=
  h.grow hleads.grown.grows hleads.grown.insts hS'.runtime rfl rfl

end Work.Fits

end

/-- The program is at fault, and what was declared meanwhile is the runtime. -/
def Lower.Refusal (e : Fault) (w : Work) : Prop := e.OfProgram ∧ w.builder.module.Runtime

/-- From a block that is not ended, a lowered statement is refused only with
    faults of the program, and it keeps to the runtime. -/
def StmtProceeds (ret : TypeId) (x : Lower Unit) : Prop :=
  ∀ (func : FuncId) (S : Site func) (w : Work) (loop : Option Nat) (t : Option Targets)
    (outer : List (List Slot)) (top : List Slot), w.Stands S ret 1 loop t (.of (top :: outer)) →
    S.Open →
    w.Fits S ret →
    x.Meets w (fun _ w' => w'.builder.module.Runtime) Lower.Refusal

/-! ## Emission at a site -/

section

variable {α β : Type} {func : FuncId} {S : Site func} {w : Work} {ret : TypeId}
  {loop : Option Nat} {t : Option Targets} {scopes : Scopes} {options : Options}

theorem Work.Stands.ready (hw : w.Stands S ret 1 loop t scopes) (hopen : S.Open)
    (hfits : w.Fits S ret) : S.Ready := ⟨hopen, hw.sound.bounded, hfits.runtime⟩

theorem Work.Stands.leads (hw : w.Stands S ret 1 loop t scopes) {S' : Site func}
    (hleads : S.Leads S') : Work.Stands { w with builder := S'.builder } S' ret 1 loop t scopes :=
  hw.at (hleads.sound hw.sound)

namespace Lower

/-- Only the builder has changed, and it stands where code can be emitted. -/
def Reaches (w : Work) (S : Site func) (Q : Site func → α → Prop) (a : α) (w' : Work) : Prop :=
  ∃ S' : Site func, w' = { w with builder := S'.builder } ∧ S.Leads S' ∧ S'.Ready ∧ Q S' a

theorem emit_proceeds {x : Emit α} {Q : Site func → α → Prop} (hw : w.builder = S.builder)
    (hS : S.Ready) (hx : Emit.Proceeds x S Q) :
    (liftM x : Lower α).Meets w (Reaches w S Q) Refusal := by
  refine meets_emit.2 ?_
  rw [hw]
  refine (hx hS).mono (fun a b hb => ?_) fun _ _ he => he
  obtain ⟨S', rfl, hrest⟩ := hb
  exact ⟨S', rfl, hrest⟩

theorem build_proceeds {x : Build α} {Q : Site func → α → Prop} (hw : w.builder = S.builder)
    (hS : S.Ready) (hx : x.Proceeds S Q) :
    (liftM x : Lower α).Meets w (Reaches w S Q) Refusal := by
  refine meets_build.2 ?_
  rw [hw]
  refine (hx hS).mono (fun a b hb => ?_) fun _ _ he => he.1.elim
  obtain ⟨S', rfl, hrest⟩ := hb
  exact ⟨S', rfl, hrest⟩

/-- A step of the builder that is known, then the rest. -/
theorem meets_step {x : Build α} {k : α → Lower β} {a : α} {b : Builder} {Q : β → Work → Prop}
    {E : Fault → Work → Prop} (hx : x.run w.builder = (.ok a, b))
    (hk : (k a).Meets { w with builder := b } Q E) :
    ((liftM x : Lower α) >>= k).Meets w Q E :=
  Act.meets_bind.2 (meets_build.2 (Act.meets_of_answer hx hk))

theorem meets_symbols {k : Symbols → Lower β} {Q : β → Work → Prop} {E : Fault → Work → Prop}
    (hk : (k w.symbols).Meets w Q E) : (symbols >>= k).Meets w Q E := hk

/-- A refusal at a site where code can be emitted. -/
theorem Refusal.at {e : Fault} (hw : w.builder = S.builder) (hS : S.Ready) (h : e.OfProgram) :
    Refusal e w := by
  refine ⟨h, ?_⟩
  rw [hw]
  exact hS.runtime

theorem isTerminated_at (hw : w.builder = S.builder) :
    isTerminated.run w = (.ok (S.body.isTerminated S.block), w) := by
  have hsome : isTerminated.run w = (.ok w.builder.isTerminated, w) := rfl
  obtain ⟨h, -⟩ := isTerminated_run hw hsome
  rw [hsome, h]

/-- Code that ends a statement. -/
theorem emit_runtime {x : Emit α} {Q : Site func → α → Prop} (hw : w.builder = S.builder)
    (hS : S.Ready) (hx : Emit.Proceeds x S Q) :
    (liftM x : Lower α).Meets w (fun _ w' => w'.builder.module.Runtime) Refusal :=
  (emit_proceeds hw hS hx).mono (fun a w' hw' => by
    obtain ⟨S', rfl, -, hready, -⟩ := hw'
    exact hready.runtime) fun _ _ he => he

/-! ## Simple statements -/

theorem exprStmt_proceeds (e : Expr) : StmtProceeds ret (exprStmt ⟨.builtins, options⟩ e) := by
  intro func S w loop t outer top hw hopen hfits
  have hready := hw.ready hopen hfits
  refine meets_symbols ?_
  refine (emit_proceeds hw.builder hready
    (Expr.lower_proceeds options w.symbols e S hfits.knows)).bind fun x w₁ hw₁ => ?_
  obtain ⟨S₁, rfl, h₁, hready₁, hx⟩ := hw₁
  exact emit_runtime rfl hready₁ (Lifetime.release_proceeds hx)

/-- A value for a place of the given type, which will own it. -/
theorem owned_proceeds (hw : w.builder = S.builder) (hS : S.Ready) (hknows : S.Knows w.symbols)
    {e : Expr} {expected : TypeId} {what : String} :
    (do
      let z ← (liftM (check ⟨.builtins, options⟩ (e.lower ⟨.builtins, options⟩ w.symbols)
        expected span what) : Lower ExprValue)
      liftM (Lifetime.materialize .builtins z) : Lower Value).Meets w
      (Reaches w S fun S' v => Typed.Fits S'.host ⟨expected, v⟩) Refusal := by
  have hcheck : Emit.Proceeds (check ⟨.builtins, options⟩ (e.lower ⟨.builtins, options⟩ w.symbols)
      expected span what) S fun S' z => z.ty = expected ∧ z.typed.Fits S'.host :=
    (Expr.lower_proceeds options w.symbols e S hknows).bind fun _ _ _ hy => coerce_proceeds hy
  refine (emit_proceeds hw hS hcheck).bind fun z w₁ hw₁ => ?_
  obtain ⟨S₁, rfl, h₁, hready₁, hz⟩ := hw₁
  refine (emit_proceeds rfl hready₁ (Lifetime.materialize_proceeds hz.2)).mono
    (fun v w₂ hw₂ => ?_) fun _ _ he => he
  obtain ⟨S₂, rfl, h₂, hready₂, hv⟩ := hw₂
  rw [hz.1] at hv
  exact ⟨S₂, rfl, h₁.trans h₂, hready₂, hv⟩

theorem initialValue_proceeds (hw : w.builder = S.builder) (hS : S.Ready)
    (hknows : S.Knows w.symbols) {b : Builtin} {ty : TypeId} (hty : ty = b.id) {shape : Ty}
    (hshape : b.repr = some shape) (hb : b ≠ .void) {name : String} {init : Option Expr} :
    (initialValue ⟨.builtins, options⟩ ty name init span).Meets w
      (Reaches w S fun S' v => Typed.Fits S'.host ⟨ty, v⟩) Refusal := by
  cases init with
  | some e =>
    refine meets_symbols ?_
    exact owned_proceeds hw hS hknows
  | none =>
    -- Every type of the table has a descriptor, so only the default value can be refused.
    have hread : TypeTable.builtins.resolve ty = .ok b.descriptor :=
      TypeTable.builtins_resolve_eq_ok.2 ⟨b, hty, rfl⟩
    refine Act.meets_bind.2 (Act.meets_ofExcept.2 ⟨fun d hd => ?_, fun e he =>
      absurd (hread.symm.trans he) nofun⟩)
    obtain rfl : b.descriptor = d := Except.ok.inj (hread.symm.trans hd)
    have hdefault := Emit.Proceeds.located (b.defaultValue_proceeds (S := S) hshape hb) span
    refine (emit_proceeds hw hS hdefault).bind fun z w₁ hw₁ => ?_
    obtain ⟨S₁, rfl, h₁, hready₁, hzty, hz⟩ := hw₁
    refine ⟨S₁, rfl, h₁, hready₁, ?_⟩
    rw [hty, ← hzty]
    exact hz

/-- A shape is missing only if the program asks for one of a module. -/
theorem shape_ofProgram {b : Builtin} {ty : TypeId} (hty : ty = b.id) {e : Fault}
    (he : Prototype.shape .builtins ty span = .error e) : e.OfProgram := by
  obtain ⟨e', he', rfl⟩ := Prototype.shape_error he
  rw [hty] at he'
  exact (TypeTable.builtins_representation_error b he').locate span

theorem varDecl_proceeds (ty : TypeName) (name : Ident) (init : Option Expr) (span : Span) :
    StmtProceeds ret (varDecl ⟨.builtins, options⟩ ty name init span) := by
  intro func S w loop t outer top hw hopen hfits
  have hready := hw.ready hopen hfits
  -- An unknown type, `void` and a type without a shape are mistakes of the program.
  refine Act.meets_bind.2 (Act.meets_ofExcept.2 ⟨fun id hid => ?_, fun e he =>
    .at hw.builder hready (Fault.ofProgram_of_kind (by simp [TypeTable.resolveName_error he]))⟩)
  obtain ⟨b, hb⟩ := TypeTable.builtins_resolveName_eq_ok hid
  refine Act.meets_bind.2 (Act.meets_refuseIf.2 ⟨fun _ =>
    .at hw.builder hready (Fault.ofProgram_of_kind nofun), fun hvoid => ?_⟩)
  have hne : b ≠ .void := by
    rintro rfl
    exact hvoid hb
  refine meets_symbols ?_
  refine Act.meets_bind.2 (Act.meets_ofExcept.2 ⟨fun _ _ => ?_, fun e he => ?_⟩)
  · refine Act.meets_bind.2 (Act.meets_ofExcept.2 ⟨fun shape hshape => ?_, fun e he =>
      .at hw.builder hready (shape_ofProgram hb he)⟩)
    have hrepr := Prototype.shape_eq_ok hshape
    rw [hb, TypeTable.builtins_representation] at hrepr
    -- A shape that is not empty has a size, so reserving a slot cannot fail.
    obtain ⟨size, hsize⟩ := Builtin.repr_size hrepr hne
    refine (initialValue_proceeds hw.builder hready hfits.knows hb hrepr hne).bind fun v w₁ hw₁ => ?_
    obtain ⟨S₁, rfl, h₁, hready₁, hv⟩ := hw₁
    refine (build_proceeds rfl hready₁ (Build.alloca_proceeds hsize _)).bind fun p w₂ hw₂ => ?_
    obtain ⟨S₂, rfl, h₂, hready₂, hp⟩ := hw₂
    have hv₂ := (hv.leads h₂).hasType hb hrepr
    refine (build_proceeds rfl hready₂ (Build.store_proceeds hv₂ hp)).bind fun _ w₃ hw₃ => ?_
    obtain ⟨S₃, rfl, h₃, hready₃, -⟩ := hw₃
    refine meets_symbols ?_
    refine Act.meets_bind.2 (Act.meets_ofExcept.2 ⟨fun _ _ => hready₃.runtime, fun e he => ?_⟩)
    -- There is a scope to declare in; all that is left is a name that is taken.
    rcases Scopes.declare_error he with hk | ⟨hnil, -⟩
    · exact .at (S := S₃) rfl hready₃ (Fault.ofProgram_of_kind (by simp [hk]))
    · have hscopes : w.symbols.scopes = (.of (top :: outer)) := hw.scopes
      rw [hscopes] at hnil
      cases hnil
  · rcases Scopes.checkDeclarable_error he with hk | ⟨hnil, -⟩
    · exact .at hw.builder hready (Fault.ofProgram_of_kind (by simp [hk]))
    · rw [hw.scopes] at hnil
      cases hnil

/-- The result of a `return` has the result type of the function. -/
theorem returnValue_proceeds (hw : w.builder = S.builder) (hS : S.Ready)
    (hknows : S.Knows w.symbols) {frame : FunctionFrame} {value : Option Expr} :
    (returnValue ⟨.builtins, options⟩ frame value span).Meets w
      (Reaches w S fun S' v => match v with
        | none => frame.ret = Builtin.void.id
        | some v => Typed.Fits S'.host ⟨frame.ret, v⟩) Refusal := by
  -- A missing value is accepted in a void function alone, and a given one nowhere else.
  cases value with
  | none =>
    refine Act.meets_bind.2 (Act.meets_refuseIf.2 ⟨fun _ => .at hw hS (Fault.ofProgram_of_kind nofun),
      fun hvoid => ?_⟩)
    exact ⟨S, by rw [← hw], .refl S, hS, not_not.1 hvoid⟩
  | some e =>
    refine Act.meets_bind.2 (Act.meets_refuseIf.2 ⟨fun _ => .at hw hS (Fault.ofProgram_of_kind nofun),
      fun _ => ?_⟩)
    refine meets_symbols ?_
    rw [← bind_assoc]
    refine (owned_proceeds hw hS hknows).bind fun v w₁ hw₁ => ?_
    obtain ⟨S₁, rfl, hrest⟩ := hw₁
    exact ⟨S₁, rfl, hrest⟩

theorem ret_at {v : Option Value} (hopen : S.Open)
    (hv : match v with
      | none => S.body.signature.ret = .void
      | some v => S.host.HasType v S.body.signature.ret) :
    (Build.ret v).run S.builder = (.ok (), (S.push ⟨.ret v, .void, none⟩).builder) := by
  have hexpect : (Build.expectResult v S.body.signature.ret).run S.builder =
      (.ok (), S.builder) := by
    cases v with
    | some v => exact Build.expect_at hv _
    | none =>
      unfold Build.expectResult
      rw [Act.run_refuseIf, if_neg (by simp [hv, Ty.isVoid])]
  unfold Build.ret
  simp only [Act.run_bind, Build.current_at, hexpect]
  exact Build.emitVoid_at hopen _

theorem slots_fit (hfits : w.Fits S ret) {depth : Nat} {S' : Site func} (hleads : S.Leads S') :
    ∀ slot ∈ w.symbols.scopes.liveFrom depth, slot.Fits S'.host := by
  intro slot hslot
  rw [← Scopes.of_stack w.symbols.scopes] at hslot
  have hmem := Scopes.mem_flatten_of_mem_liveFrom (List.mem_reverse.2 hslot)
  exact (hfits.knows.slots slot hmem).leads hleads

theorem returnStmt_proceeds (value : Option Expr) (span : Span) :
    StmtProceeds ret (returnStmt ⟨.builtins, options⟩ value span) := by
  intro func S w loop t outer top hw hopen hfits
  have hready := hw.ready hopen hfits
  refine meets_symbols ?_
  obtain ⟨frame, hframe, hret, -⟩ := hw.control.function
  rw [hframe]
  refine (returnValue_proceeds hw.builder hready hfits.knows).bind fun v w₁ hw₁ => ?_
  obtain ⟨S₁, rfl, h₁, hready₁, hv⟩ := hw₁
  refine meets_symbols ?_
  refine (emit_proceeds rfl hready₁ (Lifetime.destroySlots_proceeds (slots_fit hfits h₁))).bind
    fun _ w₂ hw₂ => ?_
  obtain ⟨S₂, rfl, h₂, hready₂, -⟩ := hw₂
  -- The return type of the frame is the one of the signature, so the value has its shape.
  have hresult := (hfits.leads (h₁.trans h₂) hready₂).result
  rw [← hret] at hresult
  refine meets_build.2 (Act.meets_of_answer (ret_at (S := S₂) (v := v) hready₂.isOpen ?_)
    (Site.push_runtime hready₂.runtime _))
  cases v with
  | none =>
    rw [show frame.ret = Builtin.void.id from hv, TypeTable.builtins_representation] at hresult
    exact (Option.some.inj hresult).symm
  | some v =>
    obtain ⟨shape, hshape, htype⟩ := hv
    rw [hresult, Except.ok.injEq] at hshape
    exact hshape ▸ h₂.hasType htype

theorem jump_proceeds (keyword : String) (target : LoopFrame → BlockId) (span : Span) :
    StmtProceeds ret (jump ⟨.builtins, options⟩ keyword target span) := by
  intro func S w loop t outer top hw hopen hfits
  have hready := hw.ready hopen hfits
  refine meets_symbols ?_
  cases w.symbols.control.innermostLoop? with
  | none => exact Refusal.at hw.builder hready (Fault.ofProgram_of_kind nofun)
  | some frame =>
    refine meets_symbols ?_
    refine (emit_proceeds hw.builder hready (Lifetime.destroySlots_proceeds
      (slots_fit hfits (.refl S)))).bind fun _ w₁ hw₁ => ?_
    obtain ⟨S₁, rfl, -, hready₁, -⟩ := hw₁
    exact meets_build.2 (Act.meets_of_answer (Build.emitVoid_at hready₁.isOpen _)
      (Site.push_runtime hready₁.runtime _))

/-! ## Scopes -/

/-- The variables of the innermost scope have slots behind the code. -/
def Lays (Q : Functions → Host → Option Nat → List (List Slot) → Nat → List Slot → Code →
    List Slot → Nat → Prop) : Prop :=
  ∀ functions H loop outer lo top T top' hi, Q functions H loop outer lo top T top' hi →
    Laid H lo (top ++ outer.flatten) → Laid H hi (top' ++ outer.flatten)

/-- The surroundings of what follows a statement. -/
theorem fits_behind (hQ : Lays Q) {outer : List (List Slot)} {top top' : List Slot} {w' : Work}
    {S' : Site func} {T : Code} (hfits : w.Fits S ret)
    (hscopes : w.symbols.scopes = (.of (top :: outer)))
    (hsym : w'.symbols = { w.symbols with scopes := (.of (top' :: outer)) }) (he : Emitted t T S S')
    (hcode : ∀ H : Host, H.Completes func S'.builder.module →
      Q w.symbols.functions H loop outer S.body.insts.length top T top' S'.body.insts.length)
    (hrun : S'.builder.module.Runtime) : w'.Fits S' ret := by
  have hbefore : Work.Fits { w with builder := S'.builder } S' ret :=
    hfits.grow he.grows he.within.1 hrun rfl rfl
  have hlaid := hfits.laid.grow he.grows
  rw [hscopes, Scopes.stack_of] at hlaid
  -- Only the variables of the innermost scope have changed.
  refine ⟨hrun, ?_, ?_, hbefore.result⟩
  · rw [hsym, Scopes.stack_of]
    exact hQ _ _ _ _ _ _ _ _ _ (hcode _ (.self S')) hlaid
  · rw [hsym]
    exact hbefore.functions

theorem inScope_proceeds (hx : StmtProceeds ret x) (hemits : EmitsStmt ret 1 x Q) (hQ : Lays Q) :
    StmtProceeds ret (inScope ⟨.builtins, options⟩ x) := by
  intro func S w loop t outer top hw hopen hfits
  refine meets_symbols (Act.meets_bind.2 (Act.meets_modify.2 ?_))
  rw [hw.scopes]
  have hpushed : Work.Stands
      { w with symbols := { w.symbols with scopes := Scopes.push (.of (top :: outer)) } } S ret 1 loop t
      (.of ([] :: top :: outer)) := ⟨hw.builder, hw.sound, hw.control, rfl⟩
  -- An empty scope on top holds nothing that would have to fit.
  have hfits₀ : Work.Fits
      { w with symbols := { w.symbols with scopes := Scopes.push (.of (top :: outer)) } } S ret := by
    refine ⟨hfits.runtime, ?_, hfits.functions, hfits.result⟩
    have hlaid := hfits.laid
    rw [hw.scopes] at hlaid
    exact hlaid
  have hmeets := hx func S _ loop t (top :: outer) [] hpushed hopen hfits₀
  refine Act.meets_bind.2 (Act.meets_andAlways.2 (Act.meets_bind.2
    (Act.meets_of_run (fun _ w₁ hrun => ?_) fun e w₁ hrun =>
      show Refusal e w₁ from hmeets.of_error hrun)))
  -- What runs in front of the destruction of the slots is known from what it has emitted.
  obtain ⟨S₁, T, top', hb₁, hsym₁, he₁, hcode⟩ :=
    hemits func S _ loop t (top :: outer) [] hpushed hopen w₁ hrun
  have hruntime : S₁.builder.module.Runtime := hb₁ ▸ hmeets.of_ok hrun
  have hfits₁ := fits_behind hQ hfits₀ rfl hsym₁ he₁ hcode hruntime
  refine meets_symbols (Act.meets_pure _ |>.2 ?_)
  refine Act.meets_bind.2 (Act.meets_of_answer (isTerminated_at (S := S₁) hb₁) ?_)
  refine Act.meets_onlyIf.2 ⟨fun hends => ?_, fun _ => by rw [← hb₁] at hruntime; exact hruntime⟩
  have hends : S₁.body.isTerminated S₁.block = false := by simpa using hends
  refine emit_runtime (S := S₁) hb₁ ⟨hends, (he₁.sound hw.sound).bounded, hruntime⟩
    (Lifetime.destroySlots_proceeds fun slot hslot => hfits₁.knows.slots slot ?_)
  rw [hsym₁] at hslot ⊢
  have hmem : slot ∈ top' := by simpa [Scopes.innermost_of] using hslot
  rw [Scopes.stack_of]
  exact List.mem_append_left _ hmem

theorem unlessEnded_proceeds (hx : StmtProceeds ret x) :
    StmtProceeds ret (unlessEnded ⟨.builtins, options⟩ span x) := by
  intro func S w loop t outer top hw hopen hfits
  refine Act.meets_bind.2 (Act.meets_of_answer (isTerminated_at hw.builder) ?_)
  rw [show S.body.isTerminated S.block = false from hopen]
  exact hx func S w loop t outer top hw hopen hfits

theorem nested_proceeds (hx : StmtProceeds ret x) (hemits : EmitsStmt ret 1 x Q) (hQ : Lays Q) :
    StmtProceeds ret (nested ⟨.builtins, options⟩ span x) :=
  inScope_proceeds (unlessEnded_proceeds hx) (unlessEnded_emits hemits) hQ

/-- Code behind the end of a block is dropped or refused. -/
theorem dropUnreachable_proceeds {env : Env} (hrun : w.builder.module.Runtime) :
    (dropUnreachable env span).Meets w (fun _ w' => w'.builder.module.Runtime)
      Refusal := by
  unfold dropUnreachable
  cases env.options.unreachable with
  | error => exact ⟨Fault.ofProgram_of_kind nofun, hrun⟩
  | warn => exact hrun

/-! ## Conditionals and loops -/

theorem branchCondition_proceeds (options : Options) (c : Expr) (hw : w.builder = S.builder)
    (hS : S.Ready) (hknows : S.Knows w.symbols) :
    (branchCondition ⟨.builtins, options⟩ c).Meets w
      (Reaches w S fun S' v => S'.host.HasType v .bool) Refusal := by
  refine meets_symbols (emit_proceeds hw hS ?_)
  refine (Expr.lower_proceeds options w.symbols c S hknows).bind fun S₁ x _ hx => ?_
  refine .refuseIf (fun _ => Fault.ofProgram_of_kind nofun) fun hty => ?_
  exact .pure (hx.hasType (not_not.1 hty) rfl)

theorem withFrame_proceeds {frame : Frame} {x : Lower α} {Q : α → Work → Prop}
    (hx : x.Meets { w with symbols := { w.symbols with control := frame :: w.symbols.control } }
      (fun a w' => Q a { w' with symbols := { w'.symbols with control := w'.symbols.control.tail } })
      Refusal) : (withFrame frame x).Meets w Q Refusal :=
  Act.meets_bind.2 (Act.meets_modify.2 (Act.meets_andAlways.2 (hx.mono (fun _ _ h => h)
    fun _ _ h => h)))

theorem fallInto_proceeds {target : BlockId} (hw : w.builder = S.builder)
    (hrun : S.builder.module.Runtime) :
    (fallInto target).Meets w (fun _ w' => w'.builder.module.Runtime) Refusal := by
  refine Act.meets_bind.2 (Act.meets_of_answer (isTerminated_at hw) ?_)
  refine Act.meets_onlyIf.2 ⟨fun hends => ?_, fun _ => by rw [hw]; exact hrun⟩
  have hends : S.body.isTerminated S.block = false := by simpa using hends
  refine meets_build.2 ?_
  rw [hw]
  exact Act.meets_of_answer (Build.emitVoid_at hends _) (Site.push_runtime hrun _)

theorem ifThen_proceeds (c : Expr) (hx : StmtProceeds ret x)
    (hemits : EmitsStmt ret 1 x (Scoped Q)) :
    StmtProceeds ret (ifThen ⟨.builtins, options⟩ c x) := by
  intro func S w loop t outer top hw hopen hfits
  refine (branchCondition_proceeds options c hw.builder (hw.ready hopen hfits) hfits.knows).bind
    fun v w₁ hw₁ => ?_
  obtain ⟨S₁, rfl, h₁, hready₁, hv⟩ := hw₁
  refine meets_step (Build.currentFunction_at S₁) ?_
  obtain ⟨S₂, hrun₂, happ₂, hrt₂⟩ :=
    (Appended.refl S₁).append_at hready₁.runtime "then" (by decide)
  refine meets_step hrun₂ ?_
  obtain ⟨S₃, hrun₃, happ₃, hrt₃⟩ := happ₂.append_at hrt₂ "if.end" (by decide)
  refine meets_step hrun₃ ?_
  obtain ⟨S₄, hrun₄, hfork, hrt₄⟩ := happ₃.condBr_at hready₁ hrt₃ hv (.inl rfl) (.inr rfl)
  refine meets_step hrun₄ ?_
  -- The branch starts in the first of the two new blocks.
  have hin : S₁.body.blocks.length < S₄.body.blocks.length := by
    rw [hfork.length]
    omega
  obtain ⟨h₅, hready₅⟩ := hfork.enter hready₁ hrt₄ (Nat.le_refl _) hin
  refine Act.meets_bind.2 (withFrame_proceeds ?_)
  refine meets_step (b := (S₄.moveTo _ hin).builder) rfl ?_
  have hstart : Work.Stands
      { builder := (S₄.moveTo _ hin).builder,
        symbols := { w.symbols with control := .conditional :: w.symbols.control },
        diagnostics := w.diagnostics } (S₄.moveTo _ hin) ret 1 loop t (.of (top :: outer)) :=
    ⟨rfl, h₅.sound (h₁.sound hw.sound), hw.control.conditional, hw.scopes⟩
  have hfits₅ := hfits.leads (h₁.trans h₅) hready₅
  have hmeets := hx func _ _ loop t outer top hstart hready₅.isOpen
    ⟨hfits₅.runtime, hfits₅.laid, hfits₅.functions, hfits₅.result⟩
  -- A refusal inside is passed on; otherwise the branch stands at some site again.
  refine Act.meets_bind.2 (Act.meets_of_run (fun _ w₆ hrun => ?_) fun e w₆ hrun =>
    hmeets.of_error hrun)
  obtain ⟨S₆, T, top', hb₆, -, -, -⟩ :=
    hemits func _ _ loop t outer top hstart hready₅.isOpen w₆ hrun
  have hrt₆ : S₆.builder.module.Runtime := hb₆ ▸ hmeets.of_ok hrun
  exact fallInto_proceeds hb₆ hrt₆

/-- A branch of a conditional, which starts in an empty block. -/
theorem branch_proceeds {outer : List (List Slot)} {top : List Slot} {start : BlockId}
    (hx : StmtProceeds ret x) (hw : w.Stands S ret 1 loop t (.of (top :: outer)))
    (hfits : w.Fits S ret) (hin : start < S.body.blocks.length)
    (hempty : S.body.blockIds start = []) (hemits : EmitsStmt ret 1 x (Scoped Q)) :
    (branch func start x).Meets w (fun _ w' => w'.builder.module.Runtime)
      Refusal := by
  refine meets_step (b := (S.moveTo start hin).builder) (by rw [hw.builder]; rfl) ?_
  have hstart := hw.at (hw.sound.moveTo hin)
  have hopen : (S.moveTo start hin).Open := Site.open_of_empty rfl hempty
  have hmeets := hx func _ _ loop t outer top hstart hopen
    (hfits.grow (.refl func _) (Nat.le_refl _) hfits.runtime rfl rfl)
  refine Act.meets_bind.2 (Act.meets_of_run (fun _ w₁ hrun => ?_) fun e w₁ hrun =>
    hmeets.of_error hrun)
  -- Where the branch ends is known from its code.
  obtain ⟨S₁, T, top', hb₁, -, -, -⟩ := hemits func _ _ loop t outer top hstart hopen w₁ hrun
  have hrt₁ : w₁.builder.module.Runtime := hmeets.of_ok hrun
  refine Act.meets_bind.2 (Act.meets_of_answer (isTerminated_at hb₁) ?_)
  split
  · exact hrt₁
  · refine meets_step (b := S₁.builder) (by rw [hb₁]; exact Build.currentBlock_at S₁) ?_
    rw [← hb₁]
    exact hrt₁

/-- Blocks that are open branch to a join. -/
theorem joins_proceed {join : BlockId} {blocks : List BlockId} (hnodup : blocks.Nodup)
    (hopen : ∀ b ∈ blocks, b < S.body.blocks.length ∧ S.body.isTerminated b = false)
    (hw : w.builder = S.builder) (hrun : S.builder.module.Runtime) :
    (blocks.forM fun block => do
      (liftM (Build.moveTo func block) : Lower Unit)
      liftM (Build.br join)).Meets w (fun _ w' => w'.builder.module.Runtime)
      Refusal := by
  -- By induction on the blocks: closing one of them leaves the others open.
  induction blocks generalizing S w with
  | nil =>
    rw [← hw] at hrun
    exact hrun
  | cons block rest ih =>
    obtain ⟨hlt, hended⟩ := hopen block List.mem_cons_self
    have hne := (List.nodup_cons.1 hnodup).1
    refine Act.meets_bind.2 (meets_step (b := (S.moveTo block hlt).builder) (by rw [hw]; rfl) ?_)
    refine meets_build.2 (Act.meets_of_answer
      (Build.emitVoid_at (S := S.moveTo block hlt) hended _) ?_)
    refine ih (S := (S.moveTo block hlt).push _) (List.nodup_cons.1 hnodup).2 (fun b hb => ?_) rfl
      (Site.push_runtime (S := S.moveTo block hlt) hrun _)
    obtain ⟨hlt', hended'⟩ := hopen b (List.mem_cons_of_mem _ hb)
    refine ⟨by rw [Site.push_blocks_length]; exact hlt', ?_⟩
    have hbne : b ≠ block := by
      rintro rfl
      exact hne hb
    show (S.body.pushInst block _).isTerminated b = false
    rw [Function.pushInst_isTerminated_ne S.valid hbne]
    exact hended'

theorem ifThenElse_proceeds (c : Expr) (hx : StmtProceeds ret x)
    (hemitsx : EmitsStmt ret 1 x (Scoped Q)) (hy : StmtProceeds ret y)
    (hemitsy : EmitsStmt ret 1 y (Scoped R)) :
    StmtProceeds ret (ifThenElse ⟨.builtins, options⟩ c x y) := by
  intro func S w loop t outer top hw hopen hfits
  refine (branchCondition_proceeds options c hw.builder (hw.ready hopen hfits) hfits.knows).bind
    fun v w₁ hw₁ => ?_
  obtain ⟨S₁, rfl, h₁, hready₁, hv⟩ := hw₁
  refine meets_step (Build.currentFunction_at S₁) ?_
  obtain ⟨S₂, hrun₂, happ₂, hrt₂⟩ :=
    (Appended.refl S₁).append_at hready₁.runtime "then" (by decide)
  refine meets_step hrun₂ ?_
  obtain ⟨S₃, hrun₃, happ₃, hrt₃⟩ := happ₂.append_at hrt₂ "else" (by decide)
  refine meets_step hrun₃ ?_
  obtain ⟨S₄, hrun₄, hfork, hrt₄⟩ := happ₃.condBr_at hready₁ hrt₃ hv (.inl rfl) (.inr rfl)
  refine meets_step hrun₄ ?_
  have hgrown : Grown S₁.body.blocks.length S₁.block none S₁ S₄ :=
    hfork.grown (Nat.le_refl _) (.inl rfl)
  have hstart : Work.Stands
      { builder := S₄.builder,
        symbols := { w.symbols with control := .conditional :: w.symbols.control },
        diagnostics := w.diagnostics } S₄ ret 1 loop t (.of (top :: outer)) :=
    ⟨rfl, hfork.sound (h₁.sound hw.sound), hw.control.conditional, hw.scopes⟩
  have hfits₄ : Work.Fits
      { builder := S₄.builder,
        symbols := { w.symbols with control := .conditional :: w.symbols.control },
        diagnostics := w.diagnostics } S₄ ret :=
    hfits.grow (h₁.grown.grows.trans hgrown.grows) (h₁.grown.insts.trans hgrown.insts) hrt₄ rfl rfl
  have hin : S₁.body.blocks.length < S₄.body.blocks.length := by
    rw [hfork.length]
    omega
  have hempty := hfork.empty S₁.body.blocks.length (Nat.le_refl _)
  have hfirst := branch_proceeds hx hstart hfits₄ hin hempty hemitsx
  refine Act.meets_bind.2 (withFrame_proceeds (Act.meets_bind.2
    (Act.meets_of_run (fun o w₅ hrun => ?_) fun e w₅ hrun => hfirst.of_error hrun)))
  obtain ⟨S₅, T₁, hst₅, hsym₅, he₅, rfl, -⟩ := branch_run hemitsx hstart hin hempty hrun
  have hrt₅ : S₅.builder.module.Runtime := hst₅.builder ▸ hfirst.of_ok hrun
  -- The second branch is still empty behind the first one.
  have helse₅ : S₅.Awaits (S₁.body.blocks.length + 1) := he₅.awaits
    ((hfork.waits (Nat.le_succ _) (Nat.lt_succ_self _)).moveTo hin (Nat.succ_ne_self _))
  have hfits₅ : w₅.Fits S₅ ret := by
    refine hfits₄.grow he₅.grows he₅.within.1 hrt₅ ?_ ?_
    · rw [hsym₅]
    · rw [hsym₅]
  have hsecond := branch_proceeds hy hst₅ hfits₅ helse₅.inside helse₅.empty hemitsy
  refine Act.meets_bind.2 (Act.meets_of_run (fun o w₆ hrun' => ?_) fun e w₆ hrun' =>
    hsecond.of_error hrun')
  obtain ⟨S₆, T₂, hst₆, hsym₆, he₆, rfl, -⟩ :=
    branch_run hemitsy hst₅ helse₅.inside helse₅.empty hrun'
  have hrt₆ : S₆.builder.module.Runtime := hst₆.builder ▸ hsecond.of_ok hrun'
  -- The second branch leaves the end of the first one as it is.
  have hbranched := Emitted.branched (c := v) rfl rfl hfork hin he₅ helse₅.inside he₆
  refine Act.meets_pure _ |>.2 (Act.meets_onlyIf.2 ⟨fun _ => ?_, fun _ => ?_⟩)
  · obtain ⟨S₇, hrun₇, happ₇, hrt₇⟩ :=
      (Appended.refl S₆).append_at hrt₆ "if.end" (by decide)
    refine meets_step (by rw [← hst₆.builder] at hrun₇; exact hrun₇) ?_
    refine Act.meets_bind.2 ((joins_proceed (S := S₇) ?_ (fun b hb => ?_) rfl hrt₇).mono
      (fun _ _ h => h) fun _ _ h => h)
    · cases T₁.ends <;> cases T₂.ends <;> simp [hbranched.apart.symm]
    · have hlen₇ : S₇.body.blocks.length = S₆.body.blocks.length + 1 := happ₇.length
      rw [happ₇.ended, hlen₇]
      rcases List.mem_append.1 hb with hb | hb
      · cases hT : T₁.ends with
        | true => simp [hT] at hb
        | false =>
          obtain rfl : b = S₅.block := by simpa [hT] using hb
          exact ⟨Nat.lt_succ_of_lt hbranched.first.2, hbranched.firstEnds.trans hT⟩
      · cases hT : T₂.ends with
        | true => simp [hT] at hb
        | false =>
          obtain rfl : b = S₆.block := by simpa [hT] using hb
          exact ⟨Nat.lt_succ_of_lt S₆.inside, hbranched.secondEnds.trans hT⟩
  · rw [← hst₆.builder] at hrt₆
    exact hrt₆

theorem enterBody_at {v : Value} (hopen : S.Open) (hv : S.host.HasType v .bool)
    (bodyBlock endBlock : BlockId) :
    (enterBody v bodyBlock endBlock).run S.builder =
      (.ok (), (S.push ⟨loopBranch v bodyBlock endBlock, .void, none⟩).builder) := by
  unfold enterBody loopBranch
  by_cases hc : v = .const (.bool true)
  · rw [if_pos hc, if_pos hc]
    exact Build.emitVoid_at hopen _
  · rw [if_neg hc, if_neg hc]
    exact Build.condBr_at hopen hv _ _

theorem loop_proceeds (c : Expr) (hx : StmtProceeds ret x) (hemits : EmitsStmt ret 1 x (Scoped Q)) :
    StmtProceeds ret (Lower.loop ⟨.builtins, options⟩ c x) := by
  intro func S w loop t outer top hw hopen hfits
  have hready := hw.ready hopen hfits
  refine meets_step (by rw [hw.builder]; exact Build.currentFunction_at S) ?_
  obtain ⟨S₁, hrun₁, happ₁, hrt₁⟩ :=
    (Appended.refl S).append_at hready.runtime "while.cond" (by decide)
  refine meets_step hrun₁ ?_
  obtain ⟨S₂, hrun₂, happ₂, hrt₂⟩ := happ₁.append_at hrt₁ "while.body" (by decide)
  refine meets_step hrun₂ ?_
  obtain ⟨S₃, hrun₃, happ₃, hrt₃⟩ := happ₂.append_at hrt₂ "while.end" (by decide)
  refine meets_step hrun₃ ?_
  refine meets_step (Build.emitVoid_at (happ₃.isOpen hready.isOpen) _) ?_
  -- The block in front ends in a jump to the condition, which is the first of the three.
  have hfork : Forked 3 S (S₃.push ⟨.br S.body.blocks.length, .void, none⟩)
      (.br S.body.blocks.length) := by
    refine happ₃.fork hopen hw.sound.bounded rfl fun s hs => ?_
    obtain rfl : s = S.body.blocks.length := by simpa [Op.successors] using hs
    exact ⟨Nat.le_refl _, Nat.lt_add_of_pos_right (by decide)⟩
  have hrt₄ := Site.push_runtime hrt₃ ⟨.br S.body.blocks.length, .void, none⟩
  simp only [Nat.add_zero]
  generalize S₃.push ⟨.br S.body.blocks.length, .void, none⟩ = S₄ at hfork hrt₄ ⊢
  have hlen₄ : S₄.body.blocks.length = S.body.blocks.length + 3 := hfork.length
  have hin : S.body.blocks.length < S₄.body.blocks.length := by omega
  obtain ⟨h₄, hready₄⟩ := hfork.enter hready hrt₄ (Nat.le_refl _) hin
  refine meets_step (b := (S₄.moveTo _ hin).builder) rfl ?_
  have hw₄ := hw.leads h₄
  have hfits₄ := hfits.leads h₄ hready₄
  have hcond := branchCondition_proceeds options c hw₄.builder hready₄ hfits₄.knows
  refine Act.meets_bind.2 (Act.meets_of_run (fun v w₅ hrun => ?_) fun e w₅ hrun =>
    hcond.of_error hrun)
  -- The condition has two accounts, one of its code and one of its value, about one site.
  obtain ⟨S₅, Tc, rfl, hw₅, hec, hopen₅, hTc, -⟩ := hw₄.condition hready₄.isOpen hrun
  obtain ⟨S₅', hS₅', h₅, hready₅, hv⟩ := hcond.of_ok hrun
  obtain rfl : S₅ = S₅' := Site.eq_of_builder (congrArg Work.builder hS₅')
  refine meets_step (enterBody_at hready₅.isOpen hv _ _) ?_
  obtain ⟨hsound₆, hempty₆⟩ := Emitted.loopBody (c := v) hw.sound rfl rfl rfl hfork hin hec hTc
  -- The body is the second block, wherever the condition has ended.
  have hin' : S.body.blocks.length + 1 < (S₅.push ⟨loopBranch v (S.body.blocks.length + 1)
      (S.body.blocks.length + 2), .void, none⟩).body.blocks.length := by
    rw [S₅.push_blocks_length]
    have hlt : S.body.blocks.length + 1 < S₄.body.blocks.length := by omega
    exact Nat.lt_of_lt_of_le hlt hec.edits.blocks_le
  refine meets_symbols (Act.meets_bind.2 (withFrame_proceeds ?_))
  refine meets_step (b := (Site.moveTo _ _ hin').builder) rfl ?_
  rw [hw₅.scopes, Scopes.depth_of, List.length_cons]
  have hw₆ : Work.Stands
      { builder := (Site.moveTo _ _ hin').builder,
        symbols := { w.symbols with
          control := .loop ⟨S.body.blocks.length, S.body.blocks.length + 2, outer.length + 2⟩ ::
            w.symbols.control },
        diagnostics := w.diagnostics }
      (Site.moveTo _ _ hin') ret 1 (some (outer.length + 2))
      (some ⟨S.body.blocks.length, S.body.blocks.length + 2⟩) (.of (top :: outer)) :=
    ⟨rfl, hsound₆.moveTo hin', hw.control.loop _, hw.scopes⟩
  have hbranch := S₅.push_grows (i := ⟨loopBranch v (S.body.blocks.length + 1)
    (S.body.blocks.length + 2), .void, none⟩)
    (Op.not_isAlloca_of_terminator (loopBranch_isTerminator ..))
  have hfits₆ : Work.Fits
      { builder := (Site.moveTo _ _ hin').builder,
        symbols := { w.symbols with
          control := .loop ⟨S.body.blocks.length, S.body.blocks.length + 2, outer.length + 2⟩ ::
            w.symbols.control },
        diagnostics := w.diagnostics } (Site.moveTo _ _ hin') ret := by
    -- Two stretches of code and one branch lie between the start and the body.
    refine hfits.grow ((h₄.trans h₅).grown.grows.trans hbranch) ?_
      (Site.push_runtime hready₅.runtime _) rfl rfl
    refine (h₄.trans h₅).grown.insts.trans (Nat.le_of_lt ?_)
    exact S₅.push_insts_length _ ▸ Nat.lt_succ_self _
  have hopen₆ : (Site.moveTo _ _ hin').Open := Site.open_of_empty rfl hempty₆
  have hmeets := hx func _ _ _ _ outer top hw₆ hopen₆ hfits₆
  refine Act.meets_bind.2 (Act.meets_of_run (fun _ w₇ hrun => ?_) fun e w₇ hrun =>
    hmeets.of_error hrun)
  obtain ⟨S₇, T, top', hb₇, -, -, -⟩ := hemits func _ _ _ _ outer top hw₆ hopen₆ w₇ hrun
  have hrt₇ : S₇.builder.module.Runtime := hb₇ ▸ hmeets.of_ok hrun
  exact fallInto_proceeds hb₇ hrt₇

end Lower

/-! ## The tree -/

/-- What follows the end of a block is dropped or refused. -/
theorem Stmt.lowerAll_ended_proceeds {env : Env} (hw : w.builder = S.builder)
    (hended : S.body.isTerminated S.block = true) (hrun : w.builder.module.Runtime)
    (stmts : List Stmt) :
    (Stmt.lowerAll env stmts).Meets w (fun _ w' => w'.builder.module.Runtime) Lower.Refusal := by
  cases stmts with
  | nil => exact hrun
  | cons s rest =>
    refine Act.meets_bind.2 (Act.meets_of_answer (Lower.isTerminated_at hw) ?_)
    rw [hended]
    exact Lower.dropUnreachable_proceeds hrun

theorem Stmt.compiles_lays (s : Stmt) :
    Lower.Lays fun functions H loop outer lo top T top' hi =>
      Stmt.Compiles ⟨.builtins, options⟩ functions H ret 1 loop outer lo top s T top' hi :=
  fun _ _ _ _ _ _ _ _ _ h => h.laid

theorem Stmt.compilesAll_lays (stmts : List Stmt) :
    Lower.Lays fun functions H loop outer lo top T top' hi =>
      Stmt.CompilesAll ⟨.builtins, options⟩ functions H ret 1 loop outer lo top stmts T top' hi :=
  fun _ _ _ _ _ _ _ _ _ h => h.laid

/-- A statement in a scope of its own. -/
theorem Stmt.nested_proceeds {s : Stmt} (hs : StmtProceeds ret (s.lower ⟨.builtins, options⟩)) :
    StmtProceeds ret (Lower.nested ⟨.builtins, options⟩ s.span (s.lower ⟨.builtins, options⟩)) :=
  Lower.nested_proceeds hs (Stmt.lower_compiles options ret 1 s) (Stmt.compiles_lays s)

variable (options ret)

mutual

/-- A statement is lowered, or it is refused for what it says. -/
theorem Stmt.lower_proceeds : (s : Stmt) → StmtProceeds ret (s.lower ⟨.builtins, options⟩)
  | .expr e _ => Lower.exprStmt_proceeds e
  | .decl ty name init span => Lower.varDecl_proceeds ty name init span
  | .ret value span => Lower.returnStmt_proceeds value span
  | .breakLoop span => Lower.jump_proceeds _ _ span
  | .continueLoop span => Lower.jump_proceeds _ _ span
  | .block stmts _ =>
    Lower.inScope_proceeds (Stmt.lowerAll_proceeds stmts)
      (Stmt.lowerAll_compiles options ret 1 stmts) (Stmt.compilesAll_lays stmts)
  | .ifThen c t _ =>
    Lower.ifThen_proceeds c (Stmt.nested_proceeds (Stmt.lower_proceeds t))
      (Lower.nested_emits (Stmt.lower_compiles options ret 1 t))
  | .ifThenElse c t e _ =>
    Lower.ifThenElse_proceeds c (Stmt.nested_proceeds (Stmt.lower_proceeds t))
      (Lower.nested_emits (Stmt.lower_compiles options ret 1 t))
      (Stmt.nested_proceeds (Stmt.lower_proceeds e))
      (Lower.nested_emits (Stmt.lower_compiles options ret 1 e))
  | .loop c b _ =>
    Lower.loop_proceeds c (Stmt.nested_proceeds (Stmt.lower_proceeds b))
      (Lower.nested_emits (Stmt.lower_compiles options ret 1 b))

theorem Stmt.lowerAll_proceeds : (stmts : List Stmt) →
    StmtProceeds ret (Stmt.lowerAll ⟨.builtins, options⟩ stmts)
  | [] => by
    intro func S w loop t outer top hw hopen hfits
    show w.builder.module.Runtime
    rw [hw.builder]
    exact hfits.runtime
  | s :: rest => Lower.unlessEnded_proceeds <| by
    intro func S w loop t outer top hw hopen hfits
    have hmeets := Stmt.lower_proceeds s func S w loop t outer top hw hopen hfits
    refine Act.meets_bind.2 (Act.meets_of_run (fun _ w₁ hrun => ?_) fun e w₁ hrun =>
      hmeets.of_error hrun)
    obtain ⟨S₁, T, top₁, hb₁, hsym₁, he₁, hc⟩ :=
      Stmt.lower_compiles options ret 1 s func S w loop t outer top hw hopen w₁ hrun
    have hrt₁ : w₁.builder.module.Runtime := hmeets.of_ok hrun
    cases hT : T.ends with
    | true => exact Stmt.lowerAll_ended_proceeds hb₁ (he₁.ends.trans hT) hrt₁ rest
    | false =>
      -- The rest starts from the slots that the statement has laid.
      have hw₁ : w₁.Stands S₁ ret 1 loop t (.of (top₁ :: outer)) :=
        ⟨hb₁, he₁.sound hw.sound, by rw [hsym₁]; exact hw.control, by rw [hsym₁]⟩
      exact Stmt.lowerAll_proceeds rest func S₁ w₁ loop t outer top₁ hw₁ (he₁.ends.trans hT)
        (Lower.fits_behind (Stmt.compiles_lays s) hfits hw.scopes hsym₁ he₁ hc (hb₁ ▸ hrt₁))

end

end

end Shading
