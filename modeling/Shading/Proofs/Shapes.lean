import Shading.Proofs.Operands

/-! # Values with the shapes of their types

    A value of a built-in type has the shape of that type.  Every hook of a
    type keeps to this.  An operator that does not apply to its operands is
    refused before it has emitted anything (`Emit.Decides`), and the program is
    at fault. -/

namespace Shading

open IR

variable {b c : Builtin} {l r x : Typed} {H H' : Host} {shape : Ty} {args : List Typed}
    {slot : Slot} {width : UInt8} {α β : Type}

/-! ## Built-in types -/

/-- A type with a shape is one of the built-in types. -/
theorem TypeTable.builtins_representation_eq_ok {id : TypeId} :
    builtins.representation id = .ok shape ↔ ∃ b : Builtin, id = b.id ∧ b.repr = some shape := by
  constructor
  · intro h
    have hid : ∃ b : Builtin, id = b.id := by
      cases hr : builtins.resolve id with
      | ok d =>
        obtain ⟨b, hb, -⟩ := builtins_resolve_eq_ok.1 hr
        exact ⟨b, hb⟩
      | error e =>
        unfold representation at h
        rw [hr] at h
        cases h
    obtain ⟨b, rfl⟩ := hid
    exact ⟨b, rfl, (builtins_representation b).1 h⟩
  · rintro ⟨b, rfl, hb⟩
    exact (builtins_representation b).2 hb

/-- What a name in the source means is a built-in type. -/
theorem TypeTable.builtins_resolveName_eq_ok {name : String} {span : Span} {id : TypeId}
    (h : builtins.resolveName name span = .ok id) : ∃ b : Builtin, id = b.id := by
  unfold resolveName at h
  cases hid : builtins.lookup? name with
  | none =>
    rw [hid] at h
    cases h
  | some id' =>
    rw [hid] at h
    cases h
    obtain ⟨d, hd, -⟩ := Holds.builtins.lookup?_eq_some_iff.1 hid
    obtain ⟨b, rfl, -⟩ := builtins_get?_eq_some.1 hd
    exact ⟨b, rfl⟩

/-- Only the type of modules has no shape. -/
theorem TypeTable.builtins_representation_error (b : Builtin) {e : Fault}
    (h : builtins.representation b.id = .error e) : e.OfProgram := by
  cases hb : b.repr with
  | some shape =>
    rw [(builtins_representation b).2 hb] at h
    cases h
  | none =>
    obtain rfl : b = .module := by
      cases b with
      | module => rfl
      | _ => cases hb
    intro _
    refine ⟨.unknown, ?_⟩
    unfold representation at h
    rw [builtins_resolve_eq_ok.2 ⟨.module, rfl, rfl⟩] at h
    cases h
    rfl

theorem Builtin.repr_of_vector (h : b.behaviour = .vector width) :
    b.repr = some (.vector width) := by
  cases b <;> cases h <;> rfl

/-- A type that is not a plain one is known by its behaviour. -/
theorem Builtin.eq_of_behaviour (h : b.behaviour = c.behaviour)
    (hc : c.behaviour ≠ .plain none none) : b = c := by
  cases b <;> cases c <;> simp_all [behaviour, Behaviour.plain]

/-- Every shape but that of nothing has a size. -/
theorem Builtin.repr_size (h : b.repr = some shape) (hb : b ≠ .void) :
    ∃ size, shape.size? = some size := by
  cases b with
  | void => exact absurd rfl hb
  | module => cases h
  | _ => cases h; exact ⟨_, rfl⟩

/-! ## Values and variables -/

/-- The value has the shape of its type. -/
def Typed.Fits (H : Host) (x : Typed) : Prop :=
  ∃ shape, TypeTable.builtins.representation x.ty = .ok shape ∧ H.HasType x.value shape

theorem Typed.Fits.of_builtin (hb : b.repr = some shape) {v : Value} (hv : H.HasType v shape) :
    Typed.Fits H ⟨b.id, v⟩ :=
  ⟨shape, (TypeTable.builtins_representation b).2 hb, hv⟩

theorem Typed.Fits.builtin (h : x.Fits H) :
    ∃ (b : Builtin) (shape : Ty), x.ty = b.id ∧ b.repr = some shape ∧ H.HasType x.value shape := by
  obtain ⟨shape, hshape, hv⟩ := h
  obtain ⟨b, hb, hrepr⟩ := TypeTable.builtins_representation_eq_ok.1 hshape
  exact ⟨b, shape, hb, hrepr, hv⟩

theorem Typed.Fits.hasType (h : x.Fits H) (hb : x.ty = b.id) (hshape : b.repr = some shape) :
    H.HasType x.value shape := by
  obtain ⟨s, hs, hv⟩ := h
  rw [hb, TypeTable.builtins_representation, hshape, Option.some.injEq] at hs
  exact hs ▸ hv

/-- The variable has a slot for values of its type. -/
def Slot.Fits (H : Host) (slot : Slot) : Prop :=
  ∃ shape, TypeTable.builtins.representation slot.ty = .ok shape ∧
    H.HasType slot.ptr (.ptr shape)

/-- A value still fits where operands keep their types. -/
theorem Typed.Fits.mono (h : x.Fits H) (hH : ∀ {v ty}, H.HasType v ty → H'.HasType v ty) :
    x.Fits H' := by
  obtain ⟨shape, hshape, hv⟩ := h
  exact ⟨shape, hshape, hH hv⟩

theorem Slot.Fits.mono (h : slot.Fits H) (hH : ∀ {v ty}, H.HasType v ty → H'.HasType v ty) :
    slot.Fits H' := by
  obtain ⟨shape, hshape, hv⟩ := h
  exact ⟨shape, hshape, hH hv⟩

/-- The signature has the shapes of the types of a prototype. -/
structure Prototype.Shaped (p : Prototype) (sig : Signature) : Prop where
  params : List.Forall₂ (fun ty shape => TypeTable.builtins.representation ty = .ok shape)
    p.paramTypes sig.params
  ret : TypeTable.builtins.representation p.ret = .ok sig.ret

/-- The function of an entry takes values of the parameter types. -/
def Entry.Callable (e : Entry) (m : Module) : Prop :=
  ∃ name sig, m.Declares e.func name sig ∧ e.prototype.Shaped sig

/-- Variables have slots and functions can be called. -/
structure IR.Site.Knows {func : FuncId} (S : Site func) (symbols : Symbols) : Prop where
  slots : ∀ slot ∈ symbols.scopes.stack.flatten, slot.Fits S.host
  functions : ∀ e ∈ symbols.functions.entries, e.Callable S.builder.module

section

variable {func : FuncId} {S S' : Site func}

theorem Typed.Fits.leads (h : x.Fits S.host) (hleads : S.Leads S') :
    x.Fits S'.host := h.mono hleads.hasType

theorem Slot.Fits.leads (h : slot.Fits S.host) (hleads : S.Leads S') :
    slot.Fits S'.host := h.mono hleads.hasType

theorem IR.Site.Knows.leads {symbols : Symbols} (h : S.Knows symbols) (hleads : S.Leads S') :
    S'.Knows symbols where
  slots slot hslot := (h.slots slot hslot).leads hleads
  functions e he := by
    obtain ⟨name, sig, hd, hshaped⟩ := h.functions e he
    exact ⟨name, sig, hleads.declares hd, hshaped⟩

end

/-! ## Operators -/

/-- An operator decides from the operand types whether it applies.  If it does
    not, it emits nothing and the program is at fault; if it does, it is not
    refused. -/
def Emit.Decides {α : Type} {func : FuncId} (x : Emit α) (S : Site func)
    (Q : Site func → α → Prop) : Prop :=
  (∃ e, e.OfProgram ∧ ∀ b, x.run b = (.error e, b)) ∨ Shading.Proceeds (fun _ => False) x S Q

variable {func : FuncId} {S : Site func} {E : Fault → Prop}

theorem Emit.Decides.proceeds {x : Emit α} {Q : Site func → α → Prop} (h : Emit.Decides x S Q) :
    Emit.Proceeds x S Q := by
  intro hS
  rcases h with ⟨e, he, hrun⟩ | h
  · refine Act.meets_of_run (fun a b hok => absurd ((hrun _).symm.trans hok) nofun) fun e' b herr => ?_
    rw [hrun] at herr
    cases herr
    exact ⟨he, hS.runtime⟩
  · exact (h hS).mono (fun _ _ hQ => hQ) fun _ _ hf => hf.1.elim

/-- A missing operator is a fault of types. -/
theorem noOperator_ofProgram (types : TypeTable) (op : BinaryOp) (l r : Typed) :
    (noOperator types op l r).OfProgram := Fault.ofProgram_of_kind nofun

theorem noOperator_decides {types : TypeTable} {op : BinaryOp} {Q : Site func → α → Prop} :
    Emit.Decides (throw (noOperator types op l r) : Emit α) S Q :=
  .inl ⟨_, noOperator_ofProgram types op l r, fun _ => rfl⟩

/-- A number becomes a float. -/
theorem Typed.promote_proceeds (hx : x.Fits S.host) (hnum : x.ty.isNumeric = true) :
    Shading.Proceeds E x.promote S fun S' v => S'.host.HasType v .f32 := by
  unfold Typed.promote
  by_cases hint : x.ty = Builtin.int.id
  · rw [if_pos hint]
    exact (Build.cast_proceeds .sitofp (hx.hasType hint rfl)).lift
  · rw [if_neg hint]
    have hfloat : x.ty = Builtin.float.id := by
      unfold TypeId.isNumeric at hnum
      simpa [hint] using hnum
    exact .pure (hx.hasType hfloat rfl)

theorem Typed.toFloat?_proceeds (hx : x.Fits S.host) :
    Shading.Proceeds E x.toFloat? S fun S' o => ∀ v, o = some v → S'.host.HasType v .f32 := by
  unfold Typed.toFloat?
  by_cases hnum : x.ty.isNumeric = true
  · rw [if_pos hnum]
    refine (x.promote_proceeds hx hnum).bind fun S' v _ hv => .pure fun v' hv' => ?_
    cases hv'
    exact hv
  · rw [if_neg hnum]
    exact .pure nofun

section

variable {op : BinaryOp} {l r : Typed}

/-- Two numbers as floats, and what is done with them. -/
theorem promoted_proceeds {k : Value → Value → Emit β} {Q : Site func → β → Prop}
    (hl : l.Fits S.host) (hr : r.Fits S.host) (hnum : l.ty.isNumeric ∧ r.ty.isNumeric)
    (hk : ∀ (S' : Site func) a b, S'.host.HasType a .f32 → S'.host.HasType b .f32 →
      Shading.Proceeds E (k a b) S' Q) :
    Shading.Proceeds E (do
      let a ← l.promote
      let b ← r.promote
      k a b) S Q := by
  refine (l.promote_proceeds hl hnum.1).bind fun S₁ a h₁ ha => ?_
  refine (r.promote_proceeds (hr.leads h₁) hnum.2).bind fun S₂ b h₂ hb => ?_
  exact hk S₂ a b (h₂.hasType ha) hb

theorem numericArith_decides (hl : l.Fits S.host) (hr : r.Fits S.host) :
    Emit.Decides (numericArith .builtins op l r) S fun S' z => z.Fits S'.host := by
  unfold numericArith
  by_cases hint : l.ty = Builtin.int.id ∧ r.ty = Builtin.int.id
  · rw [if_pos hint]
    cases hop : op.intOp? with
    | none => exact noOperator_decides
    | some o =>
      -- The operators that integers have accept integers.
      have haccepts : o.accepts .i32 = true := by cases op <;> cases hop <;> rfl
      exact .inr (Proceeds.answer ((Build.arith_proceeds (hl.hasType hint.1 rfl)
        (hr.hasType hint.2 rfl) haccepts).lift.mono fun _ _ _ hv => .of_builtin rfl hv))
  · rw [if_neg hint]
    by_cases hnum : l.ty.isNumeric ∧ r.ty.isNumeric
    · rw [if_pos hnum]
      cases hop : op.floatOp? with
      | none => exact noOperator_decides
      | some o =>
        have haccepts : o.accepts .f32 = true := by cases op <;> cases hop <;> rfl
        refine .inr (promoted_proceeds hl hr hnum fun S' a b ha hb => Proceeds.answer ?_)
        exact (Build.arith_proceeds ha hb haccepts).lift.mono fun _ _ _ hv => .of_builtin rfl hv
    · rw [if_neg hnum]
      exact noOperator_decides

theorem numericCompare_decides (hl : l.Fits S.host) (hr : r.Fits S.host) :
    Emit.Decides (numericCompare .builtins op l r) S fun S' z => z.Fits S'.host := by
  unfold numericCompare
  cases op.predicate? with
  | none => exact noOperator_decides
  | some pred =>
    -- Two integers are compared as they are; other numbers are made floats first.
    by_cases hint : l.ty = Builtin.int.id ∧ r.ty = Builtin.int.id
    · simp only [if_pos hint]
      exact .inr (Proceeds.answer ((Build.cmp_proceeds pred (hl.hasType hint.1 rfl)
        (hr.hasType hint.2 rfl) (.inr (.inl rfl))).lift.mono fun _ _ _ hv => .of_builtin rfl hv))
    · simp only [if_neg hint]
      by_cases hnum : l.ty.isNumeric ∧ r.ty.isNumeric
      · rw [if_pos hnum]
        refine .inr (promoted_proceeds hl hr hnum fun S' a b ha hb => Proceeds.answer ?_)
        exact (Build.cmp_proceeds pred ha hb (.inl rfl)).lift.mono fun _ _ _ hv =>
          .of_builtin rfl hv
      · rw [if_neg hnum]
        exact noOperator_decides

theorem boolCompare_decides (hl : l.Fits S.host) (hr : r.Fits S.host)
    (hlty : l.ty = Builtin.bool.id) :
    Emit.Decides (boolCompare .builtins op l r) S fun S' z => z.Fits S'.host := by
  -- Only equality is defined, and only against another truth value.
  have equality : ∀ pred, Emit.Decides (do
      Act.refuseIf (r.ty ≠ Builtin.bool.id) (noOperator .builtins op l r)
      let v ← (liftM (Build.cmp pred l.value r.value) : Emit Value)
      Pure.pure (⟨Builtin.bool.id, v⟩ : Typed)) S fun S' z => z.Fits S'.host := by
    intro pred
    by_cases hty : r.ty = Builtin.bool.id
    · refine .inr (.refuseIf (fun h => absurd hty h) fun _ => Proceeds.answer ?_)
      exact (Build.cmp_proceeds pred (hl.hasType hlty rfl) (hr.hasType hty rfl)
        (.inr (.inr rfl))).lift.mono fun _ _ _ hv => .of_builtin rfl hv
    · refine .inl ⟨_, noOperator_ofProgram .builtins op l r, fun b => ?_⟩
      simp only [Act.run_bind, Act.run_refuseIf]
      rw [if_pos hty]
  cases op with
  | eq => exact equality .eq
  | ne => exact equality .ne
  | _ => exact noOperator_decides

/-! ## Vectors -/

theorem vectorArith_decides (hb : b.behaviour = .vector width) {o : ArithOp} (ho : o.isFloat = true)
    {allowScalar : Bool} (hl : l.Fits S.host) (hr : r.Fits S.host) (hlty : l.ty = b.id) :
    Emit.Decides (vectorArith .builtins b.descriptor width op o allowScalar l r) S
      fun S' z => z.Fits S'.host := by
  have hrepr := Builtin.repr_of_vector hb
  -- Every operator on vectors is one of floating-point arithmetic.
  have haccepts : o.accepts (.vector width) = true := by
    unfold ArithOp.accepts
    rw [if_pos ho]
    rfl
  unfold vectorArith
  simp only [Builtin.descriptor_id]
  by_cases hsame : r.ty = b.id
  · rw [if_pos hsame]
    exact .inr (Proceeds.answer ((Build.arith_proceeds (hl.hasType hlty hrepr)
      (hr.hasType hsame hrepr) haccepts).lift.mono fun _ _ _ hv => .of_builtin hrepr hv))
  · rw [if_neg hsame]
    by_cases hscalar : allowScalar ∧ r.ty.isNumeric
    · rw [if_pos hscalar]
      refine .inr ((r.promote_proceeds hr hscalar.2).bind fun S₁ a h₁ ha => ?_)
      refine (Build.splat_proceeds ha width).lift.bind fun S₂ spread h₂ hspread => ?_
      -- What the left operand denotes is still there after the scalar has been spread.
      have hl₂ := (hl.leads h₁).leads h₂
      exact Proceeds.answer ((Build.arith_proceeds (hl₂.hasType hlty hrepr) hspread
        haccepts).lift.mono fun _ _ _ hv => .of_builtin hrepr hv)
    · rw [if_neg hscalar]
      exact noOperator_decides

end

theorem vectorLanes_proceeds {d : Descriptor} (h : ∀ x ∈ args, x.Fits S.host) :
    Emit.Proceeds (vectorLanes .builtins d args) S fun S' lanes =>
      ∀ v ∈ lanes, S'.host.HasType v .f32 := by
  unfold vectorLanes
  -- By induction on the lanes; what has been made stays typed while the rest is added.
  induction args generalizing S with
  | nil => exact .pure nofun
  | cons x rest ih =>
    rw [List.mapM_cons]
    refine .bind (Q := fun S' v => S'.host.HasType v .f32) ?_ fun S₁ v h₁ hv => ?_
    · refine (x.toFloat?_proceeds (h x List.mem_cons_self)).bind fun S' o _ ho => ?_
      cases o with
      | some v => exact .pure (ho v rfl)
      | none => exact .throw (Fault.ofProgram_of_kind nofun)
    · refine (ih fun y hy => (h y (List.mem_cons_of_mem _ hy)).leads h₁).bind fun S₂ vs h₂ hvs => ?_
      refine .pure fun w hw => ?_
      rcases List.mem_cons.1 hw with rfl | hw
      · exact h₂.hasType hv
      · exact hvs w hw

theorem vectorConstruct_proceeds (hb : b.behaviour = .vector width)
    (h : ∀ x ∈ args, x.Fits S.host) :
    Emit.Proceeds (vectorConstruct .builtins b.descriptor width args) S
      fun S' z => z.Fits S'.host := by
  have hrepr := Builtin.repr_of_vector hb
  refine (vectorLanes_proceeds h).bind fun S₁ lanes _ hlanes => ?_
  simp only [Builtin.descriptor_id]
  split
  · exact Proceeds.answer ((Build.splat_proceeds (hlanes _ List.mem_cons_self) width).lift.mono
      fun _ _ _ hv => .of_builtin hrepr hv)
  -- One value fills all lanes; else there has to be one for each.
  · by_cases hlen : lanes.length = width.toNat
    · rw [if_pos hlen]
      refine Proceeds.answer ((Build.vector_proceeds hlanes).lift.mono fun _ _ _ hv => ?_)
      rw [hlen, UInt8.ofNat_toNat] at hv
      exact .of_builtin hrepr hv
    · rw [if_neg hlen]
      exact .throw (Fault.ofProgram_of_kind nofun)

/-! ## Distributions -/

namespace Distribution

theorem typed_fits {v : Value} (hv : H.HasType v ty) : (typed v).Fits H :=
  .of_builtin (b := .dfunc) rfl hv

theorem construct_proceeds (h : ∀ x ∈ args, x.Fits S.host) :
    Emit.Proceeds (construct .builtins args) S fun S' z => z.Fits S'.host := by
  match args with
  | [shader, context] =>
    refine .refuseIf (fun _ => Fault.ofProgram_of_kind nofun) fun htys => ?_
    obtain ⟨hshader, hcontext⟩ := not_or.1 htys
    have hs := (h shader List.mem_cons_self).hasType (not_not.1 hshader) rfl
    have hc := (h context (List.mem_cons_of_mem _ List.mem_cons_self)).hasType
      (not_not.1 hcontext) rfl
    -- The shapes of handles are in the table, so looking them up cannot fail.
    have hrepr : ∀ b : Builtin, ∀ shape, b.repr = some shape →
        TypeTable.builtins.representation b.id = .ok shape := fun b shape hb =>
      (TypeTable.builtins_representation b).2 hb
    refine .ofExcept (r := TypeTable.builtins.representation Builtin.shaderHandle.id)
      (fun e he => TypeTable.builtins_representation_error _ he) fun s hs' => ?_
    rw [hrepr .shaderHandle _ rfl, Except.ok.injEq] at hs'
    subst hs'
    refine .ofExcept (r := TypeTable.builtins.representation Builtin.contextPtr.id)
      (fun e he => TypeTable.builtins_representation_error _ he) fun s hs' => ?_
    rw [hrepr .contextPtr _ rfl, Except.ok.injEq] at hs'
    subst hs'
    exact Proceeds.answer ((Emit.callIntrinsic_proceeds (by decide) (.cons hs (.cons hc .nil))).mono
      fun _ _ _ hv => typed_fits hv)
  | [] => exact .throw (Fault.ofProgram_of_kind nofun)
  | [_] => exact .throw (Fault.ofProgram_of_kind nofun)
  | _ :: _ :: _ :: _ => exact .throw (Fault.ofProgram_of_kind nofun)

theorem empty_proceeds : Shading.Proceeds E empty S fun S' z =>
    z.ty = Builtin.dfunc.id ∧ z.Fits S'.host :=
  Proceeds.answer ((Emit.callIntrinsic_proceeds (by decide) .nil).mono fun _ _ _ hv =>
    ⟨rfl, typed_fits hv⟩)

variable {l r : Typed}

theorem add_decides (hl : l.Fits S.host) (hr : r.Fits S.host) (hlty : l.ty = Builtin.dfunc.id) :
    Emit.Decides (add .builtins l r) S fun S' z => z.Fits S'.host := by
  by_cases hty : r.ty = Builtin.dfunc.id
  · refine .inr (.refuseIf (fun h => absurd hty h) fun _ => Proceeds.answer ?_)
    exact (Emit.callIntrinsic_proceeds (by decide) (.cons (hl.hasType hlty rfl)
      (.cons (hr.hasType hty rfl) .nil))).mono fun _ _ _ hv => typed_fits hv
  · refine .inl ⟨_, noOperator_ofProgram .builtins .add l r, fun b => ?_⟩
    unfold add
    simp only [Act.run_bind, Act.run_refuseIf]
    rw [if_pos hty]

theorem scale_decides (hl : l.Fits S.host) (hr : r.Fits S.host) (hlty : l.ty = Builtin.dfunc.id) :
    Emit.Decides (scale .builtins l r) S fun S' z => z.Fits S'.host := by
  by_cases hnum : r.ty.isNumeric = true
  · refine .inr ?_
    unfold scale Typed.toFloat?
    rw [if_pos hnum]
    refine .bind (Q := fun S' o => ∃ v, o = some v ∧ S'.host.HasType v .f32)
      ((r.promote_proceeds hr hnum).bind fun S' v _ hv => .pure ⟨v, rfl, hv⟩) fun S₁ o h₁ ho => ?_
    obtain ⟨v, rfl, hv⟩ := ho
    exact Proceeds.answer ((Emit.callIntrinsic_proceeds (by decide)
      (.cons ((hl.leads h₁).hasType hlty rfl) (.cons hv .nil))).mono fun _ _ _ hv => typed_fits hv)
  · refine .inl ⟨_, noOperator_ofProgram .builtins .mul l r, fun b => ?_⟩
    unfold scale Typed.toFloat?
    rw [if_neg hnum]
    rfl

end Distribution

/-! ## Types -/

namespace Builtin

variable (b : Builtin)

theorem construct_proceeds (h : ∀ x ∈ args, x.Fits S.host) :
    Emit.Proceeds (b.descriptor.construct .builtins args) S fun S' z => z.Fits S'.host := by
  rw [Descriptor.construct_builtin]
  unfold Descriptor.standardConstruct
  cases hb : b.descriptor.behaviour with
  | vector width => exact vectorConstruct_proceeds hb h
  | distribution => exact Distribution.construct_proceeds h
  | _ => exact .throw (Fault.ofProgram_of_kind nofun)

/-- Every type of variables has a default value. -/
theorem defaultValue_proceeds (hshape : b.repr = some shape) (hb : b ≠ .void) :
    Shading.Proceeds E b.descriptor.defaultValue S fun S' z =>
      z.ty = b.id ∧ z.Fits S'.host := by
  -- All types but one start with a constant of their representation.
  have constant : ∀ ty, b.repr = some ty →
      Shading.Proceeds E (pure ⟨b.id, .const (if ty.isPointer then .null ty else .zero ty)⟩ :
        Emit Typed) S fun S' z => z.ty = b.id ∧ z.Fits S'.host := by
    intro ty hty
    refine .pure ⟨rfl, .of_builtin hty ?_⟩
    by_cases hptr : ty.isPointer = true
    · rw [if_pos hptr]
      rfl
    · rw [if_neg hptr]
      rfl
  cases b with
  | void => exact absurd rfl hb
  | module => cases hshape
  | dfunc => exact Distribution.empty_proceeds
  | _ => exact constant _ rfl

theorem arith_decides (op : BinaryOp) (hl : l.Fits S.host) (hr : r.Fits S.host)
    (hlty : l.ty = b.id) :
    Emit.Decides (b.descriptor.arith .builtins op l r) S fun S' z => z.Fits S'.host := by
  unfold Descriptor.arith
  -- What a type does is decided by its behaviour, then by the operator.
  cases hb : b.descriptor.behaviour with
  | int => exact numericArith_decides hl hr
  | float => exact numericArith_decides hl hr
  | vector width =>
    cases op with
    | add | sub | mul | div => exact vectorArith_decides hb rfl hl hr hlty
    | _ => exact noOperator_decides
  | distribution =>
    obtain rfl := eq_of_behaviour (c := .dfunc) hb nofun
    cases op with
    | add => exact Distribution.add_decides hl hr hlty
    | mul => exact Distribution.scale_decides hl hr hlty
    | _ => exact noOperator_decides
  | _ => exact noOperator_decides

theorem compare_decides (op : BinaryOp) (hl : l.Fits S.host) (hr : r.Fits S.host)
    (hlty : l.ty = b.id) :
    Emit.Decides (b.descriptor.compare .builtins op l r) S fun S' z => z.Fits S'.host := by
  unfold Descriptor.compare
  split
  · rename_i hb
    obtain rfl := eq_of_behaviour (c := .bool) hb nofun
    exact boolCompare_decides hl hr hlty
  · exact numericCompare_decides hl hr
  · exact numericCompare_decides hl hr
  · exact noOperator_decides

theorem binary_decides (op : BinaryOp) (hl : l.Fits S.host) (hr : r.Fits S.host)
    (hlty : l.ty = b.id) :
    Emit.Decides (b.descriptor.binary .builtins op l r) S fun S' z => z.Fits S'.host := by
  rw [Descriptor.binary_builtin]
  unfold Descriptor.standardBinary
  by_cases harith : op.isArithmetic = true
  · rw [if_pos harith]
    exact b.arith_decides op hl hr hlty
  · rw [if_neg harith]
    by_cases hcmp : op.isComparison = true
    · rw [if_pos hcmp]
      exact b.compare_decides op hl hr hlty
    · rw [if_neg hcmp]
      exact noOperator_decides

theorem unary_proceeds {op : UnaryOp} (hx : x.Fits S.host) (hty : x.ty = b.id) :
    Emit.Proceeds (b.descriptor.unary .builtins op x) S fun S' z => z.Fits S'.host := by
  -- Types with a sign are negated in one way, whatever their shape.
  have neg : ∀ {shape : Ty}, b.repr = some shape → (shape.isFloatLike || shape == .i32) = true →
      Emit.Proceeds (do
        let v ← (liftM (Build.neg x.value) : Emit Value)
        Pure.pure (⟨b.id, v⟩ : Typed)) S fun S' z => z.Fits S'.host := by
    intro shape hshape hneg
    exact Proceeds.answer ((Build.neg_proceeds (hx.hasType hty hshape) hneg).lift.mono
      fun _ _ _ hv => .of_builtin hshape hv)
  rw [Descriptor.unary_builtin]
  unfold Descriptor.standardUnary
  split
  · rename_i hb
    obtain rfl := eq_of_behaviour (c := .bool) hb nofun
    exact Proceeds.answer ((Build.not_proceeds (hx.hasType hty rfl)).lift.mono
      fun _ _ _ hv => .of_builtin rfl hv)
  · rename_i hb
    obtain rfl := eq_of_behaviour (c := .int) hb nofun
    exact neg rfl rfl
  · rename_i hb
    obtain rfl := eq_of_behaviour (c := .float) hb nofun
    exact neg rfl rfl
  · rename_i hb
    exact neg (repr_of_vector hb) rfl
  · exact .throw (Fault.ofProgram_of_kind nofun)

end Builtin

/-! ## Lifetimes -/

/-- A built-in type is registered. -/
theorem resolve_proceeds {ty : TypeId} (hb : ty = b.id) {k : Descriptor → Emit β}
    {Q : Site func → β → Prop} (hk : Emit.Proceeds (k b.descriptor) S Q) :
    Emit.Proceeds (Act.ofExcept (TypeTable.builtins.resolve ty) >>= k) S Q := by
  have hr : TypeTable.builtins.resolve ty = .ok b.descriptor :=
    TypeTable.builtins_resolve_eq_ok.2 ⟨b, hb, rfl⟩
  rw [hr]
  exact hk

/-- So is the type of a value that fits. -/
theorem Typed.Fits.resolve (hx : x.Fits S.host) {k : Descriptor → Emit β} {Q : Site func → β → Prop}
    (hk : ∀ b : Builtin, x.ty = b.id → Emit.Proceeds (k b.descriptor) S Q) :
    Emit.Proceeds (Act.ofExcept (TypeTable.builtins.resolve x.ty) >>= k) S Q := by
  obtain ⟨b, -, hb, -, -⟩ := hx.builtin
  exact resolve_proceeds hb (hk b hb)

namespace Lifetime

variable {ty : TypeId} {v : Value}

theorem copyValue_proceeds (hv : Typed.Fits S.host ⟨ty, v⟩) :
    Emit.Proceeds (copyValue .builtins ty v) S fun S' v' => Typed.Fits S'.host ⟨ty, v'⟩ := by
  refine hv.resolve fun b hb => ?_
  by_cases hcopy : b.caps.copy = true
  · obtain rfl := b.caps_copy.1 hcopy
    obtain rfl : ty = Builtin.dfunc.id := hb
    exact (Emit.callIntrinsic_proceeds (by decide) (.cons (hv.hasType rfl rfl) .nil)).mono
      fun _ _ _ h => Distribution.typed_fits h
  · have hno : b.descriptor.caps.copy ≠ true := hcopy
    rw [if_neg hno]
    exact .pure hv

theorem destroyValue_proceeds (hv : Typed.Fits S.host ⟨ty, v⟩) :
    Emit.Proceeds (destroyValue .builtins ty v) S fun _ _ => True := by
  refine hv.resolve fun b hb => ?_
  unfold Act.onlyIf
  by_cases hdestroy : b.caps.destroy = true
  · obtain rfl := b.caps_destroy.1 hdestroy
    obtain rfl : ty = Builtin.dfunc.id := hb
    exact (Emit.callIntrinsic_proceeds (by decide) (.cons (hv.hasType rfl rfl) .nil)).bind
      fun _ _ _ _ => .pure trivial
  · have hno : b.descriptor.caps.destroy ≠ true := hdestroy
    rw [if_neg hno]
    exact .pure trivial

theorem materialize_proceeds {x : ExprValue} (hx : x.typed.Fits S.host) :
    Emit.Proceeds (materialize .builtins x) S fun S' v => Typed.Fits S'.host ⟨x.ty, v⟩ := by
  unfold materialize
  by_cases howned : x.owned = true
  · rw [if_pos howned]
    exact .pure hx
  · rw [if_neg howned]
    exact copyValue_proceeds hx

theorem release_proceeds {x : ExprValue} (hx : x.typed.Fits S.host) :
    Emit.Proceeds (release .builtins x) S fun _ _ => True := by
  unfold release
  by_cases hc : (x.owned && !x.value.isVoid) = true
  · rw [if_pos hc]
    exact destroyValue_proceeds hx
  · rw [if_neg hc]
    exact .pure trivial

theorem releaseAll_proceeds {xs : List ExprValue} (h : ∀ x ∈ xs, x.typed.Fits S.host) :
    Emit.Proceeds (xs.forM (release .builtins)) S fun _ _ => True :=
  .forM (P := fun S x => x.typed.Fits S.host) (fun hleads hx => hx.leads hleads)
    (fun _ _ hx => release_proceeds hx) h

theorem destroySlot_proceeds (h : slot.Fits S.host) :
    Emit.Proceeds (destroySlot .builtins slot) S fun _ _ => True := by
  obtain ⟨shape, hshape, hptr⟩ := h
  obtain ⟨b, hb, hrepr⟩ := TypeTable.builtins_representation_eq_ok.1 hshape
  have hneeds : needsDestroy .builtins slot.ty = .ok b.caps.destroy := by
    unfold needsDestroy
    rw [TypeTable.builtins_resolve_eq_ok.2 ⟨b, hb, rfl⟩]
    rfl
  refine .ofExcept (fun e he => absurd (hneeds.symm.trans he) nofun) fun needed hneeded => ?_
  unfold Act.onlyIf
  by_cases hn : needed = true
  · rw [if_pos hn]
    refine (Build.load_proceeds hptr).lift.bind fun S' v _ hv => ?_
    exact destroyValue_proceeds ⟨shape, hshape, hv⟩
  · rw [if_neg hn]
    exact .pure trivial

theorem destroySlots_proceeds {slots : List Slot} (h : ∀ slot ∈ slots, slot.Fits S.host) :
    Emit.Proceeds (destroySlots .builtins slots) S fun _ _ => True :=
  .forM (P := fun S slot => slot.Fits S.host) (fun hleads hslot => hslot.leads hleads)
    (fun _ _ hslot => destroySlot_proceeds hslot) fun slot hslot => h slot (List.mem_reverse.1 hslot)

end Lifetime

end Shading
