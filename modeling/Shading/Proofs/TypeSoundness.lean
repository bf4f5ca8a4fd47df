import Shading.Proofs.Places
import Shading.Proofs.ProgramFaults

/-! # Expressions have the types that they claim

    Whatever else a module holds: if the slots of the visible variables and the
    functions behind the entries have the shapes of their types, then so has
    every value that the lowering of an expression answers, and the slots and
    functions still have theirs (`Expr.lower_sound`).  The operators of the
    built-in types give their results the shapes of the result types. -/

namespace Shading

open IR

variable {func : FuncId} {P P' : Place func} {options : Options}
variable {span : Span} {l r x : Typed} {op : BinaryOp}

/-! ## Values at places -/

theorem Typed.Fits.leadsTo (h : x.Fits P.host) (hleads : P.Leads P') :
    x.Fits P'.host := h.mono hleads.hasType

theorem Slot.Fits.leadsTo {slot : Slot} (h : slot.Fits P.host) (hleads : P.Leads P') :
    slot.Fits P'.host := h.mono hleads.hasType

/-- The slots of the visible variables and the functions of the entries have
    the shapes of their types. -/
structure IR.Place.Knows (P : Place func) (symbols : Symbols) : Prop where
  slots : ∀ name slot, symbols.scopes.lookup? name = some slot → slot.Fits P.host
  functions : ∀ e ∈ symbols.functions.entries, ∃ g,
    P.builder.module.function? e.func = some g ∧
    e.prototype.irSignature .builtins = .ok g.signature

theorem IR.Place.Knows.leadsTo {symbols : Symbols} (h : P.Knows symbols) (hleads : P.Leads P') :
    P'.Knows symbols where
  slots name slot hslot := (h.slots name slot hslot).leadsTo hleads
  functions e he := by
    obtain ⟨g, hg, hsig⟩ := h.functions e he
    obtain ⟨g', hg', hsame⟩ := hleads.function hg
    exact ⟨g', hg', hsame ▸ hsig⟩

/-! ## Operators -/

/-- A number becomes a float. -/
theorem Typed.promote_lands (hx : x.Fits P.host) (hnum : x.ty.isNumeric = true) :
    Lands x.promote P fun P' v => P'.host.HasType v .f32 := by
  unfold Typed.promote
  by_cases hint : x.ty = Builtin.int.id
  · rw [if_pos hint]
    exact (Build.cast_lands .sitofp x.value).lift
  · rw [if_neg hint]
    have hfloat : x.ty = Builtin.float.id := by
      unfold TypeId.isNumeric at hnum
      simpa [hint] using hnum
    exact .pure (hx.hasType hfloat rfl)

section

variable {op : BinaryOp} {l r : Typed}

theorem numericArith_lands (hl : l.Fits P.host) :
    Lands (numericArith .builtins op l r) P fun P' z => z.Fits P'.host := by
  unfold numericArith
  -- Two integers stay integers; any other pair of numbers becomes floats.
  by_cases hint : l.ty = Builtin.int.id ∧ r.ty = Builtin.int.id
  · rw [if_pos hint]
    cases op.intOp? with
    | none => exact .throw _
    | some o =>
      exact Lands.answer ((Build.arith_lands o (hl.hasType hint.1 rfl) r.value).lift.mono
        fun _ _ _ hv => .of_builtin rfl hv)
  · rw [if_neg hint]
    by_cases hnum : l.ty.isNumeric ∧ r.ty.isNumeric
    · rw [if_pos hnum]
      cases op.floatOp? with
      | none => exact .throw _
      | some o =>
        refine (l.promote_lands hl hnum.1).bind fun P₁ a _ ha => ?_
        refine (Lands.of_straight r.promote_straight).bind fun P₂ b h₂ _ => ?_
        exact Lands.answer ((Build.arith_lands o (h₂.hasType ha) b).lift.mono
          fun _ _ _ hv => .of_builtin rfl hv)
    · rw [if_neg hnum]
      exact .throw _

/-- Comparisons give booleans. -/
theorem cmp_fits (pred : CmpPred) (v w : Value) :
    Lands (do
      let z ← (liftM (Build.cmp pred v w) : Emit Value)
      Pure.pure (⟨Builtin.bool.id, z⟩ : Typed)) P fun P' z => z.Fits P'.host :=
  Lands.answer ((Build.cmp_lands pred v w).lift.mono fun _ _ _ hv => .of_builtin rfl hv)

theorem numericCompare_lands :
    Lands (numericCompare .builtins op l r) P fun P' z => z.Fits P'.host := by
  unfold numericCompare
  cases op.predicate? with
  | none => exact .throw _
  | some pred =>
    by_cases hint : l.ty = Builtin.int.id ∧ r.ty = Builtin.int.id
    · simp only [if_pos hint]
      exact cmp_fits pred l.value r.value
    · simp only [if_neg hint]
      by_cases hnum : l.ty.isNumeric ∧ r.ty.isNumeric
      · rw [if_pos hnum]
        refine (Lands.of_straight l.promote_straight).bind fun P₁ a _ _ => ?_
        exact (Lands.of_straight r.promote_straight).bind fun P₂ b _ _ => cmp_fits pred a b
      · rw [if_neg hnum]
        exact .throw _

theorem boolCompare_lands :
    Lands (boolCompare .builtins op l r) P fun P' z => z.Fits P'.host := by
  cases op with
  | eq => exact .refuseIf fun _ => cmp_fits .eq l.value r.value
  | ne => exact .refuseIf fun _ => cmp_fits .ne l.value r.value
  | _ => exact .throw _

theorem vectorArith_lands {b : Builtin} {width : UInt8} (hb : b.behaviour = .vector width)
    (o : ArithOp) (allowScalar : Bool) (hl : l.Fits P.host) (hlty : l.ty = b.id) :
    Lands (vectorArith .builtins b.descriptor width op o allowScalar l r) P
      fun P' z => z.Fits P'.host := by
  have hrepr := Builtin.repr_of_vector hb
  -- The result has the shape of the left operand in both forms.
  have result : ∀ {P' : Place func} (w : Value), P.Leads P' → Lands (do
      let v ← (liftM (Build.arith o l.value w) : Emit Value)
      Pure.pure (⟨b.id, v⟩ : Typed)) P' fun P'' z => z.Fits P''.host := fun w hleads =>
    Lands.answer ((Build.arith_lands o (hleads.hasType (hl.hasType hlty hrepr)) w).lift.mono
      fun _ _ _ hv => .of_builtin hrepr hv)
  unfold vectorArith
  simp only [Builtin.descriptor_id]
  by_cases hsame : r.ty = b.id
  · rw [if_pos hsame]
    exact result r.value (.refl P)
  · rw [if_neg hsame]
    by_cases hscalar : allowScalar ∧ r.ty.isNumeric
    · rw [if_pos hscalar]
      refine (Lands.of_straight r.promote_straight).bind fun P₁ a h₁ _ => ?_
      refine (Build.splat_lands a width).lift.bind fun P₂ spread h₂ _ => ?_
      exact result spread (h₁.trans h₂)
    · rw [if_neg hscalar]
      exact .throw _

end

theorem vectorConstruct_lands {b : Builtin} {width : UInt8} (hb : b.behaviour = .vector width)
    (args : List Typed) :
    Lands (vectorConstruct .builtins b.descriptor width args) P fun P' z => z.Fits P'.host := by
  have hrepr := Builtin.repr_of_vector hb
  refine (Lands.of_straight (vectorLanes_straight b.descriptor args)).bind fun P₁ lanes _ _ => ?_
  simp only [Builtin.descriptor_id]
  split
  · exact Lands.answer ((Build.splat_lands _ width).lift.mono fun _ _ _ hv => .of_builtin hrepr hv)
  · by_cases hlen : lanes.length = width.toNat
    · rw [if_pos hlen]
      refine Lands.answer ((Build.vector_lands lanes).lift.mono fun _ _ _ hv => ?_)
      rw [hlen, UInt8.ofNat_toNat] at hv
      exact .of_builtin hrepr hv
    · rw [if_neg hlen]
      exact .throw _

/-! ## Distributions -/

namespace Distribution

/-- Every runtime function that returns a distribution returns its shape. -/
theorem call_fits (name : String) (params : List Ty) (args : List Value) :
    Lands (do
      let v ← Emit.callIntrinsic name params ty args
      Pure.pure (typed v)) P fun P' z => z.Fits P'.host :=
  Lands.answer ((Emit.callIntrinsic_lands name params ty args).mono fun _ _ _ hv => typed_fits hv)

theorem construct_lands (args : List Typed) :
    Lands (construct .builtins args) P fun P' z => z.Fits P'.host := by
  unfold construct
  split
  · exact .refuseIf fun _ => .ofExcept fun _ _ => .ofExcept fun _ _ => call_fits _ _ _
  · exact .throw _

theorem add_lands (l r : Typed) : Lands (add .builtins l r) P fun P' z => z.Fits P'.host :=
  .refuseIf fun _ => call_fits _ _ _

theorem scale_lands (l r : Typed) : Lands (scale .builtins l r) P fun P' z => z.Fits P'.host := by
  refine (Lands.of_straight r.toFloat?_straight).bind fun P₁ weight _ _ => ?_
  cases weight with
  | some w => exact call_fits _ _ _
  | none => exact .throw _

end Distribution

/-! ## Types -/

namespace Builtin

variable (b : Builtin)

theorem construct_lands (args : List Typed) :
    Lands (b.descriptor.construct .builtins args) P fun P' z => z.Fits P'.host := by
  rw [Descriptor.construct_builtin]
  unfold Descriptor.standardConstruct
  cases hb : b.descriptor.behaviour with
  | vector width => exact vectorConstruct_lands hb args
  | distribution => exact Distribution.construct_lands args
  | _ => exact .throw _

theorem arith_lands (op : BinaryOp) (hl : l.Fits P.host) (hlty : l.ty = b.id) (r : Typed) :
    Lands (b.descriptor.arith .builtins op l r) P fun P' z => z.Fits P'.host := by
  unfold Descriptor.arith
  cases hb : b.descriptor.behaviour with
  | int => exact numericArith_lands hl
  | float => exact numericArith_lands hl
  | vector width =>
    cases op with
    | add | sub | mul | div => exact vectorArith_lands hb _ _ hl hlty
    | _ => exact .throw _
  | distribution =>
    cases op with
    | add => exact Distribution.add_lands l r
    | mul => exact Distribution.scale_lands l r
    | _ => exact .throw _
  | _ => exact .throw _

theorem compare_lands (op : BinaryOp) (l r : Typed) :
    Lands (b.descriptor.compare .builtins op l r) P fun P' z => z.Fits P'.host := by
  unfold Descriptor.compare
  split
  · exact boolCompare_lands
  · exact numericCompare_lands
  · exact numericCompare_lands
  · exact .throw _

theorem binary_lands (op : BinaryOp) (hl : l.Fits P.host) (hlty : l.ty = b.id) (r : Typed) :
    Lands (b.descriptor.binary .builtins op l r) P fun P' z => z.Fits P'.host := by
  rw [Descriptor.binary_builtin]
  unfold Descriptor.standardBinary
  by_cases harith : op.isArithmetic = true
  · rw [if_pos harith]
    exact b.arith_lands op hl hlty r
  · rw [if_neg harith]
    by_cases hcmp : op.isComparison = true
    · rw [if_pos hcmp]
      exact b.compare_lands op l r
    · rw [if_neg hcmp]
      exact .throw _

theorem unary_lands {op : UnaryOp} (hx : x.Fits P.host) (hty : x.ty = b.id) :
    Lands (b.descriptor.unary .builtins op x) P fun P' z => z.Fits P'.host := by
  -- Negation keeps the type; three behaviours share the argument.
  have neg : ∀ {shape : Ty}, b.repr = some shape → Lands (do
      let v ← (liftM (Build.neg x.value) : Emit Value)
      Pure.pure (⟨b.id, v⟩ : Typed)) P fun P' z => z.Fits P'.host := fun hshape =>
    Lands.answer ((Build.neg_lands (hx.hasType hty hshape)).lift.mono
      fun _ _ _ hv => .of_builtin hshape hv)
  rw [Descriptor.unary_builtin]
  unfold Descriptor.standardUnary
  split
  · exact Lands.answer ((Build.not_lands x.value).lift.mono fun _ _ _ hv => .of_builtin rfl hv)
  · rename_i hb
    obtain rfl := eq_of_behaviour (c := .int) hb nofun
    exact neg rfl
  · rename_i hb
    obtain rfl := eq_of_behaviour (c := .float) hb nofun
    exact neg rfl
  · rename_i hb
    exact neg (repr_of_vector hb)
  · exact .throw _

end Builtin

/-! ## Conversions -/

/-- A type that is found is a built-in one. -/
theorem Typed.resolve_lands {β : Type} (x : Typed) {k : Descriptor → Emit β}
    {Q : Place func → β → Prop} (hk : ∀ b : Builtin, x.ty = b.id → Lands (k b.descriptor) P Q) :
    Lands (Act.ofExcept (TypeTable.builtins.resolve x.ty) >>= k) P Q := by
  refine .ofExcept fun d hd => ?_
  obtain ⟨b, hb, rfl⟩ := TypeTable.builtins_resolve_eq_ok.1 hd
  exact hk b hb

/-- A converted value has the type of its place. -/
theorem Conversion.apply_lands {source target : TypeId} {c : Conversion} {v : Value}
    (hc : Conversion.find? source target options = some c) (hv : Typed.Fits P.host ⟨source, v⟩) :
    Lands (c.apply v) P fun P' v' => Typed.Fits P'.host ⟨target, v'⟩ := by
  rcases Conversion.find?_eq_some hc with ⟨rfl, rfl⟩ | ⟨rfl, -, rfl, rfl⟩
  · exact .pure hv
  · exact (Build.cast_lands .sitofp v).lift.mono fun _ _ _ h => .of_builtin rfl h

/-- An owned value as it is, or a copy of the same type. -/
theorem Lifetime.materialize_lands {x : ExprValue} (hx : x.typed.Fits P.host) :
    Lands (materialize .builtins x) P fun P' v => Typed.Fits P'.host ⟨x.ty, v⟩ := by
  unfold materialize
  by_cases howned : x.owned = true
  · rw [if_pos howned]
    exact .pure hx
  · rw [if_neg howned]
    refine x.typed.resolve_lands fun b hb => ?_
    by_cases hcopy : b.caps.copy = true
    · obtain rfl := b.caps_copy.1 hcopy
      refine (Emit.callIntrinsic_lands ..).mono fun _ v _ hv => ?_
      rw [show x.ty = Builtin.dfunc.id from hb]
      exact Distribution.typed_fits hv
    · have hno : b.descriptor.caps.copy ≠ true := hcopy
      rw [if_neg hno]
      exact .pure hx

namespace Lower

variable {symbols : Symbols}

/-- A value that has passed has the type that its place expects. -/
theorem coerce_lands {x : ExprValue} {expected : TypeId} {what : String}
    (hx : x.typed.Fits P.host) :
    Lands (coerce ⟨.builtins, options⟩ x expected span what) P
      fun P' z => z.ty = expected ∧ z.typed.Fits P'.host := by
  unfold coerce
  cases hc : Conversion.find? x.ty expected options with
  | none => exact .throw _
  | some c =>
    rcases Conversion.find?_eq_some hc with ⟨rfl, hty⟩ | ⟨rfl, -, -⟩
    · exact .pure ⟨hty, hx⟩
    · exact Lands.answer ((Conversion.apply_lands hc hx).mono fun _ _ _ h => ⟨rfl, h⟩)

theorem check_lands {e : Emit ExprValue} {expected : TypeId} {what : String}
    (he : Lands e P fun P' x => x.typed.Fits P'.host) :
    Lands (check ⟨.builtins, options⟩ e expected span what) P
      fun P' z => z.ty = expected ∧ z.typed.Fits P'.host :=
  he.bind fun _ _ _ hx => coerce_lands hx

/-! ## Forms of expressions -/

theorem slot_fits_at (hP : P.Knows symbols) {name : String} {slot : Slot}
    (h : symbols.scopes.resolve name span = .ok slot) : slot.Fits P.host :=
  hP.slots name slot (Scopes.resolve_eq_ok h)

theorem readVar_lands (hP : P.Knows symbols) (x : Ident) :
    Lands (readVar symbols x) P fun P' y => y.typed.Fits P'.host := by
  refine .ofExcept (r := symbols.scopes.resolve x.name x.span) fun slot hslot => ?_
  obtain ⟨shape, hshape, hptr⟩ := slot_fits_at hP hslot
  exact Lands.answer ((Build.load_lands hptr).lift.mono fun _ _ _ hv => ⟨shape, hshape, hv⟩)

theorem unary_lands {op : UnaryOp} {operand : Emit ExprValue}
    (hoperand : Lands operand P fun P' x => x.typed.Fits P'.host) :
    Lands (unary ⟨.builtins, options⟩ op span operand) P fun P' z => z.typed.Fits P'.host := by
  refine hoperand.bind fun P₁ x _ hx => x.typed.resolve_lands fun b hb => ?_
  refine ((b.unary_lands hx hb).located span).bind fun P₂ z _ hz => ?_
  refine (Lands.of_straight (Lifetime.release_straight x)).bind fun P₃ _ h₃ _ => ?_
  exact .pure (hz.leadsTo h₃)

/-- Either operand may have the operator. -/
theorem applyBinary_lands (hl : l.Fits P.host) (hr : r.Fits P.host) :
    Lands (applyBinary .builtins op l r) P fun P' z => z.Fits P'.host := by
  refine l.resolve_lands fun b hb => ?_
  refine .tryCatch (b.straight.binary_straight op l r) (b.binary_lands op hl hb r)
    fun e P₁ h₁ => ?_
  split
  · split
    · refine r.resolve_lands fun c hc => ?_
      exact (c.binary_lands op (hr.leadsTo h₁) hc l).mapError
    · exact .throw _
  · exact .throw _

theorem binary_lands {left right : Emit ExprValue}
    (hl : Lands left P fun P' x => x.typed.Fits P'.host)
    (hr : ∀ P', P.Leads P' → Lands right P' fun P'' y => y.typed.Fits P''.host) :
    Lands (binary ⟨.builtins, options⟩ op span left right) P fun P' z => z.typed.Fits P'.host := by
  refine hl.bind fun P₁ x h₁ hx => (hr P₁ h₁).bind fun P₂ y h₂ hy => ?_
  refine ((applyBinary_lands (hx.leadsTo h₂) hy).located span).bind fun P₃ z _ hz => ?_
  refine (Lands.of_straight (Lifetime.release_straight x)).bind fun P₄ _ h₄ _ => ?_
  refine (Lands.of_straight (Lifetime.release_straight y)).bind fun P₅ _ h₅ _ => ?_
  exact .pure (hz.leadsTo (h₄.trans h₅))

/-- The value of a short-circuit operator is merged from booleans, whatever
    its operands have emitted. -/
theorem logical_lands {env : Env} {left right : Emit ExprValue}
    (hl : Emit.carrying.Holds left ∧ Emit.closing.Holds left)
    (hr : Emit.carrying.Holds right ∧ Emit.closing.Holds right) :
    Lands (logical env op span left right) P fun P' z => z.typed.Fits P'.host := by
  have hbool : (logical env op span left right).Yields P.builder fun z t =>
      z.ty = Builtin.bool.id ∧ t.Gives z.value .bool := by
    -- Neither the first operand with its branch nor the second one with its jump to the join
    -- matters, only the instruction that merges them.
    exact .skip fun l _ => .skip fun _ _ => .skip fun func _ => .skip fun leftBlock _ =>
      .skip fun rightStart _ => .skip fun join _ => .skip fun _ _ => .skip fun _ _ =>
      .skip fun r _ => .skip fun _ _ => .skip fun rightEnd _ => .skip fun _ _ => .skip fun _ _ =>
      (Build.phi_gives .bool _ _).mapError.bind fun v _ hv => .pure ⟨rfl, hv⟩
  refine (Lands.of_laws (Emit.carrying_covers.logical hl.1 hr.1 op span)
    (Emit.closing_covers.logical hl.2 hr.2 op span) hbool).mono ?_
  rintro P' ⟨ty, v, owned⟩ - ⟨rfl, hv⟩
  exact .of_builtin rfl (P'.hasType_of_gives hv)

/-- What is stored in a variable has its type. -/
theorem assign_lands {target : Ident} {value : Emit ExprValue}
    (hvalue : Lands value P fun P' x => x.typed.Fits P'.host) :
    Lands (assign ⟨.builtins, options⟩ symbols target span value) P
      fun P' z => z.typed.Fits P'.host := by
  refine .ofExcept (r := symbols.scopes.resolve target.name target.span) fun slot _ => ?_
  refine (check_lands hvalue).bind fun P₁ x _ hx => ?_
  refine (Lifetime.materialize_lands hx.2).bind fun P₂ v _ hv => ?_
  refine (Lands.of_straight (Lifetime.destroySlot_straight slot)).bind fun P₃ _ h₃ _ => ?_
  refine (Lands.of_straight (Emit.straight_lift (Build.store_straight v slot.ptr))).bind
    fun P₄ _ h₄ _ => ?_
  rw [hx.1] at hv
  exact .pure (hv.leadsTo (h₃.trans h₄))

/-- The result of a call has the shape of the type in the prototype. -/
theorem call_lands {callee : Ident} {args : Emit (List ExprValue)} (hP : P.Knows symbols)
    (hargs : Lands args P fun _ _ => True) :
    Lands (call ⟨.builtins, options⟩ symbols callee span args) P
      fun P' z => z.typed.Fits P'.host := by
  refine hargs.bind fun P₁ xs h₁ _ => ?_
  refine .ofExcept (r := symbols.functions.resolve ..) fun chosen _ => ?_
  refine .ofExcept (r := symbols.functions.entry chosen.entry) fun e he => ?_
  refine (Lands.of_straight (convertArgs_straight xs chosen.conversions)).bind fun P₂ vs h₂ _ => ?_
  -- The function behind the entry has the shapes of its prototype.
  obtain ⟨g, hg, hsig⟩ := (hP.leadsTo (h₁.trans h₂)).functions e
    (List.mem_of_getElem? (Functions.entry_eq_ok.1 he))
  refine (Build.call_lands hg vs).lift.bind fun P₃ v _ hv => ?_
  refine (Lands.of_straight (.forM fun x => Lifetime.release_straight x)).bind fun P₄ _ h₄ _ => ?_
  exact .pure ⟨g.signature.ret, (Prototype.Matches.of_irSignature hsig).ret, h₄.hasType hv⟩

theorem construct_lands {ty : TypeName} {args : Emit (List ExprValue)}
    (hargs : Lands args P fun _ _ => True) :
    Lands (construct ⟨.builtins, options⟩ ty span args) P fun P' z => z.typed.Fits P'.host := by
  refine .ofExcept (r := TypeTable.builtins.resolveName ty.name ty.span) fun id _ => ?_
  refine hargs.bind fun P₁ xs _ _ => ?_
  refine .ofExcept (r := TypeTable.builtins.resolve id) fun d hd => ?_
  obtain ⟨b, -, rfl⟩ := TypeTable.builtins_resolve_eq_ok.1 hd
  have hbuilt := (b.construct_lands (P := P₁) (xs.map (·.typed))).located span
  refine hbuilt.bind fun P₂ z _ hz => ?_
  refine (Lands.of_straight (.forM fun x => Lifetime.release_straight x)).bind fun P₃ _ h₃ _ => ?_
  exact .pure (hz.leadsTo h₃)

end Lower

/-! ## The tree -/

section

variable (options : Options) (symbols : Symbols)

theorem Expr.lowerAll_lands (es : List Expr) :
    Lands (Expr.lowerAll ⟨.builtins, options⟩ symbols es) P fun _ _ => True :=
  .of_laws (Expr.lowerAll_covered ⟨.builtins, options⟩ symbols Emit.carrying_covers es)
    (Expr.lowerAll_covered ⟨.builtins, options⟩ symbols Emit.closing_covers es)
    (.of_run fun _ _ _ => trivial)

/-- From a place that knows the symbols, an expression gets to a value with the
    shape of its type. -/
theorem Expr.lower_lands : (e : Expr) → (P : Place func) → P.Knows symbols →
    Lands (e.lower ⟨.builtins, options⟩ symbols) P fun P' x => x.typed.Fits P'.host
  | .literal v _, P, _ => .pure (Lower.literal_fits P.host v)
  | .var x, _, hP => Lower.readVar_lands hP x
  | .unary _ e _, P, hP => Lower.unary_lands (Expr.lower_lands e P hP)
  | .binary op a b span, P, hP => by
    unfold Expr.lower
    by_cases hlog : op.isLogical = true
    · rw [if_pos hlog]
      exact Lower.logical_lands ⟨a.lower_carrying _ symbols, a.lower_closing _ symbols⟩
        ⟨b.lower_carrying _ symbols, b.lower_closing _ symbols⟩
    · rw [if_neg hlog]
      exact Lower.binary_lands (Expr.lower_lands a P hP)
        fun P' h => Expr.lower_lands b P' (hP.leadsTo h)
  | .assign _ e _, P, hP => Lower.assign_lands (Expr.lower_lands e P hP)
  | .call _ args _, _, hP => Lower.call_lands hP (Expr.lowerAll_lands options symbols args)
  | .construct _ args _, _, _ => Lower.construct_lands (Expr.lowerAll_lands options symbols args)

end

/-- Lowering an expression is type sound.  Let a builder stand in an open block
    of a function, where the slots of the visible variables point to the shapes
    of their types and the functions of the entries have the signatures of
    their prototypes.  If an expression answers, then the builder stands in an
    open block of that function again, all this still holds, and the value has
    the shape of its type.  If it is checked against a type, then it has this
    type. -/
theorem Expr.lower_sound (options : Options) (symbols : Symbols) (e : Expr) (P : Place func)
    (hP : P.Knows symbols) :
    (∀ z b, (e.lower ⟨.builtins, options⟩ symbols).run P.builder = (.ok z, b) →
      ∃ P' : Place func, P'.builder = b ∧ P'.Knows symbols ∧ ∃ shape,
        TypeTable.builtins.representation z.ty = .ok shape ∧
        P'.body.valueType z.value = .ok shape) ∧
    ∀ expected span what z b,
      (Lower.check ⟨.builtins, options⟩ (e.lower ⟨.builtins, options⟩ symbols) expected span
        what).run P.builder = (.ok z, b) →
      z.ty = expected ∧ ∃ P' : Place func, P'.builder = b ∧ P'.Knows symbols ∧ ∃ shape,
        TypeTable.builtins.representation expected = .ok shape ∧
        P'.body.valueType z.value = .ok shape := by
  have hlands := Expr.lower_lands options symbols e P hP
  constructor
  · intro z b hrun
    obtain ⟨P', rfl, hleads, hz⟩ := hlands.of_ok hrun
    exact ⟨P', rfl, hP.leadsTo hleads, hz⟩
  · intro expected span what z b hrun
    obtain ⟨P', rfl, hleads, rfl, hz⟩ := (Lower.check_lands hlands).of_ok hrun
    exact ⟨rfl, P', rfl, hP.leadsTo hleads, hz⟩

/-- In the body of `half`, which takes a float `x` and can be called. -/
def halfPlace : Place 0 where
  builder := ⟨⟨"scene", [⟨"half$f", ⟨[.f32], .f32⟩, .internal, [⟨"entry", [0]⟩],
    [⟨.alloca .f32 4, .ptr .f32, some "x"⟩]⟩], _, rfl⟩, some ⟨0, 0⟩⟩
  block := 0
  body := ⟨"half$f", ⟨[.f32], .f32⟩, .internal, [⟨"entry", [0]⟩],
    [⟨.alloca .f32 4, .ptr .f32, some "x"⟩]⟩
  stands := ⟨rfl, rfl, by decide⟩
  isOpen := rfl

def halfSymbols : Symbols where
  scopes := .of [[⟨"x", Builtin.float.id, .inst 0, .unknown, 1⟩]]
  functions := ⟨[⟨⟨"half", none, Builtin.float.id, [⟨"x", Builtin.float.id, .unknown⟩], .unknown⟩,
    0, true⟩], _, rfl⟩
  control := []

theorem halfPlace_knows : halfPlace.Knows halfSymbols where
  slots name slot h := by
    have hmem := Scopes.mem_flatten_of_lookup? h
    rw [halfSymbols, Scopes.stack_of] at hmem
    obtain rfl := List.mem_singleton.1 hmem
    exact ⟨.f32, by decide, rfl⟩
  functions e he := by
    obtain rfl := List.mem_singleton.1 he
    exact ⟨_, rfl, by decide⟩

/-- `half(2 * x)` -/
def halfOfDouble : Expr :=
  .call ⟨"half", .unknown⟩
    [.binary .mul (.literal (.int 2) .unknown) (.var ⟨"x", .unknown⟩) .unknown] .unknown

theorem lower_sound_half :
    halfPlace.Knows halfSymbols ∧
    ∃ z b, (halfOfDouble.lower ⟨.builtins, .default⟩ halfSymbols).run halfPlace.builder =
        (.ok z, b) ∧ z.ty = Builtin.float.id ∧
      ∃ P' : Place 0, P'.builder = b ∧ P'.Knows halfSymbols ∧ ∃ shape,
        TypeTable.builtins.representation z.ty = .ok shape ∧
        P'.body.valueType z.value = .ok shape := by
  have hrun : (halfOfDouble.lower ⟨.builtins, .default⟩ halfSymbols).run halfPlace.builder =
      (.ok ⟨Builtin.float.id, .inst 4, true⟩,
        ((halfOfDouble.lower ⟨.builtins, .default⟩ halfSymbols).run halfPlace.builder).2) :=
    Prod.ext (by decide +kernel) rfl
  exact ⟨halfPlace_knows, _, _, hrun, rfl,
    (Expr.lower_sound .default halfSymbols halfOfDouble halfPlace halfPlace_knows).1 _ _ hrun⟩

end Shading
