import Shading.Proofs.Shapes

/-! # Expressions emit fitting instructions

    Every form of expression passes on values with the shapes of their types.
    Main result: from a site that knows the slots of the variables and the
    functions, the lowering of any expression proceeds
    (`Expr.lower_proceeds`). -/

namespace Shading

open IR

variable {func : FuncId} {S : Site func} {options : Options}
variable {span : Span} {op : BinaryOp}

/-! ## Conversions -/

/-- A converted value has the type of its place. -/
theorem Conversion.apply_proceeds {source target : TypeId} {c : Conversion} {v : Value}
    (hc : Conversion.find? source target options = some c) (hv : Typed.Fits S.host ⟨source, v⟩) :
    Emit.Proceeds (c.apply v) S fun S' v' => Typed.Fits S'.host ⟨target, v'⟩ := by
  rcases Conversion.find?_eq_some hc with ⟨rfl, rfl⟩ | ⟨rfl, -, rfl, rfl⟩
  · exact .pure hv
  · exact (Build.cast_proceeds .sitofp (hv.hasType rfl rfl)).lift.mono
      fun _ _ _ h => .of_builtin rfl h

theorem Lower.coerce_proceeds {x : ExprValue} {expected : TypeId} {what : String}
    (hx : x.typed.Fits S.host) :
    Emit.Proceeds (Lower.coerce ⟨.builtins, options⟩ x expected span what) S
      fun S' z => z.ty = expected ∧ z.typed.Fits S'.host := by
  unfold Lower.coerce
  cases hc : Conversion.find? x.ty expected options with
  | none => exact .throw (Fault.ofProgram_of_kind nofun)
  | some c =>
    rcases Conversion.find?_eq_some hc with ⟨rfl, rfl⟩ | ⟨rfl, -, -⟩
    · exact .pure ⟨rfl, hx⟩
    · exact Proceeds.answer ((Conversion.apply_proceeds hc hx).mono fun _ _ _ h => ⟨rfl, h⟩)

/-- The arguments of a call, converted to the parameter types. -/
theorem Lower.convertArgs_proceeds {xs : List ExprValue} {cs : List Conversion} {tys : List TypeId}
    (hlen : tys.length = xs.length)
    (hcs : ((tys.zip (xs.map (·.ty))).mapM fun p => Conversion.find? p.2 p.1 options) = some cs)
    (hxs : ∀ x ∈ xs, x.typed.Fits S.host) :
    Emit.Proceeds (Lower.convertArgs xs cs) S fun S' vs =>
      List.Forall₂ (fun v ty => Typed.Fits S'.host ⟨ty, v⟩) vs tys := by
  -- By induction on the arguments: each one is converted to the type of its parameter.
  induction xs generalizing S cs tys with
  | nil =>
    obtain rfl := List.length_eq_zero_iff.1 hlen
    exact .pure .nil
  | cons x xs ih =>
    cases tys with
    | nil => cases hlen
    | cons ty tys =>
      rw [List.map_cons, List.zip_cons_cons, List.mapM_cons] at hcs
      obtain ⟨c, hc, hcs⟩ := Option.bind_eq_some_iff.1 hcs
      obtain ⟨cs', hcs', hpure⟩ := Option.bind_eq_some_iff.1 hcs
      cases hpure
      refine (Conversion.apply_proceeds hc (hxs x List.mem_cons_self)).bind fun S₁ v h₁ hv => ?_
      refine (ih (Nat.succ.inj hlen) hcs' fun y hy =>
        (hxs y (List.mem_cons_of_mem _ hy)).leads h₁).bind fun S₂ vs h₂ hvs => ?_
      exact .pure (.cons (hv.leads h₂) hvs)

/-! ## Overloads -/

namespace Functions

variable {t : Functions} {types : TypeTable} {name : String} {args : List TypeId} {span : Span}
  {chosen : Candidate}

theorem best_mem {cs : List Candidate} (h : t.best types cs span = .ok chosen) : chosen ∈ cs := by
  unfold best at h
  split at h
  · cases h
  · split at h
    · rename_i c hc
      cases h
      have hmem : chosen ∈ cheapest cs := by simp [hc]
      unfold cheapest at hmem
      split at hmem
      · cases hmem
      · exact (List.mem_filter.1 (List.mem_filter.1 hmem).1).1
    · cases h

/-- The chosen function takes the arguments. -/
theorem resolve_eq_ok (h : t.resolve types options name args span = .ok chosen) :
    ∃ e, t.entries[chosen.entry]? = some e ∧ e.prototype.paramTypes.length = args.length ∧
      ((e.prototype.paramTypes.zip args).mapM fun p => Conversion.find? p.2 p.1 options) =
        some chosen.conversions := by
  have hmem : chosen ∈ t.viable options name args := by
    unfold resolve at h
    split at h
    · cases h
    · split at h
      · cases h
      · exact best_mem h
  -- A viable candidate comes from an entry, with a conversion for each of its parameters.
  unfold viable at hmem
  obtain ⟨⟨e, id⟩, hover, hcand⟩ := List.mem_filterMap.1 hmem
  rw [overloads_eq] at hover
  have hentry := (List.mem_zipIdx_iff_getElem?).1 (List.mem_filter.1 hover).1
  have hcand : candidate? options args e id = some chosen := hcand
  unfold candidate? at hcand
  split at hcand
  · rename_i hlen
    obtain ⟨cs, hcs, hpure⟩ := Option.bind_eq_some_iff.1 hcand
    cases hpure
    exact ⟨e, hentry, by simpa [Prototype.paramTypes] using hlen, hcs⟩
  · cases hcand

end Functions

/-! ## Forms of expressions -/

/-- Arguments of the parameter types have the shapes that the function takes. -/
theorem Prototype.Shaped.hasTypes {p : Prototype} {sig : Signature} (h : p.Shaped sig) {H : Host}
    {vs : List Value} (hvs : List.Forall₂ (fun v ty => Typed.Fits H ⟨ty, v⟩) vs p.paramTypes) :
    List.Forall₂ H.HasType vs sig.params := by
  have hparams := h.params
  generalize p.paramTypes = tys at hvs hparams
  generalize sig.params = shapes at hparams
  induction hvs generalizing shapes with
  | nil =>
    cases hparams
    exact .nil
  | cons hv _ ih =>
    cases hparams with
    | cons hshape hrest =>
      obtain ⟨shape, hs, htype⟩ := hv
      rw [hshape, Except.ok.injEq] at hs
      exact .cons (hs ▸ htype) (ih _ hrest)

namespace Lower

variable {symbols : Symbols}

theorem literal_fits (H : Host) (v : Literal) : (literal v).typed.Fits H := by
  cases v with
  | bool b => exact .of_builtin (b := .bool) rfl rfl
  | int i => exact .of_builtin (b := .int) rfl rfl
  | float x => exact .of_builtin (b := .float) rfl rfl

/-- A variable that is found has a slot. -/
theorem slot_fits (hS : S.Knows symbols) {name : String} {slot : Slot}
    (h : symbols.scopes.resolve name span = .ok slot) : slot.Fits S.host :=
  hS.slots slot (Scopes.mem_flatten_of_lookup? (Scopes.resolve_eq_ok h))

theorem readVar_proceeds (hS : S.Knows symbols) (x : Ident) :
    Emit.Proceeds (readVar symbols x) S fun S' y => y.typed.Fits S'.host := by
  refine .ofExcept (r := symbols.scopes.resolve x.name x.span)
    (fun e he => Fault.ofProgram_of_kind (by simp [Scopes.resolve_error he])) fun slot hslot => ?_
  obtain ⟨shape, hshape, hptr⟩ := slot_fits hS hslot
  exact Proceeds.answer ((Build.load_proceeds hptr).lift.mono fun _ _ _ hv => ⟨shape, hshape, hv⟩)

/-- If the first operand does not have the operator, the second one is asked
    from the same site. -/
theorem applyBinary_proceeds {l r : Typed} (hl : l.Fits S.host) (hr : r.Fits S.host) :
    Emit.Proceeds (applyBinary .builtins op l r) S fun S' z => z.Fits S'.host := by
  refine hl.resolve fun b hb => ?_
  intro hS
  refine Act.meets_tryCatch.2 ?_
  -- The type of the left operand either has no such operator or cannot fail.
  rcases b.binary_decides op hl hr hb with ⟨e, he, hrun⟩ | hproceeds
  · refine Act.meets_of_run (fun z t hok => absurd ((hrun _).symm.trans hok) nofun) fun e' t herr => ?_
    rw [hrun] at herr
    cases herr
    -- If the right operand is not asked, the fault of the left one stands.
    have hagain : (throw e : Emit Typed).Meets S.builder (fun z b => ∃ S' : Site func,
        S'.builder = b ∧ S.Leads S' ∧ S'.Ready ∧ z.Fits S'.host)
        fun e b => e.OfProgram ∧ b.module.Runtime := ⟨he, hS.runtime⟩
    split
    · split
      · refine hr.resolve (fun c hc => ?_) hS
        intro hS
        refine Act.meets_mapError.2 (((c.binary_decides _ hr hl hc).proceeds hS).mono
          (fun _ _ h => h) fun _ _ h => ⟨he, h.2⟩)
      · exact hagain
    · exact hagain
  · exact (hproceeds hS).mono (fun _ _ h => h) fun _ _ h => h.1.elim

/-- An operand of a logical operator must be a boolean. -/
theorem requireBool_proceeds {β : Type} {env : Env} {x : ExprValue} {k : Unit → Emit β}
    {b : Builder} {Q : β → Builder → Prop} (hrun : b.module.Runtime)
    (hk : x.ty = Builtin.bool.id → (k ()).Meets b Q fun e b => e.OfProgram ∧ b.module.Runtime) :
    (requireBool env op span x >>= k).Meets b Q fun e b => e.OfProgram ∧ b.module.Runtime := by
  refine Act.meets_bind.2 (Act.meets_refuseIf.2
    ⟨fun _ => ⟨Fault.ofProgram_of_kind nofun, hrun⟩, fun h => ?_⟩)
  exact hk (not_not.1 h)

/-- The second operand of a logical operator is computed in a block of its
    own, and the join stays open meanwhile. -/
theorem logical_proceeds {env : Env} {left right : Emit ExprValue}
    {Q R : Host → Nat → ExprValue → Code → Nat → Prop} (hleft : EmitsCode left Q)
    (hright : EmitsCode right R) (hl : Emit.Proceeds left S fun S' x => x.typed.Fits S'.host)
    (hr : ∀ S', S.Leads S' → Emit.Proceeds right S' fun S'' y => y.typed.Fits S''.host) :
    Emit.Proceeds (logical env op span left right) S fun S' z => z.typed.Fits S'.host := by
  intro hS
  have hruntime : (logical env op span left right).Meets S.builder (fun _ b => b.module.Runtime)
      fun e b => e.OfProgram ∧ b.module.Runtime := by
    refine (hl hS).bind fun x b hb => ?_
    obtain ⟨S₁, rfl, h₁, hready₁, hx⟩ := hb
    refine requireBool_proceeds hready₁.runtime fun hxty => ?_
    refine Emit.meets_step (Build.currentFunction_at S₁) ?_
    refine Emit.meets_step (Build.currentBlock_at S₁) ?_
    have hlabels : ∀ b : Bool, (if b then "and.rhs" else "or.rhs") ∈ Build.labels ∧
        (if b then "and.end" else "or.end") ∈ Build.labels := by decide
    obtain ⟨S₂, hrun₂, happ₂, hrt₂⟩ :=
      (Appended.refl S₁).append_at hready₁.runtime _ (hlabels (op == .and)).1
    refine Emit.meets_step hrun₂ ?_
    obtain ⟨S₃, hrun₃, happ₃, hrt₃⟩ := happ₂.append_at hrt₂ _ (hlabels (op == .and)).2
    refine Emit.meets_step hrun₃ ?_
    obtain ⟨S₄, hrun₄, hfork, hrt₄⟩ := happ₃.condBr_at hready₁ hrt₃ (hx.hasType hxty rfl)
      (a := if (op == .and) = true then S₁.body.blocks.length + 0 else S₁.body.blocks.length + 1)
      (b := if (op == .and) = true then S₁.body.blocks.length + 1 else S₁.body.blocks.length + 0)
      (by split <;> simp) (by split <;> simp)
    refine Emit.meets_step hrun₄ ?_
    -- The second operand starts in the first of the two new blocks.
    have hin : S₁.body.blocks.length + 0 < S₄.body.blocks.length := by
      rw [hfork.length]
      omega
    have hin' : S₁.body.blocks.length + 1 < S₄.body.blocks.length := by
      rw [hfork.length]
      omega
    obtain ⟨h₅, hready₅⟩ := hfork.enter hready₁ hrt₄ (Nat.le_add_right _ 0) hin
    refine Emit.meets_step (a := ()) (b := (S₄.moveTo _ hin).builder) rfl ?_
    refine (hr _ (h₁.trans h₅) hready₅).bind fun y b hb => ?_
    obtain ⟨S₆, rfl, h₆, hready₆, hy⟩ := hb
    refine requireBool_proceeds hready₆.runtime fun hyty => ?_
    refine Emit.meets_step (Build.currentBlock_at S₆) ?_
    refine Emit.meets_step (Build.emitVoid_at hready₆.isOpen _) ?_
    -- Nobody has written to the join.
    have hempty : S₆.body.blockIds (S₁.body.blocks.length + 1) = [] := by
      rw [h₆.grown.edits.blockIds_old hin' (Nat.ne_of_gt (Nat.lt_succ_self _)) (Nat.succ_ne_zero _)]
      exact hfork.empty _ (Nat.le_succ _)
    have hne : S₁.body.blocks.length + 1 ≠ S₆.block := by
      rcases h₆.home with h | h
      · rw [h]
        exact Nat.ne_of_gt (Nat.lt_succ_self _)
      · exact Nat.ne_of_lt (Nat.lt_of_lt_of_le hin' h)
    have hin₇ : S₁.body.blocks.length + 1 < (S₆.push
        ⟨.br (S₁.body.blocks.length + 1), .void, none⟩).body.blocks.length := by
      rw [S₆.push_blocks_length]
      exact Nat.lt_of_lt_of_le hin' h₆.grown.blocks_le
    refine Emit.meets_step (a := ()) (b := (Site.moveTo _ _ hin₇).builder) rfl ?_
    have hopen₈ : (Site.moveTo _ _ hin₇).Open := by
      refine Site.open_of_empty rfl ?_
      show (S₆.body.pushInst S₆.block _).blockIds (S₁.body.blocks.length + 1) = []
      rw [Function.pushInst_blockIds_ne hne, hempty]
    have hy₈ : (Site.moveTo _ _ hin₇).host.HasType y.value .bool :=
      Host.Completes.hasType (S := S₆) ⟨S₆.push_grows rfl, (Site.moveTo _ _ hin₇).found⟩
        (hy.hasType hyty rfl)
    refine Emit.meets_step (Build.phi_at hopen₈ fun q hq => ?_) ?_
    · rcases List.mem_cons.1 hq with rfl | hq
      · rfl
      · obtain rfl := List.mem_singleton.1 hq
        exact hy₈
    · exact Site.push_runtime (S := Site.moveTo _ _ hin₇) (Site.push_runtime hready₆.runtime _) _
  refine Act.meets_of_run (fun z b hrun => ?_) fun e b hrun => hruntime.of_error hrun
  obtain ⟨S', T, rfl, he, hT, hz⟩ :=
    logical_emits hleft hright func none S hS.isOpen hS.sound z b hrun
  obtain ⟨x, y, Ta, Tb, m₁, m₂, m₃, id, -, rfl, -, -, -, -, -, -, -, hid⟩ := hz _ (.self S')
  have hleads := Site.Leads.of_emitted he
  exact ⟨S', rfl, hleads, hleads.ready hS (he.ends.trans hT) (hruntime.of_ok hrun),
    .of_builtin (b := .bool) rfl hid⟩

/-- What is stored in a variable has its type. -/
theorem assign_proceeds {target : Ident} {value : Emit ExprValue} (hS : S.Knows symbols)
    (hvalue : Emit.Proceeds value S fun S' x => x.typed.Fits S'.host) :
    Emit.Proceeds (assign ⟨.builtins, options⟩ symbols target span value) S
      fun S' z => z.typed.Fits S'.host := by
  rw [assign_eq]
  refine .ofExcept (fun e he => Fault.ofProgram_of_kind (by simp [Scopes.resolve_error he]))
    fun slot hslot => ?_
  have hfits := slot_fits hS hslot
  refine hvalue.bind fun S₁ y h₁ hy => ?_
  refine (coerce_proceeds hy).bind fun S₂ z h₂ hz => ?_
  refine (Lifetime.materialize_proceeds hz.2).bind fun S₃ v h₃ hv => ?_
  -- The variable keeps its shape through all that is emitted in between.
  have hfits₃ := ((hfits.leads h₁).leads h₂).leads h₃
  refine (Lifetime.destroySlot_proceeds hfits₃).bind fun S₄ _ h₄ _ => ?_
  obtain ⟨shape, hshape, hptr⟩ := hfits₃.leads h₄
  rw [hz.1] at hv
  have hv₄ : Typed.Fits S₄.host ⟨slot.ty, v⟩ := hv.leads h₄
  obtain ⟨shape', hshape', htype⟩ := hv₄
  rw [hshape, Except.ok.injEq] at hshape'
  subst hshape'
  refine (Build.store_proceeds htype hptr).lift.bind fun S₅ _ h₅ _ => ?_
  exact .pure ⟨shape, hshape, h₅.hasType htype⟩

theorem call_proceeds {callee : Ident} {args : Emit (List ExprValue)} (hS : S.Knows symbols)
    (hargs : Emit.Proceeds args S fun S' xs => ∀ x ∈ xs, x.typed.Fits S'.host) :
    Emit.Proceeds (call ⟨.builtins, options⟩ symbols callee span args) S
      fun S' z => z.typed.Fits S'.host := by
  refine hargs.bind fun S₁ xs h₁ hxs => ?_
  refine .ofExcept (r := symbols.functions.resolve .builtins options callee.name (xs.map (·.ty)) span)
    (fun e he => Fault.ofProgram_of_kind (e := e) (by simp [Functions.resolve_error he]))
    fun chosen hchosen => ?_
  obtain ⟨e, hentry, hlen, hcs⟩ := Functions.resolve_eq_ok hchosen
  -- A call that has been resolved names an entry of the table.
  have hread : symbols.functions.entry chosen.entry = .ok e := Functions.entry_eq_ok.2 hentry
  refine .ofExcept (r := symbols.functions.entry chosen.entry)
    (fun _ he => absurd (hread.symm.trans he) nofun) fun e' he' => ?_
  rw [hread, Except.ok.injEq] at he'
  subst he'
  rw [List.length_map] at hlen
  refine (convertArgs_proceeds hlen hcs hxs).bind fun S₂ vs h₂ hvs => ?_
  -- The function behind the entry has the shapes of its prototype.
  obtain ⟨name, sig, hd, hshaped⟩ :=
    ((hS.leads h₁).leads h₂).functions e (List.mem_of_getElem? hentry)
  refine (Build.call_proceeds hd (hshaped.hasTypes hvs)).lift.bind fun S₃ v h₃ hv => ?_
  have hxs₃ : ∀ x ∈ xs, x.typed.Fits S₃.host := fun x hx => ((hxs x hx).leads h₂).leads h₃
  refine (Lifetime.releaseAll_proceeds hxs₃).bind fun S₄ _ h₄ _ => ?_
  exact .pure ⟨sig.ret, hshaped.ret, h₄.hasType hv⟩

theorem construct_proceeds {ty : TypeName} {args : Emit (List ExprValue)}
    (hargs : Emit.Proceeds args S fun S' xs => ∀ x ∈ xs, x.typed.Fits S'.host) :
    Emit.Proceeds (construct ⟨.builtins, options⟩ ty span args) S
      fun S' z => z.typed.Fits S'.host := by
  refine .ofExcept (r := TypeTable.builtins.resolveName ty.name ty.span)
    (fun e he => Fault.ofProgram_of_kind (by simp [TypeTable.resolveName_error he])) fun id hid => ?_
  obtain ⟨b, hb⟩ := TypeTable.builtins_resolveName_eq_ok hid
  refine hargs.bind fun S₁ xs h₁ hxs => resolve_proceeds hb ?_
  have htyped : ∀ x ∈ xs.map (·.typed), x.Fits S₁.host := fun x hx => by
    obtain ⟨y, hy, rfl⟩ := List.mem_map.1 hx
    exact hxs y hy
  refine ((b.construct_proceeds htyped).located span).bind fun S₂ z h₂ hz => ?_
  have hxs₂ : ∀ x ∈ xs, x.typed.Fits S₂.host := fun x hx => (hxs x hx).leads h₂
  refine (Lifetime.releaseAll_proceeds hxs₂).bind fun S₃ _ h₃ _ => ?_
  exact .pure (hz.leads h₃)

theorem unary_proceeds {op : UnaryOp} {operand : Emit ExprValue}
    (hoperand : Emit.Proceeds operand S fun S' x => x.typed.Fits S'.host) :
    Emit.Proceeds (unary ⟨.builtins, options⟩ op span operand) S
      fun S' z => z.typed.Fits S'.host := by
  refine hoperand.bind fun S₁ x h₁ hx => hx.resolve fun b hb => ?_
  refine ((b.unary_proceeds hx hb).located span).bind fun S₂ z h₂ hz => ?_
  refine (Lifetime.release_proceeds (hx.leads h₂)).bind fun S₃ _ h₃ _ => ?_
  exact .pure (hz.leads h₃)

theorem binary_proceeds {left right : Emit ExprValue}
    (hl : Emit.Proceeds left S fun S' x => x.typed.Fits S'.host)
    (hr : ∀ S', S.Leads S' → Emit.Proceeds right S' fun S'' y => y.typed.Fits S''.host) :
    Emit.Proceeds (binary ⟨.builtins, options⟩ op span left right) S
      fun S' z => z.typed.Fits S'.host := by
  refine hl.bind fun S₁ x h₁ hx => (hr S₁ h₁).bind fun S₂ y h₂ hy => ?_
  refine ((applyBinary_proceeds (hx.leads h₂) hy).located span).bind fun S₃ z h₃ hz => ?_
  refine (Lifetime.release_proceeds ((hx.leads h₂).leads h₃)).bind fun S₄ _ h₄ _ => ?_
  refine (Lifetime.release_proceeds ((hy.leads h₃).leads h₄)).bind fun S₅ _ h₅ _ => ?_
  exact .pure ((hz.leads h₄).leads h₅)

end Lower

/-! ## The tree -/

section

variable (options : Options) (symbols : Symbols)

mutual

/-- The lowering of an expression emits fitting instructions and gets to a
    value with the shape of its type, or the program is at fault. -/
theorem Expr.lower_proceeds : (e : Expr) → (S : Site func) → S.Knows symbols →
    Emit.Proceeds (e.lower ⟨.builtins, options⟩ symbols) S fun S' x => x.typed.Fits S'.host
  | .literal v _, S, _ => .pure (Lower.literal_fits S.host v)
  | .var x, _, hS => Lower.readVar_proceeds hS x
  | .unary _ e _, S, hS => Lower.unary_proceeds (Expr.lower_proceeds e S hS)
  | .binary op a b span, S, hS => by
    unfold Expr.lower
    by_cases hlog : op.isLogical = true
    · rw [if_pos hlog]
      exact Lower.logical_proceeds (Expr.lower_compiles options symbols a)
        (Expr.lower_compiles options symbols b) (Expr.lower_proceeds a S hS)
        fun S' h => Expr.lower_proceeds b S' (hS.leads h)
    · rw [if_neg hlog]
      exact Lower.binary_proceeds (Expr.lower_proceeds a S hS)
        fun S' h => Expr.lower_proceeds b S' (hS.leads h)
  | .assign _ e _, S, hS => Lower.assign_proceeds hS (Expr.lower_proceeds e S hS)
  | .call _ args _, S, hS => Lower.call_proceeds hS (Expr.lowerAll_proceeds args S hS)
  | .construct _ args _, S, hS => Lower.construct_proceeds (Expr.lowerAll_proceeds args S hS)

theorem Expr.lowerAll_proceeds : (es : List Expr) → (S : Site func) → S.Knows symbols →
    Emit.Proceeds (Expr.lowerAll ⟨.builtins, options⟩ symbols es) S
      fun S' xs => ∀ x ∈ xs, x.typed.Fits S'.host
  | [], _, _ => .pure nofun
  | e :: es, S, hS => by
    refine (Expr.lower_proceeds e S hS).bind fun S₁ x h₁ hx => ?_
    refine (Expr.lowerAll_proceeds es S₁ (hS.leads h₁)).bind fun S₂ xs h₂ hxs => ?_
    refine .pure fun y hy => ?_
    rcases List.mem_cons.1 hy with rfl | hy
    · exact hx.leads h₂
    · exact hxs y hy

end

end

end Shading
