import Shading.Proofs.Fallback

/-! # The code of operators

    Which instructions operators, constructors, default values and
    conversions emit, over the built-in types.  On integers and booleans the
    instructions are given exactly; on other numbers and on vectors it is
    said from which operands they compute. -/

namespace Shading

open IR

/-! ## What is emitted -/

/-- A comparison; it is one of floats exactly if its left operand is a float. -/
def CompareLine (H : Host) (pred : CmpPred) (a b v : Value) (l : Lines) : Prop :=
  ∃ ty, H.HasType a ty ∧ Build.OneInst H (.cmp pred (ty == .f32) a b) .bool v l

/-- A binary operator that is not logical. -/
inductive BinaryLine (H : Host) (op : BinaryOp) (a b : Typed) : Typed → Lines → Prop
  | intArith {o : ArithOp} {ty : Ty} {v : Value} {l : Lines} (ha : a.ty = Builtin.int.id)
    (hb : b.ty = Builtin.int.id) (ho : op.intOp? = some o) (hty : H.HasType a.value ty)
    (hone : Build.OneInst H (.arith o a.value b.value) ty v l) :
    BinaryLine H op a b ⟨Builtin.int.id, v⟩ l
  | intCompare {pred : CmpPred} {v : Value} {l : Lines} (ha : a.ty = Builtin.int.id)
    (hb : b.ty = Builtin.int.id) (hp : op.predicate? = some pred)
    (hcmp : CompareLine H pred a.value b.value v l) :
    BinaryLine H op a b ⟨Builtin.bool.id, v⟩ l
  | boolCompare {pred : CmpPred} {v : Value} {l : Lines} (ha : a.ty = Builtin.bool.id)
    (hb : b.ty = Builtin.bool.id) (hp : op.predicate? = some pred)
    (heq : pred = .eq ∨ pred = .ne) (hcmp : CompareLine H pred a.value b.value v l) :
    BinaryLine H op a b ⟨Builtin.bool.id, v⟩ l
  | computed {r : Typed} {l : Lines} (hab : ¬ (a.ty.IsIntegral ∧ b.ty.IsIntegral))
    (hr : r.ty ≠ Builtin.dfunc.id) (hv : ∃ id, r.value = .inst id)
    (hc : Computes [a.value, b.value] l [r.value]) :
    BinaryLine H op a b r l
  | sum {v : Value} {l : Lines} (ha : a.ty = Builtin.dfunc.id) (hb : b.ty = Builtin.dfunc.id)
    (hcall : Build.OneCall H Distribution.addSymbol
      ⟨[Distribution.ty, Distribution.ty], Distribution.ty⟩ [a.value, b.value] v l) :
    BinaryLine H op a b ⟨Builtin.dfunc.id, v⟩ l
  /-- A distribution and a weight, in either order. -/
  | scaled {d n : Typed} {w v : Value} {l l' : Lines}
    (hab : d = a ∧ n = b ∨ d = b ∧ n = a) (hd : d.ty = Builtin.dfunc.id)
    (hn : n.ty.isNumeric = true) (hw : Computes [n.value] l [w])
    (hcall : Build.OneCall H Distribution.scaleSymbol
      ⟨[Distribution.ty, .f32], Distribution.ty⟩ [d.value, w] v l') :
    BinaryLine H op a b ⟨Builtin.dfunc.id, v⟩ (l ++ l')

/-- A unary operator. -/
inductive UnaryLine (H : Host) (op : UnaryOp) (x : Typed) : Typed → Lines → Prop
  | negInt {ty : Ty} {v : Value} {l : Lines} (hx : x.ty = Builtin.int.id) (hop : op = .neg)
    (hty : H.HasType x.value ty) (hone : Build.OneInst H (.neg x.value) ty v l) :
    UnaryLine H op x ⟨Builtin.int.id, v⟩ l
  | notBool {v : Value} {l : Lines} (hx : x.ty = Builtin.bool.id) (hop : op = .not)
    (hone : Build.OneInst H (.not x.value) .bool v l) :
    UnaryLine H op x ⟨Builtin.bool.id, v⟩ l
  | computed {r : Typed} {l : Lines} (hx : ¬ x.ty.IsIntegral) (hr : r.ty = x.ty)
    (hd : x.ty ≠ Builtin.dfunc.id) (hc : Computes [x.value] l [r.value]) : UnaryLine H op x r l

/-- A constructor. -/
inductive ConstructLine (H : Host) (args : List Typed) : Typed → Lines → Prop
  | computed {r : Typed} {l : Lines} (hr : r.ty ≠ Builtin.dfunc.id) (hi : ¬ r.ty.IsIntegral)
    (hc : Computes (args.map (·.value)) l [r.value]) : ConstructLine H args r l
  | create {shader context : Typed} {v : Value} {l : Lines} (hargs : args = [shader, context])
    (hs : shader.ty = Builtin.shaderHandle.id) (hc : context.ty = Builtin.contextPtr.id)
    (hcall : Build.OneCall H Distribution.createSymbol
      ⟨[.handle "shader", .handle "context"], Distribution.ty⟩ [shader.value, context.value] v l) :
    ConstructLine H args ⟨Builtin.dfunc.id, v⟩ l

/-- The value of a variable that is declared without one. -/
inductive DefaultLine (H : Host) (ty : TypeId) : Value → Lines → Prop
  | zero {t : Ty} (h : ty ≠ Builtin.dfunc.id) (ht : TypeTable.builtins.representation ty = .ok t) :
    DefaultLine H ty (.const (if t.isPointer then .null t else .zero t)) []
  | empty {v : Value} {l : Lines} (h : ty = Builtin.dfunc.id)
    (hcall : Build.OneCall H Distribution.emptySymbol ⟨[], Distribution.ty⟩ [] v l) :
    DefaultLine H ty v l

/-- A conversion. -/
inductive ConvertLine (H : Host) (v : Value) : Conversion → Value → Lines → Prop
  | identity : ConvertLine H v .identity v []
  | intToFloat {v' : Value} {l : Lines} (hone : Build.OneInst H (.cast .sitofp v) .f32 v' l) :
    ConvertLine H v .intToFloat v' l

/-- A value that its place expects to have a type. -/
inductive CoerceLine (H : Host) (x : ExprValue) (expected : TypeId) : ExprValue → Lines → Prop
  | same (h : x.ty = expected) : CoerceLine H x expected x []
  | toFloat {v : Value} {l : Lines} (hx : x.ty = Builtin.int.id)
    (he : expected = Builtin.float.id) (hone : Build.OneInst H (.cast .sitofp x.value) .f32 v l) :
    CoerceLine H x expected ⟨expected, v, true⟩ l

/-- Only a conversion to floats leaves code. -/
theorem CoerceLine.of_ne {H : Host} {x z : ExprValue} {expected : TypeId} {l : Lines}
    (h : CoerceLine H x expected z l) (he : expected ≠ Builtin.float.id) :
    x.ty = expected ∧ z = x ∧ l = [] := by
  cases h with
  | same h => exact ⟨h, rfl, rfl⟩
  | toFloat hx hf hone => exact absurd hf he

/-- The arguments of a call. -/
inductive ConvertLines (H : Host) : List ExprValue → List Conversion → List Value → Lines → Prop
  | nil {xs : List ExprValue} {cs : List Conversion} (h : xs = [] ∨ cs = []) :
    ConvertLines H xs cs [] []
  | cons {x : ExprValue} {xs : List ExprValue} {c : Conversion} {cs : List Conversion} {v : Value}
    {vs : List Value} {l l' : Lines} (h : ConvertLine H x.value c v l)
    (rest : ConvertLines H xs cs vs l') : ConvertLines H (x :: xs) (c :: cs) (v :: vs) (l ++ l')

/-! ## Numbers -/

/-- A number becomes a float by at most one pure instruction. -/
theorem Typed.promote_line (x : Typed) :
    EmitsLine x.promote fun _ v l => Computes [x.value] l [v] := by
  unfold Typed.promote
  by_cases hx : x.ty = Builtin.int.id
  · rw [if_pos hx]
    exact (Build.cast_line .sitofp x.value).lift.mono fun H v l h =>
      .one rfl (by simp [Op.operands]) h
  · rw [if_neg hx]
    refine (EmitsLine.pure x.value).mono fun H v l h => ?_
    obtain ⟨rfl, rfl⟩ := h
    exact .nil fun v hv => hv

theorem Typed.toFloat?_line (x : Typed) :
    EmitsLine x.toFloat? fun _ r l => (x.ty.isNumeric = true ∧ ∃ v, r = some v ∧
      Computes [x.value] l [v]) ∨ (x.ty.isNumeric = false ∧ r = none ∧ l = []) := by
  unfold Typed.toFloat?
  by_cases hx : x.ty.isNumeric = true
  · rw [if_pos hx]
    refine (EmitsLine.answer x.promote_line some).mono fun H r l h => ?_
    obtain ⟨v, rfl, hc⟩ := h
    exact .inl ⟨hx, v, rfl, hc⟩
  · rw [if_neg hx]
    refine (EmitsLine.pure _).mono fun H r l h => ?_
    obtain ⟨rfl, rfl⟩ := h
    exact .inr ⟨eq_false_of_ne_true hx, rfl, rfl⟩

/-- Two promoted operands in one instruction. -/
theorem promoted_computes {H : Host} {a b x y v : Value} {la lb l : Lines} {op : Op} {ty : Ty}
    (ha : Computes [a] la [x]) (hb : Computes [b] lb [y]) (hpure : op.isPure = true)
    (hops : op.operands = [x, y]) (hone : Build.OneInst H op ty v l) :
    Computes [a, b] (la ++ (lb ++ l)) [v] := by
  have ha' : Computes [a, b] la [x] := ha.mono (by simp) fun _ h => h
  have hb' : Computes ([x] ++ [a, b]) lb ([x] ++ [y]) :=
    (hb.mono (by simp) fun _ h => h).keep (by simp)
  exact ha'.append (hb'.append (.one hpure (by simp [hops]) hone))

variable {types : TypeTable}

/-- Of two numbers that are not both integers, one is a float. -/
theorem not_integral_of_promoted {a b : Typed}
    (hint : ¬ (a.ty = Builtin.int.id ∧ b.ty = Builtin.int.id)) (ha : a.ty.isNumeric = true)
    (hb : b.ty.isNumeric = true) : ¬ (a.ty.IsIntegral ∧ b.ty.IsIntegral) := by
  have nobool : ∀ t : TypeId, t.isNumeric = true → t ≠ Builtin.bool.id := by
    rintro t ht rfl
    rw [Builtin.isNumeric_iff] at ht
    simp at ht
  rintro ⟨ha' | ha', hb' | hb'⟩
  · exact hint ⟨ha', hb'⟩
  · exact nobool _ hb hb'
  · exact nobool _ ha ha'
  · exact nobool _ ha ha'

/-- Arithmetic on numbers: on integers as they are, on all others as floats. -/
theorem numericArith_line (op : BinaryOp) (a b : Typed) :
    EmitsLine (numericArith types op a b) fun H r l => BinaryLine H op a b r l := by
  unfold numericArith
  -- Two integers are computed as integers; a single one is promoted.
  by_cases hint : a.ty = Builtin.int.id ∧ b.ty = Builtin.int.id
  · rw [if_pos hint]
    cases ho : op.intOp? with
    | none => exact EmitsLine.throw _ _
    | some o =>
      refine (EmitsLine.answer (Build.arith_line o a.value b.value).lift _).mono fun H r l h => ?_
      obtain ⟨v, rfl, ty, hty, hone⟩ := h
      exact .intArith hint.1 hint.2 ho hty hone
  · rw [if_neg hint]
    by_cases hnum : a.ty.isNumeric = true ∧ b.ty.isNumeric = true
    · rw [if_pos hnum]
      cases ho : op.floatOp? with
      | none => exact EmitsLine.throw _ _
      | some o =>
        refine (EmitsLine.bind a.promote_line fun x => EmitsLine.bind b.promote_line fun y =>
          EmitsLine.answer (Build.arith_line o x y).lift _).mono fun H r l h => ?_
        obtain ⟨x, l₁, _, rfl, hx, y, l₂, l₃, rfl, hy, v, rfl, ty, -, hone⟩ := h
        exact .computed (not_integral_of_promoted hint hnum.1 hnum.2) (by simp) hone.isInst
          (promoted_computes hx hy rfl rfl hone)
    · rw [if_neg hnum]
      exact EmitsLine.throw _ _

/-- Numbers are compared as integers if both are, and else as floats. -/
theorem numericCompare_line (op : BinaryOp) (a b : Typed) :
    EmitsLine (numericCompare types op a b) fun H r l => BinaryLine H op a b r l := by
  unfold numericCompare
  cases hp : op.predicate? with
  | none => exact EmitsLine.throw _ _
  | some pred =>
    -- Two integers are compared as integers; a single one is promoted.
    by_cases hint : a.ty = Builtin.int.id ∧ b.ty = Builtin.int.id
    · simp only [if_pos hint]
      refine (EmitsLine.answer (Build.cmp_line pred a.value b.value).lift _).mono
        fun H r l h => ?_
      obtain ⟨v, rfl, hcmp⟩ := h
      exact .intCompare hint.1 hint.2 hp hcmp
    · simp only [if_neg hint]
      by_cases hnum : a.ty.isNumeric = true ∧ b.ty.isNumeric = true
      · simp only [if_pos hnum]
        refine (EmitsLine.bind a.promote_line fun x => EmitsLine.bind b.promote_line fun y =>
          EmitsLine.answer (Build.cmp_line pred x y).lift _).mono fun H r l h => ?_
        obtain ⟨x, l₁, _, rfl, hx, y, l₂, l₃, rfl, hy, v, rfl, ty, -, hone⟩ := h
        exact .computed (not_integral_of_promoted hint hnum.1 hnum.2) (by simp) hone.isInst
          (promoted_computes hx hy rfl rfl hone)
      · simp only [if_neg hnum]
        exact EmitsLine.throw _ _

/-- Truth values can be compared for equality alone. -/
theorem boolCompare_line (op : BinaryOp) (a b : Typed) (ha : a.ty = Builtin.bool.id) :
    EmitsLine (boolCompare types op a b) fun H r l => BinaryLine H op a b r l := by
  -- Two of the operators compare; the others are refused whatever the operands are.
  have equality : ∀ pred, op.predicate? = some pred → (pred = .eq ∨ pred = .ne) →
      EmitsLine (do
        Act.refuseIf (b.ty ≠ Builtin.bool.id) (noOperator types op a b)
        let v ← (liftM (Build.cmp pred a.value b.value) : Emit Value)
        Pure.pure (⟨Builtin.bool.id, v⟩ : Typed))
        fun H r l => BinaryLine H op a b r l := by
    intro pred hp heq
    refine (EmitsLine.after (EmitsLine.refuseIf _ _) fun _ =>
      EmitsLine.answer (Build.cmp_line pred a.value b.value).lift _).mono fun H r l h => ?_
    obtain ⟨_, hb, v, rfl, hcmp⟩ := h
    exact .boolCompare ha (not_not.1 hb) hp heq hcmp
  cases op with
  | eq => exact equality .eq rfl (.inl rfl)
  | ne => exact equality .ne rfl (.inr rfl)
  | _ => exact EmitsLine.throw _ _

/-! ## Vectors -/

/-- A vector is combined with a vector, or with a scalar in every lane. -/
theorem vectorArith_line {b : Builtin} (hb : b ≠ .int ∧ b ≠ .bool ∧ b ≠ .dfunc) (width : UInt8)
    (op : BinaryOp) (o : ArithOp) (allowScalar : Bool) (x y : Typed) (hx : x.ty = b.id) :
    EmitsLine (vectorArith types b.descriptor width op o allowScalar x y)
      fun H r l => BinaryLine H op x y r l := by
  -- A vector is neither an integer nor a distribution, so the line only computes.
  have hxy : ¬ (x.ty.IsIntegral ∧ y.ty.IsIntegral) := by
    rw [hx, b.isIntegral_iff]
    rintro ⟨h | h, -⟩
    · exact hb.1 h
    · exact hb.2.1 h
  have hres : ∀ v : Value, (⟨b.id, v⟩ : Typed).ty ≠ Builtin.dfunc.id := by
    intro v h
    exact hb.2.2 (Builtin.id_injective h)
  unfold vectorArith
  rw [Builtin.descriptor_id]
  by_cases hy : y.ty = b.id
  · rw [if_pos hy]
    refine (EmitsLine.answer (Build.arith_line o x.value y.value).lift _).mono fun H r l h => ?_
    obtain ⟨v, rfl, ty, -, hone⟩ := h
    exact .computed hxy (hres v) hone.isInst (.one rfl (by simp [Op.operands]) hone)
  · rw [if_neg hy]
    by_cases hs : allowScalar = true ∧ y.ty.isNumeric = true
    · rw [if_pos hs]
      refine (EmitsLine.bind y.promote_line fun s => EmitsLine.bind (Build.splat_line s width).lift
        fun w => EmitsLine.answer (Build.arith_line o x.value w).lift _).mono fun H r l h => ?_
      obtain ⟨s, l₁, _, rfl, hs, w, l₂, l₃, rfl, hw, v, rfl, ty, -, hone⟩ := h
      refine .computed hxy (hres v) hone.isInst ?_
      -- The scalar is promoted, spread over the lanes and then combined.
      have hs' : Computes [x.value, y.value] l₁ [s] := hs.mono (by simp) fun _ h => h
      have hw' : Computes ([s] ++ [x.value, y.value]) l₂ [w] :=
        .one rfl (by simp [Op.operands]) hw
      exact hs'.append (hw'.append (.one rfl (by simp [Op.operands]) hone))
    · rw [if_neg hs]
      exact EmitsLine.throw _ _

/-- The lanes of a vector are computed from the arguments alone. -/
theorem vectorLanes_line (d : Descriptor) (args : List Typed) :
    EmitsLine (vectorLanes types d args) fun _ lanes l =>
      Computes (args.map (·.value)) l lanes := by
  unfold vectorLanes
  -- By induction on the arguments: each one is turned into a lane, beside those before it.
  induction args with
  | nil =>
    refine (EmitsLine.pure _).mono fun H lanes l h => ?_
    obtain ⟨rfl, rfl⟩ := h
    exact .nil fun v hv => hv
  | cons arg rest ih =>
    rw [List.mapM_cons]
    refine (EmitsLine.bind (EmitsLine.bind arg.toFloat?_line
      (R := fun r _ v l => r = some v ∧ l = []) fun r => ?_) fun v =>
        EmitsLine.answer ih _).mono fun H lanes l h => ?_
    · cases r with
      | none => exact EmitsLine.throw _ _
      | some lane => exact (EmitsLine.pure lane).mono fun H v l h => ⟨by rw [h.1], h.2⟩
    obtain ⟨v, l₁, l₂, rfl, ⟨r, l₃, l₄, rfl, hr, rfl, rfl⟩, vs, rfl, hvs⟩ := h
    have hv : Computes [arg.value] (l₃ ++ []) [v] := by
      rw [List.append_nil]
      rcases hr with ⟨-, v', hv', hc⟩ | ⟨-, hnone, -⟩
      · cases hv'
        exact hc
      · cases hnone
    have hv' : Computes ((arg :: rest).map (·.value)) (l₃ ++ []) [v] :=
      hv.mono (by simp) fun _ h => h
    have hvs' : Computes ([v] ++ (arg :: rest).map (·.value)) l₂ vs := by
      refine hvs.mono (fun w hw => ?_) fun _ h => h
      simp only [List.map_cons, List.cons_append, List.nil_append, List.mem_cons]
      exact .inr (.inr hw)
    have hkept : ∀ w ∈ [v], w ∈ [v] ++ (arg :: rest).map (·.value) :=
      fun _ hw => List.mem_append_left _ hw
    exact hv'.append (hvs'.keep hkept)

theorem vectorConstruct_line {b : Builtin} (hb : b ≠ .int ∧ b ≠ .bool ∧ b ≠ .dfunc)
    (width : UInt8) (args : List Typed) :
    EmitsLine (vectorConstruct types b.descriptor width args)
      fun H r l => ConstructLine H args r l := by
  have hres : ∀ (H : Host) (v : Value) (l : Lines), Computes (args.map (·.value)) l [v] →
      ConstructLine H args ⟨b.id, v⟩ l := by
    intro H v l hc
    refine .computed (fun h => hb.2.2 (Builtin.id_injective h)) ?_ hc
    rw [b.isIntegral_iff]
    rintro (h | h)
    · exact hb.1 h
    · exact hb.2.1 h
  -- A single lane is spread; otherwise there has to be one lane for each component.
  refine (EmitsLine.bind (vectorLanes_line b.descriptor args)
    (R := fun lanes H r l => r.ty = b.id ∧ Computes lanes l [r.value]) fun lanes => ?_).mono
    fun H r l h => ?_
  · have vector : EmitsLine (if lanes.length = width.toNat then do
          let v ← (liftM (Build.vector lanes) : Emit Value)
          Pure.pure (⟨b.descriptor.id, v⟩ : Typed)
        else throw (Cause.typeMismatch
          s!"{b.descriptor.name} expects {width.toNat} components, got {lanes.length}").unplaced)
        fun H r l => r.ty = b.id ∧ Computes lanes l [r.value] := by
      by_cases hlen : lanes.length = width.toNat
      · rw [if_pos hlen]
        refine (EmitsLine.answer (Build.vector_line lanes).lift _).mono fun H r l h => ?_
        obtain ⟨v, rfl, ty, hone⟩ := h
        exact ⟨b.descriptor_id, .one rfl (by simp [Op.operands]) hone⟩
      · rw [if_neg hlen]
        exact EmitsLine.throw _ _
    match lanes, vector with
    | [lane], _ =>
      refine (EmitsLine.answer (Build.splat_line lane width).lift _).mono fun H r l h => ?_
      obtain ⟨v, rfl, hone⟩ := h
      exact ⟨b.descriptor_id, .one rfl (by simp [Op.operands]) hone⟩
    | [], vector => exact vector
    | _ :: _ :: _, vector => exact vector
  · obtain ⟨lanes, l₁, l₂, rfl, h₁, hty, h₂⟩ := h
    obtain ⟨ty, v⟩ := r
    obtain rfl : ty = b.id := hty
    refine hres H v _ (h₁.append (h₂.mono (fun w hw => ?_) fun _ h => h))
    exact List.mem_append_left _ hw

/-! ## Distributions -/

namespace Distribution

theorem construct_line (args : List Typed) :
    EmitsLine (construct .builtins args) fun H r l => ConstructLine H args r l := by
  -- Only a pair makes a distribution.
  match args with
  | [shader, context] =>
    refine (EmitsLine.after (EmitsLine.refuseIf _ _) fun _ =>
      EmitsLine.after (EmitsLine.ofExcept (TypeTable.builtins.representation _)) fun s =>
      EmitsLine.after (EmitsLine.ofExcept (TypeTable.builtins.representation _)) fun c =>
      EmitsLine.answer (Emit.callIntrinsic_line createSymbol [s, c] ty
        [shader.value, context.value]) typed).mono fun H r l h => ?_
    obtain ⟨_, hty, s, hs, c, hc, v, rfl, hcall⟩ := h
    rw [TypeTable.builtins_representation] at hs hc
    cases hs
    cases hc
    rw [not_or, not_not, not_not] at hty
    exact .create rfl hty.1 hty.2 hcall
  | [] => exact EmitsLine.throw _ _
  | [_] => exact EmitsLine.throw _ _
  | _ :: _ :: _ :: _ => exact EmitsLine.throw _ _

theorem add_line (op : BinaryOp) (a b : Typed) (ha : a.ty = Builtin.dfunc.id) :
    EmitsLine (add types a b) fun H r l => BinaryLine H op a b r l := by
  refine (EmitsLine.after (EmitsLine.refuseIf _ _) fun _ => EmitsLine.answer
    (Emit.callIntrinsic_line _ _ _ _) typed).mono fun H r l h => ?_
  obtain ⟨_, hb, v, rfl, hcall⟩ := h
  exact .sum ha (not_not.1 hb) hcall

/-- Scaling converts the number and calls the runtime once. -/
theorem scale_line (d n : Typed) :
    EmitsLine (scale types d n) fun H r l => ∃ w v l₁ l₂, r = ⟨Builtin.dfunc.id, v⟩ ∧
      l = l₁ ++ l₂ ∧ n.ty.isNumeric = true ∧ Computes [n.value] l₁ [w] ∧
      Build.OneCall H scaleSymbol ⟨[ty, .f32], ty⟩ [d.value, w] v l₂ := by
  refine (EmitsLine.bind n.toFloat?_line
    (R := fun r H x l => ∃ w v, r = some w ∧ x = ⟨Builtin.dfunc.id, v⟩ ∧
      Build.OneCall H scaleSymbol ⟨[ty, .f32], ty⟩ [d.value, w] v l) fun r => ?_).mono
    fun H x l h => ?_
  -- What is no number is refused in front of the call.
  · cases r with
    | none => exact EmitsLine.throw _ _
    | some w =>
      refine (EmitsLine.answer (Emit.callIntrinsic_line _ _ _ _) typed).mono fun H x l h => ?_
      obtain ⟨v, rfl, hcall⟩ := h
      exact ⟨w, v, rfl, rfl, hcall⟩
  · obtain ⟨r, l₁, l₂, rfl, hr, w, v, rfl, rfl, hcall⟩ := h
    rcases hr with ⟨hn, w', hw, hc⟩ | ⟨-, hnone, -⟩
    · cases hw
      exact ⟨w, v, l₁, l₂, rfl, rfl, hn, hc, hcall⟩
    · cases hnone

end Distribution

/-! ## The hooks of a type -/

namespace Builtin

theorem construct_line (b : Builtin) (args : List Typed) :
    EmitsLine (b.descriptor.construct .builtins args) fun H r l => ConstructLine H args r l := by
  cases b with
  | float2 => exact vectorConstruct_line (by decide) 2 args
  | float3 => exact vectorConstruct_line (by decide) 3 args
  | float4 => exact vectorConstruct_line (by decide) 4 args
  | dfunc => exact Distribution.construct_line args
  | _ => exact EmitsLine.throw _ _

/-- A value without an initializer is the zero of its type or is made by a call. -/
theorem defaultValue_line (b : Builtin) :
    EmitsLine b.descriptor.defaultValue fun H r l => DefaultLine H b.id r.value l := by
  have zero : ∀ t : Ty, b ≠ .dfunc → b.repr = some t →
      EmitsLine (Pure.pure (⟨b.id, .const (if t.isPointer then .null t else .zero t)⟩ : Typed) :
        Emit Typed) fun H r l => DefaultLine H b.id r.value l := by
    intro t hb ht
    refine (EmitsLine.pure _).mono fun H r l h => ?_
    obtain ⟨rfl, rfl⟩ := h
    exact .zero (fun h => hb (id_injective h)) ((TypeTable.builtins_representation b).2 ht)
  -- A distribution has to be made; any other value is the zero of its representation.
  cases b with
  | void => exact EmitsLine.throw _ _
  | module => exact EmitsLine.throw _ _
  | dfunc =>
    refine (EmitsLine.answer (Emit.callIntrinsic_line _ _ _ _) Distribution.typed).mono
      fun H r l h => ?_
    obtain ⟨v, rfl, hcall⟩ := h
    exact .empty rfl hcall
  | _ => exact zero _ (by decide) rfl

/-- What a unary operator of a builtin type leaves behind. -/
theorem unary_line (b : Builtin) (op : UnaryOp) (x : Typed) (hx : x.ty = b.id) :
    EmitsLine (b.descriptor.unary .builtins op x) fun H r l => UnaryLine H op x r l := by
  -- All types with a sign but `int` are negated by one computation.
  have neg : b ≠ .int → b ≠ .bool → b ≠ .dfunc → EmitsLine (do
      let v ← (liftM (Build.neg x.value) : Emit Value)
      Pure.pure (⟨b.id, v⟩ : Typed)) fun H r l => UnaryLine H op x r l := by
    intro hint hbool hdfunc
    refine (EmitsLine.answer (Build.neg_line x.value).lift _).mono fun H r l h => ?_
    obtain ⟨v, rfl, ty, -, hone⟩ := h
    refine .computed ?_ hx.symm ?_ (.one rfl (by simp [Op.operands]) hone)
    · rw [hx, b.isIntegral_iff]
      exact not_or.2 ⟨hint, hbool⟩
    · rw [hx]
      exact fun h => hdfunc (id_injective h)
  cases op with
  | not =>
    cases b with
    | bool =>
      refine (EmitsLine.answer (Build.not_line x.value).lift _).mono fun H r l h => ?_
      obtain ⟨v, rfl, hone⟩ := h
      exact .notBool hx rfl hone
    | _ => exact EmitsLine.throw _ _
  | neg =>
    cases b with
    | int =>
      refine (EmitsLine.answer (Build.neg_line x.value).lift _).mono fun H r l h => ?_
      obtain ⟨v, rfl, ty, hty, hone⟩ := h
      exact .negInt hx rfl hty hone
    | float => exact neg (by decide) (by decide) (by decide)
    | float2 => exact neg (by decide) (by decide) (by decide)
    | float3 => exact neg (by decide) (by decide) (by decide)
    | float4 => exact neg (by decide) (by decide) (by decide)
    | _ => exact EmitsLine.throw _ _

end Builtin

/-! ## Binary operators -/

namespace Builtin

theorem arith_line (b : Builtin) (op : BinaryOp) (x y : Typed) (hx : x.ty = b.id) :
    EmitsLine (b.descriptor.arith .builtins op x y) fun H r l => BinaryLine H op x y r l := by
  -- The three vector types share one account, with their width.
  have vector : ∀ (width : UInt8), b ≠ .int ∧ b ≠ .bool ∧ b ≠ .dfunc →
      b.behaviour = .vector width →
      EmitsLine (b.descriptor.arith .builtins op x y) fun H r l => BinaryLine H op x y r l := by
    intro width hb hbeh
    have hdesc : b.descriptor.behaviour = .vector width := hbeh
    unfold Descriptor.arith
    rw [hdesc]
    cases op with
    | add | sub | mul | div => exact vectorArith_line hb width _ _ _ x y hx
    | _ => exact EmitsLine.throw _ _
  cases b with
  | int | float => exact numericArith_line op x y
  | float2 => exact vector 2 (by decide) rfl
  | float3 => exact vector 3 (by decide) rfl
  | float4 => exact vector 4 (by decide) rfl
  | dfunc =>
    cases op with
    | add => exact Distribution.add_line .add x y hx
    | mul =>
      refine (Distribution.scale_line x y).mono fun H r l h => ?_
      obtain ⟨w, v, l₁, l₂, rfl, rfl, hn, hc, hcall⟩ := h
      exact .scaled (.inl ⟨rfl, rfl⟩) hx hn hc hcall
    | _ => exact EmitsLine.throw _ _
  | _ => exact EmitsLine.throw _ _

theorem compare_line (b : Builtin) (op : BinaryOp) (x y : Typed) (hx : x.ty = b.id) :
    EmitsLine (b.descriptor.compare .builtins op x y) fun H r l => BinaryLine H op x y r l := by
  cases b with
  | bool => exact boolCompare_line op x y hx
  | int | float => exact numericCompare_line op x y
  | _ => exact EmitsLine.throw _ _

/-- What a binary operator of a builtin type leaves behind. -/
theorem binary_line (b : Builtin) (op : BinaryOp) (x y : Typed) (hx : x.ty = b.id) :
    EmitsLine (b.descriptor.binary .builtins op x y) fun H r l => BinaryLine H op x y r l := by
  rw [Descriptor.binary_builtin]
  unfold Descriptor.standardBinary
  split
  · exact b.arith_line op x y hx
  · split
    · exact b.compare_line op x y hx
    · exact EmitsLine.throw _ _

end Builtin

/-- With its operands swapped, a sum or a product of unlike operands is the
    same line. -/
theorem BinaryLine.swap {H : Host} {op : BinaryOp} {a b r : Typed} {l : Lines}
    (h : BinaryLine H op b a r l) (hne : a.ty ≠ b.ty) : BinaryLine H op a b r l := by
  cases h with
  | intArith hb ha ho hty hone => exact absurd (ha.trans hb.symm) hne
  | intCompare hb ha hp hcmp => exact absurd (ha.trans hb.symm) hne
  | boolCompare hb ha hp heq hcmp => exact absurd (ha.trans hb.symm) hne
  | computed hba hr hv hc =>
    refine .computed (fun h => hba ⟨h.2, h.1⟩) hr hv (hc.mono (fun v hv => ?_) fun _ h => h)
    simpa [or_comm] using hv
  | sum hb ha hcall => exact absurd (ha.trans hb.symm) hne
  | scaled hab hd hn hw hcall => exact .scaled hab.symm hd hn hw hcall

/-- An operator is tried on the left operand's type, then on the right one's. -/
theorem Lower.applyBinary_line (op : BinaryOp) (x y : Typed) :
    EmitsLine (Lower.applyBinary .builtins op x y) fun H r l => BinaryLine H op x y r l := by
  refine resolve_line fun b hx => ?_
  intro func t S hopen r w hrun
  rcases Act.run_tryCatch_eq_ok.1 hrun with hrun | ⟨e, w₁, herr, hrun⟩
  · exact b.binary_line op x y hx func t S hopen r w hrun
  -- The first attempt was refused, so only a missing operator leads to a second one.
  · have swapped : x.ty ≠ y.ty → EmitsLine ((do
          let right ← Act.ofExcept (TypeTable.builtins.resolve y.ty)
          (right.binary .builtins op y x).mapError fun _ => e) : Emit Typed)
          fun H r l => BinaryLine H op x y r l := by
      intro hne
      refine resolve_line fun b' hy => ?_
      exact ((b'.binary_line op y x hy).mapError _).mono fun H r l h => h.swap hne
    cases e with
    | malformed m => exact absurd hrun Act.run_throw_ne_ok
    | located cause sp =>
      cases cause with
      | noOperator o n n' =>
        -- It is found out before anything is emitted.
        obtain ⟨-, rfl⟩ :=
          (Descriptor.binary_missesFirst .builtins b.hooks_eq_none.1 op x y).of_missing herr rfl
        by_cases hop : op.isCommutative = true ∧ x.ty ≠ y.ty
        · simp only [if_pos hop] at hrun
          exact swapped hop.2 func t S hopen r w hrun
        · simp only [if_neg hop] at hrun
          exact absurd hrun Act.run_throw_ne_ok
      | _ => exact absurd hrun Act.run_throw_ne_ok

/-! ## Conversions -/

theorem Conversion.apply_line (c : Conversion) (v : Value) :
    EmitsLine (c.apply v) fun H v' l => ConvertLine H v c v' l := by
  cases c with
  | identity =>
    refine (EmitsLine.pure v).mono fun H v' l h => ?_
    obtain ⟨rfl, rfl⟩ := h
    exact .identity
  | intToFloat => exact (Build.cast_line .sitofp v).lift.mono fun H v' l h => .intToFloat h

/-- There is one implicit conversion beside the identity. -/
theorem Conversion.find?_eq_some {source target : TypeId} {options : Options} {c : Conversion}
    (h : find? source target options = some c) :
    c = .identity ∧ source = target ∨
      c = .intToFloat ∧ options.implicit = true ∧ source = Builtin.int.id ∧
        target = Builtin.float.id := by
  unfold find? at h
  by_cases hst : source = target
  · rw [if_pos hst] at h
    cases h
    exact .inl ⟨rfl, hst⟩
  · rw [if_neg hst] at h
    by_cases hif : options.implicit = true ∧ source = Builtin.int.id ∧ target = Builtin.float.id
    · rw [if_pos hif] at h
      cases h
      exact .inr ⟨rfl, hif⟩
    · rw [if_neg hif] at h
      cases h

namespace Lower

/-- A value is passed on as it is, or converted by one instruction. -/
theorem coerce_line {env : Env} (x : ExprValue) (expected : TypeId) (span : Span)
    (what : String) :
    EmitsLine (coerce env x expected span what) fun H y l => CoerceLine H x expected y l := by
  unfold coerce
  cases hc : Conversion.find? x.ty expected env.options with
  | none => exact EmitsLine.throw _ _
  | some c =>
    rcases Conversion.find?_eq_some hc with ⟨rfl, hst⟩ | ⟨rfl, -, hs, ht⟩
    · refine (EmitsLine.pure x).mono fun H y l h => ?_
      obtain ⟨rfl, rfl⟩ := h
      exact .same hst
    · refine (EmitsLine.answer (Conversion.apply_line .intToFloat x.value) _).mono
        fun H y l h => ?_
      obtain ⟨v, rfl, hv⟩ := h
      cases hv with
      | intToFloat hone => exact .toFloat hs ht hone

theorem convertArgs_line (xs : List ExprValue) (cs : List Conversion) :
    EmitsLine (convertArgs xs cs) fun H vs l => ConvertLines H xs cs vs l := by
  -- By induction on the values, with the conversions beside them.
  induction xs generalizing cs with
  | nil =>
    refine (EmitsLine.pure _).mono fun H vs l h => ?_
    obtain ⟨rfl, rfl⟩ := h
    exact .nil (.inl rfl)
  | cons x xs ih =>
    cases cs with
    | nil =>
      refine (EmitsLine.pure _).mono fun H vs l h => ?_
      obtain ⟨rfl, rfl⟩ := h
      exact .nil (.inr rfl)
    | cons c cs =>
      refine (EmitsLine.bind (c.apply_line x.value) fun v => EmitsLine.answer (ih cs) _).mono
        fun H vs l h => ?_
      obtain ⟨v, l₁, l₂, rfl, hv, vs', rfl, hvs⟩ := h
      exact .cons hv hvs

end Lower

end Shading
