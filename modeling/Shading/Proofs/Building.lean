import Shading.Proofs.Actions
import Shading.Proofs.Emission
import Shading.Proofs.Indexes

/-! # What the builder's actions emit

    `EmitsLine x Q` says of an action that emits instructions without
    branching: if it answers, then the answer and the emitted instructions
    satisfy `Q` in every module that the result grows into.  Each action of
    the builder has one such statement, and the larger actions get theirs by
    the rules for sequences. -/

namespace Shading.IR

variable {ε ε' α β : Type}
variable {op : Op} {x : Act Builder ε α} {f : Function} {func id : FuncId} {s ty : Ty} {v : Value}
    {S : Site func}

/-! ## The finished module -/

/-- A module as it is in the end, with the body of one of its functions. -/
structure Host where
  module : Module
  body : Function

namespace Host

/-- The function is one of the module, which has grown out of `m`. -/
structure Completes (H : Host) (func : FuncId) (m : Module) : Prop where
  grows : m.Grows func H.module
  found : H.module.function? func = some H.body

/-- An operand has a type in the finished body. -/
def HasType (H : Host) (v : Value) (ty : Ty) : Prop := H.body.valueType v = .ok ty

/-- A value has one type. -/
theorem HasType.unique {H : Host} {t : Ty} (hs : H.HasType v s) (ht : H.HasType v t) : s = t := by
  unfold HasType at hs ht
  rw [hs] at ht
  cases ht
  rfl

variable {H : Host} {func : FuncId} {m m' : Module}

theorem Completes.before (h : H.Completes func m') (hm : m.Grows func m') : H.Completes func m :=
  ⟨hm.trans h.grows, h.found⟩

/-- A module is already what it will be if nothing more happens. -/
theorem Completes.self (S : Site func) :
    Completes ⟨S.builder.module, S.body⟩ func S.builder.module := ⟨.refl func _, S.found⟩

theorem Completes.extend {S : Site func} (h : H.Completes func S.builder.module) :
    H.body.signature = S.body.signature ∧ S.body.Extends H.body := by
  obtain ⟨f', hf', -, hsig, -, hext⟩ := h.grows.body S.body S.found
  rw [h.found] at hf'
  cases hf'
  exact ⟨hsig, hext⟩

theorem Completes.inst? {S : Site func} (h : H.Completes func S.builder.module) {i : InstId}
    {x : Inst} (hi : S.body.inst? i = some x) : H.body.inst? i = some x := h.extend.2.inst? hi

/-- What has a type while the function is built keeps it to the end. -/
theorem Completes.hasType {S : Site func} (h : H.Completes func S.builder.module)
    (hv : S.body.valueType v = .ok ty) : H.HasType v ty := by
  unfold HasType
  -- The signature stays, and instructions that are there stay in their places.
  cases v with
  | const c => exact hv
  | void => exact hv
  | arg i =>
    simp only [Function.valueType] at hv ⊢
    rw [h.extend.1]
    cases hp : S.body.signature.params[i]? with
    | none => rw [hp] at hv; cases hv
    | some t => rw [hp] at hv; exact hv
  | inst id =>
    simp only [Function.valueType] at hv ⊢
    cases hi : S.body.inst? id with
    | none => rw [hi] at hv; cases hv
    | some x =>
      rw [hi] at hv
      rw [h.inst? hi]
      exact hv

theorem hasType_inst {id : InstId} {i : Inst} (h : H.body.inst? id = some i) :
    H.HasType (.inst id) i.ty := by
  simp only [HasType, Function.valueType, h]

end Host

/-! ## Lines -/

/-- Instructions with their numbers, in order. -/
abbrev Lines := List (InstId × Inst)

/-- The answer of an action and the instructions it emits satisfy `Q`. -/
def EmitsLine (x : Act Builder ε α) (Q : Host → α → Lines → Prop) : Prop :=
  ∀ (func : FuncId) (t : Option Targets) (S : Site func), S.Open →
    ∀ a w, x.run S.builder = (.ok a, w) →
      ∃ (S' : Site func) (l : Lines), S'.builder = w ∧ Emitted t (.line l) S S' ∧
        ∀ H : Host, H.Completes func w.module → Q H a l

namespace EmitsLine

theorem mono {Q R : Host → α → Lines → Prop} (h : EmitsLine x Q)
    (hQR : ∀ H a l, Q H a l → R H a l) : EmitsLine x R := by
  intro func t S hopen a w hrun
  obtain ⟨S', l, hw, he, hQ⟩ := h func t S hopen a w hrun
  exact ⟨S', l, hw, he, fun H hH => hQR H a l (hQ H hH)⟩

/-- An action that leaves the builder as it is. -/
theorem silent {P : Host → α → Prop}
    (h : ∀ (func : FuncId) (S : Site func) a w, x.run S.builder = (.ok a, w) →
      w = S.builder ∧ ∀ H : Host, H.Completes func S.builder.module → P H a) :
    EmitsLine x fun H a l => P H a ∧ l = [] := by
  intro func t S hopen a w hrun
  obtain ⟨rfl, hP⟩ := h func S a w hrun
  exact ⟨S, [], rfl, .nil t S hopen, fun H hH => ⟨hP H hH, rfl⟩⟩

theorem pure (a : α) : EmitsLine (pure a : Act Builder ε α) fun _ b l => b = a ∧ l = [] :=
  silent fun _ _ _ _ hrun => ⟨(Act.run_pure_eq_ok.1 hrun).2, fun _ _ => (Act.run_pure_eq_ok.1 hrun).1⟩

theorem throw (e : ε) (Q : Host → α → Lines → Prop) :
    EmitsLine (throw e : Act Builder ε α) Q :=
  fun _ _ _ _ _ _ hrun => absurd hrun Act.run_throw_ne_ok

theorem ofExcept (r : Except ε α) :
    EmitsLine (Act.ofExcept r : Act Builder ε α) fun _ a l => r = .ok a ∧ l = [] :=
  silent fun _ _ _ _ hrun =>
    ⟨(Act.run_ofExcept_eq_ok.1 hrun).2, fun _ _ => (Act.run_ofExcept_eq_ok.1 hrun).1⟩

theorem refuseIf (c : Prop) [Decidable c] (e : ε) :
    EmitsLine (Act.refuseIf c e : Act Builder ε Unit) fun _ _ l => ¬ c ∧ l = [] :=
  silent fun _ _ _ _ hrun =>
    ⟨(Act.run_refuseIf_eq_ok.1 hrun).2, fun _ _ => (Act.run_refuseIf_eq_ok.1 hrun).1⟩

theorem mapError {Q : Host → α → Lines → Prop} (h : EmitsLine x Q) (f : ε → ε') :
    EmitsLine (x.mapError f) Q :=
  fun func t S hopen a w hrun => h func t S hopen a w (Act.run_mapError_eq_ok.1 hrun)

/-- Two actions one behind the other leave their lines one behind the other. -/
theorem bind {k : α → Act Builder ε β} {Q : Host → α → Lines → Prop}
    {R : α → Host → β → Lines → Prop} (hx : EmitsLine x Q) (hk : ∀ a, EmitsLine (k a) (R a)) :
    EmitsLine (x >>= k) fun H b l => ∃ a l₁ l₂, l = l₁ ++ l₂ ∧ Q H a l₁ ∧ R a H b l₂ := by
  intro func t S hopen b w hrun
  obtain ⟨a, w₁, h₁, h₂⟩ := Act.run_bind_eq_ok.1 hrun
  obtain ⟨S₁, l₁, rfl, he₁, hQ⟩ := hx func t S hopen a w₁ h₁
  have hopen₁ : S₁.Open := he₁.ends
  obtain ⟨S₂, l₂, rfl, he₂, hR⟩ := hk a func t S₁ hopen₁ b w h₂
  exact ⟨S₂, l₁ ++ l₂, rfl, he₁.append he₂, fun H hH =>
    ⟨a, l₁, l₂, rfl, hQ H (hH.before he₂.grows), hR H hH⟩⟩

/-- An action behind one that emits nothing. -/
theorem after {k : α → Act Builder ε β} {P : Host → α → Prop} {R : α → Host → β → Lines → Prop}
    (hx : EmitsLine x fun H a l => P H a ∧ l = []) (hk : ∀ a, EmitsLine (k a) (R a)) :
    EmitsLine (x >>= k) fun H b l => ∃ a, P H a ∧ R a H b l :=
  (bind hx hk).mono fun H b l h => by
    obtain ⟨a, l₁, l₂, rfl, ⟨hP, rfl⟩, hR⟩ := h
    exact ⟨a, hP, hR⟩

/-- An action in front of one that emits nothing. -/
theorem answer {Q : Host → α → Lines → Prop} (hx : EmitsLine x Q) (g : α → β) :
    EmitsLine (x >>= fun a => Pure.pure (g a)) fun H b l => ∃ a, b = g a ∧ Q H a l :=
  (bind hx fun a => pure (g a)).mono fun H b l h => by
    obtain ⟨a, l₁, l₂, rfl, hQ, rfl, rfl⟩ := h
    exact ⟨a, rfl, by rw [List.append_nil]; exact hQ⟩

end EmitsLine

/-! ## The builder -/

theorem Module.function_eq_ok {m : Module} : m.function id = .ok f ↔ m.function? id = some f := by
  unfold Module.function
  cases m.function? id <;> simp

/-- The cursor stands in a function, and not at the end of a block that is
    ended. -/
structure Builder.OpenAt (b : Builder) (c : Cursor) (f : Function) : Prop where
  cursor : b.cursor = some c
  found : b.module.function? c.func = some f
  isOpen : f.isTerminated c.block = false

namespace Build

section

variable {b w : Builder}

theorem cursor_run_eq_ok {c : Cursor} : cursor.run b = (.ok c, w) ↔ b.cursor = some c ∧ w = b := by
  unfold cursor
  rw [Act.run_bind, Act.run_get]
  cases hcursor : b.cursor with
  | none => simp [hcursor]
  | some d => simp [hcursor, eq_comm]

theorem function_run_eq_ok :
    (function id).run b = (.ok f, w) ↔ b.module.function? id = some f ∧ w = b := by
  rw [← Module.function_eq_ok]
  exact Act.run_ofExcept_eq_ok

/-- Nothing but a missing place keeps an instruction from being added. -/
theorem emit_run_eq_ok {id : InstId} :
    (emit op ty).run b = (.ok id, w) ↔ ∃ c f, b.OpenAt c f ∧ id = f.insts.length ∧
      w = { b with module := b.module.update c.func (·.pushInst c.block ⟨op, ty, none⟩) } := by
  unfold emit update
  simp only [Act.run_bind_eq_ok, cursor_run_eq_ok, function_run_eq_ok, Act.run_refuseIf_eq_ok,
    Act.run_modify_eq_ok, Act.run_pure_eq_ok]
  constructor
  · rintro ⟨c, w₁, ⟨hc, rfl⟩, f, w₂, ⟨hf, rfl⟩, _, w₃, ⟨hopen, rfl⟩, _, w₄, rfl, rfl, rfl⟩
    exact ⟨c, f, ⟨hc, hf, eq_false_of_ne_true hopen⟩, rfl, rfl⟩
  · rintro ⟨c, f, ⟨hc, hf, hopen⟩, rfl, rfl⟩
    exact ⟨c, b, ⟨hc, rfl⟩, f, b, ⟨hf, rfl⟩, (), b, ⟨ne_true_of_eq_false hopen, rfl⟩, (), _, rfl,
      rfl, rfl⟩

end

section

variable {func : FuncId} {S : Site func} {w : Builder}

theorem cursor_run {c : Cursor} (h : cursor.run S.builder = (.ok c, w)) :
    c = ⟨func, S.block⟩ ∧ w = S.builder := by
  obtain ⟨hc, rfl⟩ := cursor_run_eq_ok.1 h
  exact ⟨Option.some.inj (hc.symm.trans S.cursor), rfl⟩

theorem function_run {w₀ : Builder} (h : (function id).run w₀ = (.ok f, w)) :
    w₀.module.function? id = some f ∧ w = w₀ :=
  function_run_eq_ok.1 h

theorem current_run (h : current.run S.builder = (.ok f, w)) : f = S.body ∧ w = S.builder := by
  obtain ⟨c, w₁, hc, h⟩ := Act.run_bind_eq_ok.1 h
  obtain ⟨rfl, rfl⟩ := cursor_run hc
  obtain ⟨hf, rfl⟩ := function_run h
  rw [S.found] at hf
  cases hf
  exact ⟨rfl, rfl⟩

/-- An emitted instruction stands at the end of the current block. -/
theorem emit_run {id : InstId} (h : (emit op ty).run S.builder = (.ok id, w)) :
    S.Open ∧ id = S.body.insts.length ∧ w = (S.push ⟨op, ty, none⟩).builder := by
  obtain ⟨c, f, ⟨hc, hf, hopen⟩, rfl, rfl⟩ := emit_run_eq_ok.1 h
  obtain rfl : c = ⟨func, S.block⟩ := Option.some.inj (hc.symm.trans S.cursor)
  obtain rfl : f = S.body := Option.some.inj (hf.symm.trans S.found)
  exact ⟨hopen, rfl, rfl⟩

end

/-! ### Operands -/

theorem valueType_line (v : Value) :
    EmitsLine (valueType v) fun H ty l => H.HasType v ty ∧ l = [] := by
  refine EmitsLine.silent fun func S ty w hrun => ?_
  obtain ⟨f, w₁, hf, hrun⟩ := Act.run_bind_eq_ok.1 hrun
  obtain ⟨rfl, rfl⟩ := current_run hf
  obtain ⟨hty, hw⟩ := Act.run_ofExcept_eq_ok.1 hrun
  exact ⟨hw, fun H hH => hH.hasType hty⟩

theorem expect_line (v : Value) (ty : Ty) (context : String) :
    EmitsLine (expect v ty context) fun H _ l => H.HasType v ty ∧ l = [] :=
  (EmitsLine.after (valueType_line v) fun _ => EmitsLine.refuseIf _ _).mono fun H _ l h => by
    obtain ⟨found, hfound, hne, rfl⟩ := h
    obtain rfl := not_not.1 hne
    exact ⟨hfound, rfl⟩

theorem pointee_line (p : Value) (context : String) :
    EmitsLine (pointee p context) fun H ty l => H.HasType p (.ptr ty) ∧ l = [] := by
  refine (EmitsLine.after (valueType_line p) (fun found => ?_)
    (R := fun found H ty l => found = .ptr ty ∧ l = [])).mono fun H ty l h => ?_
  · cases found with
    | ptr t => exact (EmitsLine.pure t).mono fun H ty l h => ⟨by rw [h.1], h.2⟩
    | _ => exact EmitsLine.throw _ _
  · obtain ⟨_, hfound, rfl, rfl⟩ := h
    exact ⟨hfound, rfl⟩

/-! ### Instructions -/

/-- A plain instruction is a line of its own. -/
theorem emit_line (hop : op.isPlain = true) (hslot : op.isAlloca = false) (ty : Ty) :
    EmitsLine (emit op ty) fun H id l => H.body.inst? id = some ⟨op, ty, none⟩ ∧
      l = [(id, ⟨op, ty, none⟩)] := by
  intro func t S hopen id w hrun
  obtain ⟨-, rfl, rfl⟩ := emit_run hrun
  exact ⟨_, _, rfl, .push t S hopen hop hslot, fun H hH =>
    ⟨hH.inst? (S := S.push _) (Function.pushInst_inst?_new ..), rfl⟩⟩

/-- One instruction with a result of the given type. -/
def OneInst (H : Host) (op : Op) (ty : Ty) (v : Value) (l : Lines) : Prop :=
  ∃ id, v = .inst id ∧ l = [(id, ⟨op, ty, none⟩)] ∧ H.HasType v ty

theorem OneInst.isInst {H : Host} {l : Lines} (h : OneInst H op ty v l) : ∃ id, v = .inst id := by
  obtain ⟨id, rfl, -⟩ := h
  exact ⟨id, rfl⟩

theorem emitValue_line (hop : op.isPlain = true) (hslot : op.isAlloca = false) (ty : Ty) :
    EmitsLine (emitValue op ty) fun H v l => OneInst H op ty v l :=
  (EmitsLine.answer (emit_line hop hslot ty) Value.inst).mono fun H v l h => by
    obtain ⟨id, rfl, hinst, rfl⟩ := h
    exact ⟨id, rfl, rfl, Host.hasType_inst hinst⟩

theorem emitVoid_line (hop : op.isPlain = true) (hslot : op.isAlloca = false) :
    EmitsLine (emitVoid op) fun _ _ l => ∃ id, l = [(id, ⟨op, .void, none⟩)] :=
  (EmitsLine.answer (emit_line hop hslot .void) fun _ => ()).mono fun H _ l h => by
    obtain ⟨id, -, -, rfl⟩ := h
    exact ⟨id, rfl⟩

/-! ### Memory -/

theorem load_line (p : Value) :
    EmitsLine (load p) fun H v l => ∃ ty, H.HasType p (.ptr ty) ∧ OneInst H (.load p) ty v l :=
  EmitsLine.after (pointee_line p _) fun ty => emitValue_line rfl rfl ty

theorem store_line (v p : Value) :
    EmitsLine (store v p) fun H _ l => ∃ ty, H.HasType p (.ptr ty) ∧ H.HasType v ty ∧
      ∃ id, l = [(id, ⟨.store v p, .void, none⟩)] :=
  (EmitsLine.after (pointee_line p _) fun ty =>
    EmitsLine.after (expect_line v ty _) fun _ => emitVoid_line rfl rfl).mono fun H _ l h => by
      obtain ⟨ty, hp, _, hv, id, rfl⟩ := h
      exact ⟨ty, hp, hv, id, rfl⟩

/-- A reserved slot stands in front of the entry block, and nothing else is
    emitted. -/
theorem alloca_run {t : Option Targets} (hopen : S.Open) {name : String} {w : Builder}
    (hrun : (alloca ty name).run S.builder = (.ok v, w)) :
    ∃ S' : Site func, S'.builder = w ∧ Emitted t (.line []) S S' ∧
      v = .inst S.body.insts.length ∧ S'.body.insts.length = S.body.insts.length + 1 ∧
      S.body.insts.length ∈ S'.body.slots 0 ∧
      ∃ size, S'.body.inst? S.body.insts.length = some ⟨.alloca ty size, .ptr ty, some name⟩ := by
  unfold alloca at hrun
  cases hsize : ty.size? with
  | none =>
    rw [hsize] at hrun
    exact absurd hrun Act.run_throw_ne_ok
  | some size =>
    rw [hsize] at hrun
    obtain ⟨c, w₁, hc, hrun⟩ := Act.run_bind_eq_ok.1 hrun
    obtain ⟨rfl, rfl⟩ := cursor_run hc
    obtain ⟨f, w₂, hf, hrun⟩ := Act.run_bind_eq_ok.1 hrun
    obtain ⟨hfound, rfl⟩ := function_run hf
    rw [S.found] at hfound
    cases hfound
    obtain ⟨_, w₃, hu, hrun⟩ := Act.run_bind_eq_ok.1 hrun
    have hw := Act.run_modify_eq_ok.1 hu
    obtain ⟨rfl, rfl⟩ := Act.run_pure_eq_ok.1 hrun
    -- The slot goes to the head of the entry block, wherever the cursor stands.
    have hslots := Function.addSlot_slots_entry S.valid S.pos
      (i := ⟨.alloca ty size, .ptr ty, some name⟩) rfl
    refine ⟨S.slot ⟨.alloca ty size, .ptr ty, some name⟩, hw.symm, .slot t S hopen ty size name,
      rfl, ?_, ?_, size, Function.addSlot_inst?_new ..⟩
    · show (S.body.addSlot _).insts.length = _
      rw [Function.addSlot_insts, List.length_append]
      rfl
    · show _ ∈ (S.body.addSlot _).slots 0
      rw [hslots]
      exact List.mem_append_right _ (List.mem_singleton.2 rfl)

/-! ### Arithmetic -/

theorem arith_line (op : ArithOp) (a b : Value) :
    EmitsLine (arith op a b) fun H v l => ∃ ty, H.HasType a ty ∧ OneInst H (.arith op a b) ty v l :=
  (EmitsLine.after (valueType_line a) fun ty => EmitsLine.after (expect_line b ty _) fun _ =>
    EmitsLine.after (.refuseIf _ _) fun _ => emitValue_line rfl rfl ty).mono fun H v l h => by
      obtain ⟨ty, ha, _, -, _, -, hone⟩ := h
      exact ⟨ty, ha, hone⟩

/-- The comparison is one of floats exactly if the left operand is a float. -/
theorem cmp_line (pred : CmpPred) (a b : Value) :
    EmitsLine (cmp pred a b) fun H v l => ∃ ty, H.HasType a ty ∧
      OneInst H (.cmp pred (ty == .f32) a b) .bool v l := by
  refine (EmitsLine.after (valueType_line a) fun ty => EmitsLine.after (expect_line b ty _)
    (R := fun _ H v l => OneInst H (.cmp pred (ty == .f32) a b) .bool v l) fun _ => ?_).mono
    fun H v l h => ?_
  · cases ty with
    | f32 => exact emitValue_line rfl rfl .bool
    | i32 => exact emitValue_line rfl rfl .bool
    | bool => exact emitValue_line rfl rfl .bool
    | _ => exact EmitsLine.throw _ _
  · obtain ⟨ty, ha, _, -, hone⟩ := h
    exact ⟨ty, ha, hone⟩

theorem neg_line (a : Value) :
    EmitsLine (neg a) fun H v l => ∃ ty, H.HasType a ty ∧ OneInst H (.neg a) ty v l :=
  (EmitsLine.after (valueType_line a) fun ty => EmitsLine.after (.refuseIf _ _) fun _ =>
    emitValue_line rfl rfl ty).mono fun H v l h => by
      obtain ⟨ty, ha, _, -, hone⟩ := h
      exact ⟨ty, ha, hone⟩

theorem not_line (a : Value) :
    EmitsLine (Build.not a) fun H v l => OneInst H (.not a) .bool v l :=
  (EmitsLine.after (expect_line a _ _) fun _ => emitValue_line rfl rfl .bool).mono
    fun _ _ _ h => h.choose_spec.2

theorem cast_line (op : CastOp) (a : Value) :
    EmitsLine (cast op a) fun H v l => OneInst H (.cast op a) op.target v l :=
  (EmitsLine.after (expect_line a _ _) fun _ => emitValue_line rfl rfl op.target).mono
    fun _ _ _ h => h.choose_spec.2

theorem splat_line (a : Value) (lanes : UInt8) :
    EmitsLine (splat a lanes) fun H v l => OneInst H (.splat a lanes) (.vector lanes) v l :=
  (EmitsLine.after (expect_line a _ _) fun _ => emitValue_line rfl rfl _).mono
    fun _ _ _ h => h.choose_spec.2

/-- An action for each element, where none emits anything. -/
theorem forM_silent {x : α → Act Builder ε PUnit} {P : α → Host → Prop}
    (hx : ∀ a, EmitsLine (x a) fun H _ l => P a H ∧ l = []) (as : List α) :
    EmitsLine (as.forM x) fun H _ l => (∀ a ∈ as, P a H) ∧ l = [] := by
  induction as with
  | nil => exact (EmitsLine.pure _).mono fun H _ l h => ⟨by simp, h.2⟩
  | cons a rest ih =>
    refine (EmitsLine.after (hx a) fun _ => ih).mono fun H _ l h => ?_
    obtain ⟨_, hP, hrest, rfl⟩ := h
    exact ⟨List.forall_mem_cons.2 ⟨hP, hrest⟩, rfl⟩

theorem vector_line (lanes : List Value) :
    EmitsLine (vector lanes) fun H v l => ∃ ty, OneInst H (.vector lanes) ty v l :=
  (EmitsLine.after (forM_silent (fun a => expect_line a _ _) lanes) fun _ =>
    emitValue_line rfl rfl _).mono fun _ _ _ h => ⟨_, h.choose_spec.2⟩

/-! ### Functions -/

/-- The operand that stands for the result of a call. -/
def callResult (ret : Ty) (id : InstId) : Value := if ret.isVoid then .void else .inst id

/-- One call of a function with a given symbol and signature. -/
def OneCall (H : Host) (name : String) (sig : Signature) (args : List Value) (v : Value)
    (l : Lines) : Prop :=
  ∃ callee id, H.module.Declares callee name sig ∧ v = callResult sig.ret id ∧
    l = [(id, ⟨.call callee args, sig.ret, none⟩)]

theorem call_line (callee : FuncId) (args : List Value) :
    EmitsLine (call callee args) fun H v l => ∃ id name sig, H.module.Declares callee name sig ∧
      v = callResult sig.ret id ∧ l = [(id, ⟨.call callee args, sig.ret, none⟩)] := by
  have hfunction : EmitsLine (function callee) fun H f l =>
      H.module.Declares callee f.name f.signature ∧ l = [] := by
    refine EmitsLine.silent fun func S f w hrun => ?_
    obtain ⟨hfound, hw⟩ := function_run hrun
    exact ⟨hw, fun H hH => hH.grows.declares ⟨f, hfound, rfl, rfl⟩⟩
  refine (EmitsLine.after hfunction fun f => EmitsLine.after (.refuseIf _ _) fun _ =>
    EmitsLine.after (forM_silent (fun p : Value × Ty => expect_line p.1 p.2 _) _) fun _ =>
    EmitsLine.answer (emit_line rfl rfl f.signature.ret) (callResult f.signature.ret)).mono
    fun H v l h => ?_
  obtain ⟨f, hdecl, _, -, _, -, id, rfl, -, rfl⟩ := h
  exact ⟨id, f.name, f.signature, hdecl, rfl, rfl⟩

/-- A symbol has been declared: it was there, declared alike, or it has been
    added. -/
inductive Declared (m : Module) (name : String) (sig : Signature) (linkage : Linkage) :
    FuncId → Module → Prop
  | found {id : FuncId} {f : Function} (hf : m.function? id = some f) (hname : f.name = name)
    (hsig : f.signature = sig) (hlink : f.linkage = linkage) : Declared m name sig linkage id m
  | added (hfind : m.find? name = none) :
    Declared m name sig linkage m.functions.length (m.add name sig linkage)

section

variable {b : Builder} {name : String} {sig : Signature} {linkage : Linkage}

/-- A name that is not in the module is added to it. -/
theorem declare_run_new (hfind : b.module.find? name = none) :
    (declare name sig linkage).run b =
      (.ok b.module.functions.length, { b with module := b.module.add name sig linkage }) := by
  unfold declare
  rw [Act.run_bind, Act.run_get]
  simp only [hfind]
  rfl

/-- A name that is in the module has to have the same head. -/
theorem declare_run_known (hfind : b.module.find? name = some id)
    (hf : b.module.function? id = some f) :
    (declare name sig linkage).run b =
      (if f.signature ≠ sig ∨ f.linkage ≠ linkage then .error (.signatureMismatch name) else .ok id,
        b) := by
  unfold declare
  rw [Act.run_bind, Act.run_get]
  simp only [hfind]
  rw [Act.run_bind, show (function id).run b = (b.module.function id, b) from rfl,
    Module.function_eq_ok.2 hf]
  show Act.run (Act.refuseIf (f.signature ≠ sig ∨ f.linkage ≠ linkage) _ >>= _) b = _
  rw [Act.run_bind, Act.run_refuseIf]
  -- A symbol can be declared again, but only as what it is.
  by_cases hdiffer : f.signature ≠ sig ∨ f.linkage ≠ linkage
  · rw [if_pos hdiffer, if_pos hdiffer]
  · rw [if_neg hdiffer, if_neg hdiffer]
    rfl

theorem declare_run {w : Builder} (h : (declare name sig linkage).run b = (.ok id, w)) :
    ∃ m, Declared b.module name sig linkage id m ∧ w = { b with module := m } := by
  cases hfind : b.module.find? name with
  | some id' =>
    obtain ⟨f, hf, hname⟩ := Module.name_of_find? hfind
    rw [declare_run_known hfind hf] at h
    -- A function with the name is found again only under the same head.
    by_cases hdiffer : f.signature ≠ sig ∨ f.linkage ≠ linkage
    · rw [if_pos hdiffer] at h
      cases h
    · rw [if_neg hdiffer] at h
      cases h
      exact ⟨_, .found hf hname (not_not.1 fun hne => hdiffer (.inl hne))
        (not_not.1 fun hne => hdiffer (.inr hne)), rfl⟩
  | none =>
    rw [declare_run_new hfind] at h
    cases h
    exact ⟨_, .added hfind, rfl⟩

end

/-- A declared runtime function has the declared symbol and signature. -/
theorem declare_line (name : String) (sig : Signature) :
    EmitsLine (declare name sig .external) fun H id l =>
      H.module.Declares id name sig ∧ l = [] := by
  intro func t S hopen id w hrun
  obtain ⟨m, hdecl, rfl⟩ := declare_run hrun
  cases hdecl with
  | found hf hname hsig hlink =>
    exact ⟨S, [], rfl, .nil t S hopen, fun H hH => ⟨hH.grows.declares ⟨_, hf, hname, hsig⟩, rfl⟩⟩
  | added hfind =>
    exact ⟨S.declare name sig, [], rfl, .declare t S hopen name sig, fun H hH =>
      ⟨hH.grows.declares ⟨_, Module.add_function?_new .., rfl, rfl⟩, rfl⟩⟩

end Build

end Shading.IR
