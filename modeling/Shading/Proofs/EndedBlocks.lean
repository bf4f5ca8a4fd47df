import Shading.Proofs.Closing
import Shading.Proofs.StatementLaws

/-! # Bodies leave no block open

    Statements are lowered in states that hold a builder, so a law of the
    builder becomes a law of those states (`Lower.keeping`).  A statement
    fills every block it appends, and what is left open at the end of a body
    is closed by its exit.  Main results: after a body, every block is ended
    exactly once, and the final checks find nothing wrong. -/

namespace Shading

open IR

/-! ## Laws for states -/

/-- What lowering a body does not touch: the declared functions stay as they
    are, and only dropped statements are noted. -/
structure Work.Keeps (w w' : Work) : Prop where
  functions : w'.symbols.functions = w.symbols.functions
  notes : ∃ ds : Diagnostics, w'.diagnostics = w.diagnostics ++ ds ∧
    ∀ d ∈ ds, ∃ span, d.fault = Cause.unreachableCode.atSpan span

theorem Work.Keeps.refl (w : Work) : w.Keeps w := ⟨rfl, [], by simp, by simp⟩

theorem Work.Keeps.trans {w w' w'' : Work} (h₁ : w.Keeps w') (h₂ : w'.Keeps w'') :
    w.Keeps w'' := by
  refine ⟨h₂.functions.trans h₁.functions, ?_⟩
  obtain ⟨ds, hds, hall⟩ := h₁.notes
  obtain ⟨ds', hds', hall'⟩ := h₂.notes
  refine ⟨ds ++ ds', by rw [hds', hds, List.append_assoc], fun d hd => ?_⟩
  rcases List.mem_append.1 hd with hd | hd
  · exact hall d hd
  · exact hall' d hd

namespace Lower

/-- The builder keeps to a law, and the declared functions are kept. -/
def keeping (L : Act.Law Builder Fault) : Act.Law Work Fault where
  answered w w' := L.answered w.builder w'.builder ∧ w.Keeps w'
  refused e w w' := L.refused e w.builder w'.builder ∧ w.Keeps w'
  refl w := ⟨L.refl _, .refl w⟩
  trans h h' := ⟨L.trans h.1 h'.1, h.2.trans h'.2⟩
  after h h' := ⟨L.after h.1 h'.1, h.2.trans h'.2⟩

variable {α β : Type} {L L' : Act.Law Builder Fault}

/-- Emission touches the builder alone, so the tables are kept. -/
theorem keeping_emit {x : Emit α} (h : L.Holds x) : (keeping L).Holds (liftM x : Lower α) :=
  fun w => meets_emit.2 ((h w.builder).mono (fun _ _ hb => ⟨hb, rfl, [], by simp, by simp⟩)
    fun _ _ hb => ⟨hb, rfl, [], by simp, by simp⟩)

theorem keeping_mono {x : Lower α} (h : (keeping L).Holds x)
    (hans : ∀ s t, L.answered s t → L'.answered s t)
    (href : ∀ e s t, L.refused e s t → L'.refused e s t) : (keeping L').Holds x :=
  fun w => (h w).mono (fun _ _ h => ⟨hans _ _ h.1, h.2⟩) fun _ _ h => ⟨href _ _ _ h.1, h.2⟩

/-- A change of scopes or control structures. -/
theorem keeping_modify {g : Work → Work} (hb : ∀ w, (g w).builder = w.builder)
    (hk : ∀ w : Work, w.Keeps (g w)) : (keeping L).Holds (modify g : Lower PUnit) := by
  intro w
  refine ⟨?_, hk w⟩
  show L.answered w.builder (g w).builder
  rw [hb]
  exact L.refl _

theorem keeping_setScopes (s : Scopes) : (keeping L).Holds (setScopes s) :=
  keeping_modify (fun _ => rfl) fun _ => ⟨rfl, [], by simp, by simp⟩

theorem keeping_andAlways {x : Lower α} (hx : (keeping L).Holds x) {after : Work → Work}
    (hb : ∀ w, (after w).builder = w.builder) (hk : ∀ w : Work, w.Keeps (after w)) :
    (keeping L).Holds (x.andAlways after) := by
  intro w
  refine Act.meets_andAlways.2 ((hx w).mono (fun _ t ht => ?_) fun e t ht => ?_)
  · exact ⟨(hb t).symm ▸ ht.1, ht.2.trans (hk t)⟩
  · exact ⟨(hb t).symm ▸ ht.1, ht.2.trans (hk t)⟩

theorem keeping_popScope {x : Lower α} (hx : (keeping L).Holds x) :
    (keeping L).Holds (x.andAlways fun w =>
      { w with symbols := { w.symbols with scopes := w.symbols.scopes.pop } }) :=
  keeping_andAlways hx (fun _ => rfl) fun _ => ⟨rfl, [], by simp, by simp⟩

/-- A frame is taken off again, whatever happens inside. -/
theorem keeping_withFrame {x : Lower α} (hx : (keeping L).Holds x) (frame : Frame) :
    (keeping L).Holds (withFrame frame x) :=
  .bind (keeping_modify (fun _ => rfl) fun _ => ⟨rfl, [], by simp, by simp⟩) fun _ =>
    keeping_andAlways hx (fun _ => rfl) fun _ => ⟨rfl, [], by simp, by simp⟩

/-! ## The three laws -/

/-- No block is left open where an action answers. -/
abbrev closing : Act.Law Work Fault := keeping Emit.closing

/-- The builder stays in a function. -/
abbrev staying (func : FuncId) : Act.Law Work Fault := keeping (Emit.staying func)

variable {func : FuncId} {old : Function} {n : Nat} {P Q : BlockId → Prop} {w : Work}

theorem staying_of_closing {x : Lower α} (h : closing.Holds x) : (staying func).Holds x :=
  keeping_mono h (fun _ _ h => h.framed func) fun _ _ _ h => ⟨h.1 func, h.2⟩

/-- The builder touches nothing but its function, whether an action answers
    or not. -/
abbrev framing : Act.Law Work Fault := keeping Emit.framing

theorem framing_of_closing {x : Lower α} (h : closing.Holds x) : framing.Holds x :=
  keeping_mono h (fun _ _ h => h.framed) fun _ _ _ h => h.1

theorem closing_lift {x : Build α} (h : Emit.closing.Holds (liftM x : Emit α)) :
    closing.Holds (liftM x : Lower α) := keeping_emit h

/-- Straight code leaves no block open. -/
theorem closing_straight {x : Emit α} (h : Emit.straight.Holds x) :
    closing.Holds (liftM x : Lower α) := keeping_emit (Emit.closing_of_straight h)

theorem closing_ofExcept {r : Except Fault α} (h : ∀ {e}, r = .error e → e.kind ≠ .control) :
    closing.Holds (liftM r : Lower α) :=
  .ofExcept fun _ he w => ⟨Emit.closing_refused (Fault.isMissingReturn_of_kind (h he)) _, .refl w⟩

theorem closing_throw {e : Fault} (he : e.isMissingReturn = false) :
    closing.Holds (throw e : Lower α) := fun w => ⟨Emit.closing_refused he _, .refl w⟩

theorem closing_refuseIf {c : Prop} [Decidable c] {e : Fault} (he : e.isMissingReturn = false) :
    closing.Holds (Act.refuseIf c e : Lower Unit) :=
  .refuseIf fun w => ⟨Emit.closing_refused he _, .refl w⟩

/-- An action that stays in its function and fills what it opens. -/
theorem closing_of_staying {x : Lower α} (hstay : ∀ func, (staying func).Holds x)
    (hfills : ∀ func old n P w, w.builder.Fills func old n P →
      x.Meets w (fun _ t => t.builder.Fills func old n P) fun _ _ => True) : closing.Holds x := by
  intro w
  exact Act.meets_of_run
    (fun a t hrun => ⟨⟨fun func => ((hstay func w).of_ok hrun).1, fun func old n P hb =>
      (hfills func old n P w hb).of_ok hrun⟩, ((hstay 0 w).of_ok hrun).2⟩)
    fun e t hrun => ⟨⟨fun func => ((hstay func w).of_error hrun).1.1,
      ((hstay 0 w).of_error hrun).1.2⟩, ((hstay 0 w).of_error hrun).2⟩

theorem currentFunction_staying {k : FuncId → Lower β} (h : ∀ id, (staying id).Holds (k id)) :
    (staying func).Holds ((liftM Build.currentFunction : Lower FuncId) >>= k) := by
  intro w
  have hread : (liftM Build.currentFunction : Lower FuncId).Meets w
      (fun id t => t = w ∧ w.builder.currentFunction? = some id)
      fun e t => t = w ∧ e.isMissingReturn = false := by
    refine meets_build.2 (Act.meets_bind.2 (Build.cursor_meets.mono (fun c t ht => ?_)
      fun e t ht => ?_))
    · obtain ⟨rfl, hc⟩ := ht
      exact ⟨rfl, by simp [Builder.currentFunction?, hc]⟩
    · rw [ht]
      exact ⟨rfl, rfl⟩
  refine Act.meets_bind.2 (hread.mono (fun id t ht => ?_) fun e t ht => ?_)
  · obtain ⟨rfl, hid⟩ := ht
    -- A builder that stands elsewhere is under no obligation.
    have here : ∀ u : Builder, t.builder.Stays id u → t.builder.Stays func u := by
      intro u hu hcur
      rw [hid, Option.some.injEq] at hcur
      rw [← hcur]
      exact hu hid
    exact (h id t).mono (fun _ u hu => ⟨here u.builder hu.1, hu.2⟩)
      fun _ u hu => ⟨⟨here u.builder hu.1.1, hu.1.2⟩, hu.2⟩
  · obtain ⟨rfl, he⟩ := ht
    exact ⟨⟨.refl func _, he⟩, .refl _⟩

/-! ## Filling blocks -/

/-- Code that closes its blocks fills the one it is put into. -/
theorem fills_of_closing {x : Lower α} (hx : closing.Holds x) (h : w.builder.Fills func old n P) :
    x.Meets w (fun _ t => t.builder.Fills func old n P) fun _ _ => True :=
  (hx w).mono (fun _ _ hb => hb.1.fills func old n P h) fun _ _ _ => trivial

/-- What is known of the builder after a step of it. -/
theorem builder_meets {x : Build α} {R : α → Builder → Prop}
    (h : (liftM x : Emit α).Meets w.builder R fun _ _ => True) :
    (liftM x : Lower α).Meets w (fun a t => R a t.builder) fun _ _ => True :=
  meets_build.2 (Act.meets_mapError.1 h)

theorem withFrame_meets {x : Lower α} {frame : Frame} {R : α → Builder → Prop}
    (h : ∀ u : Work, u.builder = w.builder →
      x.Meets u (fun a t => R a t.builder) fun _ _ => True) :
    (withFrame frame x).Meets w (fun a t => R a t.builder) fun _ _ => True :=
  Act.meets_bind.2 (Act.meets_modify.2 (Act.meets_andAlways.2 (h _ rfl)))

/-- Whether the current block is ended is known from the answer. -/
theorem isTerminated_filled (h : w.builder.Fills func old n P) :
    isTerminated.Meets w (fun ended t => t = w ∧ if ended then w.builder.Filled func old n P
      else w.builder.Fills func old n P) fun _ _ => True := by
  refine Act.meets_of_run (fun ended t hrun => ?_) fun _ _ _ => trivial
  obtain ⟨S, hS, hn, hP⟩ := h
  obtain ⟨hended, rfl⟩ := isTerminated_run hS.symm hrun
  refine ⟨rfl, ?_⟩
  cases ended with
  | true => exact ⟨S, hS, hn, hP.drop hended.symm⟩
  | false => exact ⟨S, hS, hn, hP⟩

/-- Control falls into a block, or had left before. -/
theorem fallInto_filled (h : w.builder.Fills func old n P) (target : BlockId) :
    (fallInto target).Meets w (fun _ t => t.builder.Filled func old n P) fun _ _ => True := by
  refine (isTerminated_filled h).bind fun ended t ht => ?_
  obtain ⟨rfl, ht⟩ := ht
  cases ended with
  | true => exact ht
  | false => exact builder_meets (Emit.emitVoid_filled rfl ht)

theorem fallInto_closing (target : BlockId) : closing.Holds (fallInto target) :=
  .bind law_isTerminated fun _ => .onlyIf (closing_lift (Emit.emitVoid_closing _))

end Lower

/-! ## Statements -/

theorem Scopes.checkDeclarable_closing (scopes : Scopes) (name : String) (span : Span) :
    Lower.closing.Holds (liftM (scopes.checkDeclarable name span) : Lower Unit) :=
  Lower.closing_ofExcept fun h => by
    rcases Scopes.checkDeclarable_error h with hk | ⟨-, hk⟩ <;> simp [hk]

theorem Scopes.declare_closing (scopes : Scopes) (name : String) (ty : TypeId) (ptr : Value)
    (span : Span) : Lower.closing.Holds (liftM (scopes.declare name ty ptr span) : Lower Scopes) :=
  Lower.closing_ofExcept fun h => by
    rcases Scopes.declare_error h with hk | ⟨-, hk⟩ <;> simp [hk]

theorem Prototype.shape_closing {types : TypeTable} (id : TypeId) (span : Span) :
    Lower.closing.Holds (liftM (Prototype.shape types id span) : Lower Ty) :=
  Lower.closing_ofExcept fun h => by simp [Prototype.shape_error_kind h]

namespace Lower

section

variable {env : Env} [env.types.Straight] {x y : Lower Unit} {func : FuncId} {old : Function}
  {n : Nat} {P Q : BlockId → Prop} {w : Work}

theorem expr_closing (e : Expr) (s : Symbols) :
    closing.Holds (liftM (e.lower env s) : Lower ExprValue) :=
  keeping_emit (Expr.lower_closing env s e)

theorem owned_closing (e : Expr) (s : Symbols) (expected : TypeId) (span : Span) (what : String) :
    closing.Holds (do
      let z ← (liftM (check env (e.lower env s) expected span what) : Lower ExprValue)
      liftM (Lifetime.materialize env.types z) : Lower Value) :=
  .bind (keeping_emit (Emit.closing_covers.check (e.lower_closing env s) expected span what)) fun z =>
    closing_straight (Lifetime.materialize_straight z)

theorem exprStmt_closing (e : Expr) : closing.Holds (exprStmt env e) :=
  .bind law_symbols fun s => .bind (expr_closing e s) fun v =>
    closing_straight (Lifetime.release_straight v)

theorem initialValue_closing (ty : TypeId) (name : String) (init : Option Expr) (span : Span) :
    closing.Holds (initialValue env ty name init span) := by
  cases init with
  | some e => exact .bind law_symbols fun s => owned_closing e s _ _ _
  | none =>
    exact .bind_ofExcept (closing_ofExcept fun h => by simp [TypeTable.resolve_error h]) fun d hd =>
      .bind (closing_straight (Emit.straight_located
        (TypeTable.Straight.of_resolve hd).defaultValue_straight span)) fun _ => .pure _

/-- A declaration opens no block. -/
theorem varDecl_closing (ty : TypeName) (name : Ident) (init : Option Expr) (span : Span) :
    closing.Holds (varDecl env ty name init span) :=
  .bind (closing_ofExcept fun h => by simp [TypeTable.resolveName_error h]) fun id =>
    .bind (closing_refuseIf rfl) fun _ => .bind law_symbols fun s =>
    .bind (s.scopes.checkDeclarable_closing _ _) fun _ =>
    .bind (Prototype.shape_closing id ty.span) fun shape =>
    .bind (initialValue_closing id name.name init span) fun v =>
    .bind (closing_lift (Emit.closing_lift (Build.alloca_straight shape name.name))) fun ptr =>
    .bind (closing_lift (Emit.closing_lift (Build.store_straight v ptr))) fun _ =>
    .bind law_symbols fun s' =>
    .bind (s'.scopes.declare_closing _ _ _ _) fun _ => keeping_setScopes _

theorem returnValue_closing (frame : FunctionFrame) (value : Option Expr) (span : Span) :
    closing.Holds (returnValue env frame value span) := by
  cases value with
  | none => exact .bind (closing_refuseIf rfl) fun _ => .pure _
  | some e =>
    refine .bind (closing_refuseIf rfl) fun _ => .bind law_symbols fun s => ?_
    exact .bind (keeping_emit (Emit.closing_covers.check (e.lower_closing env s) _ _ _)) fun z =>
      .bind (closing_straight (Lifetime.materialize_straight z)) fun _ => .pure _

/-- A return leaves no block open. -/
theorem returnStmt_closing (value : Option Expr) (span : Span) :
    closing.Holds (returnStmt env value span) := by
  refine .bind law_symbols fun s => ?_
  split
  · exact closing_throw rfl
  · exact .bind (returnValue_closing _ value span) fun v => .bind law_symbols fun s' =>
      .bind (closing_straight (Lifetime.destroySlots_straight _)) fun _ =>
      closing_lift (Emit.ret_closing v)

theorem jump_closing (keyword : String) (target : LoopFrame → BlockId) (span : Span) :
    closing.Holds (jump env keyword target span) := by
  refine .bind law_symbols fun s => ?_
  split
  · exact closing_throw rfl
  · exact .bind law_symbols fun s' =>
      .bind (closing_straight (Lifetime.destroySlots_straight _)) fun _ =>
      closing_lift (Emit.emitVoid_closing _)

omit [env.types.Straight] in
theorem dropUnreachable_closing (span : Span) : closing.Holds (dropUnreachable env span) := by
  unfold dropUnreachable
  split
  · exact closing_throw rfl
  · refine .bind law_symbols fun s => keeping_modify (fun _ => rfl) fun w => ?_
    refine ⟨rfl, [_], rfl, fun d hd => ?_⟩
    rw [List.mem_singleton.1 hd]
    exact ⟨span, rfl⟩

omit [env.types.Straight] in
theorem unlessEnded_closing (hx : closing.Holds x) (span : Span) :
    closing.Holds (unlessEnded env span x) :=
  .bind law_isTerminated fun _ => .ite (dropUnreachable_closing span) hx

theorem inScope_closing (hx : closing.Holds x) : closing.Holds (inScope env x) :=
  .bind law_symbols fun _ => .bind (keeping_setScopes _) fun _ =>
    .bind (keeping_popScope (.bind hx fun _ => .bind law_symbols fun _ => .pure _)) fun slots =>
    .bind law_isTerminated fun _ =>
    .onlyIf (closing_straight (Lifetime.destroySlots_straight slots))

theorem nested_closing (hx : closing.Holds x) (span : Span) : closing.Holds (nested env span x) :=
  inScope_closing (unlessEnded_closing hx span)

theorem branchCondition_closing (c : Expr) : closing.Holds (branchCondition env c) :=
  .bind law_symbols fun s => keeping_emit (Emit.closing_covers.condition (c.lower_closing env s) _)

/-- A conditional fills its branch and goes on behind it. -/
theorem ifThen_closing (c : Expr) (hx : closing.Holds x) : closing.Holds (ifThen env c x) := by
  refine closing_of_staying (fun func => ?_) fun func old n P w hw => ?_
  · exact .bind (staying_of_closing (branchCondition_closing c)) fun _ =>
      currentFunction_staying fun id => .bind (keeping_emit (Emit.appendBlock_staying _)) fun _ =>
      .bind (keeping_emit (Emit.appendBlock_staying _)) fun _ =>
      .bind (staying_of_closing (closing_lift (Emit.condBr_closing _ _ _))) fun _ =>
      .bind (keeping_withFrame (.bind (keeping_emit (Emit.moveTo_staying _)) fun _ =>
        .bind (staying_of_closing hx) fun _ => staying_of_closing (fallInto_closing _)) _) fun _ =>
      keeping_emit (Emit.moveTo_staying _)
  · refine (fills_of_closing (branchCondition_closing c) hw).bind fun v w₁ hw₁ => ?_
    refine (builder_meets (Emit.currentFunction_fills hw₁)).bind fun id w₂ hw₂ => ?_
    obtain ⟨rfl, hw₂⟩ := hw₂
    refine (builder_meets (Emit.appendBlock_fills hw₂ _)).bind fun thenBlock w₃ hw₃ => ?_
    obtain ⟨hthen, hw₃⟩ := hw₃
    refine (builder_meets (Emit.appendBlock_fills hw₃ _)).bind fun join w₄ hw₄ => ?_
    obtain ⟨hjoin, hw₄⟩ := hw₄
    refine (builder_meets (Emit.condBr_filled _ _ _ hw₄)).bind fun _ w₅ hw₅ => ?_
    have hold := hw.old_le
    -- The branch is filled while the join waits.
    refine (withFrame_meets (R := fun _ b => b.Filled id old (join + 1) fun c => P c ∨ c = join)
      fun u hu => ?_).bind fun _ w₆ hw₆ => ?_
    · rw [← hu] at hw₅
      refine (builder_meets (Emit.moveTo_fills (Q := fun c => P c ∨ c = join) hw₅
        (hold.trans hthen) (Nat.lt_succ_of_lt hjoin) (by tauto))).bind fun _ u₁ hu₁ => ?_
      exact (fills_of_closing hx hu₁).bind fun _ u₂ hu₂ => fallInto_filled hu₂ join
    · refine (builder_meets (Emit.moveTo_fills (Q := P) hw₆ (by omega) (Nat.lt_succ_self join)
        (by tauto))).mono (fun _ t ht => ?_) fun _ _ h => h
      exact ht.mono hold (by omega) fun _ h => h

/-- A branch leaves at most its last block open, and says which. -/
theorem branch_filled (hx : closing.Holds x) {start : BlockId}
    (hold : old.blocks.length ≤ start) (hs : start < n)
    (hw : w.builder.Filled func old n P) (hPQ : ∀ c, P c → c = start ∨ Q c) :
    (branch func start x).Meets w
      (fun a t => ∃ m, n ≤ m ∧ (∀ c ∈ a.toList, old.blocks.length ≤ c ∧ c < m) ∧
        t.builder.Filled func old m fun c => c ∈ a.toList ∨ Q c) fun _ _ => True := by
  refine (builder_meets (Emit.moveTo_fills (Q := Q) hw hold hs hPQ)).bind fun _ w₁ hw₁ => ?_
  refine (fills_of_closing hx hw₁).bind fun _ w₂ hw₂ => ?_
  refine (isTerminated_filled hw₂).bind fun ended w₃ hw₃ => ?_
  obtain ⟨rfl, hw₃⟩ := hw₃
  cases ended with
  -- The branch has ended its block itself and leaves nothing to close.
  | true =>
    obtain ⟨S, hS, hn, hQ⟩ := hw₃
    exact ⟨n, Nat.le_refl n, by simp, S, hS, hn, hQ.mono fun c hc => .inr hc⟩
  | false =>
    -- Its last block is open, and its id is handed on for the jump to the join block.
    obtain ⟨S, hS, hn, hQ⟩ := hw₃
    show (do let a ← (liftM Build.currentBlock : Lower BlockId); pure (some a)).Meets _ _ _
    refine Act.meets_bind.2 (Act.meets_of_run (fun blk t hrun => ?_) fun _ _ _ => trivial)
    obtain ⟨b, hb, rfl⟩ := run_build_eq_ok.1 hrun
    rw [← hS] at hb
    obtain ⟨rfl, rfl⟩ := Build.currentBlock_run hb
    refine ⟨S.body.blocks.length, hn.length, ?_, S, rfl,
      { hn with old_le := hn.old_le.trans hn.length, length := Nat.le_refl _ }, hQ.mono fun c hc => ?_⟩
    · simp only [Option.toList_some, List.mem_singleton, forall_eq]
      exact ⟨hn.block, S.inside⟩
    · simpa using hc

/-- Each block that a branch leaves open goes on with the join. -/
theorem join_filled {join : BlockId} (ends : List BlockId) :
    ∀ {w : Work}, (∀ c ∈ ends, old.blocks.length ≤ c ∧ c < n) →
      w.builder.Filled func old n (fun c => c ∈ ends ∨ P c) →
    (ends.forM fun block => do
      (liftM (Build.moveTo func block) : Lower Unit)
      (liftM (Build.br join) : Lower Unit)).Meets w
        (fun _ t => t.builder.Filled func old n P) fun _ _ => True := by
  -- By induction on the ends: each one leaves those that have been waiting.
  induction ends with
  | nil =>
    intro w _ hw
    obtain ⟨S, hS, hn, hP⟩ := hw
    exact ⟨S, hS, hn, hP.mono fun c hc => by simpa using hc⟩
  | cons block rest ih =>
    intro w hends hw
    obtain ⟨hold, hlt⟩ := hends block List.mem_cons_self
    refine Act.Meets.bind (Q := fun _ t => t.builder.Filled func old n fun c => c ∈ rest ∨ P c) ?_
      fun _ t ht => ih (fun c hc => hends c (List.mem_cons_of_mem _ hc)) ht
    refine (builder_meets (Emit.moveTo_fills (Q := fun c => c ∈ rest ∨ P c) hw hold hlt
      fun c hc => ?_)).bind fun _ t ht => ?_
    · rw [List.mem_cons, or_assoc] at hc
      exact hc
    · exact builder_meets (Emit.emitVoid_filled rfl ht)

/-- A conditional with two branches fills both before it goes on. -/
theorem ifThenElse_closing (c : Expr) (hx : closing.Holds x) (hy : closing.Holds y) :
    closing.Holds (ifThenElse env c x y) := by
  refine closing_of_staying (fun func => ?_) fun func old n P w hw => ?_
  · have hbranch : ∀ id start (z : Lower Unit), closing.Holds z →
        (staying id).Holds (branch id start z) := fun id start z hz =>
      .bind (keeping_emit (Emit.moveTo_staying _)) fun _ => .bind (staying_of_closing hz) fun _ =>
        .bind law_isTerminated fun _ => .ite (.pure _)
          (.bind (staying_of_closing (closing_lift Emit.currentBlock_closing)) fun _ => .pure _)
    exact .bind (staying_of_closing (branchCondition_closing c)) fun _ =>
      currentFunction_staying fun id => .bind (keeping_emit (Emit.appendBlock_staying _)) fun _ =>
      .bind (keeping_emit (Emit.appendBlock_staying _)) fun _ =>
      .bind (staying_of_closing (closing_lift (Emit.condBr_closing _ _ _))) fun _ =>
      .bind (keeping_withFrame (.bind (hbranch _ _ _ hx) fun _ =>
        .bind (hbranch _ _ _ hy) fun _ => .pure _) _) fun ends =>
      .onlyIf (.bind (keeping_emit (Emit.appendBlock_staying _)) fun _ =>
        .bind (.forM fun _ => .bind (keeping_emit (Emit.moveTo_staying _)) fun _ =>
          staying_of_closing (closing_lift (Emit.emitVoid_closing _))) fun _ =>
        keeping_emit (Emit.moveTo_staying _))
  · refine (fills_of_closing (branchCondition_closing c) hw).bind fun v w₁ hw₁ => ?_
    refine (builder_meets (Emit.currentFunction_fills hw₁)).bind fun id w₂ hw₂ => ?_
    obtain ⟨rfl, hw₂⟩ := hw₂
    refine (builder_meets (Emit.appendBlock_fills hw₂ _)).bind fun thenBlock w₃ hw₃ => ?_
    obtain ⟨hthen, hw₃⟩ := hw₃
    refine (builder_meets (Emit.appendBlock_fills hw₃ _)).bind fun elseBlock w₄ hw₄ => ?_
    obtain ⟨helse, hw₄⟩ := hw₄
    refine (builder_meets (Emit.condBr_filled _ _ _ hw₄)).bind fun _ w₅ hw₅ => ?_
    have hold := hw.old_le
    -- What the branches leave open is exactly what they report.
    refine (withFrame_meets (R := fun ends b => ∃ m, n ≤ m ∧
      (∀ c ∈ ends, old.blocks.length ≤ c ∧ c < m) ∧ b.Filled id old m fun c => c ∈ ends ∨ P c)
      fun u hu => ?_).bind fun ends w₆ hw₆ => ?_
    · rw [← hu] at hw₅
      refine (branch_filled (Q := fun c => P c ∨ c = elseBlock) hx (hold.trans hthen)
        (Nat.lt_succ_of_lt helse) hw₅ (by tauto)).bind fun a u₁ hu₁ => ?_
      obtain ⟨m, hm, ha, hu₁⟩ := hu₁
      have hlt : elseBlock < m := Nat.lt_of_lt_of_le (Nat.lt_succ_self _) hm
      refine (branch_filled (Q := fun c => c ∈ a.toList ∨ P c) hy (by omega) hlt hu₁
        (by tauto)).bind fun b u₂ hu₂ => ?_
      obtain ⟨m', hm', hb, S, hS, hlen, hP⟩ := hu₂
      refine ⟨m', by omega, fun c hc => ?_, S, hS, hlen, hP.mono fun c hc => ?_⟩
      · rcases List.mem_append.1 hc with hc | hc
        · exact ⟨(ha c hc).1, Nat.lt_of_lt_of_le (ha c hc).2 hm'⟩
        · exact hb c hc
      · rw [List.mem_append]
        tauto
    · obtain ⟨m, hm, hends, hw₆⟩ := hw₆
      refine Act.meets_onlyIf.2 ⟨fun _ => ?_, fun hnil => ?_⟩
      · refine (builder_meets (Emit.appendBlock_filled hw₆ _)).bind fun join w₇ hw₇ => ?_
        obtain ⟨hjoin, -, S, hS, hlen, hP⟩ := hw₇
        refine (join_filled (P := fun c => P c ∨ c = join) (n := join + 1) ends
          (fun c hc => ⟨(hends c hc).1,
            Nat.lt_of_lt_of_le (hends c hc).2 (hjoin.trans (Nat.le_succ _))⟩)
          ⟨S, hS, hlen, hP.mono (by tauto)⟩).bind fun _ w₈ hw₈ => ?_
        refine (builder_meets (Emit.moveTo_fills (Q := P) hw₈ (hold.trans (hm.trans hjoin))
          (Nat.lt_succ_self join) (by tauto))).mono (fun _ t ht => ?_) fun _ _ h => h
        exact ht.mono hold (hm.trans (hjoin.trans (Nat.le_succ _))) fun _ h => h
      · obtain rfl : ends = [] := by simpa using hnil
        obtain ⟨S, hS, hlen, hP⟩ := hw₆
        exact ⟨S, hS, { hlen with old_le := hold, length := hm.trans hlen.length },
          hP.mono fun c hc => .inr (by simpa using hc)⟩

theorem enterBody_closing (c : Value) (body done : BlockId) :
    Emit.closing.Holds (liftM (enterBody c body done) : Emit Unit) := by
  unfold enterBody
  split
  · exact Emit.emitVoid_closing _
  · exact Emit.condBr_closing c body done

theorem enterBody_filled {b : Builder} (c : Value) (body done : BlockId)
    (h : b.Fills func old n P) :
    (liftM (enterBody c body done) : Emit Unit).Meets b (fun _ t => t.Filled func old n P)
      fun _ _ => True := by
  unfold enterBody
  split
  · exact Emit.emitVoid_filled rfl h
  · exact Emit.condBr_filled c body done h

/-- A loop fills its head and its body, and goes on behind both. -/
theorem loop_closing (c : Expr) (hx : closing.Holds x) : closing.Holds (loop env c x) := by
  refine closing_of_staying (fun func => ?_) fun func old n P w hw => ?_
  · exact currentFunction_staying fun id =>
      .bind (keeping_emit (Emit.appendBlock_staying _)) fun _ =>
      .bind (keeping_emit (Emit.appendBlock_staying _)) fun _ =>
      .bind (keeping_emit (Emit.appendBlock_staying _)) fun _ =>
      .bind (staying_of_closing (closing_lift (Emit.emitVoid_closing _))) fun _ =>
      .bind (keeping_emit (Emit.moveTo_staying _)) fun _ =>
      .bind (staying_of_closing (branchCondition_closing c)) fun v =>
      .bind (staying_of_closing (closing_lift (enterBody_closing v _ _))) fun _ =>
      .bind law_symbols fun _ =>
      .bind (keeping_withFrame (.bind (keeping_emit (Emit.moveTo_staying _)) fun _ =>
        .bind (staying_of_closing hx) fun _ => staying_of_closing (fallInto_closing _)) _) fun _ =>
      keeping_emit (Emit.moveTo_staying _)
  · refine (builder_meets (Emit.currentFunction_fills hw)).bind fun id w₁ hw₁ => ?_
    obtain ⟨rfl, hw₁⟩ := hw₁
    refine (builder_meets (Emit.appendBlock_fills hw₁ _)).bind fun cond w₂ hw₂ => ?_
    obtain ⟨hcond, hw₂⟩ := hw₂
    refine (builder_meets (Emit.appendBlock_fills hw₂ _)).bind fun body w₃ hw₃ => ?_
    obtain ⟨hbody, hw₃⟩ := hw₃
    refine (builder_meets (Emit.appendBlock_fills hw₃ _)).bind fun done w₄ hw₄ => ?_
    obtain ⟨hdone, hw₄⟩ := hw₄
    refine (builder_meets (Emit.emitVoid_filled rfl hw₄)).bind fun _ w₅ hw₅ => ?_
    have hold := hw.old_le
    -- The condition is filled while the body and the end of the loop wait.
    refine (builder_meets (Emit.moveTo_fills (Q := fun c => (P c ∨ c = body) ∨ c = done) hw₅
      (hold.trans hcond) (Nat.lt_succ_of_lt (Nat.lt_trans hbody hdone)) (by tauto))).bind
        fun _ w₆ hw₆ => ?_
    refine (fills_of_closing (branchCondition_closing c) hw₆).bind fun v w₇ hw₇ => ?_
    refine (builder_meets (enterBody_filled v _ _ hw₇)).bind fun _ w₈ hw₈ => ?_
    refine Act.Meets.bind (Q := fun _ t => t = w₈) rfl fun s w₉ hw₉ => ?_
    rw [hw₉]
    refine (withFrame_meets (R := fun _ b => b.Filled id old (done + 1) fun c => P c ∨ c = done)
      fun u hu => ?_).bind fun _ w₁₀ hw₁₀ => ?_
    · rw [← hu] at hw₈
      refine (builder_meets (Emit.moveTo_fills (Q := fun c => P c ∨ c = done) hw₈
        (by omega) (Nat.lt_succ_of_lt hdone) (by tauto))).bind fun _ u₁ hu₁ => ?_
      exact (fills_of_closing hx hu₁).bind fun _ u₂ hu₂ => fallInto_filled hu₂ cond
    · refine (builder_meets (Emit.moveTo_fills (Q := P) hw₁₀ (by omega) (Nat.lt_succ_self done)
        (by tauto))).mono (fun _ t ht => ?_) fun _ _ h => h
      exact ht.mono hold (by omega) fun _ h => h

end

end Lower

section

variable (env : Env) [env.types.Straight]

set_option linter.unusedSectionVars false in
mutual

/-- A statement fills every block it appends. -/
theorem Stmt.lower_closing : (s : Stmt) → Lower.closing.Holds (s.lower env)
  | .expr e _ => Lower.exprStmt_closing e
  | .decl ty name init span => Lower.varDecl_closing ty name init span
  | .ret value span => Lower.returnStmt_closing value span
  | .breakLoop span => Lower.jump_closing _ _ span
  | .continueLoop span => Lower.jump_closing _ _ span
  | .block stmts _ => Lower.inScope_closing (Stmt.lowerAll_closing stmts)
  | .ifThen c t _ => Lower.ifThen_closing c (Lower.nested_closing (Stmt.lower_closing t) _)
  | .ifThenElse c t e _ =>
    Lower.ifThenElse_closing c (Lower.nested_closing (Stmt.lower_closing t) _)
      (Lower.nested_closing (Stmt.lower_closing e) _)
  | .loop c b _ => Lower.loop_closing c (Lower.nested_closing (Stmt.lower_closing b) _)

theorem Stmt.lowerAll_closing : (ss : List Stmt) → Lower.closing.Holds (Stmt.lowerAll env ss)
  | [] => .pure _
  | s :: rest => Lower.unlessEnded_closing
      (.bind (Stmt.lower_closing s) fun _ => Stmt.lowerAll_closing rest) s.span

end

end

end Shading
