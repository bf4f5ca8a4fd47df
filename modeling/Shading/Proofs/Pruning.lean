import Shading.Proofs.OpenBlocks
import Shading.Proofs.TwinStatements

/-! # Dropping statements is deleting them

    Statements that control cannot reach are found by asking the builder
    whether its block is ended.  The same statements are found in the source:
    they are those behind a statement that terminates (`Stmt.terminates`).
    Lowering a function therefore does the same as lowering it without them,
    but for warnings, and it warns exactly if there is something to delete
    (`Lower.function_pruned`).

    Two runs are compared step by step (`Lower.Trims`).  The comparison knows
    where the builder stands, because a builder that stands nowhere never ends
    a block. -/

namespace Shading

open IR

/-! ## Statements that terminate -/

mutual

/-- Control never runs off the end of the statement. -/
def Stmt.terminates : Stmt → Bool
  | .ret .. | .breakLoop _ | .continueLoop _ => true
  | .block stmts _ => Stmt.anyTerminates stmts
  | .ifThenElse _ t e _ => t.terminates && e.terminates
  | _ => false

def Stmt.anyTerminates : List Stmt → Bool
  | [] => false
  | s :: rest => s.terminates || Stmt.anyTerminates rest

end

mutual

/-- Delete what follows a terminating statement, at every depth. -/
def Stmt.prune : Stmt → Stmt
  | .block stmts span => .block (Stmt.pruneAll stmts) span
  | .ifThen c t span => .ifThen c t.prune span
  | .ifThenElse c t e span => .ifThenElse c t.prune e.prune span
  | .loop c b span => .loop c b.prune span
  | s => s

def Stmt.pruneAll : List Stmt → List Stmt
  | [] => []
  | s :: rest => s.prune :: if s.terminates then [] else Stmt.pruneAll rest

end

/-- The function without statements that control cannot reach. -/
def FunctionDecl.pruned (decl : FunctionDecl) : FunctionDecl :=
  { decl with body := Stmt.pruneAll decl.body }

/-! ## Two runs -/

/-- A warning about a statement that control cannot reach. -/
def Diagnostic.IsUnreachable (d : Diagnostic) : Prop :=
  d.severity = .warning ∧ ∃ span, d.fault = Cause.unreachableCode.atSpan span

namespace Lower

/-- Two actions do the same from a builder.  The first one notes warnings about
    unreachable statements, the second one notes nothing; where they answer,
    there are such warnings exactly if `d` holds. -/
def Trims {α : Type} (d : Prop) (x y : Lower α) (b : Builder) (Q : α → Builder → Prop) : Prop :=
  ∀ s ds ds', ∃ r b' s' noted,
    x.run ⟨b, s, ds⟩ = (r, ⟨b', s', ds ++ noted⟩) ∧ y.run ⟨b, s, ds'⟩ = (r, ⟨b', s', ds'⟩) ∧
    (∀ n ∈ noted, n.IsUnreachable) ∧ ∀ a, r = .ok a → Q a b' ∧ (noted ≠ [] ↔ d)

namespace Trims

variable {α β : Type} {d d₁ d₂ : Prop} {x y : Lower α} {k l : α → Lower β} {b : Builder}
  {Q Q' : α → Builder → Prop} {R : β → Builder → Prop}

theorem mono (h : Trims d x y b Q) (hQ : ∀ a b', Q a b' → Q' a b') : Trims d x y b Q' := by
  intro s ds ds'
  obtain ⟨r, b', s', noted, hx, hy, hnoted, ha⟩ := h s ds ds'
  exact ⟨r, b', s', noted, hx, hy, hnoted, fun a hr => ⟨hQ a b' (ha a hr).1, (ha a hr).2⟩⟩

theorem congr (h : Trims d₁ x y b Q) (hd : d₁ ↔ d₂) : Trims d₂ x y b Q := by
  rwa [← propext hd]

/-- Both note nothing and do the same. -/
theorem of_run {r : Except Fault α} {b' : Builder} {g : Symbols → Symbols}
    (hx : ∀ s ds, x.run ⟨b, s, ds⟩ = (r, ⟨b', g s, ds⟩))
    (hy : ∀ s ds, y.run ⟨b, s, ds⟩ = (r, ⟨b', g s, ds⟩)) (hQ : ∀ a, r = .ok a → Q a b') :
    Trims False x y b Q := by
  intro s ds ds'
  refine ⟨r, b', g s, [], ?_, hy s ds', fun n hn => absurd hn List.not_mem_nil, fun a ha => ?_⟩
  · rw [hx, List.append_nil]
  · exact ⟨hQ a ha, by simp⟩

theorem bind (hx : Trims d₁ x y b Q) (hk : ∀ a b', Q a b' → Trims d₂ (k a) (l a) b' R) :
    Trims (d₁ ∨ d₂) (x >>= k) (y >>= l) b R := by
  intro s ds ds'
  obtain ⟨r, b', s', noted, hxrun, hyrun, hnoted, ha⟩ := hx s ds ds'
  cases r with
  | error e =>
    refine ⟨.error e, b', s', noted, ?_, ?_, hnoted, fun a h => by cases h⟩
    · rw [Act.run_bind, hxrun]
    · rw [Act.run_bind, hyrun]
  | ok a =>
    obtain ⟨hQ, hd₁⟩ := ha a rfl
    obtain ⟨r, b'', s'', noted', hkrun, hlrun, hnoted', hc⟩ := hk a b' hQ s' (ds ++ noted) ds'
    refine ⟨r, b'', s'', noted ++ noted', ?_, ?_, fun n hn => ?_, fun c hr => ?_⟩
    · rw [Act.run_bind, hxrun]
      simp only [hkrun, List.append_assoc]
    · rw [Act.run_bind, hyrun]
      simp only [hlrun]
    -- Something has been dropped if it was dropped in either half.
    · exact (List.mem_append.1 hn).elim (hnoted n) (hnoted' n)
    · obtain ⟨hR, hd₂⟩ := hc c hr
      refine ⟨hR, ?_⟩
      rw [← hd₁, ← hd₂, ne_eq, List.append_eq_nil_iff, not_and_or]

theorem pure {a : α} (h : Q a b) : Trims False (Pure.pure a) (Pure.pure a) b Q :=
  of_run (g := id) (fun _ _ => rfl) (fun _ _ => rfl) fun c hc => by
    cases hc
    exact h

theorem throw (e : Fault) : Trims d (throw e : Lower α) (throw e) b Q := by
  intro s ds ds'
  refine ⟨.error e, b, s, [], ?_, rfl, fun n hn => absurd hn List.not_mem_nil,
    fun a h => by cases h⟩
  rw [List.append_nil]
  rfl

/-- What is done in front does not depend on the diagnostics. -/
theorem after (hx : Trims False x y b Q) (hk : ∀ a b', Q a b' → Trims d (k a) (l a) b' R) :
    Trims d (x >>= k) (y >>= l) b R :=
  (hx.bind hk).congr (iff_of_eq (false_or d))

theorem before (hx : Trims d x y b Q) (hk : ∀ a b', Q a b' → Trims False (k a) (l a) b' R) :
    Trims d (x >>= k) (y >>= l) b R :=
  (hx.bind hk).congr (iff_of_eq (or_false d))

/-- Code is emitted. -/
theorem emit {x : Emit α} (h : x.Yields b Q) : Trims False (Lower.emit x) (Lower.emit x) b Q :=
  of_run (g := id) (fun _ _ => rfl) (fun _ _ => rfl) fun a ha =>
    Act.Meets.of_ok h (show x.run b = (.ok a, (x.run b).2) from Prod.ext ha rfl)

theorem emit_run {x : Emit α} {a : α} {t : Builder} (hx : x.run b = (.ok a, t))
    (hk : Trims d (k a) (l a) t R) :
    Trims d (Lower.emit x >>= k) (Lower.emit x >>= l) b R := by
  refine (emit (Q := fun c u => c = a ∧ u = t) (.of_run fun c u hrun => ?_)).after ?_
  · rw [hx] at hrun
    cases hrun
    exact ⟨rfl, rfl⟩
  · rintro c u ⟨rfl, rfl⟩
    exact hk

theorem ofExcept {r : Except Fault α} (hk : ∀ a, r = .ok a → Trims d (k a) (l a) b R) :
    Trims d ((Act.ofExcept r : Lower α) >>= k) ((Act.ofExcept r : Lower α) >>= l) b R := by
  refine (of_run (Q := fun a t => r = .ok a ∧ t = b) (g := id) (fun _ _ => rfl) (fun _ _ => rfl)
    fun a ha => ⟨ha, rfl⟩).after ?_
  rintro a t ⟨ha, rfl⟩
  exact hk a ha

theorem refuseIf {c : Prop} [Decidable c] {e : Fault} {k l : Unit → Lower β}
    (hk : ¬c → Trims d (k ()) (l ()) b R) :
    Trims d ((Act.refuseIf c e : Lower Unit) >>= k) ((Act.refuseIf c e : Lower Unit) >>= l) b
      R := by
  unfold Act.refuseIf
  by_cases hc : c
  · rw [if_pos hc]
    exact throw e
  · rw [if_neg hc]
    exact hk hc

theorem onlyIf {c : Prop} [Decidable c] {x y : Lower Unit} {Q : Unit → Builder → Prop}
    (hx : c → Trims False x y b Q) (hskip : ¬c → Q () b) :
    Trims False (Act.onlyIf c x) (Act.onlyIf c y) b Q := by
  unfold Act.onlyIf
  by_cases hc : c
  · rw [if_pos hc, if_pos hc]
    exact hx hc
  · rw [if_neg hc, if_neg hc]
    exact .pure (hskip hc)

theorem forM {as : List α} {x : α → Lower PUnit} {I : Builder → Prop} (hb : I b)
    (h : ∀ a ∈ as, ∀ b', I b' → Trims False (x a) (x a) b' fun _ t => I t) :
    Trims False (as.forM x) (as.forM x) b fun _ t => I t := by
  induction as generalizing b with
  | nil => exact .pure hb
  | cons a as ih =>
    exact (h a List.mem_cons_self b hb).after fun _ t ht =>
      ih ht fun a' ha' => h a' (List.mem_cons_of_mem _ ha')

/-! ### Symbols -/

theorem symbols {k l : Symbols → Lower β} (hk : ∀ s, Trims d (k s) (l s) b R) :
    Trims d (Lower.symbols >>= k) (Lower.symbols >>= l) b R := fun s => hk s s

theorem isTerminated {k l : Bool → Lower β}
    (hk : Trims d (k b.isTerminated) (l b.isTerminated) b R) :
    Trims d (Lower.isTerminated >>= k) (Lower.isTerminated >>= l) b R := hk

theorem modifySymbols (g : Symbols → Symbols) {k l : PUnit → Lower β}
    (hk : Trims d (k ()) (l ()) b R) :
    Trims d ((modify fun w : Work => { w with symbols := g w.symbols }) >>= k)
      ((modify fun w : Work => { w with symbols := g w.symbols }) >>= l) b R := fun s => hk (g s)

/-- Symbols are put back, whatever has happened. -/
theorem andAlways (hx : Trims d x y b Q) (g : Symbols → Symbols) :
    Trims d (x.andAlways fun w => { w with symbols := g w.symbols })
      (y.andAlways fun w => { w with symbols := g w.symbols }) b Q := by
  intro s ds ds'
  obtain ⟨r, b', s', noted, hxrun, hyrun, hnoted, ha⟩ := hx s ds ds'
  refine ⟨r, b', g s', noted, ?_, ?_, hnoted, ha⟩
  · rw [Act.run_andAlways, hxrun]
  · rw [Act.run_andAlways, hyrun]

theorem withFrame (hx : Trims d x y b Q) (frame : Frame) :
    Trims d (Lower.withFrame frame x) (Lower.withFrame frame y) b Q :=
  .modifySymbols (fun s => { s with control := frame :: s.control })
    (hx.andAlways fun s => { s with control := s.control.tail })

theorem setScopes (s : Scopes) {R : Unit → Builder → Prop} (h : R () b) :
    Trims False (Lower.setScopes s) (Lower.setScopes s) b R :=
  of_run (g := fun t => { t with scopes := s }) (fun _ _ => rfl) (fun _ _ => rfl) fun _ _ => h

end Trims

/-- From an open block two lowerings do the same, but for warnings, and end
    their block or not. -/
def Cuts (d : Prop) (ended : Bool) (x y : Lower Unit) : Prop :=
  ∀ ⦃b func block f⦄, b.StandsAt func block f → f.isTerminated block = false →
    Trims d x y b fun _ t => t.From func block f ended

/-! ## Plain statements -/

section

variable {α β : Type} {d : Prop} {env : Env} [env.types.Straight] {func : FuncId}
  {home block : BlockId} {f g : Function} {b : Builder} {k l : α → Lower β} {R : β → Builder → Prop}
  {ended : Bool} {x y : Lower Unit}

/-- Code that stays in open blocks is emitted in front of the rest. -/
theorem Trims.carry {x : Emit α} (hx : Emit.carrying.Holds x) (hb : b.Reaches func home f block g)
    (hopen : g.isTerminated block = false)
    (hk : ∀ a b' here g', b'.Reaches func home f here g' → g'.isTerminated here = false →
      Trims d (k a) (l a) b' R) :
    Trims d (Lower.emit x >>= k) (Lower.emit x >>= l) b R := by
  refine (Trims.emit (Emit.carrying_reaches hx hb.stands hopen)).after ?_
  rintro a b' ⟨here, g', hb', hopen'⟩
  exact hk a b' here g' (hb.trans hb') hopen'

theorem Trims.carried {x : Emit α} (hx : Emit.carrying.Holds x)
    (hb : b.Reaches func home f block g) (hopen : g.isTerminated block = false) :
    Trims False (Lower.emit x) (Lower.emit x) b fun _ t => t.From func home f false :=
  (Trims.emit (Emit.carrying_reaches hx hb.stands hopen)).mono fun _ _ ht => .trans hb ht

theorem straight_carried {x : Emit α} (hx : Emit.straight.Holds x)
    (hb : b.Reaches func home f block g) (hopen : g.isTerminated block = false) :
    Trims False (Lower.emit x) (Lower.emit x) b fun _ t => t.From func home f false :=
  .carried (Emit.carrying_of_straight hx) hb hopen

theorem exprStmt_cuts (e : Expr) : Cuts False false (exprStmt env e) (exprStmt env e) :=
  fun _ _ _ _ hb hopen => .symbols fun s => .carry (e.lower_carrying env s) hb.reaches hopen
    fun x _ _ _ hb' hopen' => straight_carried (Lifetime.release_straight x) hb' hopen'

theorem initialValue_trims (ty : TypeId) (name : String) (init : Option Expr) (span : Span)
    (hb : b.Reaches func home f block g) (hopen : g.isTerminated block = false) :
    Trims False (initialValue env ty name init span) (initialValue env ty name init span) b
      fun _ t => t.From func home f false := by
  cases init with
  | some e =>
    exact .symbols fun s => .carry (check_carrying e ty e.span _) hb hopen fun x _ _ _ hb' hopen' =>
      straight_carried (Lifetime.materialize_straight x) hb' hopen'
  | none =>
    refine .ofExcept (r := env.types.resolve ty) fun d hd => .carry (Emit.carrying_of_straight
      (Emit.straight_located (TypeTable.Straight.of_resolve hd).defaultValue_straight span)) hb hopen
      fun x _ _ _ hb' hopen' => ?_
    exact .pure ⟨_, _, hb', hopen'⟩

theorem varDecl_cuts (ty : TypeName) (name : Ident) (init : Option Expr) (span : Span) :
    Cuts False false (varDecl env ty name init span) (varDecl env ty name init span) := by
  intro b func block f hb hopen
  refine .ofExcept (r := env.types.resolveName ty.name ty.span) fun id _ => .refuseIf fun _ => ?_
  refine .symbols fun s => ?_
  refine .ofExcept (r := s.scopes.checkDeclarable name.name name.span) fun _ _ => ?_
  refine .ofExcept (r := Prototype.shape env.types id ty.span) fun shape _ => ?_
  refine (initialValue_trims id name.name init span hb.reaches hopen).after ?_
  rintro v b₁ ⟨here₁, g₁, hb₁, hopen₁⟩
  refine .carry (Emit.carrying_covers.lift (Build.alloca_straight shape name.name)) hb₁ hopen₁
    fun ptr b₂ here₂ g₂ hb₂ hopen₂ => ?_
  refine .carry (Emit.carrying_covers.lift (Build.store_straight v ptr)) hb₂ hopen₂
    fun _ b₃ here₃ g₃ hb₃ hopen₃ => ?_
  refine .symbols fun s => ?_
  refine .ofExcept (r := s.scopes.declare name.name id ptr name.span) fun _ _ => ?_
  exact .setScopes _ ⟨here₃, g₃, hb₃, hopen₃⟩

theorem returnValue_trims (frame : FunctionFrame) (value : Option Expr) (span : Span)
    (hb : b.Reaches func home f block g) (hopen : g.isTerminated block = false) :
    Trims False (returnValue env frame value span) (returnValue env frame value span) b
      fun _ t => t.From func home f false := by
  cases value with
  | none => exact .refuseIf fun _ => .pure ⟨block, g, hb, hopen⟩
  | some e =>
    refine .refuseIf fun _ => .symbols fun s => .carry (check_carrying e _ e.span _) hb hopen
      fun x _ _ _ hb₁ hopen₁ => ?_
    exact .carry (Emit.carrying_of_straight (Lifetime.materialize_straight x)) hb₁ hopen₁
      fun v _ _ _ hb₂ hopen₂ => .pure ⟨_, _, hb₂, hopen₂⟩

theorem destroySlots_carry (slots : List Slot) (hb : b.Reaches func home f block g)
    (hopen : g.isTerminated block = false) {k l : Unit → Lower β}
    (hk : ∀ b' here g', b'.Reaches func home f here g' → g'.isTerminated here = false →
      Trims d (k ()) (l ()) b' R) :
    Trims d ((liftM (Lifetime.destroySlots env.types slots) : Lower Unit) >>= k)
      ((liftM (Lifetime.destroySlots env.types slots) : Lower Unit) >>= l) b R :=
  .carry (Emit.carrying_of_straight (Lifetime.destroySlots_straight slots)) hb hopen
    fun _ => hk

theorem returnStmt_cuts (value : Option Expr) (span : Span) :
    Cuts False true (returnStmt env value span) (returnStmt env value span) := by
  intro b func block f hb hopen
  refine .symbols fun s => ?_
  cases s.control.currentFunction? with
  | none => exact .throw _
  | some frame =>
    refine (returnValue_trims frame value span hb.reaches hopen).after ?_
    rintro v b₁ ⟨here₁, g₁, hb₁, hopen₁⟩
    refine .symbols fun s => destroySlots_carry _ hb₁ hopen₁ fun b₂ here₂ g₂ hb₂ _ => ?_
    exact .emit ((hb₂.ret v).mapError.mono fun _ _ ht => hb₂.ended rfl ht)

theorem jump_cuts (keyword : String) (target : LoopFrame → BlockId) (span : Span) :
    Cuts False true (jump env keyword target span) (jump env keyword target span) := by
  intro b func block f hb hopen
  refine .symbols fun s => ?_
  cases s.control.innermostLoop? with
  | none => exact .throw _
  | some frame =>
    refine .symbols fun s => destroySlots_carry _ hb.reaches hopen fun b₁ here₁ g₁ hb₁ _ => ?_
    exact .emit ((hb₁.finish _).mapError.mono fun _ _ ht => hb₁.ended rfl ht)

/-! ## Statements with parts -/

omit [env.types.Straight] in
theorem unlessEnded_cuts (h : Cuts d ended x y) (span span' : Span) :
    Cuts d ended (unlessEnded env span x) (unlessEnded env span' y) := by
  intro b func block f hb hopen
  refine .isTerminated ?_
  rw [hb.isTerminated, hopen]
  exact h hb hopen

theorem inScope_cuts (h : Cuts d ended x y) : Cuts d ended (inScope env x) (inScope env y) := by
  intro b func block f hb hopen
  refine .symbols fun s => .modifySymbols (fun t => { t with scopes := s.scopes.push }) ?_
  refine .before (Q := fun _ t => t.From func block f ended)
    (Trims.andAlways ((h hb hopen).before fun _ t ht => ?_)
      fun t => { t with scopes := t.scopes.pop }) ?_
  · exact .symbols fun s => .pure ht
  · intro slots t ht
    refine .isTerminated ?_
    rw [ht.isTerminated]
    obtain ⟨here, g, ht, hended⟩ := ht
    refine .onlyIf (fun hc => ?_) fun _ => ⟨here, g, ht, hended⟩
    obtain rfl : ended = false := by simpa using hc
    exact straight_carried (Lifetime.destroySlots_straight slots) ht hended

theorem nested_cuts (h : Cuts d ended x y) (span span' : Span) :
    Cuts d ended (nested env span x) (nested env span' y) :=
  inScope_cuts (unlessEnded_cuts h span span')

theorem branchCondition_carry (c : Expr) (hb : b.StandsAt func block f)
    (hopen : f.isTerminated block = false) {k l : Value → Lower β}
    (hk : ∀ v b' here g, b'.Reaches func block f here g → Trims d (k v) (l v) b' R) :
    Trims d (branchCondition env c >>= k) (branchCondition env c >>= l) b R := by
  have hcond : Trims False (branchCondition env c) (branchCondition env c) b fun _ t =>
      t.From func block f false :=
    .symbols fun s => .carried (Emit.carrying_covers.condition (c.lower_carrying env s) c.span)
      hb.reaches hopen
  refine hcond.after ?_
  rintro v b' ⟨here, g, hb', -⟩
  exact hk v b' here g hb'

/-- Control goes on in a block that waits, unless it has ended. -/
theorem fallInto_trims (target : BlockId) (h : b.From func home f ended) :
    Trims False (fallInto target) (fallInto target) b fun _ t =>
      ∃ here g, t.Reaches func home f here g := by
  obtain ⟨here, g, hb, -⟩ := h
  exact .isTerminated (.onlyIf (fun _ => .emit ((hb.finish _).mapError.mono
    fun _ _ ht => ⟨here, _, ht⟩)) fun _ => ⟨here, g, hb⟩)

/-- A part is lowered in a block that waits, and the builder goes on in another
    one. -/
theorem part_trims {i j : BlockId} (h : Cuts d ended x y) (frame : Frame) (target : BlockId)
    (hb : b.Reaches func home f block g) (hi : g.Waits i) (hj : g.Waits j)
    (hnewi : f.blocks.length ≤ i) (hnewj : f.blocks.length ≤ j) (hne : j ≠ i) :
    Trims d
      (do
        withFrame frame do
          Build.moveTo func i
          x
          fallInto target
        Build.moveTo func j)
      (do
        withFrame frame do
          Build.moveTo func i
          y
          fallInto target
        Build.moveTo func j) b
      fun _ t => t.From func home f false := by
  have hpart := hb.moveTo hi.inside hnewi
  refine (Trims.withFrame (.emit_run (t := b.moveTo func i) rfl
    ((h hpart.stands hi.isOpen).before fun _ t ht => fallInto_trims target ht)) frame).before ?_
  rintro _ t ⟨here, g', ht⟩
  refine .emit (.of_run fun _ t' hrun => ?_)
  cases hrun
  -- The block that is entered next has not been touched.
  exact hpart.resume ht hj hne hnewj

theorem ifThen_cuts (c : Expr) (h : Cuts d ended x y) :
    Cuts d false (ifThen env c x) (ifThen env c y) := by
  intro b func block f hb hopen
  refine branchCondition_carry c hb hopen fun v b₁ here g hb₁ => ?_
  refine .emit_run hb₁.stands.currentFunction_run ?_
  refine (Trims.emit (hb₁.stands.opened.appendBlock "then").mapError).after ?_
  rintro _ b₂ ⟨rfl, g₂, hb₂⟩
  refine (Trims.emit (hb₂.appendBlock "if.end").mapError).after ?_
  rintro _ b₃ ⟨rfl, g₃, hb₃⟩
  refine (Trims.emit (hb₃.condBr v _ _).mapError).after ?_
  rintro _ b₄ ⟨g₄, hb₄⟩
  exact (part_trims h _ _ hb₄.reaches (hb₄.waits Nat.zero_lt_two) (hb₄.waits Nat.one_lt_two)
    (Nat.le_add_right _ _) (Nat.le_add_right _ _) (Nat.succ_ne_self _)).mono
    fun _ _ ht => .trans hb₁ ht

theorem enterBody_yields (c : Value) (i j : BlockId) (hb : b.Reaches func home f block g) :
    (enterBody c i j).Yields b fun _ t => ∃ g', t.Reaches func home f block g' := by
  unfold enterBody
  exact .ite (fun _ => (hb.finish _).mono fun _ _ ht => ⟨_, ht⟩)
    fun _ => (hb.condBr c i j).mono fun _ _ ht => ⟨_, ht⟩

theorem loop_cuts (c : Expr) (h : Cuts d ended x y) :
    Cuts d false (loop env c x) (loop env c y) := by
  intro b func block f hb hopen
  refine .emit_run hb.currentFunction_run ?_
  refine (Trims.emit (hb.opened.appendBlock "while.cond").mapError).after ?_
  rintro _ b₁ ⟨rfl, g₁, hb₁⟩
  refine (Trims.emit (hb₁.appendBlock "while.body").mapError).after ?_
  rintro _ b₂ ⟨rfl, g₂, hb₂⟩
  refine (Trims.emit (hb₂.appendBlock "while.end").mapError).after ?_
  rintro _ b₃ ⟨rfl, g₃, hb₃⟩
  refine (Trims.emit (hb₃.finish _).mapError).after ?_
  rintro _ b₄ ⟨g₄, hb₄⟩
  have hwaits : ∀ k, k < 3 → g₄.Waits (f.blocks.length + k) := fun _ => hb₄.waits
  have hcond := hb₄.enter (Nat.succ_pos 2)
  refine .emit_run (t := b₄.moveTo func _) rfl ?_
  refine branchCondition_carry c hcond.stands (hwaits 0 (by decide)).isOpen
    fun v b₅ here₅ g₅ hb₅ => ?_
  refine (Trims.emit (enterBody_yields v _ _ hb₅).mapError).after ?_
  rintro _ b₆ ⟨g₆, hb₆⟩
  -- The condition has not been in the blocks of the body and of the end.
  have hbody := (hb₆.waits (hwaits 1 (by decide)) (Nat.succ_ne_self _)).1
  have hend := (hb₆.waits (hwaits 2 (by decide))
    (Nat.ne_of_gt (Nat.lt_add_of_pos_right (by decide)))).1
  refine .symbols fun s => ?_
  exact part_trims h _ _ (hcond.trans hb₆) hbody hend (Nat.le_add_right _ _)
    (Nat.le_add_right _ _) (Nat.succ_ne_self _)

/-- Where control leaves a branch is the block that the builder is in. -/
theorem branch_trims {start : BlockId} (h : Cuts d ended x y) (hb : b.Reaches func home f block g)
    (hstart : g.Waits start) :
    Trims d (branch func start x) (branch func start y) b fun a t => ∃ here g',
      t.Reaches func start g here g' ∧ g'.isTerminated here = ended ∧
      a = if ended then none else some here := by
  refine .emit_run (t := b.moveTo func start) rfl ?_
  refine (h (hb.stands.moveTo hstart.inside) hstart.isOpen).before ?_
  rintro _ t ⟨here, g', ht, hended⟩
  refine .isTerminated ?_
  rw [ht.stands.isTerminated, hended]
  cases ended with
  | true => exact .pure ⟨here, g', ht, hended, rfl⟩
  | false =>
    rw [if_neg Bool.false_ne_true, map_eq_pure_bind]
    exact .emit_run ht.stands.currentBlock_run (.pure ⟨here, g', ht, hended, rfl⟩)

/-- Branches that can be left join in a new block. -/
theorem join_trims {ends : List BlockId} (hb : b.Reaches func home f block g)
    (hends : ∀ k ∈ ends, f.blocks.length ≤ k ∧ k < g.blocks.length) (label : String) :
    let join : Lower Unit := do
      let join ← Build.appendBlock func label
      ends.forM fun block => do
        Build.moveTo func block
        Build.br join
      Build.moveTo func join
    Trims False join join b fun _ t => t.From func home f false := by
  refine (Trims.emit (hb.appendBlock label).mapError).after ?_
  rintro _ b₁ ⟨rfl, l, hb₁⟩
  have hwaits : (g.addBlock l).Waits g.blocks.length :=
    ⟨Nat.ne_of_gt (Nat.zero_lt_of_lt hb.stands.inside), by simp, by
      rw [Function.addBlock_blockIds, Function.blockIds_of_le (Nat.le_refl _)]⟩
  -- The branches are ended one by one while the new block waits.
  refine (Trims.forM (I := fun t => ∃ here g', t.Reaches func home f here g' ∧
    g'.Waits g.blocks.length) ⟨block, _, hb₁, hwaits⟩ fun k hk t ht => ?_).after ?_
  · obtain ⟨here, g', ht, hwait⟩ := ht
    obtain ⟨hnew, hlt⟩ := hends k hk
    have hmoved := ht.moveTo (Nat.lt_trans hlt hwait.inside) hnew
    refine .emit_run (t := t.moveTo func k) rfl (.emit ((hmoved.finish _).mapError.mono ?_))
    exact fun _ _ hu => ⟨k, _, hu, hwait.beyond (.pushInst k g' _) (Nat.ne_of_gt hlt)⟩
  · rintro _ t ⟨here, g', ht, hwait⟩
    refine .emit (.of_run fun _ t' hrun => ?_)
    cases hrun
    exact ⟨_, g', ht.moveTo hwait.inside hb.beyond.length, hwait.isOpen⟩

theorem ifThenElse_cuts {d' : Prop} {ended' : Bool} {x' y' : Lower Unit} (c : Expr)
    (h : Cuts d ended x y) (h' : Cuts d' ended' x' y') :
    Cuts (d ∨ d') (ended && ended') (ifThenElse env c x x') (ifThenElse env c y y') := by
  intro b func block f hb hopen
  refine branchCondition_carry c hb hopen fun v b₁ here g hb₁ => ?_
  refine .emit_run hb₁.stands.currentFunction_run ?_
  refine (Trims.emit (hb₁.stands.opened.appendBlock "then").mapError).after ?_
  rintro _ b₂ ⟨rfl, g₂, hb₂⟩
  refine (Trims.emit (hb₂.appendBlock "else").mapError).after ?_
  rintro _ b₃ ⟨rfl, g₃, hb₃⟩
  refine (Trims.emit (hb₃.condBr v _ _).mapError).after ?_
  rintro _ b₄ ⟨g₄, hb₄⟩
  have hthen := hb₄.enter Nat.zero_lt_two
  refine .before (Q := fun ends t => (ends = [] ↔ (ended && ended') = true) ∧ ∃ here₆ g₆,
    t.Reaches func here g here₆ g₆ ∧ g₆.isTerminated here₆ = ended' ∧
    ∀ k ∈ ends, g.blocks.length ≤ k ∧ k < g₆.blocks.length) (Trims.withFrame ?_ _) ?_
  · refine (branch_trims h hb₄.reaches (hb₄.waits Nat.zero_lt_two)).bind ?_
    rintro _ b₅ ⟨here₅, g₅, hb₅, -, rfl⟩
    -- The first branch has not been in the block of the second one.
    have helse := (hb₅.waits (hb₄.waits Nat.one_lt_two) (Nat.succ_ne_self _)).1
    refine (branch_trims h' hb₅ helse).before ?_
    rintro _ b₆ ⟨here₆, g₆, hb₆, hended', rfl⟩
    have hb₅' := hthen.trans hb₅
    have hb₆' := (hb₅'.moveTo helse.inside (Nat.le_add_right _ _)).trans hb₆
    have hfirst : g.blocks.length ≤ here₅ ∧ here₅ < g₆.blocks.length :=
      ⟨hb₅.le_block (Nat.le_refl _) hthen.beyond.length,
        Nat.lt_of_lt_of_le hb₅.stands.inside hb₆.beyond.length⟩
    have hsecond : g.blocks.length ≤ here₆ ∧ here₆ < g₆.blocks.length :=
      ⟨hb₆.le_block (Nat.le_add_right _ _) hb₅'.beyond.length, hb₆.stands.inside⟩
    refine .pure ⟨?_, here₆, g₆, hb₆', hended', fun k hk => ?_⟩
    · cases ended <;> cases ended' <;> simp
    · rcases List.mem_append.1 hk with hk | hk
      · cases ended with
        | true => cases hk
        | false => exact List.mem_singleton.1 hk ▸ hfirst
      · cases ended' with
        | true => cases hk
        | false => exact List.mem_singleton.1 hk ▸ hsecond
  · rintro ends t ⟨hnil, here₆, g₆, ht, hended', hends⟩
    refine Trims.mono (.onlyIf (Q := fun _ t => t.From func here g (ended && ended'))
      (fun hne => ?_) fun hends => ?_) fun _ _ ht => .trans hb₁ ht
    · have hopen' : (ended && ended') = false := by
        rw [← Bool.not_eq_true, ← hnil]
        exact hne
      rw [hopen']
      exact join_trims ht hends "if.end"
    · have hboth := hnil.1 (not_not.1 hends)
      rw [hboth]
      exact ⟨here₆, g₆, ht, hended'.trans (Bool.and_eq_true_iff.1 hboth).2⟩

omit [env.types.Straight] in
/-- A statement behind an ended block costs a warning, and nothing where it is
    not. -/
theorem dropUnreachable_trims (hwarn : env.options.unreachable = .warn) (span : Span)
    {Q : Unit → Builder → Prop} (h : Q () b) :
    Trims True (dropUnreachable env span) (Pure.pure ()) b Q := by
  unfold dropUnreachable
  rw [hwarn]
  intro s ds ds'
  refine ⟨.ok (), b, s, [_], rfl, rfl, fun n hn => ?_, fun _ _ => ⟨h, by simp⟩⟩
  rw [List.mem_singleton.1 hn]
  exact ⟨rfl, span, rfl⟩

theorem Cuts.congr {d' : Prop} (h : Cuts d ended x y) (hd : d ↔ d') : Cuts d' ended x y :=
  fun _ _ _ _ hb hopen => (h hb hopen).congr hd

/-- Nothing is deleted. -/
theorem Cuts.same {γ : Type} {c : γ} (h : Cuts False ended x y) : Cuts (c ≠ c) ended x y :=
  h.congr ⟨False.elim, fun hne => hne rfl⟩

end

end Lower

/-! ## The tree -/

section

variable {env : Env} [env.types.Straight]

open Lower

omit [env.types.Straight] in
/-- Behind an ended block there is at most a warning. -/
theorem Stmt.lowerAll_behind (hwarn : env.options.unreachable = .warn) (ss : List Stmt)
    {b : Builder} {func : FuncId} {home : BlockId} {f : Function} (hb : b.From func home f true) :
    Trims (ss ≠ []) (Stmt.lowerAll env ss) (pure ()) b fun _ t => t.From func home f true := by
  cases ss with
  | nil =>
    refine Trims.congr ?_ (iff_of_false id fun hne => hne rfl)
    exact .pure hb
  | cons s rest =>
    refine Trims.congr ?_ (iff_of_true trivial (List.cons_ne_nil s rest))
    show Trims True (isTerminated >>= fun ended => if ended then dropUnreachable env s.span else _)
      (isTerminated >>= fun _ => pure ()) b _
    refine .isTerminated ?_
    rw [hb.isTerminated]
    exact dropUnreachable_trims hwarn s.span hb

theorem Stmt.pruneAll_cons (s : Stmt) (rest : List Stmt) :
    Stmt.pruneAll (s :: rest) = s.prune :: if s.terminates then [] else Stmt.pruneAll rest := rfl

theorem Stmt.anyTerminates_cons (s : Stmt) (rest : List Stmt) :
    Stmt.anyTerminates (s :: rest) = (s.terminates || Stmt.anyTerminates rest) := rfl

set_option linter.unusedSectionVars false in
mutual

/-- Lowering a statement and its pruned form is the same, but for warnings. -/
theorem Stmt.lower_cuts (hwarn : env.options.unreachable = .warn) :
    (s : Stmt) → Cuts (s.prune ≠ s) s.terminates (s.lower env) (s.prune.lower env)
  | .expr e _ => (exprStmt_cuts e).same
  | .decl ty name init span => (varDecl_cuts ty name init span).same
  | .ret value span => (returnStmt_cuts value span).same
  | .breakLoop span => (jump_cuts _ _ span).same
  | .continueLoop span => (jump_cuts _ _ span).same
  | .block stmts _ => (inScope_cuts (Stmt.lowerAll_cuts hwarn stmts)).congr (by simp [Stmt.prune])
  | .ifThen c t _ =>
    (ifThen_cuts c (nested_cuts (t.lower_cuts hwarn) _ _)).congr (by simp [Stmt.prune])
  | .ifThenElse c t e _ =>
    (ifThenElse_cuts c (nested_cuts (t.lower_cuts hwarn) _ _)
      (nested_cuts (e.lower_cuts hwarn) _ _)).congr (by simp [Stmt.prune, imp_iff_not_or])
  | .loop c b _ =>
    (loop_cuts c (nested_cuts (b.lower_cuts hwarn) _ _)).congr (by simp [Stmt.prune])

theorem Stmt.lowerAll_cuts (hwarn : env.options.unreachable = .warn) : (ss : List Stmt) →
    Cuts (Stmt.pruneAll ss ≠ ss) (Stmt.anyTerminates ss) (Stmt.lowerAll env ss)
      (Stmt.lowerAll env (Stmt.pruneAll ss))
  | [] => Cuts.same fun _ _ _ _ hb hopen => .pure ⟨_, _, hb.reaches, hopen⟩
  | s :: rest => by
    rw [Stmt.pruneAll_cons, Stmt.anyTerminates_cons]
    refine unlessEnded_cuts (fun b func block f hb hopen => ?_) _ _
    have hs := s.lower_cuts hwarn hb hopen
    -- Behind a statement that ends its block everything is dropped; else the rest is compiled.
    cases hterm : s.terminates with
    | true =>
      rw [hterm] at hs
      refine Trims.congr (hs.bind fun _ t ht => Stmt.lowerAll_behind hwarn rest ht) ?_
      simp [imp_iff_not_or, eq_comm]
    | false =>
      rw [hterm] at hs
      have hrest : ∀ (_ : Unit) t, t.From func block f false →
          Trims (Stmt.pruneAll rest ≠ rest) (Stmt.lowerAll env rest)
            (Stmt.lowerAll env (Stmt.pruneAll rest)) t
            fun _ u => u.From func block f (Stmt.anyTerminates rest) := by
        rintro - t ⟨here, g, ht, hopen'⟩
        exact (Stmt.lowerAll_cuts hwarn rest ht.stands hopen').mono fun _ _ hu => .trans ht hu
      refine Trims.congr (hs.bind hrest) ?_
      simp [imp_iff_not_or]

end

end

/-! ## Functions -/

namespace Lower

variable {α : Type} {d : Prop} {env : Env} [env.types.Straight] {b : Builder} {func : FuncId}
  {home block : BlockId} {f g : Function}

/-- Code of which nothing is known but that it is the same. -/
theorem Trims.emitted (x : Emit α) : Trims False (Lower.emit x) (Lower.emit x) b fun _ _ => True :=
  .emit (.of_run fun _ _ _ => trivial)

theorem Trims.tryCatch {x y : Lower α} {Q : α → Builder → Prop} {handle : Fault → Lower α}
    (hx : Trims d x y b Q)
    (hhandle : ∀ e b', Trims False (handle e) (handle e) b' fun _ _ => False) :
    Trims d (tryCatch x handle) (tryCatch y handle) b Q := by
  intro s ds ds'
  obtain ⟨r, b', s', noted, hxrun, hyrun, hnoted, ha⟩ := hx s ds ds'
  cases r with
  | ok a =>
    refine ⟨.ok a, b', s', noted, ?_, ?_, hnoted, ha⟩
    · rw [Act.run_tryCatch, hxrun]
    · rw [Act.run_tryCatch, hyrun]
  | error e =>
    -- The handler refuses in its turn, so nothing is claimed of an answer.
    obtain ⟨r, b'', s'', noted', hrun, hrun', hnoted', hno⟩ := hhandle e b' s' (ds ++ noted) ds'
    refine ⟨r, b'', s'', noted ++ noted', ?_, ?_, fun n hn => ?_, fun a hr => (hno a hr).1.elim⟩
    · rw [Act.run_tryCatch, hxrun]
      simp only [hrun, List.append_assoc]
    · rw [Act.run_tryCatch, hyrun]
      exact hrun'
    · exact (List.mem_append.1 hn).elim (hnoted n) (hnoted' n)

theorem bindArgument_trims (param : Param) (index : Nat) (hb : b.From func home f false) :
    Trims False (bindArgument env param index) (bindArgument env param index) b
      fun _ t => t.From func home f false := by
  obtain ⟨here, g, hb, hopen⟩ := hb
  refine .ofExcept (r := Prototype.shape env.types param.ty param.span) fun shape _ => ?_
  refine .carry (Emit.carrying_covers.lift (Build.alloca_straight shape param.name)) hb hopen
    fun ptr b₁ here₁ g₁ hb₁ hopen₁ => ?_
  refine .carry (Emit.carrying_of_straight (Lifetime.copyValue_straight param.ty (.arg index)))
    hb₁ hopen₁ fun v b₂ here₂ g₂ hb₂ hopen₂ => ?_
  refine .carry (Emit.carrying_covers.lift (Build.store_straight v ptr)) hb₂ hopen₂
    fun _ b₃ here₃ g₃ hb₃ hopen₃ => ?_
  refine .symbols fun s => .ofExcept (r := s.scopes.declare param.name param.ty ptr param.span)
    fun _ _ => ?_
  exact .setScopes _ ⟨here₃, g₃, hb₃, hopen₃⟩

omit [env.types.Straight] in
theorem implicitExit_trims (p : Prototype) (func : FuncId) (span : Span) :
    Trims False (implicitExit env p func span) (implicitExit env p func span) b
      fun _ _ => True := by
  refine .isTerminated (.onlyIf (fun _ => ?_) fun _ => trivial)
  refine (Trims.emitted _).after fun block b₁ _ => (Trims.emitted _).after fun f b₂ _ => ?_
  by_cases hreach : f.isReachable block = true
  · rw [if_pos hreach]
    exact .refuseIf fun _ => .symbols fun s => (Trims.emitted _).after fun _ _ _ => .emitted _
  · rw [if_neg hreach]
    exact .emitted _

theorem checkBody_trims (p : Prototype) (func : FuncId) (span : Span) :
    Trims False (checkBody p func span) (checkBody p func span) b fun _ _ => True := by
  refine (Trims.emitted _).after fun f b₁ _ => .refuseIf fun _ => ?_
  exact .of_run (g := id) (fun _ _ => rfl) (fun _ _ => rfl) fun _ _ => trivial

theorem body_trims (hwarn : env.options.unreachable = .warn) (p : Prototype) (decl : FunctionDecl)
    (hb : b.StandsAt func block f) (hopen : f.isTerminated block = false) (id : FuncId) :
    Trims (decl.pruned ≠ decl) (body env p id decl) (body env p id decl.pruned) b
      fun _ _ => True := by
  refine .after (.forM (I := fun t => t.From func block f false) ⟨block, f, hb.reaches, hopen⟩
    fun q _ t ht => bindArgument_trims q.1 q.2 ht) ?_
  rintro _ b₁ ⟨here, g, hb₁, hopen₁⟩
  refine .before ((Stmt.lowerAll_cuts hwarn decl.body hb₁.stands hopen₁).congr ?_) fun _ b₂ _ => ?_
  · obtain ⟨prototype, stmts, span⟩ := decl
    simp [FunctionDecl.pruned]
  · exact (implicitExit_trims p id decl.span).after fun _ _ _ => checkBody_trims p id decl.span

theorem frameBody_trims (hwarn : env.options.unreachable = .warn) (p : Prototype)
    (decl : FunctionDecl) (func : FuncId) :
    Trims (decl.pruned ≠ decl) (frameBody env p func decl) (frameBody env p func decl.pruned) b
      fun _ _ => True := by
  refine (Trims.emit (Builder.appendBlock_enters func "entry" b).mapError).after ?_
  rintro entry b₁ ⟨g, hb₁, hopen₁⟩
  refine .emit_run (t := b₁.moveTo func entry) rfl (.symbols fun s => ?_)
  refine .modifySymbols (fun t => { t with scopes := s.scopes.push }) (.symbols fun s => ?_)
  exact .andAlways (.withFrame (body_trims hwarn p decl hb₁ hopen₁ func) _)
    fun t => { t with scopes := t.scopes.pop }

theorem dropBody_trims (id : EntryId) (func : FuncId) (fault : Fault) :
    Trims False (dropBody id func fault) (dropBody id func fault) b fun _ _ => False := by
  refine (Trims.emitted _).after fun _ _ _ => .symbols fun s => ?_
  refine .modifySymbols (fun t => { t with functions := s.functions.markUndefined id }) ?_
  exact (Trims.emitted _).after fun _ _ _ => .throw fault

theorem attach_trims (hwarn : env.options.unreachable = .warn) (decl : FunctionDecl)
    (q : Prototype × EntryId × FuncId) :
    Trims (decl.pruned ≠ decl) (attach env decl q) (attach env decl.pruned q) b
      fun _ _ => True := by
  refine .tryCatch ((frameBody_trims hwarn q.1 decl q.2.2).before fun _ _ _ => ?_)
    fun e _ => dropBody_trims q.2.1 q.2.2 e
  exact (Trims.emitted _).after fun _ _ _ => .pure trivial

theorem declare_trims (types : TypeTable) (p : Prototype) :
    Trims False (declare types p) (declare types p) b fun _ _ => True := by
  refine .symbols fun s => .ofExcept (r := s.functions.find p) fun found _ => ?_
  cases found with
  | some id => exact .pure trivial
  | none =>
    refine .ofExcept (r := p.irName types) fun symbol _ => ?_
    refine .ofExcept (r := p.irSignature types) fun sig _ => ?_
    refine (Trims.emitted _).after fun func _ _ => ?_
    exact .modifySymbols (fun t => { t with functions := s.functions.insert p func })
      (.pure trivial)

theorem begin_trims (types : TypeTable) (decl : FunctionDecl) :
    Trims False (begin types decl) (begin types decl) b fun _ _ => True := by
  refine .ofExcept (r := Prototype.ofDecl types decl.prototype) fun p _ => .refuseIf fun _ => ?_
  refine (declare_trims types p).after fun id _ _ => .symbols fun s => ?_
  refine .ofExcept (r := s.functions.entry id) fun e _ => .symbols fun s' => ?_
  refine .ofExcept (r := s'.functions.markDefined id decl.span) fun functions _ => ?_
  exact .modifySymbols (fun t => { t with functions }) (.pure trivial)

/-- Lowering a function and lowering it without the statements that control
    cannot reach give the same answer, or the same fault, the same builder with
    its module, and the same symbols.  Only the full function notes warnings,
    all about unreachable statements; if it is accepted, there are some exactly
    if there is something to delete. -/
theorem function_pruned (types : TypeTable) [types.Straight] (implicit : Bool)
    (decl : FunctionDecl) (w : Work) : ∃ r b s noted,
      (Lower.function ⟨types, ⟨.warn, implicit⟩⟩ decl).run w =
        (r, ⟨b, s, w.diagnostics ++ noted⟩) ∧
      (Lower.function ⟨types, ⟨.warn, implicit⟩⟩ decl.pruned).run w = (r, ⟨b, s, w.diagnostics⟩) ∧
      (∀ n ∈ noted, n.IsUnreachable) ∧ ∀ id, r = .ok id → (noted ≠ [] ↔ decl.pruned ≠ decl) := by
  have h : Trims (decl.pruned ≠ decl) (Lower.function ⟨types, ⟨.warn, implicit⟩⟩ decl)
      (Lower.function ⟨types, ⟨.warn, implicit⟩⟩ decl.pruned) w.builder fun _ _ => True := by
    rw [function_eq_begin, function_eq_begin]
    exact (begin_trims types decl).after fun q _ _ => attach_trims rfl decl q
  obtain ⟨r, b, s, noted, hrun, hpruned, hnoted, hok⟩ := h w.symbols w.diagnostics w.diagnostics
  exact ⟨r, b, s, noted, hrun, hpruned, hnoted, fun id hr => (hok id hr).2⟩

/-- `void f() { return; return; }` -/
def returnTwice : FunctionDecl where
  prototype := ⟨⟨"f", .unknown⟩, none, ⟨"void", .unknown⟩, [], .unknown⟩
  body := [.ret none .unknown, .ret none .unknown]
  bodySpan := .unknown

/-- The second `return` is dropped with a warning. -/
theorem returnTwice_warns :
    let run := (Lower.function .default returnTwice).run (.initial "scene")
    run.1 = .ok 0 ∧ returnTwice.pruned ≠ returnTwice ∧ run.2.diagnostics ≠ [] := by
  intro run
  have hok : run.1 = .ok 0 := by decide +kernel
  have hne : returnTwice.pruned ≠ returnTwice := fun h => by
    cases congrArg (·.body.length) h
  obtain ⟨r, b, s, noted, hrun, -, -, hnoted⟩ := function_pruned .builtins true returnTwice
    (.initial "scene")
  have hrun : run = (r, ⟨b, s, noted⟩) := hrun
  rw [hrun] at hok ⊢
  exact ⟨hok, hne, (hnoted 0 hok).2 hne⟩

end Lower

end Shading
