import Shading.Proofs.Definitions
import Shading.Proofs.TwinExpressions

/-! # Statements lowered side by side

    What was said of expressions goes on to statements and bodies: if
    everything that lowering does to its state has its twin, and so has what
    happens to statements that control cannot reach, then the body of a
    function has its twin (`Lower.Pairing.frameBody`). -/

namespace Shading

open IR

variable {f f' func : FuncId}

/-- Other scopes and control structures. -/
def Work.locally (w : Work) (g : Scopes → Scopes) (c : Control → Control) : Work :=
  { w with symbols := { w.symbols with
      scopes := g w.symbols.scopes, control := c w.symbols.control } }

/-- What lowering does to its state has its twin.  The symbols that two states
    hold are related. -/
structure Lower.Pairing (types : TypeTable) (o o' : Options) (B : Act.Bond Work Fault)
    (E : Act.Bond Builder Fault) (cur : FuncId → FuncId → Prop)
    (S : Symbols → Symbols → Prop) : Prop where
  builds : Emit.Pairing types E cur
  exprs : ∀ {s s'}, S s s' → Expr.Pairing types o o' E cur s s'
  control : ∀ {s s'}, S s s' → s'.control = s.control
  emit : ∀ {α β : Type} {A : α → β → Prop} {x : Emit α} {y : Emit β},
    E.Twin A x y → B.Twin A (Lower.emit x) (Lower.emit y)
  symbols : ∀ {w w'}, B.agree w w' → S w.symbols w'.symbols
  isTerminated : ∀ {w w'}, B.agree w w' → w'.builder.isTerminated = w.builder.isTerminated
  locally : ∀ {w w'}, B.agree w w' → ∀ g c, B.agree (w.locally g c) (w'.locally g c)
  aheadLocally : ∀ {w e w'}, B.ahead w e w' → ∀ g c, B.ahead (w.locally g c) e w' ∧
    B.ahead (w.locally g c) e (w'.locally g c)
  /-- A first run that goes ahead needs a twin for every function and for all
      symbols. -/
  total : ((∀ f, ∃ f', cur f f') ∧ ∀ s, ∃ s', S s s') ∨ B.Plain
  dropUnreachable : ∀ span,
    B.Twin Eq (Lower.dropUnreachable ⟨types, o⟩ span) (Lower.dropUnreachable ⟨types, o'⟩ span)

namespace Lower.Pairing

variable {types : TypeTable} {o o' : Options} {B : Act.Bond Work Fault}
  {E : Act.Bond Builder Fault} {cur : FuncId → FuncId → Prop} {S : Symbols → Symbols → Prop}
  {α β : Type} {A : α → β → Prop} {x x' y y' : Lower Unit}
  (h : Lower.Pairing types o o' B E cur S)

include h

/-! ## States -/

theorem lift {x : Build α} {y : Build β} (hx : E.Twin A (liftM x : Emit α) (liftM y : Emit β)) :
    B.Twin A (liftM x : Lower α) (liftM y : Lower β) :=
  h.emit hx

/-- What follows may rely on related symbols. -/
theorem bind_symbols {k : Symbols → Lower α} {l : Symbols → Lower β}
    (hk : ∀ s s', S s s' → B.Twin A (k s) (l s')) :
    B.Twin A (Lower.symbols >>= k) (Lower.symbols >>= l) := by
  refine .bind_rel (A := S) ⟨fun w w' hw => .answered (h.symbols hw) hw, fun _ _ _ hw => hw⟩ ?_ hk
  rcases h.total with ⟨-, htotal⟩ | hplain
  · exact .inl htotal
  · exact .inr hplain

theorem bind_currentFunction {k : FuncId → Lower α} {l : FuncId → Lower β}
    (hk : ∀ f f', cur f f' → B.Twin A (k f) (l f')) :
    B.Twin A ((liftM Build.currentFunction : Lower FuncId) >>= k)
      ((liftM Build.currentFunction : Lower FuncId) >>= l) := by
  refine .bind_rel (h.lift h.builds.currentFunction) ?_ hk
  rcases h.total with ⟨htotal, -⟩ | hplain
  · exact .inl htotal
  · exact .inr hplain

theorem isTerminated_twin :
    B.Twin Eq Lower.isTerminated Lower.isTerminated :=
  ⟨fun _ _ hw => .answered (h.isTerminated hw).symm hw, fun _ _ _ hw => hw⟩

theorem modifyLocally (g : Scopes → Scopes) (c : Control → Control) :
    B.Twin Eq (modify (·.locally g c) : Lower PUnit) (modify (·.locally g c) : Lower PUnit) :=
  .modify (fun _ _ hw => h.locally hw g c) fun _ _ _ hw => (h.aheadLocally hw g c).1

theorem setScopes (scopes : Scopes) :
    B.Twin Eq (Lower.setScopes scopes) (Lower.setScopes scopes) :=
  h.modifyLocally (fun _ => scopes) id

theorem afterLocally {x : Lower α} {y : Lower β} (hx : B.Twin A x y) (g : Scopes → Scopes)
    (c : Control → Control) :
    B.Twin A (x.andAlways (·.locally g c)) (y.andAlways (·.locally g c)) :=
  hx.andAlways (fun _ _ hw => h.locally hw g c) (fun _ _ _ hw => (h.aheadLocally hw g c).2)
    fun _ _ _ hw => (h.aheadLocally hw g c).1

/-- A frame is put on and taken off on both sides. -/
theorem withFrame (frame : Frame) {x y : Lower α} (hx : B.Twin Eq x y) :
    B.Twin Eq (Lower.withFrame frame x) (Lower.withFrame frame y) :=
  .bind (h.modifyLocally id (frame :: ·)) fun _ => h.afterLocally hx id List.tail

/-! ## Lists and scopes -/

theorem destroySlots (slots : List Slot) :
    B.Twin Eq (liftM (Lifetime.destroySlots types slots) : Lower Unit)
      (liftM (Lifetime.destroySlots types slots)) :=
  h.emit (h.builds.destroySlots slots)

theorem unlessEnded (span : Span) (hx : B.Twin Eq x x') :
    B.Twin Eq (Lower.unlessEnded ⟨types, o⟩ span x) (Lower.unlessEnded ⟨types, o'⟩ span x') :=
  .bind h.isTerminated_twin fun _ => .ite _ (h.dropUnreachable span) hx

/-- A scope is opened and closed on both sides. -/
theorem inScope (hx : B.Twin Eq x x') :
    B.Twin Eq (Lower.inScope ⟨types, o⟩ x) (Lower.inScope ⟨types, o'⟩ x') := by
  refine h.bind_symbols fun s s' hs => ?_
  rw [(h.exprs hs).scopes]
  refine .bind (h.setScopes _) fun _ => .bind (h.afterLocally ?_ Scopes.pop id) fun slots => ?_
  · refine .bind hx fun _ => h.bind_symbols fun t t' ht => ?_
    rw [(h.exprs ht).scopes]
    exact .pure rfl
  · exact .bind h.isTerminated_twin fun _ => .onlyIf _ (h.destroySlots slots)

theorem nested (span : Span) (hx : B.Twin Eq x x') :
    B.Twin Eq (Lower.nested ⟨types, o⟩ span x) (Lower.nested ⟨types, o'⟩ span x') :=
  h.inScope (h.unlessEnded span hx)

/-! ## Forms of statements -/

theorem exprStmt (e : Expr) :
    B.Twin Eq (Lower.exprStmt ⟨types, o⟩ e) (Lower.exprStmt ⟨types, o'⟩ e) :=
  h.bind_symbols fun _ _ hs => .bind (h.emit (e.lower_twin (h.exprs hs))) fun x =>
    h.emit (h.builds.release x)

theorem initialValue (ty : TypeId) (name : String) (init : Option Expr) (span : Span) :
    B.Twin Eq (Lower.initialValue ⟨types, o⟩ ty name init span)
      (Lower.initialValue ⟨types, o'⟩ ty name init span) := by
  cases init with
  | some e =>
    refine h.bind_symbols fun s s' hs => ?_
    exact .bind (h.emit ((h.exprs hs).check (e.lower_twin (h.exprs hs)) _ _ _)) fun x =>
      h.emit (h.builds.materialize x)
  | none =>
    exact .ofExcept_bind fun d hd =>
      .bind (h.emit (h.builds.located (h.builds.defaultValue hd) span)) fun _ => .pure rfl

theorem varDecl (ty : TypeName) (name : Ident) (init : Option Expr) (span : Span) :
    B.Twin Eq (Lower.varDecl ⟨types, o⟩ ty name init span)
      (Lower.varDecl ⟨types, o'⟩ ty name init span) := by
  refine .bind (.ofExcept _) fun id => .bind (.refuseIf _ _) fun _ => ?_
  refine h.bind_symbols fun s s' hs => ?_
  rw [(h.exprs hs).scopes]
  refine .bind (.ofExcept _) fun _ => .bind (.ofExcept _) fun shape => ?_
  refine .bind (h.initialValue id _ init span) fun v => .bind (h.lift (h.builds.alloca _ _)) fun _ => ?_
  refine .bind (h.lift (h.builds.store _ _)) fun _ => h.bind_symbols fun t t' ht => ?_
  rw [(h.exprs ht).scopes]
  exact .bind (.ofExcept _) fun _ => h.setScopes _

theorem returnValue (frame : FunctionFrame) (value : Option Expr) (span : Span) :
    B.Twin Eq (Lower.returnValue ⟨types, o⟩ frame value span)
      (Lower.returnValue ⟨types, o'⟩ frame value span) := by
  cases value with
  | none => exact .bind (.refuseIf _ _) fun _ => .pure rfl
  | some e =>
    refine .bind (.refuseIf _ _) fun _ => h.bind_symbols fun s s' hs => ?_
    exact .bind (h.emit ((h.exprs hs).check (e.lower_twin (h.exprs hs)) _ _ _)) fun x =>
      .bind (h.emit (h.builds.materialize x)) fun _ => .pure rfl

theorem returnStmt (value : Option Expr) (span : Span) :
    B.Twin Eq (Lower.returnStmt ⟨types, o⟩ value span) (Lower.returnStmt ⟨types, o'⟩ value span) := by
  refine h.bind_symbols fun s s' hs => ?_
  rw [h.control hs]
  cases s.control.currentFunction? with
  | none => exact .throw _
  | some frame =>
    refine .bind (h.returnValue frame value span) fun v => h.bind_symbols fun t t' ht => ?_
    rw [(h.exprs ht).scopes]
    exact .bind (h.destroySlots _) fun _ => h.lift (h.builds.ret v)

theorem jump (keyword : String) (target : LoopFrame → BlockId) (span : Span) :
    B.Twin Eq (Lower.jump ⟨types, o⟩ keyword target span)
      (Lower.jump ⟨types, o'⟩ keyword target span) := by
  refine h.bind_symbols fun s s' hs => ?_
  rw [h.control hs]
  cases s.control.innermostLoop? with
  | none => exact .throw _
  | some frame =>
    refine h.bind_symbols fun t t' ht => ?_
    rw [(h.exprs ht).scopes]
    exact .bind (h.destroySlots _) fun _ => h.lift (h.builds.br _)

theorem fallInto (target : BlockId) :
    B.Twin Eq (Lower.fallInto target) (Lower.fallInto target) :=
  .bind h.isTerminated_twin fun _ => .onlyIf _ (h.lift (h.builds.br target))

theorem branchCondition (c : Expr) :
    B.Twin Eq (Lower.branchCondition ⟨types, o⟩ c) (Lower.branchCondition ⟨types, o'⟩ c) :=
  h.bind_symbols fun _ _ hs => h.emit (Expr.Pairing.condition (c.lower_twin (h.exprs hs)) c.span)

/-- Conditionals have twins if their branches have. -/
theorem ifThen (c : Expr) (hx : B.Twin Eq x x') :
    B.Twin Eq (Lower.ifThen ⟨types, o⟩ c x) (Lower.ifThen ⟨types, o'⟩ c x') := by
  refine .bind (h.branchCondition c) fun v => h.bind_currentFunction fun f f' hf => ?_
  refine .bind (h.lift (h.builds.appendBlock hf _)) fun thenBlock => ?_
  refine .bind (h.lift (h.builds.appendBlock hf _)) fun join => ?_
  refine .bind (h.lift (h.builds.condBr _ _ _)) fun _ => .bind (h.withFrame _ ?_) fun _ =>
    h.lift (h.builds.moveTo hf join)
  exact .bind (h.lift (h.builds.moveTo hf thenBlock)) fun _ => .bind hx fun _ => h.fallInto join

theorem branch (hf : cur f f') (start : BlockId) (hx : B.Twin Eq x x') :
    B.Twin Eq (Lower.branch f start x) (Lower.branch f' start x') := by
  refine .bind (h.lift (h.builds.moveTo hf start)) fun _ => .bind hx fun _ => ?_
  refine .bind h.isTerminated_twin fun _ => .ite _ (.pure rfl) ?_
  rw [map_eq_pure_bind]
  exact .bind (h.lift h.builds.currentBlock) fun _ => .pure rfl

theorem ifThenElse (c : Expr) (hx : B.Twin Eq x x') (hy : B.Twin Eq y y') :
    B.Twin Eq (Lower.ifThenElse ⟨types, o⟩ c x y) (Lower.ifThenElse ⟨types, o'⟩ c x' y') := by
  refine .bind (h.branchCondition c) fun v => h.bind_currentFunction fun f f' hf => ?_
  refine .bind (h.lift (h.builds.appendBlock hf _)) fun thenBlock => ?_
  refine .bind (h.lift (h.builds.appendBlock hf _)) fun elseBlock => ?_
  refine .bind (h.lift (h.builds.condBr _ _ _)) fun _ => .bind (h.withFrame _ ?_) fun ends =>
    .onlyIf _ ?_
  · exact .bind (h.branch hf _ hx) fun _ => .bind (h.branch hf _ hy) fun _ => .pure rfl
  · refine .bind (h.lift (h.builds.appendBlock hf _)) fun join => ?_
    refine .bind (.forM fun block => ?_) fun _ => h.lift (h.builds.moveTo hf join)
    exact .bind (h.lift (h.builds.moveTo hf block)) fun _ => h.lift (h.builds.br join)

theorem enterBody (c : Value) (b e : BlockId) :
    B.Twin Eq (liftM (Lower.enterBody c b e) : Lower Unit) (liftM (Lower.enterBody c b e)) := by
  unfold Lower.enterBody
  by_cases hc : c = .const (.bool true)
  · rw [if_pos hc]
    exact h.lift (h.builds.br b)
  · rw [if_neg hc]
    exact h.lift (h.builds.condBr c b e)

/-- Loops have twins if their bodies have. -/
theorem loop (c : Expr) (hx : B.Twin Eq x x') :
    B.Twin Eq (Lower.loop ⟨types, o⟩ c x) (Lower.loop ⟨types, o'⟩ c x') := by
  refine h.bind_currentFunction fun f f' hf => ?_
  refine .bind (h.lift (h.builds.appendBlock hf _)) fun condBlock => ?_
  refine .bind (h.lift (h.builds.appendBlock hf _)) fun bodyBlock => ?_
  refine .bind (h.lift (h.builds.appendBlock hf _)) fun endBlock => ?_
  refine .bind (h.lift (h.builds.br condBlock)) fun _ => ?_
  refine .bind (h.lift (h.builds.moveTo hf condBlock)) fun _ => ?_
  refine .bind (h.branchCondition c) fun v => .bind (h.enterBody v _ _) fun _ => ?_
  refine h.bind_symbols fun s s' hs => ?_
  rw [(h.exprs hs).scopes]
  refine .bind (h.withFrame _ ?_) fun _ => h.lift (h.builds.moveTo hf endBlock)
  exact .bind (h.lift (h.builds.moveTo hf bodyBlock)) fun _ => .bind hx fun _ => h.fallInto condBlock

end Lower.Pairing

/-! ## Statements -/

section

variable {types : TypeTable} {o o' : Options} {B : Act.Bond Work Fault}
  {E : Act.Bond Builder Fault} {cur : FuncId → FuncId → Prop} {S : Symbols → Symbols → Prop}

mutual

/-- A statement that is lowered twice has its twin. -/
theorem Stmt.lower_twin (h : Lower.Pairing types o o' B E cur S) :
    ∀ s : Stmt, B.Twin Eq (s.lower ⟨types, o⟩) (s.lower ⟨types, o'⟩)
  | .expr e _ => h.exprStmt e
  | .decl ty name init span => h.varDecl ty name init span
  | .ret value span => h.returnStmt value span
  | .breakLoop span => h.jump _ _ span
  | .continueLoop span => h.jump _ _ span
  | .block stmts _ => h.inScope (Stmt.lowerAll_twin h stmts)
  | .ifThen c t _ => h.ifThen c (h.nested _ (t.lower_twin h))
  | .ifThenElse c t e _ => h.ifThenElse c (h.nested _ (t.lower_twin h)) (h.nested _ (e.lower_twin h))
  | .loop c b _ => h.loop c (h.nested _ (b.lower_twin h))

theorem Stmt.lowerAll_twin (h : Lower.Pairing types o o' B E cur S) :
    ∀ ss : List Stmt, B.Twin Eq (Stmt.lowerAll ⟨types, o⟩ ss) (Stmt.lowerAll ⟨types, o'⟩ ss)
  | [] => .pure rfl
  | s :: rest => h.unlessEnded _ (.bind (s.lower_twin h) fun _ => Stmt.lowerAll_twin h rest)

end

/-! ## Bodies -/

namespace Lower.Pairing

variable (h : Lower.Pairing types o o' B E cur S)

include h

theorem bindArgument (param : Param) (index : Nat) :
    B.Twin Eq (Lower.bindArgument ⟨types, o⟩ param index)
      (Lower.bindArgument ⟨types, o'⟩ param index) := by
  refine .bind (.ofExcept _) fun shape => .bind (h.lift (h.builds.alloca _ _)) fun _ => ?_
  refine .bind (h.emit (h.builds.copyValue _ _)) fun _ => ?_
  refine .bind (h.lift (h.builds.store _ _)) fun _ => h.bind_symbols fun s s' hs => ?_
  rw [(h.exprs hs).scopes]
  exact .bind (.ofExcept _) fun _ => h.setScopes _

theorem bind_function (hf : cur f f') {α β : Type} {A : α → β → Prop} {k : Function → Lower α}
    {l : Function → Lower β}
    (hk : ∀ g g', g.SameChecks g' → B.Twin A (k g) (l g')) :
    B.Twin A ((liftM (Build.function f) : Lower Function) >>= k)
      ((liftM (Build.function f') : Lower Function) >>= l) :=
  .bind_rel (h.lift (h.builds.function hf)) (.inl fun g => ⟨g, rfl, rfl, rfl⟩) hk

theorem implicitExit (hf : cur f f') (p : Prototype) (span : Span) :
    B.Twin Eq (Lower.implicitExit ⟨types, o⟩ p f span)
      (Lower.implicitExit ⟨types, o'⟩ p f' span) := by
  refine .bind h.isTerminated_twin fun _ => .onlyIf _ ?_
  refine .bind (h.lift h.builds.currentBlock) fun block => h.bind_function hf fun g g' hg => ?_
  rw [hg.isReachable]
  refine .ite _ (.bind (.refuseIf _ _) fun _ => h.bind_symbols fun s s' hs => ?_)
    (h.lift h.builds.unreachable)
  rw [(h.exprs hs).scopes]
  exact .bind (h.destroySlots _) fun _ => h.lift (h.builds.ret none)

theorem checkBody (hf : cur f f') (p : Prototype) (span : Span) :
    B.Twin Eq (Lower.checkBody p f span) (Lower.checkBody p f' span) := by
  refine h.bind_function hf fun g g' hg => ?_
  rw [hg.allPathsReturn, hg.verify]
  exact .bind (.refuseIf _ _) fun _ => .ofExcept _

theorem body (hf : cur f f') (p : Prototype) (decl : FunctionDecl) :
    B.Twin Eq (Lower.body ⟨types, o⟩ p f decl) (Lower.body ⟨types, o'⟩ p f' decl) := by
  refine .bind (.forM fun q => h.bindArgument q.1 q.2) fun _ => ?_
  refine .bind (Stmt.lowerAll_twin h decl.body) fun _ => ?_
  exact .bind (h.implicitExit hf p decl.span) fun _ => h.checkBody hf p decl.span

/-- A body that is lowered twice has its twin. -/
theorem frameBody (hf : cur f f') (p : Prototype) (decl : FunctionDecl) :
    B.Twin Eq (Lower.frameBody ⟨types, o⟩ p f decl) (Lower.frameBody ⟨types, o'⟩ p f' decl) := by
  refine .bind (h.lift (h.builds.appendBlock hf _)) fun entry => ?_
  refine .bind (h.lift (h.builds.moveTo hf entry)) fun _ => h.bind_symbols fun s s' hs => ?_
  rw [(h.exprs hs).scopes]
  refine .bind (h.setScopes _) fun _ => h.bind_symbols fun t t' ht => ?_
  rw [(h.exprs ht).scopes]
  exact h.afterLocally (h.withFrame _ (h.body hf p decl)) Scopes.pop id

end Lower.Pairing

end

/-! ## Definitions -/

namespace Lower

/-- The part of a definition in front of its body.  It does not depend on the
    options. -/
def begin (types : TypeTable) (decl : FunctionDecl) :
    Lower (Prototype × EntryId × FuncId) := do
  let p ← Prototype.ofDecl types decl.prototype
  Act.refuseIf p.isExternal
    ((Cause.invalidOperation
      s!"external function '{p.name}' cannot have a body").atSpan decl.span)
  let id ← declare types p
  let e ← (← symbols).functions.entry id
  let functions ← (← symbols).functions.markDefined id decl.span
  setFunctions functions
  pure (p, id, e.func)

/-- Give a function its body. -/
def attach (env : Env) (decl : FunctionDecl) (q : Prototype × EntryId × FuncId) : Lower FuncId :=
  tryCatch
    (do
      frameBody env q.1 q.2.2 decl
      Build.leave
      pure q.2.2)
    (dropBody q.2.1 q.2.2)

/-- A definition is its head and then its body. -/
theorem function_eq_begin (env : Env) (decl : FunctionDecl) :
    Lower.function env decl = begin env.types decl >>= attach env decl := by
  unfold begin
  simp only [bind_assoc, pure_bind]
  rfl

variable {env : Env} {decl : FunctionDecl} {q : Prototype × EntryId × FuncId} {w t : Work}

theorem attach_run_ok {u : Unit} (h : (frameBody env q.1 q.2.2 decl).run w = (.ok u, t)) :
    (attach env decl q).run w = (.ok q.2.2, t.finished) := by
  unfold attach
  rw [Act.run_tryCatch, Act.run_bind, h]
  rfl

theorem attach_run_error {fault : Fault}
    (h : (frameBody env q.1 q.2.2 decl).run w = (.error fault, t)) :
    (attach env decl q).run w = (dropBody q.2.1 q.2.2 fault).run t := by
  unfold attach
  rw [Act.run_tryCatch, Act.run_bind, h]

theorem dropBody_run {id : EntryId} {f : Function} (hf : t.builder.module.function? func = some f)
    (fault : Fault) : (dropBody id func fault).run t = (.error fault, t.dropped id func) := by
  have hmeets : (dropBody id func fault).Meets t (fun _ _ => False)
      fun e u => e = fault ∧ u = t.dropped id func := by
    refine dropBody_meets (fun _ _ => ⟨rfl, rfl⟩) fun hnone => ?_
    rw [hf] at hnone
    cases hnone
  rcases hrun : (dropBody id func fault).run t with ⟨r, u⟩
  cases r with
  | ok _ => exact (hmeets.of_ok hrun).elim
  | error e =>
    obtain ⟨rfl, rfl⟩ := hmeets.of_error hrun
    rfl

/-- In front of a body, its function has been declared and is marked as
    defined.  A definition that does not get there has declared its function at
    most. -/
theorem begin_meets (env : Env) (decl : FunctionDecl) (w : Work) :
    (begin env.types decl).Meets w
      (fun q t => ∃ p id e w₁, Begun env decl w p id e w₁ ∧ e.defined = false ∧
        q = (p, id, e.func) ∧ t = w₁.marked id)
      fun _ t => t = w ∨ ∃ p id, DeclaredEntry env.types p w id t := by
  refine Act.meets_bind.2 (Act.meets_ofExcept.2 ⟨fun p hp => ?_, fun _ _ => .inl rfl⟩)
  refine Act.meets_bind.2 (Act.meets_refuseIf.2 ⟨fun _ => .inl rfl, fun hint => ?_⟩)
  refine Act.meets_bind.2 ((Lower.declare_meets env.types p w).mono (fun id w₁ hdecl => ?_)
    fun e w' he => .inl he.1)
  obtain ⟨e, hentry, -⟩ := hdecl.entry
  -- Only an entry without a body gets past the mark.
  exact mark_meets hentry (fun _ => .inr ⟨p, id, hdecl⟩) fun hd =>
    ⟨p, id, e, w₁, ⟨hp, by simpa using hint, hdecl, hentry⟩, hd, rfl, rfl⟩

end Lower

end Shading
