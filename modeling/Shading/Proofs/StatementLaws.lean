import Shading.Proofs.Definitions

/-! # Laws of statements

    A statement is lowered by steps that emit code, read the symbols and are
    refused, under frames and in scopes.  A law that the steps keep is kept
    by each form of statement (`Lower.Covers`), and a law that scopes keep,
    too, is kept by every statement and every body (`Lower.CoversScopes.lower`,
    `Lower.CoversScopes.body`).  From bodies it goes on to definitions
    (`Lower.Covers.function`). -/

namespace Shading

open IR

namespace Lower

/-- A law that every step of a statement keeps, but for those that touch the
    scopes. -/
structure Covers (L : Act.Law Work Fault) : Prop where
  emit : ∀ {α : Type} (x : Emit α), L.Holds (liftM x : Lower α)
  /-- A refusal of its own changes nothing. -/
  refused : ∀ (e : Fault) (w : Work), L.refused e w w
  conditional : ∀ {α : Type} {x : Lower α}, L.Holds x → L.Holds (withFrame .conditional x)
  loopFrame : ∀ {α : Type} {x : Lower α}, L.Holds x → ∀ l, L.Holds (withFrame (.loop l) x)

/-- A law that the steps keep that touch the scopes. -/
structure CoversScopes (L : Act.Law Work Fault) : Prop extends Covers L where
  declare : ∀ name ty ptr span, L.Holds (do
    let scopes ← (liftM ((← symbols).scopes.declare name ty ptr span) : Lower Scopes)
    setScopes scopes)
  drop : ∀ env span, L.Holds (dropUnreachable env span)
  inScope : ∀ {env : Env} {x : Lower Unit}, L.Holds x → L.Holds (inScope env x)

variable {L : Act.Law Work Fault} {α : Type} {env : Env} {x y : Lower Unit}

theorem law_symbols : L.Holds symbols := .bind .get fun _ => .pure _

theorem law_isTerminated : L.Holds isTerminated := .bind .get fun _ => .pure _

namespace Covers

variable (h : Covers L)

include h

/-- What the builder does is emitted code, too. -/
theorem build (x : Build α) : L.Holds (liftM x : Lower α) :=
  h.emit (x.mapError IR.Error.toFault)

theorem ofExcept (r : Except Fault α) : L.Holds (liftM r : Lower α) :=
  .ofExcept fun e _ w => h.refused e w

theorem throw (e : Fault) : L.Holds (throw e : Lower α) := h.refused e

theorem refuseIf (c : Prop) [Decidable c] (e : Fault) :
    L.Holds (Act.refuseIf c e : Lower Unit) := .refuseIf (h.refused e)

/-! ## Forms of statements -/

theorem exprStmt (e : Expr) : L.Holds (exprStmt env e) :=
  .bind law_symbols fun _ => .bind (h.emit _) fun _ => h.emit _

theorem initialValue (ty : TypeId) (name : String) (init : Option Expr) (span : Span) :
    L.Holds (initialValue env ty name init span) := by
  cases init with
  | some e => exact .bind law_symbols fun _ => .bind (h.emit _) fun _ => h.emit _
  -- Without an initializer the type has to be found, since it makes the value.
  | none => exact .bind (h.ofExcept _) fun _ => .bind (h.emit _) fun _ => .pure _

theorem returnValue (frame : FunctionFrame) (value : Option Expr) (span : Span) :
    L.Holds (returnValue env frame value span) := by
  cases value with
  | none => exact .bind (h.refuseIf _ _) fun _ => .pure _
  -- Whether a result is wanted at all is checked before it is lowered.
  | some e =>
    exact .bind (h.refuseIf _ _) fun _ => .bind law_symbols fun _ =>
      .bind (h.emit _) fun _ => .bind (h.emit _) fun _ => .pure _

theorem returnStmt (value : Option Expr) (span : Span) :
    L.Holds (returnStmt env value span) := by
  apply Act.Law.Holds.bind law_symbols
  intro s
  -- Outside of a function there is nothing to return from.
  split
  · exact h.throw _
  · exact .bind (h.returnValue _ _ _) fun _ => .bind law_symbols fun _ =>
      .bind (h.emit _) fun _ => h.build _

theorem jump (keyword : String) (target : LoopFrame → BlockId) (span : Span) :
    L.Holds (jump env keyword target span) := by
  apply Act.Law.Holds.bind law_symbols
  intro s
  -- Outside of a loop there is nowhere to jump to.
  split
  · exact h.throw _
  · exact .bind law_symbols fun _ => .bind (h.emit _) fun _ => h.build _

theorem branchCondition (c : Expr) : L.Holds (branchCondition env c) :=
  .bind law_symbols fun _ => h.emit _

theorem fallInto (target : BlockId) : L.Holds (fallInto target) :=
  .bind law_isTerminated fun _ => .onlyIf (h.build _)

theorem ifThen (c : Expr) (hx : L.Holds x) : L.Holds (ifThen env c x) :=
  .bind (h.branchCondition c) fun _ => .bind (h.build _) fun _ => .bind (h.build _) fun _ =>
    .bind (h.build _) fun _ => .bind (h.build _) fun _ =>
    -- The branch alone is under the frame; the rest makes blocks and branches.
    .bind (h.conditional (.bind (h.build _) fun _ => .bind hx fun _ => h.fallInto _)) fun _ =>
    h.build _

theorem branch (func : FuncId) (start : BlockId) (hx : L.Holds x) :
    L.Holds (branch func start x) :=
  .bind (h.build _) fun _ => .bind hx fun _ => .bind law_isTerminated fun _ =>
    .ite (.pure _) (.bind (h.build _) fun _ => .pure _)

theorem ifThenElse (c : Expr) (hx : L.Holds x) (hy : L.Holds y) :
    L.Holds (ifThenElse env c x y) :=
  .bind (h.branchCondition c) fun _ => .bind (h.build _) fun _ => .bind (h.build _) fun _ =>
    .bind (h.build _) fun _ => .bind (h.build _) fun _ =>
    -- Both branches are under one frame, and the join comes after it.
    .bind (h.conditional (.bind (h.branch _ _ hx) fun _ => .bind (h.branch _ _ hy) fun _ =>
      .pure _)) fun _ =>
    .onlyIf (.bind (h.build _) fun _ => .bind (.forM fun _ => .bind (h.build _) fun _ =>
      h.build _) fun _ => h.build _)

theorem loop (c : Expr) (hx : L.Holds x) : L.Holds (loop env c x) :=
  .bind (h.build _) fun _ => .bind (h.build _) fun _ => .bind (h.build _) fun _ =>
    .bind (h.build _) fun _ => .bind (h.build _) fun _ => .bind (h.build _) fun _ =>
    .bind (h.branchCondition c) fun _ => .bind (h.build _) fun _ => .bind law_symbols fun _ =>
    -- The condition is lowered in front of the frame, so no jump is one of its own.
    .bind (h.loopFrame (.bind (h.build _) fun _ => .bind hx fun _ => h.fallInto _) _) fun _ =>
    h.build _

theorem implicitExit (p : Prototype) (func : FuncId) (span : Span) :
    L.Holds (implicitExit env p func span) :=
  .bind law_isTerminated fun _ => .onlyIf (.bind (h.build _) fun _ => .bind (h.build _) fun _ =>
    -- An end that control gets to destroys and returns; any other one is only closed.
    .ite
      (.bind (h.refuseIf _ _) fun _ => .bind law_symbols fun _ => .bind (h.emit _) fun _ =>
        h.build _)
      (h.build _))

theorem checkBody (p : Prototype) (func : FuncId) (span : Span) :
    L.Holds (checkBody p func span) :=
  .bind (h.build _) fun _ => .bind (h.refuseIf _ _) fun _ => h.ofExcept _

end Covers

/-- A definition keeps a law that its declaration and its body keep, if the law
    does not tell a refused body from an accepted one. -/
theorem Covers.function {decl : FunctionDecl} (h : Covers L)
    (href : ∀ e s t, L.refused e s t → L.answered s t)
    (hset : ∀ t, L.Holds (setFunctions t)) (hdeclare : ∀ p, L.Holds (declare env.types p))
    (hbody : ∀ p, Prototype.ofDecl env.types decl.prototype = .ok p →
      ∀ func, L.Holds (frameBody env p func decl)) : L.Holds (Lower.function env decl) := by
  -- A body that is refused is dropped by steps of the builder and of the table.
  have hdrop (id : EntryId) (func : FuncId) (fault : Fault) : L.Holds (dropBody id func fault) :=
    .bind (h.build _) fun _ => .bind law_symbols fun _ => .bind (hset _) fun _ =>
      .bind (h.build _) fun _ => h.throw _
  -- The prototype has to be kept, because the body is lowered for it.
  refine .ofExcept_bind (fun e _ w => h.refused e w) fun p hp => ?_
  exact .bind (h.refuseIf _ _) fun _ => .bind (hdeclare p) fun id => .bind law_symbols fun _ =>
    .bind (h.ofExcept _) fun e => .bind law_symbols fun _ => .bind (h.ofExcept _) fun _ =>
    .bind (hset _) fun _ => .tryCatch_of_refused href
      (.bind (hbody p hp e.func) fun _ => .bind (h.build _) fun _ => .pure _)
      fun fault => hdrop id e.func fault

/-! ## Statements and bodies -/

namespace CoversScopes

theorem varDecl (h : CoversScopes L) (ty : TypeName) (name : Ident) (init : Option Expr)
    (span : Span) : L.Holds (varDecl env ty name init span) :=
  .bind (h.ofExcept _) fun _ => .bind (h.refuseIf _ _) fun _ => .bind law_symbols fun _ =>
    .bind (h.ofExcept _) fun _ => .bind (h.ofExcept _) fun _ =>
    .bind (h.initialValue _ _ _ _) fun _ => .bind (h.build _) fun _ => .bind (h.build _) fun _ =>
    h.declare _ _ _ _

theorem unlessEnded (h : CoversScopes L) (hx : L.Holds x) (span : Span) :
    L.Holds (unlessEnded env span x) :=
  .bind law_isTerminated fun _ => .ite (h.drop env span) hx

theorem nested (h : CoversScopes L) (hx : L.Holds x) (span : Span) :
    L.Holds (nested env span x) := h.inScope (h.unlessEnded hx span)

mutual

/-- By recursion on the statement: a form keeps the law if its parts do. -/
theorem lower (h : CoversScopes L) (env : Env) : (s : Stmt) → L.Holds (s.lower env)
  | .expr e _ => h.exprStmt e
  | .decl ty name init span => h.varDecl ty name init span
  | .ret value span => h.returnStmt value span
  | .breakLoop span => h.jump _ _ span
  | .continueLoop span => h.jump _ _ span
  | .block stmts _ => h.inScope (h.lowerAll env stmts)
  | .ifThen c t _ => h.ifThen c (h.nested (h.lower env t) _)
  | .ifThenElse c t e _ =>
    h.ifThenElse c (h.nested (h.lower env t) _) (h.nested (h.lower env e) _)
  | .loop c b _ => h.loop c (h.nested (h.lower env b) _)

theorem lowerAll (h : CoversScopes L) (env : Env) : (ss : List Stmt) →
    L.Holds (Stmt.lowerAll env ss)
  | [] => .pure ()
  | s :: rest => h.unlessEnded (.bind (h.lower env s) fun _ => h.lowerAll env rest) _

end

/-- An argument is copied into a slot, which is then declared. -/
theorem bindArgument (h : CoversScopes L) (param : Param) (index : Nat) :
    L.Holds (bindArgument env param index) :=
  .bind (h.ofExcept _) fun _ => .bind (h.build _) fun _ => .bind (h.emit _) fun _ =>
    .bind (h.build _) fun _ => h.declare _ _ _ _

/-- The arguments, the statements, the exit and the checks behind it. -/
theorem body (h : CoversScopes L) (env : Env) (p : Prototype) (func : FuncId)
    (decl : FunctionDecl) : L.Holds (body env p func decl) :=
  .bind (.forM fun q => h.bindArgument q.1 q.2) fun _ => .bind (h.lowerAll env decl.body) fun _ =>
    .bind (h.implicitExit p func decl.span) fun _ => h.checkBody p func decl.span

end CoversScopes

end Lower

end Shading
