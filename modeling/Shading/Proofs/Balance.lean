import Shading.Proofs.ClosedBodies
import Shading.Proofs.StatementLaws

/-! # Scopes and control structures are balanced

    Statements open scopes and enter control structures, and they can be
    refused at any depth inside of them.  What a statement opens it closes,
    however it ends: all of them but declarations restore the scopes and the
    control structures (`Lower.restoring`), and a list of statements at most
    declares variables in the scope that it found (`Lower.growing`).

    Main result: statements and definitions leave the symbols as they found
    them, but for the variable of a declaration
    (`lowering_balances_scopes`). -/

namespace Shading

open IR

/-! ## Growing scopes -/

namespace Scopes

/-- More variables in the innermost scope, the latest first. -/
def extend (s : Scopes) (added : List Slot) : Scopes := .of (s.stack.modifyHead (added ++ ·))

@[simp] theorem extend_nil (s : Scopes) : s.extend [] = s := by
  obtain ⟨stack, rfl⟩ := s.exists_of
  unfold extend
  rw [stack_of]
  cases stack <;> rfl

@[simp] theorem extend_extend (s : Scopes) (added later : List Slot) :
    (s.extend added).extend later = s.extend (later ++ added) := by
  unfold extend
  cases s.stack with
  | nil => rfl
  | cons top outer => simp

@[simp] theorem extend_depth (s : Scopes) (added : List Slot) : (s.extend added).depth = s.depth := by
  rw [depth_eq, depth_eq, extend, stack_of, List.length_modifyHead]

@[simp] theorem extend_pop (s : Scopes) (added : List Slot) : (s.extend added).pop = s.pop := by
  obtain ⟨stack, rfl⟩ := s.exists_of
  rw [extend, pop_of, pop_of, stack_of]
  cases stack <;> rfl

theorem extend_innermost {s : Scopes} (h : s.stack ≠ []) (added : List Slot) :
    (s.extend added).innermost = s.innermost ++ added.reverse := by
  obtain ⟨stack, rfl⟩ := s.exists_of
  rw [stack_of] at h
  rw [extend, innermost_of, innermost_of, stack_of]
  cases stack with
  | nil => exact absurd rfl h
  | cons top outer => simp

/-- A variable is declared only where a scope is open. -/
theorem declare_eq_extend {s s' : Scopes} {name : String} {ty : TypeId} {ptr : Value} {span : Span}
    (h : s.declare name ty ptr span = .ok s') :
    s.stack ≠ [] ∧ s' = s.extend [⟨name, ty, ptr, span, s.depth⟩] := by
  obtain ⟨stack, rfl⟩ := s.exists_of
  rw [extend, stack_of, depth_of]
  cases stack with
  | nil => cases h
  | cons top outer => exact ⟨List.cons_ne_nil _ _, (declare_eq_ok h).1⟩

end Scopes

/-! ## Laws -/

/-- The scopes and the control structures are as before. -/
structure Work.Restored (w w' : Work) : Prop where
  scopes : w'.symbols.scopes = w.symbols.scopes
  control : w'.symbols.control = w.symbols.control

/-- The control structures are as before, and variables were at most declared
    in the innermost scope. -/
structure Work.Grown (w w' : Work) : Prop where
  scopes : ∃ added, w'.symbols.scopes = w.symbols.scopes.extend added
  control : w'.symbols.control = w.symbols.control

/-- The enclosing scopes and control structures are as before; only the
    innermost scope may have changed. -/
structure Work.Balanced (w w' : Work) : Prop where
  outer : w'.symbols.scopes.pop = w.symbols.scopes.pop
  control : w'.symbols.control = w.symbols.control

theorem Work.Balanced.refl (w : Work) : w.Balanced w := ⟨rfl, rfl⟩

theorem Work.Balanced.trans {w w' w'' : Work} (h₁ : w.Balanced w') (h₂ : w'.Balanced w'') :
    w.Balanced w'' := ⟨h₂.outer.trans h₁.outer, h₂.control.trans h₁.control⟩

namespace Work

variable {w w' w'' : Work}

theorem Restored.refl (w : Work) : w.Restored w := ⟨rfl, rfl⟩

theorem Restored.trans (h₁ : w.Restored w') (h₂ : w'.Restored w'') : w.Restored w'' :=
  ⟨h₂.scopes.trans h₁.scopes, h₂.control.trans h₁.control⟩

theorem Restored.grown (h : w.Restored w') : w.Grown w' :=
  ⟨⟨[], h.scopes.trans (w.symbols.scopes.extend_nil).symm⟩, h.control⟩

theorem Grown.trans (h₁ : w.Grown w') (h₂ : w'.Grown w'') : w.Grown w'' := by
  obtain ⟨added, hadded⟩ := h₁.scopes
  obtain ⟨later, hlater⟩ := h₂.scopes
  refine ⟨⟨later ++ added, ?_⟩, h₂.control.trans h₁.control⟩
  rw [hlater, hadded, Scopes.extend_extend]

theorem Grown.balanced (h : w.Grown w') : w.Balanced w' := by
  obtain ⟨added, hadded⟩ := h.scopes
  exact ⟨by rw [hadded, Scopes.extend_pop], h.control⟩

end Work

namespace Lower

/-- What an action opens it closes, whether it answers or not. -/
def balanced : Act.Law Work Fault where
  answered := Work.Balanced
  refused _ := Work.Balanced
  refl := Work.Balanced.refl
  trans := Work.Balanced.trans
  after := Work.Balanced.trans

/-- The innermost scope is restored, too. -/
def restoring : Act.Law Work Fault where
  answered := Work.Restored
  refused _ := Work.Restored
  refl := Work.Restored.refl
  trans := Work.Restored.trans
  after := Work.Restored.trans

/-- In the innermost scope an action at most declares variables. -/
def growing : Act.Law Work Fault where
  answered := Work.Grown
  refused _ := Work.Grown
  refl w := (Work.Restored.refl w).grown
  trans := Work.Grown.trans
  after := Work.Grown.trans

variable {α β : Type} {env : Env} {x y : Lower Unit}

theorem growing_of_restoring {x : Lower α} (h : restoring.Holds x) : growing.Holds x := fun w =>
  (h w).mono (fun _ _ h => h.grown) fun _ _ h => h.grown

theorem balanced_of_growing {x : Lower α} (h : growing.Holds x) : balanced.Holds x := fun w =>
  (h w).mono (fun _ _ h => h.balanced) fun _ _ h => h.balanced

/-- An action of the builder does not see the scopes. -/
theorem restoring_emit (x : Emit α) : restoring.Holds (liftM x : Lower α) := by
  intro w
  apply meets_emit.2
  apply Act.meets_of_run
  · intro a b _
    exact ⟨rfl, rfl⟩
  · intro e b _
    exact ⟨rfl, rfl⟩

theorem restoring_setFunctions (t : Functions) : restoring.Holds (setFunctions t) :=
  fun _ => ⟨rfl, rfl⟩

/-- A frame is taken off again, however the action in it ends. -/
theorem meets_withFrame {x : Lower α} {frame : Frame} {w : Work} {Q : α → Work → Prop}
    {E : Fault → Work → Prop} : (withFrame frame x).Meets w Q E ↔
      x.Meets { w with symbols := { w.symbols with control := frame :: w.symbols.control } }
        (fun a t => Q a { t with symbols := { t.symbols with control := t.symbols.control.tail } })
        fun e t => E e { t with symbols := { t.symbols with control := t.symbols.control.tail } } :=
  Act.meets_bind.trans (Act.meets_modify.trans Act.meets_andAlways)

theorem restoring_withFrame {x : Lower α} (hx : restoring.Holds x) (frame : Frame) :
    restoring.Holds (withFrame frame x) := fun _ =>
  meets_withFrame.2 ((hx _).mono (fun _ _ h => ⟨h.scopes, congrArg List.tail h.control⟩)
    fun _ _ h => ⟨h.scopes, congrArg List.tail h.control⟩)

theorem growing_withFrame {x : Lower α} (hx : growing.Holds x) (frame : Frame) :
    growing.Holds (withFrame frame x) := fun _ =>
  meets_withFrame.2 ((hx _).mono (fun _ _ h => ⟨h.scopes, congrArg List.tail h.control⟩)
    fun _ _ h => ⟨h.scopes, congrArg List.tail h.control⟩)

theorem restoring_covers : Covers restoring where
  emit := restoring_emit
  refused _ := Work.Restored.refl
  conditional hx := restoring_withFrame hx _
  loopFrame hx _ := restoring_withFrame hx _

theorem growing_covers : Covers growing where
  emit x := growing_of_restoring (restoring_emit x)
  refused _ w := (Work.Restored.refl w).grown
  conditional hx := growing_withFrame hx _
  loopFrame hx _ := growing_withFrame hx _

/-- A variable is declared in the innermost scope, or nothing is changed. -/
theorem declareVariable_meets (name : String) (ty : TypeId) (ptr : Value) (span : Span) (w : Work) :
    (do let scopes ← (liftM ((← symbols).scopes.declare name ty ptr span) : Lower Scopes)
        setScopes scopes).Meets w
      (fun _ t => w.symbols.scopes.stack ≠ [] ∧ t = { w with symbols := { w.symbols with
        scopes := w.symbols.scopes.extend [⟨name, ty, ptr, span, w.symbols.scopes.depth⟩] } })
      fun _ t => t = w := by
  apply Act.meets_bind.2
  show (do
    let scopes ← (liftM (w.symbols.scopes.declare name ty ptr span) : Lower Scopes)
    setScopes scopes : Lower Unit).Meets w _ _
  apply Act.meets_bind.2
  apply Act.meets_ofExcept.2
  -- It is refused in front of any change, or it adds one variable.
  constructor
  · intro scopes hscopes
    obtain ⟨hopen, rfl⟩ := Scopes.declare_eq_extend hscopes
    exact ⟨hopen, rfl⟩
  · intro e _
    rfl

theorem growing_declareVariable (name : String) (ty : TypeId) (ptr : Value) (span : Span) :
    growing.Holds (do
      let scopes ← (liftM ((← symbols).scopes.declare name ty ptr span) : Lower Scopes)
      setScopes scopes) := by
  intro w
  apply (declareVariable_meets name ty ptr span w).mono
  · rintro _ t ⟨-, rfl⟩
    exact ⟨⟨_, rfl⟩, rfl⟩
  · rintro _ t rfl
    exact (Work.Restored.refl t).grown

/-! ## Statements -/

/-- An action in front of others that restore the scopes where they are
    refused. -/
theorem restoring_before {x : Lower α} {k : α → Lower β} {w t : Work} {Q : β → Work → Prop}
    (ht : w.Restored t) (hx : restoring.Holds x)
    (hk : ∀ a u, w.Restored u → (k a).Meets u Q fun _ v => w.Restored v) :
    (x >>= k).Meets t Q fun _ v => w.Restored v :=
  Act.Meets.bind ((hx t).mono (fun _ _ h => ht.trans h) fun _ _ h => ht.trans h) hk

/-- A declaration appends one variable to the innermost scope. -/
theorem varDecl_declares (ty : TypeName) (name : Ident) (init : Option Expr) (span : Span)
    (w : Work) : (varDecl env ty name init span).Meets w
      (fun _ t => w.symbols.scopes.stack ≠ [] ∧ t.symbols.control = w.symbols.control ∧
        ∃ id ptr, env.types.resolveName ty.name ty.span = .ok id ∧ t.symbols.scopes =
          w.symbols.scopes.extend [⟨name.name, id, ptr, name.span, w.symbols.scopes.depth⟩])
      fun _ t => w.Restored t := by
  refine Act.meets_bind.2 (Act.meets_ofExcept.2 ⟨fun id hid => ?_, fun _ _ => .refl w⟩)
  refine restoring_before (.refl w) (restoring_covers.refuseIf _ _) fun _ w₁ h₁ => ?_
  refine restoring_before h₁ law_symbols fun s w₂ h₂ => ?_
  refine restoring_before h₂ (restoring_covers.ofExcept _) fun _ w₃ h₃ => ?_
  refine restoring_before h₃ (restoring_covers.ofExcept _) fun shape w₄ h₄ => ?_
  refine restoring_before h₄ (restoring_covers.initialValue _ _ _ _) fun v w₅ h₅ => ?_
  refine restoring_before h₅ (restoring_covers.build _) fun ptr w₆ h₆ => ?_
  refine restoring_before h₆ (restoring_covers.build _) fun _ w₇ h₇ => ?_
  -- All steps in front of the last one leave the scopes alone.
  apply (declareVariable_meets name.name id ptr name.span w₇).mono
  · rintro _ t ⟨hopen, rfl⟩
    rw [h₇.scopes] at hopen ⊢
    exact ⟨hopen, h₇.control, id, ptr, hid, rfl⟩
  · rintro _ t rfl
    exact h₇

/-- What is declared in a scope of its own is gone behind it. -/
theorem balanced_ownScope {x : Lower α} (hx : balanced.Holds x) (w : Work) :
    (Act.andAlways x fun w => { w with symbols := { w.symbols with scopes := w.symbols.scopes.pop } })
      |>.Meets { w with symbols := { w.symbols with scopes := w.symbols.scopes.push } }
        (fun _ t => w.Restored t) fun _ t => w.Restored t := by
  -- What is popped is the pushed scope, because `x` kept the ones around it.
  have hpop : ∀ t : Work,
      ({ w with symbols := { w.symbols with scopes := w.symbols.scopes.push } } : Work).Balanced t →
      t.symbols.scopes.pop = w.symbols.scopes := fun t ht => ht.outer
  apply Act.meets_andAlways.2
  apply (hx _).mono
  · intro _ t ht
    exact ⟨hpop t ht, ht.control⟩
  · intro _ t ht
    exact ⟨hpop t ht, ht.control⟩

theorem inScope_restoring (hx : growing.Holds x) : restoring.Holds (inScope env x) := by
  have hinner : growing.Holds (do
      x
      return (← symbols).scopes.innermost) :=
    .bind hx fun _ => .bind law_symbols fun _ => .pure _
  intro w
  apply Act.Meets.bind (Q := fun s t => s = w.symbols ∧ t = w) (E := fun _ t => w.Restored t)
  · exact ⟨rfl, rfl⟩
  · rintro s t ⟨rfl, rfl⟩
    apply Act.meets_bind.2
    apply Act.meets_modify.2
    -- The scope is popped however the inside ends, and then slots are destroyed.
    apply Act.Meets.bind (balanced_ownScope (balanced_of_growing hinner) t)
    intro slots u hu
    exact restoring_before hu law_isTerminated fun _ v hv =>
      (Act.Law.Holds.onlyIf (restoring_emit _) v).mono (fun _ _ h => hv.trans h)
        fun _ _ h => hv.trans h

theorem dropUnreachable_restoring (span : Span) : restoring.Holds (dropUnreachable env span) := by
  unfold dropUnreachable
  split
  · exact restoring_covers.throw _
  · exact .bind law_symbols fun _ w => ⟨rfl, rfl⟩

theorem growing_coversScopes : CoversScopes growing where
  toCovers := growing_covers
  declare := growing_declareVariable
  drop _ span := growing_of_restoring (dropUnreachable_restoring span)
  inScope hx := growing_of_restoring (inScope_restoring hx)

/-- No function is declared. -/
def steady : Act.Law Work Fault where
  answered w t := t.symbols.functions = w.symbols.functions
  refused _ w t := t.symbols.functions = w.symbols.functions
  refl _ := rfl
  trans h₁ h₂ := h₂.trans h₁
  after h₁ h₂ := h₂.trans h₁

/-- Statements do not touch the functions, whatever the hooks of the types
    emit. -/
theorem steady_coversScopes : CoversScopes steady where
  emit _ _ := meets_emit.2 (Act.meets_of_run (fun _ _ _ => rfl) fun _ _ _ => rfl)
  refused _ _ := rfl
  conditional hx _ := meets_withFrame.2 (hx _)
  loopFrame hx _ _ := meets_withFrame.2 (hx _)
  declare name ty ptr span w := by
    apply (declareVariable_meets name ty ptr span w).mono
    · rintro _ t ⟨-, rfl⟩
      rfl
    · rintro _ t rfl
      rfl
  drop env span := by
    unfold dropUnreachable
    split
    · exact fun _ => rfl
    · exact .bind law_symbols fun _ _ => rfl
  inScope hx := by
    refine .bind law_symbols fun _ => .bind (fun _ => rfl) fun _ => .bind (fun w => ?_) fun _ =>
      .bind law_isTerminated fun _ => .onlyIf fun _ => ?_
    · exact Act.meets_andAlways.2 ((Act.Law.Holds.bind hx fun _ =>
        .bind law_symbols fun _ => .pure _) w)
    · exact meets_emit.2 (Act.meets_of_run (fun _ _ _ => rfl) fun _ _ _ => rfl)

theorem nested_restoring (hx : growing.Holds x) (span : Span) :
    restoring.Holds (nested env span x) :=
  inScope_restoring (growing_coversScopes.unlessEnded hx span)

end Lower

open Lower in
/-- A statement that declares nothing restores the innermost scope, too. -/
theorem Stmt.lower_restoring (env : Env) {s : Stmt}
    (h : ∀ ty name init span, s ≠ .decl ty name init span) : restoring.Holds (s.lower env) := by
  have hnested : ∀ t : Stmt, restoring.Holds (nested env t.span (t.lower env)) := fun t =>
    nested_restoring (growing_coversScopes.lower env t) t.span
  cases s with
  | expr e span => exact restoring_covers.exprStmt e
  | decl ty name init span => exact absurd rfl (h ty name init span)
  | ret value span => exact restoring_covers.returnStmt value span
  | breakLoop span => exact restoring_covers.jump _ _ span
  | continueLoop span => exact restoring_covers.jump _ _ span
  | block stmts span => exact inScope_restoring (growing_coversScopes.lowerAll env stmts)
  | ifThen c t span => exact restoring_covers.ifThen c (hnested t)
  | ifThenElse c t e span => exact restoring_covers.ifThenElse c (hnested t) (hnested e)
  | loop c b span => exact restoring_covers.loop c (hnested b)

/-! ## Functions -/

namespace Lower

variable (env : Env) (p : Prototype) (func : FuncId) (decl : FunctionDecl)

/-- However a body ends, the scopes and the control structures are those from
    before it. -/
theorem frameBody_restoring : restoring.Holds (frameBody env p func decl) := by
  intro w
  refine restoring_before (.refl w) (restoring_covers.build _) fun entry w₁ h₁ => ?_
  refine restoring_before h₁ (restoring_covers.build _) fun _ w₂ h₂ => ?_
  apply Act.meets_bind.2
  apply Act.meets_bind.2
  have hbody := balanced_of_growing (growing_withFrame (growing_coversScopes.body env p func decl)
    (.function ⟨p.name, p.ret, w₂.symbols.scopes.push.depth⟩))
  exact (balanced_ownScope hbody w₂).mono (fun _ _ h => h₂.trans h) fun _ _ h => h₂.trans h

theorem frameBody_restores (w : Work) : w.Restored ((frameBody env p func decl).run w).2 :=
  Act.Meets.state (frameBody_restoring env p func decl w)

theorem declare_restoring (types : TypeTable) (p : Prototype) : restoring.Holds (declare types p) := by
  intro w
  apply (declare_meets types p w).mono
  · intro id t ht
    cases ht with
    | found => exact .refl w
    | added => exact ⟨rfl, rfl⟩
  · rintro e t ⟨rfl, -⟩
    exact .refl t

theorem function_restoring : restoring.Holds (Lower.function env decl) :=
  restoring_covers.function (fun _ _ _ h => h) restoring_setFunctions (declare_restoring env.types)
    fun p _ func => frameBody_restoring env p func decl

end Lower

/-! ## What lowering leaves of the symbols -/

/-- What is left of the symbols when a statement has been answered or
    refused. -/
structure Stmt.Leaves (env : Env) (s : Stmt) (w : Work) (r : Except Fault Unit) (w' : Work) :
    Prop where
  control : w'.symbols.control = w.symbols.control
  functions : w'.symbols.functions = w.symbols.functions
  /-- As many scopes are open as before. -/
  depth : w'.symbols.scopes.depth = w.symbols.scopes.depth
  /-- The scopes around the innermost one are as before. -/
  outer : w'.symbols.scopes.pop = w.symbols.scopes.pop
  /-- A declaration that was answered has appended its variable. -/
  declared : ∀ ty name init span, s = .decl ty name init span → r = .ok () →
    ∃ slot : Slot, slot.name = name.name ∧ slot.span = name.span ∧
      slot.depth = w.symbols.scopes.depth ∧
      env.types.resolveName ty.name ty.span = .ok slot.ty ∧
      w'.symbols.scopes.innermost = w.symbols.scopes.innermost ++ [slot]
  /-- Nothing else touches the innermost scope. -/
  unchanged : (∀ ty name init span, s = .decl ty name init span → r ≠ .ok ()) →
    w'.symbols.scopes.innermost = w.symbols.scopes.innermost

theorem Stmt.lower_leaves (env : Env) (s : Stmt) (w : Work) :
    s.Leaves env w ((s.lower env).run w).1 ((s.lower env).run w).2 := by
  have hgrown : w.Grown ((s.lower env).run w).2 :=
    Act.Meets.state (Lower.growing_coversScopes.lower env s w)
  have hfunctions : ((s.lower env).run w).2.symbols.functions = w.symbols.functions :=
    Act.Meets.state (R := fun t : Work => t.symbols.functions = w.symbols.functions)
      (Lower.steady_coversScopes.lower env s w)
  -- Variables are added in the innermost scope only, if at all.
  obtain ⟨added, hadded⟩ := hgrown.scopes
  refine ⟨hgrown.control, hfunctions, ?_, ?_, ?_, fun hno => ?_⟩
  · rw [hadded, Scopes.extend_depth]
  · rw [hadded, Scopes.extend_pop]
  · rintro ty name init span rfl hok
    obtain ⟨hopen, -, id, ptr, hid, hscopes⟩ :=
      (Lower.varDecl_declares ty name init span w).of_ok (Act.run_eq_of_fst hok)
    refine ⟨⟨name.name, id, ptr, name.span, w.symbols.scopes.depth⟩, rfl, rfl, rfl, hid, ?_⟩
    exact (congrArg Scopes.innermost hscopes).trans (Scopes.extend_innermost hopen _)
  · -- A declaration was refused, and any other statement restores the scopes however it ends.
    have hrestored : w.Restored ((s.lower env).run w).2 := by
      by_cases hdecl : ∃ ty name init span, s = .decl ty name init span
      · obtain ⟨ty, name, init, span, rfl⟩ := hdecl
        rcases hrun : (Stmt.lower env (.decl ty name init span)).run w with ⟨r, t⟩
        cases r with
        | ok u =>
          rw [hrun] at hno
          exact absurd rfl (hno ty name init span rfl)
        | error e => exact (Lower.varDecl_declares ty name init span w).of_error hrun
      · exact Act.Meets.state (Stmt.lower_restoring env
          (fun ty name init span h => hdecl ⟨ty, name, init, span, h⟩) w)
    rw [hrestored.scopes]

/-- Lowering is balanced, whatever the types, the options and the state are and
    whether it is answered or refused.  A statement leaves the control
    structures, the declared functions, the number of scopes and all scopes but
    the innermost one as they were; the innermost one has its variable more
    after a declaration that was answered, and is as it was otherwise.  A
    definition leaves all scopes and the control structures as they were. -/
theorem lowering_balances_scopes (env : Env) (w : Work) :
    (∀ s : Stmt, s.Leaves env w ((s.lower env).run w).1 ((s.lower env).run w).2) ∧
      ∀ decl : FunctionDecl,
        ((Lower.function env decl).run w).2.symbols.scopes = w.symbols.scopes ∧
        ((Lower.function env decl).run w).2.symbols.control = w.symbols.control := by
  refine ⟨fun s => s.lower_leaves env w, fun decl => ?_⟩
  have hrestored : w.Restored ((Lower.function env decl).run w).2 :=
    Act.Meets.state (Lower.function_restoring env decl w)
  exact ⟨hrestored.scopes, hrestored.control⟩

end Shading
