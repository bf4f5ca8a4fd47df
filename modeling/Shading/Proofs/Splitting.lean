import Shading.Proofs.Correspondence
import Shading.Proofs.TwinStatements

/-! # Units that are split

    A unit can be cut in two and compiled as two units, one after the other,
    and nothing but the lists of results shows it (`compileUnit_append`).
    There are two things to see.  Lowering does not look at the diagnostics
    that were noted before, so it does the same with and without them.  And
    every item leaves the builder standing nowhere, on whatever way it ends,
    as a new builder does. -/

namespace Shading

open IR

/-! ## The same options for expressions -/

theorem Conversion.find?_congr {o o' : Options} (h : o'.implicit = o.implicit)
    (source target : TypeId) : find? source target o' = find? source target o := by
  unfold find?
  rw [h]

theorem Functions.resolve_congr {o o' : Options} (h : o'.implicit = o.implicit) (t : Functions)
    (types : TypeTable) (name : String) (args : List TypeId) (span : Span) :
    t.resolve types o' name args span = t.resolve types o name args span := by
  have hcandidate : Functions.candidate? o' args = Functions.candidate? o args := by
    funext e id
    unfold Functions.candidate?
    simp only [Conversion.find?_congr h]
  unfold resolve viable
  rw [hcandidate]

/-- Expressions do the same under options that allow the same conversions. -/
theorem Expr.Pairing.of_same (types : TypeTable) {o o' : Options} (h : o'.implicit = o.implicit)
    (s : Symbols) : Expr.Pairing types o o' (.same Builder Fault) Eq s s where
  toPairing := .of_eq types Act.Bond.same_plain fun _ _ => Iff.rfl
  scopes := rfl
  coerce x ty span what := by
    unfold Lower.coerce
    rw [Conversion.find?_congr h]
    exact .refl Act.Bond.same_plain (fun _ _ => Iff.rfl) _
  call callee span args args' hargs := by
    rw [hargs.eq_of_same]
    unfold Lower.call
    simp only [Functions.resolve_congr h]
    exact .refl Act.Bond.same_plain (fun _ _ => Iff.rfl) _

/-! ## Earlier diagnostics -/

/-- Diagnostics that were noted before. -/
def Work.after (w : Work) (ds : Diagnostics) : Work :=
  { w with diagnostics := ds ++ w.diagnostics }

/-- The second run has the same state but for earlier diagnostics. -/
def earlier (ds : Diagnostics) : Act.Bond Work Fault :=
  ⟨fun w w' => w' = w.after ds, fun _ _ _ => False, False⟩

namespace Lower

variable {ds : Diagnostics}

theorem earlier_plain : (earlier ds).Plain := fun _ _ _ h => h

theorem earlier_emit {α β : Type} {A : α → β → Prop} {x : Emit α} {y : Emit β}
    (hx : (Act.Bond.same Builder Fault).Twin A x y) :
    (earlier ds).Twin A (Lower.emit x) (Lower.emit y) := by
  refine hx.onPart (fun w w' hw => ?_) (fun w w' b b' hw hb => ?_) Act.Bond.same_plain id
    fun _ _ _ _ h => h
  · rw [show w' = w.after ds from hw]
    rfl
  · rw [show w' = w.after ds from hw, show b = b' from hb]
    rfl

/-- A change of the state that leaves the diagnostics alone. -/
theorem earlier_modify {g : Work → Work} (hg : ∀ w, g (w.after ds) = (g w).after ds) :
    (earlier ds).Twin Eq (modify g : Lower PUnit) (modify g : Lower PUnit) := by
  refine .modify (fun w w' hw => ?_) fun _ _ _ h => h
  rw [show w' = w.after ds from hw]
  exact hg w

theorem earlier_report (d : Diagnostic) : (earlier ds).Twin Eq (report d) (report d) := by
  refine earlier_modify fun w => ?_
  unfold Work.after
  rw [List.append_assoc]

/-- Lowering does not look at earlier diagnostics. -/
theorem earlier_pairing (env : Env) : Lower.Pairing env.types env.options env.options (earlier ds)
    (.same Builder Fault) Eq Eq where
  builds := .of_eq env.types Act.Bond.same_plain fun _ _ => Iff.rfl
  exprs h := h ▸ .of_same env.types rfl _
  control h := h ▸ rfl
  emit := earlier_emit
  symbols h := by rw [show _ = _ from h]; rfl
  isTerminated h := by rw [show _ = _ from h]; rfl
  locally h g c := by rw [show _ = _ from h]; rfl
  aheadLocally h := h.elim
  total := .inr earlier_plain
  -- Only a warning looks at the diagnostics, and it adds to their end.
  dropUnreachable span := by
    unfold Lower.dropUnreachable
    cases env.options.unreachable with
    | error => exact .throw _
    | warn =>
      refine .bind ?_ fun s => earlier_report _
      refine ⟨fun w w' hw => .answered ?_ hw, fun _ _ _ h => h⟩
      rw [show w' = w.after ds from hw]
      rfl

theorem earlier_setFunctions (t : Functions) :
    (earlier ds).Twin Eq (setFunctions t) (setFunctions t) :=
  earlier_modify fun _ => rfl

theorem earlier_bind_symbols {α : Type} {k : Symbols → Lower α}
    (hk : ∀ s, (earlier ds).Twin Eq (k s) (k s)) :
    (earlier ds).Twin Eq (symbols >>= k) (symbols >>= k) :=
  (earlier_pairing .default).bind_symbols fun s _ hs => hs ▸ hk s

theorem earlier_lift {α : Type} (x : Build α) :
    (earlier ds).Twin Eq (liftM x : Lower α) (liftM x : Lower α) :=
  earlier_emit (.refl Act.Bond.same_plain (fun _ _ => Iff.rfl) _)

theorem earlier_declare (types : TypeTable) (p : Prototype) :
    (earlier ds).Twin Eq (declare types p) (declare types p) := by
  refine earlier_bind_symbols fun s => .bind (.ofExcept _) fun found => ?_
  cases found with
  | some id => exact .pure rfl
  | none =>
    refine .bind (.ofExcept _) fun symbol => .bind (.ofExcept _) fun signature => ?_
    refine .bind (earlier_emit (.refl Act.Bond.same_plain (fun _ _ => Iff.rfl) _)) fun func => ?_
    exact .bind (earlier_setFunctions _) fun _ => .pure rfl

theorem earlier_function (env : Env) (decl : FunctionDecl) :
    (earlier ds).Twin Eq (Lower.function env decl) (Lower.function env decl) := by
  refine .bind (.ofExcept _) fun p => .bind (.refuseIf _ _) fun _ => ?_
  refine .bind (earlier_declare env.types p) fun id => earlier_bind_symbols fun s => ?_
  refine .bind (.ofExcept _) fun e => earlier_bind_symbols fun s' => ?_
  refine .bind (.ofExcept _) fun functions => .bind (earlier_setFunctions functions) fun _ => ?_
  refine .tryCatch ?_ earlier_plain (fun h => h) fun fault => ?_
  · refine .bind ((earlier_pairing env).frameBody rfl p decl) fun _ => ?_
    exact .bind (earlier_lift _) fun _ => .pure rfl
  · refine .bind (earlier_lift _) fun _ => earlier_bind_symbols fun t => ?_
    refine .bind (earlier_setFunctions _) fun _ => .bind (earlier_lift _) fun _ => .throw fault

theorem earlier_lowerItem (ds : Diagnostics) (env : Env) (item : Item) : (earlier ds).Twin Eq
    (Progress.lowerItem env item) (Progress.lowerItem env item) := by
  cases item with
  | prototype decl =>
    exact .bind (.bind (.ofExcept _) fun p => earlier_declare env.types p) fun _ => .pure rfl
  | function decl => exact .bind (earlier_function env decl) fun _ => .pure rfl

/-- An item does the same after earlier diagnostics, and they stay in front. -/
theorem lowerItem_run_after (env : Env) (item : Item) (w : Work) (ds : Diagnostics) :
    (Progress.lowerItem env item).run (w.after ds) =
      (((Progress.lowerItem env item).run w).1, ((Progress.lowerItem env item).run w).2.after ds) := by
  have houtcome := (earlier_lowerItem ds env item).outcome w (w.after ds) rfl
  generalize (Progress.lowerItem env item).run w = p at houtcome
  generalize (Progress.lowerItem env item).run (w.after ds) = q at houtcome
  cases houtcome with
  | answered ha hw => rw [ha, show _ = _ from hw]
  | refused hw => rw [show _ = _ from hw]
  | ahead h => exact h.elim
  | excused h => exact h.elim

end Lower

/-! ## Where the builder stands -/

/-- The builder stands nowhere. -/
def Work.Outside (w : Work) : Prop := w.builder.cursor = none

/-- The builder stands nowhere after a definition, as before it. -/
theorem Lower.function_outside (env : Env) (decl : FunctionDecl) {w : Work} (hw : w.Outside) :
    (Lower.function env decl).Meets w (fun _ t => t.Outside) fun _ t => t.Outside := by
  refine Act.meets_bind.2 (Act.meets_ofExcept.2 ⟨fun p _ => ?_, fun _ _ => hw⟩)
  refine Act.meets_bind.2 (Act.meets_refuseIf.2 ⟨fun _ => hw, fun _ => ?_⟩)
  refine Act.meets_bind.2 ((Lower.declare_meets env.types p w).mono (fun id w₁ hdecl => ?_)
    fun e w' he => he.1 ▸ hw)
  have hw₁ : w₁.Outside := by cases hdecl <;> exact hw
  refine Act.Meets.bind (Q := fun _ (t : Work) => t.Outside) hw₁ fun s w₂ hw₂ => ?_
  refine Act.meets_bind.2 (Act.meets_ofExcept.2 ⟨fun e _ => ?_, fun _ _ => hw₂⟩)
  refine Act.Meets.bind (Q := fun _ (t : Work) => t.Outside) hw₂ fun s' w₃ hw₃ => ?_
  refine Act.meets_bind.2 (Act.meets_ofExcept.2 ⟨fun functions _ => ?_, fun _ _ => hw₃⟩)
  refine Act.meets_bind.2 (Act.meets_tryCatch.2 ?_)
  -- The body may stand anywhere; both ways on start with leaving it.
  refine Act.meets_bind.2 (Act.meets_of_run (fun _ w₄ _ => rfl) fun fault w₄ _ => ?_)
  refine Act.Meets.bind (Q := fun _ (t : Work) => t.Outside) rfl fun _ w₅ hw₅ => ?_
  refine Act.Meets.bind (Q := fun _ (t : Work) => t.Outside) hw₅ fun s'' w₆ hw₆ => ?_
  refine Act.Meets.bind (Q := fun _ (t : Work) => t.Outside) hw₆ fun _ w₇ hw₇ => ?_
  refine Act.meets_bind.2 (Lower.meets_build.2 (Act.meets_bind.2 ?_))
  exact Act.meets_bind.2 (Act.meets_ofExcept.2 ⟨fun _ _ => hw₇, fun _ _ => hw₇⟩)

theorem Progress.lowerItem_outside (env : Env) (item : Item) {w : Work} (hw : w.Outside) :
    ((lowerItem env item).run w).2.Outside := by
  refine Act.Meets.state (R := Work.Outside) ?_
  cases item with
  | prototype decl =>
    refine Act.meets_bind.2 (Act.meets_bind.2 (Act.meets_ofExcept.2 ⟨fun p _ => ?_, fun _ _ => hw⟩))
    refine (Lower.declare_meets env.types p w).mono (fun id w₁ hdecl => ?_) fun e w' he => he.1 ▸ hw
    cases hdecl <;> exact hw
  | function decl => exact Act.meets_bind.2 (Lower.function_outside env decl hw)

/-! ## Units -/

namespace Progress

variable {p q : Progress}

/-- What was compiled after something else. -/
def after (p q : Progress) : Progress :=
  ⟨p.work.after q.diagnostics, q.compiled ++ p.compiled, q.failed ++ p.failed⟩

theorem step_after (env : Env) (p q : Progress) (item : Item) :
    (p.after q).step env item = (p.step env item).after q := by
  unfold step
  rw [show (p.after q).work = p.work.after q.diagnostics from rfl, Lower.lowerItem_run_after]
  rcases (lowerItem env item).run p.work with ⟨r, w⟩
  -- The item is counted behind what was counted before, on one list or the other.
  cases r with
  | ok _ =>
    show Progress.mk _ _ _ = Progress.mk _ _ _
    rw [show (p.after q).compiled = q.compiled ++ p.compiled from rfl, List.append_assoc]
    rfl
  | error fault =>
    show Progress.mk _ _ _ = Progress.mk _ _ _
    rw [show (p.after q).failed = q.failed ++ p.failed from rfl, List.append_assoc]
    unfold Work.after
    rw [List.append_assoc]
    rfl

theorem foldl_step_after (env : Env) (items : List Item) (p q : Progress) :
    items.foldl (step env) (p.after q) = (items.foldl (step env) p).after q := by
  induction items generalizing p with
  | nil => rfl
  | cons item rest ih => rw [List.foldl_cons, List.foldl_cons, step_after, ih]

theorem step_outside (env : Env) {p : Progress} (hp : p.work.Outside) (item : Item) :
    (p.step env item).work.Outside := by
  unfold Work.Outside
  rw [(p.step_work env item).1]
  exact lowerItem_outside env item hp

/-- A new unit starts where the one before it has stopped. -/
theorem start_after (hp : p.work.Outside) :
    (start p.work.builder.module p.work.symbols).after p = p := by
  obtain ⟨⟨⟨m, cursor⟩, s, ds⟩, compiled, failed⟩ := p
  obtain rfl : cursor = none := hp
  simp [start, after, Work.after, diagnostics, Builder.start]

end Progress

theorem compileUnit_outside (env : Env) (items : List Item) (m : Module) (s : Symbols) :
    (compileUnit env items m s).work.Outside := by
  unfold compileUnit
  have hstart : (Progress.start m s).work.Outside := rfl
  generalize Progress.start m s = p at hstart
  induction items generalizing p with
  | nil => exact hstart
  | cons item rest ih => exact ih _ (Progress.step_outside env hstart item)

/-- A unit that is split in two parts is compiled to the same module, and the
    same functions are known after it.  Its diagnostics, the functions that
    were compiled and the items that were refused are those of the parts. -/
theorem compileUnit_append (env : Env) (u₁ u₂ : List Item) (m : Module) (s : Symbols) :
    let p₁ := compileUnit env u₁ m s
    let p₂ := compileUnit env u₂ p₁.work.builder.module p₁.work.symbols
    let p := compileUnit env (u₁ ++ u₂) m s
    p.work.builder.module = p₂.work.builder.module ∧ p.work.symbols = p₂.work.symbols ∧
      p.diagnostics = p₁.diagnostics ++ p₂.diagnostics ∧
      p.compiled = p₁.compiled ++ p₂.compiled ∧ p.failed = p₁.failed ++ p₂.failed := by
  intro p₁ p₂ p
  have hp : p = p₂.after p₁ := by
    calc p = u₂.foldl (Progress.step env) p₁ := List.foldl_append
      _ = u₂.foldl (Progress.step env)
          ((Progress.start p₁.work.builder.module p₁.work.symbols).after p₁) := by
        rw [Progress.start_after (compileUnit_outside env u₁ m s)]
      _ = p₂.after p₁ := Progress.foldl_step_after env u₂ _ p₁
  rw [hp]
  exact ⟨rfl, rfl, rfl, rfl, rfl⟩

end Shading
