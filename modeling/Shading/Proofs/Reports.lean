import Shading.Lower.Unit
import Shading.Proofs.Balance

/-! # Reports

    Diagnostics arise in two places.  A dropped statement is noted deep inside
    of a body, for the function whose body it is, and the note stays if the
    body is refused later on.  An item that is refused is noted when it is
    given up.

    Main result: what has been compiled of a unit accounts for each of its
    items once (`items_accounted_for`). -/

namespace Shading

open IR

/-! ## Warnings -/

/-- The note about a dropped statement of a function. -/
def Diagnostic.dropped (function : Option String) (span : Span) : Diagnostic :=
  ⟨.warning, Cause.unreachableCode.atSpan span, function⟩

namespace Work

/-- Nothing was noted but dropped statements of a function. -/
def Warned (function : Option String) (w w' : Work) : Prop :=
  ∃ ds : Diagnostics, w'.diagnostics = w.diagnostics ++ ds ∧
    ∀ d ∈ ds, ∃ span, d = .dropped function span

variable {function : Option String} {w w' w'' : Work}

theorem Warned.of_eq (h : w'.diagnostics = w.diagnostics) : w.Warned function w' := by
  refine ⟨[], ?_, fun d hd => ?_⟩
  · rw [h, List.append_nil]
  · cases hd

theorem Warned.trans (h₁ : w.Warned function w') (h₂ : w'.Warned function w'') :
    w.Warned function w'' := by
  obtain ⟨ds, hds, hall⟩ := h₁
  obtain ⟨ds', hds', hall'⟩ := h₂
  refine ⟨ds ++ ds', ?_, fun d hd => ?_⟩
  · rw [hds', hds, List.append_assoc]
  · rcases List.mem_append.1 hd with hd | hd
    · exact hall d hd
    · exact hall' d hd

/-- The name of the function whose body is being lowered. -/
def tag (w : Work) : Option String := w.symbols.control.currentFunction?.map (·.name)

/-- The control structures are as before, and nothing was noted but dropped
    statements of the function whose body is being lowered. -/
structure Tagged (w w' : Work) : Prop where
  control : w'.symbols.control = w.symbols.control
  warned : w.Warned w.tag w'

theorem Tagged.of_eq (hcontrol : w'.symbols.control = w.symbols.control)
    (hdiagnostics : w'.diagnostics = w.diagnostics) : w.Tagged w' := ⟨hcontrol, .of_eq hdiagnostics⟩

theorem Tagged.trans (h₁ : w.Tagged w') (h₂ : w'.Tagged w'') : w.Tagged w'' := by
  have htag : w'.tag = w.tag := by
    unfold tag
    rw [h₁.control]
  exact ⟨h₂.control.trans h₁.control, h₁.warned.trans (htag ▸ h₂.warned)⟩

end Work

namespace Lower

/-- Only dropped statements of a given function are noted. -/
def warning (function : Option String) : Act.Law Work Fault where
  answered := Work.Warned function
  refused _ := Work.Warned function
  refl _ := .of_eq rfl
  trans := Work.Warned.trans
  after := Work.Warned.trans

/-- Only dropped statements of the current function are noted. -/
def tagging : Act.Law Work Fault where
  answered := Work.Tagged
  refused _ := Work.Tagged
  refl _ := .of_eq rfl rfl
  trans := Work.Tagged.trans
  after := Work.Tagged.trans

variable {α : Type} {env : Env} {function : Option String}

theorem tagging_emit (x : Emit α) : tagging.Holds (liftM x : Lower α) := fun _ =>
  meets_emit.2 (Act.meets_of_run (fun _ _ _ => .of_eq rfl rfl) fun _ _ _ => .of_eq rfl rfl)

/-- A frame that is not a function does not change whose body is lowered. -/
theorem tagging_withFrame {x : Lower α} (hx : tagging.Holds x) {frame : Frame}
    (hframe : ∀ c : Control, Control.currentFunction? (frame :: c) = c.currentFunction?) :
    tagging.Holds (withFrame frame x) := by
  intro w
  have hpop : ∀ t : Work,
      ({ w with symbols := { w.symbols with control := frame :: w.symbols.control } } : Work).Tagged
        t →
      w.Tagged { t with symbols := { t.symbols with control := t.symbols.control.tail } } := by
    intro t ht
    have hwarned := ht.warned
    unfold Work.tag at hwarned
    rw [hframe] at hwarned
    exact ⟨congrArg List.tail ht.control, hwarned⟩
  exact meets_withFrame.2 ((hx _).mono (fun _ => hpop) fun _ => hpop)

theorem tagging_covers : Covers tagging where
  emit := tagging_emit
  refused _ _ := .of_eq rfl rfl
  conditional hx := tagging_withFrame hx fun _ => rfl
  loopFrame hx _ := tagging_withFrame hx fun _ => rfl

theorem tagging_declareVariable (name : String) (ty : TypeId) (ptr : Value) (span : Span) :
    tagging.Holds (do
      let scopes ← (liftM ((← symbols).scopes.declare name ty ptr span) : Lower Scopes)
      setScopes scopes) := by
  intro w
  apply (declareVariable_meets name ty ptr span w).mono
  · rintro _ t ⟨-, rfl⟩
    exact .of_eq rfl rfl
  · rintro _ t rfl
    exact .of_eq rfl rfl

/-- The one place where a warning arises. -/
theorem tagging_dropUnreachable (env : Env) (span : Span) :
    tagging.Holds (dropUnreachable env span) := by
  unfold dropUnreachable
  split
  · exact tagging_covers.throw _
  · intro w
    refine ⟨rfl, [.dropped w.tag span], rfl, fun d hd => ?_⟩
    exact ⟨span, List.mem_singleton.1 hd⟩

theorem tagging_inScope {x : Lower Unit} (hx : tagging.Holds x) :
    tagging.Holds (inScope env x) := by
  have hset : ∀ s, tagging.Holds (setScopes s) := fun s w => .of_eq rfl rfl
  have hpop : tagging.Holds (Act.andAlways
      (do x
          return (← symbols).scopes.innermost)
      fun w => { w with symbols := { w.symbols with scopes := w.symbols.scopes.pop } }) := by
    have hinner : tagging.Holds (do
        x
        return (← symbols).scopes.innermost) := .bind hx fun _ => .bind law_symbols fun _ => .pure _
    intro w
    exact Act.meets_andAlways.2 ((hinner w).mono (fun _ _ h => ⟨h.control, h.warned⟩)
      fun _ _ h => ⟨h.control, h.warned⟩)
  exact .bind law_symbols fun _ => .bind (hset _) fun _ => .bind hpop fun _ =>
    .bind law_isTerminated fun _ => .onlyIf (tagging_emit _)

theorem tagging_coversScopes : CoversScopes tagging where
  toCovers := tagging_covers
  declare := tagging_declareVariable
  drop := tagging_dropUnreachable
  inScope := tagging_inScope

theorem warning_withFrame {x : Lower α} (hx : (warning function).Holds x) (frame : Frame) :
    (warning function).Holds (withFrame frame x) := fun _ =>
  meets_withFrame.2 ((hx _).mono (fun _ _ h => h) fun _ _ h => h)

theorem warning_covers : Covers (warning function) where
  emit _ _ := meets_emit.2 (Act.meets_of_run (fun _ _ _ => .of_eq rfl) fun _ _ _ => .of_eq rfl)
  refused _ _ := .of_eq rfl
  conditional hx := warning_withFrame hx _
  loopFrame hx _ := warning_withFrame hx _

/-- In the frame of a function, what is dropped is noted for that function. -/
theorem frameBody_warning (env : Env) (p : Prototype) (func : FuncId) (decl : FunctionDecl) :
    (warning (some p.name)).Holds (frameBody env p func decl) := by
  have hbody : ∀ depth, (warning (some p.name)).Holds
      (withFrame (.function ⟨p.name, p.ret, depth⟩) (body env p func decl)) := by
    intro depth w
    exact meets_withFrame.2 ((tagging_coversScopes.body env p func decl _).mono
      (fun _ _ h => h.warned) fun _ _ h => h.warned)
  have hset : ∀ s, (warning (some p.name)).Holds (setScopes s) := fun s w => .of_eq rfl
  exact .bind (warning_covers.build _) fun _ => .bind (warning_covers.build _) fun _ =>
    .bind law_symbols fun _ => .bind (hset _) fun _ => .bind law_symbols fun s => fun w =>
    Act.meets_andAlways.2 ((hbody s.scopes.depth w).mono (fun _ _ h => h) fun _ _ h => h)

theorem declare_diagnostics (types : TypeTable) (p : Prototype) (w : Work) :
    (declare types p).Meets w (fun _ t => t.diagnostics = w.diagnostics)
      fun _ t => t.diagnostics = w.diagnostics := by
  apply (declare_meets types p w).mono
  · intro id t ht
    cases ht with
    | found => rfl
    | added => rfl
  · rintro e t ⟨rfl, -⟩
    rfl

theorem declare_warning (types : TypeTable) (p : Prototype) :
    (warning function).Holds (declare types p) := fun w =>
  (declare_diagnostics types p w).mono (fun _ _ h => .of_eq h) fun _ _ h => .of_eq h

/-- Whether a definition is answered or refused, it notes what is dropped from
    its body, under its name. -/
theorem function_warning (env : Env) (decl : FunctionDecl) :
    (warning (some decl.prototype.name.name)).Holds (Lower.function env decl) := by
  refine warning_covers.function (fun _ _ _ h => h) (fun _ _ => .of_eq rfl) (declare_warning _) ?_
  intro p hp func
  rw [← Prototype.ofDecl_name hp]
  exact frameBody_warning env p func decl

end Lower

/-! ## Items -/

/-- Does an item define a function? -/
def Item.isFunction : Item → Bool
  | .prototype _ => false
  | .function _ => true

/-- What came of one item of a unit. -/
structure Attempt where
  item : Item
  /-- What was noted while the item was lowered. -/
  notes : Diagnostics
  /-- Why the item was refused, if it was. -/
  fault : Option Fault

namespace Attempt

def failed (a : Attempt) : Bool := a.fault.isSome

/-- The note about a refused item. -/
def report? (a : Attempt) : Option Diagnostic :=
  a.fault.map fun fault => ⟨.error, fault.locate a.item.span, some a.item.name⟩

/-- All that is noted about an item, its refusal last. -/
def diagnostics (a : Attempt) : Diagnostics := a.notes ++ a.report?.toList

/-- Nothing was noted while the item was lowered but what was dropped from the
    function it defines. -/
def Noted (a : Attempt) : Prop :=
  ∀ d ∈ a.notes, a.item.isFunction = true ∧ ∃ span, d = .dropped (some a.item.name) span

end Attempt

namespace Progress

/-- The fault of a refused action. -/
def fault? : Except Fault Unit → Option Fault
  | .ok _ => none
  | .error fault => some fault

/-- What comes of the next item. -/
def attempt (env : Env) (p : Progress) (item : Item) : Attempt where
  item := item
  notes := ((lowerItem env item).run p.work).2.diagnostics.drop p.diagnostics.length
  fault := fault? ((lowerItem env item).run p.work).1

/-- What comes of the next items, each where those before it lead. -/
def attempts (env : Env) (p : Progress) : List Item → List Attempt
  | [] => []
  | item :: items => p.attempt env item :: (p.step env item).attempts env items

/-- Between two states of a unit, the lists have grown by what came of the
    items in between. -/
structure Grows (p : Progress) (as : List Attempt) (q : Progress) : Prop where
  failed : q.failed = p.failed ++ (as.filter (·.failed)).map (·.item.name)
  compiled : q.compiled =
    p.compiled ++ (as.filter fun a => !a.failed && a.item.isFunction).map (·.item.name)
  diagnostics : q.diagnostics = p.diagnostics ++ as.flatMap (·.diagnostics)

variable {env : Env} {p q r : Progress} {as bs : List Attempt}

theorem Grows.refl (p : Progress) : p.Grows [] p where
  failed := (List.append_nil _).symm
  compiled := (List.append_nil _).symm
  diagnostics := (List.append_nil _).symm

theorem Grows.trans (h₁ : p.Grows as q) (h₂ : q.Grows bs r) : p.Grows (as ++ bs) r where
  failed := by
    rw [h₂.failed, h₁.failed, List.filter_append, List.map_append, List.append_assoc]
  compiled := by
    rw [h₂.compiled, h₁.compiled, List.filter_append, List.map_append, List.append_assoc]
  diagnostics := by
    rw [h₂.diagnostics, h₁.diagnostics, List.flatMap_append, List.append_assoc]

/-- While an item is lowered, only what is dropped from its body is noted. -/
theorem lowerItem_notes (env : Env) (item : Item) (w : Work) :
    ∃ ds, ((lowerItem env item).run w).2.diagnostics = w.diagnostics ++ ds ∧
      ∀ d ∈ ds, item.isFunction = true ∧ ∃ span, d = .dropped (some item.name) span := by
  -- Only the body of a function can hold code that is dropped.
  cases item with
  | prototype decl =>
    have hsame : ((lowerItem env (.prototype decl)).run w).2.diagnostics = w.diagnostics := by
      refine Act.Meets.state (R := fun t : Work => t.diagnostics = w.diagnostics) ?_
      refine Act.Meets.bind (Q := fun _ (t : Work) => t.diagnostics = w.diagnostics) ?_
        fun _ _ h => h
      apply Act.meets_bind.2
      exact Act.meets_ofExcept.2
        ⟨fun p _ => Lower.declare_diagnostics env.types p w, fun _ _ => rfl⟩
    refine ⟨[], ?_, fun d hd => by cases hd⟩
    rw [hsame, List.append_nil]
  | function decl =>
    have hwarned : w.Warned (some decl.prototype.name.name)
        ((lowerItem env (.function decl)).run w).2 := by
      refine Act.Meets.state (R := Work.Warned (some decl.prototype.name.name) w) ?_
      exact Act.Meets.bind (Lower.function_warning env decl w) fun _ _ h => h
    obtain ⟨ds, hds, hall⟩ := hwarned
    exact ⟨ds, hds, fun d hd => ⟨rfl, hall d hd⟩⟩

theorem attempt_notes (env : Env) (p : Progress) (item : Item) :
    ((lowerItem env item).run p.work).2.diagnostics =
        p.diagnostics ++ (p.attempt env item).notes ∧
      (p.attempt env item).Noted := by
  obtain ⟨ds, hds, hall⟩ := lowerItem_notes env item p.work
  have hnotes : (p.attempt env item).notes = ds := by
    show List.drop p.work.diagnostics.length _ = ds
    rw [hds, List.drop_left]
  unfold Attempt.Noted
  rw [hnotes]
  exact ⟨hds, hall⟩

/-- One item makes the lists grow by what comes of it. -/
theorem step_grows (env : Env) (p : Progress) (item : Item) :
    p.Grows [p.attempt env item] (p.step env item) := by
  have hdiagnostics := (attempt_notes env p item).1
  have hitem : (p.attempt env item).item = item := rfl
  have hfault : (p.attempt env item).fault = fault? ((lowerItem env item).run p.work).1 := rfl
  generalize p.attempt env item = a at hdiagnostics hitem hfault
  unfold step
  rcases hrun : (lowerItem env item).run p.work with ⟨r, w⟩
  rw [hrun] at hdiagnostics hfault
  replace hdiagnostics : w.diagnostics = p.diagnostics ++ a.notes := hdiagnostics
  -- The item is counted as compiled, or it is reported and counted as failed.
  cases r with
  | ok u =>
    replace hfault : a.fault = none := hfault
    refine ⟨?_, ?_, ?_⟩
    · simp [Attempt.failed, hfault]
    · cases item <;> simp [Attempt.failed, hfault, hitem, compiledNames, Item.isFunction]
    · show w.diagnostics = _
      simp [Attempt.diagnostics, Attempt.report?, hfault, hdiagnostics]
  | error fault =>
    replace hfault : a.fault = some fault := hfault
    refine ⟨?_, ?_, ?_⟩
    · simp [Attempt.failed, hfault, hitem]
    · simp [Attempt.failed, hfault]
    · show w.diagnostics ++ _ = _
      simp [Attempt.diagnostics, Attempt.report?, hfault, hitem, hdiagnostics]

theorem foldl_step_grows (env : Env) (p : Progress) (items : List Item) :
    p.Grows (p.attempts env items) (items.foldl (step env) p) := by
  induction items generalizing p with
  | nil => exact .refl p
  | cons item items ih => exact (step_grows env p item).trans (ih (p.step env item))

theorem attempts_items (env : Env) (p : Progress) (items : List Item) :
    (p.attempts env items).map (·.item) = items := by
  induction items generalizing p with
  | nil => rfl
  | cons item items ih => exact congrArg (item :: ·) (ih (p.step env item))

theorem attempts_noted (env : Env) (p : Progress) (items : List Item) :
    ∀ a ∈ p.attempts env items, a.Noted := by
  induction items generalizing p with
  | nil =>
    intro a ha
    cases ha
  | cons item items ih =>
    intro a ha
    rcases List.mem_cons.1 ha with rfl | ha
    · exact (attempt_notes env p item).2
    · exact ih (p.step env item) a ha

end Progress

/-! ## Errors -/

/-- A fault that is given a position has one, unless there cannot be one. -/
theorem Fault.locate_line {span : Span} (h : span.line ≠ 0) (fault : Fault) :
    (∃ m, fault.locate span = .malformed m) ∨ (fault.locate span).span.line ≠ 0 := by
  cases fault with
  | malformed m => exact .inl ⟨m, rfl⟩
  | located c t =>
    right
    show (if t.isUnknown then located c span else located c t).span.line ≠ 0
    by_cases ht : t.isUnknown = true
    · rw [if_pos ht]
      exact h
    · rw [if_neg ht]
      simpa [Span.isUnknown, Fault.span] using ht

theorem Diagnostics.errors_append (ds ds' : Diagnostics) :
    Diagnostics.errors (ds ++ ds') = ds.errors ++ ds'.errors := List.filter_append ..

theorem Diagnostics.hasErrors_eq_false {ds : Diagnostics} :
    ds.hasErrors = false ↔ ds.errors = [] := by
  unfold hasErrors errors
  rw [List.any_eq_false, List.filter_eq_nil_iff]

namespace Attempt

variable {a : Attempt} {as : List Attempt}

/-- Of all that is noted about an item, its refusal alone is an error. -/
theorem Noted.errors (h : a.Noted) : a.diagnostics.errors = a.report?.toList := by
  have hnotes : Diagnostics.errors a.notes = [] := by
    refine List.filter_eq_nil_iff.2 fun d hd => ?_
    obtain ⟨-, span, rfl⟩ := h d hd
    exact Bool.false_ne_true
  have hreport : Diagnostics.errors a.report?.toList = a.report?.toList := by
    unfold report?
    cases a.fault <;> rfl
  unfold diagnostics
  rw [Diagnostics.errors_append, hnotes, hreport, List.nil_append]

theorem errors_flatMap (h : ∀ a ∈ as, a.Noted) :
    Diagnostics.errors (as.flatMap (·.diagnostics)) = as.filterMap (·.report?) := by
  induction as with
  | nil => rfl
  | cons a as ih =>
    have hhead := (h a List.mem_cons_self).errors
    have htail := ih fun b hb => h b (List.mem_cons_of_mem _ hb)
    rw [List.flatMap_cons, Diagnostics.errors_append, hhead, htail]
    cases hreport : a.report? with
    | none => rw [List.filterMap_cons_none hreport, Option.toList_none, List.nil_append]
    | some d => rw [List.filterMap_cons_some hreport, Option.toList_some, List.singleton_append]

/-- The refusals are noted under the names of the refused items. -/
theorem filterMap_report?_function (as : List Attempt) :
    (as.filterMap (·.report?)).map (·.function) =
      ((as.filter (·.failed)).map (·.item.name)).map some := by
  induction as with
  | nil => rfl
  | cons a as ih =>
    -- An attempt is reported if and only if it failed.
    cases hfault : a.fault with
    | none =>
      have hreport : a.report? = none := by rw [report?, hfault, Option.map_none]
      have hfailed : ¬ a.failed = true := by simp [failed, hfault]
      rw [List.filterMap_cons_none hreport, List.filter_cons_of_neg hfailed]
      exact ih
    | some fault =>
      have hreport : a.report? = some ⟨.error, fault.locate a.item.span, some a.item.name⟩ := by
        rw [report?, hfault, Option.map_some]
      have hfailed : a.failed = true := by simp [failed, hfault]
      rw [List.filterMap_cons_some hreport, List.filter_cons_of_pos hfailed]
      exact congrArg (some a.item.name :: ·) ih

end Attempt

/-- What has been compiled of a unit says of each of its items what came of
    it. -/
structure Progress.AccountsFor (p : Progress) (as : List Attempt) : Prop where
  /-- The refused items, in their order. -/
  failed : p.failed = (as.filter (·.failed)).map (·.item.name)
  /-- The functions that were defined, in their order. -/
  compiled : p.compiled =
    (as.filter fun a => !a.failed && a.item.isFunction).map (·.item.name)
  /-- Item by item, and the refusal of an item behind all else about it. -/
  diagnostics : p.diagnostics = as.flatMap (·.diagnostics)
  /-- What is not a refusal is a warning about a dropped statement, for the
      function that was being lowered. -/
  noted : ∀ a ∈ as, a.Noted
  /-- One error for each refused item. -/
  errors : p.diagnostics.errors = as.filterMap (·.report?)
  /-- The errors are noted under the names of the refused items. -/
  tags : p.diagnostics.errors.map (·.function) = p.failed.map some
  success : p.isSuccess = true ↔ p.failed = []

theorem Progress.Grows.accountsFor {module : Module} {symbols : Symbols} {as : List Attempt}
    {q : Progress} (h : (Progress.start module symbols).Grows as q) (hnoted : ∀ a ∈ as, a.Noted) :
    q.AccountsFor as := by
  have hfailed : q.failed = (as.filter (·.failed)).map (·.item.name) := h.failed
  have hdiagnostics : q.diagnostics = as.flatMap (·.diagnostics) := h.diagnostics
  have herrors : q.diagnostics.errors = as.filterMap (·.report?) := by
    rw [hdiagnostics, Attempt.errors_flatMap hnoted]
  have htags : q.diagnostics.errors.map (·.function) = q.failed.map some := by
    rw [herrors, hfailed, Attempt.filterMap_report?_function]
  refine ⟨hfailed, h.compiled, hdiagnostics, hnoted, herrors, htags, ?_⟩
  -- There are as many errors as there are refused items.
  unfold Progress.isSuccess
  rw [Bool.not_eq_true', Diagnostics.hasErrors_eq_false, ← List.map_eq_nil_iff (f := (·.function)),
    htags, List.map_eq_nil_iff]

/-- Whatever the types, the options, the module and the symbols are, a compiled
    unit accounts for each of its items once.  If every item has a position,
    then so has every error but those about malformed instructions. -/
theorem items_accounted_for (env : Env) (items : List Item) (module : Module)
    (symbols : Symbols) :
    let p := compileUnit env items module symbols
    let as := (Progress.start module symbols).attempts env items
    as.map (·.item) = items ∧ p.AccountsFor as ∧
      ((∀ item ∈ items, item.span.line ≠ 0) → ∀ d ∈ p.diagnostics.errors,
        (∃ m, d.fault = .malformed m) ∨ d.fault.span.line ≠ 0) := by
  intro p as
  have hitems : as.map (·.item) = items := Progress.attempts_items env _ items
  have haccounts : p.AccountsFor as :=
    (Progress.foldl_step_grows env _ items).accountsFor (Progress.attempts_noted env _ items)
  refine ⟨hitems, haccounts, fun hlines d hd => ?_⟩
  rw [haccounts.errors] at hd
  obtain ⟨a, ha, hreport⟩ := List.mem_filterMap.1 hd
  obtain ⟨fault, -, rfl⟩ := Option.map_eq_some_iff.1 hreport
  have hitem : a.item ∈ items := hitems ▸ List.mem_map_of_mem ha
  exact Fault.locate_line (hlines _ hitem) fault

/-- A unit with all there is: a head, a function with a dropped statement, one
    that is refused behind a dropped statement, and a head that is refused. -/
def mixedUnit : List Item :=
  let spot (line : Nat) : Span := ⟨line, 1, 1⟩
  let head (ret name : String) (line : Nat) : PrototypeDecl :=
    ⟨⟨name, spot line⟩, none, ⟨ret, .unknown⟩, [], spot line⟩
  [.prototype (head "float" "noise" 1),
    .function ⟨head "void" "twice" 2, [.ret none (spot 3), .ret none (spot 4)], spot 2, spot 2⟩,
    .function ⟨head "void" "lost" 5,
      [.ifThen (.literal (.bool true) (spot 6))
        (.block [.ret none (spot 7), .ret none (spot 8)] (spot 6)) (spot 6),
        .expr (.var ⟨"x", .unknown⟩) (spot 9)], spot 5, spot 5⟩,
    .prototype (head "colour" "paint" 10)]

/-- Two items fail and one function is defined; each failure is one error, and
    its position is known. -/
theorem mixedUnit_accounted_for :
    let p := compileUnit .default mixedUnit (.empty "scene") .empty
    p.failed = ["lost", "paint"] ∧ p.compiled = ["twice"] ∧ p.isSuccess = false ∧
      p.diagnostics.map (fun d => (d.severity, d.function, d.fault.span.line)) =
        [(.warning, some "twice", 4), (.warning, some "lost", 8), (.error, some "lost", 5),
          (.error, some "paint", 10)] ∧
      p.diagnostics.errors.map (·.function) = [some "lost", some "paint"] ∧
      ∀ d ∈ p.diagnostics.errors, (∃ m, d.fault = .malformed m) ∨ d.fault.span.line ≠ 0 := by
  intro p
  obtain ⟨-, haccounts, hlines⟩ :=
    items_accounted_for .default mixedUnit (.empty "scene") .empty
  have hfailed : p.failed = ["lost", "paint"] := by decide +kernel
  refine ⟨hfailed, by decide +kernel, ?_, by decide +kernel, ?_, hlines (by decide)⟩
  · have hsuccess := haccounts.success
    rw [hfailed] at hsuccess
    simpa using hsuccess
  · rw [haccounts.tags, hfailed]
    rfl

end Shading
