import Shading.Proofs.Balance
import Shading.Proofs.OpenBlocks
import Shading.Proofs.ReturnPaths
import Shading.Proofs.TwinStatements

/-! # The end of a body without `return`

    A function without result may end in a `return` or run off the end of its
    body.  Both ways out destroy variables and return, but they count scopes
    from different ends: `return` destroys the variables of the scopes that
    the function has opened, and the implicit exit those of all scopes that
    are open.

    Main result: the two ways out are the same where no variable around the
    function has to be destroyed, and, if the function with the `return` is
    accepted, only there (`implicit_exit_eq_return_iff`). -/

namespace Shading

open IR

variable {rest slots : List Slot} {t t' u w w₁ : Work} {e : Entry} {id : EntryId}
    {types : TypeTable} {span : Span}

/-! ## Added instructions -/

section

variable {func : FuncId} {block : BlockId} {f : Function} {b b' : Builder}

/-- Code without branches only adds instructions. -/
theorem Emit.straight_insts_le {α : Type} {x : Emit α} (hx : straight.Holds x) {a : α}
    (hb : b.StandsAt func block f) (hrun : x.run b = (.ok a, b')) :
    ∃ g, b'.StandsAt func block g ∧ f.insts.length ≤ g.insts.length := by
  obtain ⟨g, hb', hsteady⟩ := ((hx b).of_ok hrun).steady hb
  exact ⟨g, hb', hsteady.insts.length_le⟩

theorem IR.Build.emitValue_insts_lt {op : Op} {ty : Ty} {v : Value} (hb : b.StandsAt func block f)
    (hrun : (emitValue op ty).run b = (.ok v, b')) :
    ∃ g, b'.StandsAt func block g ∧ f.insts.length < g.insts.length := by
  obtain ⟨id, t, hemit, hpure⟩ := Act.run_bind_eq_ok.1 hrun
  obtain ⟨-, rfl⟩ := Act.run_pure_eq_ok.1 hpure
  obtain ⟨c, f', hc, hf', -, -, rfl⟩ := (emit_meets op ty).of_ok hemit
  rw [hb.cursor] at hc
  cases hc
  rw [hb.found] at hf'
  cases hf'
  refine ⟨f.pushInst block ⟨op, ty, none⟩,
    hb.update (g := (·.pushInst block _)) rfl (f.pushInst_blocks_length ..).ge, ?_⟩
  simp [Function.pushInst]

end

/-! ## Slots to destroy -/

namespace Lifetime

variable {types : TypeTable} {func : FuncId} {block : BlockId} {f : Function} {b b' : Builder}

theorem destroySlot_eq_pure {slot : Slot} (h : needsDestroy types slot.ty = .ok false) :
    destroySlot types slot = pure () := by
  unfold destroySlot
  rw [h]
  rfl

theorem forM_destroySlot_eq_pure (h : ∀ slot ∈ slots, needsDestroy types slot.ty = .ok false) :
    slots.forM (destroySlot types) = pure () := by
  induction slots with
  | nil => rfl
  | cons slot rest ih =>
    show (destroySlot types slot >>= fun _ => rest.forM (destroySlot types)) = _
    rw [destroySlot_eq_pure (h slot List.mem_cons_self), pure_bind]
    exact ih fun s hs => h s (List.mem_cons_of_mem _ hs)

theorem forM_destroySlot_append (slots rest : List Slot) :
    (slots ++ rest).forM (destroySlot types) = (do
      slots.forM (destroySlot types)
      rest.forM (destroySlot types)) := List.forM_append

/-- To destroy a variable, it is loaded first. -/
theorem destroySlot_insts_lt [types.Straight] {slot : Slot}
    (hneeds : needsDestroy types slot.ty ≠ .ok false) (hb : b.StandsAt func block f)
    (hrun : (destroySlot types slot).run b = (.ok (), b')) :
    ∃ g, b'.StandsAt func block g ∧ f.insts.length < g.insts.length := by
  unfold destroySlot at hrun
  cases hneeded : needsDestroy types slot.ty with
  | error e =>
    rw [hneeded] at hrun
    cases hrun
  | ok needed =>
    obtain rfl : needed = true := by
      cases needed with
      | false => exact absurd hneeded hneeds
      | true => rfl
    rw [hneeded] at hrun
    have hrest : (do
        let v ← (liftM (Build.load slot.ptr) : Emit Value)
        destroyValue types slot.ty v).run b = (.ok (), b') := hrun
    obtain ⟨v, b₁, hload, hdestroy⟩ := Act.run_bind_eq_ok.1 hrest
    obtain ⟨ty, b₀, hpointee, hemit⟩ := Act.run_bind_eq_ok.1 (Act.run_mapError_eq_ok.1 hload)
    obtain ⟨g₀, hb₀, hle₀⟩ := Emit.straight_insts_le
      (Emit.straight_lift fun b => Build.pointee_straight _ _ b) hb
      (Act.run_mapError_eq_ok.2 hpointee)
    -- The load is the instruction that is new for certain.
    obtain ⟨g₁, hb₁, hlt⟩ := Build.emitValue_insts_lt hb₀ hemit
    obtain ⟨g, hb', hle⟩ := Emit.straight_insts_le (destroyValue_straight _ _) hb₁ hdestroy
    exact ⟨g, hb', by omega⟩

/-- Where something has to be destroyed, instructions are added. -/
theorem forM_destroySlot_insts_lt [types.Straight] (hb : b.StandsAt func block f)
    (hslots : ∃ slot ∈ slots, needsDestroy types slot.ty ≠ .ok false)
    (hrun : (slots.forM (destroySlot types)).run b = (.ok (), b')) :
    ∃ g, b'.StandsAt func block g ∧ f.insts.length < g.insts.length := by
  -- By induction on the variables, up to the first that has to be destroyed.
  induction slots generalizing b f with
  | nil =>
    obtain ⟨slot, hslot, -⟩ := hslots
    cases hslot
  | cons slot rest ih =>
    obtain ⟨_, b₁, hfirst, hrest⟩ := Act.run_bind_eq_ok.1
      (show (destroySlot types slot >>= fun _ => rest.forM (destroySlot types)).run b = _ from hrun)
    by_cases hneeds : needsDestroy types slot.ty = .ok false
    · -- Nothing is done here, so the variable in question comes later.
      rw [destroySlot_eq_pure hneeds] at hfirst
      obtain ⟨-, rfl⟩ := Act.run_pure_eq_ok.1 hfirst
      obtain ⟨s, hs, hs'⟩ := hslots
      rcases List.mem_cons.1 hs with rfl | hs
      · exact absurd hneeds hs'
      · exact ih hb ⟨s, hs, hs'⟩ hrest
    · obtain ⟨g₁, hb₁, hlt⟩ := destroySlot_insts_lt hneeds hb hfirst
      obtain ⟨g, hb', hle⟩ := Emit.straight_insts_le
        (.forM fun s => destroySlot_straight s) hb₁ hrest
      exact ⟨g, hb', Nat.lt_of_lt_of_le hlt hle⟩

end Lifetime

/-! ## Statements at the end of a body -/

section

variable {env : Env} {w w' : Work}

theorem Lower.unlessEnded_run {x : Lower Unit} (hopen : w.builder.isTerminated = false) :
    (unlessEnded env span x).run w = x.run w := by
  show (if w.builder.isTerminated = true then dropUnreachable env span else x).run w = _
  rw [hopen]
  rfl

/-- Statements that are dropped do not open the block again. -/
theorem Lower.dropUnreachable_builder (hrun : (dropUnreachable env span).run w = (.ok (), w')) :
    w'.builder = w.builder := by
  unfold dropUnreachable at hrun
  split at hrun
  · cases hrun
  · cases hrun
    rfl

/-- What follows statements that end in an open block starts where they have
    stopped. -/
theorem Stmt.lowerAll_append_run {ss ts : List Stmt}
    (hrun : (Stmt.lowerAll env ss).run w = (.ok (), w')) (hopen : w'.builder.isTerminated = false) :
    (Stmt.lowerAll env (ss ++ ts)).run w = (Stmt.lowerAll env ts).run w' := by
  induction ss generalizing w with
  | nil =>
    obtain ⟨-, rfl⟩ := Act.run_pure_eq_ok.1 hrun
    rfl
  | cons s rest ih =>
    rw [List.cons_append, Stmt.lowerAll]
    rw [Stmt.lowerAll] at hrun
    -- If a statement had been dropped, the block would still be ended.
    cases hended : w.builder.isTerminated with
    | true =>
      have hdrop : (Lower.dropUnreachable env s.span).run w = (.ok (), w') := by
        have hif : (if w.builder.isTerminated = true then Lower.dropUnreachable env s.span
          else (do s.lower env; Stmt.lowerAll env rest)).run w = (.ok (), w') := hrun
        rwa [if_pos hended] at hif
      rw [Lower.dropUnreachable_builder hdrop, hended] at hopen
      cases hopen
    | false =>
      rw [Lower.unlessEnded_run hended] at hrun ⊢
      obtain ⟨_, w₁, hs, hrest⟩ := Act.run_bind_eq_ok.1 hrun
      rw [Act.run_bind, hs]
      exact ih hrest

end

/-! ## The two ways out -/

namespace Lower

/-- Destroy variables and return without a result. -/
def retire (types : TypeTable) (slots : List Slot) : Lower Unit := do
  Lifetime.destroySlots types slots
  Build.ret none

variable {env : Env} {p : Prototype} {func : FuncId} {block : BlockId} {f : Function}
  {decl : FunctionDecl} {w w' : Work} {own : List Slot}

/-- A body that has been lowered up to its exit stands in a scope and a frame
    of its own. -/
structure AtExit (p : Prototype) (own : List Slot) (w w' : Work) : Prop where
  scopes : w'.symbols.scopes = (.of (own :: w.symbols.scopes.stack))
  control : w'.symbols.control =
    .function ⟨p.name, p.ret, w.symbols.scopes.depth + 1⟩ :: w.symbols.control

theorem untilExit_atExit (hrun : (untilExit env p func decl).run w = (.ok (), w')) :
    ∃ own, AtExit p own w w' := by
  have hmeets : (untilExit env p func decl).Meets w (fun _ t => ∃ own, AtExit p own w t)
      fun _ _ => True := by
    refine Act.Meets.bind (Q := fun _ t => w.Restored t)
      ((restoring_covers.build (Build.appendBlock func "entry") w).mono (fun _ _ h => h)
        fun _ _ _ => trivial) fun entry w₁ h₁ => ?_
    refine Act.Meets.bind (Q := fun _ t => w.Restored t)
      ((restoring_covers.build (Build.moveTo func entry) w₁).mono (fun _ _ h => h₁.trans h)
        fun _ _ _ => trivial) fun _ w₂ h₂ => ?_
    -- From here on only the scope that is pushed grows.
    have hrest : growing.Holds (do
        p.params.zipIdx.forM fun q => bindArgument env q.1 q.2
        Stmt.lowerAll env decl.body) :=
      .bind (.forM fun q => growing_coversScopes.bindArgument q.1 q.2) fun _ =>
        growing_coversScopes.lowerAll env decl.body
    refine (hrest { w₂ with symbols := { w₂.symbols with
      scopes := w₂.symbols.scopes.push
      control := .function ⟨p.name, p.ret, w₂.symbols.scopes.push.depth⟩ :: w₂.symbols.control } }).mono
      (fun _ t ht => ?_) fun _ _ _ => trivial
    obtain ⟨own, hown⟩ := ht.scopes
    refine ⟨own, ?_, ?_⟩
    · rw [hown, h₂.scopes]
      rw [Scopes.extend, Scopes.stack_push, List.modifyHead_cons, List.append_nil]
    · rw [ht.control]
      show Frame.function ⟨p.name, p.ret, w₂.symbols.scopes.push.depth⟩ :: w₂.symbols.control = _
      rw [h₂.scopes, h₂.control]
      rfl
  exact hmeets.of_ok hrun

/-- The depth of the frame takes in the scope of the function. -/
theorem AtExit.liveFrom_depth (h : AtExit p own w w') :
    w'.symbols.scopes.liveFrom (w.symbols.scopes.depth + 1) = own.reverse := by
  rw [← List.reverse_inj, h.scopes, Scopes.liveFrom_reverse, List.reverse_reverse]
  simp [Scopes.depth_eq]

/-- The depth one takes in the scopes around the function, too. -/
theorem AtExit.liveFrom_one (h : AtExit p own w w') :
    w'.symbols.scopes.liveFrom 1 = (own ++ w.symbols.scopes.stack.flatten).reverse := by
  rw [← List.reverse_inj, h.scopes, Scopes.liveFrom_reverse, List.reverse_reverse]
  simp

theorem run_symbols (w : Work) : symbols.run w = (.ok w.symbols, w) := rfl

theorem run_isTerminated (w : Work) : isTerminated.run w = (.ok w.builder.isTerminated, w) := rfl

/-- A `return` destroys what the function has declared. -/
theorem AtExit.returnStmt_run (h : AtExit p own w w') (hvoid : p.ret = Builtin.void.id)
    (span : Span) : (returnStmt env none span).run w' = (retire env.types own.reverse).run w' := by
  have hframe : w'.symbols.control.currentFunction? =
      some ⟨p.name, p.ret, w.symbols.scopes.depth + 1⟩ := by
    rw [h.control]
    rfl
  have hvalue : returnValue env ⟨p.name, p.ret, w.symbols.scopes.depth + 1⟩ none span = pure none := by
    unfold returnValue
    simp [Act.refuseIf, hvoid]
  unfold returnStmt
  rw [Act.run_bind, run_symbols]
  simp only [hframe, hvalue, pure_bind]
  rw [Act.run_bind, run_symbols]
  simp only [h.liveFrom_depth]
  rfl

/-- The implicit exit destroys what is declared in any open scope. -/
theorem AtExit.implicitExit_run (h : AtExit p own w w') (hvoid : p.ret = Builtin.void.id)
    (hstands : w'.builder.StandsAt func block f) (hopen : f.isTerminated block = false)
    (hreach : f.isReachable block = true) (span : Span) :
    (implicitExit env p func span).run w' =
      (retire env.types (own ++ w.symbols.scopes.stack.flatten).reverse).run w' := by
  have hblock : (liftM Build.currentBlock : Lower BlockId).run w' = (.ok block, w') :=
    run_emit_eq_ok.2 ⟨w'.builder, hstands.currentBlock_run, rfl⟩
  have hfunction : (liftM (Build.function func) : Lower Function).run w' = (.ok f, w') := by
    refine run_build_eq_ok.2 ⟨w'.builder, ?_, rfl⟩
    show (w'.builder.module.function func, w'.builder) = _
    rw [Module.function_eq_ok.2 hstands.found]
  -- The checks pass one after the other, since the end is reached and open.
  unfold implicitExit
  rw [Act.run_bind, run_isTerminated, hstands.isTerminated, hopen]
  simp only [Act.onlyIf, Bool.not_false, if_true]
  rw [Act.run_bind, hblock]
  simp only
  rw [Act.run_bind, hfunction]
  simp only [hreach, if_true]
  rw [Act.refuseIf, if_neg (not_not_intro hvoid), pure_bind, Act.run_bind, run_symbols]
  simp only [h.liveFrom_one]
  rfl

/-- Nothing is added to a block that is ended. -/
theorem implicitExit_run_of_ended (hended : w.builder.isTerminated = true) (span : Span) :
    (implicitExit env p func span).run w = (.ok (), w) := by
  unfold implicitExit
  rw [Act.run_bind, run_isTerminated, hended]
  rfl

/-- The variables are destroyed first, and the block is ended behind them. -/
theorem retire_run_ok [types.Straight] (hstands : w.builder.StandsAt func block f)
    (hrun : (retire types slots.reverse).run w = (.ok (), t)) :
    ∃ b g, (slots.forM (Lifetime.destroySlot types)).run w.builder = (.ok (), b) ∧
      b.StandsAt func block g ∧
      t.builder.StandsAt func block (g.pushInst block ⟨.ret none, .void, none⟩) := by
  obtain ⟨_, w₁, hdestroy, hret⟩ := Act.run_bind_eq_ok.1 hrun
  obtain ⟨b, hb, rfl⟩ := run_emit_eq_ok.1 hdestroy
  obtain ⟨b', hb', rfl⟩ := run_build_eq_ok.1 hret
  obtain ⟨g, hg, -⟩ := Emit.straight_insts_le (Lifetime.destroySlots_straight _) hstands hb
  unfold Lifetime.destroySlots at hb
  rw [List.reverse_reverse] at hb
  have ht := (hg.reaches.ret none).of_ok hb'
  exact ⟨b, g, hb, hg, ht.stands⟩

theorem retire_ends [types.Straight] (hstands : w.builder.StandsAt func block f)
    (hrun : (retire types slots.reverse).run w = (.ok (), t)) : t.builder.isTerminated = true := by
  obtain ⟨b, g, -, hg, ht⟩ := retire_run_ok hstands hrun
  rw [ht.isTerminated, Function.pushInst_isTerminated_self hg.inside]
  rfl

/-- What needs no destruction can be left out. -/
theorem retire_append (h : ∀ slot ∈ rest, Lifetime.needsDestroy types slot.ty = .ok false) :
    retire types (slots ++ rest).reverse = retire types slots.reverse := by
  unfold retire Lifetime.destroySlots
  rw [List.reverse_reverse, List.reverse_reverse, Lifetime.forM_destroySlot_append,
    Lifetime.forM_destroySlot_eq_pure h]
  simp

/-- If nothing more is emitted, what is left out needs no destruction. -/
theorem needless_of_retire [types.Straight] (hstands : w.builder.StandsAt func block f)
    (hrun : (retire types slots.reverse).run w = (.ok (), t))
    (hrun' : (retire types (slots ++ rest).reverse).run w = (.ok (), t'))
    (hsame : t'.builder.module = t.builder.module) :
    ∀ slot ∈ rest, Lifetime.needsDestroy types slot.ty = .ok false := by
  obtain ⟨b, g, hb, hg, ht⟩ := retire_run_ok hstands hrun
  obtain ⟨b', g', hb', hg', ht'⟩ := retire_run_ok hstands hrun'
  rw [Lifetime.forM_destroySlot_append] at hb'
  obtain ⟨_, b₁, hfirst, hrest⟩ := Act.run_bind_eq_ok.1 hb'
  cases hb.symm.trans hfirst
  -- Both functions have the same instructions, up to and with the `return`.
  have hlength : g'.insts.length = g.insts.length := by
    have hfound := ht'.found
    rw [hsame, ht.found, Option.some.injEq] at hfound
    have := congrArg (fun f : Function => f.insts.length) hfound
    simpa [Function.pushInst] using this.symm
  by_contra hnot
  push Not at hnot
  obtain ⟨g₂, hg₂, hlt⟩ := Lifetime.forM_destroySlot_insts_lt hg hnot hrest
  have hg₂' := hg₂.found
  rw [hg'.found] at hg₂'
  cases hg₂'
  omega

end Lower

/-! ## Bodies -/

/-- A function with a `return` behind its body. -/
def FunctionDecl.thenReturn (decl : FunctionDecl) (span : Span) : FunctionDecl :=
  { decl with body := decl.body ++ [.ret none span] }

/-- The scope and the frame of a body are gone. -/
def Work.outOfBody (w : Work) : Work :=
  { w with symbols := { w.symbols with
    scopes := w.symbols.scopes.pop
    control := w.symbols.control.tail } }

namespace Lower

variable {env : Env} {p : Prototype} {func : FuncId} {block : BlockId} {f : Function}
  {decl : FunctionDecl} {w w₂ : Work} {own : List Slot}

/-- Leave a body, and check it. -/
def leaveBody (env : Env) (p : Prototype) (func : FuncId) (span : Span) (slots : List Slot) :
    Lower Unit := do
  retire env.types slots
  checkBody p func span

/-- Once there is an entry block, a body ends as it does without its frame. -/
theorem frameBody_run_eq {entry : BlockId}
    (happ : (liftM (Build.appendBlock func "entry") : Lower BlockId).run w = (.ok entry, u)) :
    (frameBody env p func decl).run w = (((checkedBody env p func decl).run w).1,
      ((checkedBody env p func decl).run w).2.outOfBody) := by
  rw [checkedBody_eq]
  unfold frameBody
  rw [Act.run_bind, Act.run_bind, happ]
  rfl

/-- The part of a body in front of its statements. -/
def openBody (env : Env) (p : Prototype) (func : FuncId) : Lower Unit := do
  let entry ← Build.appendBlock func "entry"
  Build.moveTo func entry
  setScopes (← symbols).scopes.push
  let depth := (← symbols).scopes.depth
  modify fun w => { w with symbols := { w.symbols with
    control := .function ⟨p.name, p.ret, depth⟩ :: w.symbols.control } }
  p.params.zipIdx.forM fun q => bindArgument env q.1 q.2

theorem untilExit_eq : untilExit env p func decl = (do
    openBody env p func
    Stmt.lowerAll env decl.body) := by
  unfold untilExit openBody
  simp only [bind_assoc]

/-- A body that ends in an open block goes on with the `return`. -/
theorem untilExit_thenReturn_run (hrun : (untilExit env p func decl).run w = (.ok (), w₂))
    (hopen : w₂.builder.isTerminated = false) (span : Span) :
    (untilExit env p func (decl.thenReturn span)).run w = (returnStmt env none span).run w₂ := by
  have hlast : (Stmt.lowerAll env [.ret none span]).run w₂ = (returnStmt env none span).run w₂ := by
    rw [Stmt.lowerAll, unlessEnded_run hopen, Stmt.lower, Stmt.lowerAll]
    exact congrArg (Act.run · w₂) (bind_pure_unit (x := returnStmt env none span))
  rw [untilExit_eq] at hrun ⊢
  obtain ⟨_, w₁, hfirst, hbody⟩ := Act.run_bind_eq_ok.1 hrun
  rw [Act.run_bind, hfirst]
  show (Stmt.lowerAll env (decl.body ++ [.ret none span])).run w₁ = _
  rw [Stmt.lowerAll_append_run hbody hopen, hlast]

section

variable (hrun : (untilExit env p func decl).run w = (.ok (), w₂)) (hexit : AtExit p own w w₂)
  (hvoid : p.ret = Builtin.void.id) (hstands : w₂.builder.StandsAt func block f)
  (hopen : f.isTerminated block = false)

include hrun hexit hvoid hstands hopen

/-- A body that runs off its end. -/
theorem checkedBody_run_implicit (hreach : f.isReachable block = true) :
    (checkedBody env p func decl).run w = (leaveBody env p func decl.span
      (own ++ w.symbols.scopes.stack.flatten).reverse).run w₂ := by
  unfold checkedBody leaveBody
  rw [Act.run_bind, hrun]
  show (do
    implicitExit env p func decl.span
    checkBody p func decl.span : Lower Unit).run w₂ = _
  rw [Act.run_bind, Act.run_bind, hexit.implicitExit_run hvoid hstands hopen hreach]

/-- A body that ends in a `return`.  It has no other exit. -/
theorem checkedBody_run_explicit [env.types.Straight] (span : Span) :
    (checkedBody env p func (decl.thenReturn span)).run w =
      (leaveBody env p func decl.span own.reverse).run w₂ := by
  have hended : w₂.builder.isTerminated = false := by rw [hstands.isTerminated, hopen]
  unfold checkedBody leaveBody
  rw [Act.run_bind, untilExit_thenReturn_run hrun hended, hexit.returnStmt_run hvoid, Act.run_bind]
  rcases hretire : (retire env.types own.reverse).run w₂ with ⟨r, t⟩
  cases r with
  | error e => rfl
  | ok u =>
    show (do
      implicitExit env p func (decl.thenReturn span).span
      checkBody p func (decl.thenReturn span).span : Lower Unit).run t = _
    rw [Act.run_bind, implicitExit_run_of_ended (retire_ends hstands hretire)]
    rfl

end

/-! ## Definitions -/

/-- A function gets its body in the state in which it has been declared. -/
theorem begin_run (h : Definable env decl w p id e w₁) :
    (begin env.types decl).run w = (.ok (p, id, e.func), w₁.marked id) := by
  refine Act.run_bind_eq_ok.2 ⟨p, w, Act.run_ofExcept_eq_ok.2 ⟨h.head, rfl⟩, ?_⟩
  refine Act.run_bind_eq_ok.2 ⟨(), w, Act.run_refuseIf_eq_ok.2 ⟨by simp [h.internal], rfl⟩, ?_⟩
  refine Act.run_bind_eq_ok.2 ⟨id, w₁, h.declared, ?_⟩
  refine Act.run_bind_eq_ok.2 ⟨w₁.symbols, w₁, rfl, ?_⟩
  refine Act.run_bind_eq_ok.2
    ⟨e, w₁, Act.run_ofExcept_eq_ok.2 ⟨Functions.entry_eq_ok.2 h.entry, rfl⟩, ?_⟩
  refine Act.run_bind_eq_ok.2 ⟨w₁.symbols, w₁, rfl, ?_⟩
  refine Act.run_bind_eq_ok.2 ⟨w₁.symbols.functions.setDefined id true, w₁,
    Act.run_ofExcept_eq_ok.2 ⟨?_, rfl⟩, rfl⟩
  rw [Functions.markDefined_meets h.entry, h.undefined]
  rfl

theorem function_run_eq_attach (h : Definable env decl w p id e w₁) :
    (Lower.function env decl).run w = (attach env decl (p, id, e.func)).run (w₁.marked id) := by
  rw [function_eq_begin, Act.run_bind, begin_run h]

theorem attach_run_congr {decl' : FunctionDecl} {q : Prototype × EntryId × FuncId}
    (h : (frameBody env q.1 q.2.2 decl).run w = (frameBody env q.1 q.2.2 decl').run w) :
    (attach env decl q).run w = (attach env decl' q).run w := by
  unfold attach
  rw [Act.run_tryCatch, Act.run_tryCatch, Act.run_bind, Act.run_bind, h]

/-- A function is accepted only with its body. -/
theorem attach_run_eq_ok {q : Prototype × EntryId × FuncId} {k : FuncId}
    (h : (attach env decl q).run w = (.ok k, t)) :
    ∃ u, (frameBody env q.1 q.2.2 decl).run w = (.ok (), u) ∧ t = u.finished := by
  rcases hbody : (frameBody env q.1 q.2.2 decl).run w with ⟨r, u⟩
  cases r with
  | ok a =>
    rw [attach_run_ok hbody] at h
    cases h
    exact ⟨u, rfl, rfl⟩
  | error fault =>
    rw [attach_run_error hbody] at h
    exact ((dropBody_meets (E := fun _ _ => True) (fun _ _ => trivial)
      fun _ _ _ _ => trivial).of_ok h).elim

theorem leaveBody_run_eq_ok (h : (leaveBody env p func span slots).run w = (.ok (), t)) :
    (retire env.types slots).run w = (.ok (), t) := by
  obtain ⟨_, w₁, hretire, hcheck⟩ := Act.run_bind_eq_ok.1 h
  have hsame : (checkBody p func span).Meets w₁ (fun _ u => u = w₁) fun _ _ => True := by
    refine Act.meets_bind.2 (meets_build.2 ((Build.function_meets func).mono ?_ fun _ _ _ => trivial))
    rintro g b ⟨rfl, -⟩
    refine Act.meets_bind.2 (Act.meets_refuseIf.2 ⟨fun _ => trivial, fun _ => ?_⟩)
    exact Act.meets_ofExcept.2 ⟨fun _ _ => rfl, fun _ _ => trivial⟩
  rw [hsame.of_ok hcheck]
  exact hretire

end Lower

/-- A declared function has the scopes of the state it was declared in. -/
theorem Definable.scopes {env : Env} {decl : FunctionDecl} {p : Prototype}
    (h : Definable env decl w p id e w₁) : (w₁.marked id).symbols.scopes = w.symbols.scopes :=
  ((Lower.declare_restoring env.types p w).of_ok h.declared).scopes

theorem Definable.thenReturn {env : Env} {decl : FunctionDecl} {p : Prototype}
    (h : Definable env decl w p id e w₁) (span : Span) :
    Definable env (decl.thenReturn span) w p id e w₁ :=
  ⟨h.head, h.internal, h.declared, h.entry, h.undefined⟩

/-- Whatever scopes are open and whatever is declared in them: let the body of
    a function without result be lowered to its end, in an open block to which
    there is a path from the entry.  If no variable around the function has to
    be destroyed, the function comes to the same end with a `return` behind its
    body and without it, with the same result, module and symbols.  And these
    are all cases: if the function with the `return` is accepted and the one
    without it has the same result and module, no variable around the function
    has to be destroyed. -/
theorem implicit_exit_eq_return_iff {env : Env} [env.types.Straight] {decl : FunctionDecl}
    {w w₁ w₂ : Work} {p : Prototype} {id : EntryId} {e : Entry} {block : BlockId} {f : Function}
    (h : Definable env decl w p id e w₁) (hvoid : p.ret = Builtin.void.id)
    (hbody : (Lower.untilExit env p e.func decl).run (w₁.marked id) = (.ok (), w₂))
    (hstands : w₂.builder.StandsAt e.func block f) (hopen : f.isTerminated block = false)
    (hpath : f.Path block) (span : Span) :
    let implicit := (Lower.function env decl).run w
    let explicit := (Lower.function env (decl.thenReturn span)).run w
    let needless := ∀ slot ∈ w.symbols.scopes.stack.flatten,
      Lifetime.needsDestroy env.types slot.ty = .ok false
    (needless → implicit = explicit) ∧
      (∀ k, explicit.1 = .ok k → implicit.1 = explicit.1 →
        implicit.2.builder.module = explicit.2.builder.module → needless) := by
  intro implicit explicit needless
  have hreach : f.isReachable block = true :=
    Function.isReachable_iff.2 ⟨hstands.inside, hpath⟩
  obtain ⟨own, hexit⟩ := Lower.untilExit_atExit hbody
  obtain ⟨_, _, happ, -⟩ := Act.run_bind_eq_ok.1 hbody
  have himplicit := Lower.checkedBody_run_implicit hbody hexit hvoid hstands hopen hreach
  have hexplicit := Lower.checkedBody_run_explicit hbody hexit hvoid hstands hopen span
  rw [h.scopes] at himplicit
  have hrun : implicit = _ := Lower.function_run_eq_attach h
  have hrun' : explicit = _ := Lower.function_run_eq_attach (h.thenReturn span)
  constructor
  · intro hneedless
    rw [hrun, hrun']
    apply Lower.attach_run_congr
    rw [Lower.frameBody_run_eq happ, Lower.frameBody_run_eq happ, himplicit, hexplicit]
    unfold Lower.leaveBody
    rw [Lower.retire_append hneedless]
  · intro k haccepted hresult hmodule
    obtain ⟨u, hu, hfinal⟩ := Lower.attach_run_eq_ok
      (hrun.symm.trans (Act.run_eq_of_fst (hresult.trans haccepted)))
    obtain ⟨u', hu', hfinal'⟩ := Lower.attach_run_eq_ok
      (hrun'.symm.trans (Act.run_eq_of_fst haccepted))
    rw [Lower.frameBody_run_eq happ, himplicit] at hu
    rw [Lower.frameBody_run_eq happ, hexplicit] at hu'
    have hleave := Lower.leaveBody_run_eq_ok (Act.run_eq_of_fst (congrArg Prod.fst hu))
    have hleave' := Lower.leaveBody_run_eq_ok (Act.run_eq_of_fst (congrArg Prod.fst hu'))
    refine Lower.needless_of_retire hstands hleave' hleave ?_
    -- Neither the frame nor the end of a definition touches the module.
    obtain rfl := congrArg Prod.snd hu
    obtain rfl := congrArg Prod.snd hu'
    have hmodules : implicit.2.builder.module = explicit.2.builder.module := hmodule
    rwa [show implicit.2 = _ from hfinal, show explicit.2 = _ from hfinal'] at hmodules

/-- Where a builder stands can be computed. -/
theorem IR.Builder.exists_standsAt {b : Builder} {func : FuncId} {block : BlockId}
    (hcursor : b.cursor = some ⟨func, block⟩)
    (hopen : (b.module.function? func).any fun f =>
      decide (block < f.blocks.length) && !f.isTerminated block) :
    ∃ f, b.StandsAt func block f ∧ f.isTerminated block = false := by
  cases hf : b.module.function? func with
  | none =>
    rw [hf] at hopen
    cases hopen
  | some f =>
    rw [hf, Option.any_some, Bool.and_eq_true, decide_eq_true_eq, Bool.not_eq_true'] at hopen
    exact ⟨f, ⟨hcursor, hf, hopen.1⟩, hopen.2⟩

/-- A function is being built, a scope is open in it, and one variable is
    declared there. -/
def workshop (ty : String) : Work :=
  let begun : Lower Unit := do
    let host ← Build.declare "h" ⟨[], .void⟩ .internal
    let entry ← Build.appendBlock host "entry"
    Build.moveTo host entry
    Lower.setScopes (← Lower.symbols).scopes.push
    Stmt.lower .default (.decl ⟨ty, .unknown⟩ ⟨"d", .unknown⟩ none .unknown)
  (begun.run (.initial "scene")).2

/-- A function without arguments and without result. -/
def errand (body : List Stmt) : FunctionDecl where
  prototype := ⟨⟨"f", .unknown⟩, none, ⟨"void", .unknown⟩, [], .unknown⟩
  body := body
  bodySpan := .unknown

/-- With a number around it, a function that has a distribution of its own
    destroys the same on both ways out. -/
theorem errand_exits_alike :
    let decl := errand [.decl ⟨"dfunc", .unknown⟩ ⟨"e", .unknown⟩ none .unknown]
    (Lower.function .default decl).run (workshop "int") =
        (Lower.function .default (decl.thenReturn .unknown)).run (workshop "int") ∧
      ((Lower.function .default decl).run (workshop "int")).1 = .ok 1 := by
  intro decl
  let p : Prototype := ⟨"f", none, Builtin.void.id, [], .unknown⟩
  let e : Entry := ⟨p, 1, false⟩
  let w₁ := ((Lower.declare .builtins p).run (workshop "int")).2
  let w₂ := ((Lower.untilExit .default p 1 decl).run (w₁.marked 0)).2
  have hdeclared : ((Lower.declare .builtins p).run (workshop "int")).1 = .ok 0 := by decide +kernel
  have hdefinable : Definable .default decl (workshop "int") p 0 e w₁ :=
    ⟨by decide +kernel, rfl, Act.run_eq_of_fst hdeclared, by decide +kernel, rfl⟩
  have hbody : ((Lower.untilExit .default p 1 decl).run (w₁.marked 0)).1 = .ok () := by
    decide +kernel
  obtain ⟨f, hstands, hopen⟩ : ∃ f, w₂.builder.StandsAt 1 0 f ∧ f.isTerminated 0 = false :=
    Builder.exists_standsAt (by decide +kernel) (by decide +kernel)
  have hexits := implicit_exit_eq_return_iff hdefinable rfl (Act.run_eq_of_fst hbody) hstands hopen
    .refl .unknown
  exact ⟨hexits.1 (by decide +kernel), by decide +kernel⟩

/-- With a distribution around it, a function that runs off the end of its
    body is refused, and the same function with a `return` is accepted. -/
theorem outer_distribution_spoils_implicit_exit :
    let p : Prototype := ⟨"f", none, Builtin.void.id, [], .unknown⟩
    ∃ w₁ w₂ f, Definable .default (errand []) (workshop "dfunc") p 0 ⟨p, 2, false⟩ w₁ ∧
      (Lower.untilExit .default p 2 (errand [])).run (w₁.marked 0) = (.ok (), w₂) ∧
      w₂.builder.StandsAt 2 0 f ∧ f.isTerminated 0 = false ∧ f.Path 0 ∧
      ((Lower.function .default (errand [])).run (workshop "dfunc")).1 =
        .error (IR.Error.toFault (.unknownValue 1)) ∧
      ((Lower.function .default ((errand []).thenReturn .unknown)).run (workshop "dfunc")).1 =
        .ok 2 := by
  intro p
  let w₁ := ((Lower.declare .builtins p).run (workshop "dfunc")).2
  let w₂ := ((Lower.untilExit .default p 2 (errand [])).run (w₁.marked 0)).2
  have hdeclared : ((Lower.declare .builtins p).run (workshop "dfunc")).1 = .ok 0 := by
    decide +kernel
  have hbody : ((Lower.untilExit .default p 2 (errand [])).run (w₁.marked 0)).1 = .ok () := by
    decide +kernel
  obtain ⟨f, hstands, hopen⟩ : ∃ f, w₂.builder.StandsAt 2 0 f ∧ f.isTerminated 0 = false :=
    Builder.exists_standsAt (by decide +kernel) (by decide +kernel)
  exact ⟨w₁, w₂, f,
    ⟨by decide +kernel, rfl, Act.run_eq_of_fst hdeclared, by decide +kernel, rfl⟩,
    Act.run_eq_of_fst hbody, hstands, hopen, .refl, by decide +kernel, by decide +kernel⟩

end Shading
