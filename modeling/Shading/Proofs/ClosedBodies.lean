import Shading.Proofs.EndedBlocks

/-! # Bodies are closed

    The exit closes the one block that statements can leave open.  So in a
    lowered body each block is ended, and by its last instruction only.
    The checks behind the exit look for exactly this and find nothing, so a
    path without `return` is reported by the exit or not at all. -/

namespace Shading

open IR

variable {f old : Function} {P : BlockId → Prop}

/-! ## Checks -/

namespace IR.Function

variable {f : Function}

/-- A block ends in a terminator and holds no other one. -/
def EndsOnce (f : Function) (block : Block) : Prop :=
  ∃ ids last i, block.insts = ids ++ [last] ∧ f.inst? last = some i ∧ i.op.isTerminator = true ∧
    ∀ j ∈ ids, ∀ x, f.inst? j = some x → x.op.isTerminator = false

theorem Closed.endsOnce (h : f.Closed fun _ => False) {block : Block} (hb : block ∈ f.blocks) :
    f.EndsOnce block := by
  obtain ⟨b, hlt, hget⟩ := List.getElem_of_mem hb
  have hended : f.isTerminated b = true := (h.ended b hlt).resolve_right id
  have hblock : f.block? b = some block := by
    unfold block?
    rw [List.getElem?_eq_getElem hlt, hget]
  have hids : f.blockIds b = block.insts := by
    unfold blockIds
    rw [hblock]
    rfl
  unfold isTerminated at hended
  rw [terminator?_eq, hids] at hended
  -- A closed block is not empty; `clean` keeps terminators out of all but its last place.
  rcases List.eq_nil_or_concat' block.insts with hnil | ⟨ids, last, hinsts⟩
  · simp [hnil] at hended
  · rw [hinsts, List.getLast?_concat] at hended
    cases hi : f.inst? last with
    | none => simp [hi] at hended
    | some i =>
      refine ⟨ids, last, i, hinsts, hi, ?_, fun j hj x hx => ?_⟩
      · simpa [hi, Option.isSome_filter] using hended
      · refine h.clean b j ?_ x hx
        rw [hids, hinsts, List.dropLast_concat]
        exact hj

theorem EndsOnce.verifyBlock {block : Block} (h : f.EndsOnce block) :
    f.verifyBlock block = .ok () := by
  obtain ⟨ids, last, i, hinsts, hi, hlast, hids⟩ := h
  have hno : (ids.any fun j => (f.inst? j).any (·.op.isTerminator)) = false := by
    rw [List.any_eq_false]
    intro j hj
    cases hx : f.inst? j with
    | none => simp
    | some x => simpa using hids j hj x hx
  unfold Function.verifyBlock
  simp only [hinsts, List.getLast?_concat, List.dropLast_concat, hi, Option.any_some, hlast, hno]
  simp

theorem verify_of_endsOnce (h : ∀ block ∈ f.blocks, f.EndsOnce block) : f.verify = .ok () := by
  have hall : ∀ l : List Block, (∀ block ∈ l, f.EndsOnce block) →
      l.forM f.verifyBlock = .ok () := by
    intro l
    induction l with
    | nil =>
      intro _
      rfl
    | cons block rest ih =>
      intro hl
      show (f.verifyBlock block >>= fun _ => rest.forM f.verifyBlock) = .ok ()
      rw [(hl block List.mem_cons_self).verifyBlock]
      exact ih fun b hb => hl b (List.mem_cons_of_mem _ hb)
  exact hall f.blocks h

theorem Closed.allPathsReturn (h : f.Closed fun _ => False) (hne : f.blocks ≠ []) :
    f.allPathsReturn = true := by
  have hopen : f.openBlocks = [] := by
    unfold openBlocks
    rw [List.filter_eq_nil_iff]
    intro b hb
    have hlt : b < f.blocks.length := by
      unfold reachable at hb
      split at hb
      · cases hb
      · simpa using (List.mem_filter.1 hb).1
    rw [(h.ended b hlt).resolve_right id]
    simp
  unfold Function.allPathsReturn
  simp [hopen, hne]

theorem blockIds_of_no_blocks (hf : f.blocks = []) (b : BlockId) : f.blockIds b = [] := by
  unfold blockIds block?
  rw [hf]
  rfl

theorem valid_of_no_blocks (hf : f.blocks = []) : f.Valid := by
  intro b i hi
  rw [blockIds_of_no_blocks hf] at hi
  cases hi

theorem clean_of_no_blocks (hf : f.blocks = []) : f.Clean := by
  intro b i hi
  rw [blockIds_of_no_blocks hf] at hi
  cases hi

/-- No block is open in a function that starts with its entry block. -/
theorem withEntry_closed (hf : f.blocks = []) : f.withEntry.Closed fun c => c = 0 where
  clean := by
    intro b i hi
    rw [withEntry_blockIds hf] at hi
    cases hi
  ended b hb := by
    unfold withEntry at hb
    rw [addBlock_blocks_length, hf] at hb
    exact .inr (Nat.lt_one_iff.1 hb)

end IR.Function

/-! ## Exits -/

namespace Lower

variable {env : Env} [env.types.Straight] {p : Prototype} {func : FuncId} {decl : FunctionDecl}
  {w : Work}

theorem bindArgument_closing (q : Param) (index : Nat) : closing.Holds (bindArgument env q index) :=
  .bind (Prototype.shape_closing _ _) fun _ =>
    .bind (closing_lift (Emit.closing_lift (Build.alloca_straight _ _))) fun _ =>
    .bind (closing_straight (Lifetime.copyValue_straight _ _)) fun _ =>
    .bind (closing_lift (Emit.closing_lift (Build.store_straight _ _))) fun _ =>
    .bind law_symbols fun s => .bind (s.scopes.declare_closing _ _ _ _)
    fun _ => keeping_setScopes _

theorem implicitExit_filled {n : Nat} (span : Span) (hw : w.builder.Fills func old n P) :
    (implicitExit env p func span).Meets w (fun _ t => t.builder.Filled func old n P)
      fun _ _ => True := by
  refine (isTerminated_filled hw).bind fun ended t ht => ?_
  obtain ⟨rfl, ht⟩ := ht
  -- An open end is closed by a return or, where it cannot be reached, as unreachable.
  cases ended with
  | true => exact ht
  | false =>
    refine (fills_of_closing (closing_lift Emit.currentBlock_closing) ht).bind fun b w₁ hw₁ => ?_
    refine (fills_of_closing (closing_lift (Emit.closing_lift (Build.function_straight func)))
      hw₁).bind fun f w₂ hw₂ => ?_
    split
    · refine Act.meets_bind.2 (Act.meets_refuseIf.2 ⟨fun _ => trivial, fun _ => ?_⟩)
      refine (fills_of_closing law_symbols hw₂).bind fun s w₃ hw₃ => ?_
      refine (fills_of_closing (closing_straight (Lifetime.destroySlots_straight _)) hw₃).bind
        fun _ w₄ hw₄ => ?_
      exact builder_meets (Emit.ret_filled none hw₄)
    · exact builder_meets (Emit.emitVoid_filled rfl hw₂)

/-- A new entry block is the current one, behind the blocks that are there. -/
theorem entry_fills {m : Module} (cursor : Option Cursor) (hf : m.function? func = some f)
    (hvalid : f.Valid) (hclosed : f.Closed P) (label : String) :
    (Builder.moveTo ⟨m.update func (·.addBlock label), cursor⟩ func f.blocks.length).Fills func
      f (f.blocks.length + 1) P := by
  have hlength := Function.addBlock_blocks_length f label
  refine ⟨⟨_, f.blocks.length, f.addBlock label, rfl, ?_, ?_, Function.addBlock_valid hvalid label⟩,
    rfl, ⟨(Function.Front.refl f).addBlock label, Nat.le_refl _, Nat.le_succ _,
      Nat.le_of_eq hlength.symm⟩, hclosed.clean.addBlock label, fun b hb => ?_⟩
  · show (m.update func _).function? func = _
    exact Module.update_function?_eq hf rfl
  · exact Nat.lt_of_lt_of_eq (Nat.lt_succ_self _) hlength.symm
  · rw [Function.addBlock_isTerminated]
    -- The block in hand is the only one that may be open.
    by_cases hnew : b = f.blocks.length
    · exact .inr (.inl hnew)
    · have hlt : b < f.blocks.length := by
        have : b < f.blocks.length + 1 := hlength ▸ hb
        omega
      exact (hclosed.ended b hlt).imp_right .inr

/-- Up to the exit, only the current block and blocks that were open before
    are open, and no path without `return` is reported. -/
theorem untilExit_fills_behind (hf : w.builder.module.function? func = some f) (hvalid : f.Valid)
    (hclosed : f.Closed P) :
    (untilExit env p func decl).Meets w
      (fun _ t => t.builder.Fills func f (f.blocks.length + 1) P)
      fun e _ => e.isMissingReturn = false := by
  refine Act.meets_bind.2 (meets_build.2 (Act.meets_of_run (fun entry b happ => ?_) fun _ _ _ => rfl))
  obtain ⟨f', hf', rfl, rfl⟩ := Build.appendBlock_entry happ
  rw [hf, Option.some.injEq] at hf'
  subst hf'
  refine Act.meets_bind.2 (meets_build.2 (Act.meets_modify.2 ?_))
  -- The rest fills what it opens, whatever the scopes are.
  have hrest : closing.Holds (do
      setScopes (← symbols).scopes.push
      let depth := (← symbols).scopes.depth
      modify fun w => { w with symbols := { w.symbols with
        control := .function ⟨p.name, p.ret, depth⟩ :: w.symbols.control } }
      p.params.zipIdx.forM fun q => bindArgument env q.1 q.2
      Stmt.lowerAll env decl.body) :=
    .bind law_symbols fun _ => .bind (keeping_setScopes _) fun _ =>
      .bind law_symbols fun _ =>
      .bind (keeping_modify (fun _ => rfl) fun _ => ⟨rfl, [], by simp, by simp⟩) fun _ =>
      .bind (.forM fun q => bindArgument_closing q.1 q.2) fun _ =>
      Stmt.lowerAll_closing env decl.body
  have hstart := entry_fills w.builder.cursor hf hvalid hclosed
    (Build.newLabel f.blocks "entry")
  exact (hrest _).mono (fun _ t ht => ht.1.fills func _ _ _ hstart) fun _ t ht => ht.1.2

/-- In a function without blocks at most the current block is open up to the
    exit. -/
theorem untilExit_fills (hf : w.builder.module.function? func = some f) (hblocks : f.blocks = []) :
    (untilExit env p func decl).Meets w (fun _ t => t.builder.Fills func f 1 fun _ => False)
      fun e _ => e.isMissingReturn = false := by
  have hclosed : f.Closed fun _ => False := ⟨Function.clean_of_no_blocks hblocks, fun b hb => by
    rw [hblocks] at hb
    cases hb⟩
  refine (untilExit_fills_behind hf (Function.valid_of_no_blocks hblocks) hclosed).mono
    (fun _ t ht => ?_) fun _ _ h => h
  rwa [hblocks] at ht

/-- The function holds a body whose blocks are all ended once, and the checks
    of a body find nothing wrong with it. -/
def ClosedBody (p : Prototype) (func : FuncId) (span : Span) (w : Work) : Prop :=
  ∃ g, w.builder.module.function? func = some g ∧ g.blocks ≠ [] ∧
    (∀ block ∈ g.blocks, g.EndsOnce block) ∧ g.allPathsReturn = true ∧ g.verify = .ok () ∧
    (checkBody p func span).run w = (.ok (), w)

theorem closedBody_of_filled (hw : w.builder.Filled func old 1 fun _ => False) (p : Prototype)
    (span : Span) : ClosedBody p func span w := by
  obtain ⟨S, hS, hlen, hclosed⟩ := hw
  have hne : S.body.blocks ≠ [] := List.ne_nil_of_length_pos hlen.length
  have hends : ∀ block ∈ S.body.blocks, S.body.EndsOnce block := fun _ hb => hclosed.endsOnce hb
  have hpaths := hclosed.allPathsReturn hne
  have hverify := Function.verify_of_endsOnce hends
  have hfound : w.builder.module.function? func = some S.body := hS ▸ S.found
  refine ⟨S.body, hfound, hne, hends, hpaths, hverify, ?_⟩
  -- The checks read the body back and find it closed.
  have hread : (liftM (Build.function func) : Lower Function).run w = (.ok S.body, w) := by
    refine run_build_eq_ok.2 ⟨w.builder, ?_, rfl⟩
    show (Act.ofExcept (w.builder.module.function func) : Build Function).run _ = _
    rw [Module.function_eq_ok.2 hfound]
    rfl
  unfold checkBody
  rw [Act.run_bind, hread]
  simp only [Act.run_bind, Act.run_refuseIf, hverify]
  rw [if_neg (by simp [hpaths])]
  rfl

/-- A body that has been closed by its exit is complete. -/
theorem exit_closes (hf : w.builder.module.function? func = some f) (hblocks : f.blocks = [])
    {w₁ w₂ : Work} (hbody : (untilExit env p func decl).run w = (.ok (), w₁))
    (hexit : (implicitExit env p func decl.span).run w₁ = (.ok (), w₂)) :
    ClosedBody p func decl.span w₂ := by
  have hw₁ := (untilExit_fills hf hblocks).of_ok hbody
  exact closedBody_of_filled ((implicitExit_filled decl.span hw₁).of_ok hexit) p decl.span

/-- A whole body is closed and checked, or it is refused; and a fault other
    than one of the exit is no missing `return`. -/
theorem checkedBody_closes (hf : w.builder.module.function? func = some f)
    (hblocks : f.blocks = []) : (checkedBody env p func decl).Meets w
      (fun _ t => ClosedBody p func decl.span t)
      fun e _ => e.isMissingReturn = false ∨
        ∃ w₁ w₂, (untilExit env p func decl).run w = (.ok (), w₁) ∧
          (implicitExit env p func decl.span).run w₁ = (.error e, w₂) := by
  refine Act.meets_bind.2 (Act.meets_of_run (fun _ w₁ hbody => ?_) fun e w₁ hbody => ?_)
  · refine Act.meets_bind.2 (Act.meets_of_run (fun _ w₂ hexit => ?_) fun e w₂ hexit => ?_)
    -- With the exit in place every block is closed, and the checks accept.
    · have hclosed := exit_closes hf hblocks hbody hexit
      have hchecks : (checkBody p func decl.span).run w₂ = (.ok (), w₂) := by
        obtain ⟨g, -, -, -, -, -, hcheck⟩ := hclosed
        exact hcheck
      refine Act.meets_of_run (fun _ w₃ h => ?_) fun e w₃ h => absurd (h.symm.trans hchecks) nofun
      rw [hchecks] at h
      cases h
      exact hclosed
    · exact .inr ⟨w₁, w₂, hbody, hexit⟩
  · exact .inl ((untilExit_fills hf hblocks).of_error hbody)

/-! ## What a body leaves alone -/

theorem implicitExit_framing (span : Span) : framing.Holds (implicitExit env p func span) :=
  .bind law_isTerminated fun _ => .onlyIf
    (.bind (framing_of_closing (closing_lift Emit.currentBlock_closing)) fun _ =>
      .bind (framing_of_closing (closing_lift (Emit.closing_lift (Build.function_straight func))))
      fun _ => .ite
        (.bind (.refuseIf fun w => ⟨.refl _, .refl w⟩) fun _ => .bind law_symbols fun _ =>
          .bind (framing_of_closing (closing_straight (Lifetime.destroySlots_straight _))) fun _ =>
          framing_of_closing (closing_lift (Emit.ret_closing none)))
        (framing_of_closing (closing_lift (Emit.emitVoid_closing _))))

theorem checkBody_framing (span : Span) : framing.Holds (checkBody p func span) :=
  .bind (framing_of_closing (closing_lift (Emit.closing_lift (Build.function_straight func))))
    fun _ => .bind (.refuseIf fun w => ⟨.refl _, .refl w⟩) fun _ =>
    .ofExcept fun _ _ w => ⟨.refl _, .refl w⟩

/-- However a body ends, it has touched only its function. -/
theorem frameBody_frames (env : Env) [env.types.Straight] (p : Prototype) (func : FuncId)
    (decl : FunctionDecl) (w : Work) :
    w.builder.module.Frames func ((frameBody env p func decl).run w).2.builder.module ∧
      w.Keeps ((frameBody env p func decl).run w).2 := by
  have hrest : framing.Holds (do
      setScopes (← symbols).scopes.push
      let depth := (← symbols).scopes.depth
      modify fun w => { w with symbols := { w.symbols with
        control := .function ⟨p.name, p.ret, depth⟩ :: w.symbols.control } }
      body env p func decl) :=
    .bind law_symbols fun _ => .bind (keeping_setScopes _) fun _ =>
      .bind law_symbols fun _ =>
      .bind (keeping_modify (fun _ => rfl) fun _ => ⟨rfl, [], by simp, by simp⟩) fun _ =>
      .bind (.forM fun q => framing_of_closing (bindArgument_closing q.1 q.2)) fun _ =>
      .bind (framing_of_closing (Stmt.lowerAll_closing env decl.body)) fun _ =>
      .bind (implicitExit_framing decl.span) fun _ => checkBody_framing decl.span
  -- The entry block is the only change made outside the part covered by `hrest`.
  have hchecked : (checkedBody env p func decl).Meets w
      (fun _ t => w.builder.module.Frames func t.builder.module ∧ w.Keeps t)
      fun _ t => w.builder.module.Frames func t.builder.module ∧ w.Keeps t := by
    rw [checkedBody_eq]
    refine Act.meets_bind.2 (meets_build.2 (Act.meets_bind.2 ((Build.function_meets func).mono
      (fun f b hb => ?_) fun e b hb => ?_)))
    · obtain ⟨rfl, -⟩ := hb
      have hentry : w.builder.module.Frames func (w.builder.module.update func
          (·.addBlock (Build.newLabel f.blocks "entry"))) :=
        .update func _ _
      refine Act.meets_bind.2 (Act.meets_modify.2 ((Act.meets_pure _).2 (Act.meets_bind.2
        (meets_build.2 (Act.meets_modify.2 ?_)))))
      exact (hrest _).mono (fun _ t ht => ⟨hentry.trans (ht.1 func rfl).2, ht.2.1, ht.2.2⟩)
        fun _ t ht => ⟨hentry.trans (ht.1 func rfl).2, ht.2.1, ht.2.2⟩
    · rw [hb]
      exact ⟨.refl func _, .refl w⟩
  -- Leaving the frame drops scopes and control only, and neither occurs in the statement.
  have halike : ∀ t u : Work, u.Alike t → w.builder.module.Frames func u.builder.module →
      w.Keeps u → w.builder.module.Frames func t.builder.module ∧ w.Keeps t := by
    intro t u ha hframes hkeeps
    rw [ha.builder]
    refine ⟨hframes, ha.functions.trans hkeeps.functions, ?_⟩
    rw [ha.diagnostics]
    exact hkeeps.notes
  refine Act.Meets.state (R := fun t => w.builder.module.Frames func t.builder.module ∧ w.Keeps t)
    ((frameBody_meets hchecked).mono (fun _ t ht => ?_) fun _ t ht => ?_)
  · obtain ⟨u, ha, hu⟩ := ht
    exact halike t u ha hu.1 hu.2
  · obtain ⟨u, ha, hu⟩ := ht
    exact halike t u ha hu.1 hu.2

theorem frameBody_run_frames {w' : Work} {r : Except Fault Unit}
    (h : (frameBody env p func decl).run w = (r, w')) :
    w.builder.module.Frames func w'.builder.module ∧ w.Keeps w' := by
  have hframes := frameBody_frames env p func decl w
  rwa [h] at hframes

end Lower

/-! ## Definitions -/

/-- A type whose values open a block when they are destroyed, and leave it
    empty. -/
def leaky : Descriptor :=
  ⟨"leaky", "lk", .ofName "leaky", some (.handle "leaky"), .lifecycle, .custom
    { destroy := fun _ _ => do
        let _ ← Build.appendBlock 0 "leak" }⟩

/-- `void f() { leaky x; }` -/
def holdLeaky : FunctionDecl :=
  { prototype := ⟨⟨"f", .unknown⟩, none, ⟨"void", .unknown⟩, [], .unknown⟩
    body := [.decl ⟨"leaky", .unknown⟩ ⟨"x", .unknown⟩ none .unknown]
    bodySpan := .unknown }

/-- A body is closed only if the hooks stay in their block: the exit of this
    function destroys a variable, and a block stays open. -/
theorem leaky_hook_leaves_block_open :
    ∃ types p w w₁ w₂, TypeTable.builtins.register leaky = .ok types ∧
      Prototype.ofDecl types holdLeaky.prototype = .ok p ∧
      (Lower.untilExit ⟨types, .default⟩ p 0 holdLeaky).run w = (.ok (), w₁) ∧
      (Lower.implicitExit ⟨types, .default⟩ p 0 holdLeaky.span).run w₁ = (.ok (), w₂) ∧
      ¬Lower.ClosedBody p 0 holdLeaky.span w₂ := by
  let types : TypeTable := TypeTable.builtins.insert leaky
  let p : Prototype := ⟨"f", none, Builtin.void.id, [], .unknown⟩
  let w : Work := ⟨.start ((Module.empty "scene").add "f$" ⟨[], .void⟩ .internal), .empty, []⟩
  have hbody : ((Lower.untilExit ⟨types, .default⟩ p 0 holdLeaky).run w).1 = .ok () := by
    decide +kernel
  have hexit : ((Lower.implicitExit ⟨types, .default⟩ p 0 holdLeaky.span).run
      ((Lower.untilExit ⟨types, .default⟩ p 0 holdLeaky).run w).2).1 = .ok () := by
    decide +kernel
  refine ⟨types, p, w, _, _, TypeTable.register_new (by decide +kernel) (by decide +kernel),
    by decide +kernel, Act.run_eq_of_fst hbody, Act.run_eq_of_fst hexit, ?_⟩
  -- the new block is empty, so the check of the whole function fails
  rintro ⟨g, hg, -, -, -, hverify, -⟩
  have hfails : ((((Lower.implicitExit ⟨types, .default⟩ p 0 holdLeaky.span).run
      ((Lower.untilExit ⟨types, .default⟩ p 0 holdLeaky).run w).2).2.builder.module.function? 0).map
        fun g => g.verify.isOk) = some false := by
    decide +kernel
  rw [hg, Option.map_some, hverify] at hfails
  cases hfails

end Shading
