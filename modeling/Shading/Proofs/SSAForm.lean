import Shading.Proofs.Correspondence
import Shading.Proofs.Dominance

/-! # Bodies in SSA form

    Main result: after every item of a session, each body of the module is a
    valid control flow graph in SSA form (`session_bodies_in_ssa_form`).

    The shape of the graph is kept by every single edit; that definitions
    dominate their uses follows from runs that never find anything missing. -/

namespace Shading

open IR

/-! ## The form -/

namespace IR.Function

/-- A valid control flow graph in SSA form. -/
structure SSA (f : Function) : Prop where
  /-- Each instruction stands at one place. -/
  placed : f.Valid ∧ (∀ b, (f.blockIds b).Nodup) ∧
    ∀ b b' i, i ∈ f.blockIds b → i ∈ f.blockIds b' → b = b'
  /-- Branches go to blocks that exist and that are not the entry. -/
  targets : ∀ b, ∀ id ∈ f.blockIds b, ∀ x, f.inst? id = some x →
    ∀ t ∈ x.op.successors, t ≠ 0 ∧ t < f.blocks.length
  /-- Merges name blocks that exist. -/
  sources : ∀ b, ∀ id ∈ f.blockIds b, ∀ x incoming, f.inst? id = some x → x.op = .phi incoming →
    ∀ q ∈ incoming, q.2 < f.blocks.length
  /-- An operand is computed earlier in its block, or in another block that
      dominates this one. -/
  dominated : ∀ b, f.Path b → ∀ k id x, f.instAt? b k = some (id, x) →
    (∀ incoming, x.op ≠ .phi incoming) → ∀ i, .inst i ∈ x.op.operands →
    i ∈ (f.blockIds b).take k ∨ ∃ d, d ≠ b ∧ i ∈ f.blockIds d ∧ f.Dominates d b
  /-- An operand of a merge is computed in a block that dominates the one it
      comes from. -/
  mergedDominated : ∀ b, f.Path b → ∀ k id x incoming, f.instAt? b k = some (id, x) →
    x.op = .phi incoming → ∀ i c, (.inst i, c) ∈ incoming →
    ∃ d, i ∈ f.blockIds d ∧ f.Dominates d c
  /-- A merge comes first in its block, and it names the blocks that lead
      there, each of them once. -/
  merges : ∀ b, ∀ id ∈ f.blockIds b, ∀ x incoming, f.inst? id = some x → x.op = .phi incoming →
    (f.blockIds b).head? = some id ∧ (incoming.map Prod.snd).Nodup ∧
      ∀ p, p ∈ incoming.map Prod.snd ↔ b ∈ f.successors p
  /-- On every way to a load something has been stored in its slot. -/
  stored : ∀ b visited, f.Walk 0 visited b → ∀ k id x a, f.instAt? b k = some (id, x) →
    x.op = .load (.inst a) →
    ∃ j, f.Fills j a ∧ (j ∈ (f.blockIds b).take k ∨ ∃ d ∈ visited, j ∈ f.blockIds d)
  labels : (f.blocks.map (·.label)).Nodup

variable {f : Function} {b : BlockId}

theorem SSA.of_defined (hreg : f.Regular) (hf : f.Clean) (hplaced : f.Placed)
    (hlabels : (f.blocks.map (·.label)).Nodup) (hdefined : f.Defined) : f.SSA where
  placed := ⟨hreg.valid, hreg.once, hreg.apart⟩
  targets b id hid x hx t ht := hreg.targets b t (hf.mem_successors hid hx ht)
  sources b id hid x incoming hx hop q hq := by
    obtain ⟨-, -, hpreds⟩ := hreg.merges b id x incoming hid hx hop
    exact lt_of_mem_successors ((hpreds q.2).1 (List.mem_map_of_mem hq))
  dominated _ hb _ _ _ hat hphi _ hmem := hdefined.dominates hf hreg hb hat hphi hmem
  mergedDominated _ _ _ _ _ _ hat hop _ _ hmem :=
    hdefined.dominates_merge hf hreg hplaced hat hop hmem
  merges b id hid x incoming hx hop := hreg.merges b id x incoming hid hx hop
  stored _ _ hwalk _ _ _ _ hat hop := hdefined.stored hf hat hop hwalk
  labels := hlabels

theorem withEntry_placed (hinsts : f.insts = []) : f.withEntry.Placed where
  stands i hi := by
    rw [withEntry, addBlock_insts, hinsts] at hi
    cases hi
  operands j x incoming hx _ := by
    rw [withEntry, addBlock_inst?] at hx
    have hlt := inst?_lt hx
    rw [hinsts] at hlt
    cases hlt

theorem withEntry_labelled (hblocks : f.blocks = []) :
    Build.Labelled (f.withEntry.blocks.map (·.label)) := by
  refine ⟨[("entry", 0)], ?_, List.nodup_singleton _, fun q hq => ?_⟩
  · simp [withEntry, addBlock, hblocks, Build.numbered]
  · obtain rfl := List.mem_singleton.1 hq
    decide

end IR.Function

/-! ## Finished bodies -/

namespace FinishedBody

variable {options : Options} {functions : Functions} {p : Prototype} {stmts : List Stmt}
  {f : Function} {H : Host}

/-- No run of a finished body finds something missing. -/
theorem defined (hf : f.blocks = []) (h : FinishedBody options functions p stmts f.withEntry H) :
    H.body.Defined := by
  intro ch hstuck
  obtain ⟨C, hi, hfills, hcompiles⟩ := h.code
  -- The slots of the entry block only add their own registers to what is computed.
  let reserve (a : InstId) (s : Known × Choices) : Known × Choices :=
    (⟨a :: s.1.computed, s.1.filled⟩, s.2)
  have hexec : ∀ {id : InstId} {i : Inst} {s : Known × Choices}, i.op.isAlloca = true →
      Interp.known.choosing.exec id i s = some (reserve id s) := by
    intro id i s halloca
    have hready : s.1.Ready i.op := by
      cases hop : i.op <;> simp_all [Op.isAlloca, Known.Ready, Op.operands, Op.slotRead]
    have hfills : i.op.slotFilled = none := by
      cases hop : i.op <;> simp_all [Op.isAlloca, Op.slotFilled]
    simp [Interp.choosing, Interp.known, hready, Known.after, hfills, reserve]
  have hslots : ∀ (as : List InstId) (s : Known × Choices),
      ∀ a, a ∈ as ∨ a ∈ s.1.computed →
        a ∈ (as.foldl (fun s a => reserve a s) s).1.computed := by
    intro as
    induction as with
    | nil => exact fun s a ha => ha.resolve_left List.not_mem_nil
    | cons b rest ih =>
      intro s a ha
      refine ih (reserve b s) a ?_
      simp only [reserve, List.mem_cons] at ha ⊢
      tauto
  -- Behind the slots the body runs as its code does, and the code never reads an unset register.
  obtain ⟨n, hn⟩ := (hfills.getsStuck_iff (h.regular hf) h.verified
    (H.body.execAll_slotLines hexec (.empty, ch))).1 hstuck
  exact (hcompiles.defined (fun a ha => hslots _ _ a (.inl ha)) n _).ne_stuck hn

/-- A finished body is a valid graph in SSA form. -/
theorem ssa (hblocks : f.blocks = []) (hinsts : f.insts = [])
    (h : FinishedBody options functions p stmts f.withEntry H) : H.body.SSA :=
  .of_defined (h.regular hblocks) (Function.clean_of_verify h.verified)
    (h.edits.placed Nat.one_pos (Function.withEntry_regular hblocks)
      (Function.withEntry_placed hinsts))
    (h.edits.labels_nodup (Function.withEntry_labelled hblocks)) (h.defined hblocks)

end FinishedBody

/-! ## Sessions -/

/-- The body of a function that had nothing before has been finished. -/
def IR.Function.Finished (F : Function) : Prop :=
  ∃ (f : Function) (options : Options) (functions : Functions) (p : Prototype)
    (stmts : List Stmt) (m : Module), f.blocks = [] ∧ f.insts = [] ∧
      FinishedBody options functions p stmts f.withEntry ⟨m, F⟩

/-- Each function of a module has a finished body, or it has nothing. -/
def IR.Module.Settled (m : Module) : Prop :=
  ∀ id f, m.function? id = some f → if f.blocks = [] then f.insts = [] else f.Finished

namespace IR.Module.Settled

variable {m m' : Module}

theorem declared {name : String} {sig : Signature} {linkage : Linkage} {func : FuncId}
    (h : m.Settled) (hdecl : Build.Declared m name sig linkage func m') : m'.Settled := by
  intro id f hf
  cases hdecl with
  | found => exact h id f hf
  | added hfind =>
    rcases Module.add_function?_cases hf with hf | rfl
    · exact h id f hf
    · rfl

/-- Only one function has been touched. -/
theorem frames {func : FuncId} (h : m.Settled) (hframes : m.Frames func m')
    (hbody : ∀ f, m'.function? func = some f →
      if f.blocks = [] then f.insts = [] else f.Finished) : m'.Settled := by
  intro id f hf
  by_cases hid : id = func
  · subst hid
    exact hbody f hf
  -- Any other function is an old one, or has been added without a body.
  · by_cases hlt : id < m.functions.length
    · have hg : m.function? id = some m.functions[id] := List.getElem?_eq_getElem hlt
      have hsame := hframes.others id _ hid hg
      rw [hf, Option.some.injEq] at hsame
      subst hsame
      exact h id _ hg
    · obtain ⟨hblocks, hinsts, -⟩ := hframes.added id f hid (Nat.not_lt.1 hlt) hf
      rw [if_pos hblocks]
      exact hinsts

end IR.Module.Settled

theorem DeclaredEntry.settled {p : Prototype} {w w' : Work} {id : EntryId}
    (hdecl : DeclaredEntry .builtins p w id w') (h : w.builder.module.Settled) :
    w'.builder.module.Settled := by
  cases hdecl with
  | found => exact h
  | added hfind hname hsig hdecl => exact h.declared hdecl

/-- A definition leaves the bodies of other functions as they are, and its own
    body is finished or dropped. -/
theorem Lower.function_settled {options : Options} {w : Work} (decl : FunctionDecl)
    (hidle : w.Idle) (hstep : InStep w.builder.module w.symbols.functions)
    (h : w.builder.module.Settled) :
    ((Lower.function ⟨.builtins, options⟩ decl).run w).2.builder.module.Settled := by
  suffices hends : ∀ r w', DefinitionRun ⟨.builtins, options⟩ decl w r w' →
      w'.builder.module.Settled from
    Act.Meets.state (R := fun w' => w'.builder.module.Settled)
      ((Lower.function_meets ⟨.builtins, options⟩ decl w).mono (fun _ w' hw' => hends _ w' hw')
        fun _ w' hw' => hends _ w' hw')
  intro r w' hrun
  cases hrun with
  | head | external | undeclared => exact h
  | redefined hbegun => exact hbegun.declared.settled h
  | @finished p id e w₁ w₂ hbegun hdefined hbody =>
    have h₁ := hbegun.declared.settled h
    -- A symbol not yet defined has an empty function, which `Settled` says has no instructions.
    obtain ⟨f, hf, hblocks⟩ := hstep.undefined hbegun hdefined
    have hinsts := h₁ e.func f hf
    rw [if_pos hblocks] at hinsts
    have hframes := Lower.frameBody_run_frames hbody
    have hscopes : (w₁.marked id).symbols.scopes = .empty :=
      hbegun.declared.scopes.trans hidle.scopes
    obtain ⟨F, hF, -, -, hfin⟩ := Lower.frameBody_run hbody hscopes hf hblocks
    obtain ⟨G, hG, hne, -⟩ := Lower.frameBody_closed (w := w₁.marked id) hf hblocks hbody
    refine h₁.frames hframes.1 fun g (hg : w₂.builder.module.function? e.func = some g) => ?_
    obtain rfl : F = g := Option.some.inj (hF.symm.trans hg)
    obtain rfl : F = G := Option.some.inj (hF.symm.trans hG)
    rw [if_neg hne]
    exact ⟨f, _, _, _, _, _, hblocks, hinsts, hfin⟩
  | @dropped p id e w₁ w₂ fault hbegun hdefined hbody f hf =>
    have hframes := Lower.frameBody_run_frames hbody
    have hcleared : w₁.builder.module.Frames e.func
        (w₂.builder.module.update e.func Function.clearBody) :=
      hframes.1.trans (.update e.func _ _)
    refine (hbegun.declared.settled h).frames hcleared fun g hg => ?_
    replace hg : (w₂.builder.module.update e.func Function.clearBody).function? e.func = some g := hg
    rw [Module.update_function?_self, hf] at hg
    cases hg
    rfl
  -- The function cannot be lost: building a body keeps the function it builds.
  | @lost p id e w₁ w₂ w₃ fault err hbegun hdefined hbody hf =>
    obtain ⟨f, hf₁, -⟩ := hstep.undefined hbegun hdefined
    have hframes := Lower.frameBody_run_frames hbody
    obtain ⟨f', hf', -⟩ := hframes.1.head f hf₁
    rw [hf] at hf'
    cases hf'

theorem Progress.lowerItem_settled {options : Options} {w : Work} (hidle : w.Idle)
    (hstep : InStep w.builder.module w.symbols.functions) (h : w.builder.module.Settled)
    (item : Item) :
    ((Progress.lowerItem ⟨.builtins, options⟩ item).run w).2.builder.module.Settled := by
  -- A prototype adds a function without a body, and a function settles its own.
  cases item with
  | prototype decl =>
    unfold Progress.lowerItem
    rw [Act.run_discard_state]
    refine Act.Meets.state (R := fun w' : Work => w'.builder.module.Settled) ?_
    refine Act.meets_bind.2 (Act.meets_ofExcept.2 ⟨fun p hp => ?_, fun _ _ => h⟩)
    refine (Lower.declare_meets .builtins p w).mono (fun id w' hw' => hw'.settled h)
      fun e w' hw' => ?_
    rw [hw'.1]
    exact h
  | function decl =>
    unfold Progress.lowerItem
    rw [Act.run_discard_state]
    exact Lower.function_settled decl hidle hstep h

/-- Every body that a session leaves in the module is a finished one. -/
theorem session_settled (name : String) (units : List SourceUnit) :
    (session (.empty name) units).work.builder.module.Settled := by
  refine (session_induction (I := fun w => InStep w.builder.module w.symbols.functions ∧
    w.builder.module.Settled) ⟨InStep.empty name, fun _ _ h => by cases h⟩ (fun w _ h => h)
    fun u _ item _ p hidle h => ?_).2.2
  obtain ⟨hbuilder, hfunctions⟩ := p.step_work u.env item
  rw [hbuilder, hfunctions]
  exact ⟨h.1.item item, Progress.lowerItem_settled hidle h.1 h.2 item⟩

/-- However many units are compiled one after the other into a module that
    was empty, every body is a valid control flow graph in SSA form.  A
    session may stop behind any item of its last unit, so it is after every
    item. -/
theorem session_bodies_in_ssa_form (name : String) (units : List SourceUnit) {id : FuncId}
    {f : Function}
    (hf : (session (.empty name) units).work.builder.module.function? id = some f)
    (hblocks : f.blocks ≠ []) : f.SSA := by
  have hbody := session_settled name units id f hf
  rw [if_neg hblocks] at hbody
  obtain ⟨f₀, options, functions, p, stmts, m, hnone, hinsts, hfin⟩ := hbody
  exact hfin.ssa hnone hinsts

/-- A loop with a short-circuit condition, a variable of its own and a
    conditional jump. -/
def climb : FunctionDecl :=
  let name (s : String) : Ident := ⟨s, .unknown⟩
  let i : Expr := .var (name "i")
  let b : Expr := .var (name "b")
  { prototype := ⟨name "climb", none, ⟨"int", .unknown⟩,
      [⟨name "n", ⟨"int", .unknown⟩, .unknown⟩, ⟨name "b", ⟨"bool", .unknown⟩, .unknown⟩], .unknown⟩
    body := [
      .decl ⟨"int", .unknown⟩ (name "i") none .unknown,
      .loop (.binary .and (.binary .lt i (.var (name "n")) .unknown) b .unknown)
        (.block [
          .decl ⟨"int", .unknown⟩ (name "k")
            (some (.binary .add i (.literal (.int 1) .unknown) .unknown)) .unknown,
          .expr (.assign (name "i") (.var (name "k")) .unknown) .unknown,
          .ifThen b (.continueLoop .unknown) .unknown,
          .breakLoop .unknown] .unknown) .unknown,
      .ret (some i) .unknown]
    bodySpan := .unknown }

theorem climb_in_ssa_form : ∃ f,
    (session (.empty "scene") [⟨.default, [.function climb]⟩]).work.builder.module.function? 0 =
      some f ∧ f.blocks.length = 8 ∧ f.SSA := by
  have hlength : ((session (.empty "scene") [⟨.default, [.function climb]⟩]).work.builder.module
      |>.function? 0).map (·.blocks.length) = some 8 := by decide +kernel
  obtain ⟨f, hf, hblocks⟩ := Option.map_eq_some_iff.1 hlength
  refine ⟨f, hf, hblocks, session_bodies_in_ssa_form "scene" _ hf fun hnil => ?_⟩
  rw [hnil] at hblocks
  cases hblocks

end Shading
