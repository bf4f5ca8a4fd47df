import Shading.Proofs.Correspondence
import Shading.Proofs.TypedStatements

/-! # Faults of programs

    The builder checks what it is given, and the tables check what is looked
    up in them; a check that fails is an internal error.  In a session over
    the built-in types none of them fails: the types of the source imply those
    of the instructions, for well-typed and for refused functions alike.  Main
    result: a session reports faults of its programs only
    (`session_faults_are_of_programs`). -/

namespace Shading

open IR

variable {p : Prototype} {id : EntryId} {decl : PrototypeDecl} {e : Entry} {w w' w₁ w₂ : Work}

/-! ## Heads -/

/-- The signature has the shapes of the types of a prototype, and parameters
    have types that values have. -/
structure Prototype.Matches (p : Prototype) (sig : Signature) : Prop where
  params : List.Forall₂ (fun ty shape => ty ≠ Builtin.void.id ∧
    TypeTable.builtins.representation ty = .ok shape) p.paramTypes sig.params
  ret : TypeTable.builtins.representation p.ret = .ok sig.ret

theorem Prototype.Matches.of_irSignature {sig : Signature} (h : p.irSignature .builtins = .ok sig) :
    p.Matches sig := by
  obtain ⟨params, hparams, h⟩ := Except.bind_eq_ok h
  obtain ⟨ret, hret, h⟩ := Except.bind_eq_ok h
  cases h
  refine ⟨List.forall₂_map_left_iff.2 ((Except.mapM_eq_ok hparams).imp fun q shape hq => ?_),
    Prototype.shape_eq_ok hret⟩
  by_cases hvoid : q.ty = Builtin.void.id
  · rw [if_pos hvoid] at hq
    cases hq
  · rw [if_neg hvoid] at hq
    exact ⟨hvoid, Prototype.shape_eq_ok hq⟩

/-- The function of an entry can be called with values of its parameter
    types. -/
theorem Entry.Linked.callable {m : Module} (h : e.Linked m) : e.Callable m := by
  obtain ⟨f, hf, -, hsig, -⟩ := h
  have hmatches := Prototype.Matches.of_irSignature hsig
  exact ⟨f.name, f.signature, ⟨f, hf, rfl, rfl⟩, hmatches.params.imp fun _ _ h => h.2, hmatches.ret⟩

/-- The types of a head are built-in ones. -/
theorem Prototype.ofDecl_builtin (h : Prototype.ofDecl .builtins decl = .ok p) {id : TypeId}
    (hid : id = p.ret ∨ id ∈ p.paramTypes) : ∃ b : Builtin, id = b.id := by
  obtain ⟨hret, hparams⟩ := Prototype.ofDecl_eq_ok h
  rcases hid with rfl | hid
  · exact TypeTable.builtins_resolveName_eq_ok hret
  · obtain ⟨param, hmem, rfl⟩ := List.mem_map.1 hid
    obtain ⟨i, hi⟩ := List.mem_iff_getElem?.1 hmem
    obtain ⟨hlt, rfl⟩ := List.getElem?_eq_some_iff.1 hi
    have hlt' : i < decl.args.length := hparams.length_eq ▸ hlt
    exact TypeTable.builtins_resolveName_eq_ok (hparams.get hlt' hlt).1

theorem Prototype.ofDecl_symbol {types : TypeTable} (h : Prototype.ofDecl types decl = .ok p) :
    p.symbol = decl.symbol := by
  obtain ⟨ret, hret, h⟩ := Except.bind_eq_ok h
  obtain ⟨params, hparams, h⟩ := Except.bind_eq_ok h
  cases h
  rfl

/-- A symbol with a dollar sign is none of the runtime. -/
theorem Prototype.mangledName_notMem_symbols {symbol : String}
    (h : p.mangledName .builtins = .ok symbol) : symbol ∉ Distribution.symbols := by
  obtain ⟨bs, -, rfl⟩ := Prototype.mangledName_eq_ok h
  intro hmem
  have hplain : ∀ s ∈ Distribution.symbols, '$' ∉ s.toList := by decide
  exact hplain _ hmem (by simp)

/-- Only a declaration that names the runtime has a symbol of it. -/
theorem Prototype.irName_notMem_symbols {symbol : String} (h : p.irName .builtins = .ok symbol)
    (hlinks : ∀ s, p.symbol = some s → s ∉ Distribution.symbols) :
    symbol ∉ Distribution.symbols := by
  unfold Prototype.irName at h
  cases hs : p.symbol with
  | none =>
    rw [hs] at h
    exact Prototype.mangledName_notMem_symbols h
  | some s =>
    rw [hs, Except.ok.injEq] at h
    exact h ▸ hlinks s hs

/-- A declaration is refused for what the program says. -/
theorem DeclareRefused.ofProgram {e : Fault} (hhead : Prototype.ofDecl .builtins decl = .ok p)
    (h : DeclareRefused .builtins p w e) : e.OfProgram := by
  cases h with
  | conflict h => exact Fault.ofProgram_of_kind (by simp [Functions.find_error h])
  | symbol _ h =>
    obtain ⟨-, param, hmem, hnone⟩ := Prototype.irName_error h
    obtain ⟨b, hb⟩ := Prototype.ofDecl_builtin hhead (.inr (List.mem_map_of_mem hmem))
    rw [TypeTable.builtins_tokenOf?.2 ⟨b, hb, rfl⟩] at hnone
    cases hnone
  | signature _ h =>
    rcases Prototype.irSignature_error h with hk | ⟨id, span, hid, hs⟩
    · exact Fault.ofProgram_of_kind (by simp [hk])
    · obtain ⟨b, hb⟩ := Prototype.ofDecl_builtin hhead hid
      exact Lower.shape_ofProgram hb hs
  | taken => exact Fault.ofProgram_of_kind nofun

/-- A declaration keeps to the runtime if it does not name it. -/
theorem DeclaredEntry.runtime (h : DeclaredEntry .builtins p w id w')
    (hrun : w.builder.module.Runtime)
    (hlinks : ∀ symbol, p.symbol = some symbol → symbol ∉ Distribution.symbols) :
    w'.builder.module.Runtime := by
  cases h with
  | found => exact hrun
  | @added symbol sig func m hfind hname hsig hdecl =>
    cases hdecl with
    | found => exact hrun
    | added =>
      have hnew := Prototype.irName_notMem_symbols hname hlinks
      refine hrun.add fun q hq hn => absurd ?_ hnew
      rw [hn, ← Distribution.runtime_symbols]
      exact List.mem_map_of_mem hq

/-! ## Bodies -/

namespace Lower

section

variable {func : FuncId} {S : Site func} {w : Work} {ret : TypeId} {options : Options}

/-- An argument is copied into a slot for its type. -/
theorem bindArgument_proceeds (options : Options) {q : Param} {index : Nat} {top : List Slot}
    {shape : Ty} (hw : w.Stands S ret 1 none none (.of [top])) (hopen : S.Open)
    (hfits : w.Fits S ret) (hvoid : q.ty ≠ Builtin.void.id) (hshape : TypeTable.builtins.representation q.ty = .ok shape)
    (harg : S.host.HasType (.arg index) shape) :
    (bindArgument ⟨.builtins, options⟩ q index).Meets w (fun _ w' => w'.builder.module.Runtime)
      Refusal := by
  have hready := hw.ready hopen hfits
  obtain ⟨b, hb, hrepr⟩ := TypeTable.builtins_representation_eq_ok.1 hshape
  refine Act.meets_bind.2 (Act.meets_ofExcept.2 ⟨fun s hs => ?_, fun e he =>
    .at hw.builder hready (shape_ofProgram hb he)⟩)
  -- The shape that is asked for is the one of the signature.
  obtain rfl : shape = s := Except.ok.inj (hshape.symm.trans (Prototype.shape_eq_ok hs))
  obtain ⟨size, hsize⟩ := Builtin.repr_size hrepr fun h => hvoid (h ▸ hb)
  refine (build_proceeds hw.builder hready (Build.alloca_proceeds hsize _)).bind fun p w₁ hw₁ => ?_
  obtain ⟨S₁, rfl, h₁, hready₁, hp⟩ := hw₁
  refine (emit_proceeds rfl hready₁ (Lifetime.copyValue_proceeds
    ⟨shape, hshape, h₁.hasType harg⟩)).bind fun v w₂ hw₂ => ?_
  obtain ⟨S₂, rfl, h₂, hready₂, hv⟩ := hw₂
  refine (build_proceeds rfl hready₂ (Build.store_proceeds (hv.hasType hb hrepr)
    (h₂.hasType hp))).bind fun _ w₃ hw₃ => ?_
  obtain ⟨S₃, rfl, h₃, hready₃, -⟩ := hw₃
  refine meets_symbols ?_
  refine Act.meets_bind.2 (Act.meets_ofExcept.2 ⟨fun _ _ => hready₃.runtime, fun e he => ?_⟩)
  -- There is a scope, so all that is left is a name that is taken.
  rcases Scopes.declare_error he with hk | ⟨hnil, -⟩
  · exact .at (S := S₃) rfl hready₃ (Fault.ofProgram_of_kind (by simp [hk]))
  · have hscopes : w.symbols.scopes = (.of [top]) := hw.scopes
    rw [hscopes] at hnil
    cases hnil

theorem hasType_arg {index : Nat} {shape : Ty} (h : S.body.signature.params[index]? = some shape) :
    S.host.HasType (.arg index) shape := by
  show S.body.valueType (.arg index) = .ok shape
  unfold Function.valueType
  simp only [h]

/-- The parameters from one position on are bound one after the other. -/
theorem bindArguments_proceeds (params : List Param) :
    ∀ (index : Nat) {S : Site func} {w : Work} {top : List Slot},
      w.Stands S ret 1 none none (.of [top]) → S.Open → w.Fits S ret →
      List.Forall₂ (fun ty shape => ty ≠ Builtin.void.id ∧
        TypeTable.builtins.representation ty = .ok shape) (params.map (·.ty))
        (S.body.signature.params.drop index) →
      ((params.zipIdx index).forM fun q => bindArgument ⟨.builtins, options⟩ q.1 q.2).Meets w
        (fun _ w' => ∃ (S' : Site func) (top' : List Slot), w'.Stands S' ret 1 none none (.of [top']) ∧
          S'.Open ∧ w'.Fits S' ret) Refusal := by
  -- By induction on the parameters, which go along with those of the signature.
  induction params with
  | nil =>
    intro index S w top hw hopen hfits _
    exact ⟨S, top, hw, hopen, hfits⟩
  | cons q rest ih =>
    intro index S w top hw hopen hfits hparams
    obtain ⟨shape, shapes, hq, hrest, hdrop⟩ := List.forall₂_cons_left_iff.1 hparams
    have hget : S.body.signature.params[index]? = some shape := by
      rw [← List.head?_drop, hdrop]
      rfl
    have hmeets := bindArgument_proceeds options hw hopen hfits hq.1 hq.2 (hasType_arg hget)
    refine Act.meets_bind.2 (Act.meets_of_run (fun _ w₁ hrun => ?_) fun e w₁ hrun =>
      hmeets.of_error hrun)
    -- The new slot is laid beside the old ones, and the signature stays the same.
    obtain ⟨S₁, l, a, rfl, hw₁, he₁, hopen₁, -, hl⟩ := bindArgument_run hw hopen hrun
    obtain ⟨shape', v, l₁, l₂, -, hshape', hslot, -, -⟩ := hl S₁.host (.self S₁)
    have hrun₁ : S₁.builder.module.Runtime := hmeets.of_ok hrun
    have hH : Host.Completes S₁.host func S.builder.module := ⟨he₁.grows, S₁.found⟩
    have hsig : S₁.body.signature = S.body.signature := hH.extend.1
    have hbefore : Work.Fits { w with builder := S₁.builder } S₁ ret :=
      hfits.grow he₁.grows he₁.within.1 hrun₁ rfl rfl
    have hlaid := hfits.laid.grow he₁.grows
    rw [hw.scopes, Scopes.stack_of] at hlaid
    refine ih _ hw₁ hopen₁ ⟨hrun₁, ?_, hbefore.functions, hbefore.result⟩ ?_
    · rw [Scopes.stack_of]
      exact hlaid.cons rfl hslot hshape'
    rw [hsig, ← List.tail_drop, hdrop]
    exact hrest

/-- A body is closed, or a path of it lacks a `return`. -/
theorem implicitExit_proceeds (options : Options) {top : List Slot} (span : Span)
    (hw : w.Stands S p.ret 1 none none (.of [top])) (hfits : w.Fits S p.ret) :
    (implicitExit ⟨.builtins, options⟩ p func span).Meets w
      (fun _ w' => w'.builder.module.Runtime) Refusal := by
  have hrun : w.builder.module.Runtime := hw.builder ▸ hfits.runtime
  refine Act.meets_bind.2 (Act.meets_of_answer (isTerminated_at hw.builder) ?_)
  refine Act.meets_onlyIf.2 ⟨fun hends => ?_, fun _ => hrun⟩
  have hends : S.body.isTerminated S.block = false := by simpa using hends
  have hready := hw.ready hends hfits
  refine meets_step (by rw [hw.builder]; exact Build.currentBlock_at S) ?_
  refine meets_step (Build.function_at S) ?_
  -- Control gets to the end, where a value may be missing, or the end is unreachable.
  split
  · refine Act.meets_bind.2 (Act.meets_refuseIf.2 ⟨fun _ => .at (S := S) rfl hready
      (Fault.ofProgram_of_kind fun h => by cases h), fun hret => ?_⟩)
    refine meets_symbols ?_
    refine (emit_proceeds rfl hready (Lifetime.destroySlots_proceeds
      (slots_fit hfits (.refl S)))).bind fun _ w₁ hw₁ => ?_
    obtain ⟨S₁, rfl, h₁, hready₁, -⟩ := hw₁
    refine meets_build.2 (Act.meets_of_answer (ret_at (v := none) hready₁.isOpen ?_)
      (Site.push_runtime hready₁.runtime _))
    have hresult := (hfits.leads h₁ hready₁).result
    rw [not_not.1 hret, TypeTable.builtins_representation] at hresult
    exact (Option.some.inj hresult).symm
  · exact meets_build.2 (Act.meets_of_answer (Build.emitVoid_at hends _)
      (Site.push_runtime hfits.runtime _))

/-- An entry block is appended to a function that is there. -/
theorem appendEntry_at {b : Builder} {f : Function} (hf : b.module.function? func = some f)
    (hblocks : f.blocks = []) :
    (Build.appendBlock func "entry").run b =
      (.ok 0, { b with module := b.module.update func (·.addBlock "entry") }) := by
  have hread : (Build.function func).run b = (.ok f, b) := by
    show (Act.ofExcept (b.module.function func) : Build Function).run _ = _
    rw [Module.function_eq_ok.2 hf]
    rfl
  unfold Build.appendBlock
  rw [Act.run_bind, hread]
  simp only [Act.run_bind, hblocks]
  rfl

variable {p : Prototype} {decl : FunctionDecl} {f : Function}

/-- The arguments and the statements of a body are lowered in the scope that
    they share. -/
theorem statements_proceed (stmts : List Stmt) (hw : w.Stands S p.ret 1 none none (.of [[]]))
    (hopen : S.Open) (hfits : w.Fits S p.ret) (hsig : p.Matches S.body.signature) :
    (do
      p.params.zipIdx.forM fun q => bindArgument ⟨.builtins, options⟩ q.1 q.2
      Stmt.lowerAll ⟨.builtins, options⟩ stmts : Lower Unit).Meets w
      (fun _ w' => ∃ (S' : Site func) (top : List Slot), w'.Stands S' p.ret 1 none none (.of [top]) ∧
        w'.Fits S' p.ret) Refusal := by
  refine (bindArguments_proceeds p.params 0 hw hopen hfits hsig.params).bind fun _ w₁ hw₁ => ?_
  obtain ⟨S₁, top, hw₁, hopen₁, hfits₁⟩ := hw₁
  have hmeets := Stmt.lowerAll_proceeds p.ret options stmts func S₁ w₁ none none [] top hw₁ hopen₁
    hfits₁
  refine Act.meets_of_run (fun _ w₂ hrun => ?_) fun e w₂ hrun => hmeets.of_error hrun
  -- Where the statements end is known from the code they compile to.
  obtain ⟨S₂, T, top', hb₂, hsym₂, he₂, hcode⟩ := Stmt.lowerAll_compiles options p.ret 1 stmts
    func S₁ w₁ none none [] top hw₁ hopen₁ w₂ hrun
  refine ⟨S₂, top', ⟨hb₂, he₂.sound hw₁.sound, ?_, ?_⟩, ?_⟩
  · rw [hsym₂]
    exact hw₁.control
  · rw [hsym₂]
  · exact fits_behind (Stmt.compilesAll_lays stmts) hfits₁ hw₁.scopes hsym₂ he₂ hcode
      (hb₂ ▸ hmeets.of_ok hrun)

/-- What is there before a body is lowered: the function has been declared
    and has no body, and all functions can be called. -/
structure Begins (p : Prototype) (func : FuncId) (f : Function) (w : Work) : Prop where
  scopes : w.symbols.scopes = .empty
  found : w.builder.module.function? func = some f
  blocks : f.blocks = []
  signature : p.Matches f.signature
  runtime : w.builder.module.Runtime
  functions : ∀ e ∈ w.symbols.functions.entries, e.Callable w.builder.module

theorem untilExit_proceeds (options : Options) (h : Begins p func f w) (decl : FunctionDecl) :
    (untilExit ⟨.builtins, options⟩ p func decl).Meets w
      (fun _ w' => ∃ (S : Site func) (top : List Slot), w'.Stands S p.ret 1 none none (.of [top]) ∧
        w'.Fits S p.ret) Refusal := by
  refine meets_step (appendEntry_at h.found h.blocks) ?_
  -- The entry block is there, so the body stands at a site with nothing in it.
  obtain ⟨S, hS, hbody, hblock, hopen, hsound, -⟩ := Site.entry h.found h.blocks
  refine meets_step (b := S.builder) (by rw [hS]; rfl) ?_
  refine meets_symbols (Act.meets_bind.2 (Act.meets_modify.2 (meets_symbols
    (Act.meets_bind.2 (Act.meets_modify.2 ?_)))))
  simp only [h.scopes]
  have hgrows : w.builder.module.Grows func S.builder.module := by
    rw [hS]
    exact .update h.found (Function.addBlock_extends ..)
  -- A function that is about to get a body fits: nothing has been laid yet.
  refine statements_proceed decl.body (Work.stands_entry hsound w p .empty) hopen
    ⟨?_, .nil _ _, fun e he => ?_, ?_⟩ ?_
  · rw [hS]
    exact h.runtime.update func _
  · obtain ⟨name, sig, hd, hshaped⟩ := h.functions e he
    exact ⟨name, sig, hgrows.declares hd, hshaped⟩
  · rw [hbody]
    exact h.signature.ret
  · rw [hbody]
    exact h.signature

/-- The checks behind the exit find nothing, so a body is refused before. -/
theorem checkedBody_proceeds (options : Options) (h : Begins p func f w) (decl : FunctionDecl) :
    (checkedBody ⟨.builtins, options⟩ p func decl).Meets w
      (fun _ w' => w'.builder.module.Runtime) Refusal := by
  have huntil := untilExit_proceeds options h decl
  refine Act.meets_bind.2 (Act.meets_of_run (fun _ w₁ hbody => ?_) fun e w₁ hbody =>
    huntil.of_error hbody)
  obtain ⟨S, top, hw₁, hfits₁⟩ := huntil.of_ok hbody
  have hexit := implicitExit_proceeds options decl.span hw₁ hfits₁
  refine Act.meets_bind.2 (Act.meets_of_run (fun _ w₂ hend => ?_) fun e w₂ hend =>
    hexit.of_error hend)
  obtain ⟨g, -, -, -, -, -, hcheck⟩ := exit_closes h.found h.blocks hbody hend
  exact Act.meets_of_answer hcheck (hexit.of_ok hend)

end

end Lower

/-! ## Items -/

section

variable {options : Options} {decl : FunctionDecl} {w : Work}

/-- Every diagnostic so far is about the program. -/
def Work.Blameless (w : Work) : Prop := ∀ d ∈ w.diagnostics, d.fault.OfProgram

theorem DeclaredEntry.diagnostics (h : DeclaredEntry .builtins p w id w') :
    w'.diagnostics = w.diagnostics := by
  cases h <;> rfl

theorem Work.Keeps.blameless (h : w.Keeps w') (hw : w.Blameless) : w'.Blameless := by
  obtain ⟨ds, hds, hall⟩ := h.notes
  intro d hd
  rw [hds] at hd
  rcases List.mem_append.1 hd with hd | hd
  · exact hw d hd
  · obtain ⟨span, hfault⟩ := hall d hd
    rw [hfault]
    exact Fault.ofProgram_of_kind nofun

/-- A body notes only what it drops. -/
theorem Begun.blameless {r : Except Fault Unit} (h : Begun ⟨.builtins, options⟩ decl w p id e w₁)
    (hw : w.Blameless)
    (hbody : (Lower.frameBody ⟨.builtins, options⟩ p e.func decl).run (w₁.marked id) = (r, w₂)) :
    w₂.Blameless := by
  have hkeeps := (Lower.frameBody_run_frames hbody).2
  refine hkeeps.blameless fun d hd => hw d ?_
  rw [← h.declared.diagnostics]
  exact hd

/-- A definition finds its function as it was declared. -/
theorem Begun.begins (h : Begun ⟨.builtins, options⟩ decl w p id e w₁)
    (hdefined : e.defined = false) (hidle : w.Idle)
    (hstep : InStep w.builder.module w.symbols.functions) (hrun : w.builder.module.Runtime) :
    ∃ f, Lower.Begins p e.func f (w₁.marked id) := by
  obtain ⟨f, hf, hblocks⟩ := hstep.undefined h hdefined
  have hstep₁ := hstep.declared h.declared
  obtain ⟨e', he', -, hparams, hret, -⟩ := h.declared.entry
  -- The entry that is begun is the one the declaration left, so its function fits it.
  obtain rfl : e = e' := Option.some.inj (h.entry.symm.trans he')
  obtain ⟨f', hf', -, hsig, -⟩ := hstep₁.linked e (List.mem_of_getElem? h.entry)
  obtain rfl : f = f' := Option.some.inj (hf.symm.trans hf')
  have hmatches := Prototype.Matches.of_irSignature hsig
  refine ⟨f, ⟨?_, hf, hblocks, ⟨hparams ▸ hmatches.params, hret ▸ hmatches.ret⟩, ?_, fun a ha => ?_⟩⟩
  · show w₁.symbols.scopes = .empty
    rw [h.declared.scopes, hidle.scopes]
  · refine h.declared.runtime hrun fun symbol hsymbol => ?_
    cases (Prototype.isExternal_eq_false.1 h.internal).symm.trans hsymbol
  · obtain ⟨a₀, hmem, hproto, hfunc⟩ := Functions.mem_setDefined ha
    obtain ⟨name, sig, hd, hshaped⟩ := (hstep₁.linked a₀ hmem).callable
    exact ⟨name, sig, hfunc ▸ hd, hproto ▸ hshaped⟩

/-- A definition is refused for what the program says, and however it ends,
    the runtime and the diagnostics are as they should be. -/
theorem Lower.function_proceeds (options : Options) (decl : FunctionDecl) (hidle : w.Idle)
    (hstep : InStep w.builder.module w.symbols.functions) (hrun : w.builder.module.Runtime)
    (hblame : w.Blameless) :
    (Lower.function ⟨.builtins, options⟩ decl).Meets w
      (fun _ w' => w'.builder.module.Runtime ∧ w'.Blameless)
      fun e w' => Lower.Refusal e w' ∧ w'.Blameless := by
  refine (Lower.function_meets ⟨.builtins, options⟩ decl w).mono (fun func w' h => ?_) fun e w' h => ?_
  · cases h with
    | @finished p id e w₁ w₂ hbegun hdefined hbody =>
      obtain ⟨f, hbegins⟩ := hbegun.begins hdefined hidle hstep hrun
      obtain ⟨u, halike, hu⟩ :=
        (Lower.frameBody_meets (Lower.checkedBody_proceeds options hbegins decl)).of_ok hbody
      have hnotes := hbegun.blameless hblame hbody
      refine ⟨?_, hnotes⟩
      show w₂.builder.module.Runtime
      rw [halike.builder]
      exact hu
  · cases h with
    | head h =>
      exact ⟨⟨Fault.ofProgram_of_kind (by simp [Prototype.ofDecl_error h]), hrun⟩, hblame⟩
    | external => exact ⟨⟨Fault.ofProgram_of_kind nofun, hrun⟩, hblame⟩
    | undeclared hhead _ h => exact ⟨⟨h.ofProgram hhead, hrun⟩, hblame⟩
    | redefined hbegun =>
      refine ⟨⟨Fault.ofProgram_of_kind nofun, ?_⟩, fun d hd =>
        hblame d (hbegun.declared.diagnostics ▸ hd)⟩
      refine hbegun.declared.runtime hrun fun symbol hsymbol => ?_
      cases (Prototype.isExternal_eq_false.1 hbegun.internal).symm.trans hsymbol
    | @dropped p id e w₁ w₂ fault hbegun hdefined hbody f hf =>
      obtain ⟨f, hbegins⟩ := hbegun.begins hdefined hidle hstep hrun
      obtain ⟨u, halike, hfault, hu⟩ :=
        (Lower.frameBody_meets (Lower.checkedBody_proceeds options hbegins decl)).of_error hbody
      have hnotes := hbegun.blameless hblame hbody
      refine ⟨⟨hfault, ?_⟩, hnotes⟩
      rw [← halike.builder] at hu
      exact hu.update e.func _
    | @lost p id e w₁ w₂ w₃ fault err hbegun hdefined hbody hf =>
      -- The function of an entry is always there.
      obtain ⟨f, hf₁, -⟩ := hstep.undefined hbegun hdefined
      have hframes := Lower.frameBody_run_frames hbody
      obtain ⟨f', hf', -⟩ := hframes.1.head f hf₁
      rw [hf] at hf'
      cases hf'

theorem Lower.declarePrototype_proceeds (options : Options) (decl : PrototypeDecl)
    (hlinks : ∀ symbol, decl.symbol = some symbol → symbol ∉ Distribution.symbols)
    (hrun : w.builder.module.Runtime) (hblame : w.Blameless) :
    (Lower.declarePrototype ⟨.builtins, options⟩ decl).Meets w
      (fun _ w' => w'.builder.module.Runtime ∧ w'.Blameless)
      fun e w' => Lower.Refusal e w' ∧ w'.Blameless := by
  refine Act.meets_bind.2 (Act.meets_ofExcept.2 ⟨fun p hp => ?_, fun e he =>
    ⟨⟨Fault.ofProgram_of_kind (by simp [Prototype.ofDecl_error he]), hrun⟩, hblame⟩⟩)
  have hsymbol : p.symbol = decl.symbol := Prototype.ofDecl_symbol hp
  refine (Lower.declare_meets .builtins p w).mono (fun id w' h => ?_) fun e w' h => ?_
  · refine ⟨h.runtime hrun (hsymbol ▸ hlinks), fun d hd => ?_⟩
    rw [h.diagnostics] at hd
    exact hblame d hd
  · obtain ⟨rfl, h⟩ := h
    exact ⟨⟨h.ofProgram hp, hrun⟩, hblame⟩

theorem Progress.lowerItem_proceeds (options : Options) (item : Item)
    (hlinks : ∀ decl, item = .prototype decl → ∀ symbol, decl.symbol = some symbol →
      symbol ∉ Distribution.symbols) (hidle : w.Idle)
    (hstep : InStep w.builder.module w.symbols.functions) (hrun : w.builder.module.Runtime)
    (hblame : w.Blameless) :
    (lowerItem ⟨.builtins, options⟩ item).Meets w
      (fun _ w' => w'.builder.module.Runtime ∧ w'.Blameless)
      fun e w' => Lower.Refusal e w' ∧ w'.Blameless := by
  cases item with
  | prototype decl =>
    exact Act.meets_bind.2 (Lower.declarePrototype_proceeds options decl (hlinks decl rfl) hrun hblame)
  | function decl =>
    exact Act.meets_bind.2 (Lower.function_proceeds options decl hidle hstep hrun hblame)

/-- A refused item is noted with the fault that it was refused for. -/
theorem Progress.step_proceeds (options : Options) (p : Progress) (item : Item)
    (hitem : (lowerItem ⟨.builtins, options⟩ item).Meets p.work
      (fun _ w' => w'.builder.module.Runtime ∧ w'.Blameless)
      fun e w' => Lower.Refusal e w' ∧ w'.Blameless) :
    (p.step ⟨.builtins, options⟩ item).work.builder.module.Runtime ∧
      (p.step ⟨.builtins, options⟩ item).work.Blameless := by
  unfold Progress.step
  split
  · rename_i w' hrun
    obtain ⟨hruntime, hblame⟩ := hitem.of_ok hrun
    exact ⟨hruntime, hblame⟩
  · rename_i fault w' hrun
    obtain ⟨⟨hfault, hruntime⟩, hblame⟩ := hitem.of_error hrun
    -- The report of the refusal is the only new one.
    refine ⟨hruntime, fun d hd => ?_⟩
    rcases List.mem_append.1 hd with hd | hd
    · exact hblame d hd
    · obtain rfl := List.mem_singleton.1 hd
      exact hfault.locate item.span

end

/-! ## Sessions -/

/-- The declarations of a unit that name symbols defined elsewhere leave the
    runtime alone. -/
def SourceUnit.SparesRuntime (u : SourceUnit) : Prop :=
  ∀ decl, Item.prototype decl ∈ u.items → ∀ symbol, decl.symbol = some symbol →
    symbol ∉ Distribution.symbols

/-- What holds between two items. -/
structure Work.Intact (w : Work) : Prop where
  inStep : InStep w.builder.module w.symbols.functions
  runtime : w.builder.module.Runtime
  blameless : w.Blameless

/-- Nothing has been declared and nothing has been noted yet. -/
theorem Work.Intact.start (name : String) : (Progress.start (.empty name) .empty).work.Intact where
  inStep := .empty name
  runtime _ h := by cases h
  blameless _ h := by cases h

theorem Work.Intact.restart (h : w.Intact) :
    (Progress.start w.builder.module w.symbols).work.Intact where
  inStep := h.inStep
  runtime := h.runtime
  blameless _ h := by cases h

theorem Work.Intact.step {options : Options} {p : Progress} {item : Item} (h : p.work.Intact)
    (hidle : p.work.Idle) (hlinks : ∀ decl, item = .prototype decl → ∀ symbol,
      decl.symbol = some symbol → symbol ∉ Distribution.symbols) :
    (p.step ⟨.builtins, options⟩ item).work.Intact := by
  obtain ⟨hrun, hblame⟩ := p.step_proceeds options item
    (Progress.lowerItem_proceeds options item hlinks hidle h.inStep h.runtime h.blameless)
  refine ⟨?_, hrun, hblame⟩
  obtain ⟨hbuilder, hfunctions⟩ := p.step_work ⟨.builtins, options⟩ item
  rw [hbuilder, hfunctions]
  exact h.inStep.item item

theorem session_intact (name : String) {units : List SourceUnit}
    (hunits : ∀ u ∈ units, u.SparesRuntime) : (session (.empty name) units).work.Intact :=
  (session_induction (.start name) (fun _ _ h => h.restart) fun u hu _ hitem _ hidle h =>
    h.step hidle fun decl hdecl => hunits u hu decl (hdecl ▸ hitem)).2

/-- However many units are compiled one after the other into a module that
    was empty, and whatever is wrong with them, no check of the compiler on
    itself fails.  The diagnostics of every unit tell what is wrong with the
    program.  The one internal fault that is left is that of a program that
    asks for values of a module, which have no shape. -/
theorem session_faults_are_of_programs (name : String) (units : List SourceUnit)
    (hunits : ∀ u ∈ units, u.SparesRuntime) :
    ∀ before, before <+: units → ∀ d ∈ (session (.empty name) before).diagnostics,
      (∀ message, d.fault ≠ .malformed message) ∧
      (∀ message span, d.fault ≠ .located (.internal message) span) ∧
      (d.fault.kind = .internal → ∃ span, d.fault = .located (.noRepresentation "module") span) := by
  intro before hbefore d hd
  have hfault := (session_intact name fun u hu => hunits u (hbefore.subset hu)).blameless d hd
  refine ⟨fun message heq => ?_, fun message span heq => ?_, hfault⟩
  · obtain ⟨s, hs⟩ := hfault (by rw [heq]; rfl)
    cases heq.symm.trans hs
  · obtain ⟨s, hs⟩ := hfault (by rw [heq]; rfl)
    cases heq.symm.trans hs

/-- A unit that declares a function of another library, and one that adds
    distributions with it and then asks for values of a module. -/
def moduleUser : List SourceUnit :=
  let name (s : String) : Ident := ⟨s, .unknown⟩
  let ty (s : String) : TypeName := ⟨s, .unknown⟩
  [⟨.default, [.prototype ⟨name "noise", some "lib_noise", ty "dfunc",
      [⟨name "d", ty "dfunc", .unknown⟩], .unknown⟩]⟩,
    ⟨.default, [
      .function {
        prototype := ⟨name "mix", none, ty "dfunc", [⟨name "d", ty "dfunc", .unknown⟩], .unknown⟩
        body := [.ret (some (.binary .add (.var (name "d"))
          (.call (name "noise") [.var (name "d")] .unknown) .unknown)) .unknown]
        bodySpan := .unknown },
      .prototype ⟨name "load", none, ty "void", [⟨name "m", ty "module", .unknown⟩], .unknown⟩]⟩]

theorem moduleUser_faults_are_of_programs :
    (∀ u ∈ moduleUser, u.SparesRuntime) ∧
      (session (.empty "scene") moduleUser).compiled = ["mix"] ∧
      ∃ d ∈ (session (.empty "scene") moduleUser).diagnostics, d.fault.kind = .internal ∧
        ∃ span, d.fault = .located (.noRepresentation "module") span := by
  have hspares : ∀ u ∈ moduleUser, u.SparesRuntime := by
    intro u hu decl hdecl symbol hsymbol
    simp only [moduleUser, List.mem_cons, List.not_mem_nil, or_false] at hu
    rcases hu with rfl | rfl
    · obtain rfl := Item.prototype.inj (List.mem_singleton.1 hdecl)
      cases hsymbol
      decide
    · simp only [List.mem_cons, reduceCtorEq, List.not_mem_nil, or_false, false_or] at hdecl
      obtain rfl := Item.prototype.inj hdecl
      cases hsymbol
  have hdiagnostics : (session (.empty "scene") moduleUser).diagnostics =
      [⟨.error, .located (.noRepresentation "module") .unknown, some "load"⟩] := by
    decide +kernel
  have hmem : ⟨.error, .located (.noRepresentation "module") .unknown, some "load"⟩ ∈
      (session (.empty "scene") moduleUser).diagnostics := by
    rw [hdiagnostics]
    exact List.mem_singleton_self _
  have hfaults := session_faults_are_of_programs "scene" moduleUser hspares moduleUser
    (List.prefix_refl _) _ hmem
  exact ⟨hspares, by decide +kernel, _, hmem, rfl, hfaults.2.2 rfl⟩

end Shading
