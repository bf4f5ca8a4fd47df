import Shading.Proofs.Disposal
import Shading.Proofs.Isolation

/-! # Accounts of distributions

    A function of a session calls the runtime and functions that were
    declared before it, and none of the latter destroys what it is lent.  So
    on every path through its body each distribution that is made comes to
    its end once or is returned (`session_distributions_disposed_once`).

    A distribution may still be used after its end: the value of a variable
    is read without a copy, and a later operand may assign to the variable
    (`lateUse`).  Where no operand does that to an operand before it, nothing
    is used after its end
    (`session_ordered_functions_use_live_distributions`). -/

namespace Shading

open IR

variable {decl : FunctionDecl} {options : Options} {w w' w₁ : Work} {e e' : Entry} {id : EntryId}
    {m m' : Module} {p : Prototype} {func : FuncId}

/-! ## Functions that can be called -/

/-- The heads of functions are what callers depend on. -/
theorem Entry.Borrows.of_heads (h : e.Borrows m)
    (hheads : ∀ id f, m.function? id = some f → ∃ f', m'.function? id = some f' ∧
      f'.name = f.name ∧ f'.signature = f.signature) : e.Borrows m' := by
  obtain ⟨name, sig, ⟨f, hf, rfl, rfl⟩, hname, hshape⟩ := h
  obtain ⟨f', hf', hname', hsig⟩ := hheads e.func f hf
  exact ⟨f.name, f.signature, ⟨f', hf', hname', hsig⟩, hname, hshape⟩

theorem Entry.Borrows.of_same (h : e.Borrows m) (hfunc : e'.func = e.func)
    (hproto : e'.prototype = e.prototype) : e'.Borrows m := by
  unfold Entry.Borrows at *
  rw [hfunc, hproto]
  exact h

/-- Functions that were declared only borrow their arguments. -/
def Work.Lends (w : Work) : Prop :=
  ∀ e ∈ w.symbols.functions.entries, e.Borrows w.builder.module

/-- One function of the module may have another body, and entries may have
    been marked. -/
theorem Work.Lends.frames {b : Bool} (h : w.Lends)
    (hframes : w.builder.module.Frames func w'.builder.module)
    (hfunctions : w'.symbols.functions = w.symbols.functions.setDefined id b) : w'.Lends := by
  intro e he
  rw [hfunctions] at he
  obtain ⟨e₀, hmem, hproto, hfunc⟩ := Functions.mem_setDefined he
  refine Entry.Borrows.of_same ((h e₀ hmem).of_heads fun i f hf => ?_) hfunc.symm hproto.symm
  by_cases hi : i = func
  · subst hi
    obtain ⟨f', hf', hname, hsig, -⟩ := hframes.head f hf
    exact ⟨f', hf', hname, hsig⟩
  · exact ⟨f, hframes.others i f hi hf, rfl, rfl⟩

theorem DeclaredEntry.lends (hdecl : DeclaredEntry .builtins p w id w') (h : w.Lends)
    (hlinks : ∀ symbol, p.symbol = some symbol → symbol ∉ Distribution.symbols) : w'.Lends := by
  cases hdecl with
  | found => exact h
  | @added symbol sig func m hfind hname hsig hdecl =>
    intro e he
    rcases List.mem_append.1 he with he | he
    · exact (h e he).of_heads fun i f hf => ⟨f, hdecl.keeps hf, rfl, rfl⟩
    -- The new entry is none of the runtime, so its shapes are those of the prototype.
    · obtain rfl := List.mem_singleton.1 he
      obtain ⟨f, hf, rfl, rfl, -⟩ := hdecl.declares
      have hmatches := Prototype.Matches.of_irSignature hsig
      refine ⟨f.name, f.signature, ⟨f, hf, rfl, rfl⟩, fun heq => ?_,
        hmatches.params.imp fun _ _ h => h.2, hmatches.ret⟩
      refine Prototype.irName_notMem_symbols hname hlinks ?_
      rw [heq]
      decide

/-- A function that is defined here does not name the runtime. -/
theorem Begun.lends (hbegun : Begun ⟨.builtins, options⟩ decl w p id e w₁) (h : w.Lends) :
    w₁.Lends := by
  refine hbegun.declared.lends h fun symbol hsymbol => ?_
  cases (Prototype.isExternal_eq_false.1 hbegun.internal).symm.trans hsymbol

theorem DefinitionRun.lends {r : Except Fault FuncId}
    (hrun : DefinitionRun ⟨.builtins, options⟩ decl w r w') (h : w.Lends) : w'.Lends := by
  cases hrun with
  | head | external | undeclared => exact h
  | redefined hbegun => exact hbegun.lends h
  | @finished p id e w₁ w₂ hbegun hdefined hbody =>
    have hframes := Lower.frameBody_run_frames hbody
    exact (hbegun.lends h).frames hframes.1 hframes.2.functions
  | @dropped p id e w₁ w₂ fault hbegun hdefined hbody f hf =>
    have hframes := Lower.frameBody_run_frames hbody
    have hfunctions : (w₂.dropped id e.func).symbols.functions =
        w₁.symbols.functions.setDefined id false := by
      show w₂.symbols.functions.setDefined id false = _
      rw [hframes.2.functions]
      exact Functions.setDefined_setDefined _ _ _ _
    refine (hbegun.lends h).frames (hframes.1.trans ?_) hfunctions
    exact .update e.func _ Function.clearBody
  | @lost p id e w₁ w₂ w₃ fault err hbegun hdefined hbody hnone =>
    -- The function of an entry is there, before its body and behind it.
    have hframes := Lower.frameBody_run_frames hbody
    obtain ⟨name, sig, ⟨f, hf, -⟩, -⟩ := hbegun.lends h e (List.mem_of_getElem? hbegun.entry)
    obtain ⟨f', hf', -⟩ := hframes.1.head f hf
    rw [hnone] at hf'
    cases hf'

theorem Progress.step_lends {p : Progress} {item : Item} (h : p.work.Lends)
    (hlinks : ∀ decl, item = .prototype decl → ∀ symbol, decl.symbol = some symbol →
      symbol ∉ Distribution.symbols) : (p.step ⟨.builtins, options⟩ item).work.Lends := by
  have hitem : ((lowerItem ⟨.builtins, options⟩ item).run p.work).2.Lends := by
    refine Act.Meets.state (R := Work.Lends) ?_
    cases item with
    | prototype decl =>
      apply Act.meets_bind.2
      apply Act.meets_bind.2
      refine Act.meets_ofExcept.2 ⟨fun q hq => ?_, fun _ _ => h⟩
      refine (Lower.declare_meets .builtins q p.work).mono (fun id w' hw' => ?_) fun e w' hw' => ?_
      · exact hw'.lends h (Prototype.ofDecl_symbol hq ▸ hlinks decl rfl)
      · rw [hw'.1]
        exact h
    | function decl =>
      apply Act.meets_bind.2
      exact (Lower.function_meets ⟨.builtins, options⟩ decl p.work).mono
        (fun _ _ hw' => hw'.lends h) fun _ _ hw' => hw'.lends h
  -- A step only adds a diagnostic to what its item leaves.
  obtain ⟨hbuilder, hfunctions⟩ := p.step_work ⟨.builtins, options⟩ item
  unfold Work.Lends
  rw [hbuilder, hfunctions]
  exact hitem

/-- After every item of a session, the functions that can be called only
    borrow their arguments. -/
theorem session_lends (m : Module) {units : List SourceUnit}
    (hunits : ∀ u ∈ units, u.SparesRuntime) :
    (session m units).work.Idle ∧ (session m units).work.Lends := by
  refine session_induction (I := Work.Lends) (fun _ h => by cases h) (fun _ _ h => h)
    fun u hu item hitem p _ h => ?_
  exact Progress.step_lends h fun decl hdecl => hunits u hu decl (hdecl ▸ hitem)

/-! ## Functions of a session -/

theorem forall₂_mem_right {α β : Type} {R : α → β → Prop} {l : List α} {l' : List β}
    (h : List.Forall₂ R l l') {b : β} (hb : b ∈ l') : ∃ a ∈ l, R a b := by
  induction h with
  | nil => cases hb
  | @cons a c as cs hac _ ih =>
    rcases List.mem_cons.1 hb with rfl | hb
    · exact ⟨a, List.mem_cons_self, hac⟩
    · obtain ⟨a', ha', hab⟩ := ih hb
      exact ⟨a', List.mem_cons_of_mem a ha', hab⟩

/-- Parameters that are distributions are listed under their names. -/
theorem FunctionDecl.mem_distributions (hhead : Prototype.ofDecl .builtins decl.prototype = .ok p) :
    ∀ q ∈ p.params, q.ty = Builtin.dfunc.id → q.name ∈ decl.distributions := by
  intro q hq hty
  obtain ⟨a, ha, hresolve, hname⟩ := forall₂_mem_right (Prototype.ofDecl_eq_ok hhead).2 hq
  rw [hty] at hresolve
  refine List.mem_map.2 ⟨a, List.mem_filter.2 ⟨ha, ?_⟩, hname.symm⟩
  exact beq_iff_eq.2 (TypeTable.name_of_resolveName hresolve)

/-- The function of a begun definition returns what its prototype says. -/
theorem Begun.representation_ret (h : Begun ⟨.builtins, options⟩ decl w p id e w₁)
    (hlends : w.Lends) {f : Function} (hf : w₁.builder.module.function? e.func = some f) :
    TypeTable.builtins.representation p.ret = .ok f.signature.ret := by
  obtain ⟨name, sig, ⟨f', hf', -, rfl⟩, -, hshape⟩ :=
    h.lends hlends e (List.mem_of_getElem? h.entry)
  obtain rfl : f' = f := Option.some.inj (hf'.symm.trans hf)
  obtain ⟨e', he', -, -, hret, -⟩ := h.declared.entry
  obtain rfl : e' = e := Option.some.inj (he'.symm.trans h.entry)
  rw [← hret]
  exact hshape.ret

/-- In every run of a function that was compiled at the end of a session, all
    accounts are closed. -/
theorem session_function_accounted {units : List SourceUnit} (hunits : ∀ u ∈ units, u.SparesRuntime)
    (hnew : ∀ f, (session m units).work.builder.module.function? func = some f → f.blocks = [])
    (hrun : (Lower.function ⟨.builtins, options⟩ decl).run (session m units).work = (.ok func, w'))
    :
    ∃ F, w'.builder.module.function? func = some F ∧ ∀ ch : Choices,
      ¬ F.GetsStuck (Interp.tracking ⟨w'.builder.module, F⟩).choosing (.start (.start, ch)) ∧
      ∀ trace, F.Returns (Interp.tracking ⟨w'.builder.module, F⟩).choosing
        (.start (.start, ch)) trace → Accounted (decl.ordered = true) trace := by
  obtain ⟨hidle, hlends⟩ := session_lends m hunits
  obtain ⟨p, f, F, hhead, hblocks, hF, hfin⟩ :=
    Lower.function_compiles hidle.scopes hnew hrun
  have hdef := (Lower.function_meets ⟨.builtins, options⟩ decl (session m units).work).of_ok hrun
  have hlends' := hdef.lends hlends
  cases hdef with | @finished p' id e w₁ w₂ hbegun hdefined hbody =>
  obtain rfl : p' = p := Except.ok.inj (hbegun.head.symm.trans hhead)
  -- The head of the function in the module is still the one of its entry: bodies do not touch it.
  have hret : TypeTable.builtins.representation p'.ret = .ok F.signature.ret := by
    have hframes := Lower.frameBody_run_frames hbody
    obtain ⟨name, sig, ⟨f₁, hf₁, -⟩, -⟩ :=
      hbegun.lends hlends e (List.mem_of_getElem? hbegun.entry)
    obtain ⟨F', hF', -, hsig, -⟩ := hframes.1.head f₁ hf₁
    obtain rfl : F' = F := Option.some.inj (hF'.symm.trans hF)
    rw [hsig]
    exact hbegun.representation_ret hlends hf₁
  refine ⟨F, hF, fun ch => ?_⟩
  exact hfin.accounted hblocks hlends' hret (FunctionDecl.mem_distributions hhead)
    (fun hordered => hordered) ch

/-- What happens to distributions in a run of a function that returns within
    so many steps. -/
def IR.Module.traceIn (m : Module) (func : FuncId) (ch : Choices) (n : Nat) :
    Option (List Event) := do
  let f ← m.function? func
  match f.run (Interp.tracking ⟨m, f⟩).choosing n (.start (.start, ch)) with
  | .returned trace => some trace
  | .running _ | .stuck => none

theorem IR.Module.returns_of_traceIn {ch : Choices} {n : Nat} {trace : List Event}
    (h : m.traceIn func ch n = some trace) :
    ∃ f, m.function? func = some f ∧
      f.Returns (Interp.tracking ⟨m, f⟩).choosing (.start (.start, ch)) trace := by
  obtain ⟨f, hf, h⟩ := Option.bind_eq_some_iff.1 h
  refine ⟨f, hf, n, ?_⟩
  split at h
  · rename_i hrun
    rw [hrun, Option.some.inj h]
  all_goals cases h

/-- Every distribution that a function makes comes to its end exactly once:
    it is destroyed, or it is the result.  Arguments are only borrowed.  The
    function is compiled at the end of any session, into a function of the
    module without a body, and no unit links to the runtime of
    distributions.  Conditions may turn out either way. -/
theorem session_distributions_disposed_once {m : Module} {units : List SourceUnit}
    (hunits : ∀ u ∈ units, u.SparesRuntime) {options : Options} {decl : FunctionDecl}
    {func : FuncId} {w' : Work}
    (hnew : ∀ f, (session m units).work.builder.module.function? func = some f → f.blocks = [])
    (hrun : (Lower.function ⟨.builtins, options⟩ decl).run (session m units).work =
      (.ok func, w')) :
    ∃ F, w'.builder.module.function? func = some F ∧ ∀ ch : Choices,
      ¬ F.GetsStuck (Interp.tracking ⟨w'.builder.module, F⟩).choosing (.start (.start, ch)) ∧
      ∀ trace, F.Returns (Interp.tracking ⟨w'.builder.module, F⟩).choosing
        (.start (.start, ch)) trace → Disposed trace := by
  obtain ⟨F, hF, hruns⟩ := session_function_accounted hunits hnew hrun
  exact ⟨F, hF, fun ch => ⟨(hruns ch).1, fun trace htrace => ((hruns ch).2 trace htrace).disposed⟩⟩

/-- A function of another library that makes distributions. -/
def noisy : SourceUnit :=
  let name (s : String) : Ident := ⟨s, .unknown⟩
  ⟨.default, [.prototype ⟨name "noise", some "lib_noise", ⟨"dfunc", .unknown⟩,
    [⟨name "d", ⟨"dfunc", .unknown⟩, .unknown⟩], .unknown⟩]⟩

theorem noisy_sparesRuntime : ∀ u ∈ [noisy], u.SparesRuntime := by
  intro u hu decl hdecl symbol hsymbol
  obtain rfl := List.mem_singleton.1 hu
  obtain rfl := Item.prototype.inj (List.mem_singleton.1 hdecl)
  cases hsymbol
  decide

/-- Noise is added to a distribution in a loop, until an early end. -/
def pile : FunctionDecl :=
  let name (s : String) : Ident := ⟨s, .unknown⟩
  let s : Expr := .var (name "s")
  let b : Expr := .var (name "b")
  { prototype := ⟨name "pile", none, ⟨"dfunc", .unknown⟩,
      [⟨name "d", ⟨"dfunc", .unknown⟩, .unknown⟩, ⟨name "b", ⟨"bool", .unknown⟩, .unknown⟩],
      .unknown⟩
    body := [
      .decl ⟨"dfunc", .unknown⟩ (name "s") none .unknown,
      .loop b
        (.block [
          .decl ⟨"dfunc", .unknown⟩ (name "n")
            (some (.call (name "noise") [.var (name "d")] .unknown)) .unknown,
          .ifThen b (.ret (some (.var (name "n"))) .unknown) .unknown,
          .expr (.assign (name "s") (.binary .add s (.var (name "n")) .unknown) .unknown)
            .unknown] .unknown) .unknown,
      .ret (some s) .unknown]
    bodySpan := .unknown }

theorem pile_compiles : ((Lower.function ⟨.builtins, .default⟩ pile).run
    (session (.empty "scene") [noisy]).work).1 = .ok 1 := by
  decide +kernel

theorem pile_new : ∀ f, (session (.empty "scene") [noisy]).work.builder.module.function? 1 =
    some f → f.blocks = [] := by
  have hnone : ((session (.empty "scene") [noisy]).work.builder.module.function? 1).isNone =
      true := by decide +kernel
  intro f hf
  rw [hf] at hnone
  cases hnone

/-- Once round the loop and out of its second round. -/
theorem pile_distributions_disposed_once : ∃ w F trace,
    (Lower.function ⟨.builtins, .default⟩ pile).run (session (.empty "scene") [noisy]).work =
      (.ok 1, w) ∧
    w.builder.module.function? 1 = some F ∧
    F.Returns (Interp.tracking ⟨w.builder.module, F⟩).choosing
      (.start (.start, fun n => n != 1)) trace ∧
    trace.count (.returned (.made 5)) = 1 ∧ Disposed trace := by
  obtain ⟨F, hF, hruns⟩ := session_distributions_disposed_once noisy_sparesRuntime
    pile_new (Act.run_eq_of_fst pile_compiles)
  -- One run is followed to its end; the theorem speaks about its trace.
  have htrace : (Module.traceIn ((Lower.function ⟨.builtins, .default⟩ pile).run
      (session (.empty "scene") [noisy]).work).2.builder.module 1 (fun n => n != 1) 60).map
      (·.count (.returned (.made 5))) = some 1 := by decide +kernel
  obtain ⟨trace, htrace, hcount⟩ := Option.map_eq_some_iff.1 htrace
  obtain ⟨F', hF', hreturns⟩ := Module.returns_of_traceIn htrace
  obtain rfl : F' = F := Option.some.inj (hF'.symm.trans hF)
  exact ⟨_, F', trace, Act.run_eq_of_fst pile_compiles, hF, hreturns, hcount,
    (hruns _).2 trace hreturns⟩

/-- Where no operand assigns to a distribution that an operand before it hands
    on, no distribution is used, destroyed or returned after it was
    destroyed. -/
theorem session_ordered_functions_use_live_distributions {m : Module} {units : List SourceUnit}
    (hunits : ∀ u ∈ units, u.SparesRuntime) {options : Options} {decl : FunctionDecl}
    {func : FuncId} {w' : Work}
    (hnew : ∀ f, (session m units).work.builder.module.function? func = some f → f.blocks = [])
    (hrun : (Lower.function ⟨.builtins, options⟩ decl).run (session m units).work =
      (.ok func, w'))
    (hordered : decl.ordered = true) :
    ∃ F, w'.builder.module.function? func = some F ∧ ∀ ch : Choices,
      ¬ F.GetsStuck (Interp.tracking ⟨w'.builder.module, F⟩).choosing (.start (.start, ch)) ∧
      ∀ trace, F.Returns (Interp.tracking ⟨w'.builder.module, F⟩).choosing
        (.start (.start, ch)) trace → Orderly trace := by
  obtain ⟨F, hF, hruns⟩ := session_function_accounted hunits hnew hrun
  exact ⟨F, hF, fun ch =>
    ⟨(hruns ch).1, fun trace htrace => ((hruns ch).2 trace htrace).orderly hordered⟩⟩

theorem pile_uses_live_distributions : pile.ordered = true ∧ ∃ w F trace,
    (Lower.function ⟨.builtins, .default⟩ pile).run (session (.empty "scene") [noisy]).work =
      (.ok 1, w) ∧
    w.builder.module.function? 1 = some F ∧
    F.Returns (Interp.tracking ⟨w.builder.module, F⟩).choosing
      (.start (.start, fun n => n != 1)) trace ∧
    .destroyed (.made 1) ∈ trace ∧ Orderly trace := by
  obtain ⟨F, hF, hruns⟩ := session_ordered_functions_use_live_distributions noisy_sparesRuntime
    pile_new (Act.run_eq_of_fst pile_compiles) (by decide +kernel)
  have htrace : (Module.traceIn ((Lower.function ⟨.builtins, .default⟩ pile).run
      (session (.empty "scene") [noisy]).work).2.builder.module 1 (fun n => n != 1) 60).map
      (·.contains (.destroyed (.made 1))) = some true := by decide +kernel
  obtain ⟨trace, htrace, hmem⟩ := Option.map_eq_some_iff.1 htrace
  obtain ⟨F', hF', hreturns⟩ := Module.returns_of_traceIn htrace
  obtain rfl : F' = F := Option.some.inj (hF'.symm.trans hF)
  exact ⟨by decide +kernel, _, F', trace, Act.run_eq_of_fst pile_compiles, hF, hreturns,
    List.contains_iff_mem.1 hmem, (hruns _).2 trace hreturns⟩

/-- The sum of a variable and of what is assigned to it while the sum waits
    for its second operand. -/
def lateUse : FunctionDecl :=
  let name (s : String) : Ident := ⟨s, .unknown⟩
  { prototype := ⟨name "f", none, ⟨"void", .unknown⟩,
      [⟨name "d", ⟨"dfunc", .unknown⟩, .unknown⟩, ⟨name "e", ⟨"dfunc", .unknown⟩, .unknown⟩],
      .unknown⟩
    body := [.expr (.binary .add (.var (name "d"))
      (.assign (name "d") (.var (name "e")) .unknown) .unknown) .unknown]
    bodySpan := .unknown }

/-- The assignment destroys what the variable held, and then the sum uses
    it. -/
theorem lateUse_uses_destroyed_distribution : lateUse.ordered = false ∧ ∃ w F trace,
    (Lower.function ⟨.builtins, .default⟩ lateUse).run (session (.empty "scene") []).work =
      (.ok 0, w) ∧
    w.builder.module.function? 0 = some F ∧
    F.Returns (Interp.tracking ⟨w.builder.module, F⟩).choosing
      (.start (.start, fun _ => true)) trace ∧
    [.destroyed (.made 0), .used (.made 0)].Sublist trace ∧ ¬ Orderly trace := by
  have hok : ((Lower.function ⟨.builtins, .default⟩ lateUse).run
      (session (.empty "scene") []).work).1 = .ok 0 := by decide +kernel
  have htrace : Module.traceIn ((Lower.function ⟨.builtins, .default⟩ lateUse).run
      (session (.empty "scene") []).work).2.builder.module 0 (fun _ => true) 20 =
      some [.used (.arg 0), .made (.made 0), .used (.arg 1), .made (.made 1),
        .used (.made 1), .made (.made 2), .destroyed (.made 0), .used (.made 0),
        .used (.made 2), .made (.made 3), .destroyed (.made 3), .destroyed (.made 1),
        .destroyed (.made 2)] := by
    decide +kernel
  obtain ⟨F, hF, hreturns⟩ := Module.returns_of_traceIn htrace
  refine ⟨by decide +kernel, _, F, _, Act.run_eq_of_fst hok, hF, hreturns, by decide, ?_⟩
  unfold Orderly
  decide

end Shading
