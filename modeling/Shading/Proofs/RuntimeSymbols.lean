import Shading.Proofs.Operations
import Shading.Proofs.ProgramFaults
import Shading.Proofs.TwinHooks
import Shading.Proofs.TwinStatements

/-! # The symbols of the runtime

    A function of the runtime is declared where a body first needs it, and a
    program may declare it too, as a function that is defined elsewhere.  So
    after any session the symbols of the runtime stand for external functions
    only; but they have the signatures of the runtime only where no prototype
    of the program claims such a symbol with another one
    (`session_runtime_symbols`). -/

namespace Shading

open IR

/-! ## Heads of functions -/

namespace IR.Module.EveryHead

variable {P : String → Signature → Linkage → Prop} {m m' : Module}

/-- Only a declaration can bring a head that was not there. -/
theorem rework (h : m.EveryHead P) (hm : m.Rework m') : m'.EveryHead P := by
  obtain rfl | ⟨func, g, rfl⟩ := hm.eq_update
  · exact h
  · exact h.update func g

theorem declare (h : m.EveryHead P) {name : String} {sig : Signature} {linkage : Linkage}
    {func : FuncId} (hdecl : Build.Declared m name sig linkage func m')
    (hnew : P name sig linkage) : m'.EveryHead P := by
  cases hdecl with
  | found => exact h
  | added => exact h.add hnew

end IR.Module.EveryHead

/-! ## Bodies -/

/-- A run along which every function is declared as it may be. -/
def heading (P : String → Signature → Linkage → Prop) : Act.Bond Builder Fault :=
  .keeping Fault fun b => b.module.EveryHead P

/-- The same of a state of the compilation. -/
def Lower.heading (P : String → Signature → Linkage → Prop) : Act.Bond Work Fault :=
  .keeping Fault fun w => w.builder.module.EveryHead P

namespace Emit

variable {P : String → Signature → Linkage → Prop} {α : Type}

theorem heading_plain : (heading P).Plain := Act.Bond.keeping_plain

/-- Operations on bodies declare nothing. -/
theorem heading_effect (o : Operation) (ho : o.isDeclare = false) :
    (heading P).Twin Eq (liftM o.act : Emit Unit) (liftM o.act) := by
  refine .of_keeps fun b hb => ?_
  have hend : ((liftM o.act : Emit Unit).run b).2 = b.perform o :=
    Act.run_mapError_state IR.Error.toFault o.act b
  rw [hend]
  exact hb.rework (Operation.perform_rework b ho)

theorem heading_value {x : Build α} (o : Operation) (ho : o.isDeclare = false)
    (hx : o.act = x >>= fun _ => pure ()) :
    (heading P).Twin Eq (liftM x : Emit α) (liftM x) := by
  refine .of_keeps fun b hb => ?_
  have hend : ((liftM x : Emit α).run b).2 = b.perform o := by
    rw [Builder.perform, hx, Act.run_discard_state]
    exact Act.run_mapError_state IR.Error.toFault x b
  rw [hend]
  exact hb.rework (Operation.perform_rework b ho)

/-- What only reads declares nothing. -/
theorem heading_still {x : Build α} (hx : ∀ b, x.Meets b (fun _ t => t = b) fun _ t => t = b) :
    (heading P).Twin Eq (liftM x : Emit α) (liftM x) := by
  refine .of_keeps fun b hb => ?_
  have hend : ((liftM x : Emit α).run b).2 = b :=
    Act.Meets.state (R := fun t => t = b) (Act.meets_mapError.2 (hx b))
  rw [hend]
  exact hb

theorem heading_declare {name : String} {sig : Signature} {linkage : Linkage}
    (hnew : P name sig linkage) (toFault : IR.Error → Fault) :
    (heading P).Twin Eq ((Build.declare name sig linkage).mapError toFault : Emit FuncId)
      ((Build.declare name sig linkage).mapError toFault) := by
  refine .of_keeps fun b hb => ?_
  refine Act.Meets.state (R := fun t : Builder => t.module.EveryHead P) (Act.meets_mapError.2 ?_)
  refine (Build.declare_meets name sig linkage b).mono (fun id t ht => ?_) fun e t ht => ?_
  · obtain ⟨m, hdecl, rfl⟩ := ht
    exact hb.declare hdecl hnew
  · rw [ht.1]
    exact hb

theorem heading_call (callee : FuncId) (args : List Value) :
    (heading P).Twin Eq (liftM (Build.call callee args) : Emit Value)
      (liftM (Build.call callee args)) :=
  heading_value (.call callee args) rfl rfl

theorem heading_primitives (hruntime : ∀ q ∈ Distribution.runtime, P q.1 q.2 .external) :
    Emit.Primitives (heading P) where
  plain := heading_plain
  strict h := h
  arith op x y := heading_value (.arith op x y) rfl rfl
  cmp pred x y := heading_value (.cmp pred x y) rfl rfl
  neg x := heading_value (.neg x) rfl rfl
  not x := heading_value (.not x) rfl rfl
  cast op x := heading_value (.cast op x) rfl rfl
  vector lanes := heading_value (.vector lanes) rfl rfl
  splat x lanes := heading_value (.splat x lanes) rfl rfl
  callIntrinsic hname args :=
    .bind (heading_declare (hruntime _ hname) _) fun callee => heading_call callee args

theorem heading_pairing (hruntime : ∀ q ∈ Distribution.runtime, P q.1 q.2 .external) :
    Emit.Pairing .builtins (heading P) Eq where
  plain := heading_plain
  currentFunction := heading_still fun _ => Build.cursor_meets.bind fun _ _ ht => ht.1
  function {f _} h := h ▸ (heading_still (x := Build.function f) fun _ =>
    (Build.function_meets f).mono (fun _ _ h => h.1) fun _ _ h => h).mono
      fun _ _ h => h ▸ ⟨rfl, rfl, rfl⟩
  currentBlock := heading_still fun _ => Build.cursor_meets.bind fun _ _ ht => ht.1
  appendBlock {f _} h label := h ▸ heading_value (.appendBlock f label) rfl rfl
  moveTo {f _} h block := h ▸ heading_effect (.moveTo f block) rfl
  br target := heading_effect (.br target) rfl
  condBr c t e := heading_effect (.condBr c t e) rfl
  ret v := heading_effect (.ret v) rfl
  unreachable := heading_effect .unreachable rfl
  phi ty incoming := heading_value (.phi ty incoming) rfl rfl
  alloca ty name := heading_value (.alloca ty name) rfl rfl
  load p := heading_value (.load p) rfl rfl
  store v p := heading_effect (.store v p) rfl
  -- The hooks declare functions of the runtime and nothing else.
  applyBinary := (heading_primitives hruntime).applyBinary
  unary := (heading_primitives hruntime).unary_hook
  construct := (heading_primitives hruntime).construct
  defaultValue := (heading_primitives hruntime).defaultValue
  copy := (heading_primitives hruntime).copy
  destroy := (heading_primitives hruntime).destroy

end Emit

namespace Lower

variable {P : String → Signature → Linkage → Prop} {options : Options}

theorem heading_plain : (heading P).Plain := Act.Bond.keeping_plain

theorem heading_emit {α β : Type} {A : α → β → Prop} {x : Emit α} {y : Emit β}
    (hx : (Shading.heading P).Twin A x y) : (heading P).Twin A (Lower.emit x) (Lower.emit y) := by
  refine hx.onPart (fun w w' hw => ⟨by rw [hw.1], hw.2⟩) (fun w w' b b' hw hb => ?_)
    Emit.heading_plain id fun _ _ _ _ h => h
  exact ⟨by rw [hw.1, hb.1], hb.2⟩

/-- What leaves the builder alone declares nothing. -/
theorem heading_modify {g : Work → Work} (hg : ∀ w, (g w).builder = w.builder) :
    (heading P).Twin Eq (modify g : Lower PUnit) (modify g : Lower PUnit) := by
  refine .of_keeps fun w hw => ?_
  show (g w).builder.module.EveryHead P
  rw [hg]
  exact hw

theorem heading_lowering (hruntime : ∀ q ∈ Distribution.runtime, P q.1 q.2 .external) :
    Lower.Pairing .builtins options options (heading P) (Shading.heading P) Eq Eq where
  builds := Emit.heading_pairing hruntime
  exprs h := h ▸ {
    toPairing := Emit.heading_pairing hruntime
    scopes := rfl
    coerce := (Emit.heading_primitives hruntime).coerce _
    call := fun _ _ _ _ hargs => .bind hargs fun xs => .bind (.ofExcept _) fun _ =>
      .bind (.ofExcept _) fun _ => .bind ((Emit.heading_primitives hruntime).convertArgs xs _)
        fun _ => .bind (Emit.heading_call _ _) fun _ =>
        .bind (.forM (Emit.heading_pairing hruntime).release) fun _ => .pure rfl }
  control h := h ▸ rfl
  emit := heading_emit
  symbols h := by rw [h.1]
  isTerminated h := by rw [h.1]
  locally h g c := ⟨by rw [h.1], h.2⟩
  aheadLocally h := h.elim
  total := .inr heading_plain
  dropUnreachable span := by
    unfold Lower.dropUnreachable
    cases options.unreachable with
    | error => exact .throw _
    | warn =>
      refine .bind (.of_keeps fun _ hw => hw) fun s => heading_modify fun _ => rfl

/-! ## Items -/

theorem heading_bind_symbols {α : Type} {k : Symbols → Lower α}
    (hk : ∀ s, (heading P).Twin Eq (k s) (k s)) :
    (heading P).Twin Eq (symbols >>= k) (symbols >>= k) :=
  .bind (.of_keeps fun _ hw => hw) hk

theorem heading_lift {α : Type} {x : Build α}
    (hx : (Shading.heading P).Twin Eq (liftM x : Emit α) (liftM x)) :
    (heading P).Twin Eq (liftM x : Lower α) (liftM x : Lower α) :=
  heading_emit hx

theorem heading_declare {p : Prototype}
    (hp : ∀ symbol sig, p.irName .builtins = .ok symbol → p.irSignature .builtins = .ok sig →
      P symbol sig p.linkage) :
    (heading P).Twin Eq (declare .builtins p) (declare .builtins p) := by
  refine heading_bind_symbols fun s => .bind (.ofExcept _) fun found => ?_
  cases found with
  | some id => exact .pure rfl
  | none =>
    refine .ofExcept_bind fun symbol hsymbol => .ofExcept_bind fun sig hsig => ?_
    refine .bind (heading_emit (Emit.heading_declare (hp symbol sig hsymbol hsig) _)) fun func => ?_
    exact .bind (heading_modify fun _ => rfl) fun _ => .pure rfl

theorem heading_function (hruntime : ∀ q ∈ Distribution.runtime, P q.1 q.2 .external)
    (hlocal : ∀ symbol sig linkage, symbol ∉ Distribution.symbols → P symbol sig linkage)
    (decl : FunctionDecl) :
    (heading P).Twin Eq (Lower.function ⟨.builtins, options⟩ decl)
      (Lower.function ⟨.builtins, options⟩ decl) := by
  refine .ofExcept_bind fun p hp => ?_
  unfold Act.refuseIf
  by_cases hext : p.isExternal = true
  · rw [if_pos hext]
    exact .throw _
  · rw [if_neg hext]
    have hsymbol := Prototype.isExternal_eq_false.1 (eq_false_of_ne_true hext)
    -- A function with a body has a symbol of its own, which is none of the runtime.
    have hdeclare : (heading P).Twin Eq (declare .builtins p) (declare .builtins p) :=
      heading_declare fun symbol sig hname _ => hlocal symbol sig _
        (Prototype.irName_notMem_symbols hname fun s hs => by cases hsymbol.symm.trans hs)
    refine .bind (.pure rfl) fun _ => .bind hdeclare fun id => heading_bind_symbols fun s => ?_
    refine .bind (.ofExcept _) fun e => heading_bind_symbols fun s' => ?_
    refine .bind (.ofExcept _) fun functions => .bind (heading_modify fun _ => rfl) fun _ => ?_
    refine .tryCatch ?_ heading_plain (fun h => h) fun fault => ?_
    · refine .bind ((heading_lowering hruntime).frameBody rfl p decl) fun _ => ?_
      exact .bind (heading_lift (Emit.heading_effect .leave rfl)) fun _ =>
        .pure rfl
    · refine .bind (heading_lift (Emit.heading_effect .leave rfl)) fun _ => ?_
      refine heading_bind_symbols fun _ => .bind (heading_modify fun _ => rfl) fun _ => ?_
      exact .bind (heading_lift (Emit.heading_effect (.clearBody e.func) rfl))
        fun _ => .throw _

theorem heading_prototype {decl : PrototypeDecl}
    (hdecl : ∀ p symbol sig, Prototype.ofDecl .builtins decl = .ok p →
      p.irName .builtins = .ok symbol → p.irSignature .builtins = .ok sig →
      P symbol sig p.linkage) :
    (heading P).Twin Eq (declarePrototype ⟨.builtins, options⟩ decl)
      (declarePrototype ⟨.builtins, options⟩ decl) :=
  .ofExcept_bind fun p hp => heading_declare fun symbol sig hname hsig =>
    hdecl p symbol sig hp hname hsig

end Lower

/-! ## Sessions -/

/-- A prototype of some units links to a symbol with some signature. -/
def SourceUnit.Links (units : List SourceUnit) (symbol : String) (sig : Signature) : Prop :=
  ∃ u ∈ units, ∃ decl p, Item.prototype decl ∈ u.items ∧ decl.symbol = some symbol ∧
    Prototype.ofDecl .builtins decl = .ok p ∧ p.irSignature .builtins = .ok sig

/-- A head with a symbol of the runtime is external, and has the signature of
    that function or one that a prototype gave it. -/
def SourceUnit.Admits (units : List SourceUnit) (symbol : String) (sig : Signature)
    (linkage : Linkage) : Prop :=
  ∀ q ∈ Distribution.runtime, symbol = q.1 →
    linkage = .external ∧ (sig = q.2 ∨ Links units symbol sig)

namespace SourceUnit

variable {units : List SourceUnit}

theorem admits_runtime : ∀ q ∈ Distribution.runtime, Admits units q.1 q.2 .external := by
  intro q hq r hr heq
  exact ⟨rfl, .inl (congrArg Prod.snd (Distribution.runtime_injective hq hr heq))⟩

theorem admits_of_notMem {symbol : String} (h : symbol ∉ Distribution.symbols) (sig : Signature)
    (linkage : Linkage) : Admits units symbol sig linkage := by
  rintro q hq rfl
  exact absurd (Distribution.runtime_symbols ▸ List.mem_map_of_mem hq) h

/-- A prototype of the units declares what it links to. -/
theorem admits_prototype {u : SourceUnit} (hu : u ∈ units) {decl : PrototypeDecl}
    (hitem : Item.prototype decl ∈ u.items) {p : Prototype} {symbol : String} {sig : Signature}
    (hp : Prototype.ofDecl .builtins decl = .ok p) (hname : p.irName .builtins = .ok symbol)
    (hsig : p.irSignature .builtins = .ok sig) : Admits units symbol sig p.linkage := by
  -- A mangled name is no symbol of the runtime; a given symbol comes with its prototype.
  cases hs : p.symbol with
  | none =>
    refine admits_of_notMem (Prototype.irName_notMem_symbols hname fun s hs' => ?_) sig _
    cases hs.symm.trans hs'
  | some s =>
    obtain rfl : s = symbol := by
      unfold Prototype.irName at hname
      rw [hs] at hname
      exact Except.ok.inj hname
    have hlinkage : p.linkage = .external := by
      unfold Prototype.linkage Prototype.isExternal
      rw [hs]
      rfl
    intro q _ _
    exact ⟨hlinkage,
      .inr ⟨u, hu, decl, p, hitem, (Prototype.ofDecl_symbol hp).symm.trans hs, hp, hsig⟩⟩

end SourceUnit

theorem Progress.step_heads {units : List SourceUnit} {u : SourceUnit} (hu : u ∈ units) {item : Item}
    (hitem : item ∈ u.items) (p : Progress)
    (h : p.work.builder.module.EveryHead (SourceUnit.Admits units)) :
    (p.step u.env item).work.builder.module.EveryHead (SourceUnit.Admits units) := by
  rw [(p.step_work u.env item).1]
  cases item with
  | prototype decl =>
    unfold Progress.lowerItem
    rw [Act.run_discard_state]
    exact (Lower.heading_prototype fun _ _ _ hp hname hsig =>
      SourceUnit.admits_prototype hu hitem hp hname hsig).keeps h
  | function decl =>
    unfold Progress.lowerItem
    rw [Act.run_discard_state]
    exact (Lower.heading_function SourceUnit.admits_runtime
      (fun _ sig linkage hsymbol => SourceUnit.admits_of_notMem hsymbol sig linkage) decl).keeps h

theorem session_heads (name : String) (units : List SourceUnit) :
    (session (.empty name) units).work.builder.module.EveryHead (SourceUnit.Admits units) := by
  refine (session_induction (I := fun w => w.builder.module.EveryHead (SourceUnit.Admits units))
    (fun f hf => ?_) (fun _ _ h => h) fun u hu item hitem p _ h => p.step_heads hu hitem h).2
  cases hf

/-- However many units are compiled into a module that was empty, and after
    each of their items, since any items may be the last ones: a function with
    a symbol of the runtime is external, and its signature is the one that the
    runtime has, unless a prototype of the units links to that symbol with the
    signature that the function has instead. -/
theorem session_runtime_symbols (name : String) (units : List SourceUnit) {f : Function}
    (hf : f ∈ (session (.empty name) units).work.builder.module.functions)
    {symbol : String} {sig : Signature} (hsymbol : (symbol, sig) ∈ Distribution.runtime)
    (hname : f.name = symbol) :
    f.linkage = .external ∧ (f.signature = sig ∨
      ∃ u ∈ units, ∃ decl p, Item.prototype decl ∈ u.items ∧ decl.symbol = some symbol ∧
        Prototype.ofDecl .builtins decl = .ok p ∧ p.irSignature .builtins = .ok f.signature) := by
  obtain ⟨hlinkage, hsig⟩ := session_heads name units f hf (symbol, sig) hsymbol hname
  exact ⟨hlinkage, hname ▸ hsig⟩

/-- A prototype that links to a symbol, and a function that returns the
    distribution that it is given and so copies it. -/
def linkAndCopy (symbol : String) : List SourceUnit :=
  let name (s : String) : Ident := ⟨s, .unknown⟩
  let ty (s : String) : TypeName := ⟨s, .unknown⟩
  [⟨.default, [
    .prototype ⟨name "f", some symbol, ty "int", [⟨name "a", ty "int", .unknown⟩], .unknown⟩,
    .function {
      prototype := ⟨name "g", none, ty "dfunc", [⟨name "d", ty "dfunc", .unknown⟩], .unknown⟩
      body := [.ret (some (.var (name "d"))) .unknown]
      bodySpan := .unknown }]⟩]

/-- A prototype may take a symbol of the runtime, with a signature of its own;
    then distributions can no longer be copied. -/
theorem linked_symbol_differs_from_runtime :
    (Distribution.copySymbol, ⟨[Distribution.ty], Distribution.ty⟩) ∈ Distribution.runtime ∧
      ∃ f ∈ (session (.empty "scene") (linkAndCopy Distribution.copySymbol)).work.builder.module.functions,
        f.name = Distribution.copySymbol ∧ f.signature = ⟨[.i32], .i32⟩ ∧
        (session (.empty "scene") (linkAndCopy Distribution.copySymbol)).failed = ["g"] := by
  refine ⟨by decide, ⟨Distribution.copySymbol, ⟨[.i32], .i32⟩, .external, [], []⟩, ?_, rfl, rfl, ?_⟩
  · decide +kernel
  · decide +kernel

/-- A prototype that takes another symbol leaves the copying of distributions
    as the runtime has it. -/
theorem linked_library_spares_runtime :
    ∃ f ∈ (session (.empty "scene") (linkAndCopy "lib")).work.builder.module.functions,
      f.name = Distribution.copySymbol ∧ f.linkage = .external ∧
      (f.signature = ⟨[Distribution.ty], Distribution.ty⟩ ∨
        ∃ u ∈ linkAndCopy "lib", ∃ decl p, Item.prototype decl ∈ u.items ∧
          decl.symbol = some Distribution.copySymbol ∧ Prototype.ofDecl .builtins decl = .ok p ∧
          p.irSignature .builtins = .ok f.signature) := by
  have hf : ⟨Distribution.copySymbol, ⟨[Distribution.ty], Distribution.ty⟩, .external, [], []⟩ ∈
      (session (.empty "scene") (linkAndCopy "lib")).work.builder.module.functions := by
    decide +kernel
  exact ⟨_, hf, rfl, session_runtime_symbols "scene" (linkAndCopy "lib") hf (by decide) rfl⟩

end Shading
