import Shading.Proofs.TwinHooks
import Shading.Proofs.TwinModules

/-! # Builders side by side

    One function is lowered into two modules that stand side by side.  What
    the builders look at is the same on both sides, so each instruction that
    one of them adds has its twin, and so has everything that lowering does to
    a builder (`Joint.pairing`).  The positions of functions differ, and a
    function of the runtime may have to be declared on one side only. -/

namespace Shading

open IR

variable {c c' : FuncId} {op op' : Op} {name : String} {β : Type}

/-- A function that is lowered into two modules. -/
structure Joint where
  /-- Its positions in the two modules. -/
  left : FuncId
  right : FuncId
  /-- The functions that it may call, by their positions. -/
  callees : FuncId → FuncId → Prop
  /-- The local functions with these symbols are not compared. -/
  excepted : String → Prop
  /-- The symbols that are declared, beside those of the runtime. -/
  declared : String → Prop

namespace Joint

variable {J : Joint} {b b' : Builder} {α : Type} {ε : Type}

/-- The builders stand in the two functions, in the same block, or they stand
    nowhere. -/
structure Agrees (J : Joint) (b b' : Builder) : Prop where
  modules : b.module.Beside J.excepted b'.module
  declared : ∀ s ∈ b.module.symbols, s ∉ Distribution.symbols → J.declared s
  callees : ∀ c c', J.callees c c' → b.module.Matches b'.module c c'
  here : ∃ f f', b.module.function? J.left = some f ∧ b'.module.function? J.right = some f' ∧
    f'.name = f.name ∧ f.Compared J.excepted
  func : ∀ c, b.cursor = some c → c.func = J.left
  cursor : b'.cursor = b.cursor.map fun c => ⟨J.right, c.block⟩

/-- Both runs go on or are refused alike. -/
def bond (J : Joint) (ε : Type) : Act.Bond Builder ε := ⟨J.Agrees, fun _ _ _ => False, False⟩

theorem bond_plain : (J.bond ε).Plain := fun _ _ _ h => h

namespace Agrees

/-- The two functions have the same body. -/
theorem bodies (h : J.Agrees b b') : ∃ f f', b.module.function? J.left = some f ∧
    b'.module.function? J.right = some f' ∧ f.Like (b.module.Matches b'.module) f' := by
  obtain ⟨f, f', hf, hf', hname, hcompared⟩ := h.here
  exact ⟨f, f', hf, hf', h.modules.bodies hf hf' hname hcompared⟩

/-- The two functions are changed in the same way. -/
theorem update (h : J.Agrees b b') {g g' : Function → Function}
    (hg : ∀ F : Function, F.SameHead (g F)) (hg' : ∀ F : Function, F.SameHead (g' F))
    (hlike : ∀ f f' : Function, f.Like (b.module.Matches b'.module) f' →
      (g f).Like (b.module.Matches b'.module) (g' f')) :
    J.Agrees { b with module := b.module.update J.left g }
      { b' with module := b'.module.update J.right g' } := by
  have hsymbols := b.module.symbols_update J.left g
  have hsymbols' := b'.module.symbols_update J.right g'
  obtain ⟨f, f', hf, hf', hname, hcompared⟩ := h.here
  -- Only the bodies change, so what is compared by name stays comparable.
  have hbodies := h.modules.bodies hf hf' hname hcompared
  refine ⟨h.modules.update hf hf' hname hg hg' fun _ => hlike f f' hbodies, ?_, ?_, ?_, h.func,
    h.cursor⟩
  · rw [hsymbols]
    exact h.declared
  · intro c c' hc
    refine (h.callees c c' hc).mono ?_ ?_
    · rw [hsymbols]
    · rw [hsymbols']
  · refine ⟨g f, g' f', ?_, ?_, ?_, (hg f).compared.2 hcompared⟩
    · exact Module.update_function?_eq hf (hg f).withBodyOf
    · exact Module.update_function?_eq hf' (hg' f').withBodyOf
    · rw [(hg' f').name, (hg f).name, hname]

end Agrees

/-! ## Where the builders stand -/

theorem cursor_twin : (J.bond Error).Twin
    (fun c c' => c.func = J.left ∧ c' = ⟨J.right, c.block⟩) Build.cursor Build.cursor := by
  have hrun : ∀ b : Builder,
      Build.cursor.run b = (b.cursor.elim (.error .noInsertPoint) .ok, b) := by
    rintro ⟨m, c⟩
    cases c <;> rfl
  refine ⟨fun b b' h => ?_, fun _ _ _ h => h.elim⟩
  -- Either both builders stand in a block or none does.
  rw [hrun, hrun, h.cursor]
  cases hc : b.cursor with
  | none => exact .refused h
  | some c => exact .answered ⟨h.func c hc, rfl⟩ h

/-- The continuations read the cursor as one of the two functions. -/
theorem bind_cursor {A : α → β → Prop} {k : Cursor → Build α} {l : Cursor → Build β}
    (hk : ∀ block, (J.bond Error).Twin A (k ⟨J.left, block⟩) (l ⟨J.right, block⟩)) :
    (J.bond Error).Twin A (Build.cursor >>= k) (Build.cursor >>= l) := by
  refine .bind_rel cursor_twin (.inr bond_plain) ?_
  rintro ⟨func, block⟩ _ ⟨rfl, rfl⟩
  exact hk block

theorem function_twin : (J.bond Error).Twin (Function.Like fun _ _ => True)
    (Build.function J.left) (Build.function J.right) := by
  refine ⟨fun b b' h => ?_, fun _ _ _ h => h.elim⟩
  obtain ⟨f, f', hf, hf', hlike⟩ := h.bodies
  show Act.Bond.Outcome _ _ (b.module.function J.left, b) (b'.module.function J.right, b')
  rw [Module.function_eq_ok.2 hf, Module.function_eq_ok.2 hf']
  exact .answered (hlike.mono fun _ _ _ => trivial) h

theorem bind_function {A : α → β → Prop} {k : Function → Build α} {l : Function → Build β}
    (hk : ∀ f f' : Function, f.Like (fun _ _ => True) f' → (J.bond Error).Twin A (k f) (l f')) :
    (J.bond Error).Twin A (Build.function J.left >>= k) (Build.function J.right >>= l) :=
  .bind_rel function_twin (.inr bond_plain) hk

theorem current_twin : (J.bond Error).Twin (Function.Like fun _ _ => True) Build.current
    Build.current :=
  bind_cursor fun _ => function_twin

theorem currentFunction_twin : (J.bond Error).Twin (fun f f' => f = J.left ∧ f' = J.right)
    Build.currentFunction Build.currentFunction :=
  bind_cursor fun _ => .pure ⟨rfl, rfl⟩

theorem currentBlock_twin : (J.bond Error).Twin Eq Build.currentBlock Build.currentBlock :=
  bind_cursor fun _ => .pure rfl

theorem moveTo_twin (block : BlockId) :
    (J.bond Error).Twin Eq (Build.moveTo J.left block) (Build.moveTo J.right block) := by
  refine .modify (fun b b' h => ⟨h.modules, h.declared, h.callees, h.here, ?_, rfl⟩)
    fun _ _ _ h => h
  rintro c ⟨⟩
  rfl

theorem update_twin {g g' : Function → Function} (hg : ∀ F : Function, F.SameHead (g F))
    (hg' : ∀ F : Function, F.SameHead (g' F))
    (hlike : ∀ b b', J.Agrees b b' → ∀ f f' : Function, f.Like (b.module.Matches b'.module) f' →
      (g f).Like (b.module.Matches b'.module) (g' f')) :
    (J.bond Error).Twin Eq (Build.update J.left g) (Build.update J.right g') :=
  .modify (fun b b' h => h.update hg hg' (hlike b b' h)) fun _ _ _ h => h

theorem appendBlock_twin (label : String) :
    (J.bond Error).Twin Eq (Build.appendBlock J.left label) (Build.appendBlock J.right label) := by
  refine bind_function fun f f' hf => ?_
  rw [hf.blocks]
  refine .bind (update_twin (fun _ => ⟨rfl, rfl, rfl⟩) (fun _ => ⟨rfl, rfl, rfl⟩) ?_) fun _ =>
    .pure rfl
  exact fun _ _ _ _ _ hlike => hlike.addBlock _

/-! ## Instructions -/

theorem valueType_twin (v : Value) :
    (J.bond Error).Twin Eq (Build.valueType v) (Build.valueType v) := by
  refine .bind_rel current_twin (.inr bond_plain) fun f f' hf => ?_
  rw [hf.valueType v]
  exact .ofExcept _

theorem expect_twin (v : Value) (ty : Ty) (context : String) :
    (J.bond Error).Twin Eq (Build.expect v ty context) (Build.expect v ty context) :=
  .bind (valueType_twin v) fun _ => .refuseIf _ _

theorem pointee_twin (p : Value) (context : String) :
    (J.bond Error).Twin Eq (Build.pointee p context) (Build.pointee p context) := by
  refine .bind (valueType_twin p) fun found => ?_
  cases found.pointee? with
  | some t => exact .pure rfl
  | none => exact .throw _

/-- An instruction is added on both sides. -/
theorem emit_twin (hop : ∀ b b', J.Agrees b b' → op.Like (b.module.Matches b'.module) op')
    (ty : Ty) : (J.bond Error).Twin Eq (Build.emit op ty) (Build.emit op' ty) := by
  refine bind_cursor fun block => bind_function fun f f' hf => ?_
  rw [hf.isTerminated, hf.block?, ← hf.insts.length_eq]
  refine .bind (.refuseIf _ _) fun _ => .bind (update_twin (fun _ => ⟨rfl, rfl, rfl⟩)
    (fun _ => ⟨rfl, rfl, rfl⟩) fun b b' h _ _ hlike => ?_) fun _ => .pure rfl
  have hinst : (⟨op, ty, none⟩ : Inst).Like (b.module.Matches b'.module) ⟨op', ty, none⟩ :=
    ⟨hop b b' h, rfl, rfl⟩
  exact hlike.pushInst hinst block

theorem emitSame_twin (hop : ∀ c, op.calls c = false) (ty : Ty) :
    (J.bond Error).Twin Eq (Build.emit op ty) (Build.emit op ty) :=
  emit_twin (fun _ _ _ => .same hop) ty

theorem emitValue_twin (hop : ∀ c, op.calls c = false) (ty : Ty) :
    (J.bond Error).Twin Eq (Build.emitValue op ty) (Build.emitValue op ty) :=
  .bind (emitSame_twin hop ty) fun _ => .pure rfl

theorem emitVoid_twin (hop : ∀ c, op.calls c = false) :
    (J.bond Error).Twin Eq (Build.emitVoid op) (Build.emitVoid op) :=
  .bind (emitSame_twin hop .void) fun _ => .pure rfl

theorem alloca_twin (ty : Ty) (name : String) :
    (J.bond Error).Twin Eq (Build.alloca ty name) (Build.alloca ty name) := by
  unfold Build.alloca
  cases ty.size? with
  | none => exact .throw _
  | some size =>
    refine bind_cursor fun block => bind_function fun f f' hf => ?_
    rw [hf.leadingAllocas, ← hf.insts.length_eq]
    refine .bind (update_twin (fun _ => ⟨rfl, rfl, rfl⟩) (fun _ => ⟨rfl, rfl, rfl⟩)
      fun _ _ _ _ _ hlike => ?_) fun _ => .pure rfl
    exact hlike.insertInst ⟨.same (fun _ => rfl), rfl, rfl⟩ 0 _

theorem load_twin (p : Value) : (J.bond Error).Twin Eq (Build.load p) (Build.load p) :=
  .bind (pointee_twin p _) fun _ => emitValue_twin (fun _ => rfl) _

theorem store_twin (v p : Value) : (J.bond Error).Twin Eq (Build.store v p) (Build.store v p) :=
  .bind (pointee_twin p _) fun _ => .bind (expect_twin v _ _) fun _ => emitVoid_twin (fun _ => rfl)

theorem arith_twin (op : ArithOp) (l r : Value) :
    (J.bond Error).Twin Eq (Build.arith op l r) (Build.arith op l r) :=
  .bind (valueType_twin l) fun _ => .bind (expect_twin r _ _) fun _ =>
    .bind (.refuseIf _ _) fun _ => emitValue_twin (fun _ => rfl) _

theorem cmp_twin (pred : CmpPred) (l r : Value) :
    (J.bond Error).Twin Eq (Build.cmp pred l r) (Build.cmp pred l r) := by
  refine .bind (valueType_twin l) fun ty => .bind (expect_twin r _ _) fun _ => ?_
  cases ty with
  | f32 | i32 | bool => exact emitValue_twin (fun _ => rfl) _
  | _ => exact .throw _

theorem neg_twin (v : Value) : (J.bond Error).Twin Eq (Build.neg v) (Build.neg v) :=
  .bind (valueType_twin v) fun _ => .bind (.refuseIf _ _) fun _ => emitValue_twin (fun _ => rfl) _

theorem not_twin (v : Value) : (J.bond Error).Twin Eq (Build.not v) (Build.not v) :=
  .bind (expect_twin v _ _) fun _ => emitValue_twin (fun _ => rfl) _

theorem cast_twin (op : CastOp) (v : Value) :
    (J.bond Error).Twin Eq (Build.cast op v) (Build.cast op v) :=
  .bind (expect_twin v _ _) fun _ => emitValue_twin (fun _ => rfl) _

theorem vector_twin (lanes : List Value) :
    (J.bond Error).Twin Eq (Build.vector lanes) (Build.vector lanes) :=
  .bind (.forM fun v => expect_twin v _ _) fun _ => emitValue_twin (fun _ => rfl) _

theorem splat_twin (v : Value) (lanes : UInt8) :
    (J.bond Error).Twin Eq (Build.splat v lanes) (Build.splat v lanes) :=
  .bind (expect_twin v _ _) fun _ => emitValue_twin (fun _ => rfl) _

theorem phi_twin (ty : Ty) (incoming : List (Value × BlockId)) :
    (J.bond Error).Twin Eq (Build.phi ty incoming) (Build.phi ty incoming) :=
  .bind (.forM fun p => expect_twin p.1 _ _) fun _ => emitValue_twin (fun _ => rfl) _

theorem condBr_twin (c : Value) (t e : BlockId) :
    (J.bond Error).Twin Eq (Build.condBr c t e) (Build.condBr c t e) :=
  .bind (expect_twin c _ _) fun _ => emitVoid_twin (fun _ => rfl)

theorem ret_twin (v : Option Value) : (J.bond Error).Twin Eq (Build.ret v) (Build.ret v) := by
  refine .bind_rel current_twin (.inr bond_plain) fun f f' hf => ?_
  rw [hf.signature]
  refine .bind ?_ fun _ => emitVoid_twin (fun _ => rfl)
  cases v with
  | some v => exact expect_twin v _ _
  | none => exact .refuseIf _ _

/-! ## Calls -/

/-- Functions at related positions are called. -/
theorem call_twin (hc : J.callees c c') (args : List Value) :
    (J.bond Error).Twin Eq (Build.call c args) (Build.call c' args) := by
  have hfunction : (J.bond Error).Twin Function.SameHead (Build.function c) (Build.function c') := by
    refine ⟨fun b b' h => ?_, fun _ _ _ h => h.elim⟩
    obtain ⟨f, f', hf, hf', hname⟩ := (h.callees c c' hc).function?
    show Act.Bond.Outcome _ _ (b.module.function c, b) (b'.module.function c', b')
    rw [Module.function_eq_ok.2 hf, Module.function_eq_ok.2 hf']
    exact .answered (h.modules.heads hf hf' hname) h
  refine .bind_rel hfunction (.inr bond_plain) fun f f' hf => ?_
  rw [hf.signature, hf.name]
  refine .bind (.refuseIf _ _) fun _ => .bind (.forM fun p => expect_twin p.1 p.2 _) fun _ => ?_
  exact .bind (emit_twin (fun b b' h => .call (h.callees c c' hc) args) _) fun _ => .pure rfl

/-- One more function may be called. -/
def also (J : Joint) (c c' : FuncId) : Joint :=
  { J with callees := fun d d' => J.callees d d' ∨ (d = c ∧ d' = c') }

theorem Agrees.also (h : J.Agrees b b') (hc : b.module.Matches b'.module c c') :
    (J.also c c').Agrees b b' where
  modules := h.modules
  declared := h.declared
  callees := by
    rintro d d' (hd | ⟨rfl, rfl⟩)
    · exact h.callees d d' hd
    · exact hc
  here := h.here
  func := h.func
  cursor := h.cursor

theorem Agrees.of_also (h : (J.also c c').Agrees b b') : J.Agrees b b' :=
  { h with callees := fun d d' hd => h.callees d d' (.inl hd) }

/-- A function of the runtime is found or declared. -/
theorem declare_runtime {sig : Signature} (hname : (name, sig) ∈ Distribution.runtime)
    (hruntime : b.module.Runtime) :
    ∃ c m, Build.Declared b.module name sig .external c m ∧
      (Build.declare name sig .external).run b = (.ok c, { b with module := m }) := by
  have hmeets := Build.declare_meets name sig .external b
  rcases hrun : (Build.declare name sig .external).run b with ⟨r, t⟩
  cases r with
  | ok c =>
    obtain ⟨m, hdecl, rfl⟩ := hmeets.of_ok hrun
    exact ⟨c, m, hdecl, rfl⟩
  | error e =>
    -- The symbol would stand for a function with another head, but the runtime is intact.
    obtain ⟨-, -, id, f, hid, hf, hdiffer⟩ := hmeets.of_error hrun
    obtain ⟨g, hg, hgname⟩ := Module.name_of_find? hid
    obtain rfl : f = g := Option.some.inj (hf.symm.trans hg)
    obtain ⟨hsig, hlinkage⟩ := hruntime f (List.mem_of_getElem? hf) _ hname hgname
    rcases hdiffer with hdiffer | hdiffer
    · exact absurd hsig hdiffer
    · exact absurd hlinkage hdiffer

theorem Agrees.declareRuntime (h : J.Agrees b b') {sig : Signature} {m m' : Module}
    (hname : (name, sig) ∈ Distribution.runtime)
    (hdecl : Build.Declared b.module name sig .external c m)
    (hdecl' : Build.Declared b'.module name sig .external c' m') :
    J.Agrees { b with module := m } { b' with module := m' } where
  -- One side after the other: a function of the runtime is never compared.
  modules := ((h.modules.declareRuntime hname hdecl).symm.declareRuntime hname hdecl').symm
  declared s hs hruntime := by
    cases hdecl with
    | found => exact h.declared s hs hruntime
    | added =>
      rw [Module.symbols_add, List.mem_append, List.mem_singleton] at hs
      refine h.declared s (hs.resolve_right ?_) hruntime
      rintro rfl
      exact hruntime (Distribution.runtime_symbols ▸ List.mem_map_of_mem hname)
  callees d d' hd := (h.callees d d' hd).mono hdecl.symbols_prefix hdecl'.symbols_prefix
  here := by
    obtain ⟨f, f', hf, hf', hsame, hcompared⟩ := h.here
    exact ⟨f, f', hdecl.keeps hf, hdecl'.keeps hf', hsame, hcompared⟩
  func := h.func
  cursor := h.cursor

/-- Actions on builders, with the faults of the language. -/
theorem lift {A : α → β → Prop} {x : Build α} {y : Build β} (h : (J.bond Error).Twin A x y) :
    (J.bond Fault).Twin A (liftM x : Emit α) (liftM y : Emit β) := by
  have hplain : (J.bond Fault).Plain := bond_plain
  exact h.mapError bond_plain hplain (fun _ _ => Iff.rfl) id _

/-- The runtime is called.  Its function may have to be declared, in one
    module or in both, and may be called only then. -/
theorem callIntrinsic_twin {params : List Ty} {ret : Ty}
    (hname : (name, ⟨params, ret⟩) ∈ Distribution.runtime) (args : List Value) :
    (J.bond Fault).Twin Eq (Emit.callIntrinsic name params ret args)
      (Emit.callIntrinsic name params ret args) := by
  refine ⟨fun b b' h => ?_, fun _ _ _ h => h.elim⟩
  obtain ⟨c, m, hdecl, hrun⟩ := declare_runtime hname h.modules.runtime
  obtain ⟨c', m', hdecl', hrun'⟩ := declare_runtime hname h.modules.runtime'
  have hmatch : m.Matches m' c c' := by
    obtain ⟨f, hf, hfname, -, -⟩ := hdecl.declares
    obtain ⟨f', hf', hfname', -, -⟩ := hdecl'.declares
    exact .of_function? hf hf' (hfname'.trans hfname.symm)
  have hagree := (h.declareRuntime hname hdecl hdecl').also hmatch
  have hlift : ∀ {b t : Builder} {a : FuncId},
      (Build.declare name ⟨params, ret⟩ .external).run b = (.ok a, t) →
      (Emit.callIntrinsic name params ret args).run b =
        (liftM (Build.call a args) : Emit Value).run t := by
    intro b t a hrun
    unfold Emit.callIntrinsic Emit.intrinsic
    rw [Act.run_bind, show (liftM (Build.declare name ⟨params, ret⟩ .external) : Emit FuncId) =
      Act.mapError IR.Error.toFault (Build.declare name ⟨params, ret⟩ .external) from rfl,
      Act.run_mapError, hrun]
  rw [hlift hrun, hlift hrun']
  -- Only behind the declaration is there a pair of positions to call.
  have hcall := (lift (call_twin (J := J.also c c') (.inr ⟨rfl, rfl⟩) args)).outcome _ _ hagree
  generalize (liftM (Build.call c args) : Emit Value).run _ = p at hcall
  generalize (liftM (Build.call c' args) : Emit Value).run _ = q at hcall
  cases hcall with
  | answered ha hend => exact .answered ha hend.of_also
  | refused hend => exact .refused hend.of_also
  | ahead hahead => exact hahead.elim
  | excused hlenient => exact hlenient.elim

/-- The operations that types are made of have their twins. -/
theorem primitives (J : Joint) : Emit.Primitives (J.bond Fault) where
  plain := bond_plain
  strict h := h
  arith op x y := lift (arith_twin op x y)
  cmp pred x y := lift (cmp_twin pred x y)
  neg x := lift (neg_twin x)
  not x := lift (not_twin x)
  cast op x := lift (cast_twin op x)
  vector lanes := lift (vector_twin lanes)
  splat x lanes := lift (splat_twin x lanes)
  callIntrinsic := callIntrinsic_twin

/-- What lowering does to a builder has its twin. -/
theorem pairing (J : Joint) :
    Emit.Pairing .builtins (J.bond Fault) fun f f' => f = J.left ∧ f' = J.right where
  plain := bond_plain
  currentFunction := lift currentFunction_twin
  function := by
    rintro f f' ⟨rfl, rfl⟩
    exact lift (function_twin.mono fun _ _ h => h.sameChecks)
  currentBlock := lift currentBlock_twin
  appendBlock := by
    rintro f f' ⟨rfl, rfl⟩ label
    exact lift (appendBlock_twin label)
  moveTo := by
    rintro f f' ⟨rfl, rfl⟩ block
    exact lift (moveTo_twin block)
  br _ := lift (emitVoid_twin fun _ => rfl)
  condBr c t e := lift (condBr_twin c t e)
  ret v := lift (ret_twin v)
  unreachable := lift (emitVoid_twin fun _ => rfl)
  phi ty incoming := lift (phi_twin ty incoming)
  alloca ty name := lift (alloca_twin ty name)
  load p := lift (load_twin p)
  store v p := lift (store_twin v p)
  applyBinary := J.primitives.applyBinary
  unary := J.primitives.unary_hook
  construct := J.primitives.construct
  defaultValue := J.primitives.defaultValue
  copy := J.primitives.copy
  destroy := J.primitives.destroy

end Joint

end Shading
