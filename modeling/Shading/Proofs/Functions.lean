import Mathlib.Data.List.Forall2
import Shading.Proofs.Faults
import Shading.Proofs.Graphs
import Shading.Proofs.Statements

/-! # Lowering functions

    A function that has no body gets one: the code of its arguments, of its
    statements and of its end, from the entry block on.  Main result: a
    lowered body is translated (`Lower.function_compiles`). -/

namespace Shading

open IR

variable {func : FuncId} {p : Prototype} {w w' w₁ w₂ : Work} {options : Options}
    {S S' S₁ S₂ S₃ : Site func} {f : Function} {id : EntryId} {types : TypeTable} {u : Unit}
    {decl : FunctionDecl} {top top' : List Slot} {T : Code} {base index : Nat}
    {outer : List (List Slot)} {ret : TypeId} {span : Span} {stmts : List Stmt}

/-- Nothing has been compiled yet. -/
def Work.initial (name : String) : Work := ⟨.start (.empty name), .empty, []⟩

/-! ## Heads -/

theorem Except.mapM_eq_ok {ε α β : Type} {f : α → Except ε β} {as : List α} :
    ∀ {bs : List β}, as.mapM f = .ok bs → List.Forall₂ (fun a b => f a = .ok b) as bs := by
  induction as with
  | nil =>
    intro bs h
    cases h
    exact .nil
  | cons a as ih =>
    intro bs h
    rw [List.mapM_cons] at h
    obtain ⟨b, hb, h⟩ := Except.bind_eq_ok h
    obtain ⟨bs', hbs, h⟩ := Except.bind_eq_ok h
    cases h
    exact .cons hb (ih hbs)

theorem Prototype.ofDecl_name {head : PrototypeDecl} (h : ofDecl types head = .ok p) :
    p.name = head.name.name := by
  obtain ⟨ret, -, h⟩ := Except.bind_eq_ok h
  obtain ⟨params, -, h⟩ := Except.bind_eq_ok h
  cases h
  rfl

/-- The types of a head are those that its names mean. -/
theorem Prototype.ofDecl_eq_ok {decl : PrototypeDecl} (h : Prototype.ofDecl types decl = .ok p) :
    types.resolveName decl.ret.name decl.ret.span = .ok p.ret ∧
      List.Forall₂ (fun a param => types.resolveName a.ty.name a.ty.span = .ok param.ty ∧
        param.name = a.name.name) decl.args p.params := by
  obtain ⟨ret, hret, h⟩ := Except.bind_eq_ok h
  obtain ⟨params, hparams, h⟩ := Except.bind_eq_ok h
  cases h
  refine ⟨hret, (Except.mapM_eq_ok hparams).imp fun a param ha => ?_⟩
  obtain ⟨ty, hty, ha⟩ := Except.bind_eq_ok ha
  cases ha
  exact ⟨hty, rfl⟩

/-! ## Arguments -/

theorem Lower.bindArgument_run {p : Param} (hw : w.Stands S ret base none none (.of (top :: outer)))
    (hopen : S.Open)
    (hrun : (Lower.bindArgument ⟨.builtins, options⟩ p index).run w = (.ok u, w')) :
    ∃ (S' : Site func) (l : Lines) (a : InstId),
      w' = { w with
        builder := S'.builder
        symbols := { w.symbols with
          scopes := (.of ((⟨p.name, p.ty, .inst a, p.span, outer.length + 1⟩ :: top) :: outer)) } } ∧
      w'.Stands S' ret base none none
        (.of ((⟨p.name, p.ty, .inst a, p.span, outer.length + 1⟩ :: top) :: outer)) ∧
      Emitted none (.line l) S S' ∧ S'.Open ∧ Scopes.findIn top p.name = none ∧
      ∀ H : Host, H.Completes func S'.builder.module → ∃ shape v l₁ l₂, l = l₁ ++ l₂ ∧
        TypeTable.builtins.representation p.ty = .ok shape ∧
        FreshSlot H S.body.insts.length S'.body.insts.length shape a ∧
        CopyLine H p.ty (.arg index) v l₁ ∧ StoreLine H v (.inst a) l₂ := by
  obtain ⟨shape, w₁, hsh, hrun⟩ := Act.run_bind_eq_ok.1 hrun
  obtain ⟨hshape, rfl⟩ := Lower.ofExcept_run hsh
  obtain ⟨ptr, b, halloca, hrun⟩ := Lower.bind_build_run hrun
  rw [hw.builder] at halloca
  -- The slot comes first here, since an argument is there from the start.
  obtain ⟨S₁, rfl, he₁, rfl, hlen₁, hslot, size, hinst⟩ :=
    Build.alloca_run (t := none) hopen halloca
  have hopen₁ : S₁.Open := he₁.ends
  have hw₁ := hw.at (he₁.sound hw.sound)
  obtain ⟨v, w₂, hv, hrun⟩ := Act.run_bind_eq_ok.1 hrun
  obtain ⟨S₂, l₁, rfl, hw₂, he₂, hopen₂, hcopy⟩ :=
    hw₁.line (Lifetime.copyValue_line p.ty (.arg index)) hopen₁ hv
  obtain ⟨_, w₃, hstore, hrun⟩ := Act.run_bind_eq_ok.1 hrun
  obtain ⟨S₃, l₂, rfl, hw₃, he₃, hopen₃, hl⟩ := hw₂.line (Build.store_line v _).lift hopen₂ hstore
  obtain ⟨s, w₄, hs, hrun⟩ := Act.run_bind_eq_ok.1 hrun
  obtain ⟨rfl, rfl⟩ := Lower.symbols_run hs
  obtain ⟨scopes, w₅, hdeclare, hrun⟩ := Act.run_bind_eq_ok.1 hrun
  obtain ⟨hdecl, rfl⟩ := Lower.ofExcept_run hdeclare
  have hscopes : w.symbols.scopes = (.of (top :: outer)) := hw.scopes
  simp only [hscopes] at hdecl
  obtain ⟨rfl, hfree⟩ := Scopes.declare_eq_ok hdecl
  obtain rfl := Lower.setScopes_run hrun
  -- Reserving emits nothing into the line: it holds the copy and the store.
  have he := (he₁.append he₂).append he₃
  refine ⟨S₃, l₁ ++ l₂, S.body.insts.length, rfl, ⟨rfl, hw₃.sound, hw₃.control, rfl⟩, he, hopen₃,
    hfree, fun H hH => ?_⟩
  have hH₂ := hH.before he₃.grows
  have hH₁ := hH₂.before he₂.grows
  refine ⟨shape, v, l₁, l₂, rfl, Prototype.shape_eq_ok hshape, ⟨Nat.le_refl _, ?_, ?_, ?_⟩,
    hcopy H hH₂, hl H hH⟩
  · refine Nat.lt_of_lt_of_le ?_ (he₂.within.1.trans he₃.within.1)
    exact hlen₁ ▸ Nat.lt_succ_self _
  · exact (hH₁.extend.2.slots 0).subset hslot
  · exact Host.hasType_inst (hH₁.inst? hinst)

theorem Lower.bindArguments_run (params : List Param) : ∀ {S : Site func} {w w' : Work}
      {top : List Slot} {index : Nat} {u : PUnit},
      w.Stands S ret base none none (.of (top :: outer)) → S.Open →
      ((params.zipIdx index).forM fun q =>
        Lower.bindArgument ⟨.builtins, options⟩ q.1 q.2).run w = (.ok u, w') →
      ∃ (S' : Site func) (l : Lines) (top' : List Slot),
        w'.symbols = { w.symbols with scopes := (.of (top' :: outer)) } ∧
        w'.Stands S' ret base none none (.of (top' :: outer)) ∧ Emitted none (.line l) S S' ∧ S'.Open ∧
        ∀ H : Host, H.Completes func S'.builder.module →
          Arguments .builtins H (outer.length + 1) S.body.insts.length index top params l top'
            S'.body.insts.length := by
  -- By induction on the parameters: each one puts a slot on top of the scope.
  induction params with
  | nil =>
    intro S w w' top index u hw hopen hrun
    obtain ⟨-, rfl⟩ := Act.run_pure_eq_ok.1 hrun
    refine ⟨S, [], top, ?_, hw, .nil none S hopen, hopen, fun _ _ => .nil⟩
    rw [← hw.scopes]
  | cons p ps ih =>
    intro S w w' top index u hw hopen hrun
    obtain ⟨_, w₁, hp, hps⟩ := Act.run_bind_eq_ok.1 hrun
    obtain ⟨S₁, l, a, rfl, hw₁, he₁, hopen₁, hfree, hl⟩ := Lower.bindArgument_run hw hopen hp
    obtain ⟨S₂, l', top', hsym, hw₂, he₂, hopen₂, hargs⟩ := ih hw₁ hopen₁ hps
    refine ⟨S₂, l ++ l', top', hsym, hw₂, he₁.append he₂, hopen₂, fun H hH => ?_⟩
    obtain ⟨shape, v, l₁, l₂, rfl, hshape, hslot, hcopy, hstore⟩ := hl H (hH.before he₂.grows)
    exact .cons hshape hfree hslot hcopy hstore he₁.within (hargs H hH)

/-! ## The end of a body -/

namespace IR.Function

variable {f g : Function}

theorem explore_congr (hlen : f.blocks.length = g.blocks.length)
    (hsucc : ∀ b, f.successors b = g.successors b) (turns : Nat) (marked pending : List BlockId) :
    f.explore turns marked pending = g.explore turns marked pending := by
  induction turns generalizing marked pending with
  | zero => rfl
  | succ turns ih =>
    cases pending with
    | nil => rfl
    | cons b rest =>
      have hnext : f.next b = g.next b := by
        unfold next
        rw [hsucc, hlen]
      simp only [explore, hnext, ih]

/-- Which blocks control can reach depends on the branches alone. -/
theorem isReachable_congr (hlen : f.blocks.length = g.blocks.length)
    (hsucc : ∀ b, f.successors b = g.successors b) (b : BlockId) :
    f.isReachable b = g.isReachable b := by
  have hempty : f.blocks.isEmpty = g.blocks.isEmpty := by
    rw [Bool.eq_iff_iff, List.isEmpty_iff_length_eq_zero, List.isEmpty_iff_length_eq_zero, hlen]
  unfold isReachable reachable
  rw [explore_congr hlen hsucc, hempty, hlen]

/-- An open block that is marked as unreachable still leads nowhere. -/
theorem pushInst_unreachable_successors {b : BlockId} (hf : f.Valid) (hb : b < f.blocks.length)
    (hopen : f.isTerminated b = false) (p : BlockId) :
    (f.pushInst b ⟨.unreachable, .void, none⟩).successors p = f.successors p := by
  by_cases hp : p = b
  · subst hp
    rw [pushInst_successors_self hb, successors_of_open hopen]
    rfl
  · rw [pushInst_successors_ne hf hp]

end IR.Function

namespace IR

/-- The code of a body stands in a function from its entry on.  Where control
    seems to run off its end, it does not get there. -/
def Code.Fills (C : Code) (F : Function) : Prop :=
  ∃ q, C.lies F none (.start 0) q ∧
    (C.ends = true ∨ F.Has q .unreachable ∧ F.isReachable q.block = false)

end IR

/-- How the last block of a body is closed. -/
inductive Exits {func : FuncId} (ret : TypeId) (top : List Slot) (T : Code) (S : Site func) :
    Site func → Prop
  | ended (h : T.ends = true) : Exits ret top T S S
  | sealed (h : T.ends = false) (hr : S.body.isReachable S.block = false) :
    Exits ret top T S (S.push ⟨.unreachable, .void, none⟩)
  | returns {S' : Site func} {l : Lines} (h : T.ends = false) (hret : ret = Builtin.void.id)
    (he : Emitted none (.seq (.line l) (.ret none)) S S')
    (hd : ∀ H : Host, H.Completes func S'.builder.module → Each (DestroySlotLine H) top l) :
    Exits ret top T S S'

theorem Lower.implicitExit_run (hw : w.Stands S p.ret 1 none none (.of [top]))
    (hT : S.body.isTerminated S.block = T.ends)
    (hrun : (Lower.implicitExit ⟨.builtins, options⟩ p func span).run w = (.ok u, w')) :
    ∃ S' : Site func, w' = { w with builder := S'.builder } ∧ Exits p.ret top T S S' := by
  obtain ⟨ended, w₁, hended, hrun⟩ := Act.run_bind_eq_ok.1 hrun
  obtain ⟨rfl, rfl⟩ := Lower.isTerminated_run hw.builder hended
  rw [hT] at hrun
  -- An end that control gets to destroys the parameters and returns; any other end is sealed.
  rcases Act.run_onlyIf_eq_ok.1 hrun with ⟨hopen, hrun⟩ | ⟨hends, rfl⟩
  · have hends : T.ends = false := by simpa using hopen
    have hopen : S.Open := hT.trans hends
    obtain ⟨block, b, hblock, hrun⟩ := Lower.bind_build_run hrun
    rw [hw.builder] at hblock
    obtain ⟨rfl, rfl⟩ := Build.currentBlock_run hblock
    obtain ⟨f, b, hf, hrun⟩ := Lower.bind_build_run hrun
    obtain ⟨hfound, rfl⟩ := Build.function_run hf
    rw [S.found] at hfound
    cases hfound
    by_cases hreach : S.body.isReachable S.block = true
    · rw [if_pos hreach] at hrun
      obtain ⟨_, w₂, hr, hrun⟩ := Act.run_bind_eq_ok.1 hrun
      obtain ⟨hret, rfl⟩ := Lower.refuseIf_run hr
      obtain ⟨s, w₃, hs, hrun⟩ := Act.run_bind_eq_ok.1 hrun
      obtain ⟨rfl, rfl⟩ := Lower.symbols_run hs
      obtain ⟨_, w₄, hd, hrun⟩ := Act.run_bind_eq_ok.1 hrun
      have hw₁ := hw.at hw.sound
      obtain ⟨S₁, l, rfl, hw₁, he₁, hopen₁, hl⟩ :=
        hw₁.line (Lifetime.destroySlots_line _) hopen hd
      obtain ⟨b, hret', rfl⟩ := Lower.run_build_eq_ok.1 hrun
      obtain ⟨-, rfl⟩ := Build.ret_run hret'
      have he₂ := Emitted.ret none S₁ hopen₁ none
      refine ⟨_, rfl, .returns hends (not_not.1 hret) (he₁.seq he₂) fun H hH => ?_⟩
      have hslots := hl H (hH.before he₂.grows)
      rw [hw.scopes] at hslots
      simpa [Scopes.liveFrom_of] using hslots
    · rw [if_neg hreach] at hrun
      obtain ⟨b, hb, rfl⟩ := Lower.run_build_eq_ok.1 hrun
      obtain ⟨-, rfl⟩ := Build.emitVoid_run hb
      exact ⟨_, rfl, .sealed hends (by simpa using hreach)⟩
  · refine ⟨S, ?_, .ended (by simpa using hends)⟩
    rw [← hw.builder]

/-! ## Bodies -/

/-- What a finished body is: how it came about, that it has been checked, and
    which code it holds. -/
structure FinishedBody (options : Options) (functions : Functions) (p : Prototype)
    (stmts : List Stmt) (f₀ : Function) (H : Host) : Prop where
  edits : Edits 1 0 none f₀ H.body
  verified : H.body.verify = .ok ()
  returns : H.body.allPathsReturn = true
  code : ∃ C hi, C.Fills H.body ∧
    Body.Compiles ⟨.builtins, options⟩ functions H p f₀.insts.length stmts C hi

theorem Lower.checkBody_run (hb : w.builder = S.builder)
    (hrun : (Lower.checkBody p func span).run w = (.ok u, w')) :
    S.body.verify = .ok () ∧ S.body.allPathsReturn = true ∧ w' = w := by
  obtain ⟨f, b, hf, hrun⟩ := Lower.bind_build_run hrun
  rw [hb] at hf
  obtain ⟨hfound, rfl⟩ := Build.function_run hf
  rw [S.found] at hfound
  cases hfound
  obtain ⟨_, w₂, hr, hrun⟩ := Act.run_bind_eq_ok.1 hrun
  obtain ⟨hret, rfl⟩ := Lower.refuseIf_run hr
  obtain ⟨hverify, rfl⟩ := Lower.ofExcept_run hrun
  refine ⟨?_, by simpa using hret, by rw [← hb]⟩
  cases hv : S.body.verify with
  | error e => rw [hv] at hverify; cases hverify
  | ok u => rfl

/-- The three ends of a body leave the code of the whole body behind. -/
theorem Exits.fills {functions : Functions} {l : Lines} (hpoint : S.point = .start 0)
    (he₁ : Emitted none (.line l) S S₁) (he₂ : Emitted none T S₁ S₂)
    (hargs : Arguments .builtins ⟨S₃.builder.module, S₃.body⟩ 1 S.body.insts.length 0 [] p.params l
      top S₁.body.insts.length)
    (hstmts : Stmt.CompilesAll ⟨.builtins, options⟩ functions ⟨S₃.builder.module, S₃.body⟩ p.ret 1
      none [] S₁.body.insts.length top stmts T top' S₂.body.insts.length)
    (hexit : Exits p.ret top' T S₂ S₃) :
    ∃ C hi, C.Fills S₃.body ∧ Body.Compiles ⟨.builtins, options⟩ functions
      ⟨S₃.builder.module, S₃.body⟩ p S.body.insts.length stmts C hi := by
  -- The code of a body is its arguments, its statements and the way it ends, in this order.
  have he := he₁.seq he₂
  cases hexit with
  | ended h =>
    refine ⟨_, _, ⟨S₂.point, ?_, .inl ?_⟩, .intro hargs hstmts (.ended h)⟩
    · rw [← hpoint]
      exact he.lies _ (.refl _)
    · rw [Code.ends, h, Bool.or_true]
  | sealed h hr =>
    -- Sealing an unreachable block adds no edge, so the block stays unreachable.
    have hext : S₂.body.Extends (S₂.push ⟨.unreachable, .void, none⟩).body :=
      Function.pushInst_extends S₂.valid S₂.inside rfl
    refine ⟨_, _, ⟨S₂.point, ?_, .inr ⟨S₂.push_has rfl (.refl _), ?_⟩⟩,
      .intro hargs hstmts (.sealed h)⟩
    · rw [← hpoint]
      exact he.lies _ hext
    · rw [← hr]
      have hopen : S₂.Open := he₂.ends.trans h
      exact Function.isReachable_congr (S₂.push_blocks_length _)
        (Function.pushInst_unreachable_successors S₂.valid S₂.inside hopen) _
  | returns h hret hreturn hd =>
    have he₃ := he₁.seq (he₂.seq hreturn)
    refine ⟨_, S₃.body.insts.length, ⟨S₃.point, ?_, .inl ?_⟩,
      .intro hargs hstmts (.returns h hret (hd _ (.self S₃)) ?_)⟩
    · rw [← hpoint]
      exact he₃.lies _ (.refl _)
    · simp [Code.ends]
    · exact ⟨hreturn.within.1, fun i hi => hreturn.within.2 i (by simpa [Code.ids] using hi)⟩

theorem Exits.edits (h : Exits ret top T S S') (hT : S.body.isTerminated S.block = T.ends) :
    S.builder.module.Grows func S'.builder.module ∧
      Edits S.body.blocks.length S.block none S.body S'.body := by
  cases h with
  | ended h => exact ⟨.refl func _, .refl⟩
  | sealed h hr =>
    have hgrown : Grown S.body.blocks.length S.block none S
        (S.push ⟨.unreachable, .void, none⟩) :=
      .close (hT.trans h) (.inl rfl) rfl fun s hs => by cases hs
    exact ⟨hgrown.grows, hgrown.edits⟩
  | returns h hret he hd => exact ⟨he.grows, he.edits⟩

/-- The arguments and the statements of a body are translated. -/
theorem Lower.statements_run {u : PUnit} (hw : w.Stands S p.ret base none none (.of ([] :: outer)))
    (hopen : S.Open)
    (hargs : (p.params.zipIdx.forM fun q =>
      Lower.bindArgument ⟨.builtins, options⟩ q.1 q.2).run w = (.ok u, w₁))
    (hstmts : (Stmt.lowerAll ⟨.builtins, options⟩ stmts).run w₁ = (.ok (), w₂)) :
    ∃ (S₁ S₂ : Site func) (l : Lines) (T : Code) (top top' : List Slot),
      w₂.symbols = { w.symbols with scopes := (.of (top' :: outer)) } ∧
      w₂.Stands S₂ p.ret base none none (.of (top' :: outer)) ∧ Emitted none (.line l) S S₁ ∧
      Emitted none T S₁ S₂ ∧
      ∀ H : Host, H.Completes func S₂.builder.module →
        Arguments .builtins H (outer.length + 1) S.body.insts.length 0 [] p.params l top
          S₁.body.insts.length ∧
        Stmt.CompilesAll ⟨.builtins, options⟩ w.symbols.functions H p.ret base none outer
          S₁.body.insts.length top stmts T top' S₂.body.insts.length := by
  -- Arguments and statements are emitted one behind the other from the same start.
  obtain ⟨S₁, l, top, hsym₁, hw₁, he₁, hopen₁, hA⟩ := Lower.bindArguments_run _ hw hopen hargs
  obtain ⟨S₂, T, top', hb₂, hsym₂, he₂, hS⟩ := Stmt.lowerAll_compiles options p.ret base stmts
    func S₁ w₁ none none outer top hw₁ hopen₁ w₂ hstmts
  have hsym : w₂.symbols = { w.symbols with scopes := (.of (top' :: outer)) } := by rw [hsym₂, hsym₁]
  have hw₂ : w₂.Stands S₂ p.ret base none none (.of (top' :: outer)) :=
    ⟨hb₂, he₂.sound hw₁.sound, by rw [hsym]; exact hw.control, by rw [hsym]⟩
  refine ⟨S₁, S₂, l, T, top, top', hsym, hw₂, he₁, he₂, fun H hH => ?_⟩
  have hcomp := hS H hH
  rw [hsym₁] at hcomp
  exact ⟨hA H (hH.before he₂.grows), hcomp⟩

theorem Lower.body_run (hw : w.Stands S p.ret 1 none none (.of [[]])) (hpoint : S.point = .start 0)
    (hopen : S.Open) (hone : S.body.blocks.length = 1)
    (hrun : (Lower.body ⟨.builtins, options⟩ p func decl).run w = (.ok u, w')) :
    ∃ (S' : Site func) (top : List Slot), w'.builder = S'.builder ∧
      w'.symbols = { w.symbols with scopes := (.of [top]) } ∧
      S.builder.module.Grows func S'.builder.module ∧
      FinishedBody options w.symbols.functions p decl.body S.body
        ⟨S'.builder.module, S'.body⟩ := by
  obtain ⟨_, w₁, hargs, hrun⟩ := Act.run_bind_eq_ok.1 hrun
  obtain ⟨_, w₂, hstmts, hrun⟩ := Act.run_bind_eq_ok.1 hrun
  obtain ⟨S₁, S₂, l, T, top, top', hsym, hw₂, he₁, he₂, hcode⟩ :=
    Lower.statements_run hw hopen hargs hstmts
  obtain ⟨_, w₃, hexit, hrun⟩ := Act.run_bind_eq_ok.1 hrun
  obtain ⟨S₃, rfl, hexits⟩ := Lower.implicitExit_run hw₂ he₂.ends hexit
  -- The checks look at the body without changing it.
  obtain ⟨hverify, hpaths, rfl⟩ := Lower.checkBody_run rfl hrun
  obtain ⟨hgrows, hedits⟩ := hexits.edits he₂.ends
  have he := he₁.seq he₂
  have hblock : S.block = 0 := by
    have h := congrArg Point.block hpoint
    exact h
  -- Nothing but the blocks of this body has been edited since its entry block was appended.
  refine ⟨S₃, top', rfl, hsym, he.grows.trans hgrows, ⟨?_, hverify, hpaths, ?_⟩⟩
  · have hall := (he.grown.trans ⟨hgrows, ?_, ?_⟩).edits
    · rw [hone, hblock] at hall
      exact hall
    · exact hedits.widen he.edits.blocks_le he.home fun s hs => by cases hs
    · cases hexits with
      | ended h => exact Nat.le_refl _
      | sealed h hr => exact Nat.le_of_lt (S₂.push_insts_length _ ▸ Nat.lt_succ_self _)
      | returns h hret he hd => exact he.within.1
  · have hH : Host.Completes ⟨S₃.builder.module, S₃.body⟩ func S₂.builder.module :=
      (Host.Completes.self S₃).before hgrows
    obtain ⟨hA, hS⟩ := hcode _ hH
    exact Exits.fills hpoint he₁ he₂ hA hS hexits

/-! ## The entry -/

theorem IR.Build.appendBlock_entry {label : String} {b b' : Builder} {id : BlockId}
    (h : (Build.appendBlock func label).run b = (.ok id, b')) :
    ∃ f, b.module.function? func = some f ∧ id = f.blocks.length ∧
      b' = { b with
        module := b.module.update func (·.addBlock (Build.newLabel f.blocks label)) } := by
  obtain ⟨f, b₁, hf, hadd⟩ := Act.run_bind_eq_ok.1 h
  obtain ⟨hfound, rfl⟩ := Build.function_run hf
  obtain ⟨_, b₂, hu, hpure⟩ := Act.run_bind_eq_ok.1 hadd
  have hb₂ := Act.run_modify_eq_ok.1 hu
  obtain ⟨rfl, rfl⟩ := Act.run_pure_eq_ok.1 hpure
  exact ⟨f, hfound, rfl, hb₂⟩

/-- A function whose body is an empty entry block. -/
def IR.Function.withEntry (f : Function) : Function := f.addBlock "entry"

theorem IR.Function.withEntry_blockIds (hf : f.blocks = []) (b : BlockId) :
    f.withEntry.blockIds b = [] := by
  unfold withEntry
  rw [addBlock_blockIds, blockIds_of_le (by rw [hf]; exact Nat.zero_le _)]

theorem IR.Function.withEntry_regular (hf : f.blocks = []) : f.withEntry.Regular := by
  -- No block has an instruction in it, which settles every condition.
  have hids := withEntry_blockIds hf
  have hcode : ∀ b, f.withEntry.code b = [] := fun b => by
    unfold code
    rw [hids]
    rfl
  have hslots : ∀ b, f.withEntry.slots b = [] := fun b => by
    unfold slots
    rw [hids]
    rfl
  have hsucc : ∀ b, f.withEntry.successors b = [] := fun b =>
    successors_of_open (isTerminated_of_empty (hids b))
  refine ⟨?_, ?_, fun b _ => hslots b, ?_, ?_, ?_, ?_, ?_, ?_⟩
  · intro b i hi
    rw [hids b] at hi
    cases hi
  · unfold withEntry
    rw [addBlock_blocks_length]
    exact Nat.succ_pos _
  · intro b i hi
    rw [hcode b] at hi
    cases hi
  · intro b
    rw [hids b]
    exact List.nodup_nil
  · intro b b' i hi
    rw [hids b] at hi
    cases hi
  · intro p s hs
    rw [hsucc p] at hs
    cases hs
  · intro i hi
    rw [hids 0] at hi
    cases hi
  · intro b i x incoming hi
    rw [hids b] at hi
    cases hi

/-- The builder at the start of a body. -/
theorem IR.Site.entry {b : Builder} {func : FuncId} {f : Function}
    (hf : b.module.function? func = some f) (hblocks : f.blocks = []) :
    ∃ S : Site func, S.builder = { b with
        module := b.module.update func (·.addBlock "entry"), cursor := some ⟨func, 0⟩ } ∧
      S.body = f.withEntry ∧ S.block = 0 ∧ S.Open ∧ S.Sound none ∧ S.point = .start 0 := by
  have hids := Function.withEntry_blockIds hblocks
  let S : Site func :=
    { builder := { b with
        module := b.module.update func (·.addBlock "entry"), cursor := some ⟨func, 0⟩ }
      block := 0
      body := f.withEntry
      cursor := rfl
      found := by
        rw [Module.update_function?_self, hf]
        rfl
      inside := by
        unfold Function.withEntry
        rw [Function.addBlock_blocks_length]
        exact Nat.succ_pos _
      valid := by
        intro c i hi
        rw [hids c] at hi
        cases hi }
  -- Nothing stands in the only block, so it is open and leads nowhere.
  refine ⟨S, rfl, rfl, rfl, Site.open_of_empty rfl (hids 0), ⟨?_, ?_⟩,
    Site.point_of_empty rfl (hids 0)⟩
  · intro s hs
    cases hs
  · intro c s hs
    have hended : S.body.isTerminated c = false := Function.isTerminated_of_empty (hids c)
    rw [Function.successors_of_open hended] at hs
    cases hs

/-- A body starts in an entry block of its own. -/
theorem Lower.entry_run {α : Type} {k : Lower α} {a : α}
    (hf : w.builder.module.function? func = some f) (hblocks : f.blocks = [])
    (hrun : (do
      let entry ← (liftM (Build.appendBlock func "entry") : Lower BlockId)
      liftM (Build.moveTo func entry)
      k).run w = (.ok a, w')) :
    ∃ S : Site func, S.builder = { w.builder with
        module := w.builder.module.update func (·.addBlock "entry"), cursor := some ⟨func, 0⟩ } ∧
      S.body = f.withEntry ∧ S.block = 0 ∧ S.Open ∧ S.Sound none ∧ S.point = .start 0 ∧
      k.run { w with builder := S.builder } = (.ok a, w') := by
  obtain ⟨entry, b, happ, hrun⟩ := Lower.bind_build_run hrun
  obtain ⟨f', hf', rfl, rfl⟩ := Build.appendBlock_entry happ
  rw [hf] at hf'
  cases hf'
  -- In a function without blocks the label is free.
  have hlabel : Build.newLabel f.blocks "entry" = "entry" := by
    rw [hblocks]
    rfl
  rw [hlabel, hblocks] at hrun
  obtain ⟨S, hS, hbody, hblock, hopen, hsound, hpoint⟩ := Site.entry hf hblocks
  obtain ⟨_, b, hmove, hrun⟩ := Lower.bind_build_run hrun
  have hb := Act.run_modify_eq_ok.1 hmove
  rw [show b = S.builder from hb.trans hS.symm] at hrun
  exact ⟨S, hS, hbody, hblock, hopen, hsound, hpoint, hrun⟩

/-- What surrounds the arguments and the statements of a body. -/
theorem Work.stands_entry (hsound : S.Sound none) (w : Work) (p : Prototype) (scopes : Scopes) :
    Work.Stands
      { builder := S.builder,
        symbols := { w.symbols with
          scopes := scopes.push
          control := .function ⟨p.name, p.ret, scopes.push.depth⟩ :: w.symbols.control },
        diagnostics := w.diagnostics } S p.ret scopes.push.depth none none (.of ([] :: scopes.stack)) :=
  ⟨rfl, hsound, ⟨⟨_, rfl, rfl, rfl⟩, .inl ⟨rfl, rfl, rfl⟩⟩,
    by rw [← Scopes.push_of, Scopes.of_stack]⟩

theorem Lower.frameBody_run
    (hrun : (Lower.frameBody ⟨.builtins, options⟩ p func decl).run w = (.ok u, w'))
    (hscopes : w.symbols.scopes = .empty) (hf : w.builder.module.function? func = some f)
    (hblocks : f.blocks = []) :
    ∃ F, w'.builder.module.function? func = some F ∧ w'.symbols = w.symbols ∧
      w.builder.module.Grows func w'.builder.module ∧
      FinishedBody options w.symbols.functions p decl.body f.withEntry
        ⟨w'.builder.module, F⟩ := by
  obtain ⟨S, hS, hbody, hblock, hopen, hsound, hpoint, hrun⟩ := Lower.entry_run hf hblocks hrun
  obtain ⟨s, w₁, hs, hrun⟩ := Act.run_bind_eq_ok.1 hrun
  obtain ⟨rfl, rfl⟩ := Lower.symbols_run hs
  obtain ⟨_, w₂, hset, hrun⟩ := Act.run_bind_eq_ok.1 hrun
  obtain rfl := Lower.setScopes_run hset
  obtain ⟨s, w₃, hs, hrun⟩ := Act.run_bind_eq_ok.1 hrun
  obtain ⟨rfl, rfl⟩ := Lower.symbols_run hs
  -- Scopes and control are put back as they were; the module is what the body has left behind.
  obtain ⟨w₄, hframe, rfl⟩ := Act.run_andAlways_eq_ok.1 hrun
  obtain ⟨w₅, hinner, rfl⟩ := Lower.withFrame_run hframe
  rw [hscopes] at hinner
  have hone : S.body.blocks.length = 1 := by
    rw [hbody, Function.withEntry, Function.addBlock_blocks_length, hblocks]
    rfl
  obtain ⟨S', top, hb', hsym', hgrows, hfin⟩ :=
    Lower.body_run (Work.stands_entry hsound w p .empty) hpoint hopen hone hinner
  refine ⟨S'.body, ?_, ?_, ?_, ?_⟩
  · show w₅.builder.module.function? func = _
    rw [hb']
    exact S'.found
  · show { w₅.symbols with
        scopes := w₅.symbols.scopes.pop, control := w₅.symbols.control.tail } = w.symbols
    rw [hsym']
    have hsym : w.symbols = ⟨.empty, w.symbols.functions, w.symbols.control⟩ := by
      rw [← hscopes]
    rw [hsym]
    rfl
  · show w.builder.module.Grows func w₅.builder.module
    rw [hb']
    refine Module.Grows.trans ?_ hgrows
    rw [hS]
    exact .update hf (Function.addBlock_extends ..)
  · rw [hbody] at hfin
    show FinishedBody _ _ _ _ _ ⟨w₅.builder.module, S'.body⟩
    rw [hb']
    exact hfin

/-! ## Declarations and definitions -/

/-- A function has been declared: its entry was there, or it has been added. -/
inductive DeclaredEntry (types : TypeTable) (p : Prototype) (w : Work) : EntryId → Work → Prop
  | found {id : EntryId} (hfind : w.symbols.functions.find p = .ok (some id)) :
    DeclaredEntry types p w id w
  | added {symbol : String} {sig : Signature} {func : FuncId} {m : Module}
    (hfind : w.symbols.functions.find p = .ok none) (hname : p.irName types = .ok symbol)
    (hsig : p.irSignature types = .ok sig)
    (hdecl : Build.Declared w.builder.module symbol sig p.linkage func m) :
    DeclaredEntry types p w w.symbols.functions.entries.length
      { w with
        builder := { w.builder with module := m }
        symbols := { w.symbols with functions := w.symbols.functions.insert p func } }

theorem Lower.declare_run (hrun : (Lower.declare types p).run w = (.ok id, w')) :
    DeclaredEntry types p w id w' := by
  obtain ⟨s, w₁, hs, hrun⟩ := Act.run_bind_eq_ok.1 hrun
  obtain ⟨rfl, rfl⟩ := Lower.symbols_run hs
  obtain ⟨o, w₂, ho, hrun⟩ := Act.run_bind_eq_ok.1 hrun
  obtain ⟨hfind, rfl⟩ := Lower.ofExcept_run ho
  cases o with
  | some id' =>
    obtain ⟨rfl, rfl⟩ := Act.run_pure_eq_ok.1 hrun
    exact .found hfind
  -- An unknown prototype is declared in the module under its symbol before it is entered.
  | none =>
    obtain ⟨symbol, w₃, hsymbol, hrun⟩ := Act.run_bind_eq_ok.1 hrun
    obtain ⟨hname, rfl⟩ := Lower.ofExcept_run hsymbol
    obtain ⟨sig, w₄, hsignature, hrun⟩ := Act.run_bind_eq_ok.1 hrun
    obtain ⟨hsig, rfl⟩ := Lower.ofExcept_run hsignature
    obtain ⟨func, w₅, hfunc, hrun⟩ := Act.run_bind_eq_ok.1 hrun
    obtain ⟨b, hb, rfl⟩ := Lower.run_emit_eq_ok.1 hfunc
    obtain ⟨m, hdecl, rfl⟩ := Build.declare_run (Act.run_mapError_eq_ok.1 hb)
    obtain ⟨_, w₆, hset, hrun⟩ := Act.run_bind_eq_ok.1 hrun
    obtain rfl := Act.run_modify_eq_ok.1 hset
    obtain ⟨rfl, rfl⟩ := Act.run_pure_eq_ok.1 hrun
    exact .added hfind hname hsig hdecl

/-- A function that was only declared now has no body. -/
theorem IR.Build.Declared.blocks_eq_nil {m m' : Module} {name : String} {sig : Signature}
    {linkage : Linkage} {id : FuncId} (h : Build.Declared m name sig linkage id m')
    (hm : ∀ f, m.function? func = some f → f.blocks = []) (hf : m'.function? func = some f) :
    f.blocks = [] := by
  cases h with
  | found => exact hm f hf
  | added hfind =>
    rcases Module.add_function?_cases hf with hf | rfl
    · exact hm f hf
    · rfl

theorem DeclaredEntry.scopes (h : DeclaredEntry types p w id w') :
    w'.symbols.scopes = w.symbols.scopes := by
  cases h <;> rfl

theorem DeclaredEntry.blocks_eq_nil (h : DeclaredEntry types p w id w')
    (hw : ∀ f, w.builder.module.function? func = some f → f.blocks = [])
    (hf : w'.builder.module.function? func = some f) : f.blocks = [] := by
  cases h with
  | found => exact hw f hf
  | added hfind hname hsig hdecl => exact hdecl.blocks_eq_nil hw hf

theorem Functions.entry_eq_ok {t : Functions} {e : Entry} :
    t.entry id = .ok e ↔ t.entries[id]? = some e := by
  unfold Functions.entry Functions.get?
  cases t.entries[id]? <;> simp

theorem Functions.markDefined_eq_ok {t t' : Functions} :
    t.markDefined id span = .ok t' ↔
      ∃ e, t.entries[id]? = some e ∧ e.defined = false ∧ t' = t.setDefined id true := by
  unfold Functions.markDefined Functions.entry Functions.get?
  cases he : t.entries[id]? with
  | none => simp [bind, Except.bind]
  | some e =>
    cases hd : e.defined with
    | true => simp [bind, Except.bind, hd, throw, throwThe, MonadExceptOf.throw]
    | false =>
      simp only [bind, Except.bind, hd, Bool.false_eq_true, if_false, pure, Except.pure,
        Except.ok.injEq, Option.some.injEq, exists_eq_left', true_and]
      exact eq_comm

/-- What a successful definition consists of: the declaration, the mark of the
    entry, and the body. -/
structure Defined (options : Options) (decl : FunctionDecl) (w : Work) (func : FuncId) (w' : Work)
    (p : Prototype) (id : EntryId) (e : Entry) (w₁ w₂ : Work) : Prop where
  head : Prototype.ofDecl .builtins decl.prototype = .ok p
  internal : p.isExternal = false
  declared : DeclaredEntry .builtins p w id w₁
  entry : w₁.symbols.functions.entries[id]? = some e
  undefined : e.defined = false
  same : e.func = func
  body : (Lower.frameBody ⟨.builtins, options⟩ p func decl).run
    { w₁ with symbols := { w₁.symbols with
        functions := w₁.symbols.functions.setDefined id true } } = (.ok (), w₂)
  final : w' = { w₂ with builder := w₂.builder.leave }

theorem Lower.function_run
    (hrun : (Lower.function ⟨.builtins, options⟩ decl).run w = (.ok func, w')) :
    ∃ p id e w₁ w₂, Defined options decl w func w' p id e w₁ w₂ := by
  obtain ⟨p, w₁, hp, hrun⟩ := Act.run_bind_eq_ok.1 hrun
  obtain ⟨hhead, rfl⟩ := Lower.ofExcept_run hp
  obtain ⟨_, w₂, hr, hrun⟩ := Act.run_bind_eq_ok.1 hrun
  obtain ⟨hext, rfl⟩ := Lower.refuseIf_run hr
  obtain ⟨id, w₃, hid, hrun⟩ := Act.run_bind_eq_ok.1 hrun
  -- The entry that the declaration has given is the one that is marked.
  have hdecl := Lower.declare_run hid
  obtain ⟨s, w₄, hs, hrun⟩ := Act.run_bind_eq_ok.1 hrun
  obtain ⟨rfl, rfl⟩ := Lower.symbols_run hs
  obtain ⟨e, w₅, he, hrun⟩ := Act.run_bind_eq_ok.1 hrun
  obtain ⟨hentry, rfl⟩ := Lower.ofExcept_run he
  obtain ⟨s, w₆, hs', hrun⟩ := Act.run_bind_eq_ok.1 hrun
  obtain ⟨rfl, rfl⟩ := Lower.symbols_run hs'
  obtain ⟨t, w₇, ht, hrun⟩ := Act.run_bind_eq_ok.1 hrun
  obtain ⟨hmark, rfl⟩ := Lower.ofExcept_run ht
  obtain ⟨_, w₈, hset, hrun⟩ := Act.run_bind_eq_ok.1 hrun
  obtain rfl := Act.run_modify_eq_ok.1 hset
  rw [Functions.entry_eq_ok] at hentry
  obtain ⟨e', he', hundef, rfl⟩ := Functions.markDefined_eq_ok.1 hmark
  rw [hentry] at he'
  cases he'
  rcases Act.run_tryCatch_eq_ok.1 hrun with hbody | ⟨fault, w₉, -, hhandle⟩
  · obtain ⟨_, w₁₀, hframe, hbody⟩ := Act.run_bind_eq_ok.1 hbody
    obtain ⟨_, b, hleave, hbody⟩ := Lower.bind_build_run hbody
    obtain rfl := Act.run_modify_eq_ok.1 hleave
    obtain ⟨rfl, rfl⟩ := Act.run_pure_eq_ok.1 hbody
    exact ⟨p, id, e, _, w₁₀, hhead, by simpa using hext, hdecl, hentry, hundef, rfl, hframe, rfl⟩
  · -- What is done after a fault ends in the fault.
    obtain ⟨_, w₁₀, -, hhandle⟩ := Act.run_bind_eq_ok.1 hhandle
    obtain ⟨_, w₁₁, -, hhandle⟩ := Act.run_bind_eq_ok.1 hhandle
    obtain ⟨_, w₁₂, -, hhandle⟩ := Act.run_bind_eq_ok.1 hhandle
    obtain ⟨_, w₁₃, -, hhandle⟩ := Act.run_bind_eq_ok.1 hhandle
    exact absurd hhandle Act.run_throw_ne_ok

/-- A function that is lowered into one without body has the code of its
    declaration. -/
theorem Lower.function_compiles (hscopes : w.symbols.scopes = .empty)
    (hnew : ∀ f, w.builder.module.function? func = some f → f.blocks = [])
    (hrun : (Lower.function ⟨.builtins, options⟩ decl).run w = (.ok func, w')) :
    ∃ (p : Prototype) (f F : Function),
      Prototype.ofDecl .builtins decl.prototype = .ok p ∧ f.blocks = [] ∧
      w'.builder.module.function? func = some F ∧
      FinishedBody options w'.symbols.functions p decl.body f.withEntry
        ⟨w'.builder.module, F⟩ := by
  obtain ⟨p, id, e, w₁, w₂, hdef⟩ := Lower.function_run hrun
  have hbody := hdef.body
  obtain ⟨_, b, happ, -⟩ := Lower.bind_build_run hbody
  obtain ⟨f, hf, -, -⟩ := Build.appendBlock_entry happ
  -- The function was there without a body, or it has only just been declared.
  have hblocks := hdef.declared.blocks_eq_nil hnew hf
  obtain ⟨F, hF, hsym, -, hfin⟩ :=
    Lower.frameBody_run hbody (hdef.declared.scopes.trans hscopes) hf hblocks
  obtain rfl := hdef.final
  refine ⟨p, f, F, hdef.head, hblocks, hF, ?_⟩
  rw [show ({ w₂ with builder := w₂.builder.leave } : Work).symbols = _ from hsym]
  exact hfin

theorem FinishedBody.regular {functions : Functions} {H : Host} (hf : f.blocks = [])
    (h : FinishedBody options functions p stmts f.withEntry H) : H.body.Regular :=
  h.edits.regular Nat.one_pos (Function.withEntry_regular hf)

end Shading
