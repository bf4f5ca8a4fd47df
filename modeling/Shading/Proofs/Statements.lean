import Shading.Proofs.Expressions

/-! # Lowering statements

    `EmitsStmt` is what the lowering of a statement does from a place where
    the builder stands in a block that is not ended.  Main result: a lowered
    statement is translated (`Stmt.lower_compiles`). -/

namespace Shading

open IR

variable {func : FuncId} {span : Span} {S Sa Sb : Site func} {w w' : Work}
    {Q R : Functions → Host → Option Nat → List (List Slot) → Nat → List Slot → Code →
      List Slot → Nat → Prop}
    {u : Unit} {x y : Lower Unit} {t : Option Targets} {scopes : Scopes} {env : Env}
    {keyword name what : String} {outer : List (List Slot)} {top : List Slot} {ptr v : Value}

/-! ## Surroundings -/

/-- What encloses a statement: a function with the given result type, whose
    arguments stand at a depth, and perhaps a loop, whose body stands at a depth
    and whose jumps have targets. -/
structure Control.Around (c : Control) (ret : TypeId) (base : Nat) (loop : Option Nat)
    (t : Option Targets) : Prop where
  function : ∃ f, c.currentFunction? = some f ∧ f.ret = ret ∧ f.scopeDepth = base
  jumps : c.innermostLoop? = none ∧ loop = none ∧ t = none ∨
    ∃ l, c.innermostLoop? = some l ∧ loop = some l.scopeDepth ∧
      t = some ⟨l.continueBlock, l.breakBlock⟩

theorem Control.Around.conditional {c : Control} {ret : TypeId} {base : Nat} {loop : Option Nat}
    (h : c.Around ret base loop t) :
    Control.Around (.conditional :: c) ret base loop t := ⟨h.function, h.jumps⟩

theorem Control.Around.loop {c : Control} {ret : TypeId} {base : Nat} {loop : Option Nat}
    (h : c.Around ret base loop t) (l : LoopFrame) :
    Control.Around (.loop l :: c) ret base (some l.scopeDepth)
      (some ⟨l.continueBlock, l.breakBlock⟩) := ⟨h.function, .inr ⟨l, rfl, rfl, rfl⟩⟩

/-- The builder of a compilation stands at a site, with known surroundings. -/
structure Work.Stands {func : FuncId} (w : Work) (S : Site func) (ret : TypeId) (base : Nat)
    (loop : Option Nat) (t : Option Targets) (scopes : Scopes) : Prop where
  builder : w.builder = S.builder
  sound : S.Sound t
  control : w.symbols.control.Around ret base loop t
  scopes : w.symbols.scopes = scopes

/-- From a block that is not ended, a lowered statement emits code that
    satisfies `Q`, and it changes no symbols but those of the innermost scope. -/
def EmitsStmt (ret : TypeId) (base : Nat) (x : Lower Unit)
    (Q : Functions → Host → Option Nat → List (List Slot) → Nat → List Slot → Code → List Slot →
      Nat → Prop) : Prop :=
  ∀ (func : FuncId) (S : Site func) (w : Work) (loop : Option Nat) (t : Option Targets)
    (outer : List (List Slot)) (top : List Slot), w.Stands S ret base loop t (.of (top :: outer)) →
    S.Open → ∀ w', x.run w = (.ok (), w') →
      ∃ (S' : Site func) (T : Code) (top' : List Slot), w'.builder = S'.builder ∧
        w'.symbols = { w.symbols with scopes := (.of (top' :: outer)) } ∧ Emitted t T S S' ∧
        ∀ H : Host, H.Completes func S'.builder.module →
          Q w.symbols.functions H loop outer S.body.insts.length top T top' S'.body.insts.length

/-! ## Running -/

namespace Lower

variable {α : Type} {w w' : Work}

theorem run_emit_eq_ok {x : Emit α} {a : α} :
    (liftM x : Lower α).run w = (.ok a, w') ↔
      ∃ b, x.run w.builder = (.ok a, b) ∧ w' = { w with builder := b } := by
  show (x.onPart Work.builder fun w b => { w with builder := b }).run w = (.ok a, w') ↔ _
  exact Act.run_onPart_eq_ok

theorem run_build_eq_ok {x : Build α} {a : α} :
    (liftM x : Lower α).run w = (.ok a, w') ↔
      ∃ b, x.run w.builder = (.ok a, b) ∧ w' = { w with builder := b } := by
  refine (run_emit_eq_ok (x := x.mapError Error.toFault)).trans ?_
  simp only [Act.run_mapError_eq_ok]

/-- A step of the builder, then the rest. -/
theorem bind_build_run {β : Type} {x : Build α} {k : α → Lower β} {c : β}
    (h : ((liftM x : Lower α) >>= k).run w = (.ok c, w')) :
    ∃ a b, x.run w.builder = (.ok a, b) ∧ (k a).run { w with builder := b } = (.ok c, w') := by
  obtain ⟨a, w₁, hx, hk⟩ := Act.run_bind_eq_ok.1 h
  obtain ⟨b, hb, rfl⟩ := run_build_eq_ok.1 hx
  exact ⟨a, b, hb, hk⟩

theorem symbols_run {s : Symbols} (h : symbols.run w = (.ok s, w')) : s = w.symbols ∧ w = w' := by
  obtain ⟨w₁, w₂, h₁, h₂⟩ := Act.run_bind_eq_ok.1 h
  obtain ⟨rfl, rfl⟩ := Act.run_get_eq_ok.1 h₁
  obtain ⟨rfl, rfl⟩ := Act.run_pure_eq_ok.1 h₂
  exact ⟨rfl, rfl⟩

theorem setScopes_run {s : Scopes} (h : (setScopes s).run w = (.ok u, w')) :
    w' = { w with symbols := { w.symbols with scopes := s } } := Act.run_modify_eq_ok.1 h

theorem isTerminated_run (hw : w.builder = S.builder) {b : Bool}
    (h : isTerminated.run w = (.ok b, w')) : b = S.body.isTerminated S.block ∧ w = w' := by
  obtain ⟨w₁, w₂, h₁, h₂⟩ := Act.run_bind_eq_ok.1 h
  obtain ⟨rfl, rfl⟩ := Act.run_get_eq_ok.1 h₁
  obtain ⟨hb, rfl⟩ := Act.run_pure_eq_ok.1 h₂
  refine ⟨?_, rfl⟩
  rw [hb, hw]
  unfold Builder.isTerminated
  rw [S.cursor]
  show (S.builder.module.function? func).any _ = _
  rw [S.found]
  rfl

theorem ofExcept_run {r : Except Fault α} {a : α}
    (h : (liftM r : Lower α).run w = (.ok a, w')) : r = .ok a ∧ w = w' := by
  obtain ⟨hr, rfl⟩ := Act.run_ofExcept_eq_ok.1 h
  exact ⟨hr, rfl⟩

theorem refuseIf_run {c : Prop} [Decidable c] {e : Fault}
    (h : (Act.refuseIf c e : Lower Unit).run w = (.ok u, w')) : ¬ c ∧ w = w' := by
  obtain ⟨hc, rfl⟩ := Act.run_refuseIf_eq_ok.1 h
  exact ⟨hc, rfl⟩

theorem withFrame_run {frame : Frame} {x : Lower α} {a : α}
    (h : (withFrame frame x).run w = (.ok a, w')) :
    ∃ w₁, x.run { w with symbols := { w.symbols with control := frame :: w.symbols.control } } =
      (.ok a, w₁) ∧
      w' = { w₁ with symbols := { w₁.symbols with control := w₁.symbols.control.tail } } := by
  obtain ⟨_, w₁, h₁, h₂⟩ := Act.run_bind_eq_ok.1 h
  obtain rfl := Act.run_modify_eq_ok.1 h₁
  exact Act.run_andAlways_eq_ok.1 h₂

end Lower

/-! ## Emission at a site -/

section

variable {α : Type} {func : FuncId} {S : Site func} {w w' : Work} {ret : TypeId}
  {base : Nat} {loop : Option Nat} {t : Option Targets} {scopes : Scopes}

theorem Work.Stands.at (h : w.Stands S ret base loop t scopes) {S' : Site func} (hs : S'.Sound t) :
    Work.Stands { w with builder := S'.builder } S' ret base loop t scopes :=
  ⟨rfl, hs, h.control, h.scopes⟩

theorem Work.Stands.code {x : Emit α} {Q : Host → Nat → α → Code → Nat → Prop} {a : α}
    (hx : EmitsCode x Q) (h : w.Stands S ret base loop t scopes) (hopen : S.Open)
    (hrun : (liftM x : Lower α).run w = (.ok a, w')) :
    ∃ (S' : Site func) (T : Code), w' = { w with builder := S'.builder } ∧
      w'.Stands S' ret base loop t scopes ∧ Emitted t T S S' ∧ S'.Open ∧ T.ends = false ∧
      ∀ H : Host, H.Completes func S'.builder.module →
        Q H S.body.insts.length a T S'.body.insts.length := by
  obtain ⟨b, hb, rfl⟩ := Lower.run_emit_eq_ok.1 hrun
  rw [h.builder] at hb
  obtain ⟨S', T, rfl, he, hT, hQ⟩ := hx func t S hopen h.sound a b hb
  exact ⟨S', T, rfl, h.at (he.sound h.sound), he, he.ends.trans hT, hT, hQ⟩

theorem Work.Stands.line {x : Emit α} {Q : Host → α → Lines → Prop} {a : α}
    (hx : EmitsLine x Q) (h : w.Stands S ret base loop t scopes) (hopen : S.Open)
    (hrun : (liftM x : Lower α).run w = (.ok a, w')) :
    ∃ (S' : Site func) (l : Lines), w' = { w with builder := S'.builder } ∧
      w'.Stands S' ret base loop t scopes ∧ Emitted t (.line l) S S' ∧ S'.Open ∧
      ∀ H : Host, H.Completes func S'.builder.module → Q H a l := by
  obtain ⟨b, hb, rfl⟩ := Lower.run_emit_eq_ok.1 hrun
  rw [h.builder] at hb
  obtain ⟨S', l, rfl, he, hQ⟩ := hx func t S hopen a b hb
  exact ⟨S', l, rfl, h.at (he.sound h.sound), he, he.ends, hQ⟩

end

/-! ## Simple statements -/

section

variable {options : Options} {ret : TypeId} {base : Nat}

theorem Lower.check_emits {symbols : Symbols} (e : Expr) (expected : TypeId) (span : Span)
    (what : String) :
    EmitsCode (Lower.check ⟨.builtins, options⟩ (e.lower ⟨.builtins, options⟩ symbols) expected
      span what) fun H lo z T hi => ∃ y mid T₁ l, T = .seq T₁ (.line l) ∧
        Expr.Compiles ⟨.builtins, options⟩ symbols.functions H symbols.scopes lo e T₁ y mid ∧
        CoerceLine H y expected z l ∧ Code.Within mid hi (.line l) :=
  EmitsCode.thenLine (Expr.lower_compiles options symbols e) fun y =>
    Lower.coerce_line y expected span what

theorem Lower.exprStmt_emits (e : Expr) (span : Span) :
    EmitsStmt ret base (Lower.exprStmt ⟨.builtins, options⟩ e)
      fun functions H loop outer lo top T top' hi =>
        Stmt.Compiles ⟨.builtins, options⟩ functions H ret base loop outer lo top (.expr e span) T
          top' hi := by
  intro func S w loop t outer top hw hopen w' hrun
  obtain ⟨s, w₁, hs, hrun⟩ := Act.run_bind_eq_ok.1 hrun
  obtain ⟨rfl, rfl⟩ := Lower.symbols_run hs
  obtain ⟨x, w₂, hx, hrun⟩ := Act.run_bind_eq_ok.1 hrun
  obtain ⟨S₁, T₁, rfl, hw₁, he₁, hopen₁, -, hc⟩ :=
    hw.code (Expr.lower_compiles options w.symbols e) hopen hx
  obtain ⟨S₂, l, rfl, hw₂, he₂, -, hl⟩ := hw₁.line (Lifetime.release_line x) hopen₁ hrun
  refine ⟨S₂, _, top, rfl, ?_, he₁.seq he₂, fun H hH => ?_⟩
  · rw [← hw.scopes]
  · have hcomp := hc H (hH.before he₂.grows)
    rw [hw.scopes] at hcomp
    exact .expr hcomp (hl H hH) he₂.within

/-- The conversion and the copy of a value that its place will own. -/
theorem Work.Stands.owned {loop : Option Nat} (hw : w.Stands S ret base loop t scopes)
    (hopen : S.Open) {e : Expr} {expected : TypeId}
    (hrun : (do
      let z ← (liftM (Lower.check ⟨.builtins, options⟩ (e.lower ⟨.builtins, options⟩ w.symbols)
        expected span what) : Lower ExprValue)
      liftM (Lifetime.materialize .builtins z) : Lower Value).run w = (.ok v, w')) :
    ∃ (S' : Site func) (T : Code) (l l' : Lines), w' = { w with builder := S'.builder } ∧
      w'.Stands S' ret base loop t scopes ∧ Emitted t (.seq T (.line (l ++ l'))) S S' ∧ S'.Open ∧
      ∀ H : Host, H.Completes func S'.builder.module → ∃ mid y z,
        Expr.Compiles ⟨.builtins, options⟩ w.symbols.functions H scopes S.body.insts.length e T y
          mid ∧ CoerceLine H y expected z l ∧ MaterializeLine H z v l' ∧
        Code.Within mid S'.body.insts.length (.line (l ++ l')) := by
  obtain ⟨z, w₁, hz, hrun⟩ := Act.run_bind_eq_ok.1 hrun
  obtain ⟨S₁, T₁, rfl, hw₁, he₁, hopen₁, -, hc⟩ :=
    hw.code (Lower.check_emits e expected span what) hopen hz
  obtain ⟨S₂, l', rfl, hw₂, he₂, hopen₂, hl⟩ := hw₁.line (Lifetime.materialize_line z) hopen₁ hrun
  -- The shape of the code does not depend on what the module becomes.
  obtain ⟨y, mid, T, l, rfl, -, -, -⟩ := hc _ (.self S₁)
  refine ⟨S₂, T, l, l', rfl, hw₂, (he₁.seq he₂).regroup, hopen₂, fun H hH => ?_⟩
  obtain ⟨y, mid, T', l₁, hT, hcomp, hcoerce, hin⟩ := hc H (hH.before he₂.grows)
  cases hT
  rw [hw.scopes] at hcomp
  refine ⟨mid, y, z, hcomp, hcoerce, hl H hH, hin.1.trans he₂.within.1, fun i hi => ?_⟩
  simp only [Code.ids, List.map_append, List.mem_append] at hi
  rcases hi with hi | hi
  · exact ⟨(hin.2 i hi).1, Nat.lt_of_lt_of_le (hin.2 i hi).2 he₂.within.1⟩
  · exact ⟨hin.1.trans (he₂.within.2 i hi).1, (he₂.within.2 i hi).2⟩

theorem Work.Stands.initial {loop : Option Nat} (hw : w.Stands S ret base loop t scopes)
    (hopen : S.Open) {ty : TypeId} {init : Option Expr}
    (hrun : (Lower.initialValue ⟨.builtins, options⟩ ty name init span).run w = (.ok v, w')) :
    ∃ (S' : Site func) (T : Code), w' = { w with builder := S'.builder } ∧
      w'.Stands S' ret base loop t scopes ∧ Emitted t T S S' ∧ S'.Open ∧
      ∀ H : Host, H.Completes func S'.builder.module →
        Stmt.Initial ⟨.builtins, options⟩ w.symbols.functions H scopes ty S.body.insts.length init
          T v S'.body.insts.length := by
  -- A given value is converted and owned; a missing one is made by the type.
  cases init with
  | some e =>
    obtain ⟨s, w₁, hs, hrun⟩ := Act.run_bind_eq_ok.1 hrun
    obtain ⟨rfl, rfl⟩ := Lower.symbols_run hs
    obtain ⟨S', T, l, l', hw', hst, he, hopen', hc⟩ := hw.owned hopen hrun
    refine ⟨S', _, hw', hst, he, hopen', fun H hH => ?_⟩
    obtain ⟨mid, y, z, hcomp, hcoerce, hmat, hin⟩ := hc H hH
    exact .given hcomp hcoerce hmat hin
  | none =>
    obtain ⟨d, w₁, hd, hrun⟩ := Act.run_bind_eq_ok.1 hrun
    obtain ⟨hresolve, rfl⟩ := Lower.ofExcept_run hd
    obtain ⟨b, rfl, rfl⟩ := TypeTable.builtins_resolve_eq_ok.1 hresolve
    obtain ⟨r, w₂, hr, hrun⟩ := Act.run_bind_eq_ok.1 hrun
    obtain ⟨S', l, rfl, hst, he, hopen', hl⟩ := hw.line (b.defaultValue_line.mapError _) hopen hr
    obtain ⟨rfl, rfl⟩ := Act.run_pure_eq_ok.1 hrun
    exact ⟨S', _, rfl, hst, he, hopen', fun H hH => .default (hl H hH) he.within⟩

theorem Prototype.shape_eq_ok {types : TypeTable} {id : TypeId} {ty : Ty}
    (h : Prototype.shape types id span = .ok ty) : types.representation id = .ok ty := by
  unfold Prototype.shape at h
  cases hr : types.representation id with
  | error e => rw [hr] at h; cases h
  | ok t => rw [hr] at h; cases h; rfl

theorem Scopes.declare_eq_ok {ty : TypeId}
    (h : Scopes.declare (.of (top :: outer)) name ty ptr span = .ok scopes) :
    scopes = (.of ((⟨name, ty, ptr, span, outer.length + 1⟩ :: top) :: outer)) ∧
      Scopes.findIn top name = none := by
  cases hf : Scopes.findIn top name with
  | none =>
    rw [declare_of top outer hf] at h
    exact ⟨(Except.ok.inj h).symm, rfl⟩
  | some slot =>
    rw [declare_taken top outer hf] at h
    cases h

theorem Lower.varDecl_emits (ty : TypeName) (name : Ident) (init : Option Expr) (span : Span) :
    EmitsStmt ret base (Lower.varDecl ⟨.builtins, options⟩ ty name init span)
      fun functions H loop outer lo top T top' hi =>
        Stmt.Compiles ⟨.builtins, options⟩ functions H ret base loop outer lo top
          (.decl ty name init span) T top' hi := by
  intro func S w loop t outer top hw hopen w' hrun
  obtain ⟨id, w₁, hid, hrun⟩ := Act.run_bind_eq_ok.1 hrun
  obtain ⟨hresolve, rfl⟩ := Lower.ofExcept_run hid
  obtain ⟨_, w₂, hr, hrun⟩ := Act.run_bind_eq_ok.1 hrun
  obtain ⟨hvoid, rfl⟩ := Lower.refuseIf_run hr
  obtain ⟨s, w₃, hs, hrun⟩ := Act.run_bind_eq_ok.1 hrun
  obtain ⟨rfl, rfl⟩ := Lower.symbols_run hs
  obtain ⟨_, w₄, hcheck, hrun⟩ := Act.run_bind_eq_ok.1 hrun
  obtain ⟨-, rfl⟩ := Lower.ofExcept_run hcheck
  obtain ⟨shape, w₅, hsh, hrun⟩ := Act.run_bind_eq_ok.1 hrun
  obtain ⟨hshape, rfl⟩ := Lower.ofExcept_run hsh
  obtain ⟨v, w₆, hv, hrun⟩ := Act.run_bind_eq_ok.1 hrun
  -- The value is computed before the slot is reserved, so that it cannot see the new variable.
  obtain ⟨S₁, T, rfl, hw₁, he₁, hopen₁, hinit⟩ := hw.initial hopen hv
  obtain ⟨ptr, w₇, hptr, hrun⟩ := Act.run_bind_eq_ok.1 hrun
  obtain ⟨b, halloca, rfl⟩ := Lower.run_build_eq_ok.1 hptr
  obtain ⟨S₂, rfl, he₂, rfl, hlen₂, hslot, size, hinst⟩ := Build.alloca_run hopen₁ halloca
  have hopen₂ : S₂.Open := he₂.ends
  have hw₂ := hw₁.at (he₂.sound hw₁.sound)
  obtain ⟨_, w₈, hstore, hrun⟩ := Act.run_bind_eq_ok.1 hrun
  obtain ⟨S₃, l, rfl, hw₃, he₃, hopen₃, hl⟩ := hw₂.line (Build.store_line v _).lift hopen₂ hstore
  obtain ⟨s', w₉, hs', hrun⟩ := Act.run_bind_eq_ok.1 hrun
  obtain ⟨rfl, rfl⟩ := Lower.symbols_run hs'
  obtain ⟨scopes, w₁₀, hdeclare, hrun⟩ := Act.run_bind_eq_ok.1 hrun
  obtain ⟨hdecl, rfl⟩ := Lower.ofExcept_run hdeclare
  have hscopes : w.symbols.scopes = (.of (top :: outer)) := hw.scopes
  simp only [hscopes] at hdecl
  obtain ⟨rfl, hfree⟩ := Scopes.declare_eq_ok hdecl
  obtain rfl := Lower.setScopes_run hrun
  -- Three stretches of code in a row: the value, the slot, the store.
  have he := he₁.seq (he₂.append he₃)
  rw [List.nil_append] at he
  refine ⟨S₃, _, _, rfl, rfl, he, fun H hH => ?_⟩
  have hH₂ := hH.before he₃.grows
  have hle : S₁.body.insts.length ≤ S₂.body.insts.length := he₂.within.1
  -- The slot lies among those of the entry block, where no later code can move it.
  refine .decl hresolve hvoid (Prototype.shape_eq_ok hshape) hfree
    (hinit H (hH₂.before he₂.grows)) ⟨Nat.le_refl _, ?_, ?_, ?_⟩ (hl H hH) ?_
  · exact Nat.lt_of_lt_of_le (hlen₂ ▸ Nat.lt_succ_self _) he₃.within.1
  · exact (hH₂.extend.2.slots 0).subset hslot
  · exact Host.hasType_inst (hH₂.inst? hinst)
  · exact ⟨hle.trans he₃.within.1, fun i hi => ⟨hle.trans (he₃.within.2 i hi).1,
      (he₃.within.2 i hi).2⟩⟩

/-- The value that a `return` hands to the caller. -/
theorem Work.Stands.result {loop : Option Nat} (hw : w.Stands S ret base loop t scopes)
    (hopen : S.Open) {frame : FunctionFrame} (hframe : frame.ret = ret) {value : Option Expr}
    {v : Option Value}
    (hrun : (Lower.returnValue ⟨.builtins, options⟩ frame value span).run w = (.ok v, w')) :
    ∃ (S' : Site func) (T : Code), w' = { w with builder := S'.builder } ∧
      w'.Stands S' ret base loop t scopes ∧ Emitted t T S S' ∧ S'.Open ∧
      ∀ H : Host, H.Completes func S'.builder.module →
        Stmt.Result ⟨.builtins, options⟩ w.symbols.functions H ret scopes S.body.insts.length value
          T v S'.body.insts.length := by
  subst hframe
  cases value with
  | none =>
    obtain ⟨_, w₁, hr, hrun⟩ := Act.run_bind_eq_ok.1 hrun
    obtain ⟨hvoid, rfl⟩ := Lower.refuseIf_run hr
    obtain ⟨rfl, rfl⟩ := Act.run_pure_eq_ok.1 hrun
    refine ⟨S, .line [], ?_, hw, .nil t S hopen, hopen, fun H _ => .none (not_not.1 hvoid)⟩
    rw [← hw.builder]
  | some e =>
    obtain ⟨_, w₁, hr, hrun⟩ := Act.run_bind_eq_ok.1 hrun
    obtain ⟨hvoid, rfl⟩ := Lower.refuseIf_run hr
    obtain ⟨s, w₂, hs, hrun⟩ := Act.run_bind_eq_ok.1 hrun
    obtain ⟨rfl, rfl⟩ := Lower.symbols_run hs
    rw [← bind_assoc] at hrun
    obtain ⟨x, w₃, hx, hrun⟩ := Act.run_bind_eq_ok.1 hrun
    obtain ⟨rfl, rfl⟩ := Act.run_pure_eq_ok.1 hrun
    -- A returned value is owned like one that is stored.
    obtain ⟨S', T, l, l', hw', hst, he, hopen', hc⟩ := hw.owned hopen hx
    refine ⟨S', _, hw', hst, he, hopen', fun H hH => ?_⟩
    obtain ⟨mid, y, z, hcomp, hcoerce, hmat, hin⟩ := hc H hH
    exact .some hvoid hcomp hcoerce hmat hin

theorem Lower.returnStmt_emits (value : Option Expr) (span : Span) :
    EmitsStmt ret base (Lower.returnStmt ⟨.builtins, options⟩ value span)
      fun functions H loop outer lo top T top' hi =>
        Stmt.Compiles ⟨.builtins, options⟩ functions H ret base loop outer lo top (.ret value span)
          T top' hi := by
  intro func S w loop t outer top hw hopen w' hrun
  obtain ⟨s, w₁, hs, hrun⟩ := Act.run_bind_eq_ok.1 hrun
  obtain ⟨rfl, rfl⟩ := Lower.symbols_run hs
  obtain ⟨frame, hframe, hret, hdepth⟩ := hw.control.function
  rw [hframe] at hrun
  obtain ⟨v, w₂, hv, hrun⟩ := Act.run_bind_eq_ok.1 hrun
  -- The result is owned before the variables are destroyed, so it may be read from one of them.
  obtain ⟨S₁, T, rfl, hw₁, he₁, hopen₁, hc⟩ := hw.result hopen hret hv
  obtain ⟨s, w₃, hs, hrun⟩ := Act.run_bind_eq_ok.1 hrun
  obtain ⟨rfl, rfl⟩ := Lower.symbols_run hs
  rw [hw₁.scopes, hdepth] at hrun
  obtain ⟨_, w₄, hd, hrun⟩ := Act.run_bind_eq_ok.1 hrun
  obtain ⟨S₂, l, rfl, hw₂, he₂, hopen₂, hl⟩ := hw₁.line (Lifetime.destroySlots_line _) hopen₁ hd
  obtain ⟨b, hb, rfl⟩ := Lower.run_build_eq_ok.1 hrun
  obtain ⟨-, rfl⟩ := Build.ret_run hb
  have he₃ := Emitted.ret t S₂ hopen₂ v
  -- Everything behind the return is unreachable, and the block is closed.
  refine ⟨_, _, top, rfl, ?_, he₁.seq (he₂.seq he₃), fun H hH => ?_⟩
  · rw [← hw.scopes]
  · have hH₂ := hH.before he₃.grows
    refine .ret (hc H (hH₂.before he₂.grows)) (hl H hH₂) ?_
    exact ⟨he₂.within.1.trans he₃.within.1, fun i hi =>
      ⟨(he₂.within.2 i hi).1, Nat.lt_of_lt_of_le (he₂.within.2 i hi).2 he₃.within.1⟩⟩

/-- A jump goes to one of the two targets of the enclosing loop. -/
theorem Lower.jump_emits {target : LoopFrame → BlockId} {j : Jump}
    (htarget : ∀ l : LoopFrame, target l = Targets.block ⟨l.continueBlock, l.breakBlock⟩ j)
    {s : Stmt} (hj : s.jump? = some j) :
    EmitsStmt ret base (Lower.jump ⟨.builtins, options⟩ keyword target span)
      fun functions H loop outer lo top T top' hi =>
        Stmt.Compiles ⟨.builtins, options⟩ functions H ret base loop outer lo top s T top' hi := by
  intro func S w loop t outer top hw hopen w' hrun
  obtain ⟨s, w₁, hs, hrun⟩ := Act.run_bind_eq_ok.1 hrun
  obtain ⟨rfl, rfl⟩ := Lower.symbols_run hs
  -- Outside of a loop there is nowhere to jump to, and the statement is refused.
  rcases hw.control.jumps with ⟨hnone, -, -⟩ | ⟨frame, hframe, rfl, rfl⟩
  · rw [hnone] at hrun
    exact absurd hrun Act.run_throw_ne_ok
  · rw [hframe] at hrun
    obtain ⟨s, w₃, hs, hrun⟩ := Act.run_bind_eq_ok.1 hrun
    obtain ⟨rfl, rfl⟩ := Lower.symbols_run hs
    rw [hw.scopes] at hrun
    obtain ⟨_, w₄, hd, hrun⟩ := Act.run_bind_eq_ok.1 hrun
    -- A jump leaves the scopes opened since the loop began, so their variables go first.
    obtain ⟨S₁, l, rfl, hw₁, he₁, hopen₁, hl⟩ := hw.line (Lifetime.destroySlots_line _) hopen hd
    obtain ⟨b, hb, rfl⟩ := Lower.run_build_eq_ok.1 hrun
    obtain ⟨-, rfl⟩ := Build.br_run hb
    rw [htarget]
    have he₂ := Emitted.leave S₁ hopen₁ hw₁.sound j
    refine ⟨_, _, top, rfl, ?_, he₁.seq he₂, fun H hH => ?_⟩
    · rw [← hw.scopes]
    · refine .jump hj (hl H (hH.before he₂.grows)) ?_
      exact ⟨he₁.within.1.trans he₂.within.1, fun i hi =>
        ⟨(he₁.within.2 i hi).1, Nat.lt_of_lt_of_le (he₁.within.2 i hi).2 he₂.within.1⟩⟩

/-! ## Scopes -/

/-- The code of what stands in a scope of its own, with the end of the scope. -/
def Scoped (Q : Functions → Host → Option Nat → List (List Slot) → Nat → List Slot → Code →
      List Slot → Nat → Prop) (functions : Functions) (H : Host) (loop : Option Nat)
    (outer : List (List Slot)) (lo : Nat) (top : List Slot) (T' : Code) (top' : List Slot)
    (hi : Nat) : Prop :=
  top' = top ∧ ∃ (T : Code) (slots : List Slot) (mid : Nat),
    Q functions H loop (top :: outer) lo [] T slots mid ∧ ScopeEnd H slots mid T T' hi

theorem Lower.inScope_emits (hx : EmitsStmt ret base x Q) :
    EmitsStmt ret base (Lower.inScope ⟨.builtins, options⟩ x) (Scoped Q) := by
  intro func S w loop t outer top hw hopen w' hrun
  obtain ⟨s, w₁, hs, hrun⟩ := Act.run_bind_eq_ok.1 hrun
  obtain ⟨rfl, rfl⟩ := Lower.symbols_run hs
  rw [hw.scopes] at hrun
  obtain ⟨_, w₁, hset, hrun⟩ := Act.run_bind_eq_ok.1 hrun
  obtain rfl := Lower.setScopes_run hset
  obtain ⟨slots, w₂, halways, hrun⟩ := Act.run_bind_eq_ok.1 hrun
  obtain ⟨w₃, hin, rfl⟩ := Act.run_andAlways_eq_ok.1 halways
  obtain ⟨_, w₄, hrunx, hin⟩ := Act.run_bind_eq_ok.1 hin
  -- The statement runs with an empty scope on top, which is taken off again whatever happens.
  have hpushed : Work.Stands
      { w with symbols := { w.symbols with scopes := Scopes.push (.of (top :: outer)) } } S ret base
      loop t (.of ([] :: top :: outer)) := ⟨hw.builder, hw.sound, hw.control, rfl⟩
  obtain ⟨S₁, T, top', hb₁, hsym₁, he₁, hQ⟩ :=
    hx func S _ loop t (top :: outer) [] hpushed hopen w₄ hrunx
  obtain ⟨s, w₅, hs, hin⟩ := Act.run_bind_eq_ok.1 hin
  obtain ⟨rfl, rfl⟩ := Lower.symbols_run hs
  obtain ⟨rfl, rfl⟩ := Act.run_pure_eq_ok.1 hin
  rw [hsym₁] at hrun
  have hsym : ({ w.symbols with scopes := Scopes.pop (.of (top' :: top :: outer)) } : Symbols) =
      { w.symbols with scopes := (.of (top :: outer)) } := rfl
  have hst : Work.Stands
      { w₃ with symbols := { w.symbols with scopes := Scopes.pop (.of (top' :: top :: outer)) } } S₁ ret
      base loop t (.of (top :: outer)) := ⟨hb₁, he₁.sound hw.sound, hw.control, rfl⟩
  -- The variables of the scope are destroyed only if control gets to its end.
  obtain ⟨ended, w₆, hended, hrun⟩ := Act.run_bind_eq_ok.1 hrun
  obtain ⟨rfl, rfl⟩ := Lower.isTerminated_run hst.builder hended
  rw [he₁.ends] at hrun
  rcases Act.run_onlyIf_eq_ok.1 hrun with ⟨hends, hrun⟩ | ⟨hends, rfl⟩
  · -- Control gets to the end of the scope.
    have hT : T.ends = false := by simpa using hends
    obtain ⟨S₂, l, rfl, -, he₂, -, hl⟩ :=
      hst.line (Lifetime.destroySlots_line _) (he₁.ends.trans hT) hrun
    refine ⟨S₂, _, top, rfl, hsym, he₁.seq he₂, fun H hH => ⟨rfl, T, top', _,
      hQ H (hH.before he₂.grows), .left hT ?_ he₂.within⟩⟩
    have hd := hl H hH
    simpa [Scopes.innermost_of] using hd
  · have hT : T.ends = true := by simpa using hends
    exact ⟨S₁, T, top, hb₁, hsym, he₁, fun H hH => ⟨rfl, T, top', _, hQ H hH, .ended hT⟩⟩

/-- Where the current block is not ended, nothing is dropped. -/
theorem Lower.unlessEnded_emits (hx : EmitsStmt ret base x Q) :
    EmitsStmt ret base (Lower.unlessEnded ⟨.builtins, options⟩ span x) Q := by
  intro func S w loop t outer top hw hopen w' hrun
  obtain ⟨ended, w₁, hended, hrun⟩ := Act.run_bind_eq_ok.1 hrun
  obtain ⟨rfl, rfl⟩ := Lower.isTerminated_run hw.builder hended
  rw [show S.body.isTerminated S.block = false from hopen] at hrun
  exact hx func S w loop t outer top hw hopen w' hrun

theorem Lower.nested_emits (hx : EmitsStmt ret base x Q) :
    EmitsStmt ret base (Lower.nested ⟨.builtins, options⟩ span x) (Scoped Q) :=
  Lower.inScope_emits (Lower.unlessEnded_emits hx)

/-- A dropped statement changes nothing but the diagnostics. -/
theorem Lower.dropUnreachable_run (h : (Lower.dropUnreachable env span).run w = (.ok u, w')) :
    w'.builder = w.builder ∧ w'.symbols = w.symbols := by
  unfold Lower.dropUnreachable at h
  cases hopt : env.options.unreachable with
  | error =>
    rw [hopt] at h
    exact absurd h Act.run_throw_ne_ok
  | warn =>
    rw [hopt] at h
    obtain ⟨s, w₁, hs, h⟩ := Act.run_bind_eq_ok.1 h
    obtain ⟨rfl, rfl⟩ := Lower.symbols_run hs
    obtain rfl := Act.run_modify_eq_ok.1 h
    exact ⟨rfl, rfl⟩

/-! ## Conditionals and loops -/

theorem Lower.condition_emits {x : Emit ExprValue} {Q : Host → Nat → ExprValue → Code → Nat → Prop}
    (hx : EmitsCode x Q) :
    EmitsCode (Lower.condition env x span) fun H lo v T hi =>
      ∃ y, v = y.value ∧ y.ty = Builtin.bool.id ∧ Q H lo y T hi := by
  intro func t S hopen hsound v w hrun
  obtain ⟨y, w₁, hy, hrun⟩ := Act.run_bind_eq_ok.1 hrun
  obtain ⟨S', T, rfl, he, hT, hQ⟩ := hx func t S hopen hsound y w₁ hy
  obtain ⟨_, w₂, hr, hrun⟩ := Act.run_bind_eq_ok.1 hrun
  obtain ⟨hty, rfl⟩ := Act.run_refuseIf_eq_ok.1 hr
  obtain ⟨rfl, rfl⟩ := Act.run_pure_eq_ok.1 hrun
  exact ⟨S', T, rfl, he, hT, fun H hH => ⟨y, rfl, not_not.1 hty, hQ H hH⟩⟩

theorem Work.Stands.condition {loop : Option Nat} (hw : w.Stands S ret base loop t scopes)
    (hopen : S.Open) {c : Expr}
    (hrun : (Lower.branchCondition ⟨.builtins, options⟩ c).run w = (.ok v, w')) :
    ∃ (S' : Site func) (T : Code), w' = { w with builder := S'.builder } ∧
      w'.Stands S' ret base loop t scopes ∧ Emitted t T S S' ∧ S'.Open ∧ T.ends = false ∧
      ∀ H : Host, H.Completes func S'.builder.module → ∃ x : ExprValue, v = x.value ∧
        x.ty = Builtin.bool.id ∧ Expr.Compiles ⟨.builtins, options⟩ w.symbols.functions H scopes
          S.body.insts.length c T x S'.body.insts.length := by
  obtain ⟨s, w₁, hs, hrun⟩ := Act.run_bind_eq_ok.1 hrun
  obtain ⟨rfl, rfl⟩ := Lower.symbols_run hs
  obtain ⟨S', T, hw', hst, he, hopen', hT, hQ⟩ :=
    hw.code (Lower.condition_emits (Expr.lower_compiles options w.symbols c)) hopen hrun
  refine ⟨S', T, hw', hst, he, hopen', hT, fun H hH => ?_⟩
  have hc := hQ H hH
  rw [hw.scopes] at hc
  exact hc

/-- A block that is not ended falls into another one. -/
theorem Lower.fallInto_run {target : BlockId} {T : Code} (hb : w.builder = S.builder)
    (hends : S.body.isTerminated S.block = T.ends)
    (h : (Lower.fallInto target).run w = (.ok u, w')) :
    ∃ S' : Site func, Falls target T S S' ∧ w' = { w with builder := S'.builder } := by
  obtain ⟨ended, w₁, hended, h⟩ := Act.run_bind_eq_ok.1 h
  obtain ⟨rfl, rfl⟩ := Lower.isTerminated_run hb hended
  rw [hends] at h
  rcases Act.run_onlyIf_eq_ok.1 h with ⟨hT, h⟩ | ⟨hT, rfl⟩
  · obtain ⟨b, hbr, rfl⟩ := Lower.run_build_eq_ok.1 h
    rw [hb] at hbr
    obtain ⟨-, rfl⟩ := Build.br_run hbr
    exact ⟨_, .falls (by simpa using hT), rfl⟩
  · refine ⟨S, .ended (by simpa using hT), ?_⟩
    rw [← hb]

/-- Two blocks are appended, and the block where the condition ends forks to them. -/
theorem Lower.fork_run {first second : String} {k : FuncId → BlockId → BlockId → Lower Unit}
    {v : Value} (hb : w.builder = S.builder) (hopen : S.Open) (hbounded : S.body.Bounded)
    (hfirst : first ∈ Build.labels) (hsecond : second ∈ Build.labels)
    (hrun : (do
      let f ← (liftM Build.currentFunction : Lower FuncId)
      let a ← (liftM (Build.appendBlock f first) : Lower BlockId)
      let b ← (liftM (Build.appendBlock f second) : Lower BlockId)
      (liftM (Build.condBr v a b) : Lower Unit)
      k f a b).run w = (.ok u, w')) :
    ∃ S' : Site func,
      Forked 2 S S' (.condBr v S.body.blocks.length (S.body.blocks.length + 1)) ∧
      (k func S.body.blocks.length (S.body.blocks.length + 1)).run
        { w with builder := S'.builder } = (.ok u, w') := by
  obtain ⟨f, b, hf, hrun⟩ := Lower.bind_build_run hrun
  rw [hb] at hf
  obtain ⟨rfl, rfl⟩ := Build.currentFunction_run hf
  -- Two blocks are opened, and then the block in hand is closed.
  obtain ⟨_, b, h₁, hrun⟩ := Lower.bind_build_run hrun
  obtain ⟨rfl, S₁, rfl, happ₁⟩ := Build.appendBlock_run (.refl S) hfirst h₁
  obtain ⟨_, b, h₂, hrun⟩ := Lower.bind_build_run hrun
  obtain ⟨rfl, S₂, rfl, happ₂⟩ := Build.appendBlock_run happ₁ hsecond h₂
  obtain ⟨_, b, h₃, hrun⟩ := Lower.bind_build_run hrun
  obtain ⟨-, rfl⟩ := Build.condBr_run h₃
  exact ⟨_, happ₂.condBr hopen hbounded v (.inl rfl) (.inr rfl), hrun⟩

theorem Lower.ifThen_emits (c : Expr) (hx : EmitsStmt ret base x (Scoped Q)) :
    EmitsStmt ret base (Lower.ifThen ⟨.builtins, options⟩ c x)
      fun functions H loop outer lo top T top' hi => top' = top ∧ ∃ y Tc T' m₁ m₂ m₃,
        T = .seq Tc (.ifThen y.value T') ∧ y.ty = Builtin.bool.id ∧
        Expr.Compiles ⟨.builtins, options⟩ functions H (.of (top :: outer)) lo c Tc y m₁ ∧ m₁ ≤ m₂ ∧
        Scoped Q functions H loop outer m₂ top T' top m₃ ∧ m₃ ≤ hi := by
  intro func S w loop t outer top hw hopen w' hrun
  obtain ⟨v, w₁, hv, hrun⟩ := Act.run_bind_eq_ok.1 hrun
  obtain ⟨S₁, Tc, rfl, hw₁, hec, hopen₁, -, hcond⟩ := hw.condition hopen hv
  obtain ⟨S₄, hfork, hrun⟩ :=
    Lower.fork_run rfl hopen₁ hw₁.sound.bounded (by decide) (by decide) hrun
  have hin : S₁.body.blocks.length < S₄.body.blocks.length :=
    hfork.length ▸ Nat.lt_add_of_pos_right Nat.two_pos
  obtain ⟨_, w₅, hframe, hrun⟩ := Act.run_bind_eq_ok.1 hrun
  obtain ⟨w₆, hinner, rfl⟩ := Lower.withFrame_run hframe
  obtain ⟨_, b, hmove, hinner⟩ := Lower.bind_build_run hinner
  obtain rfl := Build.moveTo_run hmove hin
  obtain ⟨_, w₇, hrunx, hinner⟩ := Act.run_bind_eq_ok.1 hinner
  -- The branch starts in its own empty block, below one more frame of control.
  have hstart : Work.Stands
      { builder := (S₄.moveTo _ hin).builder,
        symbols := { w.symbols with control := .conditional :: w.symbols.control },
        diagnostics := w.diagnostics } (S₄.moveTo _ hin) ret base loop t (.of (top :: outer)) :=
    ⟨rfl, (hfork.sound hw₁.sound).moveTo hin, hw.control.conditional, hw.scopes⟩
  obtain ⟨S₅, T', top', hb₅, hsym₅, he₅, hQ⟩ := hx func _ _ loop t outer top hstart
    (hfork.moveTo_open (Nat.le_refl _) hin) w₇ hrunx
  obtain ⟨S₆, hfall, rfl⟩ := Lower.fallInto_run hb₅ he₅.ends hinner
  -- It falls into the join unless it has ended, and the join is where control goes on.
  obtain ⟨b, hmove', rfl⟩ := Lower.run_build_eq_ok.1 hrun
  have hjoin : S₄.body.Waits (S₁.body.blocks.length + 1) :=
    hfork.waits (Nat.le_succ _) (Nat.lt_succ_self _)
  have hin' := (hfall.awaits (he₅.awaits (hjoin.moveTo hin (Nat.succ_ne_self _)))).inside
  obtain rfl := Build.moveTo_run hmove' hin'
  obtain ⟨rfl, -⟩ := hQ _ (.self S₅)
  have he := Emitted.ifThen hopen₁ rfl rfl hfork hin he₅ hfall hin'
  refine ⟨_, _, top', rfl, ?_, hec.seq he, fun H hH => ?_⟩
  · show { w₇.symbols with control := w₇.symbols.control.tail } = _
    rw [hsym₅]
    rfl
  · obtain ⟨y, rfl, hy, hcomp⟩ := hcond H (hH.before he.grows)
    refine ⟨rfl, y, Tc, T', _, _, _, rfl, hy, hcomp, ?_, hQ H (hH.before hfall.grows), hfall.insts⟩
    exact hfork.insts ▸ Nat.le_succ _

/-- A branch of a conditional starts in an empty block. -/
theorem Lower.branch_run {start : BlockId} {loop : Option Nat} {o : Option BlockId}
    (hx : EmitsStmt ret base x (Scoped Q)) (hw : w.Stands S ret base loop t (.of (top :: outer)))
    (hin : start < S.body.blocks.length) (hempty : S.body.blockIds start = [])
    (hrun : (Lower.branch func start x).run w = (.ok o, w')) :
    ∃ (S' : Site func) (T : Code), w'.Stands S' ret base loop t (.of (top :: outer)) ∧
      w'.symbols = w.symbols ∧ Emitted t T (S.moveTo start hin) S' ∧
      o = (if T.ends then none else some S'.block) ∧
      ∀ H : Host, H.Completes func S'.builder.module →
        Scoped Q w.symbols.functions H loop outer S.body.insts.length top T top
          S'.body.insts.length := by
  obtain ⟨_, b, hmove, hrun⟩ := Lower.bind_build_run hrun
  rw [hw.builder] at hmove
  obtain rfl := Build.moveTo_run hmove hin
  obtain ⟨_, w₁, hrunx, hrun⟩ := Act.run_bind_eq_ok.1 hrun
  obtain ⟨S', T, top', hb, hsym, he, hQ⟩ := hx func (S.moveTo start hin) _ loop t outer top
    (hw.at (hw.sound.moveTo hin)) (Site.open_of_empty rfl hempty) w₁ hrunx
  obtain ⟨rfl, -⟩ := hQ _ (.self S')
  have hsym' : w₁.symbols = w.symbols := by
    rw [hsym, ← hw.scopes]
  have hst : w₁.Stands S' ret base loop t (.of (top' :: outer)) :=
    ⟨hb, he.sound (hw.sound.moveTo hin), by rw [hsym']; exact hw.control,
      by rw [hsym']; exact hw.scopes⟩
  obtain ⟨ended, w₂, hended, hrun⟩ := Act.run_bind_eq_ok.1 hrun
  obtain ⟨rfl, rfl⟩ := Lower.isTerminated_run hb hended
  rw [he.ends] at hrun
  -- A branch that has ended has no block to join from.
  cases hT : T.ends with
  | true =>
    rw [hT] at hrun
    obtain ⟨rfl, rfl⟩ := Act.run_pure_eq_ok.1 hrun
    exact ⟨S', T, hst, hsym', he, by rw [hT]; rfl, hQ⟩
  | false =>
    rw [hT] at hrun
    obtain ⟨block, w₃, hblock, hrun⟩ := Act.run_bind_eq_ok.1 hrun
    obtain ⟨b, hcur, rfl⟩ := Lower.run_build_eq_ok.1 hblock
    rw [hb] at hcur
    obtain ⟨rfl, rfl⟩ := Build.currentBlock_run hcur
    obtain ⟨rfl, rfl⟩ := Act.run_pure_eq_ok.1 hrun
    exact ⟨S', T, hst.at hst.sound, hsym', he, by rw [hT]; rfl, hQ⟩

/-- The end of a branch falls into the join.  A branch that is ended is left
    as it is, and the builder does not even move there. -/
theorem Lower.joinBranch_run {T : Code} {block join : BlockId} {u : PUnit}
    (hin : block < S.body.blocks.length) (hb : w.builder = S.builder)
    (h : ((if T.ends then none else some block : Option BlockId).toList.forM fun b => do
      (liftM (Build.moveTo func b) : Lower Unit)
      liftM (Build.br join)).run w = (.ok u, w')) :
    ∃ A S' : Site func, w' = { w with builder := A.builder } ∧
      Falls join T (S.moveTo block hin) S' ∧ A.body = S'.body ∧
      ∀ c hA hS', A.moveTo c hA = S'.moveTo c hS' := by
  -- A branch that ended needs no jump.
  cases hT : T.ends with
  | true =>
    rw [hT] at h
    obtain ⟨-, rfl⟩ := Act.run_pure_eq_ok.1 h
    exact ⟨S, S.moveTo block hin, by rw [← hb], .ended hT, rfl, fun _ _ _ => rfl⟩
  | false =>
    rw [hT] at h
    obtain ⟨_, w₁, h₁, h⟩ := Act.run_bind_eq_ok.1 h
    obtain ⟨-, rfl⟩ := Act.run_pure_eq_ok.1 h
    obtain ⟨_, b, hmove, h₁⟩ := Lower.bind_build_run h₁
    rw [hb] at hmove
    obtain rfl := Build.moveTo_run hmove hin
    obtain ⟨b, hbr, rfl⟩ := Lower.run_build_eq_ok.1 h₁
    obtain ⟨-, rfl⟩ := Build.br_run hbr
    exact ⟨_, _, rfl, .falls hT, rfl, fun _ _ _ => rfl⟩

/-- The join behind two branches is made only if one of them can be left. -/
theorem Lower.join_run {a b : Code}
    (h : (Act.onlyIf ((if a.ends then none else some Sa.block : Option BlockId).toList ++
        (if b.ends then none else some Sb.block : Option BlockId).toList ≠ []) (do
      let join ← (liftM (Build.appendBlock func "if.end") : Lower BlockId)
      ((if a.ends then none else some Sa.block : Option BlockId).toList ++
        (if b.ends then none else some Sb.block : Option BlockId).toList).forM fun block => do
          (liftM (Build.moveTo func block) : Lower Unit)
          liftM (Build.br join)
      liftM (Build.moveTo func join))).run w = (.ok u, w')) (hb : w.builder = Sb.builder)
    (hle : Sa.body.blocks.length ≤ Sb.body.blocks.length) :
    ∃ S' : Site func, Joins a b Sa Sb S' ∧ w' = { w with builder := S'.builder } := by
  -- There is a join exactly if one of the branches gets to its end.
  have hends : (if a.ends then none else some Sa.block : Option BlockId).toList ++
      (if b.ends then none else some Sb.block : Option BlockId).toList ≠ [] ↔
        (a.ends && b.ends) = false := by
    cases a.ends <;> cases b.ends <;> simp
  rcases Act.run_onlyIf_eq_ok.1 h with ⟨hne, h⟩ | ⟨hne, rfl⟩
  · obtain ⟨join, c, happ, h⟩ := Lower.bind_build_run h
    rw [hb] at happ
    obtain ⟨rfl, S₇, rfl, h₇⟩ := Build.appendBlock_run (.refl Sb) (by decide) happ
    obtain ⟨_, w₁, hforM, h⟩ := Act.run_bind_eq_ok.1 h
    rw [List.forM_eq_forM, List.forM_append] at hforM
    obtain ⟨_, w₂, hfst, hsnd⟩ := Act.run_bind_eq_ok.1 hforM
    -- The ends of both branches are still blocks after the join has been appended.
    have hlen₇ : S₇.body.blocks.length = Sb.body.blocks.length + 1 := h₇.length
    have hina : Sa.block < S₇.body.blocks.length := by
      rw [hlen₇]
      exact Nat.lt_succ_of_lt (Nat.lt_of_lt_of_le Sa.inside hle)
    obtain ⟨A₈, S₈, rfl, hfall₈, hbody₈, hmove₈⟩ := Lower.joinBranch_run hina rfl hfst
    have hinb : Sb.block < S₈.body.blocks.length := by
      rw [hfall₈.length]
      exact Nat.lt_of_lt_of_le Sb.inside (hlen₇ ▸ Nat.le_succ _)
    obtain ⟨A₉, S₉, rfl, hfall₉, hbody₉, hmove₉⟩ :=
      Lower.joinBranch_run (hbody₈ ▸ hinb) rfl hsnd
    rw [hmove₈ _ _ hinb] at hfall₉
    have hin : Sb.body.blocks.length < S₉.body.blocks.length := by
      rw [hfall₉.length]
      show _ < S₈.body.blocks.length
      rw [hfall₈.length]
      exact hlen₇ ▸ Nat.lt_succ_self _
    obtain ⟨c, hmove, rfl⟩ := Lower.run_build_eq_ok.1 h
    obtain rfl := Build.moveTo_run hmove (hbody₉ ▸ hin)
    refine ⟨_, .joined (hends.1 hne) h₇ hina hfall₈ hinb hfall₉ hin, ?_⟩
    rw [← hmove₉ _ (hbody₉ ▸ hin) hin]
    rfl
  · refine ⟨Sb, .ended ?_, by rw [← hb]⟩
    simpa using fun hfalse => hne (hends.2 hfalse)

theorem Lower.ifThenElse_emits (c : Expr) (hx : EmitsStmt ret base x (Scoped Q))
    (hy : EmitsStmt ret base y (Scoped R)) :
    EmitsStmt ret base (Lower.ifThenElse ⟨.builtins, options⟩ c x y)
      fun functions H loop outer lo top T top' hi => top' = top ∧ ∃ z Tc T₁ T₂ m₁ m₂ m₃ m₄,
        T = .seq Tc (.ifThenElse z.value T₁ T₂) ∧ z.ty = Builtin.bool.id ∧
        Expr.Compiles ⟨.builtins, options⟩ functions H (.of (top :: outer)) lo c Tc z m₁ ∧ m₁ ≤ m₂ ∧
        Scoped Q functions H loop outer m₂ top T₁ top m₃ ∧
        Scoped R functions H loop outer m₃ top T₂ top m₄ ∧ m₄ ≤ hi := by
  intro func S w loop t outer top hw hopen w' hrun
  obtain ⟨v, w₁, hv, hrun⟩ := Act.run_bind_eq_ok.1 hrun
  obtain ⟨S₁, Tc, rfl, hw₁, hec, hopen₁, -, hcond⟩ := hw.condition hopen hv
  obtain ⟨S₄, hfork, hrun⟩ :=
    Lower.fork_run rfl hopen₁ hw₁.sound.bounded (by decide) (by decide) hrun
  have hin : S₁.body.blocks.length < S₄.body.blocks.length :=
    hfork.length ▸ Nat.lt_add_of_pos_right Nat.two_pos
  obtain ⟨ends, w₅, hframe, hrun⟩ := Act.run_bind_eq_ok.1 hrun
  obtain ⟨w₆, hinner, rfl⟩ := Lower.withFrame_run hframe
  obtain ⟨o₁, w₇, hfst, hinner⟩ := Act.run_bind_eq_ok.1 hinner
  have hstart : Work.Stands
      { builder := S₄.builder,
        symbols := { w.symbols with control := .conditional :: w.symbols.control },
        diagnostics := w.diagnostics } S₄ ret base loop t (.of (top :: outer)) :=
    ⟨rfl, hfork.sound hw₁.sound, hw.control.conditional, hw.scopes⟩
  obtain ⟨S₅, T₁, hst₅, hsym₅, he₅, rfl, hQ⟩ :=
    Lower.branch_run hx hstart hin (hfork.empty _ (Nat.le_refl _)) hfst
  -- The second branch is still empty behind the first one.
  have helse : S₅.Awaits (S₁.body.blocks.length + 1) := he₅.awaits
    ((hfork.waits (Nat.le_succ _) (Nat.lt_succ_self _)).moveTo hin (Nat.succ_ne_self _))
  obtain ⟨o₂, w₈, hsnd, hinner⟩ := Act.run_bind_eq_ok.1 hinner
  obtain ⟨S₆, T₂, hst₆, hsym₆, he₆, rfl, hR⟩ :=
    Lower.branch_run hy hst₅ helse.inside helse.empty hsnd
  obtain ⟨rfl, rfl⟩ := Act.run_pure_eq_ok.1 hinner
  obtain ⟨S₇, hjoins, rfl⟩ := Lower.join_run hrun hst₆.builder he₆.edits.blocks_le
  have he := Emitted.ifThenElse hopen₁ rfl rfl hfork hin he₅ helse.inside he₆ hjoins
  refine ⟨S₇, _, top, rfl, ?_, hec.seq he, fun H hH => ?_⟩
  · show { w₆.symbols with control := w₆.symbols.control.tail } = _
    rw [hsym₆, hsym₅, ← hw.scopes]
    rfl
  · obtain ⟨z, rfl, hz, hcomp⟩ := hcond H (hH.before he.grows)
    have hH₆ := hH.before hjoins.grows
    have hsecond := hR H hH₆
    rw [hsym₅] at hsecond
    refine ⟨rfl, z, Tc, T₁, T₂, _, _, _, _, rfl, hz, hcomp, ?_, hQ H (hH₆.before he₆.grows),
      hsecond, hjoins.insts⟩
    exact hfork.insts ▸ Nat.le_succ _

theorem Lower.enterBody_run {c : Value} {bodyBlock endBlock : BlockId} {b : Builder}
    (h : (Lower.enterBody c bodyBlock endBlock).run S.builder = (.ok u, b)) :
    b = (S.push ⟨loopBranch c bodyBlock endBlock, .void, none⟩).builder := by
  unfold Lower.enterBody at h
  unfold loopBranch
  split at h
  · rw [if_pos ‹_›]
    exact (Build.br_run h).2
  · rw [if_neg ‹_›]
    exact (Build.condBr_run h).2

theorem Lower.loop_emits (c : Expr) (hx : EmitsStmt ret base x (Scoped Q)) :
    EmitsStmt ret base (Lower.loop ⟨.builtins, options⟩ c x)
      fun functions H _ outer lo top T top' hi => top' = top ∧ ∃ y Tc T' m₁ m₂ m₃ m₄,
        T = .loop Tc y.value T' ∧ y.ty = Builtin.bool.id ∧ lo ≤ m₁ ∧
        Expr.Compiles ⟨.builtins, options⟩ functions H (.of (top :: outer)) m₁ c Tc y m₂ ∧ m₂ ≤ m₃ ∧
        Scoped Q functions H (some (outer.length + 2)) outer m₃ top T' top m₄ ∧ m₄ ≤ hi := by
  intro func S w loop t outer top hw hopen w' hrun
  obtain ⟨f, b, hf, hrun⟩ := Lower.bind_build_run hrun
  rw [hw.builder] at hf
  obtain ⟨rfl, rfl⟩ := Build.currentFunction_run hf
  -- Three blocks: the condition, which is where the loop goes round, the body and the end.
  obtain ⟨condBlock, b, h₁, hrun⟩ := Lower.bind_build_run hrun
  obtain ⟨hcond, S₁, rfl, happ₁⟩ := Build.appendBlock_run (.refl S) (by decide) h₁
  obtain ⟨bodyBlock, b, h₂, hrun⟩ := Lower.bind_build_run hrun
  obtain ⟨hbody, S₂, rfl, happ₂⟩ := Build.appendBlock_run happ₁ (by decide) h₂
  obtain ⟨endBlock, b, h₃, hrun⟩ := Lower.bind_build_run hrun
  obtain ⟨hend, S₃, rfl, happ₃⟩ := Build.appendBlock_run happ₂ (by decide) h₃
  obtain ⟨_, b, h₄, hrun⟩ := Lower.bind_build_run hrun
  obtain ⟨-, rfl⟩ := Build.br_run h₄
  have hfork : Forked 3 S (S₃.push ⟨.br condBlock, .void, none⟩) (.br condBlock) := by
    refine happ₃.fork hopen hw.sound.bounded rfl fun s hs => ?_
    obtain rfl : s = condBlock := by simpa [Op.successors] using hs
    rw [hcond]
    exact ⟨Nat.le_refl _, Nat.lt_add_of_pos_right (by decide)⟩
  generalize S₃.push ⟨.br condBlock, .void, none⟩ = S₄ at hrun hfork
  -- The condition is generated in its own block, and its end decides about the body.
  have hin : condBlock < S₄.body.blocks.length := by
    rw [hcond, hfork.length]
    exact Nat.lt_add_of_pos_right (by decide)
  obtain ⟨_, b, hmove, hrun⟩ := Lower.bind_build_run hrun
  obtain rfl := Build.moveTo_run hmove hin
  obtain ⟨v, w₅, hv, hrun⟩ := Act.run_bind_eq_ok.1 hrun
  have hw₄ : Work.Stands { w with builder := (S₄.moveTo condBlock hin).builder }
      (S₄.moveTo condBlock hin) ret base loop t (.of (top :: outer)) :=
    hw.at ((hfork.sound hw.sound).moveTo hin)
  obtain ⟨S₅, Tc, rfl, hw₅, hec, hopen₅, hTc, hcomp⟩ :=
    hw₄.condition (hfork.moveTo_open (Nat.le_of_eq hcond.symm) hin) hv
  obtain ⟨_, b, henter, hrun⟩ := Lower.bind_build_run hrun
  obtain rfl := Lower.enterBody_run henter
  -- In the body, `continue` leads to the condition and `break` to the end.
  obtain ⟨hsound₆, hempty₆⟩ :=
    Emitted.loopBody (c := v) hw.sound hcond hbody hend hfork hin hec hTc
  obtain ⟨hbody₅, hend₅, hlt⟩ := Emitted.condition hcond hbody hend hfork hin hec
  have hin' := (hbody₅.push ⟨loopBranch v bodyBlock endBlock, .void, none⟩).inside
  obtain ⟨s, w₆, hs, hrun⟩ := Act.run_bind_eq_ok.1 hrun
  obtain ⟨rfl, rfl⟩ := Lower.symbols_run hs
  rw [hw₅.scopes, Scopes.depth_of, List.length_cons] at hrun
  obtain ⟨_, w₇, hframe, hrun⟩ := Act.run_bind_eq_ok.1 hrun
  obtain ⟨w₈, hinner, rfl⟩ := Lower.withFrame_run hframe
  obtain ⟨_, b, hmove', hinner⟩ := Lower.bind_build_run hinner
  obtain rfl := Build.moveTo_run hmove' hin'
  obtain ⟨_, w₉, hrunx, hinner⟩ := Act.run_bind_eq_ok.1 hinner
  have hw₆ : Work.Stands
      { builder := ((S₅.push ⟨loopBranch v bodyBlock endBlock, .void, none⟩).moveTo bodyBlock
          hin').builder,
        symbols := { w.symbols with
          control := .loop ⟨condBlock, endBlock, outer.length + 2⟩ :: w.symbols.control },
        diagnostics := w.diagnostics }
      ((S₅.push ⟨loopBranch v bodyBlock endBlock, .void, none⟩).moveTo bodyBlock hin') ret base
      (some (outer.length + 2)) (some ⟨condBlock, endBlock⟩) (.of (top :: outer)) :=
    ⟨rfl, hsound₆.moveTo hin', hw.control.loop _, hw.scopes⟩
  obtain ⟨S₇, T', top', hb₇, hsym₇, he₇, hQ⟩ :=
    hx f _ _ _ _ outer top hw₆ (Site.open_of_empty rfl hempty₆) w₉ hrunx
  obtain ⟨S₈, hfall, rfl⟩ := Lower.fallInto_run hb₇ he₇.ends hinner
  -- The body goes round to the condition, and control goes on at the end.
  obtain ⟨b, hmove'', rfl⟩ := Lower.run_build_eq_ok.1 hrun
  have hin'' := (hfall.awaits (he₇.awaits ((hend₅.push
    ⟨loopBranch v bodyBlock endBlock, .void, none⟩).toWaits.moveTo hin' (Nat.ne_of_gt hlt)))).inside
  obtain rfl := Build.moveTo_run hmove'' hin''
  obtain ⟨rfl, -⟩ := hQ _ (.self S₇)
  have he := Emitted.loop hopen hcond hbody hend hfork hin hec hTc hin' he₇ hfall hin''
  refine ⟨_, _, top', rfl, ?_, he, fun H hH => ?_⟩
  · show { w₉.symbols with control := w₉.symbols.control.tail } = _
    rw [hsym₇]
    rfl
  · have hH₇ := hH.before hfall.grows
    have hH₅ := (hH₇.before he₇.grows).before (S₅.push_grows (Op.not_isAlloca_of_terminator
      (loopBranch_isTerminator ..)))
    obtain ⟨y, rfl, hy, hcompiles⟩ := hcomp H hH₅
    refine ⟨rfl, y, Tc, T', _, _, _, _, rfl, hy, ?_, hcompiles, ?_, hQ H hH₇, hfall.insts⟩
    · exact hfork.insts ▸ Nat.le_succ _
    · exact Nat.le_of_lt (S₅.push_insts_length _ ▸ Nat.lt_succ_self _)

/-! ## The tree -/

/-- Behind the end of a block nothing is emitted. -/
theorem Stmt.lowerAll_ended (hb : w.builder = S.builder)
    (hended : S.body.isTerminated S.block = true) (stmts : List Stmt)
    (hrun : (Stmt.lowerAll env stmts).run w = (.ok u, w')) :
    w'.builder = w.builder ∧ w'.symbols = w.symbols := by
  cases stmts with
  | nil =>
    obtain ⟨-, rfl⟩ := Act.run_pure_eq_ok.1 hrun
    exact ⟨rfl, rfl⟩
  | cons s rest =>
    obtain ⟨ended, w₁, he, hrun⟩ := Act.run_bind_eq_ok.1 hrun
    obtain ⟨rfl, rfl⟩ := Lower.isTerminated_run hb he
    rw [hended] at hrun
    exact Lower.dropUnreachable_run hrun

theorem EmitsStmt.mono (hx : EmitsStmt ret base x Q)
    (hQR : ∀ functions H loop outer lo top T top' hi, Q functions H loop outer lo top T top' hi →
      R functions H loop outer lo top T top' hi) : EmitsStmt ret base x R := by
  intro func S w loop t outer top hw hopen w' hrun
  obtain ⟨S', T, top', hb, hsym, he, hQ⟩ := hx func S w loop t outer top hw hopen w' hrun
  exact ⟨S', T, top', hb, hsym, he, fun H hH => hQR _ _ _ _ _ _ _ _ _ (hQ H hH)⟩

variable (options ret base)

mutual

/-- What is emitted for a statement is its translation. -/
theorem Stmt.lower_compiles : (s : Stmt) → EmitsStmt ret base (s.lower ⟨.builtins, options⟩)
    fun functions H loop outer lo top T top' hi =>
      Stmt.Compiles ⟨.builtins, options⟩ functions H ret base loop outer lo top s T top' hi
  | .expr e span => Lower.exprStmt_emits e span
  | .decl ty name init span => Lower.varDecl_emits ty name init span
  | .ret value span => Lower.returnStmt_emits value span
  | .breakLoop span => Lower.jump_emits (j := .breakLoop) (s := .breakLoop span) (fun _ => rfl) rfl
  | .continueLoop span =>
    Lower.jump_emits (j := .continueLoop) (s := .continueLoop span) (fun _ => rfl) rfl
  -- The statements with parts: the code of a part is put into the construct around it.
  | .block stmts _ => (Lower.inScope_emits (Stmt.lowerAll_compiles stmts)).mono <| by
    rintro functions H loop outer lo top T top' hi ⟨rfl, T₁, slots, mid, hs, hend⟩
    exact .block hs hend
  | .ifThen c t _ =>
    (Lower.ifThen_emits c (Lower.nested_emits (Stmt.lower_compiles t))).mono <| by
    rintro functions H loop outer lo top T top' hi
      ⟨rfl, y, Tc, T', m₁, m₂, m₃, rfl, hy, hc, h₁₂, ⟨-, T₁, slots, mid, ht, hend⟩, hhi⟩
    exact .ifThen hc hy h₁₂ ht hend hhi
  | .ifThenElse c t e _ =>
    (Lower.ifThenElse_emits c (Lower.nested_emits (Stmt.lower_compiles t))
      (Lower.nested_emits (Stmt.lower_compiles e))).mono <| by
    rintro functions H loop outer lo top T top' hi
      ⟨rfl, y, Tc, T₁', T₂', m₁, m₂, m₃, m₄, rfl, hy, hc, h₁₂, ⟨-, T₁, slots₁, mid₁, ht, hend₁⟩,
        ⟨-, T₂, slots₂, mid₂, he, hend₂⟩, hhi⟩
    exact .ifThenElse hc hy h₁₂ ht hend₁ he hend₂ hhi
  | .loop c b _ =>
    (Lower.loop_emits c (Lower.nested_emits (Stmt.lower_compiles b))).mono <| by
    rintro functions H loop outer lo top T top' hi
      ⟨rfl, y, Tc, T', m₁, m₂, m₃, m₄, rfl, hy, h₁, hc, h₂₃, ⟨-, T₁, slots, mid, hb, hend⟩, hhi⟩
    exact .loop h₁ hc hy h₂₃ hb hend hhi

theorem Stmt.lowerAll_compiles : (stmts : List Stmt) →
    EmitsStmt ret base (Stmt.lowerAll ⟨.builtins, options⟩ stmts)
      fun functions H loop outer lo top T top' hi =>
        Stmt.CompilesAll ⟨.builtins, options⟩ functions H ret base loop outer lo top stmts T top' hi
  | [] => by
    intro func S w loop t outer top hw hopen w' hrun
    obtain ⟨-, rfl⟩ := Act.run_pure_eq_ok.1 hrun
    refine ⟨S, .line [], top, hw.builder, ?_, .nil t S hopen, fun _ _ => .nil⟩
    rw [← hw.scopes]
  | s :: rest => Lower.unlessEnded_emits <| by
    intro func S w loop t outer top hw hopen w' hrun
    obtain ⟨_, w₁, hs, hrest⟩ := Act.run_bind_eq_ok.1 hrun
    obtain ⟨S₁, T, top₁, hb₁, hsym₁, he₁, hc⟩ :=
      Stmt.lower_compiles s func S w loop t outer top hw hopen w₁ hs
    -- Behind a statement that ended its block the rest leaves no code.
    cases hT : T.ends with
    | true =>
      obtain ⟨hb, hsym⟩ := Stmt.lowerAll_ended hb₁ (he₁.ends.trans hT) rest hrest
      exact ⟨S₁, T, top₁, hb.trans hb₁, hsym.trans hsym₁, he₁, fun H hH => .ended (hc H hH) hT⟩
    | false =>
      have hw₁ : w₁.Stands S₁ ret base loop t (.of (top₁ :: outer)) :=
        ⟨hb₁, he₁.sound hw.sound, by rw [hsym₁]; exact hw.control, by rw [hsym₁]⟩
      obtain ⟨S₂, Ts, top₂, hb₂, hsym₂, he₂, hcs⟩ := Stmt.lowerAll_compiles rest func S₁ w₁ loop t
        outer top₁ hw₁ (he₁.ends.trans hT) w' hrest
      refine ⟨S₂, _, top₂, hb₂, ?_, he₁.seq he₂, fun H hH => ?_⟩
      · rw [hsym₂, hsym₁]
      · have hcomp := hcs H hH
        rw [hsym₁] at hcomp
        exact .cons (hc H (hH.before he₂.grows)) hT hcomp

end

end

end Shading
