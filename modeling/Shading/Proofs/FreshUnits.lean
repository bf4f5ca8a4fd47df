import Shading.Proofs.Isolation
import Shading.Proofs.TwinStatements

/-! # Units that know no functions

    A unit may be compiled into a module that holds functions already, with
    no function known before.  The table of functions is then empty while
    the module is not, so a definition finds the function with its symbol in
    the module but no entry that says it is defined.  Main result: a unit
    leaves every function alone that it does not define itself, and a
    definition in it of a function of the module leaves the body alone, drops
    it, or puts another one behind it
    (`fresh_units_keep_what_they_do_not_define`). -/

namespace Shading

open IR

variable {env : Env} {f : Function} {decl : FunctionDecl} {func id : FuncId} {m : Module}
    {p : Progress} {w w' : Work}

/-- A unit with the types and options it is compiled with.  The hooks of the
    types emit code without branches. -/
structure FreshUnit where
  env : Env
  items : List Item
  [straight : env.types.Straight]

attribute [instance] FreshUnit.straight

/-- The module after units that are compiled into it one after the other,
    each with no function known before. -/
def freshSession (m : Module) (units : List FreshUnit) : Module :=
  units.foldl (fun m u => (compileFresh u.env u.items m).work.builder.module) m

/-- A definition of a function with a symbol. -/
def FunctionDecl.Defines (decl : FunctionDecl) (types : TypeTable) (symbol : String) : Prop :=
  ∃ p, Prototype.ofDecl types decl.prototype = .ok p ∧ p.isExternal = false ∧
    p.irName types = .ok symbol

def Item.Defines (item : Item) (types : TypeTable) (symbol : String) : Prop :=
  ∃ decl, item = .function decl ∧ decl.Defines types symbol

/-- One of the items defines a function with a symbol. -/
def FreshUnit.Defines (u : FreshUnit) (symbol : String) : Prop :=
  ∃ item ∈ u.items, item.Defines u.env.types symbol

/-! ## Symbols of entries -/

/-- Two lists that agree in what is read of their members give the same
    answers. -/
theorem Except.mapM_congr_map {ε α β γ : Type} {f g : α → Except ε β} {key : α → γ}
    (hfg : ∀ a b r, key a = key b → f a = .ok r → g b = .ok r) {as bs : List α} {rs : List β}
    (hkeys : as.map key = bs.map key) (h : as.mapM f = .ok rs) : bs.mapM g = .ok rs := by
  -- By induction on the first list, along with the second one.
  induction as generalizing bs rs with
  | nil =>
    rw [List.map_nil] at hkeys
    rw [List.map_eq_nil_iff.1 hkeys.symm]
    exact h
  | cons a as ih =>
    cases bs with
    | nil => cases hkeys
    | cons b bs =>
      simp only [List.map_cons, List.cons.injEq] at hkeys
      rw [List.mapM_cons] at h ⊢
      cases ha : f a with
      | error e =>
        rw [ha] at h
        cases h
      | ok r =>
        cases hrest : as.mapM f with
        | error e =>
          rw [ha, hrest] at h
          cases h
        | ok rs' =>
          rw [ha, hrest] at h
          rw [hfg a b r hkeys.1 ha, ih hkeys.2 hrest]
          exact h

/-- The symbol of a prototype depends on its name, its parameter types and
    the symbol it links to. -/
theorem Prototype.irName_congr {types : TypeTable} {p q : Prototype} {symbol : String}
    (hname : p.name = q.name) (hparams : p.paramTypes = q.paramTypes)
    (hsymbol : p.symbol = q.symbol) (h : p.irName types = .ok symbol) :
    q.irName types = .ok symbol := by
  unfold irName at h ⊢
  rw [← hsymbol]
  cases hs : p.symbol with
  | some s =>
    rw [hs] at h
    exact h
  | none =>
    rw [hs] at h
    simp only at h ⊢
    -- A mangled name is read off the name and the tokens of the parameter types.
    unfold mangledName at h ⊢
    rw [← hname]
    obtain ⟨tokens, htokens, h⟩ := Except.bind_eq_ok h
    rw [Except.mapM_congr_map (fun a b t hty ha => ?_) hparams htokens]
    · exact h
    · rw [← hty]
      cases htok : types.tokenOf? a.ty with
      | none =>
        rw [htok] at ha
        cases ha
      | some token =>
        rw [htok] at ha
        exact ha

/-! ## What is touched -/

namespace IR.Module

/-- Heads are as they were, and bodies may have changed only where the symbol
    has a property. -/
structure Touches (P : String → Prop) (m m' : Module) : Prop where
  heads : ∀ id f, m.function? id = some f → ∃ f', m'.function? id = some f' ∧ f'.name = f.name
  kept : ∀ id f, m.function? id = some f → ¬ P f.name → m'.function? id = some f

variable {P Q : String → Prop} {m m' m'' : Module}

theorem Touches.refl (P : String → Prop) (m : Module) : m.Touches P m where
  heads _ f h := ⟨f, h, rfl⟩
  kept _ _ h _ := h

theorem Touches.trans (h₁ : m.Touches P m') (h₂ : m'.Touches P m'') : m.Touches P m'' where
  heads id f hf := by
    obtain ⟨f', hf', hname⟩ := h₁.heads id f hf
    obtain ⟨f'', hf'', hname'⟩ := h₂.heads id f' hf'
    exact ⟨f'', hf'', hname'.trans hname⟩
  kept id f hf hP := h₂.kept id f (h₁.kept id f hf hP) hP

theorem Touches.mono (h : m.Touches P m') (hPQ : ∀ symbol, P symbol → Q symbol) :
    m.Touches Q m' where
  heads := h.heads
  kept id f hf hQ := h.kept id f hf fun hP => hQ (hPQ _ hP)

theorem Touches.of_keeps (h : ∀ id f, m.function? id = some f → m'.function? id = some f) :
    m.Touches P m' where
  heads id f hf := ⟨f, h id f hf, rfl⟩
  kept id f hf _ := h id f hf

theorem Frames.touches (h : m.Frames func m') (hf : m.function? func = some f) (hP : P f.name) :
    m.Touches P m' where
  heads id g hg := by
    by_cases hid : id = func
    · subst hid
      obtain ⟨g', hg', hname, -⟩ := h.head g hg
      exact ⟨g', hg', hname⟩
    · exact ⟨g, h.others id g hid hg, rfl⟩
  kept id g hg hnot := by
    by_cases hid : id = func
    · subst hid
      rw [hf, Option.some.injEq] at hg
      subst hg
      exact absurd hP hnot
    · exact h.others id g hid hg

/-- The blocks of every function hold instructions of the function, and only
    the last one of a block may end it. -/
def Sound (m : Module) : Prop := ∀ id f, m.function? id = some f → f.Valid ∧ f.Clean

theorem Sound.of_no_blocks (hf : f.blocks = []) : f.Valid ∧ f.Clean :=
  ⟨Function.valid_of_no_blocks hf, Function.clean_of_no_blocks hf⟩

theorem Sound.declared {name : String} {sig : Signature} {linkage : Linkage} (h : m.Sound)
    (hdecl : Build.Declared m name sig linkage func m') : m'.Sound := by
  intro id f hf
  cases hg : m.function? id with
  | none => exact Sound.of_no_blocks ((Gains.declared hdecl).added id f hf hg).1
  | some g =>
    have hsame := hdecl.keeps hg
    rw [hf, Option.some.injEq] at hsame
    subst hsame
    exact h id f hg

theorem Sound.frames (h : m.Sound) (hframes : m.Frames func m')
    (hfunc : ∀ f, m'.function? func = some f → f.Valid ∧ f.Clean) : m'.Sound := by
  intro id f hf
  by_cases hid : id = func
  · subst hid
    exact hfunc f hf
  · cases hg : m.function? id with
    | none =>
      exact Sound.of_no_blocks (hframes.added id f hid (List.getElem?_eq_none_iff.1 hg) hf).1
    | some g =>
      have hsame := hframes.others id g hid hg
      rw [hf, Option.some.injEq] at hsame
      subst hsame
      exact h id f hg

end IR.Module

/-! ## Bodies behind bodies -/

/-- A body that is lowered into a function with blocks comes behind them. -/
theorem Lower.frameBody_appends [env.types.Straight] {p : Prototype}
    (hf : w.builder.module.function? func = some f) (hsound : f.Valid ∧ f.Clean)
    (hrun : (Lower.frameBody env p func decl).run w = (.ok (), w')) :
    ∃ g, w'.builder.module.function? func = some g ∧ (g.Valid ∧ g.Clean) ∧ f.Front g ∧
      f.blocks.length < g.blocks.length := by
  have hclosed : f.Closed fun _ => True := ⟨hsound.2, fun _ _ => .inr trivial⟩
  have hbody : (Lower.checkedBody env p func decl).Meets w
      (fun _ t => t.builder.Filled func f (f.blocks.length + 1) fun _ => True) fun _ _ => True := by
    apply Act.Meets.bind ((Lower.untilExit_fills_behind hf hsound.1 hclosed).mono (fun _ _ h => h)
      fun _ _ _ => trivial)
    intro _ w₁ hw₁
    apply Act.Meets.bind (Lower.implicitExit_filled decl.span hw₁)
    intro _ w₂ hw₂
    apply Act.meets_of_run
    · intro _ w₃ hcheck
      -- The checks change nothing.
      obtain ⟨S, hS, -⟩ := id hw₂
      obtain ⟨-, -, rfl⟩ := Lower.checkBody_run hS.symm hcheck
      exact hw₂
    · intro _ _ _
      trivial
  obtain ⟨u, halike, S, hS, hbehind, hfilled⟩ := (Lower.frameBody_meets hbody).of_ok hrun
  refine ⟨S.body, ?_, ⟨S.valid, hfilled.clean⟩, hbehind.front, hbehind.length⟩
  rw [halike.builder, ← hS]
  exact S.found

/-! ## Items -/

/-- Each entry names the function with its symbol, in a module whose symbols
    are distinct and whose bodies are sound. -/
structure Work.Consistent (types : TypeTable) (w : Work) : Prop where
  entries : ∀ e ∈ w.symbols.functions.entries, ∃ f,
    w.builder.module.function? e.func = some f ∧ e.prototype.irName types = .ok f.name
  sound : w.builder.module.Sound
  distinct : w.builder.module.Distinct

namespace Work.Consistent

variable {env : Env} {types : TypeTable} {decl : FunctionDecl} {w w₁ w' : Work} {p : Prototype}
  {id : EntryId} {e : Entry}

theorem start (hsound : m.Sound) (hdistinct : m.Distinct) :
    (Progress.start m .empty).work.Consistent types where
  entries e he := by cases he
  sound := hsound
  distinct := hdistinct

theorem declared (h : w.Consistent types) (hdecl : DeclaredEntry types p w id w') :
    w'.Consistent types := by
  cases hdecl with
  | found => exact h
  | @added symbol sig func m hfind hname hsig hdecl =>
    refine ⟨fun e he => ?_, h.sound.declared hdecl, hdecl.distinct h.distinct⟩
    rcases List.mem_append.1 he with he | he
    · obtain ⟨f, hf, hirName⟩ := h.entries e he
      exact ⟨f, hdecl.keeps hf, hirName⟩
    · obtain rfl := List.mem_singleton.1 he
      obtain ⟨f, hf, hfname, -⟩ := hdecl.declares
      exact ⟨f, hf, hfname ▸ hname⟩

/-- The function that a definition is about has its symbol. -/
theorem begun (h : w.Consistent env.types) (hbegun : Begun env decl w p id e w₁) :
    ∃ f, w₁.builder.module.function? e.func = some f ∧ decl.Defines env.types f.name := by
  obtain ⟨f, hf, hname⟩ := (h.declared hbegun.declared).entries e (List.mem_of_getElem? hbegun.entry)
  obtain ⟨e', he', hn, hparams, -, hsymbol⟩ := hbegun.declared.entry
  obtain rfl : e = e' := Option.some.inj (hbegun.entry.symm.trans he')
  exact ⟨f, hf, p, hbegun.head, hbegun.internal, Prototype.irName_congr hn hparams hsymbol hname⟩

/-- An entry that is marked still names its function. -/
theorem setDefined {b : Bool} (h : w.Consistent types)
    (hheads : ∀ id f, w.builder.module.function? id = some f →
      ∃ f', w'.builder.module.function? id = some f' ∧ f'.name = f.name)
    (hfunctions : w'.symbols.functions = w.symbols.functions.setDefined id b)
    (hsound : w'.builder.module.Sound) (hdistinct : w'.builder.module.Distinct) :
    w'.Consistent types := by
  refine ⟨fun e he => ?_, hsound, hdistinct⟩
  rw [hfunctions] at he
  obtain ⟨e', he', hproto, hfunc⟩ := Functions.mem_setDefined he
  obtain ⟨f, hf, hname⟩ := h.entries e' he'
  obtain ⟨f', hf', hfname⟩ := hheads e'.func f hf
  exact ⟨f', hfunc ▸ hf', by rw [← hproto, hfname, hname]⟩

end Work.Consistent

/-- However a definition ends, it has touched only the function with its
    symbol. -/
theorem DefinitionRun.touches [env.types.Straight] {r : Except Fault FuncId}
    (h : DefinitionRun env decl w r w') (hw : w.Consistent env.types) :
    w.builder.module.Touches (decl.Defines env.types) w'.builder.module ∧
      w'.Consistent env.types := by
  have hdeclared : ∀ {p id w₁}, DeclaredEntry env.types p w id w₁ →
      w.builder.module.Touches (decl.Defines env.types) w₁.builder.module := by
    intro p id w₁ hdecl
    exact .of_keeps fun _ _ => hdecl.keeps
  cases h with
  | head | external | undeclared => exact ⟨.refl _ _, hw⟩
  | redefined hbegun => exact ⟨hdeclared hbegun.declared, hw.declared hbegun.declared⟩
  | @finished p id e w₁ w₂ hbegun hdefined hbody =>
    obtain ⟨f, hf, hdefines⟩ := hw.begun hbegun
    have hw₁ := hw.declared hbegun.declared
    have hframes := Lower.frameBody_run_frames hbody
    have htouches := hframes.1.touches hf hdefines
    refine ⟨(hdeclared hbegun.declared).trans htouches, ?_⟩
    refine hw₁.setDefined htouches.heads hframes.2.functions ?_ (hframes.1.distinct hw₁.distinct)
    refine hw₁.sound.frames hframes.1 fun g hg => ?_
    obtain ⟨g', hg', hsound, -⟩ := Lower.frameBody_appends (w := w₁.marked id) hf
      (hw₁.sound e.func f hf) hbody
    obtain rfl : g = g' := Option.some.inj (Eq.symm hg |>.trans hg')
    exact hsound
  | @dropped p id e w₁ w₂ fault hbegun hdefined hbody g hg =>
    obtain ⟨f, hf, hdefines⟩ := hw.begun hbegun
    have hw₁ := hw.declared hbegun.declared
    have hframes := Lower.frameBody_run_frames hbody
    have hcleared := hframes.1.trans
      (.update e.func _ Function.clearBody)
    have htouches := hcleared.touches hf hdefines
    refine ⟨(hdeclared hbegun.declared).trans htouches, ?_⟩
    have hfunctions : (w₂.dropped id e.func).symbols.functions =
        w₁.symbols.functions.setDefined id false := by
      show w₂.symbols.functions.setDefined id false = _
      rw [hframes.2.functions]
      exact Functions.setDefined_setDefined _ _ _ _
    refine hw₁.setDefined htouches.heads hfunctions ?_ (hcleared.distinct hw₁.distinct)
    refine hw₁.sound.frames hcleared fun g' hg' => ?_
    have hdropped : (w₂.dropped id e.func).builder.module.function? e.func = some g.clearBody :=
      Module.update_function?_eq hg rfl
    obtain rfl : g' = g.clearBody := Option.some.inj (hg'.symm.trans hdropped)
    exact Module.Sound.of_no_blocks rfl
  | @lost p id e w₁ w₂ w₃ fault err hbegun hdefined hbody hnone =>
    -- The function of an entry is always there.
    obtain ⟨f, hf, -⟩ := hw.begun hbegun
    have hframes := Lower.frameBody_run_frames hbody
    obtain ⟨f', hf', -⟩ := hframes.1.head f hf
    rw [hnone] at hf'
    cases hf'

/-- An item touches only a function that it defines. -/
theorem Progress.step_touches [env.types.Straight] (h : p.work.Consistent env.types) (item : Item) :
    p.work.builder.module.Touches (item.Defines env.types) (p.step env item).work.builder.module ∧
      (p.step env item).work.Consistent env.types := by
  have hlower : p.work.builder.module.Touches (item.Defines env.types)
      ((lowerItem env item).run p.work).2.builder.module ∧
        ((lowerItem env item).run p.work).2.Consistent env.types := by
    refine Act.Meets.state (R := fun w' : Work =>
      p.work.builder.module.Touches (item.Defines env.types) w'.builder.module ∧
        w'.Consistent env.types) ?_
    cases item with
    -- A prototype declares a function and leaves every body alone.
    | prototype decl =>
      apply Act.meets_bind.2
      apply Act.meets_bind.2
      refine Act.meets_ofExcept.2 ⟨fun q hq => ?_, fun _ _ => ⟨.refl _ _, h⟩⟩
      refine (Lower.declare_meets env.types q p.work).mono (fun id w' hw' => ?_) fun e w' hw' => ?_
      · exact ⟨.of_keeps fun _ _ => hw'.keeps, h.declared hw'⟩
      · rw [hw'.1]
        exact ⟨.refl _ _, h⟩
    | function decl =>
      apply Act.meets_bind.2
      have hmono : ∀ symbol, decl.Defines env.types symbol →
          (Item.function decl).Defines env.types symbol := fun _ hd => ⟨decl, rfl, hd⟩
      refine (Lower.function_meets env decl p.work).mono (fun func w' hw' => ?_) fun e w' hw' => ?_
      · exact ⟨(hw'.touches h).1.mono hmono, (hw'.touches h).2⟩
      · exact ⟨(hw'.touches h).1.mono hmono, (hw'.touches h).2⟩
  -- Forgetting the item changes neither the module nor the table.
  obtain ⟨hbuilder, hfunctions⟩ := p.step_work env item
  obtain ⟨hentries, hsound, hdistinct⟩ := hlower.2
  refine ⟨hbuilder ▸ hlower.1, ⟨?_, hbuilder ▸ hsound, hbuilder ▸ hdistinct⟩⟩
  rw [hbuilder, hfunctions]
  exact hentries

/-! ## Units -/

/-- Items touch only functions that one of them defines. -/
theorem Progress.steps_touch [env.types.Straight] (h : p.work.Consistent env.types)
    (items : List Item) :
    p.work.builder.module.Touches (fun symbol => ∃ item ∈ items, item.Defines env.types symbol)
        (items.foldl (·.step env ·) p).work.builder.module ∧
      (items.foldl (·.step env ·) p).work.Consistent env.types := by
  refine List.foldlRecOn (motive := fun q : Progress =>
    p.work.builder.module.Touches (fun symbol => ∃ item ∈ items, item.Defines env.types symbol)
      q.work.builder.module ∧ q.work.Consistent env.types) items _ ⟨.refl _ _, h⟩ ?_
  intro q hq item hitem
  obtain ⟨htouches, hconsistent⟩ := Progress.step_touches hq.2 item
  exact ⟨hq.1.trans (htouches.mono fun _ hd => ⟨item, hitem, hd⟩), hconsistent⟩

/-- A unit touches only functions that it defines. -/
theorem compileFresh_touches (u : FreshUnit) (hsound : m.Sound) (hdistinct : m.Distinct) :
    m.Touches u.Defines (compileFresh u.env u.items m).work.builder.module ∧
      (compileFresh u.env u.items m).work.Consistent u.env.types :=
  Progress.steps_touch (.start hsound hdistinct) u.items

/-- Units touch only functions that one of them defines. -/
theorem freshSession_touches (units : List FreshUnit) (hsound : m.Sound) (hdistinct : m.Distinct) :
    m.Touches (fun symbol => ∃ u ∈ units, u.Defines symbol) (freshSession m units) ∧
      (freshSession m units).Sound ∧ (freshSession m units).Distinct := by
  unfold freshSession
  refine List.foldlRecOn (motive := fun m' : Module =>
    m.Touches (fun symbol => ∃ u ∈ units, u.Defines symbol) m' ∧ m'.Sound ∧ m'.Distinct) units _
    ⟨.refl _ _, hsound, hdistinct⟩ ?_
  intro m' hm' u hu
  obtain ⟨htouches, hconsistent⟩ := compileFresh_touches u hm'.2.1 hm'.2.2
  exact ⟨hm'.1.trans (htouches.mono fun _ hd => ⟨u, hu, hd⟩), hconsistent.sound, hconsistent.distinct⟩

/-! ## Defining a function again -/

/-- What becomes of a function `f` when a definition of it is lowered.  The
    definition may be refused before its body is begun, and then nothing
    happens.  If its body is refused, what the function held is dropped with
    it, and otherwise the new blocks come behind the old ones. -/
structure FunctionDecl.Rewrites (decl : FunctionDecl) (env : Env) (w : Work) (f g : Function) :
    Prop where
  early : ∀ e, ((Lower.begin env.types decl).run w).1 = .error e → g = f
  refused : ∀ q e, ((Lower.begin env.types decl).run w).1 = .ok q →
    ((Lower.function env decl).run w).1 = .error e → g = f.clearBody
  accepted : ∀ k, ((Lower.function env decl).run w).1 = .ok k →
    f.Front g ∧ f.blocks.length < g.blocks.length

theorem Lower.function_rewrites [env.types.Straight] (hw : w.Consistent env.types)
    (hf : w.builder.module.function? id = some f) (hdefines : decl.Defines env.types f.name) :
    ∃ g, ((Lower.function env decl).run w).2.builder.module.function? id = some g ∧
      decl.Rewrites env w f g := by
  have hfunction := Act.run_bind (Lower.begin env.types decl) (Lower.attach env decl) w
  rw [← Lower.function_eq_begin] at hfunction
  rcases hbegin : (Lower.begin env.types decl).run w with ⟨r, t⟩
  rw [hbegin] at hfunction
  cases r with
  | error e =>
    refine ⟨f, ?_, fun _ _ => rfl, fun q _ hq => ?_, fun k hk => ?_⟩
    · rw [hfunction]
      rcases (Lower.begin_meets env decl w).of_error hbegin with rfl | ⟨p, entry, hdecl⟩
      · exact hf
      · exact hdecl.keeps hf
    · rw [hbegin] at hq
      cases hq
    · rw [hfunction] at hk
      cases hk
  | ok q =>
    obtain ⟨p, entry, e, w₁, hbegun, -, rfl, rfl⟩ := (Lower.begin_meets env decl w).of_ok hbegin
    have hw₁ := hw.declared hbegun.declared
    have hf₁ := hbegun.declared.keeps hf
    -- The entry names the function that has the symbol of the definition.
    obtain ⟨f', hf', q, hq, -, hname'⟩ := hw.begun hbegun
    obtain ⟨q', hq', -, hname⟩ := hdefines
    obtain rfl : q = q' := Except.ok.inj (hq.symm.trans hq')
    obtain rfl : e.func = id :=
      hw₁.distinct.eq_of_name hf' hf₁ (Except.ok.inj (hname'.symm.trans hname))
    have hearly : ∀ err, ((Lower.begin env.types decl).run w).1 ≠ .error err := by
      rw [hbegin]
      nofun
    rcases hbody : (Lower.frameBody env p e.func decl).run (w₁.marked entry) with ⟨r, w₂⟩
    cases r with
    | ok u =>
      have hrun := hfunction.trans (Lower.attach_run_ok (q := (p, entry, e.func)) hbody)
      obtain ⟨g, hg, -, hfront⟩ := Lower.frameBody_appends (w := w₁.marked entry) hf₁
        (hw₁.sound e.func f hf₁) hbody
      refine ⟨g, by rw [hrun]; exact hg, fun err herr => (hearly err herr).elim,
        fun _ _ _ herr => ?_, fun _ _ => hfront⟩
      rw [hrun] at herr
      cases herr
    | error fault =>
      obtain ⟨g, hg, hhead⟩ := (Lower.frameBody_run_frames hbody).1.head f hf₁
      have hrun := hfunction.trans ((Lower.attach_run_error (q := (p, entry, e.func)) hbody).trans
        (Lower.dropBody_run hg fault))
      refine ⟨f.clearBody, ?_, fun err herr => (hearly err herr).elim, fun _ _ _ _ => rfl,
        fun k hk => ?_⟩
      · have hcleared : g.clearBody = f.clearBody := by
          obtain ⟨hname, hsig, hlinkage⟩ := hhead
          unfold Function.clearBody
          rw [hname, hsig, hlinkage]
        rw [hrun, ← hcleared]
        exact Module.update_function?_eq hg rfl
      · rw [hrun] at hk
        cases hk

theorem Progress.step_rewrites [env.types.Straight] (h : p.work.Consistent env.types)
    (hf : p.work.builder.module.function? id = some f) (hdefines : decl.Defines env.types f.name) :
    ∃ g, (p.step env (.function decl)).work.builder.module.function? id = some g ∧
      decl.Rewrites env p.work f g := by
  obtain ⟨g, hg, hrewrites⟩ := Lower.function_rewrites h hf hdefines
  refine ⟨g, ?_, hrewrites⟩
  rw [(p.step_work env _).1]
  show ((Lower.function env decl >>= fun _ => (pure () : Lower Unit)).run _).2.builder.module.function?
    id = _
  rw [Act.run_discard_state]
  exact hg

/-- Units are compiled one after the other into a module that was empty, each
    with no function known before.  Whatever comes of them, a function keeps
    its head and its body as long as no later unit defines a function of its
    symbol.

    A unit that does define such a function has a last definition of it.  From
    what the items in front of it have made of the function, this definition
    makes what the function is at the end of the unit: the same, if it is
    refused before its body is begun; a function without body, if its body is
    refused; and otherwise the old body, with slots added to its entry, in front
    of new blocks. -/
theorem fresh_units_keep_what_they_do_not_define (name : String) (before : List FreshUnit)
    {id : FuncId} {f : Function} (hf : (freshSession (.empty name) before).function? id = some f) :
    (∀ after : List FreshUnit, (∀ u ∈ after, ¬ u.Defines f.name) →
      (freshSession (.empty name) (before ++ after)).function? id = some f) ∧
    ∀ (u : FreshUnit) (items rest : List Item) (decl : FunctionDecl),
      u.items = items ++ .function decl :: rest → decl.Defines u.env.types f.name →
      (∀ item ∈ rest, ¬ item.Defines u.env.types f.name) →
      ∃ f₁ g, (freshSession (.empty name) (before ++ [⟨u.env, items⟩])).function? id = some f₁ ∧
        (freshSession (.empty name) (before ++ [u])).function? id = some g ∧
        decl.Rewrites u.env (compileFresh u.env items (freshSession (.empty name) before)).work
          f₁ g := by
  have hempty : (Module.empty name).Sound := fun id f hf => by cases hf
  obtain ⟨-, hsound, hdistinct⟩ := freshSession_touches before hempty List.nodup_nil
  have hsplit (after : List FreshUnit) : freshSession (.empty name) (before ++ after) =
      freshSession (freshSession (.empty name) before) after := List.foldl_append
  simp only [hsplit]
  constructor
  · intro after hspares
    refine (freshSession_touches after hsound hdistinct).1.kept id f hf ?_
    rintro ⟨u, hu, hdefines⟩
    exact hspares u hu hdefines
  · intro u items rest decl hitems hdefines hspares
    obtain ⟨htouches, hconsistent⟩ := compileFresh_touches ⟨u.env, items⟩ hsound hdistinct
    obtain ⟨f₁, hf₁, hname⟩ := htouches.heads id f hf
    rw [← hname] at hdefines
    obtain ⟨g, hg, hrewrites⟩ := Progress.step_rewrites hconsistent hf₁ hdefines
    refine ⟨f₁, g, hf₁, ?_, hrewrites⟩
    -- The items behind the last definition leave the function alone.
    have hunit : compileFresh u.env u.items (freshSession (.empty name) before) =
        rest.foldl (·.step u.env ·) ((compileFresh u.env items
          (freshSession (.empty name) before)).step u.env (.function decl)) := by
      rw [hitems]
      exact List.foldl_append
    show (compileFresh u.env u.items _).work.builder.module.function? id = some g
    rw [hunit]
    obtain ⟨hstep, hconsistent⟩ := Progress.step_touches hconsistent (.function decl)
    refine (Progress.steps_touch hconsistent rest).1.kept id g hg ?_
    obtain ⟨g', hg', hname'⟩ := hstep.heads id f₁ hf₁
    obtain rfl : g = g' := Option.some.inj (hg.symm.trans hg')
    rintro ⟨item, hitem, hdefines⟩
    exact hspares item hitem (hname ▸ hname' ▸ hdefines)

/-- A function without parameters that returns a value. -/
def constantly (name : String) (value : Expr) : FunctionDecl :=
  { prototype := ⟨⟨name, .unknown⟩, none, ⟨"int", .unknown⟩, [], .unknown⟩
    body := [.ret (some value) .unknown]
    bodySpan := .unknown }

/-- A unit with one such function. -/
def constantUnit (name : String) (value : Expr) : FreshUnit :=
  ⟨.default, [.function (constantly name value)]⟩

/-- A body is not safe from later units: here it is dropped by a unit that
    fails to define the function again. -/
theorem refused_redefinition_drops_body : ∃ f,
    (freshSession (.empty "test") [constantUnit "f" (.literal (.int 1) .unknown)]).function? 0 =
      some f ∧ f.blocks ≠ [] ∧
    (freshSession (.empty "test") [constantUnit "f" (.literal (.int 1) .unknown),
      constantUnit "f" (.var ⟨"x", .unknown⟩)]).function? 0 = some f.clearBody := by
  refine ⟨⟨"f$", ⟨[], .i32⟩, .internal, [⟨"entry", [0]⟩],
    [⟨.ret (some (.const (.int 1))), .void, none⟩]⟩, ?_, ?_, ?_⟩
  · decide +kernel
  · decide
  · decide +kernel

/-- The first of two functions is kept by the unit with the second, and gets
    a second body from a unit that defines it again. -/
theorem first_of_two_kept : ∃ f,
    (freshSession (.empty "test") [constantUnit "f" (.literal (.int 1) .unknown)]).function? 0 =
      some f ∧ f.blocks.length = 1 ∧
    (freshSession (.empty "test") [constantUnit "f" (.literal (.int 1) .unknown),
      constantUnit "g" (.literal (.int 2) .unknown)]).function? 0 = some f ∧
    ∃ g, (freshSession (.empty "test") [constantUnit "f" (.literal (.int 1) .unknown),
      constantUnit "f" (.literal (.int 2) .unknown)]).function? 0 = some g ∧
      f.Front g ∧ f.blocks.length < g.blocks.length := by
  have hfirst : (freshSession (.empty "test")
      [constantUnit "f" (.literal (.int 1) .unknown)]).function? 0 =
        some ⟨"f$", ⟨[], .i32⟩, .internal, [⟨"entry", [0]⟩],
          [⟨.ret (some (.const (.int 1))), .void, none⟩]⟩ := by decide +kernel
  obtain ⟨hkept, hagain⟩ := fresh_units_keep_what_they_do_not_define "test" _ hfirst
  refine ⟨_, hfirst, rfl, ?_, ?_⟩
  · refine hkept [constantUnit "g" (.literal (.int 2) .unknown)] fun u hu => ?_
    obtain rfl := List.mem_singleton.1 hu
    rintro ⟨item, hitem, decl, rfl, p, hp, -, hname⟩
    obtain rfl := Item.function.inj (List.mem_singleton.1 hitem)
    obtain rfl : ⟨"g", none, Builtin.int.id, [], .unknown⟩ = p := by
      have hhead : Prototype.ofDecl .builtins
          (constantly "g" (.literal (.int 2) .unknown)).prototype =
            .ok ⟨"g", none, Builtin.int.id, [], .unknown⟩ := by decide +kernel
      exact Except.ok.inj (hhead.symm.trans hp)
    revert hname
    decide +kernel
  · have hdefines : (constantly "f" (.literal (.int 2) .unknown)).Defines .builtins "f$" :=
      ⟨⟨"f", none, Builtin.int.id, [], .unknown⟩, by decide +kernel, rfl, by decide +kernel⟩
    obtain ⟨f₁, g, hf₁, hg, hrewrites⟩ := hagain (constantUnit "f" (.literal (.int 2) .unknown)) []
      [] (constantly "f" (.literal (.int 2) .unknown)) rfl hdefines fun _ h => by cases h
    obtain rfl : _ = f₁ := Option.some.inj (hfirst.symm.trans hf₁)
    exact ⟨g, hg, hrewrites.accepted 0 (by decide +kernel)⟩

end Shading
