import Shading.Proofs.SSAForm
import Shading.Proofs.Balance

/-! # Refused definitions leave nothing behind

    A definition can be refused at any point: before its body, in the middle
    of it, or behind it.  By then blocks and slots may have been added,
    scopes and control structures opened, functions of the runtime declared
    and the entry marked.  Statements close what they open however they end
    (`Lower.balanced`), and what is left of the body is dropped.  Main
    result: after a refused definition everything that was there before is
    as it was, and at most declarations were added
    (`session_refused_definition_isolated`). -/

namespace Shading

open IR

/-! ## Modules that only gain declarations -/

namespace IR.Module

/-- Every function is as it was, in its place, and those that were added are
    only declared. -/
structure Gains (m m' : Module) : Prop where
  kept : ∀ id f, m.function? id = some f → m'.function? id = some f
  added : ∀ id f, m'.function? id = some f → m.function? id = none → f.blocks = [] ∧ f.insts = []

variable {m m' m'' : Module}

theorem Gains.refl (m : Module) : m.Gains m where
  kept _ _ h := h
  added id f h hnone := by
    rw [hnone] at h
    cases h

theorem Gains.trans (h₁ : m.Gains m') (h₂ : m'.Gains m'') : m.Gains m'' where
  kept id f hf := h₂.kept id f (h₁.kept id f hf)
  added id f hf hnone := by
    cases hg : m'.function? id with
    | none => exact h₂.added id f hf hg
    | some g =>
      have hsame := h₂.kept id g hg
      rw [hf, Option.some.injEq] at hsame
      subst hsame
      exact h₁.added id f hg hnone

theorem Gains.declared {name : String} {sig : Signature} {linkage : Linkage} {func : FuncId}
    (h : Build.Declared m name sig linkage func m') : m.Gains m' where
  kept id f hf := h.keeps hf
  added id f hf hnone := by
    cases h with
    | found => exact (Gains.refl m).added id f hf hnone
    | added hfind =>
      rcases add_function?_cases hf with hf | rfl
      · cases hnone.symm.trans hf
      · exact ⟨rfl, rfl⟩

/-- A function that had no body has none again when it is dropped. -/
theorem Frames.gains {func : FuncId} {f : Function} (h : m.Frames func m')
    (hf : m.function? func = some f) (hblocks : f.blocks = []) (hinsts : f.insts = []) :
    m.Gains (m'.update func Function.clearBody) where
  kept id g hg := by
    by_cases hid : id = func
    · subst hid
      rw [hf, Option.some.injEq] at hg
      subst hg
      obtain ⟨f', hf', hname, hsig, hlink⟩ := h.head f hf
      rw [update_function?_self, hf', Option.map_some, Option.some.injEq]
      unfold Function.withBodyOf
      -- The head is the old one, and the body is as empty as it was.
      obtain ⟨name, sig, linkage, blocks, insts⟩ := f
      simp only [Function.clearBody]
      simp_all
    · rw [update_function?_ne _ hid]
      exact h.others id g hid hg
  added id g hg hnone := by
    have hid : id ≠ func := by
      intro heq
      rw [heq, hf] at hnone
      cases hnone
    rw [update_function?_ne _ hid] at hg
    obtain ⟨hb, hi, -⟩ := h.added id g hid (List.getElem?_eq_none_iff.1 hnone) hg
    exact ⟨hb, hi⟩

end IR.Module

/-! ## Definitions -/

/-- What was there is as it was, and what was added is only declared. -/
structure Work.Isolated (w w' : Work) : Prop where
  module : w.builder.module.Gains w'.builder.module
  /-- At most one function was declared, and it is not defined. -/
  entries : ∃ added : List Entry, added.length ≤ 1 ∧ (∀ e ∈ added, e.defined = false) ∧
    w'.symbols.functions.entries = w.symbols.functions.entries ++ added
  scopes : w'.symbols.scopes = w.symbols.scopes
  control : w'.symbols.control = w.symbols.control

theorem Work.Isolated.refl (w : Work) : w.Isolated w where
  module := .refl _
  entries := ⟨[], by simp, by simp, by simp⟩
  scopes := rfl
  control := rfl

theorem DeclaredEntry.isolated {types : TypeTable} {p : Prototype} {w w' : Work} {id : EntryId}
    (h : DeclaredEntry types p w id w') : w.Isolated w' := by
  cases h with
  | found hfind => exact .refl w
  | @added symbol sig func m hfind hname hsig hdecl =>
    refine ⟨.declared hdecl, ⟨[⟨p, func, false⟩], by simp, by simp, rfl⟩, rfl, rfl⟩

/-- An entry that was not defined is as it was before it was marked. -/
theorem Functions.setDefined_undo {t : Functions} {id : EntryId} {e : Entry}
    (he : t.entries[id]? = some e) (hdefined : e.defined = false) :
    (t.setDefined id true).setDefined id false = t := by
  rw [setDefined_setDefined]
  have hentries : (t.setDefined id false).entries = t.entries := by
    apply List.ext_getElem?
    intro j
    rw [setDefined_entries]
    by_cases hj : id = j
    · subst hj
      rw [if_pos rfl, he, Option.map_some, ← hdefined]
    · rw [if_neg hj]
  exact Functions.ext hentries

/-- However a definition is refused, it leaves nothing behind but
    declarations. -/
theorem Lower.function_isolated {options : Options} {decl : FunctionDecl} {w w' : Work} {e : Fault}
    (hstep : InStep w.builder.module w.symbols.functions) (hsettled : w.builder.module.Settled)
    (hrun : (Lower.function ⟨.builtins, options⟩ decl).run w = (.error e, w')) :
    w.Isolated w' := by
  have hends := (Lower.function_meets ⟨.builtins, options⟩ decl w).of_error hrun
  cases hends with
  | head | external | undeclared => exact .refl w
  | redefined hbegun => exact hbegun.declared.isolated
  | @dropped p id entry w₁ w₂ fault hbegun hdefined hbody f hf =>
    have hdeclared := hbegun.declared.isolated
    obtain ⟨f₁, hf₁, hblocks⟩ := hstep.undefined hbegun hdefined
    have hinsts := hbegun.declared.settled hsettled entry.func f₁ hf₁
    rw [if_pos hblocks] at hinsts
    have hframes := Lower.frameBody_run_frames hbody
    have hrestores := Lower.frameBody_restores ⟨.builtins, options⟩ p entry.func decl (w₁.marked id)
    rw [hbody] at hrestores
    -- The mark is taken away, so the table is the one from before the body.
    have hfunctions : (w₂.dropped id entry.func).symbols.functions = w₁.symbols.functions := by
      show w₂.symbols.functions.setDefined id false = _
      rw [hframes.2.functions]
      exact Functions.setDefined_undo hbegun.entry hdefined
    obtain ⟨added, hlength, hundefined, hentries⟩ := hdeclared.entries
    refine ⟨hdeclared.module.trans (hframes.1.gains hf₁ hblocks hinsts), ?_, ?_, ?_⟩
    · refine ⟨added, hlength, hundefined, ?_⟩
      rw [hfunctions, hentries]
    · exact hrestores.1.trans hdeclared.scopes
    · exact hrestores.2.trans hdeclared.control
  | @lost p id entry w₁ w₂ w₃ fault err hbegun hdefined hbody hf =>
    -- The function of an entry is always there.
    obtain ⟨f₁, hf₁, -⟩ := hstep.undefined hbegun hdefined
    have hframes := Lower.frameBody_run_frames hbody
    obtain ⟨f', hf', -⟩ := hframes.1.head f₁ hf₁
    rw [hf] at hf'
    cases hf'

/-- However many units are compiled one after the other into a module that
    was empty, a definition that is refused is isolated: whatever the reason
    is and however far the definition got, every function of the module and
    every entry of the table is as it was, the scopes and the control
    structures are those from before, and at most functions without a body
    and one entry that is not defined were added. -/
theorem session_refused_definition_isolated (name : String) (units : List SourceUnit)
    (options : Options) (decl : FunctionDecl) {e : Fault} {w' : Work}
    (hrun : (Lower.function ⟨.builtins, options⟩ decl).run (session (.empty name) units).work =
      (.error e, w')) : (session (.empty name) units).work.Isolated w' :=
  Lower.function_isolated (session_inStep name units) (session_settled name units) hrun

/-- Adds two distributions. -/
def blend : FunctionDecl :=
  let name (s : String) : Ident := ⟨s, .unknown⟩
  { prototype := ⟨name "blend", none, ⟨"dfunc", .unknown⟩, [⟨name "d", ⟨"dfunc", .unknown⟩, .unknown⟩],
      .unknown⟩
    body := [.ret (some (.binary .add (.var (name "d")) (.var (name "d")) .unknown)) .unknown]
    bodySpan := .unknown }

/-- Scales a distribution in a loop, and names a variable that is not there
    when it has opened two scopes and five blocks. -/
def fade : FunctionDecl :=
  let name (s : String) : Ident := ⟨s, .unknown⟩
  let d : Expr := .var (name "d")
  { prototype := ⟨name "fade", none, ⟨"dfunc", .unknown⟩,
      [⟨name "d", ⟨"dfunc", .unknown⟩, .unknown⟩, ⟨name "b", ⟨"bool", .unknown⟩, .unknown⟩], .unknown⟩
    body := [
      .loop (.var (name "b"))
        (.block [
          .decl ⟨"dfunc", .unknown⟩ (name "e")
            (some (.binary .mul d (.literal (.int 2) .unknown) .unknown)) .unknown,
          .ifThen (.var (name "b"))
            (.ret (some (.var (name "f"))) .unknown) .unknown] .unknown) .unknown]
    bodySpan := .unknown }

/-- The runtime function that `fade` declares and its own declaration are
    all that it adds. -/
theorem fade_isolated : ∃ e w',
    (Lower.function .default fade).run (session (.empty "scene") [⟨.default, [.function blend]⟩]).work =
      (.error e, w') ∧
      w'.builder.module.functions.map (·.name) =
        ["blend$df", "gd_builtin_dfunc_copy", "gd_builtin_dfunc_add", "gd_builtin_dfunc_destroy",
          "fade$df.b", "gd_builtin_dfunc_scale"] ∧
      (session (.empty "scene") [⟨.default, [.function blend]⟩]).work.Isolated w' := by
  have hrefused : ((Lower.function .default fade).run
      (session (.empty "scene") [⟨.default, [.function blend]⟩]).work).1 =
        .error ((Cause.unknownVariable "f").atSpan .unknown) := by decide +kernel
  have hrun := Act.run_eq_of_fst hrefused
  refine ⟨_, _, hrun, by decide +kernel, ?_⟩
  exact session_refused_definition_isolated "scene" [⟨.default, [.function blend]⟩] .default fade hrun

end Shading
