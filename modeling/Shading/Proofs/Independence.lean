import Shading.Proofs.Disposal
import Shading.Proofs.TwinItems

/-! # Bodies are compiled independently

    A unit is compiled twice, with another body for one of its functions.  Up
    to this function both compilations are the same.  The function itself may
    be defined in one of them and refused in the other one, and its body may
    declare functions of the runtime; everything else stays side by side.
    Main result: no other item can tell the difference
    (`bodies_compiled_independently`). -/

namespace Shading

open IR

variable {D : String → Prop} {options : Options}
variable {t t' w w' : Work} {f : Function} {items : List Item}

/-! ## Runs of items -/

/-- An item that two compilations meet without getting out of step. -/
structure Item.Harmless (D : String → Prop) (item : Item) : Prop where
  links : ∀ decl, item = .prototype decl → ∀ symbol, decl.symbol = some symbol →
    symbol ∉ Distribution.symbols
  other : ∀ decl, item = .function decl → ∀ p,
    Prototype.ofDecl .builtins decl.prototype = .ok p → ¬ p.Excepted D

theorem Work.Abreast.forget (h : w.Abreast D w') (ds ds' : Diagnostics) :
    (Progress.forgetItem { w with diagnostics := ds }).Abreast D
      (Progress.forgetItem { w' with diagnostics := ds' }) :=
  ⟨h.modules, h.entries, rfl, rfl, h.outside, h.outside'⟩

namespace Progress

variable {p p' : Progress} {item : Item}

theorem step_inStep (h : InStep p.work.builder.module p.work.symbols.functions) (item : Item) :
    InStep (p.step ⟨.builtins, options⟩ item).work.builder.module
      (p.step ⟨.builtins, options⟩ item).work.symbols.functions := by
  obtain ⟨hbuilder, hfunctions⟩ := p.step_work ⟨.builtins, options⟩ item
  rw [hbuilder, hfunctions]
  exact h.item item

theorem foldl_inStep (h : InStep p.work.builder.module p.work.symbols.functions)
    (items : List Item) :
    InStep (items.foldl (step ⟨.builtins, options⟩) p).work.builder.module
      (items.foldl (step ⟨.builtins, options⟩) p).work.symbols.functions := by
  induction items generalizing p with
  | nil => exact h
  | cons item rest ih => exact ih (step_inStep h item)

/-- The item has the same outcome in both compilations and the same
    diagnostics are noted for it, after those from before. -/
structure Alike (env : Env) (p p' : Progress) (item : Item) : Prop where
  outcome : ((lowerItem env item).run p'.work).1 = ((lowerItem env item).run p.work).1
  diagnostics : ∃ new, (p.step env item).diagnostics = p.diagnostics ++ new ∧
    (p'.step env item).diagnostics = p'.diagnostics ++ new

theorem step_of_ok {env : Env} (h : (lowerItem env item).run p.work = (.ok (), t)) :
    p.step env item = ⟨forgetItem t, p.compiled ++ compiledNames item, p.failed⟩ := by
  unfold step
  rw [h]

theorem step_of_error {env : Env} {fault : Fault}
    (h : (lowerItem env item).run p.work = (.error fault, t)) :
    p.step env item =
      ⟨forgetItem { t with
          diagnostics := t.diagnostics ++ [⟨.error, fault.locate item.span, some item.name⟩] },
        p.compiled, p.failed ++ [item.name]⟩ := by
  unfold step
  rw [h]

/-- One item keeps two compilations abreast. -/
theorem step_abreast (h : p.work.Abreast D p'.work)
    (hstep : InStep p.work.builder.module p.work.symbols.functions) (hitem : item.Harmless D) :
    Alike ⟨.builtins, options⟩ p p' item ∧ (p.step ⟨.builtins, options⟩ item).work.Abreast D
      (p'.step ⟨.builtins, options⟩ item).work := by
  have houtcome := lowerItem_outcome options item h.agree hstep hitem.links hitem.other
  rcases hrun : (lowerItem ⟨.builtins, options⟩ item).run p.work with ⟨r, t⟩
  rcases hrun' : (lowerItem ⟨.builtins, options⟩ item).run p'.work with ⟨r', t'⟩
  rw [hrun, hrun'] at houtcome
  -- Both runs answer, or both are refused with the same fault.
  cases houtcome with
  | answered _ hend =>
    have hs := step_of_ok hrun
    have hs' := step_of_ok hrun'
    rw [hs, hs']
    refine ⟨⟨?_, ?_⟩, hend.1.forget t.diagnostics t'.diagnostics⟩
    · rw [hrun, hrun']
    · rw [hs, hs']
      exact hend.2
  | refused hend =>
    have hs := step_of_error hrun
    have hs' := step_of_error hrun'
    rw [hs, hs']
    refine ⟨⟨?_, ?_⟩, hend.1.forget _ _⟩
    · rw [hrun, hrun']
    · -- What the item has noted by itself stands in front of the fault.
      obtain ⟨new, hnew, hnew'⟩ := hend.2
      rw [hs, hs']
      exact ⟨new ++ [_], (congrArg (· ++ _) hnew).trans (List.append_assoc ..),
        (congrArg (· ++ _) hnew').trans (List.append_assoc ..)⟩
  | ahead hahead => exact hahead.elim
  | excused hlenient => exact hlenient.elim

theorem foldl_abreast (h : p.work.Abreast D p'.work)
    (hstep : InStep p.work.builder.module p.work.symbols.functions)
    (hitems : ∀ item ∈ items, item.Harmless D) :
    (items.foldl (step ⟨.builtins, options⟩) p).work.Abreast D
      (items.foldl (step ⟨.builtins, options⟩) p').work := by
  induction items generalizing p p' with
  | nil => exact h
  | cons item rest ih =>
    rw [List.forall_mem_cons] at hitems
    exact ih (step_abreast h hstep hitems.1).2 (step_inStep hstep item) hitems.2

end Progress

/-! ## Another body -/

/-- Nothing is excepted. -/
abbrev unexcepted : String → Prop := fun _ => False

theorem Work.Abreast.weaken (h : w.Abreast unexcepted w') : w.Abreast D w' :=
  { h with
    modules := { h.modules with
      bodies := fun hf hf' hname hcompared =>
        h.modules.bodies hf hf' hname ⟨hcompared.1, fun hD => hD.1⟩ }
    entries := h.entries.imp fun _ _ he =>
      { he with defined := fun _ => he.defined fun hexcepted => hexcepted.2.choose_spec.2 } }

namespace IR.Module

variable {m m₁ m₂ : Module} {k : FuncId}

theorem Frames.symbols_prefix (h : m.Frames k m₁) : m.symbols <+: m₁.symbols := by
  refine List.prefix_iff_getElem?.2 fun id hid => ?_
  have hlt : id < m.functions.length := by simpa [symbols] using hid
  have hf : m.function? id = some m.functions[id] := List.getElem?_eq_getElem hlt
  have hsymbol : m.symbols[id] = m.functions[id].name := by simp [symbols]
  rw [symbols_getElem?, hsymbol]
  by_cases hk : id = k
  · subst hk
    obtain ⟨f', hf', hname, -⟩ := h.head _ hf
    rw [hf', Option.map_some, hname]
  · rw [h.others id _ hk hf, Option.map_some]

/-- One function has got a body, or none; beside that, only functions of the
    runtime have been declared. -/
structure Rebodied (k : FuncId) (m m₁ : Module) : Prop where
  frames : m.Frames k m₁
  runtime : m₁.Runtime
  declared : ∀ s ∈ m₁.symbols, s ∉ Distribution.symbols → s ∈ m.symbols

/-- A function that is none of the runtime was there before, in its place. -/
theorem Rebodied.before (h : m.Rebodied k m₁) (hm : m.Distinct) {id : FuncId}
    (hf : m₁.function? id = some f) (hname : f.name ∉ Distribution.symbols) :
    ∃ f₀, m.function? id = some f₀ ∧ f₀.SameHead f ∧ (id ≠ k → f₀ = f) := by
  obtain ⟨id₀, f₀, hf₀, hname₀⟩ := mem_symbols.1
    (h.declared f.name (mem_symbols.2 ⟨id, f, hf, rfl⟩) hname)
  have hkept : ∃ f₁, m₁.function? id₀ = some f₁ ∧ f₀.SameHead f₁ ∧ (id₀ ≠ k → f₀ = f₁) := by
    by_cases hk : id₀ = k
    · subst hk
      obtain ⟨f₁, hf₁, hn, hs, hl⟩ := h.frames.head f₀ hf₀
      exact ⟨f₁, hf₁, ⟨hn, hs, hl⟩, fun hne => absurd rfl hne⟩
    · exact ⟨f₀, h.frames.others id₀ f₀ hk hf₀, ⟨rfl, rfl, rfl⟩, fun _ => rfl⟩
  obtain ⟨f₁, hf₁, hhead, heq⟩ := hkept
  obtain rfl : id₀ = id := (h.frames.distinct hm).eq_of_name hf₁ hf (hhead.name.trans hname₀)
  obtain rfl : f₁ = f := Option.some.inj (hf₁.symm.trans hf)
  exact ⟨f₀, hf₀, hhead, heq⟩

/-- Two bodies for one excepted function leave the modules side by side. -/
theorem Rebodied.beside (h₁ : m.Rebodied k m₁) (h₂ : m.Rebodied k m₂) (hm : m.Beside unexcepted m)
    (hf : m.function? k = some f) (hexcepted : D f.name) (hlocal : f.linkage = .internal) :
    m₁.Beside D m₂ := by
  have hprefix := h₁.frames.symbols_prefix
  have hprefix' := h₂.frames.symbols_prefix
  -- Functions with one symbol that is none of the runtime have one place.
  have hplace : ∀ {id id' F F'}, m₁.function? id = some F → m₂.function? id' = some F' →
      F'.name = F.name → F.name ∉ Distribution.symbols →
      ∃ G, m.function? id = some G ∧ m.function? id' = some G ∧ G.SameHead F ∧ G.SameHead F' ∧
        (id ≠ k → G = F ∧ G = F') := by
    intro id id' F F' hF hF' hnames hruntime
    obtain ⟨G, hG, hhead, heq⟩ := h₁.before hm.distinct hF hruntime
    obtain ⟨G', hG', hhead', heq'⟩ := h₂.before hm.distinct hF' (hnames.symm ▸ hruntime)
    obtain rfl : id = id' := hm.distinct.eq_of_name hG hG'
      (hhead.name.symm.trans (hnames.symm.trans hhead'.name))
    obtain rfl : G = G' := Option.some.inj (hG.symm.trans hG')
    exact ⟨G, hG, hG, hhead, hhead', fun hk => ⟨heq hk, heq' hk⟩⟩
  refine ⟨h₁.frames.distinct hm.distinct, h₂.frames.distinct hm.distinct, h₁.runtime, h₂.runtime,
    fun s hs => ?_, fun {id id' F F'} hF hF' hnames => ?_,
    fun {id id' F F'} hF hF' hnames hcompared => ?_⟩
  · exact ⟨fun hmem => hprefix.subset (h₂.declared s hmem hs),
      fun hmem => hprefix'.subset (h₁.declared s hmem hs)⟩
  · by_cases hruntime : F.name ∈ Distribution.symbols
    · -- The runtime has its own signatures, wherever it is declared.
      rw [← Distribution.runtime_symbols] at hruntime
      obtain ⟨q, hq, hqname⟩ := List.mem_map.1 hruntime
      obtain ⟨hsig, hlink⟩ := h₁.runtime F (List.mem_of_getElem? hF) q hq hqname.symm
      obtain ⟨hsig', hlink'⟩ := h₂.runtime F' (List.mem_of_getElem? hF') q hq
        (hnames.trans hqname.symm)
      exact ⟨hnames, hsig'.trans hsig.symm, hlink'.trans hlink.symm⟩
    · obtain ⟨G, -, -, hhead, hhead', -⟩ := hplace hF hF' hnames hruntime
      exact ⟨hnames, hhead'.signature.trans hhead.signature.symm,
        hhead'.linkage.trans hhead.linkage.symm⟩
  · obtain ⟨G, hG, -, hhead, -, heq⟩ := hplace hF hF' hnames hcompared.1
    -- A function that is compared is not the one with the new body.
    have hk : id ≠ k := by
      rintro rfl
      obtain rfl : G = f := Option.some.inj (hG.symm.trans hf)
      exact (hhead.compared.1 hcompared).2 ⟨hexcepted, hlocal⟩
    obtain ⟨rfl, rfl⟩ := heq hk
    refine (hm.bodies hG hG rfl ⟨hcompared.1, fun hD => hD.1⟩).mono fun _ _ hmatch => ?_
    exact hmatch.mono hprefix hprefix'

end IR.Module

/-- One function has got a body and is marked, or it has none. -/
structure Work.Rebodied (id : EntryId) (k : FuncId) (w t : Work) : Prop where
  module : w.builder.module.Rebodied k t.builder.module
  functions : ∃ b, t.symbols.functions = w.symbols.functions.setDefined id b
  scopes : t.symbols.scopes = w.symbols.scopes
  control : t.symbols.control = w.symbols.control
  outside : t.Outside

theorem Work.Rebodied.abreast {id : EntryId} {e : Entry} (h : w.Rebodied id e.func t)
    (h' : w.Rebodied id e.func t') (hw : (w.marked id).Abreast unexcepted (w.marked id))
    (he : w.symbols.functions.entries[id]? = some e) (hexcepted : e.prototype.Excepted D)
    (hf : w.builder.module.function? e.func = some f) (hD : D f.name)
    (hlocal : f.linkage = .internal) : t.Abreast D t' := by
  obtain ⟨b, hb⟩ := h.functions
  obtain ⟨b', hb'⟩ := h'.functions
  refine ⟨h.module.beside h'.module hw.modules hf hD hlocal, ?_, h'.scopes.trans h.scopes.symm,
    h'.control.trans h.control.symm, h.outside, h'.outside⟩
  -- Marks may differ now, but only those of the excepted function.
  have hentries := (hw.weaken (D := D)).entries.imp fun _ _ hentry => hentry.mono fun _ _ hmatch =>
    hmatch.mono h.module.frames.symbols_prefix h'.module.frames.symbols_prefix
  have hmarked := Functions.setDefined_self he true
  have hrebodied := Entry.Beside.setDefined hentries id b b' fun a ha hother => by
    obtain rfl := Option.some.inj (hmarked.symm.trans ha)
    exact absurd hexcepted hother
  rw [hb, hb']
  rwa [show (w.marked id).symbols.functions = w.symbols.functions.setDefined id true from rfl,
    Functions.setDefined_setDefined, Functions.setDefined_setDefined] at hrebodied

/-- However a body ends, it leaves everything else alone.  It is lowered beside
    itself to see which symbols it can declare. -/
theorem Lower.attach_rebodied (options : Options) (decl : FunctionDecl) (p : Prototype)
    {id : EntryId} {k : FuncId} (hw : (w.marked id).Abreast unexcepted (w.marked id))
    (hf : w.builder.module.function? k = some f) (hname : f.name ∉ Distribution.symbols) :
    w.Rebodied id k ((attach ⟨.builtins, options⟩ decl (p, id, k)).run (w.marked id)).2 := by
  have hworks := Joint.Works.of_abreast hw hw.agree.2 hf hf rfl ⟨hname, fun hD => hD.1⟩
  have hbody := ((Joint.lowering _ w.diagnostics w.diagnostics options).frameBody ⟨rfl, rfl⟩ p
    decl).outcome _ _ hworks
  have hframes := frameBody_frames ⟨.builtins, options⟩ p k decl (w.marked id)
  have hrestores := frameBody_restores ⟨.builtins, options⟩ p k decl (w.marked id)
  rcases hrun : (frameBody ⟨.builtins, options⟩ p k decl).run (w.marked id) with ⟨r, t⟩
  rw [hrun] at hbody hframes hrestores
  -- An accepted body stays, and a refused one is cleared away again.
  cases r with
  | ok _ =>
    rw [attach_run_ok (q := (p, id, k)) hrun]
    cases hbody with
    | answered _ hend =>
      exact ⟨⟨hframes.1, hend.builders.modules.runtime, hend.builders.declared⟩,
        ⟨true, hframes.2.functions⟩, hrestores.1, hrestores.2, rfl⟩
  | error fault =>
    rw [attach_run_error (q := (p, id, k)) hrun]
    cases hbody with
    | refused hend =>
      obtain ⟨g, -, hg, -⟩ := hend.builders.here
      rw [dropBody_run hg]
      have hsymbols : (t.dropped id k).builder.module.symbols = t.builder.module.symbols :=
        Module.symbols_update _ _ _
      refine ⟨⟨hframes.1.trans ?_, ?_, ?_⟩, ⟨false, ?_⟩, hrestores.1, hrestores.2, rfl⟩
      · exact .update k _ Function.clearBody
      · exact hend.builders.modules.runtime.update k Function.clearBody
      · rw [hsymbols]
        exact hend.builders.declared
      · show t.symbols.functions.setDefined id false = _
        rw [hframes.2.functions]
        exact Functions.setDefined_setDefined _ _ _ _
    | ahead hahead => exact hahead.elim
    | excused hlenient => exact hlenient.elim

/-- Two definitions with one head leave states that differ in the body of
    their function only. -/
theorem function_abreast (options : Options) (head : PrototypeDecl) (body body' : List Stmt)
    (bodySpan bodySpan' span : Span) (hw : w.Abreast unexcepted w)
    (hstep : InStep w.builder.module w.symbols.functions) :
    ((Lower.function ⟨.builtins, options⟩ ⟨head, body, bodySpan, span⟩).run w).2.Abreast
      ((⟨head, body, bodySpan, span⟩ : FunctionDecl).Defines .builtins)
      ((Lower.function ⟨.builtins, options⟩ ⟨head, body', bodySpan', span⟩).run w).2 := by
  have hbegin := begin_outcome ⟨head, body, bodySpan, span⟩ hw.agree fun p _ hexcepted =>
    hexcepted.2.choose_spec.2
  rw [Lower.function_eq_begin, Lower.function_eq_begin, Act.run_bind, Act.run_bind]
  -- What stands in front of a body does not depend on the body.
  rcases hrun : (Lower.begin .builtins ⟨head, body, bodySpan, span⟩).run w with ⟨r, t⟩
  rw [show (Lower.begin .builtins ⟨head, body', bodySpan', span⟩).run w = (r, t) from hrun]
  rw [hrun] at hbegin
  cases r with
  | error e =>
    cases hbegin with
    | refused hend => exact hend.1.weaken
    | ahead hahead => exact hahead.elim
    | excused hlenient => exact hlenient.elim
  | ok q =>
    obtain ⟨p, id, e, w₁, hbegun, -, rfl, rfl⟩ :=
      (Lower.begin_meets ⟨.builtins, options⟩ ⟨head, body, bodySpan, span⟩ w).of_ok hrun
    cases hbegin with
    | answered _ hend =>
      obtain ⟨e₁, he₁, hname, hparams, -, hsymbol⟩ := hbegun.declared.entry
      obtain rfl : e₁ = e := Option.some.inj (he₁.symm.trans hbegun.entry)
      obtain ⟨f, hf, hirName, -, hlinkage⟩ :=
        (hstep.declared hbegun.declared).linked e₁ (List.mem_of_getElem? he₁)
      have hlocal := Prototype.isExternal_eq_false.2 hbegun.local
      have hdefines : (⟨head, body, bodySpan, span⟩ : FunctionDecl).Defines .builtins f.name :=
        ⟨p, hbegun.head, hbegun.internal, Prototype.irName_congr hname hparams hsymbol hirName⟩
      have hruntime : f.name ∉ Distribution.symbols := by
        refine Prototype.irName_notMem_symbols hirName fun symbol hs => ?_
        rw [hbegun.local] at hs
        cases hs
      refine Work.Rebodied.abreast (Lower.attach_rebodied options _ p hend.1 hf hruntime)
        (Lower.attach_rebodied options _ p hend.1 hf hruntime) hend.1 he₁
        ⟨hlocal, f.name, hirName, hdefines⟩ hf hdefines ?_
      rw [hlinkage, Prototype.linkage_eq_internal]
      exact hbegun.local

theorem Progress.step_function_abreast (head : PrototypeDecl) (body body' : List Stmt)
    (bodySpan bodySpan' span : Span) {p : Progress} (hp : p.work.Abreast unexcepted p.work)
    (hstep : InStep p.work.builder.module p.work.symbols.functions) :
    (p.step ⟨.builtins, options⟩ (.function ⟨head, body, bodySpan, span⟩)).work.Abreast
      ((⟨head, body, bodySpan, span⟩ : FunctionDecl).Defines .builtins)
      (p.step ⟨.builtins, options⟩ (.function ⟨head, body', bodySpan', span⟩)).work := by
  have hrun : ∀ decl, ((lowerItem ⟨.builtins, options⟩ (.function decl)).run p.work).2 =
      ((Lower.function ⟨.builtins, options⟩ decl).run p.work).2 := fun decl =>
    Act.run_discard_state (Lower.function ⟨.builtins, options⟩ decl) p.work
  have hends := function_abreast options head body body' bodySpan bodySpan' span hp hstep
  obtain ⟨hbuilder, hfunctions⟩ :=
    p.step_work ⟨.builtins, options⟩ (.function ⟨head, body, bodySpan, span⟩)
  obtain ⟨hbuilder', hfunctions'⟩ :=
    p.step_work ⟨.builtins, options⟩ (.function ⟨head, body', bodySpan', span⟩)
  have hidle := p.step_idle ⟨.builtins, options⟩ (.function ⟨head, body, bodySpan, span⟩)
  have hidle' := p.step_idle ⟨.builtins, options⟩ (.function ⟨head, body', bodySpan', span⟩)
  rw [hrun] at hbuilder hfunctions hbuilder' hfunctions'
  -- Between items no scope is open, so only modules and tables are compared.
  refine ⟨?_, ?_, hidle'.scopes.trans hidle.scopes.symm, hidle'.control.trans hidle.control.symm,
    ?_, ?_⟩
  · rw [hbuilder, hbuilder']
    exact hends.modules
  · rw [hbuilder, hbuilder', hfunctions, hfunctions']
    exact hends.entries
  · unfold Work.Outside
    rw [hbuilder]
    exact hends.outside
  · unfold Work.Outside
    rw [hbuilder']
    exact hends.outside'

/-! ## Units -/

/-- The types of the parameters bear the names that the head gives. -/
theorem Prototype.ofDecl_argNames {head : PrototypeDecl} {p : Prototype}
    (h : ofDecl .builtins head = .ok p) :
    p.paramTypes.map TypeTable.builtins.nameOrMark = head.args.map (·.ty.name) := by
  have hparams := (ofDecl_eq_ok h).2
  unfold paramTypes
  generalize head.args = args at hparams
  generalize p.params = params at hparams
  -- By induction on the arguments, each of which has the name of its type.
  induction hparams with
  | nil => rfl
  | cons harg _ ih =>
    obtain ⟨hresolve, -⟩ := harg
    obtain ⟨b, hb⟩ := TypeTable.builtins_resolveName_eq_ok hresolve
    rw [hb] at hresolve
    have hname : TypeTable.builtins.nameOrMark b.id = b.name := by
      unfold TypeTable.nameOrMark TypeTable.nameOf?
      rw [TypeTable.builtins_get? b]
      rfl
    rw [List.map_cons, List.map_cons, List.map_cons, ih, hb, hname,
      TypeTable.name_of_resolveName hresolve]

/-- The local function with the name and the parameter types of a head. -/
def PrototypeDecl.Declares (head : PrototypeDecl) (p : Prototype) : Prop :=
  p.symbol = none ∧ p.name = head.name.name ∧
    p.paramTypes.map TypeTable.builtins.nameOrMark = head.args.map (·.ty.name)

/-- A prototype with the symbol of another local function is one of that
    function. -/
theorem PrototypeDecl.declares_of_defines {decl : FunctionDecl} {p : Prototype} {s : String}
    (hlocal : p.symbol = none) (hs : p.irName .builtins = .ok s)
    (hdefines : decl.Defines .builtins s) : decl.prototype.Declares p := by
  obtain ⟨q, hq, hqlocal, hqs⟩ := hdefines
  have hlinkage : p.linkage = q.linkage := by
    rw [Prototype.linkage_eq_internal.2 hlocal,
      Prototype.linkage_eq_internal.2 (Prototype.isExternal_eq_false.1 hqlocal)]
  obtain ⟨hname, hparams⟩ := Prototype.irName_injective hs hqs hlocal hlinkage
  refine ⟨hlocal, hname.trans (Prototype.ofDecl_name hq), ?_⟩
  rw [hparams]
  exact Prototype.ofDecl_argNames hq

/-- The name and the parameter types of a head, as they are written. -/
def PrototypeDecl.key (head : PrototypeDecl) : String × List String :=
  (head.name.name, head.args.map (·.ty.name))

/-- Items that do not define the function again are harmless. -/
theorem Item.harmless {decl : FunctionDecl}
    (hsole : ∀ other, Item.function other ∈ items → other.prototype.key ≠ decl.prototype.key)
    (hlinks : SourceUnit.SparesRuntime ⟨options, items⟩) :
    ∀ item ∈ items, item.Harmless (decl.Defines .builtins) := by
  intro item hitem
  refine ⟨?_, ?_⟩
  · rintro head rfl
    exact hlinks head hitem
  · rintro other rfl p hp ⟨hlocal, s, hs, hdefines⟩
    obtain ⟨-, hname, hparams⟩ :=
      PrototypeDecl.declares_of_defines (Prototype.isExternal_eq_false.1 hlocal) hs hdefines
    refine hsole other hitem (Prod.ext ?_ ?_)
    · exact (Prototype.ofDecl_name hp).symm.trans hname
    · exact (Prototype.ofDecl_argNames hp).symm.trans hparams

/-- Before the first item, a compilation is abreast of itself. -/
theorem Work.Abreast.start (name : String) :
    (Progress.start (.empty name) .empty).work.Abreast D (Progress.start (.empty name) .empty).work :=
  ⟨.empty D name name, .nil, rfl, rfl, rfl, rfl⟩

theorem compileFresh_inStep (options : Options) (items : List Item) (name : String) :
    InStep (compileFresh ⟨.builtins, options⟩ items (.empty name)).work.builder.module
      (compileFresh ⟨.builtins, options⟩ items (.empty name)).work.symbols.functions :=
  Progress.foldl_inStep (.empty name) items

theorem compileFresh_append_cons (env : Env) (before items : List Item) (item : Item)
    (m : Module) : compileFresh env (before ++ item :: items) m =
      items.foldl (Progress.step env) ((compileFresh env before m).step env item) := by
  unfold compileFresh compileUnit
  rw [List.foldl_append, List.foldl_cons]

/-- A compilation is abreast of itself. -/
theorem compileFresh_self (hlinks : SourceUnit.SparesRuntime ⟨options, items⟩) (name : String) :
    (compileFresh ⟨.builtins, options⟩ items (.empty name)).work.Abreast unexcepted
      (compileFresh ⟨.builtins, options⟩ items (.empty name)).work := by
  refine Progress.foldl_abreast (Work.Abreast.start name) (.empty name) fun item hitem => ?_
  refine ⟨?_, fun _ _ _ _ hexcepted => hexcepted.2.choose_spec.2⟩
  rintro decl rfl
  exact hlinks decl hitem

section

variable (options : Options) (name : String) {before after : List Item} {head : PrototypeDecl}
  (body body' : List Stmt) (bodySpan span : Span)

/-- Behind the function that differs, the compilations go on abreast. -/
theorem compileFresh_abreast
    (hsole : ∀ other, Item.function other ∈ before ++ after → other.prototype.key ≠ head.key)
    (hlinks : SourceUnit.SparesRuntime ⟨options, before ++ after⟩)
    (hitems : ∀ item ∈ items, item ∈ after) :
    (compileFresh ⟨.builtins, options⟩ (before ++ .function ⟨head, body, bodySpan, span⟩ :: items)
        (.empty name)).work.Abreast ((⟨head, body, bodySpan, span⟩ : FunctionDecl).Defines .builtins)
      (compileFresh ⟨.builtins, options⟩ (before ++ .function ⟨head, body', bodySpan, span⟩ :: items)
        (.empty name)).work := by
  have hharmless : ∀ item ∈ before ++ after,
      item.Harmless ((⟨head, body, bodySpan, span⟩ : FunctionDecl).Defines .builtins) :=
    Item.harmless hsole hlinks
  have hspares : SourceUnit.SparesRuntime ⟨options, before⟩ := fun decl hdecl =>
    hlinks decl (List.mem_append_left _ hdecl)
  have hbefore := compileFresh_self hspares name
  have hstep := compileFresh_inStep options before name
  -- Up to the function one compilation, then a step with either body, then harmless items.
  rw [compileFresh_append_cons, compileFresh_append_cons]
  refine Progress.foldl_abreast
    (Progress.step_function_abreast head body body' bodySpan bodySpan span hbefore hstep)
    (Progress.step_inStep hstep _) fun item hitem => ?_
  exact hharmless item (List.mem_append_right _ (hitems item hitem))

/-- Each other item has the same outcome and notes the same. -/
theorem compileFresh_alike
    (hsole : ∀ other, Item.function other ∈ before ++ after → other.prototype.key ≠ head.key)
    (hlinks : SourceUnit.SparesRuntime ⟨options, before ++ after⟩) {i : Nat} {item : Item}
    (hi : i ≠ before.length)
    (hitem : (before ++ .function ⟨head, body, bodySpan, span⟩ :: after)[i]? = some item) :
    (before ++ .function ⟨head, body', bodySpan, span⟩ :: after)[i]? = some item ∧
      Progress.Alike ⟨.builtins, options⟩
        (compileFresh ⟨.builtins, options⟩
          ((before ++ .function ⟨head, body, bodySpan, span⟩ :: after).take i) (.empty name))
        (compileFresh ⟨.builtins, options⟩
          ((before ++ .function ⟨head, body', bodySpan, span⟩ :: after).take i) (.empty name)) item := by
  rcases Nat.lt_or_gt_of_ne hi with hlt | hgt
  · -- In front of the function that differs, the compilations are the same.
    rw [List.getElem?_append_left hlt] at hitem ⊢
    rw [List.take_append_of_le_length (Nat.le_of_lt hlt),
      List.take_append_of_le_length (Nat.le_of_lt hlt)]
    refine ⟨hitem, (Progress.step_abreast (compileFresh_self ?_ name)
      (compileFresh_inStep options _ name) ⟨?_, ?_⟩).1⟩
    · exact fun decl hdecl => hlinks decl (List.mem_append_left _ (List.mem_of_mem_take hdecl))
    · rintro decl rfl
      exact hlinks decl (List.mem_append_left _ (List.mem_of_getElem? hitem))
    · exact fun _ _ _ _ hexcepted => hexcepted.2.choose_spec.2
  · -- Behind it, they have met it with either body.
    obtain ⟨k, rfl⟩ := Nat.exists_eq_add_of_lt hgt
    rw [Nat.add_assoc] at hitem ⊢
    rw [List.getElem?_append_right (Nat.le_add_right _ _), Nat.add_sub_cancel_left,
      List.getElem?_cons_succ] at hitem ⊢
    rw [List.take_length_add_append, List.take_length_add_append, List.take_succ_cons,
      List.take_succ_cons]
    have habreast := compileFresh_abreast options name body body' bodySpan span hsole hlinks
      fun _ => List.mem_of_mem_take (i := k)
    refine ⟨hitem, (Progress.step_abreast habreast (compileFresh_inStep options _ name) ?_).1⟩
    exact Item.harmless hsole hlinks item (List.mem_append_right _ (List.mem_of_getElem? hitem))

end

/-- A unit is compiled twice from a fresh state, with another body for one
    function that no other item defines, and no declaration of the unit names
    the runtime.  Then every other item has the same outcome in both runs and
    the same diagnostics are noted for it, whatever becomes of the two bodies.
    The same functions are declared, with the same heads, and every function
    but the one that differs is written alike. -/
theorem bodies_compiled_independently (options : Options) (name : String)
    (before after : List Item) (head : PrototypeDecl) (body body' : List Stmt) (bodySpan span : Span)
    (hsole : ∀ other, Item.function other ∈ before ++ after → other.prototype.key ≠ head.key)
    (hlinks : SourceUnit.SparesRuntime ⟨options, before ++ after⟩) :
    let run (items : List Item) := compileFresh ⟨.builtins, options⟩ items (.empty name)
    let u := before ++ Item.function ⟨head, body, bodySpan, span⟩ :: after
    let u' := before ++ Item.function ⟨head, body', bodySpan, span⟩ :: after
    (∀ i item, i ≠ before.length → u[i]? = some item → u'[i]? = some item ∧
      Progress.Alike ⟨.builtins, options⟩ (run (u.take i)) (run (u'.take i)) item) ∧
    ((run u').work.symbols.functions.entries.map (·.prototype) =
      (run u).work.symbols.functions.entries.map (·.prototype)) ∧
    ∀ (i : Nat) (e e' : Entry), (run u).work.symbols.functions.entries[i]? = some e →
      (run u').work.symbols.functions.entries[i]? = some e' →
      ∃ f f', (run u).work.builder.module.function? e.func = some f ∧
        (run u').work.builder.module.function? e'.func = some f' ∧ f.SameHead f' ∧
        (¬ head.Declares e.prototype →
          f'.text (run u').work.builder.module = f.text (run u).work.builder.module) := by
  intro run u u'
  have hend := compileFresh_abreast options name body body' bodySpan span hsole hlinks fun _ h => h
  refine ⟨fun i item hi hitem =>
    compileFresh_alike options name body body' bodySpan span hsole hlinks hi hitem,
    Entry.Beside.prototypes hend.entries, fun i e e' he he' => ?_⟩
  rcases forall₂_getElem? hend.entries i with ⟨hnone, -⟩ | ⟨a, a', ha, ha', hentry⟩
  · cases he.symm.trans hnone
  obtain rfl : e = a := Option.some.inj (he.symm.trans ha)
  obtain rfl : e' = a' := Option.some.inj (he'.symm.trans ha')
  obtain ⟨f, f', hf, hf', hname⟩ := hentry.func.function?
  obtain ⟨g, hg, hirName, -, hlinkage⟩ :=
    (compileFresh_inStep options u name).linked e (List.mem_of_getElem? he)
  obtain rfl : g = f := Option.some.inj (hg.symm.trans hf)
  -- An entry of the table is none of the runtime, and only the function that differs is excepted.
  refine ⟨g, f', hf, hf', hend.modules.heads hf hf' hname, fun hother =>
    hend.modules.text hf hf' hname ⟨?_, ?_⟩⟩
  · exact Prototype.irName_notMem_symbols hirName hentry.links
  · rintro ⟨hdefines, hinternal⟩
    have hlocal := Prototype.linkage_eq_internal.1 (hlinkage.symm.trans hinternal)
    exact hother (PrototypeDecl.declares_of_defines hlocal hirName hdefines)

/-- The head of a function that mixes a distribution with itself. -/
def mixHead : PrototypeDecl :=
  ⟨⟨"mix", .unknown⟩, none, ⟨"dfunc", .unknown⟩,
    [⟨⟨"d", .unknown⟩, ⟨"dfunc", .unknown⟩, .unknown⟩], .unknown⟩

/-- Adds the distribution to itself. -/
def mixBody : List Stmt :=
  let d : Expr := .var ⟨"d", .unknown⟩
  [.ret (some (.binary .add d d .unknown)) .unknown]

/-- Returns a variable that is not there. -/
def mixBroken : List Stmt := [.ret (some (.var ⟨"e", .unknown⟩)) .unknown]

/-- Mixes and scales. -/
def mixUser : FunctionDecl :=
  { prototype := { mixHead with name := ⟨"use", .unknown⟩ }
    body := [.ret (some (.binary .mul (.call ⟨"mix", .unknown⟩ [.var ⟨"d", .unknown⟩] .unknown)
      (.literal (.int 2) .unknown) .unknown)) .unknown]
    bodySpan := .unknown }

/-- Compiles the two functions, with a body for the first. -/
def mixRun (body : List Stmt) : Progress :=
  compileFresh ⟨.builtins, .default⟩ [.function ⟨mixHead, body, .unknown, .unknown⟩, .function mixUser]
    (.empty "scene")

theorem mix_compiled_independently :
    (mixRun mixBody).compiled = ["mix", "use"] ∧ (mixRun mixBroken).compiled = ["use"] ∧
    ((mixRun mixBody).work.builder.module.functions.map (·.name) =
      ["mix$df", "gd_builtin_dfunc_copy", "gd_builtin_dfunc_add", "gd_builtin_dfunc_destroy",
        "use$df", "gd_builtin_dfunc_scale"]) ∧
    ((mixRun mixBroken).work.builder.module.functions.map (·.name) =
      ["mix$df", "gd_builtin_dfunc_copy", "use$df", "gd_builtin_dfunc_scale",
        "gd_builtin_dfunc_destroy"]) ∧
    ∃ f f', (mixRun mixBody).work.builder.module.function? 4 = some f ∧
      (mixRun mixBroken).work.builder.module.function? 2 = some f' ∧
      f'.text (mixRun mixBroken).work.builder.module =
        f.text (mixRun mixBody).work.builder.module := by
  have hsole : ∀ other, Item.function other ∈ [] ++ [Item.function mixUser] →
      other.prototype.key ≠ mixHead.key := by
    intro other hother
    obtain ⟨rfl⟩ := List.mem_singleton.1 hother
    decide
  have hlinks : SourceUnit.SparesRuntime ⟨.default, [] ++ [Item.function mixUser]⟩ := by
    intro decl hdecl
    cases List.mem_singleton.1 hdecl
  have hrun (body : List Stmt) : compileFresh ⟨.builtins, .default⟩
      ([] ++ Item.function ⟨mixHead, body, .unknown, .unknown⟩ :: [.function mixUser]) (.empty "scene") =
      mixRun body := rfl
  have htexts := (bodies_compiled_independently .default "scene" [] [.function mixUser]
    mixHead mixBody mixBroken .unknown .unknown hsole hlinks).2.2
  simp only [hrun] at htexts
  have hfound : ((mixRun mixBody).work.symbols.functions.entries[1]?).map
      (fun e => (e.prototype.name, e.func)) = some ("use", 4) := by decide +kernel
  have hfound' : ((mixRun mixBroken).work.symbols.functions.entries[1]?).map (·.func) = some 2 := by
    decide +kernel
  obtain ⟨e, he, hfunc⟩ := Option.map_eq_some_iff.1 hfound
  obtain ⟨e', he', hfunc'⟩ := Option.map_eq_some_iff.1 hfound'
  obtain ⟨hname, hfunc⟩ := Prod.mk.inj hfunc
  have hother : ¬ mixHead.Declares e.prototype := by
    rintro ⟨-, hmix, -⟩
    rw [hname] at hmix
    exact absurd hmix (by decide)
  obtain ⟨f, f', hf, hf', -, htext⟩ := htexts 1 e e' he he'
  rw [hfunc] at hf
  rw [hfunc'] at hf'
  exact ⟨by decide +kernel, by decide +kernel, by decide +kernel, by decide +kernel,
    f, f', hf, hf', htext hother⟩

end Shading
