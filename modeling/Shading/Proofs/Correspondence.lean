import Shading.Proofs.Sessions

/-! # The function table and the module

    Declarations, definitions and refused definitions keep the table of
    functions and the module in step.  Each of them changes the two in one of
    two ways: an entry is added together with its function, or the function
    of one entry gets another body.  Main result: after every item of a
    session the entries and the functions correspond
    (`session_table_matches_module`). -/

namespace Shading

open IR

variable {p q : Prototype} {f g : Function} {func id id' : FuncId} {a e e' : Entry}
    {w w' w₁ : Work}

/-- The module holds the function of an entry under its symbol, with its
    signature and its linkage. -/
def Entry.Linked (e : Entry) (m : Module) : Prop :=
  ∃ f, m.function? e.func = some f ∧ e.prototype.irName .builtins = .ok f.name ∧
    e.prototype.irSignature .builtins = .ok f.signature ∧ f.linkage = e.prototype.linkage

/-- A body that the checks accept. -/
def IR.Function.Checked (f : Function) : Prop := f.verify = .ok () ∧ f.allPathsReturn = true

/-- Where symbols are distinct, a symbol names one function. -/
theorem IR.Module.Distinct.eq_of_name {m : Module} (h : m.Distinct) (hf : m.function? id = some f)
    (hg : m.function? id' = some g) (hname : f.name = g.name) : id = id' := by
  have hnames : ∀ {k : FuncId} {a : Function}, m.function? k = some a →
      (m.functions.map (·.name))[k]? = some a.name := by
    intro k a ha
    rw [List.getElem?_map]
    exact congrArg (Option.map _) ha
  have heq := (hnames hf).trans ((congrArg some hname).trans (hnames hg).symm)
  exact (List.getElem?_inj (by rw [List.length_map]; exact Module.function?_lt hf) h).1 heq

theorem IR.Module.Distinct.find?_name {m : Module} (h : m.Distinct) (hf : m.function? id = some f) :
    m.find? f.name = some id :=
  (Module.find?_eq_some_iff h).2 ⟨f, hf, rfl⟩

/-! ## The invariant -/

/-- The table and the module are in step. -/
structure InStep (m : Module) (t : Functions) : Prop where
  linked : ∀ e ∈ t.entries, e.Linked m
  apart : ∀ (i j : Nat) (e e' : Entry), t.entries[i]? = some e → t.entries[j]? = some e' →
    e.prototype.name = e'.prototype.name → e.prototype.paramTypes = e'.prototype.paramTypes → i = j
  bodies : ∀ e ∈ t.entries, ∀ f, m.function? e.func = some f →
    if e.defined then f.blocks ≠ [] ∧ f.Checked ∧ e.prototype.symbol = none else f.blocks = []
  owner : ∀ id f, m.function? id = some f → f.blocks ≠ [] → ∃ e ∈ t.entries, e.func = id
  distinct : m.Distinct

theorem InStep.empty (name : String) : InStep (.empty name) .empty where
  linked _ h := by cases h
  apart _ _ _ _ h := by cases h
  bodies _ h := by cases h
  owner _ _ h := by cases h
  distinct := List.nodup_nil

theorem Prototype.isExternal_eq_false : p.isExternal = false ↔ p.symbol = none := by
  unfold Prototype.isExternal
  exact Option.isSome_eq_false_iff.trans Option.isNone_iff_eq_none

theorem Prototype.linkage_eq_internal : p.linkage = .internal ↔ p.symbol = none := by
  rw [← isExternal_eq_false]
  unfold Prototype.linkage
  cases p.isExternal <;> decide

/-- Two prototypes of this program with one symbol have the same name and
    parameter types. -/
theorem Prototype.irName_injective {symbol : String} (hp : p.irName .builtins = .ok symbol)
    (hq : q.irName .builtins = .ok symbol) (hlocal : p.symbol = none)
    (hlink : p.linkage = q.linkage) : p.name = q.name ∧ p.paramTypes = q.paramTypes := by
  have hlocal' : q.symbol = none :=
    Prototype.linkage_eq_internal.1 (hlink.symm.trans (Prototype.linkage_eq_internal.2 hlocal))
  unfold Prototype.irName at hp hq
  rw [hlocal] at hp
  rw [hlocal'] at hq
  exact Prototype.mangledName_injective hp hq

/-! ## Declarations -/

namespace IR.Build.Declared

variable {m m' : Module} {name : String} {sig : Signature} {linkage : Linkage} {func : FuncId}

theorem keeps (h : Declared m name sig linkage func m') (hf : m.function? id = some f) :
    m'.function? id = some f := by
  cases h with
  | found => exact hf
  | added hfind => rw [Module.add_function?_of_lt (Module.function?_lt hf), hf]

theorem declares (h : Declared m name sig linkage func m') :
    ∃ f, m'.function? func = some f ∧ f.name = name ∧ f.signature = sig ∧ f.linkage = linkage := by
  cases h with
  | found hf hname hsig hlink => exact ⟨_, hf, hname, hsig, hlink⟩
  | added hfind => exact ⟨_, Module.add_function?_new .., rfl, rfl, rfl⟩

/-- A function with a body was there before. -/
theorem before (h : Declared m name sig linkage func m') (hf : m'.function? id = some f)
    (hblocks : f.blocks ≠ []) : m.function? id = some f := by
  cases h with
  | found => exact hf
  | added hfind =>
    rcases Module.add_function?_cases hf with hf | rfl
    · exact hf
    · exact absurd rfl hblocks

theorem distinct (h : Declared m name sig linkage func m') (hm : m.Distinct) : m'.Distinct := by
  cases h with
  | found => exact hm
  | added hfind => exact hm.add hfind _ _

end IR.Build.Declared

theorem DeclaredEntry.keeps {types : TypeTable} {entry : EntryId}
    (h : DeclaredEntry types p w entry w') (hf : w.builder.module.function? id = some f) :
    w'.builder.module.function? id = some f := by
  cases h with
  | found => exact hf
  | added _ _ _ hdecl => exact hdecl.keeps hf

namespace InStep

variable {m m' : Module} {t : Functions}

/-- A function that an entry of this program names is not named by another. -/
theorem unique (h : InStep m t) {i j : Nat} (hi : t.entries[i]? = some e)
    (hj : t.entries[j]? = some e') (hfunc : e.func = e'.func) (hlocal : e.prototype.symbol = none) :
    i = j := by
  obtain ⟨f, hf, hname, -, hlink⟩ := h.linked e (List.mem_of_getElem? hi)
  obtain ⟨f', hf', hname', -, hlink'⟩ := h.linked e' (List.mem_of_getElem? hj)
  rw [← hfunc, hf, Option.some.injEq] at hf'
  subst hf'
  obtain ⟨hn, hp⟩ := Prototype.irName_injective hname hname' hlocal (hlink.symm.trans hlink')
  exact h.apart i j e e' hi hj hn hp

/-- A function with a body is not declared again by a new prototype. -/
theorem fresh (h : InStep m t) (hfind : t.find p = .ok none) (hf : m.function? id = some f)
    (hname : p.irName .builtins = .ok f.name) (hlink : f.linkage = p.linkage) : f.blocks = [] := by
  by_contra hblocks
  obtain ⟨e, he, rfl⟩ := h.owner id f hf hblocks
  obtain ⟨g, hg, hgname, -, hglink⟩ := h.linked e he
  rw [hf, Option.some.injEq] at hg
  subst hg
  have hbody := h.bodies e he f hf
  by_cases hdefined : e.defined = true
  · rw [if_pos hdefined] at hbody
    obtain ⟨hn, hp⟩ := Prototype.irName_injective hgname hname hbody.2.2 (hglink.symm.trans hlink)
    obtain ⟨i, hi⟩ := List.mem_iff_getElem?.1 he
    exact Functions.find_eq_none hfind hi hn hp
  · rw [if_neg hdefined] at hbody
    exact hblocks hbody

/-- A new entry comes with its function. -/
theorem insert (h : InStep m t) {symbol : String} {sig : Signature} (hfind : t.find p = .ok none)
    (hname : p.irName .builtins = .ok symbol) (hsig : p.irSignature .builtins = .ok sig)
    (hdecl : Build.Declared m symbol sig p.linkage func m') : InStep m' (t.insert p func) where
  linked e he := by
    rcases List.mem_append.1 he with he | he
    · obtain ⟨f, hf, hrest⟩ := h.linked e he
      exact ⟨f, hdecl.keeps hf, hrest⟩
    · obtain rfl := List.mem_singleton.1 he
      obtain ⟨f, hf, rfl, rfl, hlink⟩ := hdecl.declares
      exact ⟨f, hf, hname, hsig, hlink⟩
  apart i j e e' hi hj hn hp := by
    simp only [Functions.insert, List.getElem?_append, List.getElem?_singleton] at hi hj
    -- The new entry differs from all others, since it was not found.
    have hnew : ∀ {k : Nat} {a : Entry}, t.entries[k]? = some a → a.prototype.name = p.name →
        a.prototype.paramTypes = p.paramTypes → False := fun ha hn hp =>
      Functions.find_eq_none hfind ha hn hp
    split at hi <;> split at hj
    · exact h.apart i j e e' hi hj hn hp
    · split at hj
      · obtain rfl := Option.some.inj hj
        exact (hnew hi hn hp).elim
      · cases hj
    · split at hi
      · obtain rfl := Option.some.inj hi
        exact (hnew hj hn.symm hp.symm).elim
      · cases hi
    · split at hi
      · split at hj
        · omega
        · cases hj
      · cases hi
  bodies e he f hf := by
    rcases List.mem_append.1 he with he | he
    · obtain ⟨g, hg, -⟩ := h.linked e he
      rw [hdecl.keeps hg, Option.some.injEq] at hf
      subst hf
      exact h.bodies e he g hg
    · obtain rfl := List.mem_singleton.1 he
      rw [if_neg (by simp)]
      by_contra hblocks
      obtain ⟨g, hg, hgname, -, hglink⟩ := hdecl.declares
      rw [hf, Option.some.injEq] at hg
      subst hg
      exact hblocks (h.fresh hfind (hdecl.before hf hblocks) (hgname ▸ hname) hglink)
  owner id f hf hblocks := by
    obtain ⟨e, he, hfunc⟩ := h.owner id f (hdecl.before hf hblocks) hblocks
    exact ⟨e, List.mem_append_left _ he, hfunc⟩
  distinct := hdecl.distinct h.distinct

theorem declared {id : EntryId} (h : InStep w.builder.module w.symbols.functions)
    (hdecl : DeclaredEntry .builtins p w id w') :
    InStep w'.builder.module w'.symbols.functions := by
  cases hdecl with
  | found => exact h
  | added hfind hname hsig hdecl => exact h.insert hfind hname hsig hdecl

end InStep

/-! ## Bodies -/

theorem Functions.setDefined_entries (t : Functions) (id : EntryId) (b : Bool) (j : Nat) :
    (t.setDefined id b).entries[j]? =
      if id = j then (t.entries[j]?).map fun e => { e with defined := b } else t.entries[j]? := by
  unfold Functions.setDefined
  rw [List.getElem?_modify]
  split <;> simp

/-- Marking an entry changes neither its prototype nor its function. -/
theorem Functions.setDefined_old {t : Functions} {id : EntryId} {b : Bool} {j : Nat}
    (he : (t.setDefined id b).entries[j]? = some e) :
    ∃ e₀, t.entries[j]? = some e₀ ∧ e₀.prototype = e.prototype ∧ e₀.func = e.func := by
  rw [Functions.setDefined_entries] at he
  split at he
  · obtain ⟨e₀, he₀, rfl⟩ := Option.map_eq_some_iff.1 he
    exact ⟨e₀, he₀, rfl, rfl⟩
  · exact ⟨e, he, rfl, rfl⟩

theorem Functions.mem_setDefined {t : Functions} {id : EntryId} {b : Bool}
    (he : e ∈ (t.setDefined id b).entries) :
    ∃ e₀ ∈ t.entries, e₀.prototype = e.prototype ∧ e₀.func = e.func := by
  obtain ⟨j, hj⟩ := List.mem_iff_getElem?.1 he
  obtain ⟨e₀, he₀, hold⟩ := setDefined_old hj
  exact ⟨e₀, List.mem_of_getElem? he₀, hold⟩

theorem Functions.setDefined_self {t : Functions} {id : EntryId} (he : t.entries[id]? = some e)
    (b : Bool) : (t.setDefined id b).entries[id]? = some { e with defined := b } := by
  rw [Functions.setDefined_entries, if_pos rfl, he]
  rfl

namespace InStep

variable {m m' : Module} {t : Functions} {id : EntryId} {e : Entry} {b : Bool}

/-- An entry of the changed table is the changed one, or it is an old one for
    another function. -/
theorem setDefined_cases (h : InStep m t) (he : t.entries[id]? = some e)
    (hlocal : e.prototype.symbol = none) (ha : a ∈ (t.setDefined id b).entries) :
    a = { e with defined := b } ∨ a ∈ t.entries ∧ a.func ≠ e.func := by
  obtain ⟨j, hj⟩ := List.mem_iff_getElem?.1 ha
  by_cases hne : id = j
  · subst hne
    rw [Functions.setDefined_self he, Option.some.injEq] at hj
    exact .inl hj.symm
  · rw [Functions.setDefined_entries, if_neg hne] at hj
    refine .inr ⟨List.mem_of_getElem? hj, fun hfunc => hne ?_⟩
    exact h.unique he hj hfunc.symm hlocal

/-- The function of one entry gets another body, or loses it. -/
theorem setBody (h : InStep m t) (he : t.entries[id]? = some e) (hlocal : e.prototype.symbol = none)
    (hframe : m.Frames e.func m')
    (hbody : ∀ f, m'.function? e.func = some f →
      if b then f.blocks ≠ [] ∧ f.Checked else f.blocks = []) :
    InStep m' (t.setDefined id b) where
  linked a ha := by
    -- The other entries have other functions, and the frame leaves those alone.
    rcases h.setDefined_cases he hlocal ha with rfl | ⟨ha, hne⟩
    · obtain ⟨f, hf, hname, hsig, hlink⟩ := h.linked e (List.mem_of_getElem? he)
      obtain ⟨f', hf', hname', hsig', hlink'⟩ := hframe.head f hf
      exact ⟨f', hf', hname' ▸ hname, hsig' ▸ hsig, hlink'.trans hlink⟩
    · obtain ⟨f, hf, hrest⟩ := h.linked a ha
      exact ⟨f, hframe.others _ f hne hf, hrest⟩
  apart i j a a' hi hj hn hp := by
    obtain ⟨c, hc, hcp, -⟩ := Functions.setDefined_old hi
    obtain ⟨c', hc', hcp', -⟩ := Functions.setDefined_old hj
    exact h.apart i j c c' hc hc' (by rw [hcp, hcp', hn]) (by rw [hcp, hcp', hp])
  bodies a ha f hf := by
    rcases h.setDefined_cases he hlocal ha with rfl | ⟨ha, hne⟩
    · have hb := hbody f hf
      cases b with
      | true =>
        rw [if_pos rfl] at hb ⊢
        exact ⟨hb.1, hb.2, hlocal⟩
      | false => exact hb
    · obtain ⟨g, hg, -⟩ := h.linked a ha
      rw [hframe.others _ g hne hg, Option.some.injEq] at hf
      subst hf
      exact h.bodies a ha g hg
  owner k f hf hblocks := by
    by_cases hk : k = e.func
    · exact ⟨_, List.mem_of_getElem? (Functions.setDefined_self he b), hk.symm⟩
    · -- A function that the module did not have before is a declaration and has no body.
      by_cases hlt : k < m.functions.length
      · have hg : m.function? k = some m.functions[k] := List.getElem?_eq_getElem hlt
        have hsame := hframe.others k _ hk hg
        rw [hf, Option.some.injEq] at hsame
        obtain ⟨a, ha, rfl⟩ := h.owner k _ hg (hsame ▸ hblocks)
        obtain ⟨j, hj⟩ := List.mem_iff_getElem?.1 ha
        have hne : id ≠ j := by
          rintro rfl
          rw [he, Option.some.injEq] at hj
          exact hk (hj ▸ rfl)
        refine ⟨a, List.mem_of_getElem? (i := j) ?_, rfl⟩
        rw [Functions.setDefined_entries, if_neg hne, hj]
      · exact absurd (hframe.added k f hk (Nat.not_lt.1 hlt) hf).1 hblocks
  distinct := hframe.distinct h.distinct

end InStep

/-! ## Items -/

/-- The function that a definition is about: it is one of this program and the
    only one of its entry. -/
theorem Begun.local {env : Env} {decl : FunctionDecl} {id : EntryId}
    (h : Begun env decl w p id e w₁) : e.prototype.symbol = none := by
  obtain ⟨e', he', -, -, -, hsymbol⟩ := h.declared.entry
  rw [h.entry, Option.some.injEq] at he'
  subst he'
  rw [hsymbol]
  exact Prototype.isExternal_eq_false.1 h.internal

theorem Functions.setDefined_setDefined (t : Functions) (id : EntryId) (b c : Bool) :
    (t.setDefined id b).setDefined id c = t.setDefined id c := by
  unfold Functions.setDefined
  congr 1
  refine List.ext_getElem? fun j => ?_
  simp only [List.getElem?_modify]
  split <;> cases t.entries[j]? <;> rfl

section

variable {options : Options} {decl : FunctionDecl} {w w₁ : Work} {p : Prototype} {id : EntryId}
  {e : Entry}

/-- A function whose entry is not defined has no body. -/
theorem InStep.undefined (h : InStep w.builder.module w.symbols.functions)
    (hbegun : Begun ⟨.builtins, options⟩ decl w p id e w₁) (hdefined : e.defined = false) :
    ∃ f, w₁.builder.module.function? e.func = some f ∧ f.blocks = [] := by
  have h₁ := h.declared hbegun.declared
  have hmem := List.mem_of_getElem? hbegun.entry
  obtain ⟨f, hf, -⟩ := h₁.linked e hmem
  have hbody := h₁.bodies e hmem f hf
  rw [if_neg (by simp [hdefined])] at hbody
  exact ⟨f, hf, hbody⟩

/-- A finished body has been closed and checked. -/
theorem Lower.frameBody_closed {env : Env} [env.types.Straight]
    (hf : w.builder.module.function? func = some f) (hblocks : f.blocks = [])
    (hrun : (Lower.frameBody env p func decl).run w = (.ok (), w')) :
    ∃ g, w'.builder.module.function? func = some g ∧ g.blocks ≠ [] ∧ g.Checked := by
  obtain ⟨u, halike, g, hg, hne, -, hpaths, hverify, -⟩ :=
    (Lower.frameBody_meets (Lower.checkedBody_closes hf hblocks)).of_ok hrun
  exact ⟨g, halike.builder ▸ hg, hne, hverify, hpaths⟩

theorem InStep.function (h : InStep w.builder.module w.symbols.functions) :
    InStep ((Lower.function ⟨.builtins, options⟩ decl).run w).2.builder.module
      ((Lower.function ⟨.builtins, options⟩ decl).run w).2.symbols.functions := by
  have hcases := (Lower.function_meets ⟨.builtins, options⟩ decl w)
  suffices hends : ∀ r w', DefinitionRun ⟨.builtins, options⟩ decl w r w' →
      InStep w'.builder.module w'.symbols.functions from
    Act.Meets.state (R := fun w' => InStep w'.builder.module w'.symbols.functions)
      (hcases.mono (fun _ w' hw' => hends _ w' hw') fun _ w' hw' => hends _ w' hw')
  intro r w' hrun
  cases hrun with
  | head | external | undeclared => exact h
  | redefined hbegun => exact h.declared hbegun.declared
  | @finished p id e w₁ w₂ hbegun hdefined hbody =>
    obtain ⟨f, hf, hblocks⟩ := h.undefined hbegun hdefined
    have hframes := Lower.frameBody_run_frames hbody
    obtain ⟨g, hg, hne, hchecked⟩ := Lower.frameBody_closed (w := w₁.marked id) hf hblocks hbody
    show InStep w₂.builder.module w₂.symbols.functions
    rw [hframes.2.functions]
    refine (h.declared hbegun.declared).setBody hbegun.entry hbegun.local hframes.1 fun f' hf' => ?_
    rw [hg, Option.some.injEq] at hf'
    subst hf'
    exact ⟨hne, hchecked⟩
  | @dropped p id e w₁ w₂ fault hbegun hdefined hbody f hf =>
    have hframes := Lower.frameBody_run_frames hbody
    show InStep (w₂.builder.module.update e.func Function.clearBody)
      (w₂.symbols.functions.setDefined id false)
    rw [hframes.2.functions]
    show InStep _ ((w₁.symbols.functions.setDefined id true).setDefined id false)
    rw [Functions.setDefined_setDefined]
    refine (h.declared hbegun.declared).setBody hbegun.entry hbegun.local
      (hframes.1.trans (.update e.func _ _)) fun f' hf' => ?_
    rw [Module.update_function?_self, hf] at hf'
    cases hf'
    rfl
  | @lost p id e w₁ w₂ w₃ fault err hbegun hdefined hbody hf =>
    -- The function of an entry is always there.
    obtain ⟨f, hf₁, -⟩ := h.undefined hbegun hdefined
    have hframes := Lower.frameBody_run_frames hbody
    obtain ⟨f', hf', -⟩ := hframes.1.head f hf₁
    rw [hf] at hf'
    cases hf'

theorem InStep.prototype (h : InStep w.builder.module w.symbols.functions)
    (decl : PrototypeDecl) :
    InStep ((Lower.declarePrototype ⟨.builtins, options⟩ decl).run w).2.builder.module
      ((Lower.declarePrototype ⟨.builtins, options⟩ decl).run w).2.symbols.functions := by
  refine Act.Meets.state (R := fun w' : Work => InStep w'.builder.module w'.symbols.functions) ?_
  refine Act.meets_bind.2 (Act.meets_ofExcept.2 ⟨fun p hp => ?_, fun _ _ => h⟩)
  refine (Lower.declare_meets .builtins p w).mono (fun id w' hw' => h.declared hw') fun e w' hw' => ?_
  rw [hw'.1]
  exact h

end

theorem InStep.item {options : Options} {w : Work}
    (h : InStep w.builder.module w.symbols.functions) (item : Item) :
    InStep ((Progress.lowerItem ⟨.builtins, options⟩ item).run w).2.builder.module
      ((Progress.lowerItem ⟨.builtins, options⟩ item).run w).2.symbols.functions := by
  cases item with
  | prototype decl =>
    unfold Progress.lowerItem
    rw [Act.run_discard_state]
    exact h.prototype decl
  | function decl =>
    unfold Progress.lowerItem
    rw [Act.run_discard_state]
    exact h.function

/-- What an item leaves behind, but for the diagnostics. -/
theorem Progress.step_work (env : Env) (p : Progress) (item : Item) :
    (p.step env item).work.builder = ((lowerItem env item).run p.work).2.builder ∧
      (p.step env item).work.symbols.functions =
        ((lowerItem env item).run p.work).2.symbols.functions := by
  unfold Progress.step
  split <;> rename_i hrun <;> rw [hrun] <;> exact ⟨rfl, rfl⟩

theorem session_inStep (name : String) (units : List SourceUnit) :
    InStep (session (.empty name) units).work.builder.module
      (session (.empty name) units).work.symbols.functions := by
  refine (session_induction (I := fun w => InStep w.builder.module w.symbols.functions)
    (InStep.empty name) (fun w _ h => h) fun u _ item _ p _ h => ?_).2
  obtain ⟨hbuilder, hfunctions⟩ := p.step_work u.env item
  rw [hbuilder, hfunctions]
  exact h.item item

/-- A definition that is accepted finds its function without a body. -/
theorem InStep.new_of_accepted {options : Options} {decl : FunctionDecl}
    (h : InStep w.builder.module w.symbols.functions)
    (hrun : (Lower.function ⟨.builtins, options⟩ decl).run w = (.ok func, w')) :
    ∀ f, w.builder.module.function? func = some f → f.blocks = [] := by
  intro f hf
  cases (Lower.function_meets ⟨.builtins, options⟩ decl w).of_ok hrun with
  | @finished p id e w₁ w₂ hbegun hdefined hbody =>
    have hbodies := (h.declared hbegun.declared).bodies e (List.mem_of_getElem? hbegun.entry) f
      (hbegun.declared.keeps hf)
    rwa [if_neg (by simp [hdefined])] at hbodies

/-! ## The correspondence -/

/-- The functions of the table and those of the module correspond. -/
structure Correspondence (m : Module) (t : Functions) : Prop where
  /-- An entry names a function with its symbol, signature and linkage. -/
  linked : ∀ e ∈ t.entries, e.Linked m
  /-- Entries differ in their names or in their parameter types. -/
  apart : ∀ (i j : Nat) (e e' : Entry), t.entries[i]? = some e → t.entries[j]? = some e' →
    e.prototype.name = e'.prototype.name → e.prototype.paramTypes = e'.prototype.paramTypes → i = j
  /-- Only entries that link to one external symbol share a function. -/
  shared : ∀ (i j : Nat) (e e' : Entry), i ≠ j → t.entries[i]? = some e →
    t.entries[j]? = some e' → e.func = e'.func →
    ∃ symbol, e.prototype.symbol = some symbol ∧ e'.prototype.symbol = some symbol
  /-- The defined entries are those whose functions have a body, and the
      checks accept it. -/
  defined : ∀ e ∈ t.entries, ∀ f, m.function? e.func = some f →
    (e.defined = true ↔ f.blocks ≠ []) ∧
      (e.defined = true → f.verify = .ok () ∧ f.allPathsReturn = true)
  /-- A body belongs to exactly one entry, which is one of this program. -/
  owned : ∀ id f, m.function? id = some f → f.blocks ≠ [] →
    ∃ (i : Nat) (e : Entry), t.entries[i]? = some e ∧ e.func = id ∧
      e.prototype.isExternal = false ∧
      ∀ (j : Nat) (e' : Entry), t.entries[j]? = some e' → e'.func = id → j = i
  /-- The list of a name holds the positions of the entries of that name. -/
  names : ∀ name, (t.byName.get? name).getD [] =
    (t.entries.zipIdx.filter (·.1.prototype.name == name)).map (·.2)
  /-- Each symbol names one function, and is found exactly there. -/
  symbols : (m.functions.map (·.name)).Nodup ∧
    ∀ symbol id, m.find? symbol = some id ↔ ∃ f, m.function? id = some f ∧ f.name = symbol

namespace InStep

variable {m : Module} {t : Functions}

theorem shared (h : InStep m t) {i j : Nat} (hne : i ≠ j) (hi : t.entries[i]? = some e)
    (hj : t.entries[j]? = some e') (hfunc : e.func = e'.func) :
    ∃ symbol, e.prototype.symbol = some symbol ∧ e'.prototype.symbol = some symbol := by
  cases hs : e.prototype.symbol with
  | none => exact absurd (h.unique hi hj hfunc hs) hne
  | some symbol =>
    cases hs' : e'.prototype.symbol with
    | none => exact absurd (h.unique hj hi hfunc.symm hs').symm hne
    | some symbol' =>
      -- Both are the symbol of the function.
      obtain ⟨f, hf, hname, -⟩ := h.linked e (List.mem_of_getElem? hi)
      obtain ⟨f', hf', hname', -⟩ := h.linked e' (List.mem_of_getElem? hj)
      rw [← hfunc, hf, Option.some.injEq] at hf'
      subst hf'
      unfold Prototype.irName at hname hname'
      rw [hs] at hname
      rw [hs'] at hname'
      simp only [Except.ok.injEq] at hname hname'
      exact ⟨symbol, rfl, by rw [hname', ← hname]⟩

theorem correspondence (h : InStep m t) : Correspondence m t where
  linked := h.linked
  apart := h.apart
  shared _ _ _ _ hne hi hj hfunc := h.shared hne hi hj hfunc
  defined e he f hf := by
    have hbody := h.bodies e he f hf
    -- The body and the mark of an entry come and go together.
    by_cases hdefined : e.defined = true
    · rw [if_pos hdefined] at hbody
      exact ⟨⟨fun _ => hbody.1, fun _ => hdefined⟩, fun _ => hbody.2.1⟩
    · rw [if_neg hdefined] at hbody
      exact ⟨⟨fun hd => absurd hd hdefined, fun hne => absurd hbody hne⟩,
        fun hd => absurd hd hdefined⟩
  owned id f hf hblocks := by
    -- A body belongs to a local entry, and no other entry shares its function.
    obtain ⟨e, he, rfl⟩ := h.owner id f hf hblocks
    obtain ⟨i, hi⟩ := List.mem_iff_getElem?.1 he
    have hbody := h.bodies e he f hf
    by_cases hdefined : e.defined = true
    · rw [if_pos hdefined] at hbody
      have hlocal := hbody.2.2
      refine ⟨i, e, hi, rfl, by simp [Prototype.isExternal, hlocal], fun j e' hj hfunc => ?_⟩
      exact (h.unique hi hj hfunc.symm hlocal).symm
    · rw [if_neg hdefined] at hbody
      exact absurd hbody hblocks
  names := t.byName_eq
  symbols := ⟨h.distinct, fun _ _ => Module.find?_eq_some_iff h.distinct⟩

end InStep

/-- However many units are compiled one after the other into a module that
    was empty, the function table and the module correspond.  A session may
    stop behind any item of its last unit, so they do after every item. -/
theorem session_table_matches_module (name : String) (units : List SourceUnit) :
    Correspondence (session (.empty name) units).work.builder.module
      (session (.empty name) units).work.symbols.functions :=
  (session_inStep name units).correspondence

end Shading
