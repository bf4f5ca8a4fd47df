import Shading.Proofs.Correspondence
import Shading.Proofs.Operands
import Shading.Proofs.TwinFunctions

/-! # Modules side by side

    Two modules hold the same functions under the same symbols, though not in
    the same places: one of them may declare functions of the runtime that the
    other one does without.  Bodies are compared but for those of the local
    functions with some symbols (`Module.Beside`).  Functions can be declared
    and bodies can be changed on both sides without leaving this relation, and
    what is compared is written alike (`Module.Beside.text`). -/

namespace Shading

open IR

variable {c id id' k k' : FuncId} {f f' : Function} {name s : String} {sig : Signature}

namespace IR

variable {D : String → Prop} {m m' m₁ m₁' : Module}

/-! ## Symbols -/

namespace Module

/-- The symbols of a module, by position. -/
def symbols (m : Module) : List String := m.functions.map (·.name)

theorem symbols_getElem? (m : Module) (id : FuncId) :
    m.symbols[id]? = (m.function? id).map (·.name) := List.getElem?_map ..

theorem mem_symbols : s ∈ m.symbols ↔ ∃ id f, m.function? id = some f ∧ f.name = s := by
  constructor
  · intro h
    obtain ⟨id, hid⟩ := List.mem_iff_getElem?.1 h
    rw [symbols_getElem?] at hid
    obtain ⟨f, hf, hname⟩ := Option.map_eq_some_iff.1 hid
    exact ⟨id, f, hf, hname⟩
  · rintro ⟨id, f, hf, rfl⟩
    exact List.mem_map_of_mem (List.mem_of_getElem? hf)

theorem symbols_add (m : Module) (name : String) (sig : Signature) (linkage : Linkage) :
    (m.add name sig linkage).symbols = m.symbols ++ [name] := List.map_append

theorem symbols_prefix_add (m : Module) (name : String) (sig : Signature) (linkage : Linkage) :
    m.symbols <+: (m.add name sig linkage).symbols :=
  symbols_add m name sig linkage ▸ List.prefix_append _ _

theorem symbols_update (m : Module) (id : FuncId) (g : Function → Function) :
    (m.update id g).symbols = m.symbols := names_modify m.functions id g

/-- The functions at two positions have one symbol. -/
def Matches (m m' : Module) (id id' : FuncId) : Prop :=
  ∃ s, m.symbols[id]? = some s ∧ m'.symbols[id']? = some s

theorem Matches.of_function? (hf : m.function? id = some f) (hf' : m'.function? id' = some f')
    (hname : f'.name = f.name) : m.Matches m' id id' := by
  refine ⟨f.name, ?_, ?_⟩
  · rw [symbols_getElem?, hf, Option.map_some]
  · rw [symbols_getElem?, hf', Option.map_some, hname]

theorem Matches.function? (h : m.Matches m' id id') :
    ∃ f f', m.function? id = some f ∧ m'.function? id' = some f' ∧ f'.name = f.name := by
  obtain ⟨s, hs, hs'⟩ := h
  rw [symbols_getElem?] at hs hs'
  obtain ⟨f, hf, rfl⟩ := Option.map_eq_some_iff.1 hs
  obtain ⟨f', hf', hname⟩ := Option.map_eq_some_iff.1 hs'
  exact ⟨f, f', hf, hf', hname⟩

theorem Matches.names (h : m.Matches m' id id') :
    (m'.function? id').map (·.name) = (m.function? id).map (·.name) := by
  obtain ⟨s, hs, hs'⟩ := h
  rw [← symbols_getElem?, ← symbols_getElem?, hs, hs']

theorem Matches.symm (h : m.Matches m' id id') : m'.Matches m id' id := by
  obtain ⟨s, hs, hs'⟩ := h
  exact ⟨s, hs', hs⟩

theorem Matches.mono (h : m.Matches m' id id') (hm : m.symbols <+: m₁.symbols)
    (hm' : m'.symbols <+: m₁'.symbols) : m₁.Matches m₁' id id' := by
  obtain ⟨s, hs, hs'⟩ := h
  obtain ⟨added, hm⟩ := hm
  obtain ⟨added', hm'⟩ := hm'
  refine ⟨s, ?_, ?_⟩
  · rw [← hm, List.getElem?_append_left (List.getElem?_eq_some_iff.1 hs).1, hs]
  · rw [← hm', List.getElem?_append_left (List.getElem?_eq_some_iff.1 hs').1, hs']

end Module

/-! ## The same functions -/

/-- A function that is compared: it is none of the runtime, and it is not a
    local function with an excepted symbol. -/
def Function.Compared (D : String → Prop) (f : Function) : Prop :=
  f.name ∉ Distribution.symbols ∧ ¬ (D f.name ∧ f.linkage = .internal)

theorem Function.SameHead.compared (h : f.SameHead f') : f'.Compared D ↔ f.Compared D := by
  unfold Function.Compared
  rw [h.name, h.linkage]

/-- The modules hold the same functions but for those of the runtime.  Two
    functions with one symbol are declared alike, and those that are compared
    have the same body. -/
structure Module.Beside (D : String → Prop) (m m' : Module) : Prop where
  distinct : m.Distinct
  distinct' : m'.Distinct
  runtime : m.Runtime
  runtime' : m'.Runtime
  symbols : ∀ s ∉ Distribution.symbols, s ∈ m'.symbols ↔ s ∈ m.symbols
  heads : ∀ {id id' f f'}, m.function? id = some f → m'.function? id' = some f' →
    f'.name = f.name → f.SameHead f'
  bodies : ∀ {id id' f f'}, m.function? id = some f → m'.function? id' = some f' →
    f'.name = f.name → f.Compared D → f.Like (m.Matches m') f'

namespace Module.Beside

theorem empty (D : String → Prop) (name name' : String) :
    (Module.empty name).Beside D (.empty name') where
  distinct := List.nodup_nil
  distinct' := List.nodup_nil
  runtime _ h := by cases h
  runtime' _ h := by cases h
  symbols _ _ := Iff.rfl
  heads h := by cases h
  bodies h := by cases h

theorem symm (h : m.Beside D m') : m'.Beside D m where
  distinct := h.distinct'
  distinct' := h.distinct
  runtime := h.runtime'
  runtime' := h.runtime
  symbols s hs := (h.symbols s hs).symm
  heads hf hf' hname := (h.heads hf' hf hname.symm).symm
  bodies hf hf' hname hcompared :=
    have hhead := h.heads hf' hf hname.symm
    ((h.bodies hf' hf hname.symm (hhead.compared.1 hcompared)).symm).mono fun _ _ => Matches.symm

/-- Functions that are compared are written alike. -/
theorem text (h : m.Beside D m') (hf : m.function? id = some f) (hf' : m'.function? id' = some f')
    (hname : f'.name = f.name) (hcompared : f.Compared D) : f'.text m' = f.text m :=
  (h.bodies hf hf' hname hcompared).text fun _ _ => Matches.names

/-- Two functions with one symbol get other bodies, the same ones if they are
    compared. -/
theorem update (h : m.Beside D m') (hf : m.function? k = some f) (hf' : m'.function? k' = some f')
    (hname : f'.name = f.name) {g g' : Function → Function} (hg : ∀ F : Function, F.SameHead (g F))
    (hg' : ∀ F : Function, F.SameHead (g' F))
    (hlike : f.Compared D → (g f).Like (m.Matches m') (g' f')) :
    (m.update k g).Beside D (m'.update k' g') := by
  have hsymbols := m.symbols_update k g
  have hsymbols' := m'.symbols_update k' g'
  have hmatches : (m.update k g).Matches (m'.update k' g') = m.Matches m' := by
    funext id id'
    unfold Matches
    rw [hsymbols, hsymbols']
  have hdistinct : (m.update k g).Distinct := by
    show (m.update k g).symbols.Nodup
    rw [hsymbols]
    exact h.distinct
  have hdistinct' : (m'.update k' g').Distinct := by
    show (m'.update k' g').symbols.Nodup
    rw [hsymbols']
    exact h.distinct'
  have hself : (m.update k g).function? k = some (g f) :=
    update_function?_eq hf (hg f).withBodyOf
  have hself' : (m'.update k' g').function? k' = some (g' f') :=
    update_function?_eq hf' (hg' f').withBodyOf
  have hnew : (g' f').name = (g f).name := by rw [(hg' f').name, (hg f).name, hname]
  -- Symbols are distinct, so two functions with one symbol are both changed or both kept.
  have hcases : ∀ {id id' F F'}, (m.update k g).function? id = some F →
      (m'.update k' g').function? id' = some F' → F'.name = F.name →
      (F = g f ∧ F' = g' f') ∨ (m.function? id = some F ∧ m'.function? id' = some F') := by
    intro id id' F F' hF hF' hnames
    by_cases hid : id = k
    · subst hid
      obtain rfl : g f = F := Option.some.inj (hself.symm.trans hF)
      obtain rfl : k' = id' := hdistinct'.eq_of_name hself' hF' (hnew.trans hnames.symm)
      exact .inl ⟨rfl, Option.some.inj (hF'.symm.trans hself')⟩
    · have hid' : id' ≠ k' := by
        rintro rfl
        obtain rfl : g' f' = F' := Option.some.inj (hself'.symm.trans hF')
        exact hid (hdistinct.eq_of_name hF hself (hnames.symm.trans hnew))
      rw [update_function?_ne m hid] at hF
      rw [update_function?_ne m' hid'] at hF'
      exact .inr ⟨hF, hF'⟩
  have hhead : (g f).SameHead (g' f') := by
    have hold := h.heads hf hf' hname
    refine ⟨hnew, ?_, ?_⟩
    · rw [(hg' f').signature, (hg f).signature, hold.signature]
    · rw [(hg' f').linkage, (hg f).linkage, hold.linkage]
  refine ⟨hdistinct, hdistinct', ?_, ?_, ?_, ?_, ?_⟩
  · exact h.runtime.update k g
  · exact h.runtime'.update k' g'
  · rw [hsymbols, hsymbols']
    exact h.symbols
  · intro id id' F F' hF hF' hnames
    rcases hcases hF hF' hnames with ⟨rfl, rfl⟩ | ⟨hF, hF'⟩
    · exact hhead
    · exact h.heads hF hF' hnames
  · intro id id' F F' hF hF' hnames hcompared
    rw [hmatches]
    rcases hcases hF hF' hnames with ⟨rfl, rfl⟩ | ⟨hF, hF'⟩
    · exact hlike ((hg f).compared.1 hcompared)
    · exact h.bodies hF hF' hnames hcompared

/-- A function is declared in both modules. -/
theorem add (h : m.Beside D m') {linkage : Linkage} (hname : name ∉ Distribution.symbols)
    (hfind : m.find? name = none) (hfind' : m'.find? name = none) :
    (m.add name sig linkage).Beside D (m'.add name sig linkage) := by
  have hnew : name ∉ m.symbols := find?_eq_none.1 hfind
  have hnew' : name ∉ m'.symbols := find?_eq_none.1 hfind'
  have hruntime : ∀ q ∈ Distribution.runtime, name = q.1 → sig = q.2 ∧ linkage = .external := by
    rintro q hq rfl
    exact absurd (Distribution.runtime_symbols ▸ List.mem_map_of_mem hq) hname
  have hcases : ∀ {id id' F F'}, (m.add name sig linkage).function? id = some F →
      (m'.add name sig linkage).function? id' = some F' → F'.name = F.name →
      (F = .declaration name sig linkage ∧ F' = .declaration name sig linkage) ∨
        (m.function? id = some F ∧ m'.function? id' = some F') := by
    intro id id' F F' hF hF' hnames
    rcases add_function?_cases hF with hF | rfl <;> rcases add_function?_cases hF' with hF' | rfl
    · exact .inr ⟨hF, hF'⟩
    · exact absurd (mem_symbols.2 ⟨_, _, hF, hnames.symm⟩) hnew
    · exact absurd (mem_symbols.2 ⟨_, _, hF', hnames⟩) hnew'
    · exact .inl ⟨rfl, rfl⟩
  -- The new functions have a symbol of their own, so old ones are matched with old ones.
  refine ⟨h.distinct.add hfind _ _, h.distinct'.add hfind' _ _, h.runtime.add hruntime,
    h.runtime'.add hruntime, ?_, ?_, ?_⟩
  · intro s hs
    rw [symbols_add, symbols_add, List.mem_append, List.mem_append, h.symbols s hs]
  · intro id id' F F' hF hF' hnames
    rcases hcases hF hF' hnames with ⟨rfl, rfl⟩ | ⟨hF, hF'⟩
    · exact ⟨rfl, rfl, rfl⟩
    · exact h.heads hF hF' hnames
  · intro id id' F F' hF hF' hnames hcompared
    rcases hcases hF hF' hnames with ⟨rfl, rfl⟩ | ⟨hF, hF'⟩
    · exact .of_empty ⟨rfl, rfl, rfl⟩ rfl rfl rfl rfl
    · exact (h.bodies hF hF' hnames hcompared).mono fun _ _ hmatch =>
        hmatch.mono (symbols_prefix_add ..) (symbols_prefix_add ..)

/-- A function of the runtime is declared in one module. -/
theorem addRuntime (h : m.Beside D m') (hname : (name, sig) ∈ Distribution.runtime)
    (hfind : m.find? name = none) : (m.add name sig .external).Beside D m' := by
  have hmem : name ∈ Distribution.symbols := Distribution.runtime_symbols ▸ List.mem_map_of_mem hname
  have hruntime : ∀ q ∈ Distribution.runtime, name = q.1 →
      sig = q.2 ∧ Linkage.external = .external := by
    intro q hq hqname
    have hsame := Distribution.runtime_injective hname hq hqname
    exact ⟨congrArg Prod.snd hsame, rfl⟩
  refine ⟨h.distinct.add hfind _ _, h.distinct', h.runtime.add hruntime, h.runtime', ?_, ?_, ?_⟩
  · intro s hs
    rw [symbols_add, List.mem_append, List.mem_singleton, h.symbols s hs]
    refine ⟨.inl, fun hold => hold.resolve_right ?_⟩
    rintro rfl
    exact hs hmem
  · intro id id' F F' hF hF' hnames
    rcases add_function?_cases hF with hF | rfl
    · exact h.heads hF hF' hnames
    · -- If the other module has the function already, it has the signature of the runtime.
      obtain ⟨hsig, hlinkage⟩ := h.runtime' F' (List.mem_of_getElem? hF') _ hname hnames
      exact ⟨hnames, hsig, hlinkage⟩
  · intro id id' F F' hF hF' hnames hcompared
    rcases add_function?_cases hF with hF | rfl
    · exact (h.bodies hF hF' hnames hcompared).mono fun _ _ hmatch =>
        hmatch.mono (symbols_prefix_add ..) (List.prefix_refl _)
    · -- Functions of the runtime are not compared.
      exact absurd hmem hcompared.1

theorem declareRuntime (h : m.Beside D m') (hname : (name, sig) ∈ Distribution.runtime)
    (hdecl : Build.Declared m name sig .external c m₁) : m₁.Beside D m' := by
  cases hdecl with
  | found => exact h
  | added hfind => exact h.addRuntime hname hfind

end Module.Beside

theorem Build.Declared.symbols_prefix {linkage : Linkage}
    (h : Build.Declared m name sig linkage c m₁) : m.symbols <+: m₁.symbols := by
  cases h with
  | found => exact List.prefix_refl _
  | added => exact Module.symbols_prefix_add ..

end IR

end Shading
