import Shading.Proofs.FreshUnits
import Shading.Proofs.ProgramFaults
import Shading.Proofs.Splitting
import Shading.Proofs.TwinTables

/-! # Items side by side

    The same item is compiled in two compilations that have come to it with
    the same functions, in modules side by side (`Work.Abreast`).  Unless it
    defines an excepted function, the item is answered or refused alike, it
    notes the same, and the compilations stay abreast
    (`lowerItem_outcome`). -/

namespace Shading

open IR

variable {D : String → Prop}
variable {p q : Prototype} {w w₁ : Work} {decl : FunctionDecl}

/-! ## Declarations -/

/-- A symbol that is none of the runtime is declared in both modules, or it is
    refused in both. -/
theorem IR.Module.Beside.declare {b b' : Builder} (h : b.module.Beside D b'.module) {name : String}
    (hname : name ∉ Distribution.symbols) (sig : Signature) (linkage : Linkage) :
    (∃ c c' m m', (Build.declare name sig linkage).run b = (.ok c, { b with module := m }) ∧
        (Build.declare name sig linkage).run b' = (.ok c', { b' with module := m' }) ∧
        m.Beside D m' ∧ m.Matches m' c c' ∧ b.module.symbols <+: m.symbols ∧
        b'.module.symbols <+: m'.symbols) ∨
      ∃ e, (Build.declare name sig linkage).run b = (.error e, b) ∧
        (Build.declare name sig linkage).run b' = (.error e, b') := by
  cases hfind : b.module.find? name with
  | none =>
    have hfind' : b'.module.find? name = none := by
      rw [Module.find?_eq_none] at hfind ⊢
      exact fun hmem => hfind ((h.symbols name hname).1 hmem)
    refine .inl ⟨_, _, _, _, Build.declare_run_new hfind, Build.declare_run_new hfind',
      h.add hname hfind hfind', ?_, Module.symbols_prefix_add .., Module.symbols_prefix_add ..⟩
    exact .of_function? (Module.add_function?_new ..) (Module.add_function?_new ..) rfl
  | some id =>
    -- The other module has the symbol too, for a function with the same head.
    obtain ⟨f, hf, hfname⟩ := Module.name_of_find? hfind
    obtain ⟨id', f', hf', hfname'⟩ := Module.mem_symbols.1
      ((h.symbols name hname).2 (Module.mem_symbols.2 ⟨id, f, hf, hfname⟩))
    have hfind' : b'.module.find? name = some id' := hfname' ▸ h.distinct'.find?_name hf'
    have hhead := h.heads hf hf' (hfname'.trans hfname.symm)
    rw [Build.declare_run_known hfind hf, Build.declare_run_known hfind' hf', hhead.signature,
      hhead.linkage]
    by_cases hdiffer : f.signature ≠ sig ∨ f.linkage ≠ linkage
    · rw [if_pos hdiffer, if_pos hdiffer]
      exact .inr ⟨_, rfl, rfl⟩
    · rw [if_neg hdiffer, if_neg hdiffer]
      exact .inl ⟨id, id', b.module, b'.module, rfl, rfl, h, .of_function? hf hf' hhead.name,
        List.prefix_refl _, List.prefix_refl _⟩

/-! ## States between items -/

/-- The states of two compilations that have come to the same item. -/
structure Work.Abreast (D : String → Prop) (w w' : Work) : Prop where
  modules : w.builder.module.Beside D w'.builder.module
  entries : List.Forall₂ (Entry.Beside D (w.builder.module.Matches w'.builder.module))
    w.symbols.functions.entries w'.symbols.functions.entries
  scopes : w'.symbols.scopes = w.symbols.scopes
  control : w'.symbols.control = w.symbols.control
  outside : w.Outside
  outside' : w'.Outside

/-- Both compilations go on or are refused alike, and note the same after what
    was noted before. -/
def abreast (D : String → Prop) (ds ds' : Diagnostics) : Act.Bond Work Fault where
  agree w w' := w.Abreast D w' ∧ ∃ new, w.diagnostics = ds ++ new ∧ w'.diagnostics = ds' ++ new
  ahead _ _ _ := False
  lenient := False

variable {ds ds' : Diagnostics} {w w' : Work}

/-- Nothing has been noted yet. -/
theorem Work.Abreast.agree (h : w.Abreast D w') :
    (abreast D w.diagnostics w'.diagnostics).agree w w' :=
  ⟨h, [], (List.append_nil _).symm, (List.append_nil _).symm⟩

/-- A declaration is answered or refused alike. -/
theorem declare_twin (hlinks : ∀ symbol, p.symbol = some symbol → symbol ∉ Distribution.symbols) :
    (abreast D ds ds').Twin Eq (Lower.declare .builtins p) (Lower.declare .builtins p) := by
  refine ⟨fun w w' h => ?_, fun _ _ _ h => h.elim⟩
  obtain ⟨hstates, hnotes⟩ := h
  have hfinds := Functions.find_eq (Entry.Beside.prototypes hstates.entries) p
  cases hfind : w.symbols.functions.find p with
  | error e =>
    rw [Lower.declare_run_error hfind, Lower.declare_run_error (hfinds.trans hfind)]
    exact .refused ⟨hstates, hnotes⟩
  | ok found =>
    cases found with
    | some id =>
      rw [Lower.declare_run_found hfind, Lower.declare_run_found (hfinds.trans hfind)]
      exact .answered rfl ⟨hstates, hnotes⟩
    | none =>
      -- A new prototype: its symbol is none of the runtime, so the modules agree about it.
      rw [Lower.declare_run_none hfind, Lower.declare_run_none (hfinds.trans hfind)]
      cases hname : p.irName .builtins with
      | error e => exact .refused ⟨hstates, hnotes⟩
      | ok symbol =>
        cases hsig : p.irSignature .builtins with
        | error e => exact .refused ⟨hstates, hnotes⟩
        | ok sig =>
          have hsymbol := Prototype.irName_notMem_symbols hname hlinks
          show (abreast D ds ds').Outcome Eq
            ((Lower.declareSymbol p symbol sig >>= fun _ => _ : Lower EntryId).run w)
            ((Lower.declareSymbol p symbol sig >>= fun _ => _ : Lower EntryId).run w')
          unfold Lower.declareSymbol Lower.emit
          rw [Act.run_bind, Act.run_bind, Act.run_onPart, Act.run_onPart, Act.run_mapError,
            Act.run_mapError]
          rcases hstates.modules.declare hsymbol sig p.linkage with
            ⟨c, c', m, m', hrun, hrun', hmodules, hmatch, hprefix, hprefix'⟩ | ⟨e, hrun, hrun'⟩
          · rw [hrun, hrun']
            have hentries := hstates.entries.imp fun _ _ he =>
              he.mono fun _ _ hmatch => hmatch.mono hprefix hprefix'
            refine .answered hentries.length_eq ⟨⟨hmodules, ?_, hstates.scopes, hstates.control,
              hstates.outside, hstates.outside'⟩, hnotes⟩
            exact List.rel_append hentries (.cons ⟨rfl, hmatch, fun _ => rfl, hlinks⟩ .nil)
          · rw [hrun, hrun']
            exact .refused ⟨hstates, hnotes⟩

/-! ## Definitions -/

/-- Both entries at a position are marked, alike unless their function is
    excepted. -/
theorem Entry.Beside.setDefined {R : FuncId → FuncId → Prop} {t t' : Functions}
    (h : List.Forall₂ (Entry.Beside D R) t.entries t'.entries) (id : EntryId) (b b' : Bool)
    (hmarks : ∀ e, t.entries[id]? = some e → ¬ e.prototype.Excepted D → b' = b) :
    List.Forall₂ (Entry.Beside D R) (t.setDefined id b).entries (t'.setDefined id b').entries := by
  show List.Forall₂ _ (t.entries.modify id fun e => { e with defined := b })
    (t'.entries.modify id fun e => { e with defined := b' })
  generalize t.entries = l at h hmarks
  generalize t'.entries = l' at h
  induction h generalizing id with
  | nil => cases id <;> exact .nil
  | @cons e _ _ _ he hrest ih =>
    cases id with
    | zero => exact .cons ⟨he.prototype, he.func, hmarks e rfl, he.links⟩ hrest
    | succ id => exact .cons he (ih id hmarks)

theorem Prototype.Excepted.congr (h : p.Excepted D) (hname : p.name = q.name)
    (hparams : p.paramTypes = q.paramTypes) (hsymbol : p.symbol = q.symbol) : q.Excepted D := by
  obtain ⟨hlocal, s, hs, hD⟩ := h
  refine ⟨?_, s, Prototype.irName_congr hname hparams hsymbol hs, hD⟩
  rw [Prototype.isExternal_eq_false] at hlocal ⊢
  exact hsymbol.symm.trans hlocal

namespace Lower

theorem begin_run_head {types : TypeTable} {e : Fault}
    (h : Prototype.ofDecl types decl.prototype = .error e) :
    (begin types decl).run w = (.error e, w) := by
  show Act.run (Act.ofExcept (Prototype.ofDecl types decl.prototype) >>= _) w = _
  rw [h]
  rfl

/-- Behind the head, a definition is refused, or it is a declaration with
    something behind it. -/
theorem begin_run_ok {types : TypeTable} (h : Prototype.ofDecl types decl.prototype = .ok p) :
    (begin types decl).run w =
      if p.isExternal then
        (.error ((Cause.invalidOperation
          s!"external function '{p.name}' cannot have a body").atSpan decl.span), w)
      else Act.run (do
        let id ← declare types p
        let e ← (liftM ((← symbols).functions.entry id) : Lower Entry)
        let functions ← (liftM ((← symbols).functions.markDefined id decl.span) : Lower Functions)
        setFunctions functions
        pure (p, id, e.func)) w := by
  show Act.run (Act.ofExcept (Prototype.ofDecl types decl.prototype) >>= _) w = _
  rw [h]
  show Act.run (Act.refuseIf (p.isExternal = true) _ >>= _) w = _
  rw [Act.run_bind, Act.run_refuseIf]
  by_cases hexternal : p.isExternal = true
  · rw [if_pos hexternal, if_pos hexternal]
  · rw [if_neg hexternal, if_neg hexternal]

end Lower

/-- A definition that is not excepted gets as far in both compilations. -/
theorem begin_outcome (decl : FunctionDecl) (h : (abreast D ds ds').agree w w')
    (hother : ∀ p, Prototype.ofDecl .builtins decl.prototype = .ok p → ¬ p.Excepted D) :
    (abreast D ds ds').Outcome (fun q q' => q'.1 = q.1 ∧ q'.2.1 = q.2.1)
      ((Lower.begin .builtins decl).run w) ((Lower.begin .builtins decl).run w') := by
  cases hp : Prototype.ofDecl .builtins decl.prototype with
  | error e =>
    rw [Lower.begin_run_head hp, Lower.begin_run_head hp]
    exact .refused h
  | ok p =>
    rw [Lower.begin_run_ok hp, Lower.begin_run_ok hp]
    by_cases hexternal : p.isExternal = true
    · rw [if_pos hexternal, if_pos hexternal]
      exact .refused h
    rw [if_neg hexternal, if_neg hexternal]
    have hlinks : ∀ symbol, p.symbol = some symbol → symbol ∉ Distribution.symbols := by
      intro symbol hsymbol
      have hlocal := Prototype.isExternal_eq_false.1 ((Bool.not_eq_true _).mp hexternal)
      cases hlocal.symm.trans hsymbol
    have hdeclare := (declare_twin hlinks).outcome w w' h
    rw [Act.run_bind, Act.run_bind]
    rcases hrun : (Lower.declare .builtins p).run w with ⟨r, w₁⟩
    rcases hrun' : (Lower.declare .builtins p).run w' with ⟨r', w₁'⟩
    rw [hrun, hrun'] at hdeclare
    cases hdeclare with
    | refused hagree => exact .refused hagree
    | ahead hahead => exact hahead.elim
    | excused hlenient => exact hlenient.elim
    | @answered id _ _ _ hid hagree =>
      subst hid
      obtain ⟨e, he, hname, hparams, -, hsymbol⟩ :=
        ((Lower.declare_meets .builtins p w).of_ok hrun).entry
      rcases forall₂_getElem? hagree.1.entries id with ⟨hnone, -⟩ | ⟨e₁, e', he₁, he', hentry⟩
      · cases he.symm.trans hnone
      obtain rfl : e = e₁ := Option.some.inj (he.symm.trans he₁)
      -- The function is not excepted, so it has a body in both compilations or in none.
      have hdefined : e'.defined = e.defined :=
        hentry.defined fun hexcepted => hother p hp (hexcepted.congr hname hparams hsymbol)
      show (abreast D ds ds').Outcome _ (Act.run _ w₁) (Act.run _ w₁')
      rw [Lower.mark_run decl.span he, Lower.mark_run decl.span he', hdefined,
        hentry.prototype]
      by_cases hd : e.defined = true
      · rw [if_pos hd, if_pos hd]
        exact .refused hagree
      · rw [if_neg hd, if_neg hd]
        refine .answered ⟨rfl, rfl⟩ ⟨?_, hagree.2⟩
        exact { hagree.1 with
          entries := Entry.Beside.setDefined hagree.1.entries id true true fun _ _ _ => rfl }

/-! ## Bodies -/

namespace Joint

variable {J : Joint} {ds ds' : Diagnostics} {w w' : Work}

/-- Between items, one function may be lowered next in both compilations. -/
theorem Works.of_abreast (h : w.Abreast D w')
    (hnotes : ∃ new, w.diagnostics = ds ++ new ∧ w'.diagnostics = ds' ++ new) {k k' : FuncId}
    {f f' : Function} (hf : w.builder.module.function? k = some f)
    (hf' : w'.builder.module.function? k' = some f') (hname : f'.name = f.name)
    (hcompared : f.Compared D) :
    Works ⟨k, k', w.builder.module.Matches w'.builder.module, D, (· ∈ w.builder.module.symbols)⟩
      ds ds' w w' := by
  refine ⟨⟨h.modules, fun _ hs _ => hs, fun _ _ hc => hc, ⟨f, f', hf, hf', hname, hcompared⟩,
    fun c hc => ?_, ?_⟩, ⟨h.scopes, h.control, h.entries⟩, hnotes⟩
  · cases h.outside.symm.trans hc
  · rw [show w.builder.cursor = none from h.outside]
    exact h.outside'

theorem Works.finished (h : J.Works ds ds' w w') :
    (abreast J.excepted ds ds').agree w.finished w'.finished := by
  refine ⟨⟨h.builders.modules, ?_, h.tables.scopes, h.tables.control, rfl, rfl⟩, h.diagnostics⟩
  exact h.tables.entries.imp fun _ _ he => he.mono h.builders.callees

theorem Works.dropped (h : J.Works ds ds' w w') (id : EntryId) :
    (abreast J.excepted ds ds').agree (w.dropped id J.left) (w'.dropped id J.right) := by
  obtain ⟨f, f', hf, hf', hname, -⟩ := h.builders.here
  have hmodules := h.builders.modules
  have hhead := hmodules.heads hf hf' hname
  have hcleared : (w.builder.module.update J.left Function.clearBody).Beside J.excepted
      (w'.builder.module.update J.right Function.clearBody) :=
    hmodules.update hf hf' hname (fun _ => ⟨rfl, rfl, rfl⟩) (fun _ => ⟨rfl, rfl, rfl⟩) fun _ =>
      .clearBody hhead
  have hsymbols : ∀ (m : Module) k, (m.update k Function.clearBody).symbols = m.symbols :=
    fun m k => m.symbols_update k _
  -- Dropping a body changes no symbol, so positions that matched still match.
  refine ⟨⟨hcleared, ?_, h.tables.scopes, h.tables.control, rfl, rfl⟩, h.diagnostics⟩
  refine Entry.Beside.setDefined (h.tables.entries.imp fun _ _ he => he.mono ?_) id false false
    fun _ _ _ => rfl
  intro c c' hc
  refine (h.builders.callees c c' hc).mono ?_ ?_
  · exact (hsymbols w.builder.module J.left).symm ▸ List.prefix_refl _
  · exact (hsymbols w'.builder.module J.right).symm ▸ List.prefix_refl _

/-- A function gets the same body in both compilations, or it is dropped in
    both. -/
theorem Works.attach (h : J.Works ds ds' w w') (options : Options) (decl : FunctionDecl)
    (p : Prototype) (id : EntryId) :
    (abreast J.excepted ds ds').Outcome (fun _ _ => True)
      ((Lower.attach ⟨.builtins, options⟩ decl (p, id, J.left)).run w)
      ((Lower.attach ⟨.builtins, options⟩ decl (p, id, J.right)).run w') := by
  have hbody := ((J.lowering ds ds' options).frameBody ⟨rfl, rfl⟩ p decl).outcome w w' h
  rcases hrun : (Lower.frameBody ⟨.builtins, options⟩ p J.left decl).run w with ⟨r, t⟩
  rcases hrun' : (Lower.frameBody ⟨.builtins, options⟩ p J.right decl).run w' with ⟨r', t'⟩
  rw [hrun, hrun'] at hbody
  cases hbody with
  | answered _ hend =>
    rw [Lower.attach_run_ok (q := (p, id, J.left)) hrun,
      Lower.attach_run_ok (q := (p, id, J.right)) hrun']
    exact .answered trivial hend.finished
  | refused hend =>
    -- Both runs drop what they built so far, each in its own function.
    obtain ⟨f, f', hf, hf', -, -⟩ := hend.builders.here
    rw [Lower.attach_run_error (q := (p, id, J.left)) hrun,
      Lower.attach_run_error (q := (p, id, J.right)) hrun', Lower.dropBody_run hf,
      Lower.dropBody_run hf']
    exact .refused (hend.dropped id)
  | ahead hahead => exact hahead.elim
  | excused hlenient => exact hlenient.elim

end Joint

/-- A definition that has begun is one of a function that is compared. -/
theorem Begun.compared {options : Options} {id : EntryId} {e : Entry}
    (h : Begun ⟨.builtins, options⟩ decl w p id e w₁)
    (hstep : InStep w.builder.module w.symbols.functions) (hother : ¬ p.Excepted D) {f : Function}
    (hf : w₁.builder.module.function? e.func = some f) : f.Compared D := by
  obtain ⟨e₁, he₁, hname, hparams, -, hsymbol⟩ := h.declared.entry
  obtain rfl : e₁ = e := Option.some.inj (he₁.symm.trans h.entry)
  obtain ⟨g, hg, hirName, -⟩ := (hstep.declared h.declared).linked e₁ (List.mem_of_getElem? he₁)
  obtain rfl : g = f := Option.some.inj (hg.symm.trans hf)
  have hpName := Prototype.irName_congr hname hparams hsymbol hirName
  constructor
  · refine Prototype.irName_notMem_symbols hirName fun symbol hs => ?_
    rw [h.local] at hs
    cases hs
  · rintro ⟨hD, -⟩
    exact hother ⟨h.internal, g.name, hpName, hD⟩

/-- A definition that is not excepted is answered or refused alike. -/
theorem function_outcome (options : Options) (decl : FunctionDecl)
    (h : (abreast D ds ds').agree w w') (hstep : InStep w.builder.module w.symbols.functions)
    (hother : ∀ p, Prototype.ofDecl .builtins decl.prototype = .ok p → ¬ p.Excepted D) :
    (abreast D ds ds').Outcome (fun _ _ => True)
      ((Lower.function ⟨.builtins, options⟩ decl).run w)
      ((Lower.function ⟨.builtins, options⟩ decl).run w') := by
  have hbegin := begin_outcome decl h hother
  rw [Lower.function_eq_begin, Act.run_bind, Act.run_bind]
  rcases hrun : (Lower.begin .builtins decl).run w with ⟨r, t⟩
  rcases hrun' : (Lower.begin .builtins decl).run w' with ⟨r', t'⟩
  rw [hrun, hrun'] at hbegin
  cases hbegin with
  | refused hagree => exact .refused hagree
  | ahead hahead => exact hahead.elim
  | excused hlenient => exact hlenient.elim
  | answered hsame hagree =>
    obtain ⟨p, id, e, w₁, hbegun, -, rfl, rfl⟩ :=
      (Lower.begin_meets ⟨.builtins, options⟩ decl w).of_ok hrun
    obtain ⟨p', id', e', w₁', hbegun', -, rfl, rfl⟩ :=
      (Lower.begin_meets ⟨.builtins, options⟩ decl w').of_ok hrun'
    obtain ⟨rfl, rfl⟩ : p' = p ∧ id' = id := hsame
    obtain ⟨hstates, hnotes⟩ := hagree
    -- The entries at this position name the two functions.
    have hmatch : w₁.builder.module.Matches w₁'.builder.module e.func e'.func := by
      rcases forall₂_getElem? hstates.entries id' with ⟨hnone, -⟩ | ⟨a, a', ha, ha', hentry⟩
      · cases (Functions.setDefined_self hbegun.entry true).symm.trans hnone
      · obtain rfl := Option.some.inj ((Functions.setDefined_self hbegun.entry true).symm.trans ha)
        obtain rfl := Option.some.inj ((Functions.setDefined_self hbegun'.entry true).symm.trans ha')
        exact hentry.func
    obtain ⟨f, f', hf, hf', hname⟩ := hmatch.function?
    have hcompared := hbegun.compared hstep (hother p' hbegun.head) hf
    exact (Joint.Works.of_abreast hstates hnotes hf hf' hname hcompared).attach options decl p' id'

/-! ## Items -/

/-- An item that defines no excepted function is answered or refused alike. -/
theorem lowerItem_outcome (options : Options) (item : Item) (h : (abreast D ds ds').agree w w')
    (hstep : InStep w.builder.module w.symbols.functions)
    (hlinks : ∀ decl, item = .prototype decl → ∀ symbol, decl.symbol = some symbol →
      symbol ∉ Distribution.symbols)
    (hother : ∀ decl, item = .function decl → ∀ p,
      Prototype.ofDecl .builtins decl.prototype = .ok p → ¬ p.Excepted D) :
    (abreast D ds ds').Outcome Eq ((Progress.lowerItem ⟨.builtins, options⟩ item).run w)
      ((Progress.lowerItem ⟨.builtins, options⟩ item).run w') := by
  cases item with
  | prototype decl =>
    have htwin : (abreast D ds ds').Twin Eq
        (Progress.lowerItem ⟨.builtins, options⟩ (.prototype decl))
        (Progress.lowerItem ⟨.builtins, options⟩ (.prototype decl)) := by
      refine .bind (.ofExcept_bind fun p hp => declare_twin ?_) fun _ => .pure rfl
      exact Prototype.ofDecl_symbol hp ▸ hlinks decl rfl
    exact htwin.outcome w w' h
  | function decl =>
    -- The item throws the function's id away, which is all that the two runs may differ in.
    have hfunction := function_outcome options decl h hstep (hother decl rfl)
    show (abreast D ds ds').Outcome Eq (Act.run (Lower.function _ decl >>= fun _ => pure ()) w)
      (Act.run (Lower.function _ decl >>= fun _ => pure ()) w')
    rw [Act.run_bind, Act.run_bind]
    generalize (Lower.function ⟨.builtins, options⟩ decl).run w = q at hfunction
    generalize (Lower.function ⟨.builtins, options⟩ decl).run w' = q' at hfunction
    cases hfunction with
    | answered _ hagree => exact .answered rfl hagree
    | refused hagree => exact .refused hagree
    | ahead hahead => exact hahead.elim
    | excused hlenient => exact hlenient.elim

end Shading
