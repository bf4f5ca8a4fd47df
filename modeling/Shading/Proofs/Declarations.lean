import Shading.Proofs.Functions
import Shading.Proofs.Outcomes

/-! # Declarations

    A function is declared in two places: in the table, by its name and its
    parameter types, and in the module, by its symbol.  The two can agree or
    differ independently of each other, and either of them may refuse the
    declaration.

    Main result: a declaration finds the entry that is there, or adds one, or
    changes nothing at all, and it can be repeated
    (`declare_all_or_nothing`). -/

namespace Shading

open IR

/-! ## The table -/

/-- An entry is for the name and the parameter types of a prototype. -/
@[mk_iff]
structure Entry.IsFor (e : Entry) (p : Prototype) : Prop where
  name : e.prototype.name = p.name
  params : e.prototype.paramTypes = p.paramTypes

instance (e : Entry) (p : Prototype) : Decidable (e.IsFor p) :=
  decidable_of_iff _ (Entry.isFor_iff e p).symm

/-- An entry has the result type and the symbol of a prototype. -/
def Entry.Agrees (e : Entry) (p : Prototype) : Prop :=
  e.prototype.ret = p.ret ∧ e.prototype.symbol = p.symbol

namespace Functions

variable {t : Functions} {p : Prototype} {id : EntryId} {e : Entry}

/-- The first entry for a prototype; in a table that declarations have built
    it is the only one. -/
structure FirstFor (t : Functions) (p : Prototype) (id : EntryId) (e : Entry) : Prop where
  entry : t.entries[id]? = some e
  isFor : e.IsFor p
  first : ∀ j < id, ∀ a, t.entries[j]? = some a → ¬ a.IsFor p

/-- The overload that a prototype is compared with. -/
def overload? (t : Functions) (p : Prototype) : Option (Entry × EntryId) :=
  (t.overloads p.name).find? (·.1.prototype.sameParams p)

theorem overload?_eq (t : Functions) (p : Prototype) :
    t.overload? p = t.entries.zipIdx.find? fun q => decide (q.1.IsFor p) := by
  unfold overload?
  rw [overloads_eq, List.find?_filter]
  congr 1
  funext q
  simp [Entry.isFor_iff, Prototype.sameParams]

theorem overload?_eq_some : t.overload? p = some (e, id) ↔ t.FirstFor p id e := by
  rw [overload?_eq, List.find?_eq_some_iff_getElem, decide_eq_true_iff]
  constructor
  · rintro ⟨hfor, i, hi, hget, hfirst⟩
    rw [List.getElem_zipIdx, Nat.zero_add, Prod.mk.injEq] at hget
    obtain ⟨hget, rfl⟩ := hget
    have hlt : i < t.entries.length := by simpa using hi
    refine ⟨List.getElem?_eq_some_iff.2 ⟨hlt, hget⟩, hfor, fun j hj a ha => ?_⟩
    obtain ⟨-, rfl⟩ := List.getElem?_eq_some_iff.1 ha
    simpa using hfirst j hj
  · rintro ⟨hentry, hfor, hfirst⟩
    obtain ⟨hlt, hget⟩ := List.getElem?_eq_some_iff.1 hentry
    refine ⟨hfor, id, by simpa using hlt, by simp [hget], fun j hj => ?_⟩
    simpa using hfirst j hj _ (List.getElem?_eq_getElem (Nat.lt_trans hj hlt))

theorem overload?_eq_none : t.overload? p = none ↔ ∀ e ∈ t.entries, ¬ e.IsFor p := by
  simp only [overload?_eq, List.find?_eq_none, decide_eq_true_iff]
  constructor
  · intro h e he
    obtain ⟨i, hi⟩ := List.getElem?_of_mem he
    exact h (e, i) (List.mem_zipIdx_iff_getElem?.2 hi)
  · intro h q hq
    exact h q.1 (List.mem_of_getElem? (List.mem_zipIdx_iff_getElem?.1 hq))

/-- A table with an entry for a prototype has a first one. -/
theorem exists_firstFor (h : ∃ e ∈ t.entries, e.IsFor p) : ∃ id e, t.FirstFor p id e := by
  cases hfound : t.overload? p with
  | none =>
    obtain ⟨e, he, hfor⟩ := h
    exact absurd hfor (overload?_eq_none.1 hfound e he)
  | some q => exact ⟨q.2, q.1, overload?_eq_some.1 hfound⟩

/-- What is found is decided by the first entry. -/
theorem FirstFor.find (h : t.FirstFor p id e) :
    e.Agrees p ∧ t.find p = .ok (some id) ∨
      ¬ e.Agrees p ∧ ∃ message,
        t.find p = .error ((Cause.prototypeConflict p.name message).atSpan p.span) := by
  have hfound := overload?_eq_some.2 h
  unfold overload? at hfound
  unfold Functions.find
  rw [hfound]
  by_cases hret : e.prototype.ret = p.ret
  · by_cases hsymbol : e.prototype.symbol = p.symbol
    · exact .inl ⟨⟨hret, hsymbol⟩, by simp [hret, hsymbol]⟩
    · refine .inr ⟨fun hagrees => hsymbol hagrees.2, "redeclared with a different linkage", ?_⟩
      simp [hret, hsymbol]
  · refine .inr ⟨fun hagrees => hret hagrees.1, "redeclared with a different return type", ?_⟩
    simp [hret]

theorem find_eq_ok_none : t.find p = .ok none ↔ ∀ e ∈ t.entries, ¬ e.IsFor p := by
  constructor
  · intro hfind e he hfor
    obtain ⟨id, a, hfirst⟩ := exists_firstFor ⟨e, he, hfor⟩
    rcases hfirst.find with ⟨-, h⟩ | ⟨-, message, h⟩
    · rw [hfind] at h
      cases h
    · rw [hfind] at h
      cases h
  · intro h
    have hnone := overload?_eq_none.2 h
    unfold overload? at hnone
    unfold Functions.find
    rw [hnone]

theorem find_eq_ok_some : t.find p = .ok (some id) ↔ ∃ e, t.FirstFor p id e ∧ e.Agrees p := by
  constructor
  · intro hfind
    -- A search that finds an entry cannot have run past all of them.
    have hsome : ∃ e ∈ t.entries, e.IsFor p := by
      by_contra hno
      rw [find_eq_ok_none.2 fun e he hfor => hno ⟨e, he, hfor⟩] at hfind
      cases hfind
    obtain ⟨id', e, hfirst⟩ := exists_firstFor hsome
    rcases hfirst.find with ⟨hagrees, h⟩ | ⟨-, message, h⟩
    · rw [hfind] at h
      cases h
      exact ⟨e, hfirst, hagrees⟩
    · rw [hfind] at h
      cases h
  · rintro ⟨e, hfirst, hagrees⟩
    rcases hfirst.find with ⟨-, h⟩ | ⟨hdiffers, -⟩
    · exact h
    · exact absurd hagrees hdiffers

/-- A prototype that is not found differs from all entries of its name. -/
theorem find_eq_none (h : t.find p = .ok none) {i : Nat} (he : t.entries[i]? = some e)
    (hname : e.prototype.name = p.name) : e.prototype.paramTypes ≠ p.paramTypes := fun hparams =>
  find_eq_ok_none.1 h e (List.mem_of_getElem? he) ⟨hname, hparams⟩

/-- A new entry is found for its prototype. -/
theorem find_insert (h : t.find p = .ok none) (func : FuncId) :
    (t.insert p func).find p = .ok (some t.entries.length) := by
  refine find_eq_ok_some.2 ⟨⟨p, func, false⟩, ⟨?_, ⟨rfl, rfl⟩, fun j hj a ha => ?_⟩, rfl, rfl⟩
  · exact List.getElem?_concat_length
  · have hold : t.entries[j]? = some a := by
      rw [← ha, Functions.insert, List.getElem?_append_left hj]
    exact find_eq_ok_none.1 h a (List.mem_of_getElem? hold)

end Functions

/-! ## All ends of a declaration -/

/-- Why a declaration was refused. -/
inductive DeclareRefused (types : TypeTable) (p : Prototype) (w : Work) : Fault → Prop
  | conflict {e : Fault} (h : w.symbols.functions.find p = .error e) : DeclareRefused types p w e
  | symbol {e : Fault} (hfind : w.symbols.functions.find p = .ok none)
    (h : p.irName types = .error e) : DeclareRefused types p w e
  | signature {e : Fault} (hfind : w.symbols.functions.find p = .ok none)
    (h : p.irSignature types = .error e) : DeclareRefused types p w e
  | taken {symbol : String} {sig : Signature} {id : FuncId} {f : Function}
    (hfind : w.symbols.functions.find p = .ok none) (hsymbol : p.irName types = .ok symbol)
    (hsig : p.irSignature types = .ok sig) (hid : w.builder.module.find? symbol = some id)
    (hf : w.builder.module.function? id = some f)
    (hdiffer : f.signature ≠ sig ∨ f.linkage ≠ p.linkage) :
    DeclareRefused types p w ((Cause.prototypeConflict p.name
      s!"symbol '{symbol}' is already declared with another signature").atSpan p.span)

/-- A symbol is declared, or it was declared differently. -/
theorem IR.Build.declare_meets (name : String) (sig : Signature) (linkage : Linkage)
    (b : Builder) : (Build.declare name sig linkage).Meets b
      (fun id t => ∃ m, Build.Declared b.module name sig linkage id m ∧ t = { b with module := m })
      fun e t => t = b ∧ e = .signatureMismatch name ∧ ∃ id f, b.module.find? name = some id ∧
        b.module.function? id = some f ∧ (f.signature ≠ sig ∨ f.linkage ≠ linkage) := by
  refine Act.meets_of_run (fun id t hrun => Build.declare_run hrun) fun e t hrun => ?_
  -- Only a symbol that is taken can be refused.
  cases hfind : b.module.find? name with
  | none =>
    rw [Build.declare_run_new hfind] at hrun
    cases hrun
  | some id =>
    obtain ⟨f, hf, -⟩ := Module.name_of_find? hfind
    rw [Build.declare_run_known hfind hf] at hrun
    by_cases hdiffer : f.signature ≠ sig ∨ f.linkage ≠ linkage
    · rw [if_pos hdiffer] at hrun
      cases hrun
      exact ⟨rfl, rfl, id, f, rfl, hf, hdiffer⟩
    · rw [if_neg hdiffer] at hrun
      cases hrun

/-- A refused declaration changes nothing. -/
theorem Lower.declare_meets (types : TypeTable) (p : Prototype) (w : Work) :
    (Lower.declare types p).Meets w (fun id w' => DeclaredEntry types p w id w')
      fun e w' => w' = w ∧ DeclareRefused types p w e := by
  refine Act.meets_of_run (fun id w' hrun => Lower.declare_run hrun) fun e w' hrun => ?_
  -- Each step that can be refused has its own way to be; none of them has changed the state.
  have hmeets : (Lower.declare types p).Meets w (fun _ _ => True)
      fun e w' => w' = w ∧ DeclareRefused types p w e := by
    refine Act.Meets.bind (Q := fun s t => s = w.symbols ∧ t = w) ⟨rfl, rfl⟩ fun s t ht => ?_
    obtain ⟨rfl, rfl⟩ := ht
    refine Act.meets_bind.2 (Act.meets_ofExcept.2 ⟨fun o ho => ?_, fun e he => ⟨rfl, .conflict he⟩⟩)
    cases o with
    | some id => exact trivial
    | none =>
      refine Act.meets_bind.2 (Act.meets_ofExcept.2 ⟨fun symbol hsymbol => ?_, fun e he =>
        ⟨rfl, .symbol ho he⟩⟩)
      refine Act.meets_bind.2 (Act.meets_ofExcept.2 ⟨fun sig hsig => ?_, fun e he =>
        ⟨rfl, .signature ho he⟩⟩)
      refine Act.meets_bind.2 ?_
      unfold declareSymbol emit
      refine Act.meets_onPart.2 (Act.meets_mapError.2
        ((Build.declare_meets symbol sig p.linkage _).mono (fun _ _ _ => trivial) fun e b hb => ?_))
      obtain ⟨rfl, rfl, id, f, hid, hf, hdiffer⟩ := hb
      exact ⟨rfl, .taken ho hsymbol hsig hid hf hdiffer⟩
  exact hmeets.of_error hrun

/-- The entry of a declared function has its name, its parameter types, its
    result type and its symbol. -/
theorem DeclaredEntry.entry {types : TypeTable} {p : Prototype} {w w₁ : Work} {id : EntryId}
    (h : DeclaredEntry types p w id w₁) : ∃ e, w₁.symbols.functions.entries[id]? = some e ∧
      e.prototype.name = p.name ∧ e.prototype.paramTypes = p.paramTypes ∧
      e.prototype.ret = p.ret ∧ e.prototype.symbol = p.symbol := by
  cases h with
  | found hfind =>
    obtain ⟨e, hfirst, hret, hsymbol⟩ := Functions.find_eq_ok_some.1 hfind
    exact ⟨e, hfirst.entry, hfirst.isFor.name, hfirst.isFor.params, hret, hsymbol⟩
  | @added symbol sig func m hfind hname hsig hdecl =>
    refine ⟨⟨p, func, false⟩, ?_, rfl, rfl, rfl, rfl⟩
    simp [Functions.insert]

namespace Lower

variable {types : TypeTable} {p : Prototype} {w : Work}

theorem declare_run_error {e : Fault} (h : w.symbols.functions.find p = .error e) :
    (declare types p).run w = (.error e, w) := by
  unfold declare
  rw [Act.run_bind, show symbols.run w = (.ok w.symbols, w) from rfl]
  show Act.run (Act.ofExcept (w.symbols.functions.find p) >>= _) w = _
  rw [h]
  rfl

theorem declare_run_found {id : EntryId} (h : w.symbols.functions.find p = .ok (some id)) :
    (declare types p).run w = (.ok id, w) := by
  unfold declare
  rw [Act.run_bind, show symbols.run w = (.ok w.symbols, w) from rfl]
  show Act.run (Act.ofExcept (w.symbols.functions.find p) >>= _) w = _
  rw [h]
  rfl

/-- A prototype that is not in the table is declared in the module. -/
theorem declare_run_none (h : w.symbols.functions.find p = .ok none) :
    (declare types p).run w = Act.run (do
      let symbol ← (liftM (p.irName types) : Lower String)
      let sig ← (liftM (p.irSignature types) : Lower Signature)
      let func ← declareSymbol p symbol sig
      setFunctions (w.symbols.functions.insert p func)
      pure w.symbols.functions.entries.length) w := by
  unfold declare
  rw [Act.run_bind, show symbols.run w = (.ok w.symbols, w) from rfl]
  show Act.run (Act.ofExcept (w.symbols.functions.find p) >>= _) w = _
  rw [h]
  rfl

end Lower

/-! ## All or nothing -/

/-- A function is declared for the first time: it gets the last entry, which
    is not defined, and at most one function without a body is added to the
    module.  Nothing else changes. -/
structure Work.Adds (w : Work) (p : Prototype) (id : EntryId) (w' : Work) : Prop where
  entries : ∃ func,
    w'.symbols.functions.entries = w.symbols.functions.entries ++ [⟨p, func, false⟩]
  last : id = w.symbols.functions.entries.length
  found : w'.symbols.functions.find p = .ok (some id)
  module : ∃ added : List Function, added.length ≤ 1 ∧
    (∀ f ∈ added, f.blocks = [] ∧ f.insts = []) ∧
    w'.builder.module.name = w.builder.module.name ∧
    w'.builder.module.functions = w.builder.module.functions ++ added
  rest : w' = { w with
    builder := { w.builder with module := w'.builder.module }
    symbols := { w.symbols with functions := w'.symbols.functions } }

theorem IR.Build.Declared.adds {m m' : Module} {name : String} {sig : Signature} {linkage : Linkage}
    {func : FuncId} (h : Build.Declared m name sig linkage func m') :
    ∃ added : List Function, added.length ≤ 1 ∧ (∀ f ∈ added, f.blocks = [] ∧ f.insts = []) ∧
      m'.name = m.name ∧ m'.functions = m.functions ++ added := by
  cases h with
  | found => exact ⟨[], Nat.zero_le 1, by simp, rfl, by simp⟩
  | added =>
    exact ⟨[.declaration name sig linkage], Nat.le_refl 1, by simp [Function.declaration], rfl, rfl⟩

namespace DeclaredEntry

variable {types : TypeTable} {p : Prototype} {w w' : Work} {id : EntryId}

theorem adds (h : DeclaredEntry types p w id w') (hnew : w.symbols.functions.find p = .ok none) :
    w.Adds p id w' := by
  cases h with
  | found hfind =>
    rw [hnew] at hfind
    cases hfind
  | @added symbol sig func m hfind hname hsig hdecl =>
    exact ⟨⟨func, rfl⟩, rfl, Functions.find_insert hfind func, hdecl.adds, rfl⟩

/-- After a declaration its entry is found. -/
theorem find (h : DeclaredEntry types p w id w') :
    w'.symbols.functions.find p = .ok (some id) := by
  cases h with
  | found hfind => exact hfind
  | added hfind => exact Functions.find_insert hfind _

end DeclaredEntry

/-- A declaration is all or nothing, whatever the table of types, the module
    and the table of functions hold.  If the name and the parameter types have
    an entry, the declaration answers with it, or is refused because result
    type or symbol differ, and changes nothing.  If they have none and the
    declaration answers, an entry is added.  A refused declaration changes
    nothing, and one that was answered can be repeated with the same answer and
    without any further change. -/
theorem declare_all_or_nothing (types : TypeTable) (p : Prototype) (w : Work) :
    ((∃ e ∈ w.symbols.functions.entries, e.IsFor p) →
      ∃ id e, w.symbols.functions.FirstFor p id e ∧
        (e.Agrees p ∧ (Lower.declare types p).run w = (.ok id, w) ∨
          ¬ e.Agrees p ∧ ∃ message, (Lower.declare types p).run w =
            (.error ((Cause.prototypeConflict p.name message).atSpan p.span), w))) ∧
    ((∀ e ∈ w.symbols.functions.entries, ¬ e.IsFor p) →
      ∀ id w', (Lower.declare types p).run w = (.ok id, w') → w.Adds p id w') ∧
    (∀ fault w', (Lower.declare types p).run w = (.error fault, w') → w' = w) ∧
    ∀ id w', (Lower.declare types p).run w = (.ok id, w') →
      (Lower.declare types p).run w' = (.ok id, w') := by
  -- The search decides which of the cases it is.
  refine ⟨fun hsome => ?_, fun hnone id w' hrun => ?_, fun fault w' hrun => ?_, fun id w' hrun => ?_⟩
  · obtain ⟨id, e, hfirst⟩ := Functions.exists_firstFor hsome
    refine ⟨id, e, hfirst, ?_⟩
    rcases hfirst.find with ⟨hagrees, hfind⟩ | ⟨hdiffers, message, hfind⟩
    · exact .inl ⟨hagrees, Lower.declare_run_found hfind⟩
    · exact .inr ⟨hdiffers, message, Lower.declare_run_error hfind⟩
  · exact (Lower.declare_run hrun).adds (Functions.find_eq_ok_none.2 hnone)
  · exact ((Lower.declare_meets types p w).of_error hrun).1
  · exact Lower.declare_run_found (Lower.declare_run hrun).find

/-- `float luma(float x)` -/
def luma : Prototype :=
  ⟨"luma", none, Builtin.float.id, [⟨"x", Builtin.float.id, .unknown⟩], .unknown⟩

/-- The second declaration of `luma` finds the first one, and a third one with
    another result is refused; both leave everything as it is. -/
theorem luma_declared_once :
    let w := Work.initial "scene"
    let w₁ := ((Lower.declare .builtins luma).run w).2
    w.Adds luma 0 w₁ ∧ (Lower.declare .builtins luma).run w₁ = (.ok 0, w₁) ∧
      ∃ message, (Lower.declare .builtins { luma with ret := Builtin.int.id }).run w₁ =
        (.error ((Cause.prototypeConflict "luma" message).atSpan .unknown), w₁) := by
  intro w w₁
  have hrun : (Lower.declare .builtins luma).run w = (.ok 0, w₁) :=
    Act.run_eq_of_fst (by decide +kernel)
  obtain ⟨-, hadds, -, hagain⟩ := declare_all_or_nothing .builtins luma w
  have hadded : w.Adds luma 0 w₁ := hadds (fun e he => absurd he List.not_mem_nil) 0 w₁ hrun
  refine ⟨hadded, hagain 0 w₁ hrun, ?_⟩
  -- The one entry is for the same parameters and disagrees about the result.
  obtain ⟨func, hentries⟩ := hadded.entries
  have hentries : w₁.symbols.functions.entries = [⟨luma, func, false⟩] := hentries
  obtain ⟨hconflict, -⟩ := declare_all_or_nothing .builtins { luma with ret := Builtin.int.id } w₁
  obtain ⟨id, e, hfirst, hends⟩ := hconflict ⟨⟨luma, func, false⟩, by simp [hentries], rfl, rfl⟩
  have he := List.mem_of_getElem? hfirst.entry
  rw [hentries, List.mem_singleton] at he
  subst he
  have hdiffer : Builtin.float.id ≠ Builtin.int.id := by decide +kernel
  rcases hends with ⟨hagrees, -⟩ | ⟨-, hrefused⟩
  · exact absurd hagrees.1 hdiffer
  · exact hrefused

end Shading
