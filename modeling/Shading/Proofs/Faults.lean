import Shading.Symbols.Overload
import Shading.Symbols.Scopes

/-! # Faults of lookups

    Which kind of fault each lookup and check reports that is made without
    emitting anything.  None of them is about control flow: a path without
    `return` is found elsewhere. -/

namespace Shading

variable {span : Span} {name : String} {id ty : TypeId} {p : Prototype} {α β ε : Type}
    {f : α → Except ε β} {scopes : Scopes} {t : Functions}

/-- Is it the fault of a path without `return`? -/
def Fault.isMissingReturn : Fault → Bool
  | .located (.missingReturn _) _ => true
  | _ => false

theorem Fault.isMissingReturn_of_kind {e : Fault} (h : e.kind ≠ .control) :
    e.isMissingReturn = false := by
  cases e with
  | malformed m => rfl
  | located c s =>
    cases c with
    | missingReturn name => exact absurd rfl h
    | _ => rfl

@[simp] theorem Fault.isMissingReturn_locate (s : Span) (f : Fault) :
    (f.locate s).isMissingReturn = f.isMissingReturn := by
  cases f with
  | malformed m => rfl
  | located c t =>
    simp only [Fault.locate]
    split <;> cases c <;> rfl

/-- What succeeds in two steps succeeds in both. -/
theorem Except.bind_eq_ok {x : Except ε α} {b : β} (h : x >>= f = .ok b) :
    ∃ a, x = .ok a ∧ f a = .ok b := by
  cases x with
  | error e => cases h
  | ok a => exact ⟨a, rfl, h⟩

/-- What fails in two steps fails in the first or in the second. -/
theorem Except.bind_eq_error {x : Except ε α} {e : ε} (h : x >>= f = .error e) :
    x = .error e ∨ ∃ a, f a = .error e := by
  cases x with
  | error e' =>
    cases h
    exact .inl rfl
  | ok a => exact .inr ⟨a, h⟩

/-- What fails for a list fails for one of its members. -/
theorem Except.mapM_error {as : List α} {e : ε} (h : as.mapM f = .error e) :
    ∃ a ∈ as, f a = .error e := by
  -- The first element that fails decides.
  induction as with
  | nil => cases h
  | cons a as ih =>
    rw [List.mapM_cons] at h
    cases ha : f a with
    | error e' =>
      rw [ha] at h
      cases h
      exact ⟨a, List.mem_cons_self, ha⟩
    | ok b =>
      cases hrest : as.mapM f with
      | error e' =>
        rw [ha, hrest] at h
        cases h
        obtain ⟨a', hmem, ha'⟩ := ih hrest
        exact ⟨a', List.mem_cons_of_mem _ hmem, ha'⟩
      | ok bs =>
        rw [ha, hrest] at h
        cases h

variable {types : TypeTable} {e : Fault}

/-! ## Types -/

theorem TypeTable.resolve_error (h : types.resolve id = .error e) : e.kind = .internal := by
  unfold resolve at h
  split at h
  · cases h
  · cases h
    rfl

theorem TypeTable.resolveName_error (h : types.resolveName name span = .error e) :
    e.kind = .type := by
  unfold resolveName at h
  split at h
  · cases h
  · cases h
    rfl

theorem TypeTable.representation_error (h : types.representation id = .error e) :
    e.kind = .internal := by
  unfold representation at h
  -- A type is missing, or it has no shape: neither is the program's doing.
  cases hr : types.resolve id with
  | error e' =>
    rw [hr] at h
    cases h
    exact resolve_error hr
  | ok d =>
    rw [hr] at h
    cases hd : d.repr with
    | some ty =>
      simp only [bind, Except.bind, hd] at h
      cases h
    | none =>
      simp only [bind, Except.bind, hd] at h
      cases h
      rfl

/-! ## Variables -/

theorem Scopes.resolve_error (h : scopes.resolve name span = .error e) : e.kind = .resolution := by
  unfold resolve at h
  split at h
  · cases h
  · cases h
    rfl

/-- A name is taken, unless there is no scope to declare it in. -/
theorem Scopes.checkDeclarable_error (h : scopes.checkDeclarable name span = .error e) :
    e.kind = .redeclaration ∨ scopes.nested = [] ∧ e.kind = .internal := by
  unfold checkDeclarable at h
  split at h
  · rename_i hnil
    cases h
    exact .inr ⟨hnil, rfl⟩
  · split at h
    · cases h
      exact .inl rfl
    · cases h

theorem Scopes.declare_error {ptr : IR.Value} (h : scopes.declare name ty ptr span = .error e) :
    e.kind = .redeclaration ∨ scopes.nested = [] ∧ e.kind = .internal := by
  unfold declare at h
  -- The check is all that can fail, since a scope is open behind it.
  cases hc : scopes.checkDeclarable name span with
  | error e' =>
    rw [hc] at h
    cases h
    exact checkDeclarable_error hc
  | ok u =>
    rw [hc] at h
    cases hs : scopes.nested with
    | nil =>
      simp only [bind, Except.bind, hs] at h
      cases h
    | cons scope outer =>
      simp only [bind, Except.bind, hs] at h
      cases h

/-! ## Functions -/

theorem Functions.entry_error {id : EntryId} (h : t.entry id = .error e) : e.kind = .internal := by
  unfold entry at h
  split at h
  · cases h
  · cases h
    rfl

theorem Functions.find_error (h : t.find p = .error e) : e.kind = .redeclaration := by
  unfold find at h
  split at h
  · cases h
  · split at h
    · cases h
      rfl
    · split at h
      · cases h
        rfl
      · cases h

/-- The candidates are only ranked if there are any. -/
theorem Functions.resolve_error {options : Options} {args : List TypeId}
    (h : t.resolve types options name args span = .error e) : e.kind = .resolution := by
  -- No function of the name, none that takes the arguments, or several that do.
  unfold resolve at h
  split at h
  · cases h
    rfl
  · split at h
    · cases h
      rfl
    · rename_i hne
      unfold best at h
      rw [if_neg (by simpa using hne)] at h
      split at h
      · cases h
      · cases h
        rfl

/-! ## Prototypes -/

namespace Prototype

theorem ofDecl_error {decl : PrototypeDecl} (h : ofDecl types decl = .error e) :
    e.kind = .type := by
  unfold ofDecl at h
  cases hret : types.resolveName decl.ret.name decl.ret.span with
  | error e' =>
    rw [hret] at h
    cases h
    exact TypeTable.resolveName_error hret
  | ok ret =>
    rw [hret] at h
    -- The result type has been found, so it is one of the parameters.
    generalize hparams : (decl.args.mapM fun arg => do
      let ty ← types.resolveName arg.ty.name arg.ty.span
      pure (⟨arg.name.name, ty, arg.span⟩ : Param) : Except Fault (List Param)) = r at h
    cases r with
    | ok params => cases h
    | error e' =>
      cases h
      obtain ⟨arg, -, harg⟩ := Except.mapM_error hparams
      cases hty : types.resolveName arg.ty.name arg.ty.span with
      | ok ty =>
        rw [hty] at harg
        cases harg
      | error e'' =>
        rw [hty] at harg
        cases harg
        exact TypeTable.resolveName_error hty

theorem shape_error (h : shape types id span = .error e) :
    ∃ e', types.representation id = .error e' ∧ e = e'.locate span := by
  unfold shape at h
  cases hr : types.representation id with
  | ok t =>
    rw [hr] at h
    cases h
  | error e' =>
    rw [hr] at h
    cases h
    exact ⟨e', rfl, rfl⟩

theorem shape_error_kind (h : shape types id span = .error e) : e.kind = .internal := by
  obtain ⟨e', he', rfl⟩ := shape_error h
  rw [Fault.kind_locate]
  exact TypeTable.representation_error he'

/-- A symbol cannot be made if a parameter type has no token. -/
theorem mangledName_error (h : p.mangledName types = .error e) :
    e.kind = .internal ∧ ∃ param ∈ p.params, types.tokenOf? param.ty = none := by
  unfold mangledName at h
  rcases Except.bind_eq_error h with htokens | ⟨tokens, h⟩
  · obtain ⟨param, hmem, hparam⟩ := Except.mapM_error htokens
    split at hparam
    · cases hparam
    · rename_i hnone
      cases hparam
      exact ⟨rfl, param, hmem, hnone⟩
  · cases h

theorem irName_error (h : p.irName types = .error e) :
    e.kind = .internal ∧ ∃ param ∈ p.params, types.tokenOf? param.ty = none := by
  unfold irName at h
  split at h
  · cases h
  · exact mangledName_error h

/-- A signature cannot be made if a type has no shape, or if a parameter has
    none of the types that values have. -/
theorem irSignature_error (h : p.irSignature types = .error e) :
    e.kind = .type ∨
      ∃ id span, (id = p.ret ∨ id ∈ p.paramTypes) ∧ shape types id span = .error e := by
  unfold irSignature at h
  -- A parameter without a value is a fault of its own; the rest are shapes.
  generalize hparams : (p.params.mapM fun param =>
    if param.ty = Builtin.void.id then
      .error ((Cause.invalidOperation
        s!"argument '{param.name}' cannot have type 'void'").atSpan param.span)
    else shape types param.ty param.span : Except Fault (List IR.Ty)) = r at h
  cases r with
  | error e' =>
    cases h
    obtain ⟨param, hmem, hparam⟩ := Except.mapM_error hparams
    split at hparam
    · cases hparam
      exact .inl rfl
    · exact .inr ⟨_, _, .inr (List.mem_map_of_mem hmem), hparam⟩
  | ok params =>
    cases hret : shape types p.ret p.span with
    | error e' =>
      rw [hret] at h
      cases h
      exact .inr ⟨_, _, .inl rfl, hret⟩
    | ok ret =>
      rw [hret] at h
      cases h

end Prototype

end Shading
