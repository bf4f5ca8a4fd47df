import Shading.Lower.Unit
import Shading.Proofs.TwinStatements

/-! # Allowing implicit conversions

    If integers may stand for floats, calls have more candidates and places
    accept more values.  A program that does without conversions is not
    affected: candidates that need none are the cheapest ones, so a call
    selects the same function, and no other place of a program converts what
    it accepts as it is (`implicit_conversions_conservative`). -/

namespace Shading

open IR

variable {types : TypeTable} {u : UnreachablePolicy}

/-! ## Candidates -/

namespace Conversion

/-- Without conversions, only the type itself will do. -/
theorem find?_strict (source target : TypeId) :
    find? source target ⟨u, false⟩ = if source = target then some identity else none := by
  unfold find?
  simp

/-- What differs is not converted for nothing. -/
theorem cost_of_ne {source target : TypeId} (hne : source ≠ target) {c : Conversion}
    (h : find? source target ⟨u, true⟩ = some c) : c = intToFloat := by
  unfold find? at h
  rw [if_neg hne] at h
  obtain ⟨-, hc⟩ := Option.ite_none_right_eq_some.1 h
  exact (Option.some.inj hc).symm

/-- The conversions that cost nothing are those without options. -/
theorem mapM_find?_free (l : List (TypeId × TypeId)) :
    (l.mapM fun p => find? p.2 p.1 ⟨u, true⟩).filter (totalCost · == 0) =
      l.mapM fun p => find? p.2 p.1 ⟨u, false⟩ := by
  induction l with
  | nil => rfl
  | cons p rest ih =>
    rw [List.mapM_cons, List.mapM_cons, ← ih, find?_strict]
    generalize (rest.mapM fun q => find? q.2 q.1 ⟨u, true⟩) = tail
    -- Only the identity is free, so one other conversion already makes the total positive.
    by_cases hsame : p.2 = p.1
    · rw [if_pos hsame, show find? p.2 p.1 ⟨u, true⟩ = some identity from if_pos hsame]
      cases tail with
      | none => rfl
      | some cs =>
        by_cases hfree : totalCost cs = 0
        · simp [hfree, totalCost, cost, Option.filter]
        · simp [hfree, totalCost, cost, Option.filter]
    · rw [if_neg hsame]
      cases hfind : find? p.2 p.1 ⟨u, true⟩ with
      | none => rfl
      | some c =>
        rw [cost_of_ne hsame hfind]
        cases tail <;> simp [totalCost, cost, Option.filter]

end Conversion

namespace Functions

/-- Candidates that cost nothing are those without conversions. -/
theorem candidate?_free (args : List TypeId) (e : Entry) (id : EntryId) :
    (candidate? ⟨u, true⟩ args e id).filter (·.cost == 0) = candidate? ⟨u, false⟩ args e id := by
  unfold candidate?
  by_cases hlength : e.prototype.params.length = args.length
  · rw [if_pos hlength, if_pos hlength, ← Conversion.mapM_find?_free]
    cases (e.prototype.paramTypes.zip args).mapM fun p => Conversion.find? p.2 p.1 ⟨u, true⟩ with
    | none => rfl
    | some cs => by_cases hfree : Conversion.totalCost cs = 0 <;> simp [hfree, Option.filter]
  · rw [if_neg hlength, if_neg hlength]
    rfl

theorem viable_free (t : Functions) (name : String) (args : List TypeId) :
    (t.viable ⟨u, true⟩ name args).filter (·.cost == 0) = t.viable ⟨u, false⟩ name args := by
  unfold viable
  rw [List.filter_filterMap]
  simp only [candidate?_free]

theorem cost_of_viable {t : Functions} {name : String} {args : List TypeId} {c : Candidate}
    (h : c ∈ t.viable ⟨u, false⟩ name args) : c.cost = 0 := by
  rw [← viable_free, List.mem_filter] at h
  exact beq_iff_eq.1 h.2

/-- Where something costs nothing, only that counts. -/
theorem cheapest_free {l : List Candidate} {c : Candidate} (hc : c ∈ l) (hcost : c.cost = 0) :
    cheapest l = cheapest (l.filter (·.cost == 0)) := by
  have hmin : ∀ {l' : List Candidate}, c ∈ l' → (l'.map (·.cost)).min? = some 0 := by
    intro l' hmem
    rw [List.min?_eq_some_iff]
    exact ⟨List.mem_map.2 ⟨c, hmem, hcost⟩, fun n _ => Nat.zero_le n⟩
  have hfree : c ∈ l.filter (·.cost == 0) := List.mem_filter.2 ⟨hc, beq_iff_eq.2 hcost⟩
  unfold cheapest
  rw [hmin hc, hmin hfree]
  simp only [List.filter_filter, Bool.and_self]

/-- A call that needs no conversion selects the same function if conversions
    are allowed. -/
theorem resolve_implicit {t : Functions} {name : String} {args : List TypeId} {span : Span}
    {c : Candidate} (h : t.resolve types ⟨u, false⟩ name args span = .ok c) :
    t.resolve types ⟨u, true⟩ name args span = .ok c := by
  unfold resolve at *
  by_cases hknown : (!t.contains name) = true
  · rw [if_pos hknown] at h
    cases h
  rw [if_neg hknown] at h ⊢
  cases hstrict : t.viable ⟨u, false⟩ name args with
  | nil =>
    rw [hstrict] at h
    cases h
  | cons d ds =>
    -- A candidate without conversions costs nothing and is the cheapest in the larger set too.
    have hd : d ∈ t.viable ⟨u, false⟩ name args := hstrict ▸ List.mem_cons_self
    have hmem : d ∈ t.viable ⟨u, true⟩ name args :=
      (List.mem_filter.1 (by rw [viable_free]; exact hd)).1
    have hcheapest : cheapest (t.viable ⟨u, true⟩ name args) = cheapest (d :: ds) := by
      rw [cheapest_free hmem (cost_of_viable hd), viable_free, hstrict]
    rw [hstrict] at h
    cases himplicit : t.viable ⟨u, true⟩ name args with
    | nil =>
      rw [himplicit] at hmem
      cases hmem
    | cons d' ds' =>
      rw [himplicit] at hcheapest
      show t.best types (d' :: ds') span = .ok c
      unfold best at h ⊢
      rw [hcheapest]
      exact h

end Functions

/-! ## Definitions -/

/-- An expression that does without conversions is not affected by them. -/
theorem Expr.Pairing.of_strict (types : TypeTable) (u : UnreachablePolicy) (s : Symbols) :
    Expr.Pairing types ⟨u, false⟩ ⟨u, true⟩ (.follow Builder Fault) Eq s s where
  toPairing := .of_eq types Act.Bond.follow_plain fun _ _ => Iff.rfl
  scopes := rfl
  coerce x ty span what := by
    unfold Lower.coerce
    rw [Conversion.find?_strict]
    -- Where nothing has to be converted, both options emit the same code.
    by_cases hsame : x.ty = ty
    · rw [if_pos hsame, show Conversion.find? x.ty ty ⟨u, true⟩ = some .identity from if_pos hsame]
      exact .pure rfl
    · rw [if_neg hsame]
      exact .throw_any trivial Act.Bond.follow_plain _ _
  call callee span args args' hargs := by
    refine .bind hargs fun xs => ?_
    cases hresolve : s.functions.resolve types ⟨u, false⟩ callee.name (xs.map (·.ty)) span with
    | error e => exact .throw_any trivial Act.Bond.follow_plain _ _
    | ok chosen =>
      rw [Functions.resolve_implicit hresolve]
      exact .refl Act.Bond.follow_plain (fun _ _ => Iff.rfl) _

theorem Lower.Pairing.of_strict (types : TypeTable) (u : UnreachablePolicy) :
    Lower.Pairing types ⟨u, false⟩ ⟨u, true⟩ (.follow Work Fault) (.follow Builder Fault) Eq Eq where
  builds := .of_eq types Act.Bond.follow_plain fun _ _ => Iff.rfl
  exprs h := h ▸ .of_strict types u _
  control h := h ▸ rfl
  emit hx := hx.onPart (fun _ _ h => h ▸ rfl) (fun _ _ _ _ h hb => h ▸ hb ▸ rfl)
    Act.Bond.follow_plain id fun _ _ _ _ h => h
  symbols h := h ▸ rfl
  isTerminated h := h ▸ rfl
  locally h _ _ := h ▸ rfl
  aheadLocally h := h.elim
  total := .inr Act.Bond.follow_plain
  dropUnreachable _ := .refl Act.Bond.follow_plain (fun _ _ => Iff.rfl) _

/-- A function that compiles without implicit conversions also compiles if
    they are allowed: it is the same function of the module, and the module,
    the declared functions and the warnings are the same. -/
theorem implicit_conversions_conservative {decl : FunctionDecl} {w w' : Work} {func : FuncId}
    (hrun : (Lower.function ⟨types, ⟨u, false⟩⟩ decl).run w = (.ok func, w')) :
    (Lower.function ⟨types, ⟨u, true⟩⟩ decl).run w = (.ok func, w') := by
  rw [Lower.function_eq_begin] at hrun ⊢
  obtain ⟨q, t, hbegin, hattach⟩ := Act.run_bind_eq_ok.1 hrun
  rw [Act.run_bind_eq_ok]
  refine ⟨q, t, hbegin, ?_⟩
  have hbody := ((Lower.Pairing.of_strict types u).frameBody (f := q.2.2) rfl q.1 decl).outcome t t rfl
  rcases hstrict : (Lower.frameBody ⟨types, ⟨u, false⟩⟩ q.1 q.2.2 decl).run t with ⟨r, t'⟩
  rcases hfree : (Lower.frameBody ⟨types, ⟨u, true⟩⟩ q.1 q.2.2 decl).run t with ⟨r', t''⟩
  rw [hstrict, hfree] at hbody
  cases r with
  | ok _ =>
    cases hbody with
    | answered _ hsame =>
      obtain rfl : t' = t'' := hsame
      rw [Lower.attach_run_ok hstrict] at hattach
      rw [Lower.attach_run_ok hfree]
      exact hattach
    | ahead h => exact h.elim
  | error fault =>
    -- A function whose body was refused is refused.
    rw [Lower.attach_run_error hstrict] at hattach
    have hrefused : (Lower.dropBody q.2.1 q.2.2 fault).Meets t' (fun _ _ => False) fun _ _ => True :=
      Lower.dropBody_meets (fun _ _ => trivial) fun _ _ _ _ => trivial
    exact (hrefused.of_ok hattach).elim

/-- Two functions of one name, for integers and for floats. -/
def pickers : List Item :=
  let name (s : String) : Ident := ⟨s, .unknown⟩
  let pick (ty : String) : Item := .prototype ⟨name "pick", none, ⟨ty, .unknown⟩,
    [⟨name "x", ⟨ty, .unknown⟩, .unknown⟩], .unknown⟩
  [pick "float", pick "int"]

/-- Calls the one for integers, which could be converted. -/
def pickInt : FunctionDecl :=
  let name (s : String) : Ident := ⟨s, .unknown⟩
  { prototype := ⟨name "f", none, ⟨"int", .unknown⟩, [⟨name "n", ⟨"int", .unknown⟩, .unknown⟩],
      .unknown⟩
    body := [.ret (some (.call (name "pick") [.var (name "n")] .unknown)) .unknown]
    bodySpan := .unknown }

theorem pickInt_conservative :
    ((Lower.function ⟨.builtins, ⟨.warn, false⟩⟩ pickInt).run
      (compileUnit .default pickers (.empty "scene") .empty).work).1 = .ok 2 ∧
    ∃ w, (Lower.function ⟨.builtins, ⟨.warn, false⟩⟩ pickInt).run
        (compileUnit .default pickers (.empty "scene") .empty).work = (.ok 2, w) ∧
      (Lower.function ⟨.builtins, ⟨.warn, true⟩⟩ pickInt).run
        (compileUnit .default pickers (.empty "scene") .empty).work = (.ok 2, w) := by
  have hok : ((Lower.function ⟨.builtins, ⟨.warn, false⟩⟩ pickInt).run
      (compileUnit .default pickers (.empty "scene") .empty).work).1 = .ok 2 := by decide +kernel
  have hrun := Act.run_eq_of_fst hok
  exact ⟨hok, _, hrun, implicit_conversions_conservative hrun⟩

end Shading
