import Shading.Proofs.Ownership

/-! # The lifetimes of distributions

    Every expression and every statement keeps the ledger of distributions.
    Behind an expression, its result is in hand: it owns a distribution, or a
    variable that it was read from still holds it.  A variable may lose its
    distribution while a result that was read from it is still in hand, if a
    later operand assigns to it; a program is ordered if that does not happen
    (`FunctionDecl.ordered`).  Main result: code of an expression keeps the
    ledger, and where the program is ordered, nothing is used after it was
    destroyed (`Expr.Compiles.evaluated`). -/

namespace Shading

open IR

variable {v : Value} {l l' l₁ l₂ l₃ l₄ : Lines} {slot : Slot} {z : ExprValue}

/-! ## Ordered programs -/

mutual

/-- The variables that an expression assigns to. -/
def Expr.assigned : Expr → List String
  | .literal .. | .var _ => []
  | .unary _ e _ => e.assigned
  | .binary _ a b _ => a.assigned ++ b.assigned
  | .assign x e _ => x.name :: e.assigned
  | .call _ args _ | .construct _ args _ => Expr.assignedAll args

def Expr.assignedAll : List Expr → List String
  | [] => []
  | e :: es => e.assigned ++ Expr.assignedAll es

end

/-- The variable whose value an expression hands on. -/
def Expr.place? : Expr → Option String
  | .var x | .assign x .. => some x.name
  | _ => none

/-- Is the result still there when other operands have assigned to variables?
    Only the variables with the given names matter. -/
def Expr.outlasts (names : List String) (e : Expr) (assigned : List String) : Bool :=
  e.place?.all fun x => !(names.contains x && assigned.contains x)

mutual

/-- Does no operand assign to a variable that an operand before it hands on? -/
def Expr.ordered (names : List String) : Expr → Bool
  | .literal .. | .var _ => true
  | .unary _ e _ | .assign _ e _ => e.ordered names
  -- The left operand of `&&` or `||` is done with before the right one.
  | .binary op a b _ =>
    a.ordered names && b.ordered names && (op.isLogical || a.outlasts names b.assigned)
  | .call _ args _ | .construct _ args _ => Expr.orderedAll names args

def Expr.orderedAll (names : List String) : List Expr → Bool
  | [] => true
  | e :: es =>
    e.ordered names && Expr.orderedAll names es && e.outlasts names (Expr.assignedAll es)

end

/-- The names of distributions behind a statement, given those in front of it.
    A declaration hides the variables of its name in the scopes around it. -/
def Stmt.distributions (names : List String) : Stmt → List String
  | .decl ty x _ _ =>
    if ty.name = Builtin.dfunc.name then x.name :: names else names.filter (· ≠ x.name)
  | _ => names

mutual

/-- What a statement declares inside of itself is forgotten behind it. -/
def Stmt.ordered (names : List String) : Stmt → Bool
  | .expr e _ => e.ordered names
  | .decl _ _ init _ => init.all (·.ordered names)
  | .ret value _ => value.all (·.ordered names)
  | .breakLoop _ | .continueLoop _ => true
  | .block stmts _ => Stmt.orderedAll names stmts
  | .ifThen c t _ => c.ordered names && t.ordered names
  | .ifThenElse c t e _ => c.ordered names && t.ordered names && e.ordered names
  | .loop c b _ => c.ordered names && b.ordered names

def Stmt.orderedAll (names : List String) : List Stmt → Bool
  | [] => true
  | s :: rest => s.ordered names && Stmt.orderedAll (s.distributions names) rest

end

namespace FunctionDecl

/-- The arguments of a function that are distributions. -/
def distributions (decl : FunctionDecl) : List String :=
  (decl.prototype.args.filter (·.ty.name == Builtin.dfunc.name)).map (·.name.name)

/-- Does no operand assign to a distribution that an operand before it hands
    on?  What a name stands for is decided by the scopes. -/
def ordered (decl : FunctionDecl) : Bool := Stmt.orderedAll decl.distributions decl.body

end FunctionDecl

/-! ## Expressions -/

theorem Scopes.name_of_lookup? {scopes : Scopes} {x : String} (h : scopes.lookup? x = some slot) :
    slot.name = x := by
  rw [lookup?_eq] at h
  obtain ⟨scope, -, hfind⟩ := List.exists_of_findSome?_eq_some h
  unfold findIn at hfind
  have hname := List.find?_some hfind
  exact beq_iff_eq.1 hname

/-- Arguments are only lent to the function of an entry. -/
def Entry.Borrows (e : Entry) (m : Module) : Prop :=
  ∃ name sig, m.Declares e.func name sig ∧ name ≠ Distribution.destroySymbol ∧
    e.prototype.Shaped sig

/-- A name that stands for a distribution is one of the names. -/
def Named (names : List String) (stack : List (List Slot)) : Prop :=
  ∀ x slot, (Scopes.of stack).lookup? x = some slot → slot.ty = Builtin.dfunc.id → x ∈ names

/-- A new scope hides nothing. -/
theorem Named.push {names : List String} {stack : List (List Slot)} (h : Named names stack) :
    Named names ([] :: stack) := by
  intro x slot hslot hdf
  rw [Scopes.lookup?_cons] at hslot
  exact h x slot hslot hdf

/-- A name stands for the variable that was declared last. -/
theorem Scopes.lookup?_declared {top : List Slot} {outer : List (List Slot)} (x : String) :
    (Scopes.of ((slot :: top) :: outer)).lookup? x =
      if slot.name = x then some slot else (Scopes.of (top :: outer)).lookup? x := by
  rw [lookup?_cons, lookup?_cons, findIn, List.find?_cons]
  by_cases hx : slot.name = x
  · simp [hx]
  · rw [if_neg hx, beq_eq_false_iff_ne.2 hx]
    rfl

open Tracking Host

/-- The result of an expression is in hand, and only variables that the
    expression assigns to have changed. -/
structure Expr.Evaluated (H : Host) (strict : Prop) (names : List String) (slots : List Slot)
    (bound : Nat) (pending : Multiset Handle) (e : Expr) (x : ExprValue) (s t : Tracking) : Prop
    extends Offers H strict slots pending bound x t where
  /-- What is not owned is what a variable with one of the names holds. -/
  lent : x.ty = Builtin.dfunc.id → x.owned = false → ∃ slot ∈ slots,
    slot.ty = Builtin.dfunc.id ∧ e.place? = some slot.name ∧ slot.name ∈ names ∧
      t.cell? slot.ptr = H.operand? t x.value
  frame : ∀ slot ∈ slots, slot.name ∉ e.assigned → t.cell? slot.ptr = s.cell? slot.ptr

/-- The results of several expressions are in hand. -/
structure Expr.EvaluatedAll (H : Host) (strict : Prop) (slots : List Slot) (bound : Nat)
    (pending : Multiset Handle) (es : List Expr) (xs : List ExprValue) (s t : Tracking) :
    Prop where
  carries : ∀ x ∈ xs, t.Carries bound x
  holds : t.Holds strict slots ((xs.map (H.owned t)).sum + pending)
  lent : strict → ∀ x ∈ xs, H.Lent slots t x
  frame : ∀ slot ∈ slots, slot.name ∉ Expr.assignedAll es →
    t.cell? slot.ptr = s.cell? slot.ptr

section

variable {H : Host} {strict : Prop} {slots : List Slot} {names : List String} {lo mid hi : Nat}
  {pending : Multiset Handle} {e : Expr} {x y : ExprValue} {s t u : Tracking}

/-- A result that is no distribution. -/
theorem Expr.Evaluated.plain (hty : x.ty ≠ Builtin.dfunc.id) (hs : t.Holds strict slots pending)
    (hframe : ∀ slot ∈ slots, slot.name ∉ e.assigned → t.cell? slot.ptr = s.cell? slot.ptr) :
    e.Evaluated H strict names slots hi pending x s t where
  toOffers := .plain hs hty
  lent h := absurd h hty
  frame := hframe

/-- A result that nobody else owns. -/
theorem Expr.Evaluated.of_brings {u : Tracking} (hown : x.owned = true)
    (hx : Brings H strict slots pending hi x t u)
    (hframe : ∀ slot ∈ slots, slot.name ∉ e.assigned → t.cell? slot.ptr = s.cell? slot.ptr) :
    e.Evaluated H strict names slots hi pending x s u where
  toOffers := hx.toOffers
  lent _ h := by
    rw [hown] at h
    cases h
  frame slot hslot hfree := by
    rw [hx.cells]
    exact hframe slot hslot hfree

theorem Expr.Evaluated.toLent (h : e.Evaluated H strict names slots hi pending x s t) :
    H.Lent slots t x := by
  intro hty hown
  obtain ⟨slot, hslot, hdf, -, -, hcell⟩ := h.lent hty hown
  exact ⟨slot, hslot, hdf, hcell⟩

/-- A result outlasts operands that do not assign to its variable. -/
theorem Expr.Evaluated.outlasts {assigned : List String}
    (h : e.Evaluated H strict names slots mid pending x s t)
    (hlasts : e.outlasts names assigned = true) (hkeeps : Keeps mid t u)
    (hframe : ∀ slot ∈ slots, slot.name ∉ assigned → u.cell? slot.ptr = t.cell? slot.ptr) :
    H.Lent slots u x := by
  intro hty hown
  obtain ⟨slot, hslot, hdf, hplace, hname, hcell⟩ := h.lent hty hown
  refine ⟨slot, hslot, hdf, ?_⟩
  have hfree : slot.name ∉ assigned := by
    unfold Expr.outlasts at hlasts
    rw [hplace] at hlasts
    simp only [Option.all_some, Bool.not_eq_true', Bool.and_eq_false_iff, List.contains_eq_mem,
      decide_eq_false_iff_not] at hlasts
    exact hlasts.resolve_left fun hno => hno hname
  rw [hframe slot hslot hfree, hcell, operand?_keep h.carries hkeeps hty]

theorem MaterializeLine.origin {id : InstId} (h : MaterializeLine H x v l)
    (hty : x.ty = Builtin.dfunc.id) (hv : v = .inst id) :
    x.value = .inst id ∨ ∃ callee args ty, (id, ⟨.call callee args, ty, none⟩) ∈ l := by
  cases h with
  | owned h => exact .inl hv
  | borrowed h hcopy =>
    cases hcopy with
    | same h => exact absurd hty h
    | copy h hcall =>
      obtain ⟨callee, j, -, rfl, rfl⟩ := hcall
      cases hv
      exact .inr ⟨callee, _, _, List.mem_singleton.2 rfl⟩

theorem CoerceLine.ne_dfunc {expected : TypeId} (h : CoerceLine H y expected z l)
    (hty : expected ≠ Builtin.dfunc.id) : y.ty ≠ Builtin.dfunc.id := by
  cases h with
  | same h => rwa [h]
  | toFloat hy _ _ =>
    rw [hy]
    exact fun h => by simpa using Builtin.id_eq_iff.1 h

/-- A result becomes the own value of its place. -/
theorem Runs.adopt {ty : TypeId} (hc : CoerceLine H y ty z l) (hm : MaterializeLine H z v l')
    (hin : Code.Within mid hi (.line (l ++ l')))
    (hy : e.Evaluated H strict names slots mid pending y s t) :
    Runs H mid t (l ++ l') (Brings H strict slots pending hi ⟨ty, v, true⟩ t) := by
  obtain ⟨hcrun, rfl, hzy⟩ := Runs.coerce (H := H) (Q := (t = ·)) mid hc rfl
  refine hcrun.append ?_
  rintro _ - rfl
  -- Only a distribution is copied, and only a distribution is a handle that someone owns.
  by_cases hty : z.ty = Builtin.dfunc.id
  · obtain rfl := hzy hty
    have halive : H.Alive strict t z := alive_of_lent hy.holds (Multiset.le_add_right ..)
      fun _ => hy.toLent
    exact Runs.materialize hm
      (fun q hq => hin.2 q.1 (List.mem_map_of_mem (List.mem_append_right _ hq))) hin.1 hy.carries
      halive hy.holds
  · obtain ⟨rfl, rfl⟩ := hm.of_ne hty
    have hheld := hy.holds
    rw [owned_of_ne (hc.ne_dfunc hty), zero_add] at hheld
    exact .nil (.plain hheld hty)

/-- The end of an assignment: the new value is made the variable's own, the
    old one is destroyed, and the new one is stored. -/
theorem Runs.assign {target : Ident} {value : Expr} {span : Span} (hlaid : Laid H mid slots)
    (hslot : slot ∈ slots) (hname : slot.name = target.name)
    (hnamed : slot.ty = Builtin.dfunc.id → slot.name ∈ names) (hc : CoerceLine H y slot.ty z l₁)
    (hm : MaterializeLine H z v l₂) (hd : DestroySlotLine H slot l₃)
    (hst : StoreLine H v slot.ptr l₄) (hin : Code.Within mid hi (.line ((l₁ ++ l₂) ++ (l₃ ++ l₄))))
    (hlisted : (Code.line ((l₁ ++ l₂) ++ (l₃ ++ l₄))).Listed H.body)
    (hvalue : value.Evaluated H strict names slots mid pending y s t) :
    Runs H mid t ((l₁ ++ l₂) ++ (l₃ ++ l₄))
      ((Expr.assign target value span).Evaluated H strict names slots hi pending
        ⟨slot.ty, v, false⟩ s) := by
  have hrange : ∀ q ∈ (l₁ ++ l₂) ++ (l₃ ++ l₄), mid ≤ q.1 ∧ q.1 < hi :=
    fun q hq => hin.2 q.1 (List.mem_map_of_mem hq)
  have hadopts : Code.Within mid hi (.line (l₁ ++ l₂)) := by
    refine ⟨hin.1, fun i hi => ?_⟩
    obtain ⟨q, hq, rfl⟩ := List.mem_map.1 hi
    exact hrange q (List.mem_append_left _ hq)
  have hends : ∀ q ∈ l₃, q ∈ (l₁ ++ l₂) ++ (l₃ ++ l₄) := fun q hq =>
    List.mem_append_right _ (List.mem_append_left _ hq)
  obtain ⟨a, _, hptr, -⟩ := hlaid.placed slot hslot
  obtain ⟨others, hperm, hothers⟩ := Holds.slots_split hslot hlaid.apart
  rw [hptr] at hst hothers
  refine (Runs.adopt hc hm hadopts hvalue).append fun u hkeeps hu => ?_
  refine (Runs.destroySlot hd (fun q hq => (hrange q (hends q hq)).1) hptr
    (hu.holds.perm hperm)).append ?_
  rintro w - ⟨hw, hcells, hregs⟩
  -- The register of the new value is not that of the load of the old one.
  have hkept : slot.ty = Builtin.dfunc.id → H.operand? w v = H.operand? u v := by
    intro hty
    obtain ⟨j, _, hv, -, -⟩ := hu.carries hty
    rw [show v = .inst j from hv]
    refine hregs j fun p ty hload => ?_
    have hload' := hends _ hload
    have hfloat : slot.ty ≠ Builtin.float.id := by
      rw [hty]
      exact fun h => by simpa using Builtin.id_eq_iff.1 h
    obtain ⟨hyty, rfl, rfl⟩ := hc.of_ne hfloat
    rcases hm.origin (hyty.trans hty) hv with hy | ⟨callee, args, ty', hcall⟩
    · obtain ⟨k, _, hk, hlt, -⟩ := hvalue.carries (hyty.trans hty)
      rw [hy] at hk
      cases hk
      exact Nat.lt_irrefl j (Nat.lt_of_lt_of_le hlt (hrange _ hload').1)
    · have h₁ := hlisted _ (List.mem_append_left _ (List.mem_append_right _ hcall))
      have h₂ := hlisted _ hload'
      rw [h₁] at h₂
      cases h₂
  have hoffers : Offers H strict others pending hi ⟨slot.ty, v, true⟩ w := by
    refine ⟨fun hty => ?_, ?_⟩
    · obtain ⟨j, h, hv, hj, hreg⟩ := hu.carries hty
      refine ⟨j, h, hv, hj, ?_⟩
      have hsame := hkept hty
      rw [show v = .inst j from hv] at hsame
      exact hsame.trans hreg
    · have howned : H.owned w ⟨slot.ty, v, true⟩ = H.owned u ⟨slot.ty, v, true⟩ := by
        by_cases hty : slot.ty = Builtin.dfunc.id
        · unfold owned
          rw [hkept hty]
        · rw [owned_of_ne hty, owned_of_ne hty]
      rw [howned]
      exact hw
  refine (Runs.store slot hst hptr hoffers hothers).mono ?_
  rintro _ - ⟨hstored, rfl⟩
  refine ⟨⟨hoffers.carries, ?_⟩, fun hty _ => ?_, fun other hother hfree => ?_⟩
  · rw [owned_of_borrowed rfl, zero_add]
    exact hstored.perm hperm.symm
  · refine ⟨slot, hslot, hty, congrArg some hname.symm, hnamed hty, ?_⟩
    rw [hptr, setCell_cell?_self]
    obtain ⟨j, _, hv, -, -⟩ := hoffers.carries hty
    rw [show v = .inst j from hv]
    rfl
  · rw [Expr.assigned, List.mem_cons, not_or] at hfree
    have hne : other ≠ slot := by
      rintro rfl
      exact hfree.1 hname
    have hmem := (List.mem_cons.1 (hperm.mem_iff.1 hother)).resolve_left hne
    rw [setCell_cell?_ne (hothers other hmem), hcells, hu.cells]
    exact hvalue.frame other hother hfree.2

end

section

variable {options : Options} {functions : Functions} {H : Host} {strict : Prop}

/-- A call: its arguments are converted, lent to the function and, where
    nobody keeps them, destroyed. -/
theorem Runs.calls {names : List String} {slots : List Slot} {mid hi : Nat}
    {pending : Multiset Handle} {f : Ident} {args : List Expr} {span : Span} {xs : List ExprValue}
    {chosen : Candidate} {entry : Entry} {vs : List Value} {s t : Tracking}
    (hfun : ∀ f ∈ functions.entries, f.Borrows H.module)
    (hchosen : functions.resolve .builtins options f.name (xs.map (·.ty)) span = .ok chosen)
    (hentry : functions.entry chosen.entry = .ok entry)
    (hconv : ConvertLines H xs chosen.conversions vs l₁) (hcall : CallLine H entry.func vs v l₂)
    (hrel : Each (ReleaseLine H) xs l₃) (hin : Code.Within mid hi (.line (l₁ ++ (l₂ ++ l₃))))
    (ht : Expr.EvaluatedAll H strict slots mid pending args xs s t) :
    Runs H mid t (l₁ ++ (l₂ ++ l₃))
      ((Expr.call f args span).Evaluated H strict names slots hi pending
        ⟨entry.prototype.ret, v, true⟩ s) := by
  obtain ⟨e, he, -, hcs⟩ := Functions.resolve_eq_ok hchosen
  obtain rfl : e = entry := Option.some.inj (he.symm.trans (Functions.entry_eq_ok.1 hentry))
  obtain ⟨name, sig, hd, hname, hshaped⟩ := hfun e (List.mem_of_getElem? he)
  obtain ⟨id, name', sig', hd', rfl, rfl⟩ := hcall
  obtain ⟨rfl, rfl⟩ := hd'.unique hd
  obtain ⟨hcrun, hused⟩ := Runs.converts (H := H) (Q := (t = ·)) options mid hconv rfl
  -- What the function gets are results that are in hand.
  have hlive : strict → ∀ h ∈ H.used t vs sig'.params, .destroyed h ∉ t.trace := by
    intro hstrict h hh
    obtain ⟨x, hx, hty, hop⟩ := hused hcs hshaped.params h hh
    exact alive_of_lent ht.holds (owned_le hx pending) (fun hs => ht.lent hs x hx) hstrict hty h hop
  have hret := TypeTable.representation_eq_distribution hshaped.ret
  have hrange : ∀ q ∈ [(id, (⟨.call e.func vs, sig'.ret, none⟩ : Inst))], mid ≤ q.1 ∧ q.1 < hi :=
    fun q hq => hin.2 q.1
      (List.mem_map_of_mem (List.mem_append_right _ (List.mem_append_left _ hq)))
  refine hcrun.append ?_
  rintro _ - rfl
  have hbrings : Runs H mid t [(id, ⟨.call e.func vs, sig'.ret, none⟩)]
      (Brings H strict slots ((xs.map (H.owned t)).sum + pending) hi
        ⟨e.prototype.ret, Build.callResult sig'.ret id, true⟩ t) := by
    by_cases hdf : sig'.ret = Distribution.ty
    · rw [hret.1 hdf]
      exact Runs.makes ⟨_, _, hd', rfl, rfl⟩ hname hdf hrange ht.holds hlive
    · have hexec := Interp.tracking_call hd' hname t id vs
      rw [if_neg hdf] at hexec
      have hne : e.prototype.ret ≠ Builtin.dfunc.id := fun h => hdf (hret.2 h)
      exact .one hexec (fun _ _ => rfl) ⟨.plain (ht.holds.note_used hlive) hne, note_cell? ..⟩
  refine hbrings.append fun u hkeeps hu => ?_
  exact (Runs.operate hrel ht.carries hkeeps hu).mono fun w _ hw => .of_brings rfl hw ht.frame

end

section

variable {options : Options} {functions : Functions} {H : Host} {strict : Prop}
  {names : List String} {stack : List (List Slot)} {P : List Event → Prop} {J : Tracking → Prop}

mutual

/-- The code of an expression brings its result. -/
theorem Expr.Compiles.evaluated {lo hi : Nat} {e : Expr} {T : Code} {x : ExprValue}
    (h : Expr.Compiles ⟨.builtins, options⟩ functions H (.of stack) lo e T x hi)
    (hfun : ∀ f ∈ functions.entries, f.Borrows H.module) (hlisted : T.Listed H.body)
    (hlaid : Laid H lo stack.flatten) (hnamed : Named names stack)
    (hord : strict → e.ordered names = true) {s : Tracking} {pending : Multiset Handle}
    (hs : s.Holds strict stack.flatten pending) :
    T.Yields H P s (e.Evaluated H strict names stack.flatten hi pending x s) J := by
  cases h with
  | @literal _ v span =>
    refine .line lo (.nil (.plain ?_ hs fun _ _ _ => rfl))
    cases v <;> exact fun h => by simpa using Builtin.id_eq_iff.1 h
  | @var _ _ x slot ty v l hslot hty hload hin =>
    have hmem : slot ∈ stack.flatten := by simpa using Scopes.mem_flatten_of_lookup? hslot
    have hname : slot.name = x.name := Scopes.name_of_lookup? hslot
    -- A load lends the handle in the cell: the register holds it and nothing more is owed.
    obtain ⟨a, _, hptr, -⟩ := hlaid.placed slot hmem
    obtain ⟨id, rfl, rfl, -⟩ := hload
    obtain ⟨hlo, hhi⟩ := hin.2 id List.mem_cons_self
    have hexec : (Interp.tracking H).exec id ⟨.load slot.ptr, ty, none⟩ s =
        some (s.setReg id (s.cells a)) := by
      rw [hptr]
      rfl
    refine .line lo (.one hexec (fun i hi =>
      setReg_ne (Nat.ne_of_lt (Nat.lt_of_lt_of_le hi hlo)) _ _)
      ⟨⟨fun hdf => ?_, ?_⟩, fun hdf _ => ?_, ?_⟩)
    · obtain ⟨h, hh⟩ := hs.filled slot hmem hdf
      rw [hptr] at hh
      exact ⟨id, h, rfl, hhi, (setReg_self ..).trans hh⟩
    · rw [owned_of_borrowed rfl, zero_add]
      exact hs.setReg id _
    · refine ⟨slot, hmem, hdf, congrArg some hname.symm, hname ▸ hnamed _ _ hslot hdf, ?_⟩
      rw [setReg_cell?, hptr]
      exact (setReg_self ..).symm
    · exact fun other _ _ => by rw [setReg_cell?]
  | @unary _ mid _ op e span T x r l l' he hop hx hin =>
    refine ((he.evaluated hfun hlisted.1 hlaid hnamed hord hs).seqLine mid fun t ht => ?_)
    have hrel : Each (ReleaseLine H) [x] (l' ++ []) := .cons hx .nil
    rw [List.append_nil] at hrel
    have hheld : t.Holds strict stack.flatten (([x].map (H.owned t)).sum + pending) := by
      simpa using ht.holds
    refine (Runs.unary hi hop hheld).append fun u hkeeps hu => ?_
    refine (Runs.operate hrel (by simpa using ht.carries) hkeeps hu).mono fun w _ hw => ?_
    exact .of_brings rfl hw ht.frame
  | @binary _ mid mid' _ op a b span Ta Tb x y r l lx ly hlog ha hb hop hx hy hin =>
    have hord' : strict → a.ordered names = true ∧ b.ordered names = true ∧
        a.outlasts names b.assigned = true := by
      intro hstrict
      have hall := hord hstrict
      simp only [Expr.ordered, Bool.and_eq_true, hlog, Bool.false_or] at hall
      exact ⟨hall.1.1, hall.1.2, hall.2⟩
    refine (ha.evaluated hfun hlisted.1 hlaid hnamed (fun h => (hord' h).1) hs).seq fun t ht => ?_
    refine Code.Yields.seqLine mid' ((hb.evaluated hfun hlisted.2.1
      (hlaid.weaken ha.within.1) hnamed (fun h => (hord' h).2.1) ht.holds).keeping hb.within) ?_
    rintro u ⟨hkeeps, hu⟩
    -- What `a` handed on is still there behind `b`, as `b` writes only registers from `mid` on.
    have hxu : u.Carries mid' x := ht.carries.keep hkeeps hb.within.1
    have hown : H.owned t x = H.owned u x := (owned_keep ht.carries hkeeps).symm
    have hheld : u.Holds strict stack.flatten (([x, y].map (H.owned u)).sum + pending) := by
      have hheld := hu.holds
      rw [hown, add_left_comm, ← add_assoc] at hheld
      simpa using hheld
    -- `b` may assign, and only the side condition keeps the handle that `a` lent alive.
    have hlentx : strict → H.Lent stack.flatten u x := fun h =>
      ht.outlasts (hord' h).2.2 hkeeps hu.frame
    have hrel : Each (ReleaseLine H) [x, y] (lx ++ (ly ++ [])) := .cons hx (.cons hy .nil)
    rw [List.append_nil] at hrel
    have hrange : ∀ q ∈ l, mid' ≤ q.1 ∧ q.1 < hi := fun q hq =>
      hin.2 q.1 (List.mem_map_of_mem (List.mem_append_left _ hq))
    refine (Runs.binary hop hrange (alive_of_lent hheld (owned_le (by simp) pending) hlentx)
      (alive_of_lent hheld (owned_le (by simp) pending) fun _ => hu.toLent) hheld).append
      fun w hkeeps' hw => ?_
    refine (Runs.operate hrel ?_ hkeeps' hw).mono fun w' _ hw' => .of_brings rfl hw' ?_
    · simp [hxu, hu.carries]
    · intro slot hslot hfree
      rw [Expr.assigned, List.mem_append, not_or] at hfree
      rw [hu.frame slot hslot hfree.2, ht.frame slot hslot hfree.1]
  | @logical _ m₁ m₂ m₃ _ op a b span Ta Tb x y id hlog ha hx h₁₂ hb hy hid hhi hty =>
    have hbool : ∀ {ty : TypeId}, ty = Builtin.bool.id → ty ≠ Builtin.dfunc.id := by
      rintro _ rfl h
      simpa using Builtin.id_eq_iff.1 h
    have hord' : strict → a.ordered names = true ∧ b.ordered names = true := by
      intro hstrict
      have hall := hord hstrict
      simp only [Expr.ordered, Bool.and_eq_true] at hall
      exact hall.1
    refine (ha.evaluated hfun hlisted.1 hlaid hnamed (fun h => (hord' h).1) hs).seq fun t ht => ?_
    -- A condition is no distribution, so neither operand adds to what is owed.
    have hheld := ht.holds
    rw [owned_of_ne (hbool hx), zero_add] at hheld
    refine Code.Yields.shortcut (hb.evaluated hfun hlisted.2 (hlaid.weaken (ha.within.1.trans h₁₂))
      hnamed (fun h => (hord' h).2) hheld) (fun u hu => ?_) ?_
    · have hheld' := hu.holds
      rw [owned_of_ne (hbool hy), zero_add] at hheld'
      refine .plain (hbool rfl) (hheld'.setReg id _) fun slot hslot hfree => ?_
      rw [Expr.assigned, List.mem_append, not_or] at hfree
      rw [setReg_cell?, hu.frame slot hslot hfree.2, ht.frame slot hslot hfree.1]
    · refine .plain (hbool rfl) (hheld.setReg id _) fun slot hslot hfree => ?_
      rw [Expr.assigned, List.mem_append, not_or] at hfree
      rw [setReg_cell?, ht.frame slot hslot hfree.1]
  | @assign _ mid _ x e span slot T y z v l₁ l₂ l₃ l₄ hslot he hc hm hd hst hin =>
    rw [← List.append_assoc] at hin hlisted ⊢
    refine (he.evaluated hfun hlisted.1 hlaid hnamed hord hs).seqLine mid fun t ht => ?_
    have hmem : slot ∈ stack.flatten := by simpa using Scopes.mem_flatten_of_lookup? hslot
    have hname : slot.name = x.name := Scopes.name_of_lookup? hslot
    exact Runs.assign (hlaid.weaken he.within.1) hmem hname
      (fun hdf => hname ▸ hnamed _ _ hslot hdf) hc hm hd hst hin hlisted.2 ht
  | @call _ mid _ f args span T xs chosen entry vs v l₁ l₂ l₃ hargs hchosen hentry hconv hcall hrel
      hin =>
    refine (hargs.evaluated hfun hlisted.1 hlaid hnamed hord hs).seqLine mid fun t ht => ?_
    exact Runs.calls hfun hchosen hentry hconv hcall hrel hin ht
  | @construct _ mid _ ty args span T xs r l l' hargs hc hrel hin =>
    refine (hargs.evaluated hfun hlisted.1 hlaid hnamed hord hs).seqLine mid fun t ht => ?_
    have hrange : ∀ q ∈ l, mid ≤ q.1 ∧ q.1 < hi := fun q hq =>
      hin.2 q.1 (List.mem_map_of_mem (List.mem_append_left _ hq))
    refine (Runs.construct hc hrange ht.holds).append fun u hkeeps hu => ?_
    exact (Runs.operate hrel ht.carries hkeeps hu).mono fun w _ hw => .of_brings rfl hw ht.frame

theorem Expr.CompilesAll.evaluated {lo hi : Nat} {es : List Expr} {T : Code} {xs : List ExprValue}
    (h : Expr.CompilesAll ⟨.builtins, options⟩ functions H (.of stack) lo es T xs hi)
    (hfun : ∀ f ∈ functions.entries, f.Borrows H.module) (hlisted : T.Listed H.body)
    (hlaid : Laid H lo stack.flatten) (hnamed : Named names stack)
    (hord : strict → Expr.orderedAll names es = true) {s : Tracking} {pending : Multiset Handle}
    (hs : s.Holds strict stack.flatten pending) :
    T.Yields H P s (Expr.EvaluatedAll H strict stack.flatten hi pending es xs s) J := by
  cases h with
  | nil =>
    refine .line lo (.nil ⟨by simp, ?_, by simp, fun _ _ _ => rfl⟩)
    simpa using hs
  | @cons _ mid _ e es T Ts x xs he hes =>
    have hord' : strict → e.ordered names = true ∧ Expr.orderedAll names es = true ∧
        e.outlasts names (Expr.assignedAll es) = true := by
      intro hstrict
      have hall := hord hstrict
      simp only [Expr.orderedAll, Bool.and_eq_true] at hall
      exact ⟨hall.1.1, hall.1.2, hall.2⟩
    refine (he.evaluated hfun hlisted.1 hlaid hnamed (fun h => (hord' h).1) hs).seq fun t ht => ?_
    refine ((hes.evaluated hfun hlisted.2 (hlaid.weaken he.within.1) hnamed
      (fun h => (hord' h).2.1) ht.holds).keeping hes.within).mono ?_ fun _ hJ => hJ
    rintro u ⟨hkeeps, hu⟩
    refine ⟨fun y hy => ?_, ?_, fun hstrict y hy => ?_, fun slot hslot hfree => ?_⟩
    · -- The first value has to outlast the others: its register is old, its handle not reassigned.
      rcases List.mem_cons.1 hy with rfl | hy
      · exact ht.carries.keep hkeeps hes.within.1
      · exact hu.carries y hy
    -- What the first value owns is the same before and after the others.
    · have hheld := hu.holds
      rw [← owned_keep (H := H) ht.carries hkeeps, add_left_comm, ← add_assoc] at hheld
      exact hheld
    · rcases List.mem_cons.1 hy with rfl | hy
      · exact ht.outlasts (hord' hstrict).2.2 hkeeps hu.frame
      · exact hu.lent hstrict y hy
    · rw [Expr.assignedAll, List.mem_append, not_or] at hfree
      rw [hu.frame slot hslot hfree.2, ht.frame slot hslot hfree.1]

end

end

end Shading
