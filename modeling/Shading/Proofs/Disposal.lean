import Shading.Proofs.Lifetimes
import Shading.Proofs.ProgramFaults

/-! # The end of every distribution

    A scope destroys its variables when control leaves it, on whatever way,
    and a `return` destroys all variables there are.  So at every point of a
    body the distributions that are owed are those of the variables in scope
    (`Stmt.Compiles.accounts`), and where a function returns, nothing but its
    result is owed. -/

namespace Shading

open IR

variable {bound depth hi index lo mid : Nat} {s : Tracking} {C T T' : Code} {l : Lines}
    {slots top top' : List Slot} {J : Tracking → Prop} {P : List Event → Prop}
    {outer stack : List (List Slot)} {f : Function} {v : Value} {x z : ExprValue}

/-! ## Scopes -/

/-- The scopes that are still open after a jump. -/
def Scopes.kept (outer : List (List Slot)) (loop : Option Nat) : List (List Slot) :=
  outer.drop (outer.length + 1 - loop.getD 0)

/-- A jump leaves the scopes inside a loop. -/
theorem Scopes.kept_cons {loop : Option Nat} (top : List Slot)
    (hloop : loop.getD 0 ≤ outer.length + 1) : kept (top :: outer) loop = kept outer loop := by
  unfold kept
  rw [List.length_cons, Nat.sub_add_comm hloop, List.drop_succ_cons]

theorem Scopes.kept_loop (outer : List (List Slot)) :
    kept outer (some (outer.length + 1)) = outer := by
  unfold kept
  rw [Option.getD_some, Nat.sub_self, List.drop_zero]

/-- Only `dfunc` names the type of distributions. -/
theorem TypeTable.name_of_resolveName {name : String} {span : Span} {b : Builtin}
    (h : builtins.resolveName name span = .ok b.id) : name = b.name := by
  unfold resolveName at h
  split at h
  · rename_i id hid
    cases h
    obtain ⟨d, hd, hname⟩ := Holds.builtins.lookup?_eq_some_iff.1 hid
    obtain ⟨b', hb', rfl⟩ := builtins_get?_eq_some.1 hd
    obtain rfl := Builtin.id_eq_iff.1 hb'
    exact hname.symm
  · cases h

section

variable {options : Options} {functions : Functions} {H : Host} {ret : TypeId}
  {names : List String}

/-- A name stands for a distribution behind a declaration if it did before and
    is not hidden, or if the declaration is of one. -/
theorem Stmt.Compiles.named {loop : Option Nat} {st : Stmt}
    (h : Stmt.Compiles ⟨.builtins, options⟩ functions H ret 1 loop outer lo top st T top' hi)
    (hnamed : Named names (top :: outer)) : Named (st.distributions names) (top' :: outer) := by
  cases h with
  | @decl _ _ _ _ mid _ ty name init span id shape T v a l hty hvoid hshape hfree hinit ha hs hin =>
    intro x slot hslot hdf
    rw [Scopes.lookup?_declared] at hslot
    rw [Stmt.distributions]
    by_cases hx : name.name = x
    · -- the name stands for the new variable, which is a distribution only as a `dfunc`
      rw [if_pos hx, Option.some.injEq] at hslot
      subst hslot
      subst hdf
      rw [if_pos (TypeTable.name_of_resolveName hty), ← hx]
      exact List.mem_cons_self
    · rw [if_neg hx] at hslot
      have hold := hnamed x slot hslot hdf
      split
      · exact List.mem_cons_of_mem _ hold
      · exact List.mem_filter.2 ⟨hold, by simpa using Ne.symm hx⟩
  | expr => exact hnamed
  | ret => exact hnamed
  | jump hj =>
    cases st with
    | breakLoop | continueLoop => exact hnamed
    | _ => cases hj
  | block => exact hnamed
  | ifThen => exact hnamed
  | ifThenElse => exact hnamed
  | loop => exact hnamed

theorem Arguments.named {params : List Param}
    (h : Arguments .builtins H depth lo index top params l top' hi)
    (hnames : ∀ p ∈ params, p.ty = Builtin.dfunc.id → p.name ∈ names) (hnamed : Named names [top]) :
    Named names [top'] := by
  induction h with
  | nil => exact hnamed
  | cons hshape hfree ha hcopy hs hin rest ih =>
    refine ih (fun p hp => hnames p (List.mem_cons_of_mem _ hp)) fun x slot hslot hdf => ?_
    rw [Scopes.lookup?_declared] at hslot
    split at hslot
    · rename_i hx
      cases hslot
      exact hx ▸ hnames _ List.mem_cons_self hdf
    · exact hnamed x slot hslot hdf

end

theorem Laid.fresh {H : Host} {shape : Ty} {a : InstId} (h : Laid H lo slots)
    (ha : FreshSlot H lo hi shape a) : ∀ other ∈ slots, other.ptr ≠ .inst a := by
  intro other hother heq
  obtain ⟨b, _, hb, hlt, -⟩ := h.placed other hother
  rw [hb] at heq
  cases heq
  exact Nat.lt_irrefl a (Nat.lt_of_lt_of_le hlt ha.above)

/-! ## Results are no arguments -/

theorem Computes.argument?_eq_none {given out : List Value} (h : Computes given l out)
    (hgiven : ∀ v ∈ given, v.argument? = none) : ∀ v ∈ out, v.argument? = none := by
  induction h with
  | nil h => exact fun v hv => hgiven v (h v hv)
  | cons hpure hops rest ih =>
    refine ih fun v hv => ?_
    rcases List.mem_cons.1 hv with rfl | hv
    · rfl
    · exact hgiven v hv

theorem IR.Build.callResult_argument? (ty : Ty) (id : InstId) :
    (callResult ty id).argument? = none := by
  unfold callResult
  split <;> rfl

section

variable {options : Options} {functions : Functions} {H : Host} {scopes : Scopes}

theorem MaterializeLine.argument? (h : MaterializeLine H x v l) (hx : x.value.argument? = none) :
    v.argument? = none := by
  cases h with
  | owned h => exact hx
  | borrowed h hcopy =>
    cases hcopy with
    | same h => exact hx
    | copy h hcall =>
      obtain ⟨callee, id, -, rfl, -⟩ := hcall
      exact Build.callResult_argument? ..

theorem CoerceLine.argument? {expected : TypeId} (h : CoerceLine H x expected z l)
    (hx : x.value.argument? = none) : z.value.argument? = none := by
  cases h with
  | same h => exact hx
  | toFloat hx he hone =>
    obtain ⟨id, rfl, -⟩ := hone
    rfl

mutual

/-- Arguments are read from the slots that they were copied into. -/
theorem Expr.Compiles.argument? {lo hi : Nat} {e : Expr} {T : Code} {x : ExprValue}
    (h : Expr.Compiles ⟨.builtins, options⟩ functions H scopes lo e T x hi) :
    x.value.argument? = none := by
  -- Arguments are read from their slots, so the value is a constant or a register.
  cases h with
  | @literal _ v _ => cases v <;> rfl
  | var hslot hty hload hin =>
    obtain ⟨id, rfl, -⟩ := hload
    rfl
  | unary he hop hx hin =>
    cases hop with
    | negInt _ _ _ hone =>
      obtain ⟨id, rfl, -⟩ := hone
      rfl
    | notBool _ _ hone =>
      obtain ⟨id, rfl, -⟩ := hone
      rfl
    | computed _ _ _ hc =>
      refine hc.argument?_eq_none (fun v hv => ?_) _ (List.mem_singleton.2 rfl)
      rw [List.mem_singleton.1 hv]
      exact he.argument?
  | binary hlog ha hb hop hx hy hin =>
    cases hop with
    | intArith _ _ _ _ hone =>
      obtain ⟨id, rfl, -⟩ := hone
      rfl
    | intCompare _ _ _ hcmp =>
      obtain ⟨ty, -, id, rfl, -⟩ := hcmp
      rfl
    | boolCompare _ _ _ _ hcmp =>
      obtain ⟨ty, -, id, rfl, -⟩ := hcmp
      rfl
    | computed _ _ hv _ =>
      obtain ⟨id, hid⟩ := hv
      rw [ExprValue.ofTyped, hid]
      rfl
    | sum _ _ hcall =>
      obtain ⟨callee, id, -, rfl, -⟩ := hcall
      rfl
    | scaled _ _ _ _ hcall =>
      obtain ⟨callee, id, -, rfl, -⟩ := hcall
      rfl
  | logical => rfl
  | assign hslot he hc hm hd hs hin => exact hm.argument? (hc.argument? he.argument?)
  | call hargs hchosen hentry hconv hcall hrel hin =>
    obtain ⟨id, name, sig, -, rfl, -⟩ := hcall
    exact Build.callResult_argument? ..
  | construct hargs hc hrel hin =>
    cases hc with
    | computed _ _ hcomp =>
      refine hcomp.argument?_eq_none (fun v hv => ?_) _ (List.mem_singleton.2 rfl)
      rw [List.map_map] at hv
      obtain ⟨x, hx, rfl⟩ := List.mem_map.1 hv
      exact hargs.argument? x hx
    | create _ _ _ hcall =>
      obtain ⟨callee, id, -, rfl, -⟩ := hcall
      rfl

theorem Expr.CompilesAll.argument? {lo hi : Nat} {es : List Expr} {T : Code} {xs : List ExprValue}
    (h : Expr.CompilesAll ⟨.builtins, options⟩ functions H scopes lo es T xs hi) :
    ∀ x ∈ xs, x.value.argument? = none := by
  cases h with
  | nil => simp
  | cons he hes =>
    intro x hx
    rcases List.mem_cons.1 hx with rfl | hx
    · exact he.argument?
    · exact hes.argument? x hx

end

end

/-! ## Statements -/

open Tracking Host

section

variable {options : Options} {functions : Functions} {H : Host} {strict : Prop}
  {names : List String} {ret : TypeId}

/-- The scope behind a statement or a block destroys its variables. -/
theorem ScopeEnd.accounts (h : ScopeEnd H top mid T T' hi)
    (hlaid : Laid H mid (top ++ outer.flatten))
    (hT : T.Yields H P s (·.Holds strict (top ++ outer.flatten) 0) J) :
    T'.Yields H P s (·.Holds strict outer.flatten 0) J := by
  cases h with
  | ended h => exact hT.ended h
  | left h hd hin =>
    refine hT.seqLine mid fun t ht => Runs.destroySlots hd ?_ (fun slot hslot => ?_) ht
    · exact fun q hq => (hin.2 q.1 (List.mem_map_of_mem hq)).1
    · obtain ⟨a, _, hptr, -⟩ := hlaid.placed slot (List.mem_append_left _ hslot)
      exact ⟨a, hptr⟩

theorem ScopeEnd.listed (h : ScopeEnd H top mid T T' hi) (hlisted : T'.Listed f) : T.Listed f := by
  cases h with
  | ended h => exact hlisted
  | left h hd hin => exact hlisted.1

/-- A condition leaves nothing behind. -/
theorem Expr.Compiles.accounts {e : Expr}
    (h : Expr.Compiles ⟨.builtins, options⟩ functions H (.of stack) lo e T x hi)
    (hx : x.ty = Builtin.bool.id) (hfun : ∀ f ∈ functions.entries, f.Borrows H.module)
    (hlisted : T.Listed H.body) (hlaid : Laid H lo stack.flatten) (hnamed : Named names stack)
    (hord : strict → e.ordered names = true) (hs : s.Holds strict stack.flatten 0) :
    T.Yields H P s (·.Holds strict stack.flatten 0) J := by
  refine (h.evaluated hfun hlisted hlaid hnamed hord hs).mono (fun t ht => ?_) fun _ hJ => hJ
  have hheld := ht.holds
  rw [owned_of_ne, zero_add] at hheld
  · exact hheld
  · rw [hx]
    exact fun h => by simpa using Builtin.id_eq_iff.1 h

theorem Stmt.Initial.accounts {ty : TypeId} {init : Option Expr}
    (h : Stmt.Initial ⟨.builtins, options⟩ functions H (.of stack) ty lo init T v hi)
    (hfun : ∀ f ∈ functions.entries, f.Borrows H.module) (hlisted : T.Listed H.body)
    (hlaid : Laid H lo stack.flatten) (hnamed : Named names stack)
    (hord : strict → init.all (·.ordered names) = true) (hs : s.Holds strict stack.flatten 0) :
    T.Yields H P s (Offers H strict stack.flatten 0 hi ⟨ty, v, true⟩) J := by
  cases h with
  | given he hc hm hin =>
    exact (he.evaluated hfun hlisted.1 hlaid hnamed hord hs).seqLine _ fun t ht =>
      (Runs.adopt hc hm hin ht).mono fun u _ hu => hu.toOffers
  | default hd hin =>
    refine .line lo ((Runs.default hd (fun q hq => ?_) hs).mono fun u _ hu => hu.toOffers)
    exact hin.2 q.1 (List.mem_map_of_mem hq)

/-- The value of a `return`, or nothing in its place. -/
theorem Stmt.Result.accounts {value : Option Expr} {v : Option Value}
    (h : Stmt.Result ⟨.builtins, options⟩ functions H ret (.of stack) lo value T v hi)
    (hfun : ∀ f ∈ functions.entries, f.Borrows H.module) (hlisted : T.Listed H.body)
    (hlaid : Laid H lo stack.flatten) (hnamed : Named names stack)
    (hord : strict → value.all (·.ordered names) = true) (hs : s.Holds strict stack.flatten 0) :
    T.Yields H P s (Offers H strict stack.flatten 0 hi ⟨ret, v.getD .void, true⟩) J ∧
      v.bind Value.argument? = Option.none := by
  -- A result that is returned is owned, so the caller gets it and nobody else.
  cases h with
  | none h =>
    refine ⟨.line hi (.nil (.plain hs ?_)), rfl⟩
    rw [h]
    exact fun h => by simpa using Builtin.id_eq_iff.1 h
  | some h he hc hm hin =>
    constructor
    · exact (he.evaluated hfun hlisted.1 hlaid hnamed hord hs).seqLine _ fun t ht =>
        (Runs.adopt hc hm hin ht).mono fun u _ hu => hu.toOffers
    · exact hm.argument? (hc.argument? he.argument?)

/-- Where a function returns, its result is all that it owes. -/
theorem IR.Tracking.Offers.accounted {v : Option Value}
    (hret : TypeTable.builtins.representation ret = .ok H.body.signature.ret)
    (hs : Offers H strict [] 0 bound ⟨ret, v.getD .void, true⟩ s)
    (harg : v.bind Value.argument? = none) :
    ∃ r, (Interp.tracking H).result v s = some r ∧ Accounted strict r := by
  have hshape := TypeTable.representation_eq_distribution hret
  have hheld := hs.holds
  -- A distribution is handed over as the result; any other result owns nothing.
  by_cases hdf : ret = Builtin.dfunc.id
  · obtain ⟨id, h, hv, -, hreg⟩ := hs.carries hdf
    obtain rfl : v = some (.inst id) := by
      cases v with
      | none => cases hv
      | some w => exact congrArg some hv
    have howned : H.owned s ⟨ret, .inst id, true⟩ = {h} := owned_of_some rfl hdf hreg
    rw [Option.getD_some, howned, add_zero] at hheld
    refine ⟨s.trace ++ [.returned h], ?_, hheld.accounted_returned⟩
    unfold Interp.tracking
    simp only [if_pos (hshape.2 hdf), Option.bind_some, Host.operand?, hreg, Option.map_some]
  · rw [owned_of_ne hdf, add_zero] at hheld
    refine ⟨s.trace, ?_, hheld.accounted⟩
    unfold Interp.tracking
    simp only [if_neg (fun h => hdf (hshape.1 h)), harg, Option.toList_none, List.map_nil,
      List.append_nil]

/-- Scopes that control leaves destroy their variables. -/
theorem IR.Tracking.Runs.leave {pending : Multiset Handle} (hlaid : Laid H mid stack.flatten)
    (hd : Each (DestroySlotLine H) (Scopes.liveFrom (.of stack) depth).reverse l)
    (hin : Code.Within mid hi (.line l)) (hs : s.Holds strict stack.flatten pending) :
    Runs H mid s l
      (·.Holds strict (stack.drop (stack.length + 1 - depth)).flatten pending) := by
  have hptrs : ∀ slot ∈ (Scopes.liveFrom (.of stack) depth).reverse, ∃ a, slot.ptr = .inst a := by
    intro slot hslot
    obtain ⟨a, _, hptr, -⟩ := hlaid.placed slot (Scopes.mem_flatten_of_mem_liveFrom hslot)
    exact ⟨a, hptr⟩
  refine Runs.destroySlots hd (fun q hq => (hin.2 q.1 (List.mem_map_of_mem hq)).1) hptrs ?_
  rw [Scopes.liveFrom_reverse, ← List.flatten_append, List.take_append_drop]
  exact hs

mutual

/-- Behind a statement, what is owed is what the variables in scope hold.  A
    jump has destroyed the variables that it leaves, and a `return` all of
    them. -/
theorem Stmt.Compiles.accounts {names : List String} {loop : Option Nat}
    {outer : List (List Slot)} {lo hi : Nat} {top top' : List Slot} {st : Stmt} {T : Code}
    (h : Stmt.Compiles ⟨.builtins, options⟩ functions H ret 1 loop outer lo top st T top' hi)
    (hfun : ∀ f ∈ functions.entries, f.Borrows H.module)
    (hret : TypeTable.builtins.representation ret = .ok H.body.signature.ret)
    (hlisted : T.Listed H.body) (hlaid : Laid H lo (top ++ outer.flatten))
    (hnamed : Named names (top :: outer))
    (hord : strict → st.ordered names = true) (hloop : loop.getD 0 ≤ outer.length + 1)
    {s : Tracking} (hs : s.Holds strict (top ++ outer.flatten) 0) :
    T.Yields H (Accounted strict) s (·.Holds strict (top' ++ outer.flatten) 0)
      (·.Holds strict (Scopes.kept outer loop).flatten 0) := by
  have hnest : loop.getD 0 ≤ (top :: outer).length + 1 := Nat.le_succ_of_le hloop
  have hkept := Scopes.kept_cons top hloop
  cases h with
  | @expr _ _ _ _ mid _ e span T x l he hx hin =>
    refine (he.evaluated hfun hlisted.1 hlaid hnamed hord hs).seqLine mid fun t ht => ?_
    exact (Runs.release hx ht.carries ht.holds).mono fun u _ hu => hu.1
  | @decl _ _ _ _ mid _ ty name init span id shape T v a l hty hvoid hshape hfree hinit ha hst hin =>
    refine (hinit.accounts hfun hlisted.1 hlaid hnamed hord hs).seqLine mid fun t ht => ?_
    have hfresh := (hlaid.weaken hinit.within.1).fresh ha
    exact (Runs.store ⟨name.name, id, .inst a, name.span, outer.length + 1⟩ hst rfl ht hfresh).mono
      fun u _ hu => hu.1
  | @ret _ _ _ _ mid _ value span T v l hv hd hin =>
    obtain ⟨hvalue, harg⟩ := hv.accounts hfun hlisted.1 hlaid hnamed hord hs
    refine hvalue.seq fun t ht => Code.Yields.seq (I := fun u => Offers H strict [] 0 mid
      ⟨ret, v.getD .void, true⟩ u) (.line mid ?_) fun u hu => ?_
    · refine (Runs.leave (hlaid.weaken hv.within.1) hd hin ht.holds).mono fun u hkeeps hu => ?_
      refine ⟨ht.carries.keep hkeeps (Nat.le_refl mid), ?_⟩
      rw [Nat.add_sub_cancel, List.drop_length] at hu
      rw [owned_keep ht.carries hkeeps]
      exact hu
    · obtain ⟨r, hr, hacc⟩ := hu.accounted hret harg
      exact .ret hr hacc
  | @jump depth _ _ _ _ _ j l hj hd hin =>
    refine Code.Yields.seq (I := (·.Holds strict (Scopes.kept outer (some depth)).flatten 0))
      (.line lo ?_) fun u hu => .leave j hu
    rw [← hkept]
    exact Runs.leave hlaid hd hin hs
  | block hss hend =>
    rw [← hkept]
    exact hend.accounts (hss.laid hlaid) (hss.accounts hfun hret (hend.listed hlisted) hlaid
      hnamed.push hord hnest hs)
  | ifThen hc hx h₁₂ ht hend hhi =>
    rw [← hkept]
    have hord' : strict → _ := fun hstrict => Bool.and_eq_true_iff.1 (hord hstrict)
    have hlaid' := hlaid.weaken (hc.within.1.trans h₁₂)
    refine (hc.accounts hx hfun hlisted.1 hlaid hnamed (fun h => (hord' h).1) hs).seq fun t hs' => ?_
    refine .ifThen (hend.accounts (ht.laid hlaid') ?_) hs'
    exact ht.accounts hfun hret (hend.listed hlisted.2) hlaid' hnamed.push
      (fun h => (hord' h).2) hnest hs'
  | ifThenElse hc hx h₁₂ ht hend₁ he hend₂ hhi =>
    rw [← hkept]
    have hord' : strict → _ := fun hstrict => Bool.and_eq_true_iff.1 (hord hstrict)
    have hthen : strict → _ := fun hstrict => Bool.and_eq_true_iff.1 (hord' hstrict).1
    have hlaid₁ := hlaid.weaken (hc.within.1.trans h₁₂)
    have hlaid₂ := hlaid₁.weaken (hend₁.within ht.within).1
    refine (hc.accounts hx hfun hlisted.1 hlaid hnamed (fun h => (hthen h).1) hs).seq fun t hs' => ?_
    refine .ifThenElse (hend₁.accounts (ht.laid hlaid₁) ?_) (hend₂.accounts (he.laid hlaid₂) ?_)
    · exact ht.accounts hfun hret (hend₁.listed hlisted.2.1) hlaid₁ hnamed.push
        (fun h => (hthen h).2) hnest hs'
    · exact he.accounts hfun hret (hend₂.listed hlisted.2.2) hlaid₂ hnamed.push
        (fun h => (hord' h).2) hnest hs'
  | loop h₁ hc hx h₂₃ hb hend hhi =>
    have hord' : strict → _ := fun hstrict => Bool.and_eq_true_iff.1 (hord hstrict)
    have hlaid₁ := hlaid.weaken h₁
    have hlaid₂ := hlaid₁.weaken (hc.within.1.trans h₂₃)
    refine .loop (fun t hs' => hc.accounts hx hfun hlisted.1 hlaid₁ hnamed (fun h => (hord' h).1) hs')
      (fun t hs' => hend.accounts (hb.laid hlaid₂) ?_) hs
    -- A jump out of the body keeps the scopes around the loop.
    have hbody := hb.accounts hfun hret (hend.listed hlisted.2) hlaid₂ hnamed.push
      (fun h => (hord' h).2) (Nat.le_refl _) hs'
    rw [show outer.length + 2 = (top :: outer).length + 1 from rfl, Scopes.kept_loop] at hbody
    exact hbody

theorem Stmt.CompilesAll.accounts {names : List String} {loop : Option Nat}
    {outer : List (List Slot)} {lo hi : Nat} {top top' : List Slot} {stmts : List Stmt} {T : Code}
    (h : Stmt.CompilesAll ⟨.builtins, options⟩ functions H ret 1 loop outer lo top stmts T top' hi)
    (hfun : ∀ f ∈ functions.entries, f.Borrows H.module)
    (hret : TypeTable.builtins.representation ret = .ok H.body.signature.ret)
    (hlisted : T.Listed H.body) (hlaid : Laid H lo (top ++ outer.flatten))
    (hnamed : Named names (top :: outer))
    (hord : strict → Stmt.orderedAll names stmts = true)
    (hloop : loop.getD 0 ≤ outer.length + 1) {s : Tracking}
    (hs : s.Holds strict (top ++ outer.flatten) 0) :
    T.Yields H (Accounted strict) s (·.Holds strict (top' ++ outer.flatten) 0)
      (·.Holds strict (Scopes.kept outer loop).flatten 0) := by
  -- An order for the whole list is one for its first statement and one for the rest.
  have hord' : strict → ∀ {st rest}, stmts = st :: rest → st.ordered names = true ∧
      Stmt.orderedAll (st.distributions names) rest = true := by
    rintro hstrict st rest rfl
    exact Bool.and_eq_true_iff.1 (hord hstrict)
  cases h with
  | nil => exact .line lo (.nil hs)
  | ended hst hend =>
    exact hst.accounts hfun hret hlisted hlaid hnamed (fun h => (hord' h rfl).1) hloop hs
  | cons hst hend hrest =>
    refine (hst.accounts hfun hret hlisted.1 hlaid hnamed (fun h => (hord' h rfl).1) hloop
      hs).seq fun t ht => ?_
    exact hrest.accounts hfun hret hlisted.2 (hst.laid hlaid) (hst.named hnamed)
      (fun h => (hord' h rfl).2) hloop ht

end

/-! ## Bodies -/

/-- The distributions of the caller are not destroyed. -/
theorem IR.Tracking.Holds.arg_live {pending : Multiset Handle} (hs : s.Holds strict slots pending)
    (i : Nat) : .destroyed (.arg i) ∉ s.trace := by
  intro hmem
  obtain ⟨n, -, heq⟩ := hs.owes.new _ (hs.owes.made_of_destroyed hmem)
  cases heq

/-- An argument is copied before the function makes it its own. -/
theorem CopyLine.accounts {ty : TypeId} (h : CopyLine H ty (.arg index) v l)
    (hin : ∀ q ∈ l, lo ≤ q.1 ∧ q.1 < hi) (hs : s.Holds strict slots 0) :
    Runs H lo s l (Offers H strict slots 0 hi ⟨ty, v, true⟩) := by
  cases h with
  | same hty => exact .nil (.plain hs hty)
  | copy hty hcall =>
    rw [hty]
    refine (Runs.makes hcall (by decide) rfl hin hs fun _ h hh => ?_).mono fun t _ ht => ht.toOffers
    obtain ⟨w, hw, hop⟩ := mem_used hh
    rw [List.mem_singleton.1 hw] at hop
    obtain rfl := Option.some.inj (Option.ite_none_right_eq_some.1 hop).2
    exact hs.arg_live index

theorem Arguments.accounts {params : List Param}
    (h : Arguments .builtins H depth lo index top params l top' hi) (hlaid : Laid H lo top)
    (hs : s.Holds strict top 0) : Runs H lo s l (·.Holds strict top' 0) := by
  induction h generalizing s with
  | nil => exact .nil hs
  | @cons lo mid hi index top top' p ps shape a v l₁ l₂ l hshape hfree ha hcopy hst hin rest ih =>
    have hids : ∀ q ∈ l₁ ++ l₂, lo ≤ q.1 ∧ q.1 < mid := fun q hq =>
      hin.2 q.1 (List.mem_map_of_mem hq)
    have hbound : Runs H lo s (l₁ ++ l₂)
        (·.Holds strict (⟨p.name, p.ty, .inst a, p.span, depth⟩ :: top) 0) := by
      refine (hcopy.accounts (fun q hq => hids q (List.mem_append_left _ hq)) hs).append
        fun t _ ht => ?_
      exact (Runs.store ⟨p.name, p.ty, .inst a, p.span, depth⟩ hst rfl ht (hlaid.fresh ha)).mono
        fun u _ hu => hu.1
    exact hbound.append fun t _ ht => (ih (hlaid.cons rfl ha hshape) ht).weaken hin.1

theorem BodyEnd.listed (h : BodyEnd H ret top mid T T' hi) (hlisted : T'.Listed f) :
    T.Listed f := by
  cases h with
  | ended h => exact hlisted
  | returns h hret hd hin => exact hlisted.1
  | sealed h => exact hlisted

/-- Where control gets to the end of a body, its variables are destroyed. -/
theorem BodyEnd.accounts (h : BodyEnd H ret top mid T T' hi) (hlaid : Laid H mid top)
    (hret : TypeTable.builtins.representation ret = .ok H.body.signature.ret)
    (hT : T.Yields H (Accounted strict) s (·.Holds strict top 0) J) :
    T'.Yields H (Accounted strict) s (fun _ => True) fun _ => True := by
  cases h with
  | ended h => exact hT.mono (fun _ _ => trivial) fun _ _ => trivial
  | sealed h => exact hT.mono (fun _ _ => trivial) fun _ _ => trivial
  | returns h hvoid hd hin =>
    -- A body that runs off its end destroys its variables and returns nothing.
    refine (hT.mono (fun _ ht => ht) fun _ _ => trivial).seq fun t ht => Code.Yields.seq
      (I := fun u => u.Holds strict [] 0) (.line mid ?_) fun u hu => ?_
    · refine Runs.destroySlots hd (fun q hq => (hin.2 q.1 (List.mem_map_of_mem hq)).1)
        (fun slot hslot => ?_) (by rwa [List.append_nil])
      obtain ⟨a, _, hptr, -⟩ := hlaid.placed slot hslot
      exact ⟨a, hptr⟩
    · have hne : ret ≠ Builtin.dfunc.id := by
        rw [hvoid]
        exact fun h => by simpa using Builtin.id_eq_iff.1 h
      have hoffers : Offers H strict [] 0 0 ⟨ret, .void, true⟩ u := .plain hu hne
      obtain ⟨r, hr, hacc⟩ := Offers.accounted (v := none) hret hoffers rfl
      exact .ret hr hacc

/-- However a body returns, its accounts are closed. -/
theorem Body.Compiles.accounts {p : Prototype} {stmts : List Stmt}
    (h : Body.Compiles ⟨.builtins, options⟩ functions H p lo stmts C hi)
    (hfun : ∀ f ∈ functions.entries, f.Borrows H.module)
    (hret : TypeTable.builtins.representation p.ret = .ok H.body.signature.ret)
    (hlisted : C.Listed H.body) (hparams : ∀ q ∈ p.params, q.ty = Builtin.dfunc.id → q.name ∈ names)
    (hord : strict → Stmt.orderedAll names stmts = true) :
    C.Yields H (Accounted strict) .start (fun _ => True) fun _ => True := by
  obtain ⟨hargs, hs, hend⟩ := h
  have hlaid := hargs.laid (Laid.nil H lo)
  refine Code.Yields.seq (.line lo (hargs.accounts (.nil H lo) (.start strict))) fun t ht => ?_
  have hlaid' := hs.laid (by rwa [List.flatten_nil, List.append_nil])
  -- The arguments fill the outermost scope, and the statements start from there.
  have hstmts := hs.accounts hfun hret (hend.listed hlisted.2)
    (by rwa [List.flatten_nil, List.append_nil]) (hargs.named hparams nofun) hord (Nat.zero_le _)
    (by rwa [List.flatten_nil, List.append_nil])
  rw [List.flatten_nil, List.append_nil] at hlaid' hstmts
  exact hend.accounts hlaid' hret hstmts

/-- No run of a finished body gets stuck, and one that returns has closed its
    accounts. -/
theorem FinishedBody.accounted {p : Prototype} {stmts : List Stmt} (hf : f.blocks = [])
    (h : FinishedBody options functions p stmts f.withEntry H)
    (hfun : ∀ f ∈ functions.entries, f.Borrows H.module)
    (hret : TypeTable.builtins.representation p.ret = .ok H.body.signature.ret)
    (hparams : ∀ q ∈ p.params, q.ty = Builtin.dfunc.id → q.name ∈ names)
    (hord : strict → Stmt.orderedAll names stmts = true) (ch : Choices) :
    ¬ H.body.GetsStuck (Interp.tracking H).choosing (.start (.start, ch)) ∧
      ∀ trace, H.body.Returns (Interp.tracking H).choosing (.start (.start, ch)) trace →
        Accounted strict trace := by
  obtain ⟨C, hi, hfills, hC⟩ := h.code
  obtain ⟨q, hlies, -⟩ := id hfills
  have hyields := hC.accounts hfun hret (Code.listed_of_lies C hlies) hparams hord
  -- Slots are reserved before the code of the body runs.
  have hexec : ∀ {id : InstId} {i : Inst} {s : Tracking × Choices}, i.op.isAlloca = true →
      (Interp.tracking H).choosing.exec id i s = some s := by
    intro id i s halloca
    cases hop : i.op <;> simp_all [Op.isAlloca, Interp.choosing, Interp.tracking]
  have hslots : (Interp.tracking H).choosing.execAll H.body.slotLines (.start, ch) =
      some (.start, ch) := by
    rw [H.body.execAll_slotLines hexec (.start, ch), List.foldl_fixed]
  have hregular := h.regular hf
  constructor
  · intro hstuck
    obtain ⟨n, hn⟩ := (hfills.getsStuck_iff hregular h.verified hslots).1 hstuck
    exact (hyields n ch).ne_stuck hn
  · intro trace hreturns
    obtain ⟨n, hn⟩ := (hfills.returns_iff hregular h.verified hslots trace).1 hreturns
    have hsafe := hyields n ch
    rw [hn] at hsafe
    exact hsafe

end

end Shading
