import Shading.Proofs.Agreement
import Shading.Proofs.Correspondence

/-! # Code generation preserves meaning

    The code of a function over integers and booleans does what the function
    does.  Both are followed side by side: with the same number of turns for
    each loop they end alike, and as long as they go on each variable has a
    slot that holds its value.  So a run of the code returns a value, gets
    stuck or goes on forever exactly if evaluation does. -/

namespace Shading

open IR Scalar

variable {C T T' Tc : Code} {scope slots top top' : List Slot} {decl : FunctionDecl}
    {ty : TypeName}

/-! ## Two runs side by side -/

/-- Two runs end alike, in states that are related: by `P` where control goes
    on, by `Q` where it leaves a turn of a loop. -/
inductive IR.Outcome.Related {σ τ ρ : Type} (P Q : σ → τ → Prop) :
    Outcome σ ρ → Outcome τ ρ → Prop
  | done {s : σ} {t : τ} (h : P s t) : Related P Q (.done s) (.done t)
  | jumped {s : σ} {t : τ} (j : Jump) (h : Q s t) : Related P Q (.jumped j s) (.jumped j t)
  | returned (r : ρ) : Related P Q (.returned r) (.returned r)
  | stuck : Related P Q .stuck .stuck
  | timeout : Related P Q .timeout .timeout

namespace IR.Outcome.Related

variable {σ τ ρ : Type} {P P' Q Q' : σ → τ → Prop} {o : Outcome σ ρ} {o' : Outcome τ ρ}
  {k : σ → Outcome σ ρ} {k' : τ → Outcome τ ρ}

theorem mono (h : Related P Q o o') (hP : ∀ s t, P s t → P' s t) (hQ : ∀ s t, Q s t → Q' s t) :
    Related P' Q' o o' := by
  cases h with
  | done h => exact .done (hP _ _ h)
  | jumped j h => exact .jumped j (hQ _ _ h)
  | returned r => exact .returned r
  | stuck => exact .stuck
  | timeout => exact .timeout

theorem andThen (h : Related P Q o o') (hk : ∀ s t, P s t → Related P' Q (k s) (k' t)) :
    Related P' Q (o.andThen k) (o'.andThen k') := by
  cases h with
  | done h => exact hk _ _ h
  | jumped j h => exact .jumped j h
  | returned r => exact .returned r
  | stuck => exact .stuck
  | timeout => exact .timeout

/-- What follows is dropped on one side if control does not get there on the
    other. -/
theorem andThen_left (h : Related P Q o o') (hne : ∀ t, o' ≠ .done t) :
    Related P' Q (o.andThen k) o' := by
  cases h with
  | done h => exact absurd rfl (hne _)
  | jumped j h => exact .jumped j h
  | returned r => exact .returned r
  | stuck => exact .stuck
  | timeout => exact .timeout

theorem endTurn (h : Related P P o o') (hk : ∀ s t, P s t → Related P Q (k s) (k' t)) :
    Related P Q (o.endTurn k) (o'.endTurn k') := by
  cases h with
  | done h => exact hk _ _ h
  | jumped j h =>
    cases j with
    | breakLoop => exact .done h
    | continueLoop => exact hk _ _ h
  | returned r => exact .returned r
  | stuck => exact .stuck
  | timeout => exact .timeout

/-- Both return the same value, or neither returns it. -/
theorem returned_iff (h : Related P Q o o') {r : ρ} : o' = .returned r ↔ o = .returned r := by
  cases h <;> simp

theorem stuck_iff (h : Related P Q o o') : o' = .stuck ↔ o = .stuck := by
  cases h <;> simp

theorem timeout_iff (h : Related P Q o o') : o' = .timeout ↔ o = .timeout := by
  cases h <;> simp

end IR.Outcome.Related

/-! ## Variables and slots -/

/-- All slots are reserved, and each variable has one that holds its value. -/
structure Tracks (H : Host) (stack : List (List Slot)) (vars : Variables) (s : Store Scalar) :
    Prop where
  reserved : ∀ a ∈ H.body.slots 0, (s.cells a).isSome = true
  agree : Agree s stack vars

section

variable {H : Host} {stack outer : List (List Slot)} {top : List Slot} {vars : Variables}
  {s s' : Store Scalar}

theorem Tracks.enter (h : Tracks H stack vars s) : Tracks H ([] :: stack) ([] :: vars) s :=
  ⟨h.reserved, .cons .nil h.agree⟩

theorem Tracks.leave (h : Tracks H (top :: outer) vars s) : Tracks H outer vars.tail s := by
  refine ⟨h.reserved, ?_⟩
  cases h.agree with
  | cons _ hrest => exact hrest

theorem Bound.ne_dfunc {bindings : Bindings} (h : List.Forall₂ (Bound s) scope bindings) :
    ∀ slot ∈ scope, slot.ty ≠ Builtin.dfunc.id := by
  induction h with
  | nil => exact fun _ hslot => (List.not_mem_nil hslot).elim
  | @cons first b _ _ hb _ ih =>
    intro slot hslot
    rcases List.mem_cons.1 hslot with rfl | hslot
    · exact fun hty => b.2.builtin_ne_dfunc (hb.ty.symm.trans hty)
    · exact ih slot hslot

theorem Agree.ne_dfunc (h : Agree s stack vars) :
    ∀ slot ∈ stack.flatten, slot.ty ≠ Builtin.dfunc.id := by
  induction h with
  | nil => exact fun _ hslot => (List.not_mem_nil hslot).elim
  | cons hscope _ ih =>
    intro slot hslot
    rw [List.flatten_cons] at hslot
    rcases List.mem_append.1 hslot with hslot | hslot
    · exact Bound.ne_dfunc hscope slot hslot
    · exact ih slot hslot

/-- Nothing is emitted at the end of the variables. -/
theorem Agree.destroys_nothing (h : Agree s stack vars) {l : Lines}
    (hslots : ∀ slot ∈ slots, slot ∈ stack.flatten) (hd : Each (DestroySlotLine H) slots l) :
    l = [] := by
  refine hd.eq_nil fun slot hslot l' hl' => ?_
  exact hl'.of_ne (h.ne_dfunc slot (hslots slot hslot))

/-- A new variable gets its first value. -/
theorem Tracks.declare (h : Tracks H (top :: outer) vars s) {slot : Slot} {a : InstId} {c : Scalar}
    {lo : Nat} (hlaid : Laid H lo (top ++ outer.flatten)) (ha : lo ≤ a)
    (hptr : slot.ptr = .inst a) (hty : slot.ty = c.builtin.id) :
    Tracks H ((slot :: top) :: outer) (vars.declare slot.name c) (s.setCell a (some c)) := by
  have hkeeps : Store.Keeps 0 s (s.setCell a (some c)) := .setCell 0 s a (some c)
  refine ⟨fun b hb => hkeeps.cells b (h.reserved b hb), ?_⟩
  -- The other variables have other slots, since theirs have smaller numbers.
  have hother : Agree (s.setCell a (some c)) (top :: outer) vars := by
    refine h.agree.of_load fun other hmem => Store.load?_setCell_ne fun heq => ?_
    obtain ⟨b, _, hb, hlt, _⟩ := hlaid.placed other hmem
    rw [hb] at heq
    cases heq
    exact Nat.lt_irrefl a (Nat.lt_of_lt_of_le hlt ha)
  cases hother with
  | cons htop hrest =>
    refine .cons (.cons ⟨rfl, hty, ?_⟩ htop) hrest
    rw [hptr]
    exact Store.load?_inst (Store.setCell_cells_self ..)

end

/-! ## Types of variables -/

/-- The name of one of the two types means that type. -/
theorem TypeName.resolve_scalar {id : TypeId} (h : ty.isScalar = true)
    (hid : TypeTable.builtins.resolveName ty.name ty.span = .ok id) :
    ∃ c, Scalar.default? ty.name = some c ∧ c.typeName = ty.name ∧ id = c.builtin.id ∧
      ofConst? (.zero c.shape) = some c := by
  rcases Bool.or_eq_true_iff.1 h with hname | hname
  · have hint : ty.name = Builtin.int.name := beq_iff_eq.1 hname
    rw [hint, TypeTable.builtins_resolveName] at hid
    refine ⟨.int 0, ?_, hint.symm, (Except.ok.inj hid).symm, rfl⟩
    rw [hint]
    rfl
  · have hbool : ty.name = Builtin.bool.name := beq_iff_eq.1 hname
    rw [hbool, TypeTable.builtins_resolveName] at hid
    refine ⟨.bool false, ?_, hbool.symm, (Except.ok.inj hid).symm, rfl⟩
    rw [hbool]
    rfl

/-! ## Statements -/

/-- How evaluation and code relate behind a statement, where `top` are the
    variables of its scope.  A jump may leave the scope in its middle. -/
def Follows (H : Host) (outer : List (List Slot)) (top : List Slot) :
    Outcome Variables (Option Scalar) → Outcome (Store Scalar) (Option Scalar) → Prop :=
  Outcome.Related (Tracks H (top :: outer)) fun vars s => Tracks H outer vars.tail s

section

variable {options : Options} {functions : Functions} {H : Host} {stack outer : List (List Slot)}
  {args : List Scalar} {n lo hi base : Nat} {ret : TypeId} {vars : Variables} {s : Store Scalar}

/-- The code of an expression, with the slots that are reserved. -/
theorem Expr.Compiles.tracks {e : Expr} {x : ExprValue}
    (h : Expr.Compiles ⟨.builtins, options⟩ functions H (.of stack) lo e T x hi)
    (hscalar : e.isScalar = true) (hlaid : Laid H lo stack.flatten) (ht : Tracks H stack vars s) :
    (∃ c vars' s', e.eval? vars = some (c, vars') ∧ T.run (scalarMachine args) n s = .done s' ∧
      Tracks H stack vars' s' ∧ Denotes H args s' hi x.ty x.value c) ∨
    (e.eval? vars = none ∧ T.run (scalarMachine args) n s = .stuck) := by
  have heval : Evaluates H args stack hi (e.eval? vars) x (T.run (scalarMachine args) n s) :=
    h.evaluates hscalar hlaid ht.agree
  rcases heval with ⟨c, vars', s', hc, hrun, hagree, hx⟩ | hstuck
  · have hkeeps := h.within.keeps_done hrun
    exact .inl ⟨c, vars', s', hc, hrun, ⟨fun a ha => hkeeps.cells a (ht.reserved a ha), hagree⟩, hx⟩
  · exact .inr hstuck

/-- The code of a condition. -/
theorem Expr.Compiles.decides {e : Expr} {x : ExprValue}
    (h : Expr.Compiles ⟨.builtins, options⟩ functions H (.of stack) lo e T x hi)
    (hx : x.ty = Builtin.bool.id) (hscalar : e.isScalar = true) (hlaid : Laid H lo stack.flatten)
    (ht : Tracks H stack vars s) :
    (∃ b vars' s', e.eval? vars = some (.bool b, vars') ∧
      T.run (scalarMachine args) n s = .done s' ∧ Tracks H stack vars' s' ∧
      operand? args s' x.value = some (.bool b)) ∨
    (e.eval? vars = none ∧ T.run (scalarMachine args) n s = .stuck) := by
  rcases h.tracks hscalar hlaid ht with ⟨c, vars', s', hc, hrun, ht', hd⟩ | hstuck
  · obtain ⟨b, rfl⟩ := eq_bool_of_builtin (hd.ty.symm.trans hx)
    exact .inl ⟨b, vars', s', hc, hrun, ht', hd.value⟩
  · exact .inr hstuck

/-- Closing a scope closes it on both sides. -/
theorem ScopeEnd.follows {body : Variables → Outcome Variables (Option Scalar)}
    (h : ScopeEnd H top lo T T' hi)
    (hbody : Follows H stack top (body ([] :: vars)) (T.run (scalarMachine args) n s)) :
    Outcome.Related (Tracks H stack) (Tracks H stack) (Variables.inScope body vars)
      (T'.run (scalarMachine args) n s) := by
  unfold Variables.inScope
  generalize body ([] :: vars) = o at hbody
  -- Code that has ended is left as it is; otherwise the slots of the scope go at its end.
  cases h with
  | ended h =>
    generalize T.run (scalarMachine args) n s = o' at hbody
    cases hbody with
    | done ht => exact .done ht.leave
    | jumped j ht => exact .jumped j ht
    | returned r => exact .returned r
    | stuck => exact .stuck
    | timeout => exact .timeout
  | left hends hd hin =>
    rw [Code.run]
    generalize T.run (scalarMachine args) n s = o' at hbody
    cases hbody with
    | done ht =>
      have hslots : ∀ slot ∈ top, slot ∈ (top :: stack).flatten := fun slot hslot =>
        List.mem_append_left _ hslot
      -- A scope of scalars has nothing to destroy, so the store is untouched.
      obtain rfl := ht.agree.destroys_nothing hslots hd
      exact .done ht.leave
    | jumped j ht => exact .jumped j ht
    | returned r => exact .returned r
    | stuck => exact .stuck
    | timeout => exact .timeout

/-- Jumps out of the scope around a nested statement. -/
theorem Tracks.follows {o : Outcome Variables (Option Scalar)}
    {o' : Outcome (Store Scalar) (Option Scalar)}
    (h : Outcome.Related (Tracks H (top :: outer)) (Tracks H (top :: outer)) o o') :
    Follows H outer top o o' :=
  h.mono (fun _ _ ht => ht) fun _ _ ht => ht.leave

/-- A loop, where the condition and a turn are known to be followed. -/
theorem turns_follows {cond : Variables → Option (Scalar × Variables)}
    {body : Variables → Outcome Variables (Option Scalar)} {v : Value}
    (hcond : ∀ vars s, Tracks H (top :: outer) vars s →
      (∃ b vars' s', cond vars = some (.bool b, vars') ∧
        Tc.run (scalarMachine args) n s = .done s' ∧ Tracks H (top :: outer) vars' s' ∧
        operand? args s' v = some (.bool b)) ∨
      (cond vars = none ∧ Tc.run (scalarMachine args) n s = .stuck))
    (hbody : ∀ vars s, Tracks H (top :: outer) vars s →
      Outcome.Related (Tracks H (top :: outer)) (Tracks H (top :: outer)) (body vars)
        (T.run (scalarMachine args) n s)) (k : Nat) :
    ∀ vars s, Tracks H (top :: outer) vars s →
      Follows H outer top (Variables.turns cond body k vars)
        (Code.turns (Tc.run (scalarMachine args) n) ((scalarMachine args).guard v)
          (T.run (scalarMachine args) n) k s) := by
  -- By induction on the turns: one turn is a condition and, if it holds, a body.
  induction k with
  | zero => exact fun _ _ _ => .timeout
  | succ k ih =>
    intro vars s ht
    unfold Variables.turns Code.turns
    rcases hcond vars s ht with ⟨b, vars', s', hc, hrun, ht', hv⟩ | ⟨hc, hrun⟩
    · rw [hc, hrun]
      simp only [Outcome.andThen, scalarMachine_guard hv]
      cases b with
      | false => exact .done ht'
      | true => exact Outcome.Related.endTurn (hbody vars' s' ht') ih
    · rw [hc, hrun]
      exact .stuck

/-- The first value of a variable. -/
theorem Stmt.Initial.tracks {id : TypeId} {init : Option Expr} {v : Value}
    (h : Stmt.Initial ⟨.builtins, options⟩ functions H (.of stack) id lo init T v hi)
    (hty : ty.isScalar = true) (hid : TypeTable.builtins.resolveName ty.name ty.span = .ok id)
    (hinit : init.all Expr.isScalar = true) (hlaid : Laid H lo stack.flatten)
    (ht : Tracks H stack vars s) :
    (∃ c vars' s', Stmt.firstValue? ty init vars = some (c, vars') ∧
      T.run (scalarMachine args) n s = .done s' ∧ Tracks H stack vars' s' ∧
      operand? args s' v = some c ∧ id = c.builtin.id) ∨
    (Stmt.firstValue? ty init vars = none ∧ T.run (scalarMachine args) n s = .stuck) := by
  obtain ⟨d, hd, -, hidd, hzero⟩ := TypeName.resolve_scalar hty hid
  cases h with
  | given he hc hm hin =>
    rw [Code.run, Stmt.firstValue?]
    rcases he.tracks hinit hlaid ht with ⟨c, vars', s', hval, hrun, ht', hx⟩ | ⟨hval, hrun⟩
    · -- No conversion and no copy stands between the value and the variable.
      obtain ⟨hsame, rfl, rfl⟩ := hc.of_ne fun h => d.builtin_ne_float (hidd.symm.trans h)
      obtain ⟨rfl, rfl⟩ := hm.of_ne hx.ne_dfunc
      refine .inl ⟨c, vars', s', hval, ?_, ht', hx.value, hsame.symm.trans hx.ty⟩
      rw [hrun]
      rfl
    · refine .inr ⟨hval, ?_⟩
      rw [hrun]
      rfl
  | default hdefault hin =>
    -- Only a distribution has to be made, and it is no scalar.
    cases hdefault with
    | zero hne hrep =>
      rw [hidd] at hrep
      obtain rfl := shape_of_representation hrep
      have hplain : d.shape.isPointer = false := by cases d <;> rfl
      refine .inl ⟨d, vars, s, ?_, rfl, ht, ?_, hidd⟩
      · rw [Stmt.firstValue?, hd]
        rfl
      · rw [hplain]
        exact hzero
    | empty hdf hcall => exact absurd (hidd.symm.trans hdf) d.builtin_ne_dfunc

mutual

/-- The code of a statement does what the statement does. -/
theorem Stmt.Compiles.follows {loop : Option Nat} {outer : List (List Slot)} {lo hi : Nat}
    {top top' : List Slot} {st : Stmt} {T : Code}
    (h : Stmt.Compiles ⟨.builtins, options⟩ functions H ret base loop outer lo top st T top' hi)
    (hret : ret ≠ Builtin.float.id) (hscalar : st.isScalar = true)
    (hlaid : Laid H lo (top ++ outer.flatten)) {vars : Variables} {s : Store Scalar}
    (ht : Tracks H (top :: outer) vars s) :
    Follows H outer top' (st.eval n vars) (T.run (scalarMachine args) n s) := by
  -- One case for each way to compile a statement; the inner ones are used by recursion.
  cases h with
  | expr he hx hin =>
    rw [Stmt.eval, Code.run]
    rcases he.tracks hscalar hlaid ht with ⟨c, vars', s', hval, hrun, ht', hd⟩ | ⟨hval, hrun⟩
    · obtain rfl := hx.of_ne hd.ne_dfunc
      rw [hval, hrun]
      exact .done ht'
    · rw [hval, hrun]
      exact .stuck
  | decl hty hvoid hshape hfree hinit ha hs hin =>
    obtain ⟨hsty, hsinit⟩ := Bool.and_eq_true_iff.1 hscalar
    rw [Stmt.eval, Code.run]
    rcases hinit.tracks hsty hty hsinit hlaid ht with
      ⟨c, vars', s', hval, hrun, ht', hv, hid⟩ | ⟨hval, hrun⟩
    · obtain ⟨pointee, hp, hvty, id, rfl⟩ := hs
      -- The slot of the new variable lies above everything that has been laid.
      have hlaid' := hlaid.weaken hinit.within.1
      rw [hval, hrun]
      simp only [Outcome.andThen, Code.run,
        scalarMachine_store hv (ht'.reserved _ ha.slot)]
      exact .done (ht'.declare hlaid' ha.above rfl hid)
    · rw [hval, hrun]
      exact .stuck
  | ret hv hd hin =>
    rw [Code.run]
    cases hv with
    | none hvoid =>
      have hl := ht.agree.destroys_nothing (fun _ => Scopes.mem_flatten_of_mem_liveFrom) hd
      rw [Stmt.eval, hl]
      exact .returned none
    | some hvoid he hc hm hin' =>
      rw [Stmt.eval, Code.run]
      rcases he.tracks hscalar hlaid ht with ⟨c, vars', s', hval, hrun, ht', hx⟩ | ⟨hval, hrun⟩
      · obtain ⟨-, rfl, rfl⟩ := hc.of_ne hret
        obtain ⟨rfl, rfl⟩ := hm.of_ne hx.ne_dfunc
        have hl := ht'.agree.destroys_nothing (fun _ => Scopes.mem_flatten_of_mem_liveFrom) hd
        have hres : (scalarMachine args).result (some _) s' = some (some c) :=
          congrArg (Option.map some) hx.value
        rw [hval, hrun, hl]
        simp only [Outcome.andThen, Code.run, List.append_nil, Interp.execAll, Outcome.ofOption, hres]
        exact .returned (some c)
      · rw [hval, hrun]
        exact .stuck
  | jump hj hd hin =>
    have hl := ht.agree.destroys_nothing (fun _ => Scopes.mem_flatten_of_mem_liveFrom) hd
    rw [hl]
    cases st <;> cases hj <;> exact .jumped _ ht.leave
  | block hs hend =>
    rw [Stmt.eval]
    refine Tracks.follows (hend.follows ?_)
    exact hs.follows hret hscalar hlaid ht.enter
  | ifThen hc hx h₁₂ htc hend hhi =>
    obtain ⟨hsc, hst⟩ := Bool.and_eq_true_iff.1 hscalar
    rw [Stmt.eval, Code.run]
    rcases hc.decides hx hsc hlaid ht with ⟨b, vars', s', hval, hrun, ht', hb⟩ | ⟨hval, hrun⟩
    · have hlaid' := hlaid.weaken (hc.within.1.trans h₁₂)
      rw [hval, hrun]
      simp only [Outcome.andThen, Code.run, scalarMachine_test hb]
      cases b with
      | false => exact .done ht'
      | true => exact Tracks.follows (hend.follows (htc.follows hret hst hlaid' ht'.enter))
    · rw [hval, hrun]
      exact .stuck
  | ifThenElse hc hx h₁₂ htc hend₁ hec hend₂ hhi =>
    obtain ⟨hsct, hse⟩ := Bool.and_eq_true_iff.1 hscalar
    obtain ⟨hsc, hst⟩ := Bool.and_eq_true_iff.1 hsct
    rw [Stmt.eval, Code.run]
    rcases hc.decides hx hsc hlaid ht with ⟨b, vars', s', hval, hrun, ht', hb⟩ | ⟨hval, hrun⟩
    · have hlaid₁ := hlaid.weaken (hc.within.1.trans h₁₂)
      have hlaid₂ := hlaid₁.weaken (hend₁.within htc.within).1
      rw [hval, hrun]
      simp only [Outcome.andThen, Code.run, scalarMachine_test hb]
      cases b with
      | false => exact Tracks.follows (hend₂.follows (hec.follows hret hse hlaid₂ ht'.enter))
      | true => exact Tracks.follows (hend₁.follows (htc.follows hret hst hlaid₁ ht'.enter))
    · rw [hval, hrun]
      exact .stuck
  | loop h₁ hc hx h₂₃ hb hend hhi =>
    obtain ⟨hsc, hsb⟩ := Bool.and_eq_true_iff.1 hscalar
    have hlaid₁ := hlaid.weaken h₁
    have hlaid₂ := hlaid₁.weaken (hc.within.1.trans h₂₃)
    rw [Stmt.eval, Code.run]
    refine turns_follows (fun vars' s' ht' => hc.decides hx hsc hlaid₁ ht') (fun vars' s' ht' => ?_)
      n vars s ht
    exact hend.follows (hb.follows hret hsb hlaid₂ ht'.enter)

theorem Stmt.CompilesAll.follows {loop : Option Nat} {outer : List (List Slot)} {lo hi : Nat}
    {top top' : List Slot} {stmts : List Stmt} {T : Code}
    (h : Stmt.CompilesAll ⟨.builtins, options⟩ functions H ret base loop outer lo top stmts T top'
      hi) (hret : ret ≠ Builtin.float.id) (hscalar : Stmt.areScalar stmts = true)
    (hlaid : Laid H lo (top ++ outer.flatten)) {vars : Variables} {s : Store Scalar}
    (ht : Tracks H (top :: outer) vars s) :
    Follows H outer top' (Stmt.evalAll n stmts vars) (T.run (scalarMachine args) n s) := by
  cases h with
  | nil =>
    rw [Stmt.evalAll]
    exact .done ht
  | ended hs hend =>
    obtain ⟨hss, hsr⟩ := Bool.and_eq_true_iff.1 hscalar
    rw [Stmt.evalAll]
    -- Control does not get behind the statement, so the rest is dropped.
    exact Outcome.Related.andThen_left (hs.follows hret hss hlaid ht) fun s' =>
      Code.run_ne_done _ hend s s'
  | cons hs hend hrest =>
    obtain ⟨hss, hsr⟩ := Bool.and_eq_true_iff.1 hscalar
    rw [Stmt.evalAll, Code.run]
    exact Outcome.Related.andThen (hs.follows hret hss hlaid ht) fun vars' s' ht' =>
      hrest.follows hret hsr (hs.laid hlaid) ht'

end

/-! ## Functions -/

/-- The arguments of a function are its first variables. -/
theorem Arguments.tracks {depth index : Nat} {params : List Param} {l : Lines}
    (h : Arguments .builtins H depth lo index top params l top' hi) :
    ∀ {scope : Bindings} {s : Store Scalar}, Laid H lo top → Tracks H [top] [scope] s →
      List.Forall₂ (fun p c => p.ty = c.builtin.id) params (args.drop index) →
      ∃ s', (scalarMachine args).execAll l s = some s' ∧
        Tracks H [top'] [((params.map (·.name)).zip (args.drop index)).reverse ++ scope] s' := by
  -- By induction on the parameters: each argument goes from its register into a slot.
  induction h with
  | nil =>
    intro scope s _ ht _
    exact ⟨s, rfl, ht⟩
  | @cons lo mid hi index top top' p ps shape a v l₁ l₂ l hshape hfree ha hcopy hs hin rest ih =>
    intro scope s hlaid ht htyped
    cases hdrop : args.drop index with
    | nil => rw [hdrop] at htyped; cases htyped
    | cons c cs =>
      have hnext : args.drop (index + 1) = cs := by
        rw [← List.drop_drop, hdrop]
        rfl
      have harg : operand? args s (.arg index) = some c := by
        show args[index]? = some c
        rw [← List.head?_drop, hdrop]
        rfl
      rw [hdrop] at htyped
      cases htyped with
      | cons hp hps =>
        obtain ⟨rfl, rfl⟩ := hcopy.of_ne fun h => c.builtin_ne_dfunc (hp.symm.trans h)
        obtain ⟨pointee, hpty, hvty, id, rfl⟩ := hs
        have hexec : (scalarMachine args).execAll [(id, ⟨.store (.arg index) (.inst a), .void, none⟩)]
            s = some (s.setCell a (some c)) := scalarMachine_store harg (ht.reserved a ha.slot)
        have hflat : top ++ List.flatten ([] : List (List Slot)) = top := List.append_nil top
        have hdeclared : Tracks H [⟨p.name, p.ty, .inst a, p.span, depth⟩ :: top]
            [(p.name, c) :: scope] (s.setCell a (some c)) :=
          ht.declare (hflat.symm ▸ hlaid) ha.above rfl hp
        obtain ⟨s', hrest, ht'⟩ := ih (hlaid.cons rfl ha hshape) hdeclared (hnext.symm ▸ hps)
        refine ⟨s', ?_, ?_⟩
        · rw [List.nil_append, Interp.execAll_append, hexec]
          exact hrest
        · rw [hnext] at ht'
          simpa using ht'

theorem Scalar.builtin_eq_of_typeName {c d : Scalar} (h : c.typeName = d.typeName) :
    c.builtin = d.builtin := by
  cases c <;> cases d <;> simp_all [typeName, builtin]

/-- Arguments of the declared types have the types of the parameters. -/
theorem Prototype.params_typed {decls : List ArgDecl} {params : List Param}
    (h : List.Forall₂ (fun a param => TypeTable.builtins.resolveName a.ty.name a.ty.span =
      .ok param.ty ∧ param.name = a.name.name) decls params)
    (hscalar : decls.all (·.ty.isScalar) = true) :
    ∀ {args : List Scalar}, args.map Scalar.typeName = decls.map (·.ty.name) →
      List.Forall₂ (fun p c => p.ty = c.builtin.id) params args ∧
        params.map (·.name) = decls.map (·.name.name) := by
  -- Parameters, their declarations and the arguments are walked through together.
  induction h with
  | nil =>
    intro args hargs
    rw [List.map_eq_nil_iff.1 hargs]
    exact ⟨.nil, rfl⟩
  | @cons a param _ _ hparam _ ih =>
    intro args hargs
    rw [List.all_cons, Bool.and_eq_true] at hscalar
    cases args with
    | nil => cases hargs
    | cons c cs =>
      obtain ⟨hc, hcs⟩ := List.cons.inj hargs
      obtain ⟨d, -, hd, hty, -⟩ := TypeName.resolve_scalar hscalar.1 hparam.1
      obtain ⟨htyped, hnames⟩ := ih hscalar.2 hcs
      have hsame : c.builtin = d.builtin := Scalar.builtin_eq_of_typeName (hc.trans hd.symm)
      refine ⟨.cons (hsame ▸ hty) htyped, ?_⟩
      rw [List.map_cons, List.map_cons, hnames, hparam.2]

/-- A function over integers and booleans has no result exactly if it says
    so, and otherwise the result is no float. -/
theorem Prototype.ret_scalar {ret : TypeId} (h : (ty.isScalar || ty.name == "void") = true)
    (hret : TypeTable.builtins.resolveName ty.name ty.span = .ok ret) :
    ret ≠ Builtin.float.id ∧ (ret = Builtin.void.id → ty.name = "void") := by
  rcases Bool.or_eq_true_iff.1 h with hscalar | hvoid
  · obtain ⟨d, -, -, hty, -⟩ := TypeName.resolve_scalar hscalar hret
    refine ⟨fun hf => d.builtin_ne_float (hty.symm.trans hf), fun hv => ?_⟩
    have hne : d.builtin.id ≠ Builtin.void.id := by cases d <;> simp [builtin]
    exact absurd (hty.symm.trans hv) hne
  · have hname : ty.name = Builtin.void.name := beq_iff_eq.1 hvoid
    rw [hname, TypeTable.builtins_resolveName] at hret
    refine ⟨fun hf => ?_, fun _ => hname⟩
    rw [← Except.ok.inj hret] at hf
    exact absurd (Builtin.id_eq_iff.1 hf) (by decide)

/-- The end of a body, where control stays in its code. -/
theorem BodyEnd.follows {o : Outcome Variables (Option Scalar)} (h : BodyEnd H ret top lo T T' hi)
    (hvoid : ret = Builtin.void.id → decl.prototype.ret.name = "void")
    (ho : Follows H [] top o (T.run (scalarMachine args) n s))
    (hends : ∀ s', T'.run (scalarMachine args) n s ≠ .done s')
    (hstays : ∀ j s', T'.run (scalarMachine args) n s ≠ .jumped j s') :
    Outcome.Related (fun _ _ => False) (fun _ _ => False) (decl.finish o)
      (T'.run (scalarMachine args) n s) := by
  cases h with
  | returns hT hret hd hin =>
    rw [Code.run] at hends hstays ⊢
    generalize T.run (scalarMachine args) n s = o' at ho hends hstays ⊢
    cases ho with
    | done ht =>
      -- Both run off the end of a function without result.
      have hslots : ∀ slot ∈ top, slot ∈ [top].flatten := fun slot hslot =>
        List.mem_append_left _ hslot
      obtain rfl := ht.agree.destroys_nothing hslots hd
      rw [FunctionDecl.finish, if_pos (hvoid hret)]
      exact .returned none
    | jumped j ht => exact absurd rfl (hstays j _)
    | returned r => exact .returned r
    | stuck => exact .stuck
    | timeout => exact .timeout
  | ended hT | sealed hT =>
    generalize T.run (scalarMachine args) n s = o' at ho hends hstays ⊢
    cases ho with
    | done ht => exact absurd rfl (hends _)
    | jumped j ht => exact absurd rfl (hstays j _)
    | returned r => exact .returned r
    | stuck => exact .stuck
    | timeout => exact .timeout

/-- Evaluation and the code of a body end alike. -/
theorem Body.Compiles.follows {p : Prototype}
    (hC : Body.Compiles ⟨.builtins, options⟩ functions H p lo decl.body C hi)
    (hdecl : decl.isScalar = true) (hp : Prototype.ofDecl .builtins decl.prototype = .ok p)
    (hargs : args.map Scalar.typeName = decl.prototype.args.map (·.ty.name))
    (hreserved : ∀ a ∈ H.body.slots 0, (s.cells a).isSome = true)
    (hends : ∀ s', C.run (scalarMachine args) n s ≠ .done s')
    (hstays : ∀ j s', C.run (scalarMachine args) n s ≠ .jumped j s') :
    Outcome.Related (fun _ _ => False) (fun _ _ => False) (decl.eval n args)
      (C.run (scalarMachine args) n s) := by
  obtain ⟨hscalar, hbody⟩ := Bool.and_eq_true_iff.1 hdecl
  obtain ⟨hsargs, hsret⟩ := Bool.and_eq_true_iff.1 hscalar
  obtain ⟨hret, hparams⟩ := Prototype.ofDecl_eq_ok hp
  obtain ⟨hfloat, hvoid⟩ := Prototype.ret_scalar hsret hret
  obtain ⟨htyped, hnames⟩ := Prototype.params_typed hparams hsargs hargs
  cases hC with
  | @intro m₁ m₂ _ l T T' top top' hbind hs hend =>
    -- Binding the arguments leads from the empty scope to the variables of the body.
    obtain ⟨s₁, hexec, ht⟩ := hbind.tracks (Laid.nil H lo) ⟨hreserved, .cons .nil .nil⟩ htyped
    rw [hnames, List.drop_zero, List.append_nil] at ht
    have hlaid : Laid H m₁ (top ++ List.flatten []) := by
      rw [List.flatten_nil, List.append_nil]
      exact hbind.laid (Laid.nil H lo)
    have hrun : (Code.seq (.line l) T').run (scalarMachine args) n s =
        T'.run (scalarMachine args) n s₁ := by
      simp only [Code.run, hexec, Outcome.ofOption, Outcome.andThen]
    rw [hrun] at hends hstays ⊢
    exact hend.follows hvoid (hs.follows hfloat hbody hlaid ht) hends hstays

end

/-- A run returns a value, gets stuck or goes on forever exactly if evaluation
    of the source does. -/
def IR.Function.Computes (F : Function) (decl : FunctionDecl) (args : List Scalar) : Prop :=
  (∀ r, F.Returns (scalarMachine args) (.start .empty) r ↔ ∃ n, decl.eval n args = .returned r) ∧
  (F.GetsStuck (scalarMachine args) (.start .empty) ↔ ∃ n, decl.eval n args = .stuck) ∧
  (F.Diverges (scalarMachine args) (.start .empty) ↔ ∀ n, decl.eval n args = .timeout)

section

variable {options : Options} {decl : FunctionDecl} {w w' : Work} {func : FuncId}

theorem Lower.function_computes (hdecl : decl.isScalar = true)
    (hscopes : w.symbols.scopes = .empty)
    (hnew : ∀ f, w.builder.module.function? func = some f → f.blocks = [])
    (hrun : (Lower.function ⟨.builtins, options⟩ decl).run w = (.ok func, w'))
    {args : List Scalar}
    (hargs : args.map Scalar.typeName = decl.prototype.args.map (·.ty.name)) :
    ∃ F, w'.builder.module.function? func = some F ∧ F.Computes decl args := by
  obtain ⟨p, f, F, hp, hblocks, hF, hbody⟩ := Lower.function_compiles hscopes hnew hrun
  have hregular : F.Regular := hbody.regular hblocks
  obtain ⟨C, hi, hfills, hC⟩ := hbody.code
  have hslots : (scalarMachine args).execAll F.slotLines .empty =
      some (Store.empty.reserve (F.slots 0)) := scalarMachine_slotLines F
  have hends := hfills.run_ne_done hregular hbody.verified hslots
  have hways := hfills.run_matches hregular hbody.verified hslots
  -- With the same fuel the source and its code end in the same way.
  have hsame : ∀ n, Outcome.Related (fun _ _ => False) (fun _ _ => False) (decl.eval n args)
      (C.run (scalarMachine args) n (Store.empty.reserve (F.slots 0))) := by
    intro n
    refine hC.follows hdecl hp hargs (fun a ha => Store.reserve_isSome ha .empty) (hends n)
      fun j s' hjump => ?_
    rcases hways n with ⟨r, h, -⟩ | ⟨h, -⟩ | ⟨h, -⟩ <;> rw [h] at hjump <;> cases hjump
  refine ⟨F, hF, fun r => ?_, ?_, ?_⟩
  · rw [hfills.returns_iff hregular hbody.verified hslots]
    exact exists_congr fun n => (hsame n).returned_iff
  · rw [hfills.getsStuck_iff hregular hbody.verified hslots]
    exact exists_congr fun n => (hsame n).stuck_iff
  · rw [hfills.diverges_iff hregular hbody.verified hslots]
    exact forall_congr' fun n => (hsame n).timeout_iff

/-- A compiled function over integers and booleans does what its source says:
    for all arguments of the declared types, a run returns a value, gets stuck
    or goes on forever exactly if evaluation does.  No variable is in scope
    when the function is compiled, and the function had no body before. -/
theorem Lower.function_preserves_meaning (hdecl : decl.isScalar = true)
    (hscopes : w.symbols.scopes = .empty)
    (hnew : ∀ f, w.builder.module.function? func = some f → f.blocks = [])
    (hrun : (Lower.function ⟨.builtins, options⟩ decl).run w = (.ok func, w'))
    {args : List Scalar}
    (hargs : args.map Scalar.typeName = decl.prototype.args.map (·.ty.name)) :
    ∃ F, w'.builder.module.function? func = some F ∧
      (∀ r, F.Returns (scalarMachine args) (.start .empty) r ↔
        ∃ n, decl.eval n args = .returned r) ∧
      (F.GetsStuck (scalarMachine args) (.start .empty) ↔ ∃ n, decl.eval n args = .stuck) ∧
      (F.Diverges (scalarMachine args) (.start .empty) ↔ ∀ n, decl.eval n args = .timeout) :=
  Lower.function_computes hdecl hscopes hnew hrun hargs

end

/-- Adds up the numbers from `n` down to one, leaving out the odd ones unless
    `all` is set. -/
def total : FunctionDecl :=
  let int : TypeName := ⟨"int", .unknown⟩
  let n : Ident := ⟨"n", .unknown⟩
  let all : Ident := ⟨"all", .unknown⟩
  let sum : Ident := ⟨"sum", .unknown⟩
  let half : Ident := ⟨"half", .unknown⟩
  let lit (i : Int32) : Expr := .literal (.int i) .unknown
  let bin (op : BinaryOp) (a b : Expr) : Expr := .binary op a b .unknown
  let set (x : Ident) (e : Expr) : Stmt := .expr (.assign x e .unknown) .unknown
  let even : Expr := bin .ne (bin .mul (.var half) (lit 2)) (bin .add (.var n) (lit 1))
  { prototype := ⟨⟨"total", .unknown⟩, none, int,
      [⟨n, int, .unknown⟩, ⟨all, ⟨"bool", .unknown⟩, .unknown⟩], .unknown⟩
    body := [
      .decl int sum none .unknown,
      .loop (.literal (.bool true) .unknown)
        (.block [
          .ifThen (bin .le (.var n) (lit 0)) (.breakLoop .unknown) .unknown,
          .decl int half (some (bin .div (bin .add (.var n) (lit 1)) (lit 2))) .unknown,
          .ifThen (bin .and (.unary .not (.var all) .unknown) (.unary .not even .unknown))
            (.block [set n (bin .sub (.var n) (lit 1)), .continueLoop .unknown] .unknown) .unknown,
          set sum (bin .add (.var sum) (.var n)),
          set n (bin .sub (.var n) (lit 1))] .unknown) .unknown,
      .ret (some (.var sum)) .unknown]
    bodySpan := .unknown }

/-- The even numbers up to six add up to twelve. -/
theorem total_preserves_meaning :
    ((Lower.function ⟨.builtins, .default⟩ total).run (.initial "sums")).1 = .ok 0 ∧
    ∃ F, ((Lower.function ⟨.builtins, .default⟩ total).run
        (.initial "sums")).2.builder.module.function? 0 = some F ∧
      F.Returns (scalarMachine [.int 6, .bool false]) (.start .empty) (some (.int 12)) := by
  have hok : ((Lower.function ⟨.builtins, .default⟩ total).run (.initial "sums")).1 = .ok 0 := by
    decide +kernel
  have hnew : ∀ f, (Work.initial "sums").builder.module.function? 0 = some f → f.blocks = [] := by
    intro f hf
    cases hf
  have hargs : List.map Scalar.typeName [.int 6, .bool false] =
      total.prototype.args.map (·.ty.name) := by decide
  have heval : total.eval 7 [.int 6, .bool false] = .returned (some (.int 12)) := by rfl
  obtain ⟨F, hF, hreturns, -, -⟩ :=
    Lower.function_preserves_meaning (by decide) rfl hnew (Act.run_eq_of_fst hok) hargs
  exact ⟨hok, F, hF, (hreturns _).2 ⟨7, heval⟩⟩

/-- In a session nothing has to be asked of the state.  Between two items no
    variable is in scope, and a definition that is accepted finds its function
    without a body. -/
theorem session_function_computes (name : String) (units : List SourceUnit) {options : Options}
    {func : FuncId} {w : Work} (hdecl : decl.isScalar = true)
    (hrun : (Lower.function ⟨.builtins, options⟩ decl).run (session (.empty name) units).work =
      (.ok func, w)) {args : List Scalar}
    (hargs : args.map Scalar.typeName = decl.prototype.args.map (·.ty.name)) :
    ∃ F, w.builder.module.function? func = some F ∧ F.Computes decl args :=
  Lower.function_computes hdecl (session_idle (.empty name) units).scopes
    ((session_inStep name units).new_of_accepted hrun) hrun hargs

end Shading
