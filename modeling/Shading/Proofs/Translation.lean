import Shading.Lower.Function
import Shading.Proofs.Operators

/-! # Which code stands for a program

    `Expr.Compiles` and `Stmt.Compiles` relate syntax trees to structured
    code, without builders, cursors and blocks.  Everything that the emitted
    code does is proved from these relations alone; that lowering keeps to
    them is proved once.

    The numbers around each tree say which instructions belong to its code:
    those from the first number up to the second. -/

namespace Shading

open IR

/-! ## Expressions -/

/-- One store. -/
def StoreLine (H : Host) (v p : Value) (l : Lines) : Prop :=
  ∃ ty, H.HasType p (.ptr ty) ∧ H.HasType v ty ∧ ∃ id, l = [(id, ⟨.store v p, .void, none⟩)]

/-- One call of a function of the module. -/
def CallLine (H : Host) (callee : FuncId) (args : List Value) (v : Value) (l : Lines) : Prop :=
  ∃ id name sig, H.module.Declares callee name sig ∧ v = Build.callResult sig.ret id ∧
    l = [(id, ⟨.call callee args, sig.ret, none⟩)]

section

variable (env : Env) (functions : Functions) (H : Host) (scopes : Scopes)

mutual

/-- The code of an expression and its result. -/
inductive Expr.Compiles : Nat → Expr → Code → ExprValue → Nat → Prop
  | literal {lo : Nat} {v : Literal} {span : Span} :
    Expr.Compiles lo (.literal v span) (.line []) (Lower.literal v) lo
  | var {lo hi : Nat} {x : Ident} {slot : Slot} {ty : Ty} {v : Value} {l : Lines}
    (hslot : scopes.lookup? x.name = some slot) (hty : H.HasType slot.ptr (.ptr ty))
    (hload : Build.OneInst H (.load slot.ptr) ty v l) (hin : Code.Within lo hi (.line l)) :
    Expr.Compiles lo (.var x) (.line l) ⟨slot.ty, v, false⟩ hi
  | unary {lo mid hi : Nat} {op : UnaryOp} {e : Expr} {span : Span} {T : Code} {x : ExprValue}
    {r : Typed} {l l' : Lines} (he : Expr.Compiles lo e T x mid)
    (hop : UnaryLine H op x.typed r l) (hx : ReleaseLine H x l')
    (hin : Code.Within mid hi (.line (l ++ l'))) :
    Expr.Compiles lo (.unary op e span) (.seq T (.line (l ++ l'))) (.ofTyped r) hi
  | binary {lo mid mid' hi : Nat} {op : BinaryOp} {a b : Expr} {span : Span} {Ta Tb : Code}
    {x y : ExprValue} {r : Typed} {l lx ly : Lines} (hlog : op.isLogical = false)
    (ha : Expr.Compiles lo a Ta x mid) (hb : Expr.Compiles mid b Tb y mid')
    (hop : BinaryLine H op x.typed y.typed r l) (hx : ReleaseLine H x lx)
    (hy : ReleaseLine H y ly) (hin : Code.Within mid' hi (.line (l ++ (lx ++ ly)))) :
    Expr.Compiles lo (.binary op a b span) (.seq Ta (.seq Tb (.line (l ++ (lx ++ ly)))))
      (.ofTyped r) hi
  /-- The branch around the right operand is an instruction of its own. -/
  | logical {lo m₁ m₂ m₃ hi : Nat} {op : BinaryOp} {a b : Expr} {span : Span} {Ta Tb : Code}
    {x y : ExprValue} {id : InstId} (hlog : op.isLogical = true)
    (ha : Expr.Compiles lo a Ta x m₁) (hx : x.ty = Builtin.bool.id) (h₁₂ : m₁ ≤ m₂)
    (hb : Expr.Compiles m₂ b Tb y m₃) (hy : y.ty = Builtin.bool.id) (hid : m₃ ≤ id)
    (hhi : id < hi) (hty : H.HasType (.inst id) .bool) :
    Expr.Compiles lo (.binary op a b span)
      (.seq Ta (.shortcut (op == .and) x.value Tb y.value id)) ⟨Builtin.bool.id, .inst id, true⟩ hi
  | assign {lo mid hi : Nat} {x : Ident} {e : Expr} {span : Span} {slot : Slot} {T : Code}
    {y z : ExprValue} {v : Value} {l₁ l₂ l₃ l₄ : Lines}
    (hslot : scopes.lookup? x.name = some slot) (he : Expr.Compiles lo e T y mid)
    (hc : CoerceLine H y slot.ty z l₁) (hm : MaterializeLine H z v l₂)
    (hd : DestroySlotLine H slot l₃) (hs : StoreLine H v slot.ptr l₄)
    (hin : Code.Within mid hi (.line (l₁ ++ (l₂ ++ (l₃ ++ l₄))))) :
    Expr.Compiles lo (.assign x e span) (.seq T (.line (l₁ ++ (l₂ ++ (l₃ ++ l₄)))))
      ⟨slot.ty, v, false⟩ hi
  | call {lo mid hi : Nat} {f : Ident} {args : List Expr} {span : Span} {T : Code}
    {xs : List ExprValue} {chosen : Candidate} {entry : Entry} {vs : List Value} {v : Value}
    {l₁ l₂ l₃ : Lines} (hargs : Expr.CompilesAll lo args T xs mid)
    (hchosen : functions.resolve env.types env.options f.name (xs.map (·.ty)) span = .ok chosen)
    (hentry : functions.entry chosen.entry = .ok entry)
    (hconv : ConvertLines H xs chosen.conversions vs l₁) (hcall : CallLine H entry.func vs v l₂)
    (hrel : Each (ReleaseLine H) xs l₃) (hin : Code.Within mid hi (.line (l₁ ++ (l₂ ++ l₃)))) :
    Expr.Compiles lo (.call f args span) (.seq T (.line (l₁ ++ (l₂ ++ l₃))))
      ⟨entry.prototype.ret, v, true⟩ hi
  | construct {lo mid hi : Nat} {ty : TypeName} {args : List Expr} {span : Span} {T : Code}
    {xs : List ExprValue} {r : Typed} {l l' : Lines} (hargs : Expr.CompilesAll lo args T xs mid)
    (hc : ConstructLine H (xs.map (·.typed)) r l) (hrel : Each (ReleaseLine H) xs l')
    (hin : Code.Within mid hi (.line (l ++ l'))) :
    Expr.Compiles lo (.construct ty args span) (.seq T (.line (l ++ l'))) (.ofTyped r) hi

/-- The code of expressions from left to right. -/
inductive Expr.CompilesAll : Nat → List Expr → Code → List ExprValue → Nat → Prop
  | nil {lo : Nat} : Expr.CompilesAll lo [] (.line []) [] lo
  | cons {lo mid hi : Nat} {e : Expr} {es : List Expr} {T Ts : Code} {x : ExprValue}
    {xs : List ExprValue} (he : Expr.Compiles lo e T x mid)
    (hes : Expr.CompilesAll mid es Ts xs hi) :
    Expr.CompilesAll lo (e :: es) (.seq T Ts) (x :: xs) hi

end

end

/-! ## Statements -/

/-- The end of a scope: its variables are destroyed, the latest one first,
    if control gets there. -/
inductive ScopeEnd (H : Host) (top : List Slot) (lo : Nat) (T : Code) : Code → Nat → Prop
  | ended (h : T.ends = true) : ScopeEnd H top lo T T lo
  | left {hi : Nat} {l : Lines} (h : T.ends = false) (hd : Each (DestroySlotLine H) top l)
    (hin : Code.Within lo hi (.line l)) : ScopeEnd H top lo T (.seq T (.line l)) hi

/-- The address of a new variable: a slot that no earlier code knows. -/
structure FreshSlot (H : Host) (lo hi : Nat) (ty : Ty) (a : InstId) : Prop where
  above : lo ≤ a
  below : a < hi
  slot : a ∈ H.body.slots 0
  hasType : H.HasType (.inst a) (.ptr ty)

section

variable (env : Env) (functions : Functions) (H : Host)

/-- The first value of a variable. -/
inductive Stmt.Initial (scopes : Scopes) (ty : TypeId) :
    Nat → Option Expr → Code → Value → Nat → Prop
  | given {lo mid hi : Nat} {e : Expr} {T : Code} {y z : ExprValue} {v : Value} {l l' : Lines}
    (he : Expr.Compiles env functions H scopes lo e T y mid) (hc : CoerceLine H y ty z l)
    (hm : MaterializeLine H z v l') (hin : Code.Within mid hi (.line (l ++ l'))) :
    Stmt.Initial scopes ty lo (some e) (.seq T (.line (l ++ l'))) v hi
  | default {lo hi : Nat} {v : Value} {l : Lines} (hd : DefaultLine H ty v l)
    (hin : Code.Within lo hi (.line l)) : Stmt.Initial scopes ty lo none (.line l) v hi

variable (ret : TypeId)

/-- The value of a `return`. -/
inductive Stmt.Result (scopes : Scopes) : Nat → Option Expr → Code → Option Value → Nat → Prop
  | none {lo : Nat} (h : ret = Builtin.void.id) : Stmt.Result scopes lo none (.line []) none lo
  | some {lo mid hi : Nat} {e : Expr} {T : Code} {y z : ExprValue} {v : Value} {l l' : Lines}
    (h : ret ≠ Builtin.void.id) (he : Expr.Compiles env functions H scopes lo e T y mid)
    (hc : CoerceLine H y ret z l) (hm : MaterializeLine H z v l')
    (hin : Code.Within mid hi (.line (l ++ l'))) :
    Stmt.Result scopes lo (some e) (.seq T (.line (l ++ l'))) (some v) hi

/-- The jump that a statement makes, if it makes one. -/
def Stmt.jump? : Stmt → Option Jump
  | .breakLoop _ => some .breakLoop
  | .continueLoop _ => some .continueLoop
  | _ => none

variable (base : Nat)

mutual

/-- The code of a statement in a function with the given result type, whose
    arguments stand at depth `base`.  The variables of the innermost scope are
    `top`, those around it `outer`; the body of the innermost loop stands at
    depth `loop`. -/
inductive Stmt.Compiles : Option Nat → List (List Slot) →
    Nat → List Slot → Stmt → Code → List Slot → Nat → Prop
  | expr {loop : Option Nat} {outer : List (List Slot)} {top : List Slot} {lo mid hi : Nat}
    {e : Expr} {span : Span} {T : Code} {x : ExprValue} {l : Lines}
    (he : Expr.Compiles env functions H (.of (top :: outer)) lo e T x mid) (hx : ReleaseLine H x l)
    (hin : Code.Within mid hi (.line l)) :
    Stmt.Compiles loop outer lo top (.expr e span) (.seq T (.line l)) top hi
  | decl {loop : Option Nat} {outer : List (List Slot)} {top : List Slot} {lo mid hi : Nat}
    {ty : TypeName} {name : Ident} {init : Option Expr} {span : Span} {id : TypeId} {shape : Ty}
    {T : Code} {v : Value} {a : InstId} {l : Lines}
    (hty : env.types.resolveName ty.name ty.span = .ok id) (hvoid : id ≠ Builtin.void.id)
    (hshape : env.types.representation id = .ok shape)
    (hfree : Scopes.findIn top name.name = none)
    (hinit : Stmt.Initial env functions H (.of (top :: outer)) id lo init T v mid)
    (ha : FreshSlot H mid hi shape a) (hs : StoreLine H v (.inst a) l)
    (hin : Code.Within mid hi (.line l)) :
    Stmt.Compiles loop outer lo top (.decl ty name init span) (.seq T (.line l))
      (⟨name.name, id, .inst a, name.span, outer.length + 1⟩ :: top) hi
  | ret {loop : Option Nat} {outer : List (List Slot)} {top : List Slot} {lo mid hi : Nat}
    {value : Option Expr} {span : Span} {T : Code} {v : Option Value} {l : Lines}
    (hv : Stmt.Result env functions H ret (.of (top :: outer)) lo value T v mid)
    (hd : Each (DestroySlotLine H) (Scopes.liveFrom (.of (top :: outer)) base).reverse l)
    (hin : Code.Within mid hi (.line l)) :
    Stmt.Compiles loop outer lo top (.ret value span) (.seq T (.seq (.line l) (.ret v))) top hi
  | jump {depth : Nat} {outer : List (List Slot)} {top : List Slot} {lo hi : Nat} {s : Stmt}
    {j : Jump} {l : Lines} (hj : s.jump? = some j)
    (hd : Each (DestroySlotLine H) (Scopes.liveFrom (.of (top :: outer)) depth).reverse l)
    (hin : Code.Within lo hi (.line l)) :
    Stmt.Compiles (some depth) outer lo top s (.seq (.line l) (.leave j)) top hi
  | block {loop : Option Nat} {outer : List (List Slot)} {top top' : List Slot} {lo mid hi : Nat}
    {stmts : List Stmt} {span : Span} {T T' : Code}
    (hs : Stmt.CompilesAll loop (top :: outer) lo [] stmts T top' mid)
    (hend : ScopeEnd H top' mid T T' hi) :
    Stmt.Compiles loop outer lo top (.block stmts span) T' top hi
  | ifThen {loop : Option Nat} {outer : List (List Slot)} {top top' : List Slot}
    {lo m₁ m₂ m₃ m₄ hi : Nat} {c : Expr} {t : Stmt} {span : Span} {Tc T T' : Code} {x : ExprValue}
    (hc : Expr.Compiles env functions H (.of (top :: outer)) lo c Tc x m₁) (hx : x.ty = Builtin.bool.id)
    (h₁₂ : m₁ ≤ m₂) (ht : Stmt.Compiles loop (top :: outer) m₂ [] t T top' m₃)
    (hend : ScopeEnd H top' m₃ T T' m₄) (hhi : m₄ ≤ hi) :
    Stmt.Compiles loop outer lo top (.ifThen c t span) (.seq Tc (.ifThen x.value T')) top hi
  | ifThenElse {loop : Option Nat} {outer : List (List Slot)} {top top₁ top₂ : List Slot}
    {lo m₁ m₂ m₃ m₄ m₅ m₆ hi : Nat} {c : Expr} {t e : Stmt} {span : Span}
    {Tc T₁ T₁' T₂ T₂' : Code} {x : ExprValue}
    (hc : Expr.Compiles env functions H (.of (top :: outer)) lo c Tc x m₁) (hx : x.ty = Builtin.bool.id)
    (h₁₂ : m₁ ≤ m₂) (ht : Stmt.Compiles loop (top :: outer) m₂ [] t T₁ top₁ m₃)
    (hend₁ : ScopeEnd H top₁ m₃ T₁ T₁' m₄)
    (he : Stmt.Compiles loop (top :: outer) m₄ [] e T₂ top₂ m₅)
    (hend₂ : ScopeEnd H top₂ m₅ T₂ T₂' m₆) (hhi : m₆ ≤ hi) :
    Stmt.Compiles loop outer lo top (.ifThenElse c t e span)
      (.seq Tc (.ifThenElse x.value T₁' T₂')) top hi
  | loop {loop : Option Nat} {outer : List (List Slot)} {top top' : List Slot}
    {lo m₁ m₂ m₃ m₄ m₅ hi : Nat} {c : Expr} {b : Stmt} {span : Span} {Tc T T' : Code}
    {x : ExprValue} (h₁ : lo ≤ m₁)
    (hc : Expr.Compiles env functions H (.of (top :: outer)) m₁ c Tc x m₂) (hx : x.ty = Builtin.bool.id)
    (h₂₃ : m₂ ≤ m₃)
    (hb : Stmt.Compiles (some (outer.length + 2)) (top :: outer) m₃ [] b T top' m₄)
    (hend : ScopeEnd H top' m₄ T T' m₅) (hhi : m₅ ≤ hi) :
    Stmt.Compiles loop outer lo top (.loop c b span) (.loop Tc x.value T') top hi

/-- The code of statements in one scope.  What follows the end of a block is
    dropped. -/
inductive Stmt.CompilesAll : Option Nat → List (List Slot) →
    Nat → List Slot → List Stmt → Code → List Slot → Nat → Prop
  | nil {loop : Option Nat} {outer : List (List Slot)} {lo : Nat} {top : List Slot} :
    Stmt.CompilesAll loop outer lo top [] (.line []) top lo
  | ended {loop : Option Nat} {outer : List (List Slot)} {lo hi : Nat} {top top' : List Slot}
    {s : Stmt} {rest : List Stmt} {T : Code} (hs : Stmt.Compiles loop outer lo top s T top' hi)
    (hend : T.ends = true) : Stmt.CompilesAll loop outer lo top (s :: rest) T top' hi
  | cons {loop : Option Nat} {outer : List (List Slot)} {lo mid hi : Nat}
    {top top' top'' : List Slot} {s : Stmt} {rest : List Stmt} {T Ts : Code}
    (hs : Stmt.Compiles loop outer lo top s T top' mid) (hend : T.ends = false)
    (hrest : Stmt.CompilesAll loop outer mid top' rest Ts top'' hi) :
    Stmt.CompilesAll loop outer lo top (s :: rest) (.seq T Ts) top'' hi

end

end

/-! ## Variables in scope -/

theorem Scopes.mem_flatten_of_lookup? {scopes : Scopes} {x : String} {slot : Slot}
    (h : scopes.lookup? x = some slot) : slot ∈ scopes.stack.flatten := by
  rw [lookup?_eq] at h
  obtain ⟨scope, hscope, hfind⟩ := List.exists_of_findSome?_eq_some h
  exact List.mem_flatten.2 ⟨scope, hscope, List.mem_of_find?_eq_some hfind⟩

theorem Scopes.liveFrom_reverse (stack : List (List Slot)) (depth : Nat) :
    (liveFrom (.of stack) depth).reverse = (stack.take (stack.length + 1 - depth)).flatten := by
  have htake : stack.take (stack.length - (depth - 1)) = stack.take (stack.length + 1 - depth) := by
    cases depth with
    | zero => rw [List.take_of_length_le (by omega), List.take_of_length_le (by omega)]
    | succ n => rw [Nat.add_sub_cancel, Nat.add_sub_add_right]
  rw [liveFrom_of, List.reverse_flatMap, List.drop_reverse, List.reverse_reverse, htake]
  simp

theorem Scopes.mem_flatten_of_mem_liveFrom {stack : List (List Slot)} {depth : Nat} {slot : Slot}
    (h : slot ∈ (liveFrom (.of stack) depth).reverse) : slot ∈ stack.flatten := by
  rw [List.mem_reverse, liveFrom_of, List.mem_flatMap] at h
  obtain ⟨scope, hscope, hslot⟩ := h
  have hstack : scope ∈ stack := List.mem_reverse.1 (List.mem_of_mem_drop hscope)
  exact List.mem_flatten.2 ⟨scope, hstack, List.mem_reverse.1 hslot⟩

/-! ## Numbers of instructions -/

section

variable {env : Env} {functions : Functions} {H : Host} {scopes : Scopes}

mutual

/-- The code of an expression has the numbers around it. -/
theorem Expr.Compiles.within {lo hi : Nat} {e : Expr} {T : Code} {x : ExprValue}
    (h : Expr.Compiles env functions H scopes lo e T x hi) : T.Within lo hi := by
  cases h with
  | literal => exact Code.Within.nil lo
  | var hslot hty hload hin => exact hin
  | unary he hop hx hin => exact he.within.seq hin
  | binary hlog ha hb hop hx hy hin => exact ha.within.seq (hb.within.seq hin)
  | logical hlog ha hx h₁₂ hb hy hid hhi hty =>
    -- The merge stands behind both operands.
    refine ha.within.seq ⟨?_, fun i hi => ?_⟩
    · exact h₁₂.trans (hb.within.1.trans (hid.trans (Nat.le_of_lt hhi)))
    · have hb' := hb.within.weaken h₁₂ (hid.trans (Nat.le_of_lt hhi))
      rcases List.mem_append.1 hi with hi | hi
      · exact hb'.2 i hi
      · obtain rfl := List.mem_singleton.1 hi
        exact ⟨h₁₂.trans (hb.within.1.trans hid), hhi⟩
  | assign hslot he hc hm hd hs hin => exact he.within.seq hin
  | call hargs hchosen hentry hconv hcall hrel hin => exact hargs.within.seq hin
  | construct hargs hc hrel hin => exact hargs.within.seq hin

theorem Expr.CompilesAll.within {lo hi : Nat} {es : List Expr} {T : Code} {xs : List ExprValue}
    (h : Expr.CompilesAll env functions H scopes lo es T xs hi) : T.Within lo hi := by
  cases h with
  | nil => exact Code.Within.nil lo
  | cons he hes => exact he.within.seq hes.within

end

theorem ScopeEnd.within {top : List Slot} {lo mid hi : Nat} {T T' : Code}
    (h : ScopeEnd H top mid T T' hi) (hT : T.Within lo mid) : T'.Within lo hi := by
  cases h with
  | ended h => exact hT
  | left h hd hin => exact hT.seq hin

theorem Stmt.Initial.within {ty : TypeId} {lo hi : Nat} {init : Option Expr} {T : Code} {v : Value}
    (h : Stmt.Initial env functions H scopes ty lo init T v hi) : T.Within lo hi := by
  cases h with
  | given he hc hm hin => exact he.within.seq hin
  | default hd hin => exact hin

theorem Stmt.Result.within {ret : TypeId} {lo hi : Nat} {value : Option Expr} {T : Code}
    {v : Option Value} (h : Stmt.Result env functions H ret scopes lo value T v hi) :
    T.Within lo hi := by
  cases h with
  | none h => exact Code.Within.nil lo
  | some h he hc hm hin => exact he.within.seq hin

mutual

/-- The code of a statement has the numbers around it. -/
theorem Stmt.Compiles.within {ret : TypeId} {base : Nat} {loop : Option Nat}
    {outer : List (List Slot)} {lo hi : Nat} {top top' : List Slot} {s : Stmt} {T : Code}
    (h : Stmt.Compiles env functions H ret base loop outer lo top s T top' hi) :
    T.Within lo hi := by
  -- The parts of a statement number their instructions one behind the other.
  cases h with
  | expr he hx hin => exact he.within.seq hin
  | decl hty hvoid hshape hfree hinit ha hs hin => exact hinit.within.seq hin
  | ret hv hd hin => exact hv.within.seq (hin.seq_end rfl)
  | jump hj hd hin => exact hin.seq_end rfl
  | block hs hend => exact hend.within hs.within
  | ifThen hc hx h₁₂ ht hend hhi =>
    have hbody := (hend.within ht.within).weaken h₁₂ hhi
    exact hc.within.seq ⟨hbody.1, hbody.2⟩
  | ifThenElse hc hx h₁₂ ht hend₁ he hend₂ hhi =>
    have hthen := hend₁.within ht.within
    have helse := hend₂.within he.within
    have hboth := (hthen.seq helse).weaken h₁₂ hhi
    exact hc.within.seq ⟨hboth.1, hboth.2⟩
  | loop h₁ hc hx h₂₃ hb hend hhi =>
    have hbody := (hend.within hb.within).weaken h₂₃ hhi
    have hall := (hc.within.seq hbody).weaken h₁ (Nat.le_refl _)
    exact ⟨hall.1, hall.2⟩

theorem Stmt.CompilesAll.within {ret : TypeId} {base : Nat} {loop : Option Nat}
    {outer : List (List Slot)} {lo hi : Nat} {top top' : List Slot} {stmts : List Stmt} {T : Code}
    (h : Stmt.CompilesAll env functions H ret base loop outer lo top stmts T top' hi) :
    T.Within lo hi := by
  cases h with
  | nil => exact Code.Within.nil lo
  | ended hs hend => exact hs.within
  | cons hs hend hrest => exact hs.within.seq hrest.within

end

end

/-! ## Bodies -/

/-- The code that binds arguments: each is copied into a slot of its own.
    The first number is that of the next instruction, the second one that of
    the next argument.  The slots stand in a scope at the given depth. -/
inductive Arguments (types : TypeTable) (H : Host) (depth : Nat) :
    Nat → Nat → List Slot → List Param → Lines → List Slot → Nat → Prop
  | nil {lo index : Nat} {top : List Slot} : Arguments types H depth lo index top [] [] top lo
  | cons {lo mid hi index : Nat} {top top' : List Slot} {p : Param} {ps : List Param} {shape : Ty}
    {a : InstId} {v : Value} {l₁ l₂ l : Lines} (hshape : types.representation p.ty = .ok shape)
    (hfree : Scopes.findIn top p.name = none) (ha : FreshSlot H lo mid shape a)
    (hcopy : CopyLine H p.ty (.arg index) v l₁) (hs : StoreLine H v (.inst a) l₂)
    (hin : Code.Within lo mid (.line (l₁ ++ l₂)))
    (rest : Arguments types H depth mid (index + 1)
      (⟨p.name, p.ty, .inst a, p.span, depth⟩ :: top) ps l top' hi) :
    Arguments types H depth lo index top (p :: ps) ((l₁ ++ l₂) ++ l) top' hi

/-- The end of a body.  Where control gets to the end of a function without
    result, its variables are destroyed and it returns. -/
inductive BodyEnd (H : Host) (ret : TypeId) (top : List Slot) (lo : Nat) (T : Code) :
    Code → Nat → Prop
  | ended (h : T.ends = true) : BodyEnd H ret top lo T T lo
  | returns {hi : Nat} {l : Lines} (h : T.ends = false) (hret : ret = Builtin.void.id)
    (hd : Each (DestroySlotLine H) top l) (hin : Code.Within lo hi (.line l)) :
    BodyEnd H ret top lo T (.seq T (.seq (.line l) (.ret none))) hi
  /-- Control does not get there. -/
  | sealed (h : T.ends = false) : BodyEnd H ret top lo T T lo

/-- The code of a whole body. -/
inductive Body.Compiles (env : Env) (functions : Functions) (H : Host) (p : Prototype) (lo : Nat)
    (stmts : List Stmt) : Code → Nat → Prop
  | intro {m₁ m₂ hi : Nat} {l : Lines} {T T' : Code} {top top' : List Slot}
    (hargs : Arguments env.types H 1 lo 0 [] p.params l top m₁)
    (hs : Stmt.CompilesAll env functions H p.ret 1 none [] m₁ top stmts T top' m₂)
    (hend : BodyEnd H p.ret top' m₂ T T' hi) :
    Body.Compiles env functions H p lo stmts (.seq (.line l) T') hi

end Shading
