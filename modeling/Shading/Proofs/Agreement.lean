import Mathlib.Data.List.Forall2
import Shading.Proofs.ScalarMachine

/-! # Variables and their slots

    A state of a run agrees with the variables of a program if each variable
    has a slot that holds its value.  Main result: the code of an expression
    computes what the expression means, and afterwards the two agree again
    (`Expr.Compiles.evaluates`). -/

namespace Shading

open IR Scalar

variable {c y : Scalar} {l : Lines} {p v : Value} {hi mid n : Nat} {op : BinaryOp}
    {ta tb ty : TypeId} {a id : InstId} {meaning : Option Scalar} {pred : CmpPred} {r : Typed}

/-! ## Types -/

namespace Scalar

/-- The type of a value. -/
def builtin : Scalar → Builtin
  | int _ => .int
  | bool _ => .bool

/-- The shape of a value in generated code. -/
def shape : Scalar → Ty
  | int _ => .i32
  | bool _ => .bool

theorem builtin_ne_dfunc (c : Scalar) : c.builtin.id ≠ Builtin.dfunc.id := by
  cases c <;> simp [builtin]

theorem builtin_ne_float (c : Scalar) : c.builtin.id ≠ Builtin.float.id := by
  cases c <;> simp [builtin]

theorem builtin_isIntegral (c : Scalar) : c.builtin.id.IsIntegral := by
  cases c <;> simp [builtin, TypeId.IsIntegral]

theorem eq_int_of_builtin (h : c.builtin.id = Builtin.int.id) : ∃ a, c = int a := by
  cases c with
  | int a => exact ⟨a, rfl⟩
  | bool b => simp [builtin] at h

theorem eq_bool_of_builtin (h : c.builtin.id = Builtin.bool.id) : ∃ b, c = bool b := by
  cases c with
  | int a => simp [builtin] at h
  | bool b => exact ⟨b, rfl⟩

theorem shape_of_representation {t : Ty}
    (h : TypeTable.builtins.representation c.builtin.id = .ok t) : t = c.shape := by
  rw [TypeTable.builtins_representation] at h
  cases c <;> exact (Option.some.inj h).symm

theorem shape_ne_float (c : Scalar) : (c.shape == Ty.f32) = false := by cases c <;> rfl

end Scalar

/-! ## Agreement -/

/-- A slot holds the value of a variable. -/
structure Bound (s : Store Scalar) (slot : Slot) (b : String × Scalar) : Prop where
  name : slot.name = b.1
  ty : slot.ty = b.2.builtin.id
  holds : s.load? slot.ptr = some b.2

/-- Each variable has its slot, scope by scope. -/
def Agree (s : Store Scalar) (stack : List (List Slot)) (vars : Variables) : Prop :=
  List.Forall₂ (List.Forall₂ (Bound s)) stack vars

section

variable {s s' : Store Scalar} {scope : List Slot} {bindings : Bindings} {stack : List (List Slot)}
  {vars : Variables} {x : String} {slot : Slot}

theorem Bound.of_load {b : String × Scalar} (h : Bound s slot b)
    (hload : s'.load? slot.ptr = s.load? slot.ptr) : Bound s' slot b :=
  ⟨h.name, h.ty, hload.trans h.holds⟩

theorem Bound.forall_of_load (h : List.Forall₂ (Bound s) scope bindings)
    (hload : ∀ slot ∈ scope, s'.load? slot.ptr = s.load? slot.ptr) :
    List.Forall₂ (Bound s') scope bindings := by
  induction h with
  | nil => exact .nil
  | cons hb _ ih =>
    exact .cons (hb.of_load (hload _ (List.mem_cons_self ..)))
      (ih fun slot hslot => hload slot (List.mem_cons_of_mem _ hslot))

/-- Agreement depends on the slots of the variables alone. -/
theorem Agree.of_load (h : Agree s stack vars)
    (hload : ∀ slot ∈ stack.flatten, s'.load? slot.ptr = s.load? slot.ptr) :
    Agree s' stack vars := by
  induction h with
  | nil => exact .nil
  | cons hscope _ ih =>
    rw [List.flatten_cons] at hload
    exact .cons (Bound.forall_of_load hscope fun slot hslot =>
        hload slot (List.mem_append_left _ hslot))
      (ih fun slot hslot => hload slot (List.mem_append_right _ hslot))

theorem Agree.setReg (h : Agree s stack vars) (id : InstId) (c : Scalar) :
    Agree (s.setReg id c) stack vars := h.of_load fun slot _ => by cases slot.ptr <;> rfl

/-- One scope: a name is found on both sides or on neither. -/
theorem Bound.find (h : List.Forall₂ (Bound s) scope bindings) (x : String) :
    (∃ slot c, Scopes.findIn scope x = some slot ∧ bindings.get? x = some c ∧
      slot ∈ scope ∧ slot.ty = c.builtin.id ∧ s.load? slot.ptr = some c) ∨
    (Scopes.findIn scope x = none ∧ bindings.get? x = none) := by
  -- Both searches look at the same names in the same order.
  induction h with
  | nil => exact .inr ⟨rfl, rfl⟩
  | @cons slot b scope bindings hb _ ih =>
    by_cases hx : slot.name == x
    · have hx' : b.1 == x := hb.name ▸ hx
      refine .inl ⟨slot, b.2, ?_, ?_, List.mem_cons_self .., hb.ty, hb.holds⟩
      · simp [Scopes.findIn, hx]
      · simp [Bindings.get?, hx']
    · have hx' : (b.1 == x) = false := by rw [← hb.name]; exact eq_false_of_ne_true hx
      have hfind : Scopes.findIn (slot :: scope) x = Scopes.findIn scope x := by
        simp [Scopes.findIn, hx]
      have hget : Bindings.get? (b :: bindings) x = Bindings.get? bindings x := by
        simp [Bindings.get?, hx']
      rw [hfind, hget]
      rcases ih with ⟨found, c, hfound, hc, hmem, hrest⟩ | hnone
      · exact .inl ⟨found, c, hfound, hc, List.mem_cons_of_mem _ hmem, hrest⟩
      · exact .inr hnone

/-- The slot of a name holds the value of the variable that the name means. -/
theorem Agree.lookup (h : Agree s stack vars) (hslot : Scopes.lookup? (.of stack) x = some slot) :
    ∃ c, vars.get? x = some c ∧ slot ∈ stack.flatten ∧ slot.ty = c.builtin.id ∧
      s.load? slot.ptr = some c := by
  -- By induction on the scopes: the innermost one that knows the name decides on both sides.
  induction h with
  | nil => cases hslot
  | @cons scope bindings stack vars hscope _ ih =>
    have hget : Variables.get? (bindings :: vars) x =
        (bindings.get? x).or (Variables.get? vars x) := by
      simp only [Variables.get?, List.findSome?_cons]
      cases bindings.get? x <;> rfl
    rw [Scopes.lookup?_cons] at hslot
    rw [hget, List.flatten_cons]
    rcases Bound.find hscope x with ⟨found, c, hfound, hc, hmem, hrest⟩ | ⟨hfound, hc⟩
    · rw [hfound, Option.some_or] at hslot
      cases hslot
      exact ⟨c, by rw [hc, Option.some_or], List.mem_append_left _ hmem, hrest⟩
    · rw [hfound, Option.none_or] at hslot
      obtain ⟨c', hc', hmem, hrest⟩ := ih hslot
      exact ⟨c', by rw [hc, Option.none_or, hc'], List.mem_append_right _ hmem, hrest⟩

/-! ### Assignment -/

/-- Filling a slot leaves the slots behind other addresses. -/
theorem IR.Store.load?_setCell_ne {c : Option Scalar} (h : p ≠ .inst a) :
    (s.setCell a c).load? p = s.load? p := by
  cases p with
  | inst b =>
    have hab : b ≠ a := fun heq => h (by rw [heq])
    simp only [Store.load?, Store.setCell_cells_ne hab]
  | _ => rfl

theorem Bound.assign (h : List.Forall₂ (Bound s) scope bindings)
    (hfind : Scopes.findIn scope x = some slot) (hptr : slot.ptr = .inst a)
    (hty : slot.ty = c.builtin.id) (hapart : (scope.map (·.ptr)).Nodup) :
    List.Forall₂ (Bound (s.setCell a (some c))) scope (bindings.set x c) := by
  induction h with
  | nil => cases hfind
  | @cons first b scope bindings hb hrest ih =>
    rw [List.map_cons, List.nodup_cons] at hapart
    by_cases hx : first.name == x
    · have hx' : b.1 == x := hb.name ▸ hx
      simp only [Scopes.findIn, List.find?_cons, hx] at hfind
      cases hfind
      simp only [Bindings.set, hx', if_true]
      -- The slots behind it are different ones.
      refine .cons ⟨hb.name, hty, ?_⟩ (Bound.forall_of_load hrest fun other hother => ?_)
      · rw [hptr]
        exact Store.load?_inst (Store.setCell_cells_self ..)
      · refine Store.load?_setCell_ne fun heq => hapart.1 ?_
        exact List.mem_map.2 ⟨other, hother, heq.trans hptr.symm⟩
    · have hx' : (b.1 == x) = false := by rw [← hb.name]; exact eq_false_of_ne_true hx
      have hfind' : Scopes.findIn scope x = some slot := by
        simpa [Scopes.findIn, List.find?_cons, hx] using hfind
      have hmem : slot ∈ scope := List.mem_of_find?_eq_some hfind'
      simp only [Bindings.set, hx', if_false, Bool.false_eq_true]
      refine .cons (hb.of_load (Store.load?_setCell_ne fun heq => hapart.1 ?_))
        (ih hfind' hapart.2)
      exact List.mem_map.2 ⟨slot, hmem, hptr.trans heq.symm⟩

/-- An assignment gives the innermost variable of the name its value. -/
theorem Agree.assign (h : Agree s stack vars) (hslot : Scopes.lookup? (.of stack) x = some slot)
    (hptr : slot.ptr = .inst a) (hty : slot.ty = c.builtin.id)
    (hapart : (stack.flatten.map (·.ptr)).Nodup) :
    Agree (s.setCell a (some c)) stack (vars.set x c) := by
  -- By induction on the scopes; slots lie apart, so only the one that is found changes.
  induction h with
  | nil => cases hslot
  | @cons scope bindings stack vars hscope hrest ih =>
    rw [List.flatten_cons, List.map_append, List.nodup_append] at hapart
    obtain ⟨hscope_apart, hrest_apart, hne⟩ := hapart
    rcases Bound.find hscope x with ⟨found, d, hfound, hd, hmem, -⟩ | ⟨hfound, hd⟩
    · have heq : found = slot := by
        simpa [Scopes.lookup?_cons, hfound] using hslot
      subst heq
      simp only [Variables.set, hd, Option.isSome_some, if_true]
      refine .cons (Bound.assign hscope hfound hptr hty hscope_apart)
        (Agree.of_load hrest fun other hother => Store.load?_setCell_ne fun heq => ?_)
      exact hne _ (List.mem_map_of_mem hmem) _ (List.mem_map_of_mem hother)
        (hptr.trans heq.symm)
    · have hslot' : Scopes.lookup? (.of stack) x = some slot := by
        simpa [Scopes.lookup?_cons, hfound] using hslot
      obtain ⟨e, -, hmem, -⟩ := Agree.lookup hrest hslot'
      simp only [Variables.set, hd, Option.isSome_none, Bool.false_eq_true, if_false]
      refine .cons (Bound.forall_of_load hscope fun other hother =>
        Store.load?_setCell_ne fun heq => ?_) (ih hslot' hrest_apart)
      exact hne _ (List.mem_map_of_mem hother) _ (List.mem_map_of_mem hmem)
        (heq.trans hptr.symm)

end

/-! ## Operands -/

/-- An operand of the given type has a value, and only instructions below a
    bound can have computed it. -/
structure Denotes (H : Host) (args : List Scalar) (s : Store Scalar) (bound : Nat) (ty : TypeId)
    (v : Value) (c : Scalar) : Prop where
  value : operand? args s v = some c
  ty : ty = c.builtin.id
  shape : H.HasType v c.shape
  below : ∀ id, v = .inst id → id < bound

section

variable {H : Host} {args : List Scalar} {s s' : Store Scalar} {lo hi : Nat} {c : Scalar}

theorem Denotes.const {k : Const} (hk : ofConst? k = some c) (hty : ty = c.builtin.id)
    (hshape : k.ty = c.shape) : Denotes H args s lo ty (.const k) c :=
  ⟨hk, hty, congrArg Except.ok hshape, fun _ h => by cases h⟩

theorem Denotes.int (i : Int32) :
    Denotes H args s lo (Lower.literal (.int i)).ty (Lower.literal (.int i)).value (.int i) := by
  have hty : Builtin.int.id = (Scalar.int i).builtin.id := rfl
  exact .const rfl hty rfl

theorem Denotes.bool (b : Bool) :
    Denotes H args s lo (Lower.literal (.bool b)).ty (Lower.literal (.bool b)).value (.bool b) := by
  have hty : Builtin.bool.id = (Scalar.bool b).builtin.id := rfl
  exact .const rfl hty rfl

/-- The result of an instruction that has just been executed. -/
theorem Denotes.inst (hty : H.HasType (.inst id) c.shape) (hid : id < hi) :
    Denotes H args (s.setReg id c) hi c.builtin.id (.inst id) c :=
  ⟨s.setReg_regs_self id c, rfl, hty, fun _ h => by cases h; exact hid⟩

theorem Denotes.ne_dfunc (h : Denotes H args s lo ty v c) :
    ty ≠ Builtin.dfunc.id := fun hty => c.builtin_ne_dfunc (h.ty.symm.trans hty)

theorem Denotes.isIntegral (h : Denotes H args s lo ty v c) : ty.IsIntegral := by
  rw [h.ty]
  exact c.builtin_isIntegral

/-- Later instructions do not change the value of an operand. -/
theorem Denotes.keep (h : Denotes H args s lo ty v c) (hkeeps : Store.Keeps lo s s')
    (hle : lo ≤ hi) : Denotes H args s' hi ty v c := by
  refine ⟨?_, h.ty, h.shape, fun id hid => Nat.lt_of_lt_of_le (h.below id hid) hle⟩
  rw [← h.value]
  cases v with
  | inst id => exact hkeeps.regs id (h.below id rfl)
  | _ => rfl

/-! ### Operators -/

theorem UnaryOp.eval?_neg : UnaryOp.eval? .neg c = negate? c := by cases c <;> rfl

theorem UnaryOp.eval?_not : UnaryOp.eval? .not c = invert? c := by cases c <;> rfl

theorem BinaryOp.eval?_arith {o : ArithOp} (ho : op.intOp? = some o) (a b : Int32) :
    op.eval? (.int a) (.int b) = arith? o (.int a) (.int b) := by
  cases op <;> cases ho <;> rfl

theorem BinaryOp.eval?_compare_int (hp : op.predicate? = some pred) (a b : Int32) :
    op.eval? (.int a) (.int b) = (compare? pred (.int a) (.int b)).map .bool := by
  cases op <;> cases hp <;> rfl

theorem BinaryOp.eval?_compare_bool (hp : op.predicate? = some pred) (heq : pred = .eq ∨ pred = .ne)
    (a b : Bool) :
    op.eval? (.bool a) (.bool b) = (compare? pred (.bool a) (.bool b)).map .bool := by
  rcases heq with rfl | rfl <;> cases op <;> cases hp <;> rfl

/-- What becomes of a line that computes an operation: both sides have the
    same value, or neither has one. -/
def Computed (H : Host) (args : List Scalar) (s : Store Scalar) (hi : Nat) (meaning : Option Scalar)
    (r : Typed) (l : Lines) : Prop :=
  (∃ c id, meaning = some c ∧ (scalarMachine args).execAll l s = some (s.setReg id c) ∧
    Denotes H args (s.setReg id c) hi r.ty r.value c) ∨
  (meaning = none ∧ (scalarMachine args).execAll l s = none)

/-- One instruction that computes what it should. -/
theorem IR.Build.OneInst.evaluates {op : Op} {ty : Ty} {b : Builtin}
    (hone : Build.OneInst H op ty v l) (hin : Code.Within lo hi (.line l))
    (halloca : op.isAlloca = false) (hstore : ∀ v p, op ≠ .store v p)
    (hmeaning : compute? args s op = meaning)
    (hty : ∀ c, meaning = some c → b = c.builtin ∧ ty = c.shape) :
    Computed H args s hi meaning ⟨b.id, v⟩ l := by
  obtain ⟨id, rfl, rfl, hshape⟩ := hone
  have hid : id < hi := (hin.2 id (List.mem_singleton.2 rfl)).2
  have hexec : (scalarMachine args).execAll [(id, ⟨op, ty, none⟩)] s =
      (compute? args s op).map (s.setReg id) := scalarMachine_one halloca hstore
  rw [hmeaning] at hexec
  -- The instruction has a result exactly if the operation has a meaning.
  cases meaning with
  | none => exact .inr ⟨rfl, hexec⟩
  | some c =>
    obtain ⟨rfl, rfl⟩ := hty c rfl
    exact .inl ⟨c, id, rfl, hexec, .inst hshape hid⟩

theorem UnaryLine.evaluates {op : UnaryOp} {x : Typed} (h : UnaryLine H op x r l)
    (hin : Code.Within mid hi (.line l)) (hx : Denotes H args s mid x.ty x.value c) :
    Computed H args s hi (op.eval? c) r l := by
  -- The type of the operand tells which kind of value it denotes.
  cases h with
  | negInt hint hop hty hone =>
    obtain ⟨a, rfl⟩ := eq_int_of_builtin (hx.ty.symm.trans hint)
    obtain rfl := hop
    obtain rfl := hty.unique hx.shape
    refine hone.evaluates hin rfl (by simp) ?_ fun d hd => ?_
    · simp only [compute?, hx.value, Option.bind_some, UnaryOp.eval?_neg]
    · cases hd
      exact ⟨rfl, rfl⟩
  | notBool hbool hop hone =>
    obtain ⟨a, rfl⟩ := eq_bool_of_builtin (hx.ty.symm.trans hbool)
    obtain rfl := hop
    refine hone.evaluates hin rfl (by simp) ?_ fun d hd => ?_
    · simp only [compute?, hx.value, Option.bind_some, UnaryOp.eval?_not]
    · cases hd
      exact ⟨rfl, rfl⟩
  | computed hx' hr hd hc => exact absurd hx.isIntegral hx'

/-- The instruction of a comparison. -/
theorem CompareLine.evaluates {a b : Value} {x : Scalar} (h : CompareLine H pred a b v l)
    (hin : Code.Within mid hi (.line l)) (ha : Denotes H args s mid ta a x)
    (hb : Denotes H args s mid tb b y) (hmeaning : meaning = (compare? pred x y).map .bool) :
    Computed H args s hi meaning ⟨Builtin.bool.id, v⟩ l := by
  obtain ⟨ty, hty, hone⟩ := h
  -- The operands are no floats, so the comparison is one of words or bits.
  obtain rfl := hty.unique ha.shape
  rw [x.shape_ne_float] at hone
  refine hone.evaluates hin rfl (by simp) ?_ fun d hd => ?_
  · simp only [compute?, ha.value, hb.value, Option.bind_some, hmeaning]
  · rw [hmeaning] at hd
    obtain ⟨r, -, rfl⟩ := Option.map_eq_some_iff.1 hd
    exact ⟨rfl, rfl⟩

theorem BinaryLine.evaluates {a b : Typed} {x : Scalar} (h : BinaryLine H op a b r l)
    (hin : Code.Within mid hi (.line l)) (ha : Denotes H args s mid a.ty a.value x)
    (hb : Denotes H args s mid b.ty b.value y) : Computed H args s hi (op.eval? x y) r l := by
  cases h with
  -- The operands are integers, and so is the result, unless the operation is stuck.
  | @intArith o ty v l hta htb ho hty hone =>
    obtain ⟨i, rfl⟩ := eq_int_of_builtin (ha.ty.symm.trans hta)
    obtain ⟨j, rfl⟩ := eq_int_of_builtin (hb.ty.symm.trans htb)
    obtain rfl := hty.unique ha.shape
    refine hone.evaluates hin rfl (by simp) ?_ fun d hd => ?_
    · simp only [compute?, ha.value, hb.value, Option.bind_some, BinaryOp.eval?_arith ho]
    · rw [BinaryOp.eval?_arith ho] at hd
      obtain ⟨k, rfl⟩ : ∃ k, d = .int k := by
        cases o with
        | sdiv =>
          obtain ⟨q, -, rfl⟩ := Option.map_eq_some_iff.1 hd
          exact ⟨q, rfl⟩
        | iadd => exact ⟨_, (Option.some.inj hd).symm⟩
        | isub => exact ⟨_, (Option.some.inj hd).symm⟩
        | imul => exact ⟨_, (Option.some.inj hd).symm⟩
        | _ => cases hd
      exact ⟨rfl, rfl⟩
  | intCompare hta htb hp hcmp =>
    obtain ⟨i, rfl⟩ := eq_int_of_builtin (ha.ty.symm.trans hta)
    obtain ⟨j, rfl⟩ := eq_int_of_builtin (hb.ty.symm.trans htb)
    exact hcmp.evaluates hin ha hb (BinaryOp.eval?_compare_int hp i j)
  | boolCompare hta htb hp heq hcmp =>
    obtain ⟨i, rfl⟩ := eq_bool_of_builtin (ha.ty.symm.trans hta)
    obtain ⟨j, rfl⟩ := eq_bool_of_builtin (hb.ty.symm.trans htb)
    exact hcmp.evaluates hin ha hb (BinaryOp.eval?_compare_bool hp heq i j)
  -- A scalar is integral and no distribution, which rules out the other cases.
  | computed hab hr hv hc =>
    exact absurd ⟨ha.isIntegral, hb.isIntegral⟩ hab
  | sum hta htb hcall => exact absurd hta ha.ne_dfunc
  | scaled hab hd hn hw hcall =>
    rcases hab with ⟨rfl, rfl⟩ | ⟨rfl, rfl⟩
    · exact absurd hd ha.ne_dfunc
    · exact absurd hd hb.ne_dfunc

/-! ## Expressions -/

/-- An expression and its code: both have a value, and variables and slots
    agree afterwards; or neither has one. -/
def Evaluates (H : Host) (args : List Scalar) (stack : List (List Slot)) (hi : Nat)
    (meaning : Option (Scalar × Variables)) (x : ExprValue)
    (o : Outcome (Store Scalar) (Option Scalar)) : Prop :=
  (∃ c vars s, meaning = some (c, vars) ∧ o = .done s ∧ Agree s stack vars ∧
    Denotes H args s hi x.ty x.value c) ∨
  (meaning = none ∧ o = .stuck)

theorem Computed.evaluates {stack : List (List Slot)} {vars : Variables}
    (h : Computed H args s hi meaning r l) (hagree : Agree s stack vars) :
    Evaluates H args stack hi (meaning.map (·, vars)) (.ofTyped r)
      ((Code.line l).run (scalarMachine args) n s) := by
  rcases h with ⟨c, id, hc, hexec, hr⟩ | ⟨hc, hexec⟩
  · refine .inl ⟨c, vars, s.setReg id c, by rw [hc]; rfl, ?_, hagree.setReg id c, hr⟩
    rw [Code.run, hexec]
    rfl
  · refine .inr ⟨by rw [hc]; rfl, ?_⟩
    rw [Code.run, hexec]
    rfl

/-- What comes behind an expression goes on from its value. -/
theorem Evaluates.andThen {stack : List (List Slot)} {meaning : Option (Scalar × Variables)}
    {k : Scalar × Variables → Option (Scalar × Variables)} {x r : ExprValue} {T T' : Code}
    (h : Evaluates H args stack mid meaning x (T.run (scalarMachine args) n s))
    (hk : ∀ c vars s', T.run (scalarMachine args) n s = .done s' → Agree s' stack vars →
      Denotes H args s' mid x.ty x.value c →
      Evaluates H args stack hi (k (c, vars)) r (T'.run (scalarMachine args) n s')) :
    Evaluates H args stack hi (meaning.bind k) r
      ((Code.seq T T').run (scalarMachine args) n s) := by
  rw [Code.run]
  rcases h with ⟨c, vars, s', hc, hrun, hagree, hx⟩ | ⟨hc, hrun⟩
  · rw [hc, hrun]
    exact hk c vars s' hrun hagree hx
  · rw [hc, hrun]
    exact .inr ⟨rfl, rfl⟩

end

section

variable {options : Options} {functions : Functions} {H : Host} {stack : List (List Slot)}
  {args : List Scalar} {n : Nat}

/-- The code of an expression computes what the expression means. -/
theorem Expr.Compiles.evaluates {lo hi : Nat} {e : Expr} {T : Code} {x : ExprValue}
    (h : Expr.Compiles ⟨.builtins, options⟩ functions H (.of stack) lo e T x hi)
    (hscalar : e.isScalar = true) (hlaid : Laid H lo stack.flatten) {s : Store Scalar}
    {vars : Variables} (hagree : Agree s stack vars) :
    Evaluates H args stack hi (e.eval? vars) x (T.run (scalarMachine args) n s) := by
  cases h with
  | literal =>
    rename_i v span
    cases v with
    | int i => exact .inl ⟨.int i, vars, s, rfl, rfl, hagree, .int i⟩
    | bool b => exact .inl ⟨.bool b, vars, s, rfl, rfl, hagree, .bool b⟩
    | float f => cases hscalar
  | var hslot hty hload hin =>
    obtain ⟨c, hc, hmem, hslotty, hcell⟩ := hagree.lookup hslot
    obtain ⟨a, shape, -, -, -, hshape, hptrty⟩ := hlaid.placed _ hmem
    rw [hslotty] at hshape
    obtain rfl := shape_of_representation hshape
    have hsame := hty.unique hptrty
    rw [Expr.eval?, hc, hslotty]
    refine Computed.evaluates (r := ⟨c.builtin.id, _⟩) ?_ hagree
    refine hload.evaluates hin rfl (by simp) hcell fun d hd => ?_
    cases hd
    cases hsame
    exact ⟨rfl, rfl⟩
  | unary he hop hx hin =>
    refine (he.evaluates hscalar hlaid hagree).andThen fun c vars' s' hrun hagree' hc => ?_
    rw [hx.of_ne hc.ne_dfunc, List.append_nil] at hin ⊢
    exact (hop.evaluates hin hc).evaluates hagree'
  | binary hlog ha hb hop hx hy hin =>
    obtain ⟨hsa, hsb⟩ := Bool.and_eq_true_iff.1 hscalar
    simp only [Expr.eval?, hlog, Bool.false_eq_true, if_false]
    refine (ha.evaluates hsa hlaid hagree).andThen fun c vars₁ s₁ hrun₁ hagree₁ hc => ?_
    have hlaid₁ := hlaid.weaken ha.within.1
    refine (hb.evaluates hsb hlaid₁ hagree₁).andThen fun d vars₂ s₂ hrun₂ hagree₂ hd => ?_
    -- The right operand has left the value of the left one.
    have hc₂ := hc.keep (hb.within.keeps_done hrun₂) hb.within.1
    rw [hx.of_ne hc.ne_dfunc, hy.of_ne hd.ne_dfunc, List.append_nil, List.append_nil] at hin ⊢
    exact (hop.evaluates hin hc₂ hd).evaluates hagree₂
  | logical hlog ha hx h₁₂ hb hy hid hhi hty =>
    rename_i m₁ m₂ m₃ op a b span Ta Tb x y id
    obtain ⟨hsa, hsb⟩ := Bool.and_eq_true_iff.1 hscalar
    simp only [Expr.eval?, hlog, if_true]
    refine (ha.evaluates hsa hlaid hagree).andThen fun c vars₁ s₁ hrun₁ hagree₁ hc => ?_
    obtain ⟨p, rfl⟩ := eq_bool_of_builtin (hc.ty.symm.trans hx)
    have hlaid₁ := hlaid.weaken (ha.within.1.trans h₁₂)
    simp only [Code.run, scalarMachine_test hc.value]
    by_cases hp : p = (op == .and)
    · simp only [hp, if_true]
      rcases hb.evaluates hsb hlaid₁ hagree₁ with ⟨d, vars₂, s₂, hd, hrun₂, hagree₂, hdd⟩ | ⟨hd, hrun₂⟩
      · obtain ⟨q, rfl⟩ := eq_bool_of_builtin (hdd.ty.symm.trans hy)
        refine .inl ⟨.bool q, vars₂, s₂.setReg id (.bool q), ?_, ?_, hagree₂.setReg id _,
          .inst hty hhi⟩
        · rw [hd]
          rfl
        · rw [hrun₂]
          show Outcome.ofOption ((operand? args s₂ y.value).map (s₂.setReg id)) = _
          rw [hdd.value]
          rfl
      · exact .inr ⟨by rw [hd]; rfl, by rw [hrun₂]; rfl⟩
    · -- The left operand decides, and it is the other truth value.
      have hother : p = !(op == .and) := by
        cases p <;> cases hand : (op == .and) <;> simp_all
      simp only [hp, if_false]
      refine .inl ⟨.bool p, vars₁, s₁.setReg id (.bool p), rfl, ?_, hagree₁.setReg id _,
        .inst hty hhi⟩
      rw [hother]
      rfl
  | assign hslot he hc hm hd hs hin =>
    rename_i x e span slot T y z v l₁ l₂ l₃ l₄
    simp only [Expr.eval?]
    refine (he.evaluates hscalar hlaid hagree).andThen fun c vars' s' hrun hagree' hy => ?_
    obtain ⟨d, hget, hmem, hslotty, hcell⟩ := hagree'.lookup hslot
    obtain ⟨a, shape, hptr, -, -, -, -⟩ := hlaid.placed slot hmem
    obtain ⟨hsame, rfl, rfl⟩ := hc.of_ne fun h => d.builtin_ne_float (hslotty.symm.trans h)
    obtain ⟨rfl, rfl⟩ := hm.of_ne hy.ne_dfunc
    obtain rfl := hd.of_ne fun h => d.builtin_ne_dfunc (hslotty.symm.trans h)
    obtain ⟨ty, -, -, id, rfl⟩ := hs
    have hstore : (scalarMachine args).execAll [(id, ⟨.store z.value (.inst a), .void, none⟩)] s' =
        some (s'.setCell a (some c)) :=
      scalarMachine_store hy.value (Store.isSome_of_load? (hptr ▸ hcell))
    refine .inl ⟨c, vars'.set x.name c, s'.setCell a (some c), by rw [hget]; rfl, ?_, ?_, ?_⟩
    · rw [hptr, List.nil_append, List.nil_append, List.nil_append, Code.run, hstore]
      rfl
    · exact hagree'.assign hslot hptr (hsame.symm.trans hy.ty) hlaid.apart
    · have hkeep := hy.keep (Store.Keeps.setCell _ s' a (some c)) hin.1
      exact ⟨hkeep.value, hsame.symm.trans hkeep.ty, hkeep.shape, hkeep.below⟩
  | call => cases hscalar
  | construct => cases hscalar

end

end Shading
