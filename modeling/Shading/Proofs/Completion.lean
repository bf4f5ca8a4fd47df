import Shading.Proofs.Safety

/-! # Where control can get to the end

    Whether control can get from the start of a statement to its end is said
    by the structure of the source (`Stmt.completes`).  The code of a
    statement has the same structure (`Stmt.Compiles.completion`), and
    structured code says no more and no less than its runs do: if control can
    get to the end of code, some choices lead there
    (`Code.run_of_completes`), and no run gets there otherwise
    (`Code.completes_of_run`). -/

namespace Shading

open IR

variable {T T' a c : Code} {hi lo n : Nat}

/-! ## Source -/

/-- Is the expression the constant `true`, or does it assign that? -/
def Expr.isTrue : Expr → Bool
  | .literal (.bool b) _ => b
  | .assign _ e _ => e.isTrue
  | _ => false

mutual

/-- Can control get from the start of a statement to its end? -/
def Stmt.completes : Stmt → Bool
  | .expr .. | .decl .. | .ifThen .. => true
  | .ret .. | .breakLoop _ | .continueLoop _ => false
  | .block stmts _ => Stmt.allComplete stmts
  | .ifThenElse _ t e _ => t.completes || e.completes
  | .loop c b _ => !c.isTrue || b.breaks

/-- Can control get from the start of a statement to a `break` of the loop
    around it? -/
def Stmt.breaks : Stmt → Bool
  | .breakLoop _ => true
  | .block stmts _ => Stmt.anyBreaks stmts
  | .ifThen _ t _ => t.breaks
  | .ifThenElse _ t e _ => t.breaks || e.breaks
  -- A `break` inside of an inner loop is one of that loop.
  | .expr .. | .decl .. | .ret .. | .continueLoop _ | .loop .. => false

def Stmt.allComplete : List Stmt → Bool
  | [] => true
  | s :: rest => s.completes && Stmt.allComplete rest

def Stmt.anyBreaks : List Stmt → Bool
  | [] => false
  | s :: rest => s.breaks || s.completes && Stmt.anyBreaks rest

end

/-! ## Code -/

namespace IR

variable {σ ρ : Type}

namespace Code

mutual

/-- Can control get from the start of the code to its end? -/
def completes : Code → Bool
  | line _ | shortcut .. | ifThen .. => true
  | seq a b => a.completes && b.completes
  | ifThenElse _ t e => t.completes || e.completes
  | loop h c b => h.completes && (c != .const (.bool true) || b.breaks)
  | leave _ | ret _ => false

/-- Can control leave the loop around the code? -/
def breaks : Code → Bool
  | line _ | ret _ => false
  | seq a b => a.breaks || a.completes && b.breaks
  | shortcut _ _ r _ _ => r.breaks
  | ifThen _ t => t.breaks
  | ifThenElse _ t e => t.breaks || e.breaks
  | loop h _ _ => h.breaks
  | leave j => j == .breakLoop

end

theorem completes_of_ends : (c : Code) → c.ends = true → c.completes = false
  | line _, h | shortcut .., h | ifThen .., h | loop .., h => by simp [ends] at h
  | leave _, _ | ret _, _ => by simp [completes]
  | seq a b, h => by
    simp only [ends, Bool.or_eq_true] at h
    simp only [completes, Bool.and_eq_false_iff]
    exact h.imp (completes_of_ends a) (completes_of_ends b)
  | ifThenElse _ t e, h => by
    simp only [ends, Bool.and_eq_true] at h
    simp only [completes, Bool.or_eq_false_iff]
    exact ⟨completes_of_ends t h.1, completes_of_ends e h.2⟩

/-! ### Runs do no more than the structure says -/

/-- What the structure of code says about an outcome. -/
def Allows (c : Code) : Outcome σ ρ → Prop
  | .done _ => c.completes = true
  | .jumped .breakLoop _ => c.breaks = true
  | _ => True

theorem Allows.mono {o : Outcome σ ρ} (h : a.Allows o)
    (hdone : a.completes = true → c.completes = true) (hbreak : a.breaks = true → c.breaks = true) :
    c.Allows o := by
  cases o with
  | done s => exact hdone h
  | jumped j s =>
    cases j with
    | continueLoop => trivial
    | breakLoop => exact hbreak h
  | returned r => trivial
  | stuck => trivial
  | timeout => trivial

/-- What is behind a part is run only if that part can complete. -/
theorem Allows.andThen {o : Outcome σ ρ} {k : σ → Outcome σ ρ} (h : a.Allows o)
    (hbreak : a.breaks = true → c.breaks = true) (hk : a.completes = true → ∀ s, c.Allows (k s)) :
    c.Allows (o.andThen k) := by
  cases o with
  | done s => exact hk h s
  | jumped j s =>
    cases j with
    | continueLoop => trivial
    | breakLoop => exact hbreak h
  | returned r => trivial
  | stuck => trivial
  | timeout => trivial

theorem allows_ofOption (h : c.completes = true) (o : Option σ) :
    c.Allows (Outcome.ofOption o : Outcome σ ρ) := by
  cases o with
  | none => trivial
  | some s => exact h

theorem turns_allows {M : Interp σ ρ} {h b : Code} {v : Value} {head body : σ → Outcome σ ρ}
    (hhead : ∀ s, h.Allows (head s)) (hbody : ∀ s, b.Allows (body s)) (k : Nat) :
    ∀ s, (loop h v b).Allows (turns head (M.guard v) body k s) := by
  induction k with
  | zero => exact fun s => trivial
  | succ k ih =>
    refine fun s => (hhead s).andThen id fun hh s₁ => ?_
    have exits : (v != .const (.bool true) || b.breaks) = true →
        (h.completes && (v != .const (.bool true) || b.breaks)) = true := fun hv => by
      rw [hh, hv]
      rfl
    cases hg : M.guard v s₁ with
    | none => trivial
    | some r =>
      obtain ⟨w, s₂⟩ := r
      cases w with
      | false =>
        -- A loop that is left here tests its condition.
        have hv : v ≠ .const (.bool true) := by
          rintro rfl
          simp [Interp.guard] at hg
        exact exits (by simp [hv])
      | true =>
        have hs₂ := hbody s₂
        simp only
        cases ho : body s₂ with
        | done s₃ => exact ih s₃
        | jumped j s₃ =>
          cases j with
          | continueLoop => exact ih s₃
          | breakLoop =>
            rw [ho] at hs₂
            have hb : b.breaks = true := hs₂
            exact exits (by simp [hb])
        | returned r => trivial
        | stuck => trivial
        | timeout => trivial

theorem run_allows {M : Interp σ ρ} {n : Nat} : (c : Code) → ∀ s, c.Allows (c.run M n s)
  | line l, s => allows_ofOption rfl _
  | seq a b, s =>
    (run_allows a s).andThen (fun ha => by simp [breaks, ha]) fun ha s₁ =>
      (run_allows b s₁).mono (fun hb => by simp [completes, ha, hb])
        (fun hb => by simp [breaks, ha, hb])
  | shortcut isAnd l r v result, s => by
    simp only [run]
    cases M.test l s with
    | none => trivial
    | some x =>
      obtain ⟨w, s₁⟩ := x
      -- However the right operand is skipped or evaluated, both ways meet in the merge.
      simp only
      split
      · exact (run_allows r s₁).andThen id fun _ s₂ => allows_ofOption rfl _
      · exact allows_ofOption rfl _
  | ifThen c t, s => by
    simp only [run]
    cases M.test c s with
    | none => trivial
    | some x =>
      obtain ⟨w, s₁⟩ := x
      cases w with
      | false => rfl
      | true => exact (run_allows t s₁).mono (fun _ => rfl) id
  | ifThenElse c t e, s => by
    simp only [run]
    cases M.test c s with
    | none => trivial
    | some x =>
      obtain ⟨w, s₁⟩ := x
      cases w with
      | false =>
        exact (run_allows e s₁).mono (fun he => by simp [completes, he])
          (fun he => by simp [breaks, he])
      | true =>
        exact (run_allows t s₁).mono (fun ht => by simp [completes, ht])
          (fun ht => by simp [breaks, ht])
  | loop h c b, s => turns_allows (run_allows h) (run_allows b) n s
  | leave j, s => by
    cases j with
    | continueLoop => trivial
    | breakLoop => rfl
  | ret v, s => by
    simp only [run]
    cases M.result v s <;> trivial

/-- Code that is done can be left at its end. -/
theorem completes_of_run {M : Interp σ ρ} {s s' : σ} (h : c.run M n s = .done s') :
    c.completes = true := by
  have hc := run_allows (M := M) (n := n) c s
  rw [h] at hc
  exact hc

end Code

/-! ### Runs do all that the structure says -/

/-- Instructions that always have an answer. -/
def Interp.free : Interp Unit Unit where
  exec _ _ _ := some ()
  merge _ _ _ := some ()
  test _ _ := some (true, ())
  result _ _ := some ()

namespace Code

/-- Runs that take their branches as they like. -/
abbrev chosen : Interp (Unit × Choices) Unit := Interp.free.choosing

theorem execAll_chosen (l : List (InstId × Inst)) (ch : Choices) :
    chosen.execAll l ((), ch) = some ((), ch) := by
  induction l with
  | nil => rfl
  | cons x rest ih => exact ih

theorem test_chosen (v : Value) (b : Bool) (ch : Choices) :
    chosen.test v ((), .cons b ch) = some (b, (), ch) := rfl

mutual

/-- If control can get to the end of code, some choices lead there, with one
    turn of each loop. -/
theorem run_of_completes : (c : Code) → c.completes = true → ∀ rest,
    ∃ ch, c.run chosen 1 ((), ch) = .done ((), rest)
  | line l, _, rest => ⟨rest, by rw [run, execAll_chosen]; rfl⟩
  | seq a b, h, rest => by
    simp only [completes, Bool.and_eq_true] at h
    obtain ⟨ch₂, hb⟩ := run_of_completes b h.2 rest
    obtain ⟨ch₁, ha⟩ := run_of_completes a h.1 ch₂
    exact ⟨ch₁, by rw [run, ha]; exact hb⟩
  | shortcut isAnd l r v result, _, rest => by
    -- The left operand decides, so the right one is not asked.
    refine ⟨.cons (!isAnd) rest, ?_⟩
    rw [run, test_chosen]
    cases isAnd <;> rfl
  | ifThen c t, _, rest => ⟨.cons false rest, by rw [run, test_chosen]; rfl⟩
  | ifThenElse c t e, h, rest => by
    simp only [completes, Bool.or_eq_true] at h
    rcases h with h | h
    · obtain ⟨ch, ht⟩ := run_of_completes t h rest
      exact ⟨.cons true ch, by rw [run, test_chosen]; exact ht⟩
    · obtain ⟨ch, he⟩ := run_of_completes e h rest
      exact ⟨.cons false ch, by rw [run, test_chosen]; exact he⟩
  | loop head c b, h, rest => by
    simp only [completes, Bool.and_eq_true, Bool.or_eq_true, bne_iff_ne] at h
    obtain ⟨hhead, hout⟩ := h
    by_cases hc : c = .const (.bool true)
    · -- Only a `break` leaves this loop.
      have hb : b.breaks = true := hout.resolve_left (fun hne => hne hc)
      obtain ⟨ch₂, hbody⟩ := run_of_breaks b hb rest
      obtain ⟨ch₁, hstart⟩ := run_of_completes head hhead ch₂
      refine ⟨ch₁, ?_⟩
      simp only [run, turns, hstart, Outcome.andThen, Interp.guard, if_pos hc, hbody]
      rfl
    · obtain ⟨ch, hstart⟩ := run_of_completes head hhead (.cons false rest)
      refine ⟨ch, ?_⟩
      simp only [run, turns, hstart, Outcome.andThen, Interp.guard, if_neg hc, test_chosen]
  | leave _, h, _ | ret _, h, _ => by simp [completes] at h

theorem run_of_breaks : (c : Code) → c.breaks = true → ∀ rest,
    ∃ ch, c.run chosen 1 ((), ch) = .jumped .breakLoop ((), rest)
  | line _, h, _ | ret _, h, _ => by simp [breaks] at h
  | seq a b, h, rest => by
    simp only [breaks, Bool.or_eq_true, Bool.and_eq_true] at h
    rcases h with h | ⟨ha, hb⟩
    · obtain ⟨ch, ha⟩ := run_of_breaks a h rest
      exact ⟨ch, by rw [run, ha]; rfl⟩
    · obtain ⟨ch₂, hb⟩ := run_of_breaks b hb rest
      -- The choices are found from the back: first those of the second part.
      obtain ⟨ch₁, ha⟩ := run_of_completes a ha ch₂
      exact ⟨ch₁, by rw [run, ha]; exact hb⟩
  | shortcut isAnd l r v result, h, rest => by
    obtain ⟨ch, hr⟩ := run_of_breaks r h rest
    refine ⟨.cons isAnd ch, ?_⟩
    rw [run, test_chosen]
    simp only [if_true, hr]
    rfl
  | ifThen c t, h, rest => by
    obtain ⟨ch, ht⟩ := run_of_breaks t h rest
    exact ⟨.cons true ch, by rw [run, test_chosen]; exact ht⟩
  | ifThenElse c t e, h, rest => by
    simp only [breaks, Bool.or_eq_true] at h
    rcases h with h | h
    · obtain ⟨ch, ht⟩ := run_of_breaks t h rest
      exact ⟨.cons true ch, by rw [run, test_chosen]; exact ht⟩
    · obtain ⟨ch, he⟩ := run_of_breaks e h rest
      exact ⟨.cons false ch, by rw [run, test_chosen]; exact he⟩
  | loop head c b, h, rest => by
    obtain ⟨ch, hstart⟩ := run_of_breaks head h rest
    refine ⟨ch, ?_⟩
    simp only [run, turns, hstart]
    rfl
  | leave j, h, rest => by
    have hj : j = .breakLoop := by simpa [breaks] using h
    subst hj
    exact ⟨rest, rfl⟩

end

/-- Instructions that always have an answer never leave code stuck. -/
theorem run_chosen_safe {n : Nat} : (c : Code) → ∀ s,
    (c.run chosen n s).Safe (fun _ => True) (fun _ _ => True) fun _ => True
  | line l, s => line_safe ⟨s, execAll_chosen l s.2, trivial⟩
  | seq a b, s => seq_safe (run_chosen_safe a s) fun s₁ _ => run_chosen_safe b s₁
  | shortcut isAnd l r v result, s =>
    shortcut_safe (M := chosen) rfl (fun _ => run_chosen_safe r _) (fun s₁ _ => ⟨s₁, rfl, trivial⟩)
      fun _ => ⟨_, rfl, trivial⟩
  | ifThen c t, s => ifThen_safe (M := chosen) rfl (fun _ => run_chosen_safe t _) fun _ => trivial
  | ifThenElse c t e, s =>
    ifThenElse_safe (M := chosen) rfl (fun _ => run_chosen_safe t _) fun _ => run_chosen_safe e _
  | loop h c b, s => by
    -- Nothing can fail, so nothing has to be invariant.
    refine loop_safe (I := fun _ => True) (B := fun _ => True) (fun s _ => run_chosen_safe h s)
      (fun s _ => ?_) (fun s _ => (run_chosen_safe b s).mono (fun _ _ => trivial) ?_ fun _ _ =>
        trivial) trivial
    · unfold Interp.guard
      split
      · exact ⟨_, _, rfl, fun _ => trivial, fun _ => trivial⟩
      · exact ⟨_, _, rfl, fun _ => trivial, fun _ => trivial⟩
    · intro j s _
      cases j <;> trivial
  | leave j, s => trivial
  | ret v, s => ret_safe ⟨(), rfl, trivial⟩

end Code

end IR

/-! ## The code of the source -/

section

variable {env : Env} {functions : Functions} {H : Host} {scopes : Scopes}

mutual

theorem Expr.Compiles.completion {lo hi : Nat} {e : Expr} {T : Code} {x : ExprValue}
    (h : Expr.Compiles env functions H scopes lo e T x hi) :
    T.completes = true ∧ T.breaks = false := by
  cases h with
  | literal => exact ⟨rfl, rfl⟩
  | var => exact ⟨rfl, rfl⟩
  | unary he => simp [Code.completes, Code.breaks, he.completion]
  | binary _ ha hb => simp [Code.completes, Code.breaks, ha.completion, hb.completion]
  | logical _ ha _ _ hb => simp [Code.completes, Code.breaks, ha.completion, hb.completion]
  | assign _ he => simp [Code.completes, Code.breaks, he.completion]
  | call hargs => simp [Code.completes, Code.breaks, hargs.completion]
  | construct hargs => simp [Code.completes, Code.breaks, hargs.completion]

theorem Expr.CompilesAll.completion {lo hi : Nat} {es : List Expr} {T : Code}
    {xs : List ExprValue} (h : Expr.CompilesAll env functions H scopes lo es T xs hi) :
    T.completes = true ∧ T.breaks = false := by
  cases h with
  | nil => exact ⟨rfl, rfl⟩
  | cons he hes => simp [Code.completes, Code.breaks, he.completion, hes.completion]

end

/-- The value of a condition is the constant `true` exactly if the condition
    is that constant or assigns it: everything else is computed by an
    instruction. -/
theorem Expr.Compiles.value_eq_true : (e : Expr) → ∀ {lo hi : Nat} {T : Code} {x : ExprValue},
    Expr.Compiles env functions H scopes lo e T x hi → x.ty = Builtin.bool.id →
    (x.value = .const (.bool true) ↔ e.isTrue = true)
  | .literal v span, _, _, _, _, h, hx => by
    -- The constant comes from a literal, which assignments may hand on.
    cases h
    cases v with
    | bool b => simp [Lower.literal, Expr.isTrue]
    | int i => simp [Lower.literal] at hx
    | float f => simp [Lower.literal] at hx
  | .var name, _, _, _, _, h, hx => by
    cases h with
    | var hslot hty hload hin =>
      obtain ⟨id, rfl, -⟩ := hload
      simp [Expr.isTrue]
  | .unary op e span, _, _, _, _, h, hx => by
    cases h with
    | unary he hop hy hin =>
      cases hop with
      | negInt hy hop hty hone => simp [ExprValue.ofTyped] at hx
      | notBool hy hop hone =>
        obtain ⟨id, rfl, -⟩ := hone
        simp [Expr.isTrue, ExprValue.ofTyped]
      | computed hy hr hd hc => exact absurd (.inr (hr.symm.trans hx)) hy
  | .binary op a b span, _, _, _, _, h, hx => by
    cases h with
    | logical => simp [Expr.isTrue]
    | @binary _ mid mid' _ _ _ _ _ Ta Tb y z r l lx ly hlog ha hb hop hy hz hin =>
      -- An operator leaves its result in a register, which is no constant.
      have hinst : ∃ id, r.value = .inst id := by
        cases hop with
        | intArith ha' hb' ho hty hone => exact hone.isInst
        | intCompare ha' hb' hp hcmp => exact hcmp.choose_spec.2.isInst
        | boolCompare ha' hb' hp heq hcmp => exact hcmp.choose_spec.2.isInst
        | computed hab hr hv hc => exact hv
        | sum ha' hb' hcall => simp [ExprValue.ofTyped] at hx
        | scaled hab hd hn hw hcall => simp [ExprValue.ofTyped] at hx
      obtain ⟨id, hid⟩ := hinst
      simp [Expr.isTrue, ExprValue.ofTyped, hid]
  | .assign target e span, _, _, _, _, h, hx => by
    cases h with
    | @assign _ mid _ _ _ _ slot T y z v l₁ l₂ l₃ l₄ hslot he hc hm hd hs hin =>
      have hslotTy : slot.ty = Builtin.bool.id := hx
      obtain ⟨hy, rfl, -⟩ := hc.of_ne (by rw [hslotTy]; decide)
      have hyTy : z.ty = Builtin.bool.id := hy.trans hslotTy
      obtain ⟨rfl, -⟩ := hm.of_ne (by rw [hyTy]; decide)
      exact value_eq_true (x := z) e he hyTy
  | .call f args span, _, _, _, _, h, hx => by
    cases h with
    | call hargs hchosen hentry hconv hcall hrel hin =>
      obtain ⟨id, name, sig, -, rfl, -⟩ := hcall
      unfold Build.callResult
      split <;> simp [Expr.isTrue]
  | .construct ty args span, _, _, _, _, h, hx => by
    cases h with
    | construct hargs hc hrel hin =>
      cases hc with
      | computed hr hi hc => exact absurd (.inr hx) hi
      | create hargs hs hc hcall => simp [ExprValue.ofTyped] at hx

theorem ScopeEnd.completion {top : List Slot} (h : ScopeEnd H top lo T T' hi) :
    T'.completes = T.completes ∧ T'.breaks = T.breaks := by
  cases h with
  | ended h => exact ⟨rfl, rfl⟩
  | left h hd hin => simp [Code.completes, Code.breaks]

theorem Stmt.Initial.completion {ty : TypeId} {init : Option Expr} {v : Value}
    (h : Stmt.Initial env functions H scopes ty lo init T v hi) :
    T.completes = true ∧ T.breaks = false := by
  cases h with
  | given he => simp [Code.completes, Code.breaks, he.completion]
  | default => exact ⟨rfl, rfl⟩

theorem Stmt.Result.completion {ret : TypeId} {value : Option Expr} {v : Option Value}
    (h : Stmt.Result env functions H ret scopes lo value T v hi) :
    T.completes = true ∧ T.breaks = false := by
  cases h with
  | none => exact ⟨rfl, rfl⟩
  | some _ he => simp [Code.completes, Code.breaks, he.completion]

mutual

/-- Control can leave the code of a statement where it can leave the
    statement. -/
theorem Stmt.Compiles.completion {ret : TypeId} {base : Nat} {loop : Option Nat}
    {outer : List (List Slot)} {lo hi : Nat} {top top' : List Slot} {s : Stmt} {T : Code}
    (h : Stmt.Compiles env functions H ret base loop outer lo top s T top' hi) :
    T.completes = s.completes ∧ T.breaks = s.breaks := by
  cases h with
  | expr he => simp [Code.completes, Code.breaks, Stmt.completes, Stmt.breaks, he.completion]
  | decl _ _ _ _ hinit =>
    simp [Code.completes, Code.breaks, Stmt.completes, Stmt.breaks, hinit.completion]
  | ret hv => simp [Code.completes, Code.breaks, Stmt.completes, Stmt.breaks, hv.completion]
  | @jump depth outer top lo hi s j l hj hd hin =>
    cases s with
    | breakLoop span =>
      cases hj
      exact ⟨rfl, rfl⟩
    | continueLoop span =>
      cases hj
      exact ⟨rfl, rfl⟩
    | _ => cases hj
  | block hs hend =>
    obtain ⟨hc, hb⟩ := hs.completion
    simp only [hend.completion, hc, hb, Stmt.completes, Stmt.breaks, and_self]
  | ifThen hcond _ _ ht hend =>
    obtain ⟨hc, hb⟩ := ht.completion
    simp [Code.completes, Code.breaks, Stmt.completes, Stmt.breaks, hcond.completion,
      hend.completion, hb]
  | ifThenElse hcond _ _ ht hend₁ he hend₂ =>
    obtain ⟨hc₁, hb₁⟩ := ht.completion
    obtain ⟨hc₂, hb₂⟩ := he.completion
    simp [Code.completes, Code.breaks, Stmt.completes, Stmt.breaks, hcond.completion,
      hend₁.completion, hend₂.completion, hc₁, hc₂, hb₁, hb₂]
  | loop _ hcond hx _ hb hend =>
    -- Only the condition that is written as `true` keeps a loop from completing by itself.
    obtain ⟨-, hbreaks⟩ := hb.completion
    have hvalue := Expr.Compiles.value_eq_true _ hcond hx
    simp only [Code.completes, Code.breaks, Stmt.completes, Stmt.breaks, hcond.completion,
      hend.completion, hbreaks, Bool.true_and, and_true]
    congr 1
    rw [Bool.eq_iff_iff, bne_iff_ne, Ne, hvalue]
    simp

theorem Stmt.CompilesAll.completion {ret : TypeId} {base : Nat} {loop : Option Nat}
    {outer : List (List Slot)} {lo hi : Nat} {top top' : List Slot} {stmts : List Stmt} {T : Code}
    (h : Stmt.CompilesAll env functions H ret base loop outer lo top stmts T top' hi) :
    T.completes = Stmt.allComplete stmts ∧ T.breaks = Stmt.anyBreaks stmts := by
  cases h with
  | nil => exact ⟨rfl, rfl⟩
  | ended hs hend =>
    -- What follows is dropped, and control does not get there.
    obtain ⟨hc, hb⟩ := hs.completion
    have hno : T.completes = false := Code.completes_of_ends T hend
    rw [hno] at hc
    simp [Stmt.allComplete, Stmt.anyBreaks, ← hc, hno, hb]
  | cons hs hend hrest =>
    obtain ⟨hc, hb⟩ := hs.completion
    obtain ⟨hc', hb'⟩ := hrest.completion
    simp [Code.completes, Code.breaks, Stmt.allComplete, Stmt.anyBreaks, hc, hb, hc', hb']

end

end

end Shading
