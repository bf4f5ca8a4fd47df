import Shading.Proofs.Choices

/-! # Code that does not get stuck

    What a piece of code ensures at each of its ends, if it never gets stuck
    (`Outcome.Safe`), and how that is put together along the structure of
    code.  Loops are cut at an invariant (`Code.turns_safe`). -/

namespace Shading.IR

variable {σ ρ : Type}
variable {s s₁ : σ} {v : Value} {isAnd w : Bool}

/-- The outcome is no failure, and each way to end ensures what is said about
    it. -/
def Outcome.Safe (D : σ → Prop) (J : Jump → σ → Prop) (P : ρ → Prop) : Outcome σ ρ → Prop
  | .done s => D s
  | .jumped j s => J j s
  | .returned r => P r
  | .stuck => False
  | .timeout => True

namespace Outcome.Safe

variable {D D' : σ → Prop} {J J' : Jump → σ → Prop} {P P' : ρ → Prop} {o : Outcome σ ρ}

theorem mono (h : o.Safe D J P) (hD : ∀ s, D s → D' s) (hJ : ∀ j s, J j s → J' j s)
    (hP : ∀ r, P r → P' r) : o.Safe D' J' P' := by
  cases o with
  | done s => exact hD s h
  | jumped j s => exact hJ j s h
  | returned r => exact hP r h
  | stuck => exact h
  | timeout => exact h

theorem andThen {k : σ → Outcome σ ρ} (h : o.Safe D J P) (hk : ∀ s, D s → (k s).Safe D' J P) :
    (o.andThen k).Safe D' J P := by
  cases o with
  | done s => exact hk s h
  | jumped j s => exact h
  | returned r => exact h
  | stuck => exact h
  | timeout => exact h

theorem ne_stuck (h : o.Safe D J P) : o ≠ .stuck := by
  rintro rfl
  exact h

end Outcome.Safe

/-- What the two jumps out of a turn ensure. -/
def Jump.ensures (continues breaks : σ → Prop) : Jump → σ → Prop
  | .continueLoop => continues
  | .breakLoop => breaks

namespace Code

variable {M : Interp σ ρ} {D I A B : σ → Prop} {J : Jump → σ → Prop} {P : ρ → Prop} {n : Nat}

theorem line_safe {l : List (InstId × Inst)} (h : ∃ s', M.execAll l s = some s' ∧ D s') :
    ((line l).run M n s).Safe D J P := by
  obtain ⟨s', hs', hD⟩ := h
  rw [run, hs']
  exact hD

theorem seq_safe {a b : Code} (ha : (a.run M n s).Safe I J P)
    (hb : ∀ s, I s → (b.run M n s).Safe D J P) : ((seq a b).run M n s).Safe D J P := by
  rw [run]
  exact ha.andThen hb

theorem shortcut_safe {l : Value} {r : Code} {result : InstId} (htest : M.test l s = some (w, s₁))
    (hright : w = isAnd → (r.run M n s₁).Safe I J P)
    (hmerge : ∀ s, I s → ∃ s', M.merge result v s = some s' ∧ D s')
    (hskip : w ≠ isAnd → ∃ s', M.merge result (.const (.bool !isAnd)) s₁ = some s' ∧ D s') :
    ((shortcut isAnd l r v result).run M n s).Safe D J P := by
  rw [run, htest]
  -- The right operand decides, or the left one has decided already.
  by_cases hw : w = isAnd
  · simp only [if_pos hw]
    refine (hright hw).andThen fun s₂ hs₂ => ?_
    obtain ⟨s₃, hs₃, hD⟩ := hmerge s₂ hs₂
    rw [hs₃]
    exact hD
  · simp only [if_neg hw]
    obtain ⟨s₃, hs₃, hD⟩ := hskip hw
    rw [hs₃]
    exact hD

theorem ifThen_safe {t : Code} (htest : M.test v s = some (w, s₁))
    (hthen : w = true → (t.run M n s₁).Safe D J P) (helse : w = false → D s₁) :
    ((ifThen v t).run M n s).Safe D J P := by
  rw [run, htest]
  cases w with
  | true => exact hthen rfl
  | false => exact helse rfl

theorem ifThenElse_safe {t e : Code} (htest : M.test v s = some (w, s₁))
    (hthen : w = true → (t.run M n s₁).Safe D J P) (helse : w = false → (e.run M n s₁).Safe D J P) :
    ((ifThenElse v t e).run M n s).Safe D J P := by
  rw [run, htest]
  cases w with
  | true => exact hthen rfl
  | false => exact helse rfl

theorem ret_safe {v : Option Value} (h : ∃ r, M.result v s = some r ∧ P r) :
    ((ret v).run M n s).Safe D J P := by
  obtain ⟨r, hr, hP⟩ := h
  rw [run, hr]
  exact hP

/-- Each turn starts in a state that satisfies the invariant `I`. -/
theorem turns_safe {head body : σ → Outcome σ ρ} {guard : σ → Option (Bool × σ)}
    (hhead : ∀ s, I s → (head s).Safe A J P)
    (hguard : ∀ s, A s → ∃ w s', guard s = some (w, s') ∧ (w = true → B s') ∧ (w = false → D s'))
    (hbody : ∀ s, B s → (body s).Safe I (Jump.ensures I D) P) (k : Nat) :
    ∀ s, I s → (turns head guard body k s).Safe D J P := by
  induction k with
  | zero => exact fun s _ => trivial
  | succ k ih =>
    intro s hs
    refine (hhead s hs).andThen fun s₁ hs₁ => ?_
    obtain ⟨w, s₂, hg, htrue, hfalse⟩ := hguard s₁ hs₁
    rw [hg]
    cases w with
    | false => exact hfalse rfl
    | true =>
      have hb := hbody s₂ (htrue rfl)
      show ((body s₂).endTurn _).Safe D J P
      -- A `continue` goes on with the next turn, as the end of the body does; a `break` has `D`.
      cases ho : body s₂ with
      | done s₃ =>
        rw [ho] at hb
        exact ih s₃ hb
      | jumped j s₃ =>
        rw [ho] at hb
        cases j with
        | continueLoop => exact ih s₃ hb
        | breakLoop => exact hb
      | returned r =>
        rw [ho] at hb
        exact hb
      | stuck =>
        rw [ho] at hb
        exact hb
      | timeout => trivial

theorem loop_safe {h b : Code} (hhead : ∀ s, I s → (h.run M n s).Safe A J P)
    (hguard : ∀ s, A s → ∃ w s', M.guard v s = some (w, s') ∧ (w = true → B s') ∧
      (w = false → D s')) (hbody : ∀ s, B s → (b.run M n s).Safe I (Jump.ensures I D) P)
    (hs : I s) : ((loop h v b).run M n s).Safe D J P :=
  turns_safe hhead hguard hbody n s hs

end Code

end Shading.IR
