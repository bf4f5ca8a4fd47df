import Shading.Act

/-! # When actions answer

    For each way to put actions together, when the whole answers and which
    state it leaves.  Proofs about larger actions take them apart with these
    and never open the monad. -/

namespace Shading.Act

variable {σ τ ε ε' α β : Type}
variable {s s' : σ} {a b : α} {x : Act σ ε α} {u : Unit}

theorem run_pure_eq_ok : (pure a : Act σ ε α).run s = (.ok b, s') ↔ b = a ∧ s' = s := by
  rw [run_pure]
  constructor
  · intro h
    cases h
    exact ⟨rfl, rfl⟩
  · rintro ⟨rfl, rfl⟩
    rfl

theorem run_throw_ne_ok {e : ε} : (throw e : Act σ ε α).run s ≠ (.ok a, s') := by
  rw [run_throw]
  intro h
  cases h

theorem run_get_eq_ok {a : σ} : (get : Act σ ε σ).run s = (.ok a, s') ↔ a = s ∧ s' = s := by
  rw [run_get]
  constructor
  · intro h
    cases h
    exact ⟨rfl, rfl⟩
  · rintro ⟨rfl, rfl⟩
    rfl

theorem run_modify_eq_ok {g : σ → σ} :
    (modify g : Act σ ε Unit).run s = (.ok u, s') ↔ s' = g s := by
  show ((.ok (), g s) : Except ε Unit × σ) = (.ok u, s') ↔ s' = g s
  constructor
  · intro h
    cases h
    rfl
  · rintro rfl
    rfl

theorem run_eq_of_fst {r : Except ε α} (h : (x.run s).1 = r) : x.run s = (r, (x.run s).2) := by
  rw [← h]

theorem run_ofExcept_eq_ok {r : Except ε α} :
    (ofExcept r : Act σ ε α).run s = (.ok a, s') ↔ r = .ok a ∧ s' = s := by
  rw [run_ofExcept]
  constructor
  · intro h
    cases h
    exact ⟨rfl, rfl⟩
  · rintro ⟨rfl, rfl⟩
    rfl

theorem run_refuseIf_eq_ok {c : Prop} [Decidable c] {e : ε} :
    (refuseIf c e : Act σ ε Unit).run s = (.ok u, s') ↔ ¬ c ∧ s' = s := by
  rw [run_refuseIf]
  by_cases h : c
  · simp [h]
  · simp [h, eq_comm]

theorem run_onlyIf_eq_ok {c : Prop} [Decidable c] {x : Act σ ε Unit} :
    (onlyIf c x).run s = (.ok u, s') ↔ c ∧ x.run s = (.ok u, s') ∨ ¬ c ∧ s' = s := by
  unfold onlyIf
  by_cases h : c
  · simp [h]
  · simp only [h, if_false, run_pure_eq_ok]
    simp

theorem run_mapError (f : ε → ε') (x : Act σ ε α) (s : σ) :
    (x.mapError f).run s =
      match x.run s with
      | (.ok a, s') => (.ok a, s')
      | (.error e, s') => (.error (f e), s') := rfl

theorem run_mapError_eq_ok {f : ε → ε'} :
    (x.mapError f).run s = (.ok a, s') ↔ x.run s = (.ok a, s') := by
  rw [run_mapError]
  rcases x.run s with ⟨r, t⟩
  cases r <;> simp

theorem run_onPart (part : τ → σ) (put : τ → σ → τ) (x : Act σ ε α) (t : τ) :
    (x.onPart part put).run t = ((x.run (part t)).1, put t (x.run (part t)).2) := rfl

theorem run_onPart_eq_ok {part : τ → σ} {put : τ → σ → τ} {t t' : τ} :
    (x.onPart part put).run t = (.ok a, t') ↔
      ∃ s', x.run (part t) = (.ok a, s') ∧ t' = put t s' := by
  rw [run_onPart]
  rcases x.run (part t) with ⟨r, s'⟩
  constructor
  · intro h
    cases h
    exact ⟨s', rfl, rfl⟩
  · rintro ⟨s'', h, rfl⟩
    cases h
    rfl

theorem run_andAlways (x : Act σ ε α) (after : σ → σ) (s : σ) :
    (x.andAlways after).run s = ((x.run s).1, after (x.run s).2) := rfl

theorem run_andAlways_eq_ok {after : σ → σ} :
    (x.andAlways after).run s = (.ok a, s') ↔ ∃ t, x.run s = (.ok a, t) ∧ s' = after t := by
  rw [run_andAlways]
  rcases x.run s with ⟨r, t⟩
  constructor
  · intro h
    cases h
    exact ⟨t, rfl, rfl⟩
  · rintro ⟨t', h, rfl⟩
    cases h
    rfl

theorem run_tryCatch (x : Act σ ε α) (handle : ε → Act σ ε α) (s : σ) :
    (tryCatch x handle).run s =
      match x.run s with
      | (.ok a, s') => (.ok a, s')
      | (.error e, s') => (handle e).run s' := rfl

/-- A handler answers where the action does, or after it has refused. -/
theorem run_tryCatch_eq_ok {handle : ε → Act σ ε α} :
    (tryCatch x handle).run s = (.ok a, s') ↔ x.run s = (.ok a, s') ∨
      ∃ e t, x.run s = (.error e, t) ∧ (handle e).run t = (.ok a, s') := by
  rw [run_tryCatch]
  rcases x.run s with ⟨r, t⟩
  cases r with
  | ok b => simp
  | error e =>
    constructor
    · intro h
      exact .inr ⟨e, t, rfl, h⟩
    · rintro (h | ⟨e', t', h, h'⟩)
      · cases h
      · cases h
        exact h'

/-- An answer that is dropped leaves the state as it is. -/
theorem run_discard_state (x : Act σ ε α) (s : σ) :
    ((x >>= fun _ => pure ()).run s).2 = (x.run s).2 := by
  rw [run_bind]
  rcases x.run s with ⟨r, s'⟩
  cases r <;> rfl

/-- Renamed reasons of refusal do not change the state. -/
theorem run_mapError_state {ε' : Type} (f : ε → ε') (x : Act σ ε α) (s : σ) :
    ((x.mapError f).run s).2 = (x.run s).2 := by
  rw [run_mapError]
  rcases x.run s with ⟨r, s'⟩
  cases r <;> rfl

end Shading.Act
