/-! # Actions that may refuse and keep their state

    Everything that changes a module, a symbol table or a list of
    diagnostics is an action: it reads a state, answers or refuses, and
    leaves a state behind in both cases.  A refusal does not roll back:
    a session goes on after it with exactly the state that the refused
    action had reached, so that state is part of what an action means. -/

namespace Shading

/-- An action over states `σ` that answers `α` or refuses with `ε`. -/
def Act (σ ε α : Type) : Type := σ → Except ε α × σ

namespace Act

variable {σ τ ε ε' α β : Type}

/-- Answer and final state of `x` from `s`. -/
def run (x : Act σ ε α) (s : σ) : Except ε α × σ := x s

instance : Monad (Act σ ε) where
  pure a := fun s => (.ok a, s)
  bind x f := fun s =>
    match x s with
    | (.ok a, s') => f a s'
    | (.error e, s') => (.error e, s')

instance : MonadExceptOf ε (Act σ ε) where
  throw e := fun s => (.error e, s)
  tryCatch x handle := fun s =>
    match x s with
    | (.ok a, s') => (.ok a, s')
    | (.error e, s') => handle e s'

instance : MonadStateOf σ (Act σ ε) where
  get := fun s => (.ok s, s)
  set s := fun _ => (.ok (), s)
  modifyGet f := fun s => let (a, s') := f s; (.ok a, s')

/-- An outcome that was computed without looking at the state. -/
def ofExcept (r : Except ε α) : Act σ ε α := fun s => (r, s)

instance : MonadLift (Except ε) (Act σ ε) := ⟨ofExcept⟩

/-- Rename the reason of a refusal; the state is not touched. -/
def mapError (f : ε → ε') (x : Act σ ε α) : Act σ ε' α := fun s =>
  match x s with
  | (.ok a, s') => (.ok a, s')
  | (.error e, s') => (.error (f e), s')

/-- Run an action on one part of a larger state. -/
def onPart (part : τ → σ) (put : τ → σ → τ) (x : Act σ ε α) : Act τ ε α := fun t =>
  let (r, s') := x (part t)
  (r, put t s')

/-- Refuse if a condition holds, and go on otherwise. -/
def refuseIf (c : Prop) [Decidable c] (e : ε) : Act σ ε Unit := if c then throw e else pure ()

/-- Run an action only if a condition holds. -/
def onlyIf (c : Prop) [Decidable c] (x : Act σ ε Unit) : Act σ ε Unit := if c then x else pure ()

/-- Run `x` and then `after`, whether `x` answered or refused. -/
def andAlways (x : Act σ ε α) (after : σ → σ) : Act σ ε α := fun s =>
  let (r, s') := x s
  (r, after s')

/-! ## Running -/

@[simp] theorem run_pure (a : α) (s : σ) : (pure a : Act σ ε α).run s = (.ok a, s) := rfl

@[simp] theorem run_throw (e : ε) (s : σ) :
    (throw e : Act σ ε α).run s = (.error e, s) := rfl

@[simp] theorem run_get (s : σ) : (get : Act σ ε σ).run s = (.ok s, s) := rfl

@[simp] theorem run_set (s t : σ) : (set t : Act σ ε Unit).run s = (.ok (), t) := rfl

@[simp] theorem run_ofExcept (r : Except ε α) (s : σ) :
    (ofExcept r : Act σ ε α).run s = (r, s) := rfl

theorem run_refuseIf (c : Prop) [Decidable c] (e : ε) (s : σ) :
    (refuseIf c e : Act σ ε Unit).run s = (if c then .error e else .ok (), s) := by
  by_cases h : c <;> simp [refuseIf, h]

theorem run_bind (x : Act σ ε α) (f : α → Act σ ε β) (s : σ) :
    (x >>= f).run s =
      match x.run s with
      | (.ok a, s') => (f a).run s'
      | (.error e, s') => (.error e, s') := rfl

/-- A sequence answers exactly if both of its parts do. -/
theorem run_bind_eq_ok {x : Act σ ε α} {f : α → Act σ ε β} {s t : σ} {b : β} :
    (x >>= f).run s = (.ok b, t) ↔
      ∃ a s', x.run s = (.ok a, s') ∧ (f a).run s' = (.ok b, t) := by
  rw [run_bind]
  rcases x.run s with ⟨r, s'⟩
  cases r with
  | error e => simp
  | ok a =>
    constructor
    · intro h
      exact ⟨a, s', rfl, h⟩
    · rintro ⟨a', s'', h, h'⟩
      cases h
      exact h'

/-! ## Monad laws -/

theorem id_map_act (x : Act σ ε α) : id <$> x = x := by
  funext s
  simp only [Functor.map]
  rcases x s with ⟨r, s'⟩
  cases r <;> rfl

theorem bind_assoc_act {γ : Type} (x : Act σ ε α) (f : α → Act σ ε β) (g : β → Act σ ε γ) :
    x >>= f >>= g = x >>= fun a => f a >>= g := by
  funext s
  simp only [bind]
  rcases x s with ⟨r, s'⟩
  cases r <;> rfl

instance : LawfulMonad (Act σ ε) :=
  LawfulMonad.mk' (Act σ ε) id_map_act (fun _ _ => rfl) bind_assoc_act

end Act

end Shading
