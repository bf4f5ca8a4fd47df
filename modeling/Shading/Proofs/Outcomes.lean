import Shading.Proofs.Actions

/-! # Answers and refusals

    A refused action leaves a state behind, and the next one starts there.
    So a statement about all runs says what holds after an answer and what
    holds after a refusal.  `Act.Meets` says both of one run.

    A `Law` says it of all runs at once, as relations between the states
    before and after.  Laws are closed under everything that actions are put
    together from, so an action keeps to a law if its smallest parts do. -/

namespace Shading

variable {c : Prop}

namespace Act

variable {σ τ ε ε' α β : Type}

/-- From a state, an answer satisfies `Q` and a refusal satisfies `E`. -/
def Meets (x : Act σ ε α) (s : σ) (Q : α → σ → Prop) (E : ε → σ → Prop) : Prop :=
  match x.run s with
  | (.ok a, s') => Q a s'
  | (.error e, s') => E e s'

section

variable {x : Act σ ε α} {k : α → Act σ ε β} {s s' : σ} {Q Q' : α → σ → Prop}
  {E E' : ε → σ → Prop}

/-- What is promised of the ends may be weakened. -/
theorem Meets.mono (h : x.Meets s Q E) (hQ : ∀ a t, Q a t → Q' a t)
    (hE : ∀ e t, E e t → E' e t) : x.Meets s Q' E' := by
  unfold Meets at *
  rcases hrun : x.run s with ⟨r, t⟩
  rw [hrun] at h
  cases r with
  | ok a => exact hQ a t h
  | error e => exact hE e t h

theorem Meets.of_ok (h : x.Meets s Q E) {a : α} (hrun : x.run s = (.ok a, s')) : Q a s' := by
  unfold Meets at h
  rw [hrun] at h
  exact h

theorem Meets.of_error (h : x.Meets s Q E) {e : ε} (hrun : x.run s = (.error e, s')) : E e s' := by
  unfold Meets at h
  rw [hrun] at h
  exact h

/-- What holds after answers and after refusals holds of the state that is
    left. -/
theorem Meets.state {R : σ → Prop} (h : x.Meets s (fun _ t => R t) fun _ t => R t) :
    R (x.run s).2 := by
  unfold Meets at h
  rcases hrun : x.run s with ⟨r, t⟩
  rw [hrun] at h
  cases r <;> exact h

/-- Every run does one or the other. -/
theorem meets_of_run (hok : ∀ a t, x.run s = (.ok a, t) → Q a t)
    (herror : ∀ e t, x.run s = (.error e, t) → E e t) : x.Meets s Q E := by
  unfold Meets
  rcases hrun : x.run s with ⟨r, t⟩
  cases r with
  | ok a => exact hok a t hrun
  | error e => exact herror e t hrun

/-- A run that is known. -/
theorem meets_of_answer {a : α} (hrun : x.run s = (.ok a, s')) (h : Q a s') : x.Meets s Q E := by
  unfold Meets
  rw [hrun]
  exact h

/-- A sequence is refused in its first or in its second part. -/
theorem meets_bind {Q : β → σ → Prop} :
    (x >>= k).Meets s Q E ↔ x.Meets s (fun a t => (k a).Meets t Q E) E := by
  unfold Meets
  rw [run_bind]
  rcases x.run s with ⟨r, t⟩
  cases r <;> exact Iff.rfl

/-- An action goes on from all that the first one may answer. -/
theorem Meets.bind {Q' : β → σ → Prop} (hx : x.Meets s Q E)
    (hk : ∀ a t, Q a t → (k a).Meets t Q' E) : (x >>= k).Meets s Q' E := by
  rw [meets_bind]
  exact hx.mono hk fun _ _ h => h

@[simp] theorem meets_pure (a : α) : (pure a : Act σ ε α).Meets s Q E ↔ Q a s := Iff.rfl

@[simp] theorem meets_throw (e : ε) : (throw e : Act σ ε α).Meets s Q E ↔ E e s := Iff.rfl

@[simp] theorem meets_get {Q : σ → σ → Prop} : (get : Act σ ε σ).Meets s Q E ↔ Q s s := Iff.rfl

@[simp] theorem meets_modify {g : σ → σ} {Q : PUnit → σ → Prop} :
    (modify g : Act σ ε PUnit).Meets s Q E ↔ Q () (g s) := Iff.rfl

@[simp] theorem meets_set {t : σ} {Q : PUnit → σ → Prop} :
    (set t : Act σ ε PUnit).Meets s Q E ↔ Q () t := Iff.rfl

theorem meets_ofExcept {r : Except ε α} :
    (ofExcept r : Act σ ε α).Meets s Q E ↔ (∀ a, r = .ok a → Q a s) ∧ ∀ e, r = .error e → E e s := by
  unfold Meets
  rw [run_ofExcept]
  cases r <;> simp

theorem meets_refuseIf [Decidable c] {e : ε} {Q : Unit → σ → Prop} :
    (refuseIf c e : Act σ ε Unit).Meets s Q E ↔ (c → E e s) ∧ (¬ c → Q () s) := by
  unfold Meets
  rw [run_refuseIf]
  by_cases hc : c <;> simp [hc]

theorem meets_onlyIf [Decidable c] {x : Act σ ε Unit} {Q : Unit → σ → Prop} :
    (onlyIf c x).Meets s Q E ↔ (c → x.Meets s Q E) ∧ (¬ c → Q () s) := by
  unfold onlyIf
  by_cases hc : c <;> simp [hc]

theorem meets_mapError {f : ε → ε'} {E : ε' → σ → Prop} :
    (x.mapError f).Meets s Q E ↔ x.Meets s Q fun e t => E (f e) t := by
  unfold Meets
  rw [run_mapError]
  rcases x.run s with ⟨r, t⟩
  cases r <;> exact Iff.rfl

theorem meets_onPart {part : τ → σ} {put : τ → σ → τ} {t : τ} {Q : α → τ → Prop}
    {E : ε → τ → Prop} : (x.onPart part put).Meets t Q E ↔
      x.Meets (part t) (fun a s => Q a (put t s)) fun e s => E e (put t s) := by
  unfold Meets
  rw [run_onPart]
  rcases x.run (part t) with ⟨r, s'⟩
  cases r <;> exact Iff.rfl

theorem meets_andAlways {after : σ → σ} :
    (x.andAlways after).Meets s Q E ↔
      x.Meets s (fun a t => Q a (after t)) fun e t => E e (after t) := by
  unfold Meets
  rw [run_andAlways]
  rcases x.run s with ⟨r, t⟩
  cases r <;> exact Iff.rfl

theorem meets_tryCatch {handle : ε → Act σ ε α} :
    (tryCatch x handle).Meets s Q E ↔ x.Meets s Q fun e t => (handle e).Meets t Q E := by
  unfold Meets
  rw [run_tryCatch]
  rcases x.run s with ⟨r, t⟩
  cases r <;> exact Iff.rfl

end

/-! ## Laws -/

/-- What actions may do to the state, where they answer and where they are
    refused. -/
structure Law (σ ε : Type) where
  answered : σ → σ → Prop
  refused : ε → σ → σ → Prop
  refl : ∀ s, answered s s
  trans : ∀ {s t u}, answered s t → answered t u → answered s u
  after : ∀ {e s t u}, answered s t → refused e t u → refused e s u

/-- Every run of the action keeps to the law. -/
def Law.Holds (L : Law σ ε) (x : Act σ ε α) : Prop :=
  ∀ s, x.Meets s (fun _ t => L.answered s t) fun e t => L.refused e s t

namespace Law.Holds

variable {L : Law σ ε} {x : Act σ ε α} {k : α → Act σ ε β}

theorem pure (a : α) : L.Holds (Pure.pure a : Act σ ε α) := fun s => L.refl s

theorem throw {e : ε} (he : ∀ s, L.refused e s s) : L.Holds (throw e : Act σ ε α) := he

theorem bind (hx : L.Holds x) (hk : ∀ a, L.Holds (k a)) : L.Holds (x >>= k) := by
  intro s
  refine (hx s).bind fun a t ht => ?_
  exact (hk a t).mono (fun _ u hu => L.trans ht hu) fun _ u hu => L.after ht hu

theorem get : L.Holds (get : Act σ ε σ) := fun s => L.refl s

theorem ofExcept {r : Except ε α} (hr : ∀ e, r = .error e → ∀ s, L.refused e s s) :
    L.Holds (Act.ofExcept r : Act σ ε α) := by
  intro s
  rw [meets_ofExcept]
  exact ⟨fun a _ => L.refl s, fun e he => hr e he s⟩

/-- What goes on with a value may use where the value comes from. -/
theorem ofExcept_bind {r : Except ε α} (hr : ∀ e, r = .error e → ∀ s, L.refused e s s)
    (hk : ∀ a, r = .ok a → L.Holds (k a)) : L.Holds (Act.ofExcept r >>= k) := by
  intro s
  rw [meets_bind, meets_ofExcept]
  exact ⟨fun a ha => hk a ha s, fun e he => hr e he s⟩

/-- What was looked up is known to be what the lookup gives. -/
theorem bind_ofExcept {r : Except ε α} (hr : L.Holds (Act.ofExcept r : Act σ ε α))
    (hk : ∀ a, r = .ok a → L.Holds (k a)) : L.Holds ((Act.ofExcept r : Act σ ε α) >>= k) :=
  ofExcept_bind (fun e he s => by subst he; exact hr s) hk

theorem refuseIf [Decidable c] {e : ε} (he : ∀ s, L.refused e s s) :
    L.Holds (Act.refuseIf c e : Act σ ε Unit) := by
  intro s
  rw [meets_refuseIf]
  exact ⟨fun _ => he s, fun _ => L.refl s⟩

theorem onlyIf [Decidable c] {x : Act σ ε Unit} (hx : L.Holds x) : L.Holds (Act.onlyIf c x) := by
  intro s
  rw [meets_onlyIf]
  exact ⟨fun _ => hx s, fun _ => L.refl s⟩

theorem ite [Decidable c] {y : Act σ ε α} (hx : L.Holds x) (hy : L.Holds y) :
    L.Holds (if c then x else y) := by
  by_cases hc : c
  · rw [if_pos hc]
    exact hx
  · rw [if_neg hc]
    exact hy

theorem forM {l : List α} {x : α → Act σ ε PUnit} (hx : ∀ a, L.Holds (x a)) :
    L.Holds (l.forM x) := by
  induction l with
  | nil => exact pure _
  | cons a rest ih => exact bind (hx a) fun _ => ih

theorem mapM {l : List α} {x : α → Act σ ε β} (hx : ∀ a, L.Holds (x a)) :
    L.Holds (l.mapM x) := by
  induction l with
  | nil => exact pure _
  | cons a rest ih =>
    rw [List.mapM_cons]
    exact bind (hx a) fun _ => bind ih fun _ => pure _

/-- An action whose refusals are renamed keeps to a law that allows the new
    reasons where it allowed the old ones. -/
theorem mapError {L' : Law σ ε'} {f : ε → ε'} (hx : L.Holds x)
    (hans : ∀ s t, L.answered s t → L'.answered s t)
    (href : ∀ e s t, L.refused e s t → L'.refused (f e) s t) : L'.Holds (x.mapError f) := by
  intro s
  rw [meets_mapError]
  exact (hx s).mono (fun _ t h => hans s t h) fun e t h => href e s t h

/-- A handler starts where the refused action has stopped. -/
theorem tryCatch {handle : ε → Act σ ε α}
    (hx : ∀ s, x.Meets s (fun _ t => L.answered s t)
      fun e t => (handle e).Meets t (fun _ u => L.answered s u) fun e' u => L.refused e' s u) :
    L.Holds (tryCatch x handle) := by
  intro s
  rw [meets_tryCatch]
  exact hx s

/-- A handler goes on where refusals leave what answers may leave. -/
theorem tryCatch_of_refused {handle : ε → Act σ ε α}
    (href : ∀ e s t, L.refused e s t → L.answered s t) (hx : L.Holds x)
    (hhandle : ∀ e, L.Holds (handle e)) : L.Holds (MonadExcept.tryCatch x handle) :=
  tryCatch fun s => (hx s).mono (fun _ _ h => h) fun e t ht =>
    (hhandle e t).mono (fun _ _ h => L.trans (href e s t ht) h)
      fun _ _ h => L.after (href e s t ht) h

end Law.Holds

/-! ## Answers alone -/

/-- From a state, an answer satisfies `Q`; whether there is one is not said. -/
def Yields (x : Act σ ε α) (s : σ) (Q : α → σ → Prop) : Prop := x.Meets s Q fun _ _ => True

namespace Yields

variable {x : Act σ ε α} {k : α → Act σ ε β} {s : σ} {Q Q' : α → σ → Prop} {R : β → σ → Prop}

theorem of_meets {E : ε → σ → Prop} (h : x.Meets s Q E) : x.Yields s Q :=
  h.mono (fun _ _ h => h) fun _ _ _ => trivial

theorem of_law {L : Law σ ε} (h : L.Holds x) (s : σ) : x.Yields s fun _ t => L.answered s t :=
  of_meets (h s)

theorem mono (h : x.Yields s Q) (hQ : ∀ a t, Q a t → Q' a t) : x.Yields s Q' :=
  Meets.mono h hQ fun _ _ h => h

theorem of_run (h : ∀ a t, x.run s = (.ok a, t) → Q a t) : x.Yields s Q :=
  meets_of_run h fun _ _ _ => trivial

theorem and (h : x.Yields s Q) (h' : x.Yields s Q') : x.Yields s fun a t => Q a t ∧ Q' a t :=
  of_run fun _ _ hrun => ⟨Meets.of_ok h hrun, Meets.of_ok h' hrun⟩

theorem bind (h : x.Yields s Q) (hk : ∀ a t, Q a t → (k a).Yields t R) : (x >>= k).Yields s R :=
  Meets.bind h hk

/-- An action of which nothing is known. -/
theorem skip (hk : ∀ a t, (k a).Yields t R) : (x >>= k).Yields s R :=
  bind (Q := fun _ _ => True) (of_run fun _ _ _ => trivial) fun a t _ => hk a t

/-- An action whose run is known. -/
theorem bind_of_run {a : α} {t : σ} (h : x.run s = (.ok a, t)) (hk : (k a).Yields t R) :
    (x >>= k).Yields s R :=
  bind (Q := fun c u => c = a ∧ u = t)
    (of_run fun _ _ hrun => by
      rw [h] at hrun
      cases hrun
      exact ⟨rfl, rfl⟩)
    (by
      rintro c u ⟨rfl, rfl⟩
      exact hk)

theorem pure {a : α} (h : Q a s) : (Pure.pure a : Act σ ε α).Yields s Q := h

theorem ofExcept_bind {r : Except ε α} (h : ∀ a, r = .ok a → (k a).Yields s R) :
    ((Act.ofExcept r : Act σ ε α) >>= k).Yields s R :=
  meets_bind.2 (meets_ofExcept.2 ⟨h, fun _ _ => trivial⟩)

theorem refuseIf_bind [Decidable c] {e : ε} {k : Unit → Act σ ε β} (h : ¬c → (k ()).Yields s R) :
    ((Act.refuseIf c e : Act σ ε Unit) >>= k).Yields s R :=
  meets_bind.2 (meets_refuseIf.2 ⟨fun _ => trivial, h⟩)

theorem ite [Decidable c] {y : Act σ ε α} (hx : c → x.Yields s Q)
    (hy : ¬c → y.Yields s Q) : (if c then x else y).Yields s Q := by
  by_cases hc : c
  · rw [if_pos hc]
    exact hx hc
  · rw [if_neg hc]
    exact hy hc

theorem mapError {f : ε → ε'} (h : x.Yields s Q) : (x.mapError f).Yields s Q :=
  meets_mapError.2 h

theorem tryCatch {handle : ε → Act σ ε α} (h : x.Yields s Q)
    (hhandle : ∀ e t, x.run s = (.error e, t) → (handle e).Yields t Q) :
    (tryCatch x handle).Yields s Q :=
  meets_tryCatch.2 (meets_of_run (fun _ _ hrun => Meets.of_ok h hrun) hhandle)

end Yields

end Act

end Shading
