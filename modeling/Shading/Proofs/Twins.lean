import Shading.Proofs.Outcomes

/-! # Runs side by side

    Two actions are run from two states that agree, and the runs are compared
    step by step.  A `Bond` says what it means that two states agree and how
    the runs may part: one of them may be refused while the other goes on.
    The actions are twins if all their runs are bound to one another in this
    way (`Bond.Twin`).  Twins are made from twins: each way to put actions
    together has its lemma here. -/

namespace Shading

namespace Act

variable {σ τ ε ε' α β γ δ : Type}

/-- How two runs are bound to one another. -/
structure Bond (σ ε : Type) where
  /-- The states that both runs have reached agree. -/
  agree : σ → σ → Prop
  /-- The second run was refused in its state, for this reason; the first one
      has gone on to its own state. -/
  ahead : σ → ε → σ → Prop
  /-- Once the first run is refused, nothing more is asked of the second. -/
  lenient : Prop

namespace Bond

/-- How two bound runs may end. -/
inductive Outcome (B : Bond σ ε) (A : α → β → Prop) : Except ε α × σ → Except ε β × σ → Prop
  | answered {a : α} {b : β} {s t : σ} (ha : A a b) (h : B.agree s t) :
    Outcome B A (.ok a, s) (.ok b, t)
  | refused {e : ε} {s t : σ} (h : B.agree s t) : Outcome B A (.error e, s) (.error e, t)
  | ahead {r : Except ε α} {e : ε} {s t : σ} (h : B.ahead s e t) :
    Outcome B A (r, s) (.error e, t)
  | excused {e : ε} {s : σ} {q : Except ε β × σ} (h : B.lenient) : Outcome B A (.error e, s) q

/-- The runs of the actions are bound to one another, with answers that are
    related; a first run that has gone ahead may go on. -/
structure Twin (B : Bond σ ε) (A : α → β → Prop) (x : Act σ ε α) (y : Act σ ε β) : Prop where
  outcome : ∀ s t, B.agree s t → B.Outcome A (x.run s) (y.run t)
  goesOn : ∀ s e t, B.ahead s e t → B.ahead (x.run s).2 e t

/-- No run goes ahead of the other. -/
def Plain (B : Bond σ ε) : Prop := ∀ s e t, ¬ B.ahead s e t

/-- The second run does what the first one does. -/
def same (σ ε : Type) : Bond σ ε := ⟨Eq, fun _ _ _ => False, False⟩

/-- The second run does what the first one does, unless that is refused. -/
def follow (σ ε : Type) : Bond σ ε := ⟨Eq, fun _ _ _ => False, True⟩

/-- Both runs are one and the same, and what it keeps holds along it. -/
def keeping (ε : Type) (I : σ → Prop) : Bond σ ε :=
  ⟨fun s t => t = s ∧ I s, fun _ _ _ => False, False⟩

theorem same_plain : (same σ ε).Plain := fun _ _ _ h => h

theorem follow_plain : (follow σ ε).Plain := fun _ _ _ h => h

theorem keeping_plain {I : σ → Prop} : (keeping ε I).Plain := fun _ _ _ h => h

namespace Twin

variable {B : Bond σ ε} {A : α → β → Prop} {x : Act σ ε α} {y : Act σ ε β}

theorem mono {A' : α → β → Prop} (h : B.Twin A x y) (hA : ∀ a b, A a b → A' a b) :
    B.Twin A' x y := by
  refine ⟨fun s t hst => ?_, h.goesOn⟩
  have houtcome := h.outcome s t hst
  generalize x.run s = p at houtcome
  generalize y.run t = q at houtcome
  cases houtcome with
  | answered ha hst' => exact .answered (hA _ _ ha) hst'
  | refused hst' => exact .refused hst'
  | ahead hahead => exact .ahead hahead
  | excused hlenient => exact .excused hlenient

/-- Where states agree only with themselves, an action is its own twin. -/
theorem refl (hB : B.Plain) (heq : ∀ s t, B.agree s t ↔ s = t) (x : Act σ ε α) :
    B.Twin Eq x x := by
  refine ⟨fun s t hst => ?_, fun s e t h => absurd h (hB s e t)⟩
  obtain rfl := (heq s t).1 hst
  rcases x.run s with ⟨r, s'⟩
  cases r with
  | ok a => exact .answered rfl ((heq s' s').2 rfl)
  | error e => exact .refused ((heq s' s').2 rfl)

/-- An action that keeps what is to be kept is its own twin. -/
theorem of_keeps {I : σ → Prop} {x : Act σ ε α} (h : ∀ s, I s → I (x.run s).2) :
    (keeping ε I).Twin Eq x x := by
  refine ⟨fun s t hst => ?_, fun s e t h => h.elim⟩
  obtain ⟨rfl, hs⟩ := hst
  have hend := h t hs
  generalize x.run t = p at hend
  obtain ⟨r, t'⟩ := p
  cases r with
  | ok a => exact .answered rfl ⟨rfl, hend⟩
  | error e => exact .refused ⟨rfl, hend⟩

theorem keeps {I : σ → Prop} {x : Act σ ε α} (h : (keeping ε I).Twin Eq x x) {s : σ} (hs : I s) :
    I (x.run s).2 := by
  have houtcome := h.outcome s s ⟨rfl, hs⟩
  generalize x.run s = p at houtcome
  cases houtcome with
  | answered _ hst => exact hst.2
  | refused hst => exact hst.2
  | ahead h => exact h.elim
  | excused h => exact h.elim

/-- Twins under the bond of sameness are the same action. -/
theorem eq_of_same {x y : Act σ ε α} (h : (same σ ε).Twin Eq x y) : x = y := by
  funext s
  have houtcome := h.outcome s s rfl
  show x.run s = y.run s
  generalize x.run s = p at houtcome
  generalize y.run s = q at houtcome
  cases houtcome with
  | answered ha hst => rw [ha, show _ = _ from hst]
  | refused hst => rw [show _ = _ from hst]
  | ahead hahead => exact hahead.elim
  | excused hlenient => exact hlenient.elim

theorem pure {a : α} {b : β} (hab : A a b) :
    B.Twin A (Pure.pure a : Act σ ε α) (Pure.pure b : Act σ ε β) :=
  ⟨fun _ _ hst => .answered hab hst, fun _ _ _ h => h⟩

theorem throw (e : ε) : B.Twin A (throw e : Act σ ε α) (throw e : Act σ ε β) :=
  ⟨fun _ _ hst => .refused hst, fun _ _ _ h => h⟩

/-- Nothing is asked of the second run if the first one is refused. -/
theorem throw_any (hB : B.lenient) (hplain : B.Plain) (e : ε) (y : Act σ ε β) :
    B.Twin A (MonadExcept.throw e : Act σ ε α) y :=
  ⟨fun _ _ _ => .excused hB, fun s e t h => absurd h (hplain s e t)⟩

/-- If the first run may go ahead, then the first continuation is needed for
    all answers, also for those that the second run never gives. -/
theorem bind_rel {C : γ → δ → Prop} {k : α → Act σ ε γ} {l : β → Act σ ε δ}
    (hx : B.Twin A x y) (htotal : (∀ a, ∃ b, A a b) ∨ B.Plain)
    (hk : ∀ a b, A a b → B.Twin C (k a) (l b)) : B.Twin C (x >>= k) (y >>= l) := by
  -- A run that is ahead stays ahead in `k a`; some `l b` beside it is needed to say so.
  have hgoes : ∀ a s e t, B.ahead s e t → B.ahead ((k a).run s).2 e t := by
    intro a s e t hahead
    rcases htotal with htotal | hplain
    · obtain ⟨b, hab⟩ := htotal a
      exact (hk a b hab).goesOn s e t hahead
    · exact absurd hahead (hplain s e t)
  constructor
  · intro s t hst
    have houtcome := hx.outcome s t hst
    rw [run_bind, run_bind]
    generalize x.run s = p at houtcome
    generalize y.run t = q at houtcome
    cases houtcome with
    | answered ha hst' => exact (hk _ _ ha).outcome _ _ hst'
    | refused hst' => exact .refused hst'
    | @ahead r e s' t' hahead =>
      cases r with
      | ok a =>
        have hend := hgoes a s' e t' hahead
        show B.Outcome C ((k a).run s') (.error e, t')
        generalize (k a).run s' = p at hend
        obtain ⟨r, s''⟩ := p
        exact .ahead hend
      | error _ => exact .ahead hahead
    | excused hlenient => exact .excused hlenient
  · intro s e t hahead
    have hmid := hx.goesOn s e t hahead
    rw [run_bind]
    generalize x.run s = p at hmid
    obtain ⟨r, s'⟩ := p
    cases r with
    | ok a => exact hgoes a s' e t hmid
    | error _ => exact hmid

theorem bind {C : γ → δ → Prop} {y : Act σ ε α} {k : α → Act σ ε γ} {l : α → Act σ ε δ}
    (hx : B.Twin Eq x y) (hk : ∀ a, B.Twin C (k a) (l a)) : B.Twin C (x >>= k) (y >>= l) :=
  bind_rel hx (.inl fun a => ⟨a, rfl⟩) fun a _ hab => hab ▸ hk a

theorem ofExcept (r : Except ε α) :
    B.Twin Eq (Act.ofExcept r : Act σ ε α) (Act.ofExcept r : Act σ ε α) := by
  cases r with
  | ok a => exact pure rfl
  | error e => exact throw e

/-- The continuation after an outcome that was computed without looking at the
    state. -/
theorem ofExcept_bind {C : γ → δ → Prop} {r : Except ε α} {k : α → Act σ ε γ}
    {l : α → Act σ ε δ} (hk : ∀ a, r = .ok a → B.Twin C (k a) (l a)) :
    B.Twin C ((Act.ofExcept r : Act σ ε α) >>= k) ((Act.ofExcept r : Act σ ε α) >>= l) := by
  cases r with
  | ok a => exact hk a rfl
  | error e => exact throw e

theorem refuseIf (c : Prop) [Decidable c] (e : ε) :
    B.Twin Eq (Act.refuseIf c e : Act σ ε Unit) (Act.refuseIf c e) := by
  unfold Act.refuseIf
  by_cases hc : c
  · rw [if_pos hc]
    exact throw e
  · rw [if_neg hc]
    exact pure rfl

theorem ite (c : Prop) [Decidable c] {x' : Act σ ε α} {y' : Act σ ε β} (hx : B.Twin A x y)
    (hx' : B.Twin A x' y') : B.Twin A (if c then x else x') (if c then y else y') := by
  by_cases hc : c
  · rw [if_pos hc, if_pos hc]
    exact hx
  · rw [if_neg hc, if_neg hc]
    exact hx'

theorem onlyIf (c : Prop) [Decidable c] {x y : Act σ ε Unit} (hx : B.Twin Eq x y) :
    B.Twin Eq (Act.onlyIf c x) (Act.onlyIf c y) :=
  ite c hx (pure rfl)

theorem forM {l : List γ} {x y : γ → Act σ ε PUnit} (hx : ∀ c, B.Twin Eq (x c) (y c)) :
    B.Twin Eq (l.forM x) (l.forM y) := by
  induction l with
  | nil => exact pure rfl
  | cons c rest ih => exact bind (hx c) fun _ => ih

theorem mapM {l : List γ} {x y : γ → Act σ ε α} (hx : ∀ c, B.Twin Eq (x c) (y c)) :
    B.Twin Eq (l.mapM x) (l.mapM y) := by
  induction l with
  | nil => exact pure rfl
  | cons c rest ih =>
    rw [List.mapM_cons, List.mapM_cons]
    exact bind (hx c) fun _ => bind ih fun _ => pure rfl

/-- A change of both states. -/
theorem modify {g g' : σ → σ} (hagree : ∀ s t, B.agree s t → B.agree (g s) (g' t))
    (hahead : ∀ s e t, B.ahead s e t → B.ahead (g s) e t) :
    B.Twin Eq (modify g : Act σ ε PUnit) (modify g' : Act σ ε PUnit) :=
  ⟨fun s t hst => .answered rfl (hagree s t hst), hahead⟩

/-- What is done after both runs, whether they were refused or not. -/
theorem andAlways {after after' : σ → σ} (hx : B.Twin A x y)
    (hagree : ∀ s t, B.agree s t → B.agree (after s) (after' t))
    (hahead : ∀ s e t, B.ahead s e t → B.ahead (after s) e (after' t))
    (hgoes : ∀ s e t, B.ahead s e t → B.ahead (after s) e t) :
    B.Twin A (x.andAlways after) (y.andAlways after') := by
  constructor
  · intro s t hst
    have houtcome := hx.outcome s t hst
    rw [run_andAlways, run_andAlways]
    generalize x.run s = p at houtcome
    generalize y.run t = q at houtcome
    -- Whatever comes out, the step behind is taken on both sides.
    cases houtcome with
    | answered ha hst' => exact .answered ha (hagree _ _ hst')
    | refused hst' => exact .refused (hagree _ _ hst')
    | ahead h => exact .ahead (hahead _ _ _ h)
    | excused hlenient => exact .excused hlenient
  · intro s e t h
    rw [run_andAlways]
    exact hgoes _ e t (hx.goesOn s e t h)

/-- Renamed reasons of refusal. -/
theorem mapError {B' : Bond σ ε'} (hx : B.Twin A x y) (hplain : B.Plain) (hplain' : B'.Plain)
    (hagree : ∀ s t, B'.agree s t ↔ B.agree s t) (hlenient : B.lenient → B'.lenient) (f : ε → ε') :
    B'.Twin A (x.mapError f) (y.mapError f) := by
  refine ⟨fun s t hst => ?_, fun s e t h => absurd h (hplain' s e t)⟩
  have houtcome := hx.outcome s t ((hagree s t).1 hst)
  rw [run_mapError, run_mapError]
  generalize x.run s = p at houtcome
  generalize y.run t = q at houtcome
  cases houtcome with
  | answered ha hst' => exact .answered ha ((hagree _ _).2 hst')
  | refused hst' => exact .refused ((hagree _ _).2 hst')
  | ahead h => exact absurd h (hplain _ _ _)
  | excused h => exact .excused (hlenient h)

/-- Handlers start where both actions were refused. -/
theorem tryCatch {handle : ε → Act σ ε α} {handle' : ε → Act σ ε β} (hx : B.Twin A x y)
    (hplain : B.Plain) (hstrict : ¬ B.lenient) (hhandle : ∀ e, B.Twin A (handle e) (handle' e)) :
    B.Twin A (tryCatch x handle) (tryCatch y handle') := by
  refine ⟨fun s t hst => ?_, fun s e t h => absurd h (hplain s e t)⟩
  have houtcome := hx.outcome s t hst
  rw [run_tryCatch, run_tryCatch]
  generalize x.run s = p at houtcome
  generalize y.run t = q at houtcome
  cases houtcome with
  | answered ha hst' => exact .answered ha hst'
  | refused hst' => exact (hhandle _).outcome _ _ hst'
  | ahead h => exact absurd h (hplain _ _ _)
  | excused h => exact absurd h hstrict

/-- Actions on a part of the state. -/
theorem onPart {B' : Bond τ ε} {part : τ → σ} {put : τ → σ → τ} (hx : B.Twin A x y)
    (hpart : ∀ s t, B'.agree s t → B.agree (part s) (part t))
    (hput : ∀ s t u v, B'.agree s t → B.agree u v → B'.agree (put s u) (put t v))
    (hplain : B.Plain) (hlenient : B.lenient → B'.lenient)
    (hahead : ∀ s e t u, B'.ahead s e t → B'.ahead (put s u) e t) :
    B'.Twin A (x.onPart part put) (y.onPart part put) := by
  constructor
  · intro s t hst
    have houtcome := hx.outcome _ _ (hpart s t hst)
    rw [run_onPart, run_onPart]
    generalize x.run (part s) = p at houtcome
    generalize y.run (part t) = q at houtcome
    -- In a part that is plain neither side can be ahead.
    cases houtcome with
    | answered ha huv => exact .answered ha (hput _ _ _ _ hst huv)
    | refused huv => exact .refused (hput _ _ _ _ hst huv)
    | ahead h => exact absurd h (hplain _ _ _)
    | excused h => exact .excused (hlenient h)
  · intro s e t h
    rw [run_onPart]
    exact hahead _ _ _ _ h

end Twin

end Bond

end Act

end Shading
