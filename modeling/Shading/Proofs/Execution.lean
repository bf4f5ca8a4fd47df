import Shading.Proofs.Reachability

/-! # Running a body

    A run of a function first reserves the slots of the entry block and then
    runs the code of the body.  Main results: the three ways in which a run
    can go are those of its code (`Code.Fills.returns_iff`,
    `Code.Fills.getsStuck_iff`, `Code.Fills.diverges_iff`), and code keeps
    whatever its instructions keep (`Code.run_keeps`). -/

namespace Shading.IR

variable {σ ρ : Type} {M : Interp σ ρ}

/-! ## Slots -/

namespace Function

/-- The slots of the entry block with their instructions. -/
def slotLines (f : Function) : List (InstId × Inst) :=
  (f.slots 0).filterMap fun i => (f.inst? i).map (i, ·)

/-- A slot is an instruction that reserves memory. -/
theorem inst?_of_mem_slots {f : Function} {b : BlockId} {i : InstId} (hi : i ∈ f.slots b) :
    ∃ x, f.inst? i = some x ∧ x.op.isAlloca = true := by
  have hslot : f.isSlot i = true := List.mem_takeWhile_imp hi
  unfold isSlot at hslot
  cases hx : f.inst? i with
  | none => rw [hx] at hslot; cases hslot
  | some x => rw [hx] at hslot; exact ⟨x, rfl, hslot⟩

theorem slots_reaches (f : Function) (rest : List InstId) : ∀ (front : List InstId) {s s' : σ},
    f.slots 0 = front ++ rest →
    M.execAll (rest.filterMap fun i => (f.inst? i).map (i, ·)) s = some s' →
    f.Reaches M ⟨0, front.length, 0, s⟩ ⟨0, (f.slots 0).length, 0, s'⟩ := by
  -- By induction on the slots that are still to come, behind those that are done.
  induction rest with
  | nil =>
    intro front s s' hsplit hexec
    rw [List.append_nil] at hsplit
    cases hexec
    rw [hsplit]
    exact .refl _
  | cons i rest ih =>
    intro front s s' hsplit hexec
    obtain ⟨x, hx, halloca⟩ : ∃ x, f.inst? i = some x ∧ x.op.isAlloca = true :=
      inst?_of_mem_slots (b := 0) (by rw [hsplit]; simp)
    have hline : (i :: rest).filterMap (fun i => (f.inst? i).map (i, ·)) =
        (i, x) :: rest.filterMap fun i => (f.inst? i).map (i, ·) := by
      simp [hx]
    rw [hline] at hexec
    obtain ⟨s₁, hs₁, hrest⟩ := Option.bind_eq_some_iff.1 hexec
    have hat : f.instAt? 0 front.length = some (i, x) := by
      have hget : (f.blockIds 0)[front.length]? = some i := by
        rw [← f.slots_append_code 0, hsplit]
        simp
      unfold instAt?
      unfold blockIds at hget
      cases hb : f.block? 0 with
      | none => rw [hb] at hget; cases hget
      | some block =>
        rw [hb] at hget
        have hget' : block.insts[front.length]? = some i := hget
        simp [hget', hx]
    have hplain : x.op.isPlain = true := by
      cases hop : x.op <;> simp_all [Op.isPlain, Op.isTerminator, Op.isAlloca]
    have hstep : f.run M 1 ⟨0, front.length, 0, s⟩ = .running ⟨0, front.length + 1, 0, s₁⟩ := by
      rw [run_one]
      unfold step
      simp only [hat]
      rw [Interp.act_plain hplain]
      simp only [hs₁]
      rfl
    have hnext := ih (front ++ [i]) (by rw [hsplit]; simp) hrest
    rw [List.length_append, List.length_singleton] at hnext
    exact Reaches.trans ⟨1, hstep⟩ hnext

/-- Reserving the slots, where reserving one is a function of the state. -/
theorem execAll_slotLines (f : Function) {reserve : InstId → σ → σ}
    (hreserve : ∀ {id i s}, i.op.isAlloca = true → M.exec id i s = some (reserve id s)) (s : σ) :
    M.execAll f.slotLines s = some ((f.slots 0).foldl (fun s a => reserve a s) s) := by
  have hall : ∀ a ∈ f.slots 0, ∃ x, f.inst? a = some x ∧ x.op.isAlloca = true := fun a ha =>
    inst?_of_mem_slots ha
  unfold slotLines
  -- By induction on the slots, of which only that they are there is used.
  generalize f.slots 0 = as at hall
  induction as generalizing s with
  | nil => rfl
  | cons a rest ih =>
    obtain ⟨x, hx, halloca⟩ := hall a (List.mem_cons_self ..)
    have hline : (a :: rest).filterMap (fun i => (f.inst? i).map (i, ·)) =
        (a, x) :: rest.filterMap fun i => (f.inst? i).map (i, ·) := by
      simp [hx]
    rw [hline, Interp.execAll, hreserve halloca]
    exact ih (reserve a s) fun b hb => hall b (List.mem_cons_of_mem _ hb)

/-- Once its slots are reserved, a function is at the start of its code. -/
theorem start_reaches {f : Function} {s s' : σ} (hexec : M.execAll f.slotLines s = some s') :
    f.Reaches M (.start s) ((Point.start 0).config f 0 s') :=
  f.slots_reaches (f.slots 0) [] (List.nil_append _).symm hexec

end Function

/-! ## The code of a body -/

namespace Code.Fills

variable {C : Code} {F : Function} {s₀ s : σ}

/-- Behind the code of a body there is nothing that control gets to. -/
theorem run_ne_done (h : C.Fills F) (hF : F.Regular) (hv : F.verify = .ok ())
    (hs : M.execAll F.slotLines s₀ = some s) (n : Nat) (s' : σ) : C.run M n s ≠ .done s' := by
  intro hdone
  obtain ⟨q, hlies, hends⟩ := h
  rcases hends with hends | ⟨-, hreach⟩
  · exact Code.run_ne_done C hends s s' hdone
  · have hrun := Code.lies_run (M := M) (n := n) hF.innerSlots C hlies s 0
    rw [hdone] at hrun
    obtain ⟨came, hq⟩ := hrun
    obtain ⟨k, hk⟩ := (Function.start_reaches hs).trans hq
    have hpath : F.Path q.block :=
      Function.run_path (Function.clean_of_verify hv) hk Relation.ReflTransGen.refl
    rw [Function.isReachable_of_path hF hpath] at hreach
    cases hreach

/-- A run does what the code of the body says. -/
theorem run_matches (h : C.Fills F) (hF : F.Regular) (hv : F.verify = .ok ())
    (hs : M.execAll F.slotLines s₀ = some s) (n : Nat) :
    (∃ r, C.run M n s = .returned r ∧ F.Returns M (.start s₀) r) ∨
    (C.run M n s = .stuck ∧ F.GetsStuck M (.start s₀)) ∨
    (C.run M n s = .timeout ∧ ∃ k c, n ≤ k ∧ F.run M k (.start s₀) = .running c) := by
  have hne := h.run_ne_done hF hv hs n
  obtain ⟨q, hlies, -⟩ := h
  -- The code lies in the body, so a run of the code is a run of the machine.
  have hrun := Code.lies_run (M := M) (n := n) hF.innerSlots C hlies s 0
  have hfrom := Code.Matches.after (Function.start_reaches hs) hrun
  cases ho : C.run M n s with
  | done s' => exact absurd ho (hne s')
  | jumped j s' =>
    rw [ho] at hfrom
    obtain ⟨tg, came, htg, -⟩ := hfrom
    cases htg
  | returned r =>
    rw [ho] at hfrom
    exact .inl ⟨r, rfl, hfrom⟩
  | stuck =>
    rw [ho] at hfrom
    exact .inr (.inl ⟨rfl, hfrom⟩)
  | timeout =>
    rw [ho] at hfrom
    exact .inr (.inr ⟨rfl, hfrom⟩)

/-- A run that ends keeps its code from being busy for long. -/
theorem run_ne_timeout {n : Nat} {st : Status σ ρ} (hst : ∀ c, st ≠ .running c)
    (hrun : F.run M n (.start s₀) = st) {k : Nat} {c : Config σ} (hk : n ≤ k)
    (hbusy : F.run M k (.start s₀) = .running c) : False := by
  rw [Function.run_ended hrun hst hk] at hbusy
  exact hst c hbusy

theorem returns_iff (h : C.Fills F) (hF : F.Regular) (hv : F.verify = .ok ())
    (hs : M.execAll F.slotLines s₀ = some s) (r : ρ) :
    F.Returns M (.start s₀) r ↔ ∃ n, C.run M n s = .returned r := by
  constructor
  · rintro ⟨n, hn⟩
    refine ⟨n, ?_⟩
    -- The code ends as the function does, and a function ends in one way only.
    rcases h.run_matches hF hv hs n with ⟨r', hr', hret⟩ | ⟨-, hstuck⟩ | ⟨-, k, c, hk, hbusy⟩
    · rw [hr', Function.Returns.unique hret ⟨n, hn⟩]
    · exact absurd hstuck (Function.Returns.not_getsStuck ⟨n, hn⟩)
    · exact (run_ne_timeout (by simp) hn hk hbusy).elim
  · rintro ⟨n, hn⟩
    rcases h.run_matches hF hv hs n with ⟨r', hr', hret⟩ | ⟨hstuck, -⟩ | ⟨hbusy, -⟩
    · rw [hn] at hr'
      cases hr'
      exact hret
    · rw [hn] at hstuck
      cases hstuck
    · rw [hn] at hbusy
      cases hbusy

theorem getsStuck_iff (h : C.Fills F) (hF : F.Regular) (hv : F.verify = .ok ())
    (hs : M.execAll F.slotLines s₀ = some s) :
    F.GetsStuck M (.start s₀) ↔ ∃ n, C.run M n s = .stuck := by
  constructor
  · rintro ⟨n, hn⟩
    refine ⟨n, ?_⟩
    -- A run that is stuck neither returns nor goes on, so the code is stuck, too.
    rcases h.run_matches hF hv hs n with ⟨r', -, hret⟩ | ⟨hstuck, -⟩ | ⟨-, k, c, hk, hbusy⟩
    · exact absurd ⟨n, hn⟩ hret.not_getsStuck
    · exact hstuck
    · exact (run_ne_timeout (by simp) hn hk hbusy).elim
  · rintro ⟨n, hn⟩
    rcases h.run_matches hF hv hs n with ⟨r', hr', -⟩ | ⟨-, hstuck⟩ | ⟨hbusy, -⟩
    · rw [hn] at hr'
      cases hr'
    · exact hstuck
    · rw [hn] at hbusy
      cases hbusy

theorem diverges_iff (h : C.Fills F) (hF : F.Regular) (hv : F.verify = .ok ())
    (hs : M.execAll F.slotLines s₀ = some s) :
    F.Diverges M (.start s₀) ↔ ∀ n, C.run M n s = .timeout := by
  constructor
  · intro hd n
    rcases h.run_matches hF hv hs n with ⟨r', -, hret⟩ | ⟨-, hstuck⟩ | ⟨hbusy, -⟩
    · exact absurd hd hret.not_diverges
    · exact absurd hd hstuck.not_diverges
    · exact hbusy
  · intro hall n
    rcases h.run_matches hF hv hs n with ⟨r', hr', -⟩ | ⟨hstuck, -⟩ | ⟨-, k, c, hk, hbusy⟩
    · rw [hall n] at hr'
      cases hr'
    · rw [hall n] at hstuck
      cases hstuck
    · -- A run that is busy for long is busy before.
      cases hn : F.run M n (.start s₀) with
      | running c' => exact ⟨c', rfl⟩
      | returned r => exact (run_ne_timeout (by simp) hn hk hbusy).elim
      | stuck => exact (run_ne_timeout (by simp) hn hk hbusy).elim

end Code.Fills

/-! ## Frames -/

/-- The state in which a piece of code is left, if it is. -/
def Outcome.state? : Outcome σ ρ → Option σ
  | .done s | .jumped _ s => some s
  | _ => none

/-- Whatever instructions with the given numbers do, it keeps the states
    related. -/
structure Interp.Keeps (M : Interp σ ρ) (ids : List InstId) (R : σ → σ → Prop) : Prop where
  refl : ∀ s, R s s
  trans : ∀ {s s' s''}, R s s' → R s' s'' → R s s''
  exec : ∀ {id i s s'}, id ∈ ids → M.exec id i s = some s' → R s s'
  merge : ∀ {id v s s'}, id ∈ ids → M.merge id v s = some s' → R s s'
  test : ∀ {v s b s'}, M.test v s = some (b, s') → R s s'

namespace Code

variable {ids : List InstId} {R : σ → σ → Prop} {n : Nat}

theorem state?_ofOption {o : Option σ} {s' : σ}
    (h : (Outcome.ofOption o : Outcome σ ρ).state? = some s') : o = some s' := by
  cases o with
  | none => cases h
  | some s => exact h

theorem state?_andThen {o : Outcome σ ρ} {k : σ → Outcome σ ρ} {s' : σ}
    (h : (o.andThen k).state? = some s') :
    o.state? = some s' ∨ ∃ s, o = .done s ∧ (k s).state? = some s' := by
  cases o with
  | done s => exact .inr ⟨s, rfl, h⟩
  | jumped j s => exact .inl h
  | returned r => cases h
  | stuck => cases h
  | timeout => cases h

theorem execAll_keeps (hM : M.Keeps ids R) (l : List (InstId × Inst)) :
    ∀ {s s' : σ}, (∀ i ∈ l.map Prod.fst, i ∈ ids) → M.execAll l s = some s' → R s s' := by
  induction l with
  | nil =>
    intro s s' _ h
    cases h
    exact hM.refl s
  | cons x rest ih =>
    intro s s' hin h
    obtain ⟨s₁, hx, hrest⟩ := Option.bind_eq_some_iff.1 h
    have hhead : x.1 ∈ ids := hin x.1 (List.mem_cons_self ..)
    exact hM.trans (hM.exec hhead hx)
      (ih (fun i hi => hin i (List.mem_cons_of_mem _ hi)) hrest)

theorem guard_keeps (hM : M.Keeps ids R) {v : Value} {s s' : σ} {b : Bool}
    (h : M.guard v s = some (b, s')) : R s s' := by
  unfold Interp.guard at h
  split at h
  · cases h
    exact hM.refl s
  · exact hM.test h

theorem turns_keeps (hM : M.Keeps ids R) {head body : σ → Outcome σ ρ} {v : Value}
    (hhead : ∀ s s', (head s).state? = some s' → R s s')
    (hbody : ∀ s s', (body s).state? = some s' → R s s') (k : Nat) :
    ∀ s s', (turns head (M.guard v) body k s).state? = some s' → R s s' := by
  -- By induction on the turns; a turn may end in the condition, in the body or by a jump.
  induction k with
  | zero =>
    intro s s' h
    cases h
  | succ k ih =>
    intro s s' h
    rcases state?_andThen h with h | ⟨s₁, h₁, h⟩
    · exact hhead s s' h
    · have hs₁ := hhead s s₁ (by rw [h₁]; rfl)
      cases hg : M.guard v s₁ with
      | none =>
        simp only [hg] at h
        cases h
      | some r =>
        obtain ⟨b, s₂⟩ := r
        have hs₂ := hM.trans hs₁ (guard_keeps hM hg)
        simp only [hg] at h
        cases b with
        | false =>
          cases h
          exact hs₂
        | true =>
          cases ho : body s₂ with
          | done s₃ =>
            have hs₃ := hM.trans hs₂ (hbody s₂ s₃ (by rw [ho]; rfl))
            simp only [ho] at h
            exact hM.trans hs₃ (ih s₃ s' h)
          | jumped j s₃ =>
            have hs₃ := hM.trans hs₂ (hbody s₂ s₃ (by rw [ho]; rfl))
            simp only [ho] at h
            cases j with
            | breakLoop =>
              cases h
              exact hs₃
            | continueLoop => exact hM.trans hs₃ (ih s₃ s' h)
          | returned r => simp only [ho] at h; cases h
          | stuck => simp only [ho] at h; cases h
          | timeout => simp only [ho] at h; cases h

/-- Code keeps whatever its instructions keep. -/
theorem run_keeps (hM : M.Keeps ids R) : (c : Code) → (∀ i ∈ c.ids, i ∈ ids) → ∀ s s',
    (c.run M n s).state? = some s' → R s s'
  | line l, hin, s, s', h => execAll_keeps hM l hin (state?_ofOption h)
  | seq a b, hin, s, s', h => by
    -- The parts of code are numbered inside the same range.
    have hina : ∀ i ∈ a.ids, i ∈ ids := fun i hi => hin i (List.mem_append_left _ hi)
    have hinb : ∀ i ∈ b.ids, i ∈ ids := fun i hi => hin i (List.mem_append_right _ hi)
    rcases state?_andThen h with h | ⟨s₁, h₁, h⟩
    · exact run_keeps hM a hina s s' h
    · exact hM.trans (run_keeps hM a hina s s₁ (by rw [h₁]; rfl)) (run_keeps hM b hinb s₁ s' h)
  | shortcut isAnd l r v result, hin, s, s', h => by
    have hinr : ∀ i ∈ r.ids, i ∈ ids := fun i hi => hin i (by simp [Code.ids, hi])
    have hres : result ∈ ids := hin result (by simp [Code.ids])
    simp only [run] at h
    cases ht : M.test l s with
    | none => rw [ht] at h; cases h
    | some x =>
      obtain ⟨w, s₁⟩ := x
      rw [ht] at h
      have hs₁ := hM.test ht
      by_cases hw : w = isAnd
      · simp only [hw, if_true] at h
        rcases state?_andThen h with h | ⟨s₂, h₂, h⟩
        · exact hM.trans hs₁ (run_keeps hM r hinr s₁ s' h)
        · exact hM.trans hs₁ (hM.trans (run_keeps hM r hinr s₁ s₂ (by rw [h₂]; rfl))
            (hM.merge hres (state?_ofOption h)))
      · simp only [hw, if_false] at h
        exact hM.trans hs₁ (hM.merge hres (state?_ofOption h))
  | ifThen c t, hin, s, s', h => by
    simp only [run] at h
    cases ht : M.test c s with
    | none => rw [ht] at h; cases h
    | some x =>
      obtain ⟨w, s₁⟩ := x
      rw [ht] at h
      have hs₁ := hM.test ht
      cases w with
      | false => cases h; exact hs₁
      | true => exact hM.trans hs₁ (run_keeps hM t hin s₁ s' h)
  | ifThenElse c t e, hin, s, s', h => by
    have hint : ∀ i ∈ t.ids, i ∈ ids := fun i hi => hin i (List.mem_append_left _ hi)
    have hine : ∀ i ∈ e.ids, i ∈ ids := fun i hi => hin i (List.mem_append_right _ hi)
    simp only [run] at h
    cases ht : M.test c s with
    | none => rw [ht] at h; cases h
    | some x =>
      obtain ⟨w, s₁⟩ := x
      rw [ht] at h
      have hs₁ := hM.test ht
      cases w with
      | false => exact hM.trans hs₁ (run_keeps hM e hine s₁ s' h)
      | true => exact hM.trans hs₁ (run_keeps hM t hint s₁ s' h)
  | loop head c b, hin, s, s', h => by
    have hinh : ∀ i ∈ head.ids, i ∈ ids := fun i hi => hin i (List.mem_append_left _ hi)
    have hinb : ∀ i ∈ b.ids, i ∈ ids := fun i hi => hin i (List.mem_append_right _ hi)
    exact turns_keeps hM (run_keeps hM head hinh) (run_keeps hM b hinb) n s s' h
  | leave j, _, s, s', h => by
    cases h
    exact hM.refl s
  | ret v, _, s, s', h => by
    simp only [run] at h
    split at h <;> cases h

end Code

end Shading.IR
