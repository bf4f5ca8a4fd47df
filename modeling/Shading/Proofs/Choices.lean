import Shading.Proofs.Execution

/-! # Runs along every path

    A run that takes its branches from a stream of choices can follow every
    path of the graph.  So what holds of all such runs holds of all paths:
    either some run gets stuck, or each path from the entry is the beginning
    of a run (`Function.Walk.run`). -/

namespace Shading.IR

variable {σ ρ : Type}

/-! ## Choices -/

/-- The ways that the conditional branches of a run take, in order. -/
def Choices := Nat → Bool

namespace Choices

def head (ch : Choices) : Bool := ch 0

def tail (ch : Choices) : Choices := fun n => ch (n + 1)

def cons (b : Bool) (ch : Choices) : Choices
  | 0 => b
  | n + 1 => ch n

@[simp] theorem head_cons (b : Bool) (ch : Choices) : (cons b ch).head = b := rfl

@[simp] theorem tail_cons (b : Bool) (ch : Choices) : (cons b ch).tail = ch := rfl

end Choices

/-- The same instructions, where a branch takes the way that is chosen next. -/
def Interp.choosing (M : Interp σ ρ) : Interp (σ × Choices) ρ where
  exec id i s := (M.exec id i s.1).map (·, s.2)
  merge id v s := (M.merge id v s.1).map (·, s.2)
  test v s := (M.test v s.1).map fun r => (s.2.head, r.2, s.2.tail)
  result v s := M.result v s.1

/-- Instructions that do not branch leave the choices as they are. -/
theorem Interp.execAll_choosing (M : Interp σ ρ) (l : List (InstId × Inst)) (s : σ)
    (ch : Choices) : M.choosing.execAll l (s, ch) = (M.execAll l s).map (·, ch) := by
  induction l generalizing s with
  | nil => rfl
  | cons x rest ih =>
    simp only [execAll, choosing]
    cases M.exec x.1 x.2 s with
    | none => rfl
    | some s' => exact ih s'

namespace Function

/-! ## Walks -/

/-- Control can go from one block to another through the listed ones.  The
    first block is listed and the last one is not. -/
inductive Walk (f : Function) : BlockId → List BlockId → BlockId → Prop
  | nil (b : BlockId) : Walk f b [] b
  | cons {b c d : BlockId} {visited : List BlockId} (hedge : c ∈ f.successors b)
    (hrest : Walk f c visited d) : Walk f b (b :: visited) d

variable {f : Function} {b c d : BlockId} {visited : List BlockId}

theorem Walk.snoc (h : f.Walk b visited c) (hedge : d ∈ f.successors c) :
    f.Walk b (visited ++ [c]) d := by
  induction h with
  | nil b => exact .cons hedge (.nil d)
  | cons hfirst _ ih => exact .cons hfirst (ih hedge)

theorem Walk.reachesBlock (h : f.Walk b visited d) :
    Relation.ReflTransGen (fun a b => b ∈ f.successors a) b d := by
  induction h with
  | nil b => exact .refl
  | cons hedge _ ih => exact .head hedge ih

theorem path_iff_walk : f.Path b ↔ ∃ visited, f.Walk 0 visited b := by
  constructor
  · intro h
    induction h with
    | refl => exact ⟨[], .nil 0⟩
    | tail _ hedge ih =>
      obtain ⟨visited, hwalk⟩ := ih
      exact ⟨_, hwalk.snoc hedge⟩
  · rintro ⟨visited, hwalk⟩
    exact hwalk.reachesBlock

/-- A walk can stop where it comes to its last block for the first time. -/
theorem Walk.first (h : f.Walk b visited d) :
    ∃ visited', f.Walk b visited' d ∧ d ∉ visited' ∧ visited' ⊆ visited := by
  induction h with
  | nil b => exact ⟨[], .nil b, List.not_mem_nil, List.Subset.refl _⟩
  | @cons b c d visited hedge _ ih =>
    by_cases hb : b = d
    · subst hb
      exact ⟨[], .nil b, List.not_mem_nil, List.nil_subset _⟩
    · obtain ⟨visited', hwalk, hnot, hsub⟩ := ih
      refine ⟨b :: visited', .cons hedge hwalk, ?_, List.cons_subset_cons b hsub⟩
      intro hmem
      rcases List.mem_cons.1 hmem with rfl | hmem
      · exact hb rfl
      · exact hnot hmem

/-! ## The search -/

/-- The search finds only what control can get to. -/
theorem explore_path (turns : Nat) : ∀ (marked pending : List BlockId),
    (∀ b ∈ marked, f.Path b) → (∀ b ∈ pending, f.Path b) →
    ∀ b ∈ f.explore turns marked pending, f.Path b := by
  -- By induction on the turns: whatever is marked or pending has a path to it.
  induction turns with
  | zero =>
    intro marked pending hmarked _ b hb
    exact hmarked b hb
  | succ turns ih =>
    intro marked pending hmarked hpending b hb
    cases pending with
    | nil => exact hmarked b hb
    | cons c rest =>
      have hnew : ∀ s ∈ ((f.next c).filter (!marked.contains ·)).eraseDups, f.Path s := by
        intro s hs
        rw [List.mem_eraseDups] at hs
        have hnext := (List.mem_filter.1 hs).1
        unfold next at hnext
        exact (hpending c List.mem_cons_self).tail (List.mem_filter.1 hnext).1
      refine ih _ _ ?_ ?_ b hb
      · intro s hs
        rcases List.mem_append.1 hs with hs | hs
        · exact hmarked s hs
        · exact hnew s hs
      · intro s hs
        rcases List.mem_append.1 hs with hs | hs
        · exact hpending s (List.mem_cons_of_mem _ hs)
        · exact hnew s hs

theorem path_of_isReachable (h : f.isReachable b = true) : f.Path b := by
  unfold isReachable reachable at h
  split at h
  · cases h
  · have hmem : b ∈ f.explore f.blocks.length [0] [0] := by
      simpa using (List.mem_filter.1 (List.contains_iff_mem.1 h)).2
    have hentry : ∀ c ∈ [0], f.Path c := by
      intro c hc
      rw [List.mem_singleton.1 hc]
    exact explore_path _ [0] [0] hentry hentry b hmem

/-! ## Following a walk -/

theorem successors_at (h : c ∈ f.successors b) : ∃ front id i, f.blockIds b = front ++ [id] ∧
    f.inst? id = some i ∧ c ∈ i.op.successors := by
  unfold successors at h
  cases hterm : f.terminator? b with
  | none =>
    rw [hterm] at h
    cases h
  | some i =>
    rw [hterm] at h
    rw [terminator?_eq] at hterm
    obtain ⟨id, hlast, hi⟩ := Option.bind_eq_some_iff.1 hterm
    obtain ⟨front, hfront⟩ := List.getLast?_eq_some_iff.1 hlast
    exact ⟨front, id, i, hfront, (Option.filter_eq_some_iff.1 hi).1, h⟩

/-- Whatever the instructions of a function with the given numbers do, it
    keeps the states related. -/
structure Keeps (f : Function) (M : Interp σ ρ) (P : InstId → Prop) (R : σ → σ → Prop) : Prop where
  refl : ∀ s, R s s
  trans : ∀ {s s' s''}, R s s' → R s' s'' → R s s''
  exec : ∀ {id i s s'}, P id → f.inst? id = some i → M.exec id i s = some s' → R s s'
  merge : ∀ {id v s s'}, P id → M.merge id v s = some s' → R s s'
  test : ∀ {v s b s'}, M.test v s = some (b, s') → R s s'

variable {M : Interp σ ρ} {P : InstId → Prop} {R : σ → σ → Prop}

theorem GetsStuck.after {τ : Type} {N : Interp τ ρ} {c₁ c₂ : Config τ}
    (h : f.Reaches N c₁ c₂) (hstuck : f.GetsStuck N c₂) : f.GetsStuck N c₁ := by
  obtain ⟨m, hm⟩ := h
  obtain ⟨n, hn⟩ := hstuck
  exact ⟨m + n, run_trans hm hn⟩

/-- An instruction that ends no block gets stuck or goes on, whatever will be
    chosen later. -/
theorem act_choosing (hM : f.Keeps M P R) {id : InstId} {i : Inst} (hx : f.inst? id = some i)
    (hi : i.op.isTerminator = false) (hid : P id) (b came : BlockId) (k : Nat) (s : σ) :
    (∀ ch, M.choosing.act ⟨b, k, came, (s, ch)⟩ id i = .stuck) ∨
      ∃ s', R s s' ∧ ∀ ch, M.choosing.act ⟨b, k, came, (s, ch)⟩ id i =
        .running ⟨b, k + 1, came, (s', ch)⟩ := by
  -- An instruction that is not plain and does not end a block is a merge.
  by_cases hplain : i.op.isPlain = true
  · simp only [Interp.act_plain hplain]
    cases hs : M.exec id i s with
    | none => exact .inl fun ch => by simp [Interp.choosing, hs, Config.advance]
    | some s' =>
      exact .inr ⟨s', hM.exec hid hx hs, fun ch => by simp [Interp.choosing, hs, Config.advance]⟩
  · obtain ⟨incoming, hop⟩ : ∃ incoming, i.op = .phi incoming := by
      cases hop : i.op <;> simp_all [Op.isPlain]
    simp only [Interp.act, hop]
    cases hfind : incoming.find? (·.2 == came) with
    | none => exact .inl fun ch => rfl
    | some r =>
      obtain ⟨v, from'⟩ := r
      cases hs : M.merge id v s with
      | none => exact .inl fun ch => by simp [Interp.choosing, hs, Config.advance]
      | some s' =>
        exact .inr ⟨s', hM.merge hid hs, fun ch => by simp [Interp.choosing, hs, Config.advance]⟩

/-- From the start of a block up to one of its places that no terminator
    stands in front of. -/
theorem block_run (hM : f.Keeps M P R) (b came : BlockId) (s : σ) : ∀ k,
    k ≤ (f.blockIds b).length →
    (∀ i ∈ (f.blockIds b).take k, P i ∧ ∀ x, f.inst? i = some x → x.op.isTerminator = false) →
    (∀ ch, f.GetsStuck M.choosing ⟨b, 0, came, (s, ch)⟩) ∨
      ∃ s', R s s' ∧ ∀ ch,
        f.Reaches M.choosing ⟨b, 0, came, (s, ch)⟩ ⟨b, k, came, (s', ch)⟩ := by
  intro k
  -- By induction on the number of instructions that have been run.
  induction k with
  | zero =>
    intro _ _
    exact .inr ⟨s, hM.refl s, fun ch => .refl _⟩
  | succ k ih =>
    intro hk hfront
    obtain ⟨id, hget⟩ : ∃ id, (f.blockIds b)[k]? = some id := ⟨_, List.getElem?_eq_getElem hk⟩
    have htake : (f.blockIds b).take (k + 1) = (f.blockIds b).take k ++ [id] := by
      rw [List.take_add_one, hget, Option.toList_some]
    rw [htake] at hfront
    obtain ⟨hid, hterm⟩ := hfront id (List.mem_append_right _ (List.mem_singleton.2 rfl))
    rcases ih (Nat.le_of_succ_le hk) fun i hi => hfront i (List.mem_append_left _ hi) with
      hstuck | ⟨s₁, hR, hreach⟩
    · exact .inl hstuck
    · -- The choices are not looked at before the end of the block.
      have hstep : ∀ ch, f.run M.choosing 1 ⟨b, k, came, (s₁, ch)⟩ =
          f.step M.choosing ⟨b, k, came, (s₁, ch)⟩ := fun ch => run_one
      simp only [step] at hstep
      cases hx : f.inst? id with
      | none =>
        have hat : f.instAt? b k = none := by
          cases h : f.instAt? b k with
          | none => rfl
          | some r =>
            obtain ⟨hid', hr⟩ := instAt?_eq_some.1 (show f.instAt? b k = some (r.1, r.2) from h)
            rw [hget] at hid'
            cases hid'
            rw [hx] at hr
            cases hr
        rw [hat] at hstep
        exact .inl fun ch => GetsStuck.after (hreach ch) ⟨1, hstep ch⟩
      | some x =>
        rw [instAt?_eq_some.2 ⟨hget, hx⟩] at hstep
        rcases act_choosing hM hx (hterm x hx) hid b came k s₁ with hact | ⟨s₂, hR', hact⟩
        · exact .inl fun ch => GetsStuck.after (hreach ch) ⟨1, (hstep ch).trans (hact ch)⟩
        · exact .inr ⟨s₂, hM.trans hR hR', fun ch =>
            (hreach ch).trans ⟨1, (hstep ch).trans (hact ch)⟩⟩

/-- The branch at the end of a block gets stuck or follows a given edge, if
    the next choice is the right one. -/
theorem branch_run (hM : f.Keeps M P R) {k : Nat} {id : InstId} {i : Inst}
    (hat : f.instAt? b k = some (id, i)) (hedge : c ∈ i.op.successors) (came : BlockId) (s : σ) :
    (∀ ch, f.GetsStuck M.choosing ⟨b, k, came, (s, ch)⟩) ∨
      ∃ s', R s s' ∧ ∀ rest, ∃ ch,
        f.Reaches M.choosing ⟨b, k, came, (s, ch)⟩ ⟨c, 0, b, (s', rest)⟩ := by
  have hstep : ∀ ch, f.run M.choosing 1 ⟨b, k, came, (s, ch)⟩ =
      M.choosing.act ⟨b, k, came, (s, ch)⟩ id i := by
    intro ch
    rw [run_one]
    unfold step
    rw [hat]
  unfold Interp.act at hstep
  cases hop : i.op with
  | br t =>
    rw [hop] at hedge
    obtain rfl := List.mem_singleton.1 hedge
    simp only [hop] at hstep
    exact .inr ⟨s, hM.refl s, fun rest => ⟨rest, 1, hstep rest⟩⟩
  | condBr v t e =>
    rw [hop] at hedge
    simp only [hop] at hstep
    cases htest : M.test v s with
    | none =>
      refine .inl fun ch => ⟨1, (hstep ch).trans ?_⟩
      simp [Interp.choosing, htest]
    | some r =>
      obtain ⟨w, s'⟩ := r
      refine .inr ⟨s', hM.test htest, fun rest => ?_⟩
      -- Both ways of a branch are open: the next choice decides.
      have hgo : ∀ w', f.run M.choosing 1 ⟨b, k, came, (s, .cons w' rest)⟩ =
          .running ⟨if w' then t else e, 0, b, (s', rest)⟩ := by
        intro w'
        rw [hstep]
        simp [Interp.choosing, htest]
      rcases List.mem_cons.1 hedge with rfl | hedge
      · exact ⟨.cons true rest, 1, hgo true⟩
      · obtain rfl := List.mem_singleton.1 hedge
        exact ⟨.cons false rest, 1, hgo false⟩
  | _ =>
    rw [hop] at hedge
    cases hedge

/-- Every walk is followed by a run, unless that run gets stuck on its way. -/
theorem Walk.run (hf : f.Clean) (hM : f.Keeps M P R) (h : f.Walk b visited d)
    (hP : ∀ c ∈ visited, ∀ i ∈ f.blockIds c, P i) (rest : Choices) : ∀ (came : BlockId) (s : σ),
    ∃ ch, f.GetsStuck M.choosing ⟨b, 0, came, (s, ch)⟩ ∨
      ∃ s', R s s' ∧ f.Reaches M.choosing ⟨b, 0, came, (s, ch)⟩
        ⟨d, 0, visited.getLastD came, (s', rest)⟩ := by
  induction h with
  | nil b => exact fun came s => ⟨rest, .inr ⟨s, hM.refl s, .refl _⟩⟩
  | @cons b c d visited hedge _ ih =>
    intro came s
    obtain ⟨front, id, i, hblock, hi, hsucc⟩ := successors_at hedge
    have hhere := hP b List.mem_cons_self
    -- No instruction in front of the branch ends the block.
    have hfront : ∀ j ∈ (f.blockIds b).take front.length,
        P j ∧ ∀ x, f.inst? j = some x → x.op.isTerminator = false := by
      intro j hj
      rw [hblock, List.take_left] at hj
      refine ⟨hhere j (by rw [hblock]; exact List.mem_append_left _ hj), hf b j ?_⟩
      rw [hblock, List.dropLast_concat]
      exact hj
    have hat : f.instAt? b front.length = some (id, i) :=
      instAt?_eq_some.2 ⟨by rw [hblock]; simp, hi⟩
    rw [List.getLastD_cons]
    rcases block_run hM b came s front.length (by rw [hblock]; simp) hfront with
      hstuck | ⟨s₁, hR₁, hreach⟩
    · exact ⟨rest, .inl (hstuck rest)⟩
    · rcases branch_run hM hat hsucc came s₁ with hstuck | ⟨s₂, hR₂, hgo⟩
      · exact ⟨rest, .inl (GetsStuck.after (hreach rest) (hstuck rest))⟩
      · -- What the rest of the walk needs decides what is chosen after this branch.
        obtain ⟨ch₂, hnext⟩ := ih (fun c hc => hP c (List.mem_cons_of_mem _ hc)) b s₂
        obtain ⟨ch₁, hch₁⟩ := hgo ch₂
        have hto := (hreach ch₁).trans hch₁
        refine ⟨ch₁, ?_⟩
        rcases hnext with hstuck | ⟨s₃, hR₃, hend⟩
        · exact .inl (GetsStuck.after hto hstuck)
        · exact .inr ⟨s₃, hM.trans hR₁ (hM.trans hR₂ hR₃), hto.trans hend⟩

end Function

end Shading.IR
