import Shading.Proofs.Definedness
import Shading.Proofs.Labels

/-! # Definitions come before uses

    A block dominates another one if control cannot get from the entry to the
    second without going through the first.  In generated bodies the block of
    each definition dominates the blocks of its uses, and the stores into a
    slot come before its loads.

    Both follow from runs: a use that its definition does not dominate could
    be reached by a run that has not computed it, and such a run would get
    stuck there (`Function.Defined`). -/

namespace Shading.IR

variable {a i id : InstId} {k m n : Nat} {x : Inst}

/-! ## Where instructions stand -/

/-- Every instruction stands in some block, and merges name instructions that
    exist. -/
structure Function.Placed (f : Function) : Prop where
  stands : ∀ i, i < f.insts.length → ∃ b, i ∈ f.blockIds b
  operands : ∀ j x incoming, f.inst? j = some x → x.op = .phi incoming →
    ∀ q ∈ incoming, q.1.Below f.insts.length

theorem Value.Below.mono {v : Value} (h : v.Below m) (hle : m ≤ n) : v.Below n := by
  cases v with
  | inst i => exact Nat.lt_of_lt_of_le h hle
  | const c => trivial
  | arg i => trivial
  | void => trivial

namespace Function.Placed

variable {f g : Function}

/-- One more instruction, which stands in a block. -/
theorem grow (h : f.Placed) {i : Inst} (hinsts : g.insts = f.insts ++ [i])
    (hold : ∀ b j, j ∈ f.blockIds b → j ∈ g.blockIds b) (hnew : ∃ b, f.insts.length ∈ g.blockIds b)
    (hops : ∀ incoming, i.op = .phi incoming → ∀ q ∈ incoming, q.1.Below f.insts.length) :
    g.Placed := by
  have hlen : g.insts.length = f.insts.length + 1 := by simp [hinsts]
  constructor
  · intro j hj
    -- An old number stands where it stood, and the only new one has been placed.
    by_cases hlt : j < f.insts.length
    · obtain ⟨b, hb⟩ := h.stands j hlt
      exact ⟨b, hold b j hb⟩
    · have hlast : j = f.insts.length := by omega
      rw [hlast]
      exact hnew
  · intro j x incoming hx hop q hq
    have hbelow : q.1.Below f.insts.length := by
      unfold Function.inst? at hx
      rw [hinsts] at hx
      by_cases hlt : j < f.insts.length
      · rw [List.getElem?_append_left hlt] at hx
        exact h.operands j x incoming hx hop q hq
      · rw [List.getElem?_append_right (Nat.le_of_not_lt hlt), List.getElem?_singleton] at hx
        split at hx
        · cases hx
          exact hops incoming hop q hq
        · cases hx
    exact hbelow.mono (by omega)

theorem pushInst (h : f.Placed) {b : BlockId} (hb : b < f.blocks.length) {i : Inst}
    (hops : ∀ incoming, i.op = .phi incoming → ∀ q ∈ incoming, q.1.Below f.insts.length) :
    (f.pushInst b i).Placed := by
  refine h.grow rfl (fun c j hj => ?_) ⟨b, ?_⟩ hops
  · exact (mem_pushInst_blockIds hb).2 (.inl hj)
  · exact (mem_pushInst_blockIds hb).2 (.inr ⟨rfl, rfl⟩)

end Function.Placed

theorem Edit.placed {home : BlockId} {t : Option Targets} {f g : Function} (he : Edit n home t f g)
    (hf : f.Regular) (h : f.Placed) : g.Placed := by
  -- Appending a block moves nothing; any other edit places one instruction, and few are merges.
  cases he with
  | block hl =>
    refine ⟨fun i hi => ?_, h.operands⟩
    obtain ⟨b, hb⟩ := h.stands i hi
    exact ⟨b, by rw [Function.addBlock_blockIds]; exact hb⟩
  | slot =>
    refine h.grow rfl (fun c j hj => ?_) ⟨0, ?_⟩ fun incoming hop => by cases hop
    · exact (Function.mem_addSlot_blockIds hf.valid hf.pos).2 (.inl hj)
    · exact (Function.mem_addSlot_blockIds hf.valid hf.pos).2 (.inr ⟨rfl, rfl⟩)
  | plain hb hopen hin hi hslot =>
    refine h.pushInst hb fun incoming hop => ?_
    rw [hop] at hi
    cases hi
  | close hb hopen hin hi hto =>
    refine h.pushInst hb fun incoming hop => ?_
    rw [hop] at hi
    cases hi
  | merge hb hin hempty hpreds hops =>
    refine h.pushInst hb fun incoming hop => ?_
    cases hop
    exact hops

theorem Edits.placed {home : BlockId} {t : Option Targets} {f g : Function} (hn : 0 < n)
    (he : Edits n home t f g) (hf : f.Regular) (h : f.Placed) : g.Placed := by
  induction he with
  | refl => exact h
  | tail hs hedit ih => exact hedit.placed (Edits.regular hn hs hf) ih

namespace Function

variable {f : Function} {b c d : BlockId} {visited : List BlockId}

/-! ## Runs along walks -/

/-- No run finds something missing, whatever way its branches take. -/
def Defined (f : Function) : Prop :=
  ∀ ch, ¬ f.GetsStuck Interp.known.choosing (.start (Known.empty, ch))

/-- Along a walk and into its last block, up to some instruction. -/
theorem Defined.reaches (h : f.Defined) (hf : f.Clean) {P : InstId → Prop}
    {R : Known → Known → Prop} (hM : f.Keeps Interp.known P R) (hwalk : f.Walk 0 visited b)
    {i : Inst} (hat : f.instAt? b k = some (id, i))
    (hvisited : ∀ d ∈ visited, ∀ j ∈ f.blockIds d, P j) (hbefore : ∀ j ∈ (f.blockIds b).take k, P j)
    (rest : Choices) :
    ∃ ch s, R .empty s ∧ f.Reaches Interp.known.choosing (.start (.empty, ch))
      ⟨b, k, visited.getLastD 0, (s, rest)⟩ := by
  have hlt : k < (f.blockIds b).length :=
    (List.getElem?_eq_some_iff.1 (instAt?_eq_some.1 hat).1).1
  have hfront : ∀ j ∈ (f.blockIds b).take k,
      P j ∧ ∀ x, f.inst? j = some x → x.op.isTerminator = false := by
    intro j hj
    refine ⟨hbefore j hj, hf b j ?_⟩
    rw [List.dropLast_eq_take]
    exact List.take_subset_take_left _ (by omega) hj
  -- The branches are chosen along the way, and the run does not get stuck on it.
  obtain ⟨ch, hstuck | ⟨s, hR, hreach⟩⟩ := hwalk.run hf hM hvisited rest 0 .empty
  · exact absurd hstuck (h ch)
  · rcases block_run hM b (visited.getLastD 0) s k (Nat.le_of_lt hlt) hfront with
      hstuck | ⟨s', hR', hreach'⟩
    · exact absurd (GetsStuck.after hreach (hstuck rest)) (h ch)
    · exact ⟨ch, s', hM.trans hR hR', hreach.trans (hreach' rest)⟩

/-- Instructions other than the one that computes it do not compute it. -/
theorem keeps_computed (f : Function) (i : InstId) :
    f.Keeps Interp.known (· ≠ i) fun s s' => i ∈ s'.computed → i ∈ s.computed where
  refl _ h := h
  trans h h' hi := h (h' hi)
  -- Only the instruction itself can compute its result.
  exec := by
    intro id x s s' hne _ h hi
    simp only [Interp.known, Option.ite_none_right_eq_some, Option.some.injEq] at h
    rw [← h.2] at hi
    exact (List.mem_cons.1 hi).resolve_left hne.symm
  merge := by
    intro id v s s' hne h hi
    simp only [Interp.known, Option.ite_none_right_eq_some, Option.some.injEq] at h
    rw [← h.2] at hi
    exact (List.mem_cons.1 hi).resolve_left hne.symm
  test := by
    intro v s w s' h hi
    simp only [Interp.known, Option.ite_none_right_eq_some, Option.some.injEq, Prod.mk.injEq] at h
    rw [h.2.2]
    exact hi

/-- An instruction fills a slot. -/
def Fills (f : Function) (i a : InstId) : Prop :=
  ∃ x v, f.inst? i = some x ∧ x.op = .store v (.inst a)

/-- Instructions that do not fill a slot leave it as it is. -/
theorem keeps_filled (f : Function) (a : InstId) :
    f.Keeps Interp.known (¬ f.Fills · a) fun s s' => a ∈ s'.filled → a ∈ s.filled where
  refl _ h := h
  trans h h' ha := h (h' ha)
  exec := by
    intro id x s s' hnot hx h ha
    simp only [Interp.known, Option.ite_none_right_eq_some, Option.some.injEq] at h
    rw [← h.2] at ha
    -- A slot that is filled now was filled before, or this instruction fills it.
    rcases List.mem_append.1 ha with ha | ha
    · refine absurd ?_ hnot
      have hslot : x.op.slotFilled = some a := by simpa using ha
      unfold Op.slotFilled at hslot
      split at hslot
      · cases hslot
        exact ⟨x, _, hx, by assumption⟩
      · cases hslot
    · exact ha
  merge := by
    intro id v s s' _ h ha
    simp only [Interp.known, Option.ite_none_right_eq_some, Option.some.injEq] at h
    rw [← h.2] at ha
    exact ha
  test := by
    intro v s w s' h ha
    simp only [Interp.known, Option.ite_none_right_eq_some, Option.some.injEq, Prod.mk.injEq] at h
    rw [h.2.2]
    exact ha

/-! ## Dominance -/

/-- Control does not get from the entry to the second block without going
    through the first. -/
def Dominates (f : Function) (d b : BlockId) : Prop :=
  ∀ visited, f.Walk 0 visited b → d ∈ visited ∨ d = b

/-- An operand that has not been computed leaves its instruction stuck. -/
theorem act_missing {s : Known × Choices} (hphi : ∀ incoming, x.op ≠ .phi incoming)
    (hmem : .inst i ∈ x.op.operands) (hmissing : i ∉ s.1.computed) :
    Interp.known.choosing.act ⟨b, k, c, s⟩ id x = .stuck := by
  have hno : ¬ s.1.Has (.inst i) := hmissing
  -- Every way to go on reads the operand, and none of them can.
  by_cases hplain : x.op.isPlain = true
  · rw [Interp.act_plain hplain]
    have hready : ¬ s.1.Ready x.op := fun h => hno (h.1 _ hmem)
    simp [Interp.choosing, Interp.known, hready, Config.advance]
  · cases hop : x.op with
    | ret v =>
      rw [hop] at hmem
      cases v with
      | none => cases hmem
      | some v =>
        obtain rfl := List.mem_singleton.1 hmem
        simp [Interp.act, hop, Interp.choosing, Interp.known, hno]
    | condBr v t e =>
      rw [hop] at hmem
      obtain rfl := List.mem_singleton.1 hmem
      simp [Interp.act, hop, Interp.choosing, Interp.known, hno]
    | phi incoming => exact absurd hop (hphi incoming)
    | br t =>
      rw [hop] at hmem
      cases hmem
    | unreachable =>
      rw [hop] at hmem
      cases hmem
    | _ => simp [hop, Op.isPlain, Op.isTerminator] at hplain

theorem getsStuck_of_act {σ ρ : Type} {M : Interp σ ρ} {cfg : Config σ}
    (hat : f.instAt? cfg.block cfg.index = some (id, x)) (hact : M.act cfg id x = .stuck) :
    f.GetsStuck M cfg := by
  refine ⟨1, ?_⟩
  rw [run_one]
  unfold step
  rw [hat]
  exact hact

/-- Where an operand is used, every way from the entry has come through the
    instruction that computes it. -/
theorem Defined.visits (h : f.Defined) (hf : f.Clean) (hat : f.instAt? b k = some (id, x))
    (hphi : ∀ incoming, x.op ≠ .phi incoming) (hmem : .inst i ∈ x.op.operands)
    (hbefore : i ∉ (f.blockIds b).take k) (hwalk : f.Walk 0 visited b) :
    ∃ d ∈ visited, i ∈ f.blockIds d := by
  by_contra hnone
  push Not at hnone
  obtain ⟨ch, s, hs, hreach⟩ := h.reaches hf (f.keeps_computed i) hwalk hat
    (fun d hd j hj hji => hnone d hd (hji ▸ hj)) (fun j hj hji => hbefore (hji ▸ hj)) fun _ => true
  have hmissing : i ∉ s.computed := fun hi => List.not_mem_nil (hs hi)
  exact h ch (GetsStuck.after hreach (getsStuck_of_act hat (act_missing hphi hmem hmissing)))

/-- The definition of an operand stands before its use in the same block, or
    in another block that dominates the block of its use. -/
theorem Defined.dominates (h : f.Defined) (hf : f.Clean) (hreg : f.Regular) (hb : f.Path b)
    (hat : f.instAt? b k = some (id, x)) (hphi : ∀ incoming, x.op ≠ .phi incoming)
    (hmem : .inst i ∈ x.op.operands) :
    i ∈ (f.blockIds b).take k ∨ ∃ d, d ≠ b ∧ i ∈ f.blockIds d ∧ f.Dominates d b := by
  by_cases hbefore : i ∈ (f.blockIds b).take k
  · exact .inl hbefore
  · obtain ⟨visited, hwalk⟩ := path_iff_walk.1 hb
    obtain ⟨d, -, hd⟩ := h.visits hf hat hphi hmem hbefore hwalk
    refine .inr ⟨d, ?_, hd, fun visited' hwalk' => ?_⟩
    · -- A way that comes to the block for the first time has not been in it.
      rintro rfl
      obtain ⟨first, hfirst, hnot, -⟩ := hwalk.first
      obtain ⟨d', hd', hi⟩ := h.visits hf hat hphi hmem hbefore hfirst
      exact hnot (hreg.apart d' d i hi hd ▸ hd')
    · obtain ⟨d', hd', hi⟩ := h.visits hf hat hphi hmem hbefore hwalk'
      exact .inl (hreg.apart d' d i hi hd ▸ hd')

/-- The definition of an operand of a merge dominates the block that the
    operand comes from. -/
theorem Defined.dominates_merge (h : f.Defined) (hf : f.Clean) (hreg : f.Regular)
    (hplaced : f.Placed) {incoming : List (Value × BlockId)} (hat : f.instAt? b k = some (id, x))
    (hop : x.op = .phi incoming) (hmem : (.inst i, c) ∈ incoming) :
    ∃ d, i ∈ f.blockIds d ∧ f.Dominates d c := by
  obtain ⟨hid, hx⟩ := instAt?_eq_some.1 hat
  obtain ⟨hhead, hnodup, hpreds⟩ :=
    hreg.merges b id x incoming (List.mem_of_getElem? hid) hx hop
  have hk : k = 0 := by
    rw [List.head?_eq_getElem?] at hhead
    exact (List.getElem?_inj (List.getElem?_eq_some_iff.1 hid).1 (hreg.once b)).1
      (hid.trans hhead.symm)
  subst hk
  obtain ⟨d, hd⟩ := hplaced.stands i (hplaced.operands id x incoming hx hop _ hmem)
  refine ⟨d, hd, fun visited hwalk => ?_⟩
  by_contra hnone
  rw [not_or] at hnone
  -- The walk can go on into the block of the merge.
  have hedge : b ∈ f.successors c := (hpreds c).1 (List.mem_map_of_mem hmem)
  have hother : ∀ e ∈ visited ++ [c], ∀ j ∈ f.blockIds e, j ≠ i := by
    rintro e he j hj rfl
    have hed : e = d := hreg.apart e d j hj hd
    rcases List.mem_append.1 he with he | he
    · exact hnone.1 (hed ▸ he)
    · exact hnone.2 (hed ▸ List.mem_singleton.1 he)
  obtain ⟨ch, s, hs, hreach⟩ := h.reaches hf (f.keeps_computed i) (hwalk.snoc hedge) hat hother
    (fun j hj => by cases hj) fun _ => true
  have hmissing : ¬ s.Has (.inst i) := fun hi => List.not_mem_nil (hs hi)
  have hfind : incoming.find? (·.2 == c) = some (.inst i, c) := find?_key hnodup hmem
  refine h ch (GetsStuck.after hreach (getsStuck_of_act hat ?_))
  simp [Interp.act, hop, hfind, Interp.choosing, Interp.known, hmissing, Config.advance]

/-- On every way from the entry to a load, something has been stored in the
    slot before. -/
theorem Defined.stored (h : f.Defined) (hf : f.Clean) (hat : f.instAt? b k = some (id, x))
    (hop : x.op = .load (.inst a)) (hwalk : f.Walk 0 visited b) :
    ∃ j, f.Fills j a ∧ (j ∈ (f.blockIds b).take k ∨ ∃ d ∈ visited, j ∈ f.blockIds d) := by
  by_contra hnone
  push Not at hnone
  obtain ⟨ch, s, hs, hreach⟩ := h.reaches hf (f.keeps_filled a) hwalk hat
    (fun d hd j hj hfill => (hnone j hfill).2 d hd hj)
    (fun j hj hfill => (hnone j hfill).1 hj) fun _ => true
  have hready : ¬ s.Ready x.op := by
    intro hready
    rw [hop] at hready
    exact List.not_mem_nil (hs (hready.2 a (by simp [Op.slotRead])))
  refine h ch (GetsStuck.after hreach (getsStuck_of_act hat ?_))
  rw [Interp.act_plain (by simp [hop, Op.isPlain, Op.isTerminator])]
  simp [Interp.choosing, Interp.known, hready, Config.advance]

end Function

end Shading.IR
