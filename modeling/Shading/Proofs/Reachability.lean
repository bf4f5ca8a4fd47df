import Mathlib.Data.List.Perm.Subperm
import Shading.Proofs.Functions

/-! # Where control can get to

    The search for reachable blocks finds every block at the end of a path
    from the entry, and a run never leaves such blocks.  So a block that the
    search does not find is never run. -/

namespace Shading.IR.Function

variable {f : Function}

/-! ## The search -/

/-- Control can get from the entry to a block. -/
abbrev Path (f : Function) : BlockId → Prop :=
  Relation.ReflTransGen (fun a b => b ∈ f.successors a) 0

theorem nodup_eraseDups (l : List BlockId) : l.eraseDups.Nodup := by
  induction hn : l.length using Nat.strongRecOn generalizing l with
  | ind n ih =>
    cases l with
    | nil => exact List.nodup_nil
    | cons a rest =>
      rw [List.eraseDups_cons, List.nodup_cons]
      constructor
      · simp [List.mem_eraseDups]
      · have hlen : (rest.filter fun b => !b == a).length ≤ rest.length := List.length_filter_le _ _
        rw [List.length_cons] at hn
        exact ih _ (by omega) _ rfl

/-- What the search has found when it stops is closed under branches.  The
    blocks that are done and those that are pending make up the marked ones,
    and each turn moves one block from the second list to the first. -/
theorem explore_closed (turns : Nat) : ∀ (done marked pending : List BlockId),
    (done ++ pending).Nodup → (∀ b ∈ done ++ pending, b < f.blocks.length) →
    (∀ b, b ∈ marked ↔ b ∈ done ++ pending) →
    (∀ b ∈ done, ∀ s ∈ f.next b, s ∈ marked) → done.length + turns = f.blocks.length →
    (∀ b ∈ marked, b ∈ f.explore turns marked pending) ∧
      ∀ b ∈ f.explore turns marked pending, ∀ s ∈ f.next b, s ∈ f.explore turns marked pending := by
  induction turns with
  | zero =>
    intro done marked pending hnodup hlt hmarked hdone hlen
    -- All blocks are done, so none is pending.
    have hle : (done ++ pending).length ≤ f.blocks.length := by
      have hsub : done ++ pending ⊆ List.range f.blocks.length := fun b hb =>
        List.mem_range.2 (hlt b hb)
      have hcard := (List.subperm_of_subset hnodup hsub).length_le
      rw [List.length_range] at hcard
      exact hcard
    have hpending : pending = [] := by
      rw [List.length_append] at hle
      exact List.length_eq_zero_iff.1 (by omega)
    subst hpending
    refine ⟨fun b hb => hb, fun b hb s hs => ?_⟩
    have hb' : b ∈ done := by simpa using (hmarked b).1 hb
    exact hdone b hb' s hs
  | succ turns ih =>
    intro done marked pending hnodup hlt hmarked hdone hlen
    cases pending with
    | nil =>
      refine ⟨fun b hb => hb, fun b hb s hs => ?_⟩
      have hb' : b ∈ done := by simpa using (hmarked b).1 hb
      exact hdone b hb' s hs
    | cons c rest =>
      let new := ((f.next c).filter (!marked.contains ·)).eraseDups
      have hnew : ∀ b, b ∈ new ↔ b ∈ f.next c ∧ b ∉ marked := by
        intro b
        simp [new, List.mem_eraseDups]
      have hsplit : ∀ b, b ∈ (done ++ [c]) ++ (rest ++ new) ↔ b ∈ done ++ c :: rest ∨ b ∈ new := by
        intro b
        simp only [List.mem_append, List.mem_cons, List.not_mem_nil, or_false]
        tauto
      have hstep := ih (done ++ [c]) (marked ++ new) (rest ++ new) ?_ ?_ ?_ ?_ ?_
      · obtain ⟨hkeep, hclosed⟩ := hstep
        exact ⟨fun b hb => hkeep b (List.mem_append_left _ hb), hclosed⟩
      · have hassoc : (done ++ [c]) ++ (rest ++ new) = (done ++ c :: rest) ++ new := by simp
        rw [hassoc, List.nodup_append]
        refine ⟨hnodup, nodup_eraseDups _, fun a ha b hb hab => ?_⟩
        subst hab
        exact ((hnew a).1 hb).2 ((hmarked a).2 ha)
      · intro b hb
        rcases (hsplit b).1 hb with hb | hb
        · exact hlt b hb
        · have hmem := ((hnew b).1 hb).1
          unfold next at hmem
          simpa using (List.mem_filter.1 hmem).2
      · intro b
        rw [hsplit b, List.mem_append, hmarked b]
      · intro b hb s hs
        rw [List.mem_append]
        by_cases hmem : s ∈ marked
        · exact .inl hmem
        · rcases List.mem_append.1 hb with hb | hb
          · exact .inl (hdone b hb s hs)
          · obtain rfl := List.mem_singleton.1 hb
            exact .inr ((hnew s).2 ⟨hs, hmem⟩)
      · rw [List.length_append, List.length_singleton]
        omega

/-- The search finds every block at the end of a path. -/
theorem isReachable_of_path_lt {b : BlockId} (h : f.Path b) (hb : b < f.blocks.length) :
    f.isReachable b = true := by
  have hpos : 0 < f.blocks.length := Nat.lt_of_le_of_lt (Nat.zero_le b) hb
  obtain ⟨hkeep, hclosed⟩ := explore_closed (f := f) f.blocks.length [] [0] [0]
    (List.pairwise_singleton _ _) (by simpa using hpos) (by simp) (by simp) (by simp)
  have hfound : b ∈ f.explore f.blocks.length [0] [0] := by
    induction h with
    | refl => exact hkeep 0 (List.mem_singleton.2 rfl)
    | tail _ hedge ih =>
      -- A block that leads on exists, so the search has come to it.
      refine hclosed _ (ih (lt_of_mem_successors hedge)) _ ?_
      unfold next
      exact List.mem_filter.2 ⟨hedge, by simpa using hb⟩
  have hne : f.blocks.isEmpty = false := by
    rw [List.isEmpty_eq_false_iff]
    exact List.ne_nil_of_length_pos hpos
  unfold isReachable reachable
  rw [hne]
  simpa using ⟨hb, hfound⟩

/-- In a regular body every path ends in a block of it. -/
theorem isReachable_of_path (hf : f.Regular) {b : BlockId} (h : f.Path b) :
    f.isReachable b = true := by
  refine isReachable_of_path_lt h ?_
  cases h with
  | refl => exact hf.pos
  | tail _ hedge => exact (hf.targets _ _ hedge).2

/-! ## Checked bodies -/

theorem verifyBlock_of_verify (h : f.verify = .ok ()) {block : Block} (hb : block ∈ f.blocks) :
    f.verifyBlock block = .ok () := by
  unfold verify at h
  -- By induction on the blocks: the first that fails ends the check.
  generalize f.blocks = l at h hb
  induction l with
  | nil => cases hb
  | cons x rest ih =>
    cases hx : f.verifyBlock x with
    | error e =>
      have herr : (x :: rest).forM f.verifyBlock = .error e := by
        simp [bind, Except.bind, hx]
      rw [herr] at h
      cases h
    | ok u =>
      have hrest : (x :: rest).forM f.verifyBlock = rest.forM f.verifyBlock := by
        simp [bind, Except.bind, hx]
      rw [hrest] at h
      rcases List.mem_cons.1 hb with rfl | hb
      · exact hx
      · exact ih h hb

theorem clean_of_verify (h : f.verify = .ok ()) : f.Clean := by
  intro b i hi x hx
  unfold blockIds at hi
  cases hblock : f.block? b with
  | none => rw [hblock] at hi; cases hi
  | some block =>
    rw [hblock] at hi
    have hverify := verifyBlock_of_verify h (List.mem_of_getElem? hblock)
    -- An end in the middle of a block is what the check looks for.
    by_contra hterm
    have hany : block.insts.dropLast.any
        (fun i => (f.inst? i).any (·.op.isTerminator)) = true := by
      refine List.any_eq_true.2 ⟨i, hi, ?_⟩
      rw [hx]
      simpa using hterm
    unfold verifyBlock at hverify
    split at hverify
    · cases hverify
    · simp only [hany] at hverify
      split at hverify <;> cases hverify

theorem instAt?_eq_some {b : BlockId} {k : Nat} {id : InstId} {i : Inst} :
    f.instAt? b k = some (id, i) ↔ (f.blockIds b)[k]? = some id ∧ f.inst? id = some i := by
  unfold instAt? blockIds
  cases f.block? b with
  | none => simp
  | some block =>
    simp only [Option.bind_eq_bind, Option.bind_some, Option.bind_eq_some_iff, Option.pure_def,
      Option.some.injEq, Prod.mk.injEq, Option.elim_some]
    constructor
    · rintro ⟨id', hid, x, hx, rfl, rfl⟩
      exact ⟨hid, hx⟩
    · rintro ⟨hid, hx⟩
      exact ⟨id, hid, i, hx, rfl, rfl⟩

/-- In a clean body an instruction that ends a block is the last one of it. -/
theorem Clean.terminator?_eq_some (h : f.Clean) {b : BlockId} {id : InstId} {i : Inst}
    (hid : id ∈ f.blockIds b) (hx : f.inst? id = some i) (hi : i.op.isTerminator = true) :
    f.terminator? b = some i := by
  obtain ⟨front, last, hids⟩ := List.eq_nil_or_concat' (f.blockIds b) |>.resolve_left
    (List.ne_nil_of_mem hid)
  have hmem : id ∈ front ++ [last] := hids ▸ hid
  -- No instruction in front of the last may end the block.
  have hnot : id ∉ front := by
    intro hin
    have hno := h b id (by rw [hids, List.dropLast_concat]; exact hin) i hx
    rw [hi] at hno
    cases hno
  obtain rfl : id = last := by
    rcases List.mem_append.1 hmem with hin | hin
    · exact absurd hin hnot
    · exact List.mem_singleton.1 hin
  rw [terminator?_eq, hids, List.getLast?_concat]
  simp [hx, hi]

/-- Where only the last instruction of a block may end it, a branch is the end
    of its block. -/
theorem Clean.mem_successors (hf : f.Clean) {b : BlockId} {id : InstId} {x : Inst}
    {t : BlockId} (hid : id ∈ f.blockIds b) (hx : f.inst? id = some x) (ht : t ∈ x.op.successors) :
    t ∈ f.successors b := by
  have hterm : x.op.isTerminator = true := by
    cases hop : x.op <;> simp_all [Op.successors, Op.isTerminator]
  unfold successors
  rw [hf.terminator?_eq_some hid hx hterm]
  exact ht

variable {σ ρ : Type} {M : Interp σ ρ}

/-- A step stays in its block or goes where the block leads. -/
theorem step_path (h : f.Clean) {c c' : Config σ} (hstep : f.step M c = .running c')
    (hpath : f.Path c.block) : f.Path c'.block := by
  unfold step at hstep
  cases hat : f.instAt? c.block c.index with
  | none =>
    rw [hat] at hstep
    cases hstep
  | some x =>
    obtain ⟨id, i⟩ := x
    rw [hat] at hstep
    -- Only a branch leaves the block, and its targets are the successors.
    have hadvance : ∀ r : Option σ, (c.advance r : Status σ ρ) = .running c' →
        f.Path c'.block := by
      intro r hr
      cases r with
      | none => cases hr
      | some s => cases hr; exact hpath
    have hbranch : c'.block ∈ i.op.successors → f.Path c'.block := by
      intro hmem
      obtain ⟨hid, hx⟩ := instAt?_eq_some.1 hat
      exact hpath.tail (h.mem_successors (List.mem_of_getElem? hid) hx hmem)
    unfold Interp.act at hstep
    cases hop : i.op with
    | br t =>
      simp only [hop] at hstep
      cases hstep
      exact hbranch (by rw [hop]; exact List.mem_singleton.2 rfl)
    | condBr v t e =>
      simp only [hop] at hstep
      cases htest : M.test v c.state with
      | none =>
        rw [htest] at hstep
        cases hstep
      | some r =>
        obtain ⟨w, s⟩ := r
        rw [htest] at hstep
        cases hstep
        refine hbranch ?_
        rw [hop]
        cases w
        · exact List.mem_cons_of_mem _ (List.mem_singleton.2 rfl)
        · exact List.mem_cons_self
    | ret v =>
      simp only [hop] at hstep
      split at hstep <;> cases hstep
    | phi incoming =>
      simp only [hop] at hstep
      split at hstep
      · exact hadvance _ hstep
      · cases hstep
    | unreachable =>
      simp only [hop] at hstep
      cases hstep
    | _ =>
      simp only [hop] at hstep
      exact hadvance _ hstep

/-- A run stays on paths from the entry. -/
theorem run_path (h : f.Clean) {n : Nat} {c c' : Config σ}
    (hrun : f.run M n c = .running c') (hpath : f.Path c.block) : f.Path c'.block := by
  induction n generalizing c with
  | zero =>
    cases hrun
    exact hpath
  | succ n ih =>
    have hrun' : (f.step M c).andThen (f.run M n) = .running c' := hrun
    cases hstep : f.step M c with
    | running d =>
      rw [hstep] at hrun'
      exact ih hrun' (step_path h hstep hpath)
    | returned r => rw [hstep] at hrun'; cases hrun'
    | stuck => rw [hstep] at hrun'; cases hrun'

end Shading.IR.Function
