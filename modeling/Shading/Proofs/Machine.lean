import Shading.IR.Flow

/-! # Running a control flow graph

    An interpretation says how single instructions act on a state.  Control
    is the same under every interpretation: instructions of a block run in
    order, a merge takes the operand of the block that control came from,
    and a branch goes to the start of its target.

    A run ends with a result, gets stuck or goes on forever, and it does
    exactly one of the three. -/

namespace Shading.IR

/-- How instructions act on states `σ`; a run ends with a result `ρ`.
    Whatever has no answer is stuck. -/
structure Interp (σ ρ : Type) where
  /-- An instruction that neither branches nor merges. -/
  exec : InstId → Inst → σ → Option σ
  /-- A merge that takes the given operand. -/
  merge : InstId → Value → σ → Option σ
  /-- The way that a conditional branch takes. -/
  test : Value → σ → Option (Bool × σ)
  /-- The result of a return. -/
  result : Option Value → σ → Option ρ

/-- A place in a run: the next instruction of a block, the block that control
    came from, and the state. -/
structure Config (σ : Type) where
  block : BlockId
  index : Nat
  came : BlockId
  state : σ

/-- The entry of a function. -/
def Config.start {σ : Type} (s : σ) : Config σ := ⟨0, 0, 0, s⟩

/-- How far a run has come. -/
inductive Status (σ ρ : Type) where
  | running (c : Config σ)
  | returned (r : ρ)
  | stuck

variable {σ ρ : Type}

/-- Go on if the run has not ended. -/
def Status.andThen (st : Status σ ρ) (k : Config σ → Status σ ρ) : Status σ ρ :=
  match st with
  | .running c => k c
  | .returned r => .returned r
  | .stuck => .stuck

/-- The next instruction of the same block, if the current one had an answer. -/
def Config.advance (c : Config σ) : Option σ → Status σ ρ
  | some s => .running { c with index := c.index + 1, state := s }
  | none => .stuck

/-- The effect of one instruction on a run. -/
def Interp.act (M : Interp σ ρ) (c : Config σ) (id : InstId) (i : Inst) : Status σ ρ :=
  match i.op with
  | .ret v =>
    match M.result v c.state with
    | some r => .returned r
    | none => .stuck
  | .br t => .running ⟨t, 0, c.block, c.state⟩
  | .condBr v t e =>
    match M.test v c.state with
    | some (b, s) => .running ⟨if b then t else e, 0, c.block, s⟩
    | none => .stuck
  | .phi incoming =>
    match incoming.find? (·.2 == c.came) with
    | some (v, _) => c.advance (M.merge id v c.state)
    | none => .stuck
  | .unreachable => .stuck
  | _ => c.advance (M.exec id i c.state)

namespace Function

/-- The instruction at a position of a block. -/
def instAt? (f : Function) (b : BlockId) (k : Nat) : Option (InstId × Inst) := do
  let block ← f.block? b
  let id ← block.insts[k]?
  let i ← f.inst? id
  pure (id, i)

/-- One step.  Control that runs off its block is stuck. -/
def step (f : Function) (M : Interp σ ρ) (c : Config σ) : Status σ ρ :=
  match f.instAt? c.block c.index with
  | some (id, i) => M.act c id i
  | none => .stuck

/-- So many steps, or fewer if the run ends. -/
def run (f : Function) (M : Interp σ ρ) : Nat → Config σ → Status σ ρ
  | 0, c => .running c
  | n + 1, c => (f.step M c).andThen (run f M n)

variable {f : Function} {M : Interp σ ρ}

theorem run_add (m n : Nat) (c : Config σ) :
    f.run M (m + n) c = (f.run M m c).andThen (f.run M n) := by
  induction m generalizing c with
  | zero => rw [Nat.zero_add]; rfl
  | succ m ih =>
    rw [Nat.succ_add]
    show (f.step M c).andThen (f.run M (m + n)) =
      ((f.step M c).andThen (f.run M m)).andThen (f.run M n)
    cases h : f.step M c with
    | running c' => exact ih c'
    | returned r => rfl
    | stuck => rfl

/-- A run that goes on from where another one stopped. -/
theorem run_trans {m n : Nat} {c c' : Config σ} {st : Status σ ρ}
    (h : f.run M m c = .running c') (h' : f.run M n c' = st) :
    f.run M (m + n) c = st := by
  rw [run_add, h]; exact h'

theorem run_one {c : Config σ} : f.run M 1 c = f.step M c := by
  show (f.step M c).andThen (f.run M 0) = f.step M c
  cases f.step M c <;> rfl

/-- A run that has ended stays as it is. -/
theorem run_ended {m n : Nat} {c : Config σ} {st : Status σ ρ} (h : f.run M m c = st)
    (hst : ∀ c', st ≠ .running c') (hle : m ≤ n) : f.run M n c = st := by
  obtain ⟨k, rfl⟩ := Nat.exists_eq_add_of_le hle
  rw [run_add, h]
  cases st with
  | running c' => exact absurd rfl (hst c')
  | returned r => rfl
  | stuck => rfl

/-! ## The three outcomes of a run -/

def Returns (f : Function) (M : Interp σ ρ) (c : Config σ) (r : ρ) : Prop :=
  ∃ n, f.run M n c = .returned r

def GetsStuck (f : Function) (M : Interp σ ρ) (c : Config σ) : Prop :=
  ∃ n, f.run M n c = .stuck

def Diverges (f : Function) (M : Interp σ ρ) (c : Config σ) : Prop :=
  ∀ n, ∃ c', f.run M n c = .running c'

/-- Two ends of one run are the same end. -/
theorem end_unique {m n : Nat} {c : Config σ} {st st' : Status σ ρ}
    (h : f.run M m c = st) (h' : f.run M n c = st')
    (hst : ∀ c', st ≠ .running c') (hst' : ∀ c', st' ≠ .running c') : st = st' := by
  rcases Nat.le_total m n with hle | hle
  · rw [← h', run_ended h hst hle]
  · rw [← h, run_ended h' hst' hle]

theorem Returns.unique {c : Config σ} {r r' : ρ} (h : f.Returns M c r) (h' : f.Returns M c r') :
    r = r' := by
  obtain ⟨m, hm⟩ := h
  obtain ⟨n, hn⟩ := h'
  have := end_unique hm hn (by simp) (by simp)
  cases this
  rfl

theorem Returns.not_getsStuck {c : Config σ} {r : ρ} (h : f.Returns M c r) :
    ¬ f.GetsStuck M c := by
  rintro ⟨n, hn⟩
  obtain ⟨m, hm⟩ := h
  have := end_unique hm hn (by simp) (by simp)
  cases this

theorem Returns.not_diverges {c : Config σ} {r : ρ} (h : f.Returns M c r) :
    ¬ f.Diverges M c := by
  intro hd
  obtain ⟨n, hn⟩ := h
  obtain ⟨c', hc⟩ := hd n
  rw [hn] at hc
  cases hc

theorem GetsStuck.not_diverges {c : Config σ} (h : f.GetsStuck M c) : ¬ f.Diverges M c := by
  intro hd
  obtain ⟨n, hn⟩ := h
  obtain ⟨c', hc⟩ := hd n
  rw [hn] at hc
  cases hc

end Function

end Shading.IR
