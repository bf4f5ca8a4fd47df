import Shading.Proofs.Machine

/-! # Structured code inside a control flow graph

    Generated code has structure: straight lines, short-circuit operators,
    conditionals, loops, and jumps out of loops.  `Code` is that structure,
    with a semantics of its own that knows no blocks.  `Code.lies` says where
    a piece of structured code stands in a control flow graph.

    Main result: a function runs the code that lies in it
    (`Code.lies_run`), under every interpretation of the instructions. -/

namespace Shading.IR

variable {σ ρ : Type}
variable {c c' c'' : Config σ} {v : Value} {b bodyBlock came condBlock e endBlock t : BlockId}

/-! ## Places

    Stack slots are reserved at the front of the entry block while the code
    behind them is being emitted.  Places are counted behind the slots, so
    that they do not move. -/

namespace Function

/-- The instructions of a block by number. -/
def blockIds (f : Function) (b : BlockId) : List InstId := (f.block? b).elim [] (·.insts)

def isSlot (f : Function) (i : InstId) : Bool := (f.inst? i).any (·.op.isAlloca)

/-- The slots that a block starts with. -/
def slots (f : Function) (b : BlockId) : List InstId := (f.blockIds b).takeWhile f.isSlot

/-- The instructions of a block behind its slots. -/
def code (f : Function) (b : BlockId) : List InstId := (f.blockIds b).dropWhile f.isSlot

theorem slots_append_code (f : Function) (b : BlockId) : f.slots b ++ f.code b = f.blockIds b :=
  List.takeWhile_append_dropWhile

/-- Only the entry block starts with slots. -/
def NoInnerSlots (f : Function) : Prop := ∀ b, b ≠ 0 → f.slots b = []

end Function

/-- A place in a block, counted behind the slots. -/
structure Point where
  block : BlockId
  index : Nat
  deriving DecidableEq

namespace Point

/-- The start of a block. -/
def start (b : BlockId) : Point := ⟨b, 0⟩

/-- So many instructions further. -/
def plus (p : Point) (n : Nat) : Point := ⟨p.block, p.index + n⟩

/-- A run that has come to a place. -/
def config (p : Point) (f : Function) (came : BlockId) (s : σ) : Config σ :=
  ⟨p.block, (f.slots p.block).length + p.index, came, s⟩

theorem config_start {f : Function} (h : f.slots b = []) (came : BlockId) (s : σ) :
    (start b).config f came s = ⟨b, 0, came, s⟩ := by
  simp [config, start, h]

end Point

namespace Function

/-- The instruction at a place. -/
def at? (f : Function) (p : Point) : Option (InstId × Inst) := do
  let id ← (f.code p.block)[p.index]?
  let i ← f.inst? id
  pure (id, i)

theorem instAt?_slots (f : Function) (p : Point) :
    f.instAt? p.block ((f.slots p.block).length + p.index) = f.at? p := by
  have hget : (f.blockIds p.block)[(f.slots p.block).length + p.index]? =
      (f.code p.block)[p.index]? := by
    rw [← slots_append_code, List.getElem?_append_right (Nat.le_add_right _ _),
      Nat.add_sub_cancel_left]
  unfold instAt? at?
  rw [← hget]
  unfold blockIds
  cases f.block? p.block <;> rfl

/-- An instruction with a given operation stands at a place. -/
def Has (f : Function) (p : Point) (op : Op) : Prop := ∃ id i, f.at? p = some (id, i) ∧ i.op = op

variable {f : Function} {M : Interp σ ρ}

theorem step_config {p : Point} {id : InstId} {i : Inst} (h : f.at? p = some (id, i))
    (came : BlockId) (s : σ) :
    f.step M (p.config f came s) = M.act (p.config f came s) id i := by
  have hat : f.instAt? (p.config f came s).block (p.config f came s).index = some (id, i) := by
    show f.instAt? p.block ((f.slots p.block).length + p.index) = _
    rw [instAt?_slots, h]
  unfold step
  rw [hat]

/-- Some steps lead from one configuration to another. -/
def Reaches (f : Function) (M : Interp σ ρ) (c c' : Config σ) : Prop :=
  ∃ n, f.run M n c = .running c'

theorem Reaches.refl (c : Config σ) : f.Reaches M c c := ⟨0, rfl⟩

theorem Reaches.trans (h : f.Reaches M c c') (h' : f.Reaches M c' c'') : f.Reaches M c c'' := by
  obtain ⟨m, hm⟩ := h
  obtain ⟨n, hn⟩ := h'
  exact ⟨m + n, run_trans hm hn⟩

theorem run_br {p : Point} (h : f.Has p (.br t)) (ht : f.slots t = []) (came : BlockId) (s : σ) :
    f.run M 1 (p.config f came s) = .running ((Point.start t).config f p.block s) := by
  obtain ⟨id, i, hat, hop⟩ := h
  rw [run_one, step_config hat, Interp.act, hop, Point.config_start ht]
  rfl

theorem run_condBr {p : Point} (h : f.Has p (.condBr v t e)) (ht : f.slots t = [])
    (he : f.slots e = []) (came : BlockId) (s : σ) :
    f.run M 1 (p.config f came s) =
      match M.test v s with
      | some (b, s') => .running ((Point.start (if b then t else e)).config f p.block s')
      | none => .stuck := by
  obtain ⟨id, i, hat, hop⟩ := h
  rw [run_one, step_config hat, Interp.act, hop]
  show (match M.test v s with
    | some (b, s') => (.running ⟨if b then t else e, 0, p.block, s'⟩ : Status σ ρ)
    | none => .stuck) = _
  cases M.test v s with
  | none => rfl
  | some r =>
    obtain ⟨b, s'⟩ := r
    cases b with
    | true => simp [Point.config_start ht]
    | false => simp [Point.config_start he]

end Function

/-! ## Structured code -/

/-- The two ways to leave a turn of a loop. -/
inductive Jump where
  | breakLoop
  | continueLoop
  deriving DecidableEq

/-- Where the two jumps of a loop go. -/
structure Targets where
  continueBlock : BlockId
  breakBlock : BlockId
  deriving DecidableEq

def Targets.block (t : Targets) : Jump → BlockId
  | .breakLoop => t.breakBlock
  | .continueLoop => t.continueBlock

inductive Code where
  /-- Instructions that run one after the other. -/
  | line (insts : List (InstId × Inst))
  | seq (first second : Code)
  /-- The right operand of `&&` or `||` with the merge of the two ways. -/
  | shortcut (isAnd : Bool) (left : Value) (right : Code) (rightValue : Value) (result : InstId)
  | ifThen (cond : Value) (thenCode : Code)
  | ifThenElse (cond : Value) (thenCode elseCode : Code)
  /-- A loop computes its condition before each turn. -/
  | loop (head : Code) (cond : Value) (body : Code)
  | leave (jump : Jump)
  | ret (value : Option Value)

/-- How a piece of code ends. -/
inductive Outcome (σ ρ : Type) where
  | done (s : σ)
  | jumped (j : Jump) (s : σ)
  | returned (r : ρ)
  | stuck
  /-- A loop took more turns than allowed. -/
  | timeout

namespace Outcome

def ofOption : Option σ → Outcome σ ρ
  | some s => .done s
  | none => .stuck

/-- Go on if the first part is done. -/
def andThen (o : Outcome σ ρ) (k : σ → Outcome σ ρ) : Outcome σ ρ :=
  match o with
  | .done s => k s
  | o => o

/-- Go on with the next turn of a loop. -/
def endTurn (o : Outcome σ ρ) (next : σ → Outcome σ ρ) : Outcome σ ρ :=
  match o with
  | .done s | .jumped .continueLoop s => next s
  | .jumped .breakLoop s => .done s
  | o => o

end Outcome

namespace Interp

/-- Instructions that run one after the other. -/
def execAll (M : Interp σ ρ) : List (InstId × Inst) → σ → Option σ
  | [], s => some s
  | (id, i) :: rest, s => (M.exec id i s).bind (M.execAll rest)

theorem execAll_append (M : Interp σ ρ) (l l' : List (InstId × Inst)) (s : σ) :
    M.execAll (l ++ l') s = (M.execAll l s).bind (M.execAll l') := by
  induction l generalizing s with
  | nil => rfl
  | cons x l ih =>
    rw [List.cons_append, execAll, execAll, Option.bind_assoc]
    exact congrArg _ (funext ih)

/-- Does a loop take another turn?  The constant `true` is not tested. -/
def guard (M : Interp σ ρ) (v : Value) (s : σ) : Option (Bool × σ) :=
  if v = .const (.bool true) then some (true, s) else M.test v s

end Interp

namespace Code

/-- At most so many turns of a loop. -/
def turns (head : σ → Outcome σ ρ) (guard : σ → Option (Bool × σ)) (body : σ → Outcome σ ρ) :
    Nat → σ → Outcome σ ρ
  | 0, _ => .timeout
  | k + 1, s => (head s).andThen fun s =>
    match guard s with
    | none => .stuck
    | some (false, s) => .done s
    | some (true, s) => (body s).endTurn (turns head guard body k)

/-- The meaning of structured code, where each loop may take `n` turns. -/
def run (M : Interp σ ρ) (n : Nat) : Code → σ → Outcome σ ρ
  | line l, s => .ofOption (M.execAll l s)
  | seq a b, s => (a.run M n s).andThen (b.run M n)
  | shortcut isAnd l r v result, s =>
    match M.test l s with
    | none => .stuck
    | some (b, s) =>
      if b = isAnd then (r.run M n s).andThen fun s => .ofOption (M.merge result v s)
      else .ofOption (M.merge result (.const (.bool !isAnd)) s)
  | ifThen c t, s =>
    match M.test c s with
    | none => .stuck
    | some (b, s) => if b then t.run M n s else .done s
  | ifThenElse c t e, s =>
    match M.test c s with
    | none => .stuck
    | some (b, s) => if b then t.run M n s else e.run M n s
  | loop h c b, s => turns (h.run M n) (M.guard c) (b.run M n) n s
  | leave j, s => .jumped j s
  | ret v, s =>
    match M.result v s with
    | some r => .returned r
    | none => .stuck

/-- Is control never at the end of the code, by its form alone? -/
def ends : Code → Bool
  | line _ | shortcut .. | ifThen .. | loop .. => false
  | seq a b => a.ends || b.ends
  | ifThenElse _ t e => t.ends && e.ends
  | leave _ | ret _ => true

/-- Code that ends by its form is never done. -/
theorem run_ne_done {M : Interp σ ρ} {n : Nat} : (c : Code) → c.ends = true → ∀ s s',
    c.run M n s ≠ .done s'
  | line _, h | shortcut .., h | ifThen .., h | loop .., h => by simp [ends] at h
  | leave _, _ => by simp [run]
  | ret v, _ => by
    intro s s'
    simp only [run]
    split <;> simp
  | seq a b, h => by
    intro s s'
    simp only [run]
    -- The second part runs only behind a first part that is done.
    cases ha : a.run M n s with
    | done s₁ =>
      simp only [ends, Bool.or_eq_true] at h
      rcases h with h | h
      · exact absurd ha (run_ne_done a h s s₁)
      · exact run_ne_done b h s₁ s'
    | jumped j s₁ => simp [Outcome.andThen]
    | returned r => simp [Outcome.andThen]
    | stuck => simp [Outcome.andThen]
    | timeout => simp [Outcome.andThen]
  | ifThenElse c t e, h => by
    intro s s'
    simp only [ends, Bool.and_eq_true] at h
    simp only [run]
    cases M.test c s with
    | none => simp
    | some r =>
      obtain ⟨b, s₁⟩ := r
      cases b with
      | true => exact run_ne_done t h.1 s₁ s'
      | false => exact run_ne_done e h.2 s₁ s'

theorem ends_of_done {M : Interp σ ρ} {n : Nat} {c : Code} {s s' : σ}
    (h : c.run M n s = .done s') : c.ends = false := by
  cases he : c.ends with
  | false => rfl
  | true => exact absurd h (run_ne_done c he s s')

/-! ## Where code lies -/

end Code

/-- Does the instruction neither branch nor merge? -/
def Op.isPlain : Op → Bool
  | .phi _ => false
  | op => !op.isTerminator

theorem Interp.act_plain {M : Interp σ ρ} {i : Inst} (h : i.op.isPlain = true) (c : Config σ)
    (id : InstId) : M.act c id i = c.advance (M.exec id i c.state) := by
  unfold Interp.act
  cases hop : i.op <;> simp_all [Op.isPlain, Op.isTerminator]

namespace Code

/-- Instructions stand one after the other from a place on. -/
def liesLine (f : Function) : List (InstId × Inst) → Point → Prop
  | [], _ => True
  | x :: rest, p => f.at? p = some x ∧ x.2.op.isPlain = true ∧ liesLine f rest (p.plus 1)

/-- Structured code stands in a function, from one place to another.  The
    jumps of the enclosing loop go to the given targets.  Behind code that
    ends, the second place means nothing. -/
def lies (f : Function) : Code → Option Targets → Point → Point → Prop
  | line l, _, p, q => liesLine f l p ∧ q = p.plus l.length
  | seq a b, t, p, q => ∃ m, a.lies f t p m ∧ b.lies f t m q
  | shortcut isAnd l r v result, t, p, q => ∃ right join m,
    right ≠ 0 ∧ join ≠ 0 ∧ m.block ≠ p.block ∧
    f.Has p (.condBr l (if isAnd then right else join) (if isAnd then join else right)) ∧
    r.lies f t (.start right) m ∧ f.Has m (.br join) ∧
    (∃ i, f.at? (.start join) = some (result, i) ∧
      i.op = .phi [(.const (.bool !isAnd), p.block), (v, m.block)]) ∧
    q = (Point.start join).plus 1
  | ifThen c b, t, p, q => ∃ thenBlock join m,
    thenBlock ≠ 0 ∧ join ≠ 0 ∧ f.Has p (.condBr c thenBlock join) ∧
    b.lies f t (.start thenBlock) m ∧ (b.ends = false → f.Has m (.br join)) ∧
    q = .start join
  | ifThenElse c a b, t, p, q => ∃ thenBlock elseBlock m n,
    thenBlock ≠ 0 ∧ elseBlock ≠ 0 ∧ f.Has p (.condBr c thenBlock elseBlock) ∧
    a.lies f t (.start thenBlock) m ∧ b.lies f t (.start elseBlock) n ∧
    ((a.ends && b.ends) = false → ∃ join, join ≠ 0 ∧ q = .start join ∧
      (a.ends = false → f.Has m (.br join)) ∧ (b.ends = false → f.Has n (.br join)))
  | loop h c b, t, p, q => ∃ condBlock bodyBlock endBlock m n,
    condBlock ≠ 0 ∧ bodyBlock ≠ 0 ∧ endBlock ≠ 0 ∧ f.Has p (.br condBlock) ∧
    h.lies f t (.start condBlock) m ∧
    f.Has m (if c = .const (.bool true) then .br bodyBlock else .condBr c bodyBlock endBlock) ∧
    b.lies f (some ⟨condBlock, endBlock⟩) (.start bodyBlock) n ∧
    (b.ends = false → f.Has n (.br condBlock)) ∧ q = .start endBlock
  | leave j, t, p, _ => ∃ tg : Targets, t = some tg ∧ tg.block j ≠ 0 ∧ f.Has p (.br (tg.block j))
  | ret v, _, p, _ => f.Has p (.ret v)

/-! ## Simulation -/

/-- A run of a function does what the outcome of structured code says.  Code
    that takes more than `n` turns keeps the function busy for `n` steps. -/
def Matches (f : Function) (M : Interp σ ρ) (t : Option Targets) (q : Point) (n : Nat)
    (c : Config σ) : Outcome σ ρ → Prop
  | .done s => ∃ came, f.Reaches M c (q.config f came s)
  | .jumped j s => ∃ tg came, t = some tg ∧
    f.Reaches M c ((Point.start (tg.block j)).config f came s)
  | .returned r => f.Returns M c r
  | .stuck => f.GetsStuck M c
  | .timeout => ∃ k c', n ≤ k ∧ f.run M k c = .running c'

variable {f : Function} {M : Interp σ ρ} {t : Option Targets} {n : Nat}

theorem Matches.after {q : Point} {o : Outcome σ ρ} (h : f.Reaches M c c')
    (hm : Matches f M t q n c' o) : Matches f M t q n c o := by
  obtain ⟨k, hk⟩ := h
  -- The steps in front are added to those of each kind of ending.
  cases o with
  | done s =>
    obtain ⟨came, hr⟩ := hm
    exact ⟨came, Function.Reaches.trans ⟨k, hk⟩ hr⟩
  | jumped j s =>
    obtain ⟨tg, came, ht, hr⟩ := hm
    exact ⟨tg, came, ht, Function.Reaches.trans ⟨k, hk⟩ hr⟩
  | returned r =>
    obtain ⟨m, hr⟩ := hm
    exact ⟨k + m, Function.run_trans hk hr⟩
  | stuck =>
    obtain ⟨m, hr⟩ := hm
    exact ⟨k + m, Function.run_trans hk hr⟩
  | timeout =>
    obtain ⟨m, c'', hle, hr⟩ := hm
    exact ⟨k + m, c'', by omega, Function.run_trans hk hr⟩

theorem Matches.andThen {p q : Point} {o : Outcome σ ρ} {k : σ → Outcome σ ρ}
    (h : Matches f M t p n c o)
    (hk : ∀ s came, o = .done s → Matches f M t q n (p.config f came s) (k s)) :
    Matches f M t q n c (o.andThen k) := by
  cases o with
  | done s =>
    obtain ⟨came, hr⟩ := h
    exact Matches.after hr (hk s came rfl)
  | jumped j s => exact h
  | returned r => exact h
  | stuck => exact h
  | timeout => exact h

/-- A turn of a loop that is not left goes on with the next turn. -/
theorem Matches.endTurn {o : Outcome σ ρ} {next : σ → Outcome σ ρ}
    (h : Matches f M (some ⟨condBlock, endBlock⟩) (.start condBlock) n c o)
    (hnext : ∀ s came, Matches f M t (.start endBlock) n
      ((Point.start condBlock).config f came s) (next s)) :
    Matches f M t (.start endBlock) n c (o.endTurn next) := by
  cases o with
  | done s =>
    obtain ⟨came, hr⟩ := h
    exact Matches.after hr (hnext s came)
  | jumped j s =>
    obtain ⟨tg, came, htg, hr⟩ := h
    cases htg
    -- A turn that is left early still goes on to the next; a break ends the loop.
    cases j with
    | continueLoop => exact Matches.after hr (hnext s came)
    | breakLoop => exact ⟨came, hr⟩
  | returned r => exact h
  | stuck => exact h
  | timeout => exact h

/-- Code that is done goes on along a branch to where it joins other code. -/
theorem Matches.join {p q : Point} {o : Outcome σ ρ} (h : Matches f M t p n c o)
    (hbr : ∀ s, o = .done s → ∃ b, f.slots b = [] ∧ q = .start b ∧ f.Has p (.br b)) :
    Matches f M t q n c o := by
  cases o with
  | done s =>
    obtain ⟨came, hr⟩ := h
    obtain ⟨b, hb, rfl, hp⟩ := hbr s rfl
    exact ⟨p.block, hr.trans ⟨1, Function.run_br hp hb came s⟩⟩
  | jumped j s => exact h
  | returned r => exact h
  | stuck => exact h
  | timeout => exact h

theorem liesLine_run (l : List (InstId × Inst)) (p : Point) (h : liesLine f l p) (s : σ)
    (came : BlockId) :
    Matches f M t (p.plus l.length) n (p.config f came s) (.ofOption (M.execAll l s)) := by
  -- By induction on the line: one instruction is one step of the machine.
  induction l generalizing p s with
  | nil => exact ⟨came, Function.Reaches.refl _⟩
  | cons x rest ih =>
    obtain ⟨hat, hplain, hrest⟩ := h
    have hstep : f.run M 1 (p.config f came s) =
        (p.config f came s).advance (M.exec x.1 x.2 s) := by
      rw [Function.run_one, Function.step_config (by rw [hat]), Interp.act_plain hplain]
      rfl
    show Matches f M t _ n _ (.ofOption ((M.exec x.1 x.2 s).bind (M.execAll rest)))
    cases hx : M.exec x.1 x.2 s with
    | none =>
      rw [hx] at hstep
      exact ⟨1, hstep⟩
    | some s' =>
      rw [hx] at hstep
      have hnext := ih (p.plus 1) hrest s'
      have hq : (p.plus 1).plus rest.length = p.plus (x :: rest).length := by
        simp [Point.plus, Nat.add_comm, Nat.add_left_comm]
      rw [hq] at hnext
      exact Matches.after ⟨1, hstep⟩ hnext

theorem Matches.mono {q : Point} {o : Outcome σ ρ} {k : Nat} (hle : k ≤ n)
    (h : Matches f M t q n c o) : Matches f M t q k c o := by
  cases o with
  | timeout =>
    obtain ⟨m, c', hm, hr⟩ := h
    exact ⟨m, c', by omega, hr⟩
  | done s => exact h
  | jumped j s => exact h
  | returned r => exact h
  | stuck => exact h

/-- A step more, and a busy run has been busy for one step more. -/
theorem Matches.step {q : Point} {o : Outcome σ ρ} (h : f.run M 1 c = .running c')
    (hm : Matches f M t q n c' o) : Matches f M t q (n + 1) c o := by
  cases o with
  | timeout =>
    obtain ⟨m, c'', hle, hr⟩ := hm
    exact ⟨1 + m, c'', by omega, Function.run_trans h hr⟩
  | done s => exact Matches.after (n := n) ⟨1, h⟩ hm
  | jumped j s => exact Matches.after (n := n) ⟨1, h⟩ hm
  | returned r => exact Matches.after (n := n) ⟨1, h⟩ hm
  | stuck => exact Matches.after (n := n) ⟨1, h⟩ hm

theorem run_guard {m : Point}
    (h : f.Has m (if v = .const (.bool true) then .br bodyBlock else .condBr v bodyBlock endBlock))
    (hbody : f.slots bodyBlock = []) (hend : f.slots endBlock = []) (came : BlockId) (s : σ) :
    f.run M 1 (m.config f came s) =
      match M.guard v s with
      | some (b, s') =>
        .running ((Point.start (if b then bodyBlock else endBlock)).config f m.block s')
      | none => .stuck := by
  unfold Interp.guard
  -- A condition that is always true leaves no test behind.
  by_cases hv : v = .const (.bool true)
  · rw [if_pos hv] at h
    rw [if_pos hv, Function.run_br h hbody]
    rfl
  · rw [if_neg hv] at h
    rw [if_neg hv]
    exact Function.run_condBr h hbody hend came s

/-- The turns of a loop, given what its head and its body do. -/
theorem turns_run {m : Point} {head body : σ → Outcome σ ρ} (hbody : f.slots bodyBlock = [])
    (hend : f.slots endBlock = [])
    (hhead : ∀ s came, Matches f M t m n ((Point.start condBlock).config f came s) (head s))
    (hguard : f.Has m (if v = .const (.bool true) then .br bodyBlock
      else .condBr v bodyBlock endBlock))
    (hturn : ∀ s came, Matches f M (some ⟨condBlock, endBlock⟩) (.start condBlock) n
      ((Point.start bodyBlock).config f came s) (body s)) :
    ∀ k, k ≤ n → ∀ s came, Matches f M t (.start endBlock) k
      ((Point.start condBlock).config f came s) (turns head (M.guard v) body k s) := by
  intro k
  induction k with
  | zero => exact fun _ s came => ⟨0, _, Nat.le_refl 0, rfl⟩
  | succ k ih =>
    intro hk s came
    refine Matches.andThen (Matches.mono hk (hhead s came)) fun s₁ came₁ _ => ?_
    have hstep := run_guard (M := M) hguard hbody hend came₁ s₁
    cases hg : M.guard v s₁ with
    | none =>
      rw [hg] at hstep
      exact ⟨1, hstep⟩
    | some r =>
      obtain ⟨b, s₂⟩ := r
      rw [hg] at hstep
      cases b with
      | false => exact ⟨m.block, 1, hstep⟩
      | true =>
        -- The branch into the body is the step that this turn adds to the count.
        exact Matches.step hstep (Matches.endTurn
          (Matches.mono (Nat.le_of_succ_le hk) (hturn s₂ m.block)) (ih (Nat.le_of_succ_le hk)))

/-- A merge that control comes to from one of its incoming blocks. -/
theorem merge_run {join : BlockId} {result : InstId} {incoming : List (Value × BlockId)}
    (h : ∃ i, f.at? (.start join) = some (result, i) ∧ i.op = .phi incoming)
    (hv : ∃ b, incoming.find? (·.2 == came) = some (v, b)) (s : σ) :
    Matches f M t ((Point.start join).plus 1) n ((Point.start join).config f came s)
      (.ofOption (M.merge result v s)) := by
  obtain ⟨i, hat, hop⟩ := h
  obtain ⟨b, hfind⟩ := hv
  have hstep : f.run M 1 ((Point.start join).config f came s) =
      ((Point.start join).config f came s).advance (M.merge result v s) := by
    rw [Function.run_one, Function.step_config hat, Interp.act, hop]
    simp only [Point.config, hfind]
  cases hm : M.merge result v s with
  | none => rw [hm] at hstep; exact ⟨1, hstep⟩
  | some s' => rw [hm] at hstep; exact ⟨came, 1, hstep⟩

/-- A function runs the structured code that lies in it. -/
theorem lies_run (hf : f.NoInnerSlots) : (c : Code) → ∀ {t : Option Targets} {p q : Point},
    c.lies f t p q → ∀ s came, Matches f M t q n (p.config f came s) (c.run M n s)
  | line l, t, p, q, h, s, came => by
    obtain ⟨hl, rfl⟩ := h
    exact liesLine_run l p hl s came
  | seq a b, t, p, q, h, s, came => by
    obtain ⟨m, ha, hb⟩ := h
    exact Matches.andThen (lies_run hf a ha s came) fun s₁ came₁ _ => lies_run hf b hb s₁ came₁
  | shortcut isAnd l r v result, t, p, q, h, s, came => by
    obtain ⟨right, join, m, hright, hjoin, hne, hbr, hr, hend, hmerge, rfl⟩ := h
    have hstep := Function.run_condBr (M := M) hbr
      (by split <;> exact hf _ (by assumption)) (by split <;> exact hf _ (by assumption)) came s
    simp only [run]
    cases ht : M.test l s with
    | none => rw [ht] at hstep; exact ⟨1, hstep⟩
    | some x =>
      obtain ⟨w, s₁⟩ := x
      rw [ht] at hstep
      by_cases hw : w = isAnd
      · -- The right operand is evaluated, and its end jumps to the merge.
        have hto : (if w then (if isAnd then right else join)
            else (if isAnd then join else right)) = right := by
          subst hw; cases w <;> rfl
        simp only [hto] at hstep
        simp only [hw, if_true]
        refine Matches.after ⟨1, hstep⟩ (Matches.andThen (lies_run hf r hr s₁ p.block)
          fun s₂ came₂ _ => ?_)
        refine Matches.after ⟨1, Function.run_br hend (hf _ hjoin) came₂ s₂⟩
          (merge_run hmerge ⟨m.block, ?_⟩ s₂)
        simp [List.find?, beq_false_of_ne (Ne.symm hne)]
      · -- The right operand is skipped: the merge is entered from the block of the left one.
        have hto : (if w then (if isAnd then right else join)
            else (if isAnd then join else right)) = join := by
          cases w <;> cases isAnd <;> simp_all
        simp only [hto] at hstep
        simp only [hw, if_false]
        exact Matches.after ⟨1, hstep⟩ (merge_run hmerge ⟨p.block, by simp [List.find?]⟩ s₁)
  | ifThen c b, t, p, q, h, s, came => by
    obtain ⟨thenBlock, join, m, hthen, hjoin, hbr, hb, hend, rfl⟩ := h
    have hstep := Function.run_condBr (M := M) hbr (hf _ hthen) (hf _ hjoin) came s
    simp only [run]
    cases ht : M.test c s with
    | none => rw [ht] at hstep; exact ⟨1, hstep⟩
    | some r =>
      obtain ⟨w, s₁⟩ := r
      rw [ht] at hstep
      -- The branch is entered where the test holds, and else skipped.
      cases w with
      | false => exact ⟨p.block, 1, hstep⟩
      | true =>
        exact Matches.after ⟨1, hstep⟩ (Matches.join (lies_run hf b hb s₁ p.block)
          fun s₂ hdone => ⟨join, hf _ hjoin, rfl, hend (ends_of_done hdone)⟩)
  | ifThenElse c a b, t, p, q, h, s, came => by
    obtain ⟨thenBlock, elseBlock, m, m', hthen, helse, hbr, ha, hb, hjoin⟩ := h
    have hstep := Function.run_condBr (M := M) hbr (hf _ hthen) (hf _ helse) came s
    simp only [run]
    cases ht : M.test c s with
    | none => rw [ht] at hstep; exact ⟨1, hstep⟩
    | some r =>
      obtain ⟨w, s₁⟩ := r
      rw [ht] at hstep
      cases w with
      | true =>
        exact Matches.after ⟨1, hstep⟩ (Matches.join (lies_run hf a ha s₁ p.block)
          fun s₂ hdone => by
            have he := ends_of_done hdone
            obtain ⟨join, hne, hq, hm, -⟩ := hjoin (by rw [he]; rfl)
            exact ⟨join, hf _ hne, hq, hm he⟩)
      | false =>
        exact Matches.after ⟨1, hstep⟩ (Matches.join (lies_run hf b hb s₁ p.block)
          fun s₂ hdone => by
            have he := ends_of_done hdone
            obtain ⟨join, hne, hq, -, hm⟩ := hjoin (by rw [he, Bool.and_false])
            exact ⟨join, hf _ hne, hq, hm he⟩)
  | loop h c b, t, p, q, hl, s, came => by
    obtain ⟨condBlock, bodyBlock, endBlock, m, n', hcond, hbody, hend, hbr, hh, hguard, hb, hback,
      rfl⟩ := hl
    have hstep := Function.run_br (M := M) hbr (hf _ hcond) came s
    refine Matches.after ⟨1, hstep⟩
      (turns_run (hf _ hbody) (hf _ hend) (fun s came => lies_run hf h hh s came) hguard ?_
        n (Nat.le_refl n) s p.block)
    intro s₁ came₁
    exact Matches.join (lies_run hf b hb s₁ came₁)
      fun s₂ hdone => ⟨condBlock, hf _ hcond, rfl, hback (ends_of_done hdone)⟩
  | leave j, t, p, q, h, s, came => by
    obtain ⟨tg, htg, hne, hbr⟩ := h
    exact ⟨tg, p.block, htg, 1, Function.run_br hbr (hf _ hne) came s⟩
  | ret v, t, p, q, h, s, came => by
    obtain ⟨id, i, hat, hop⟩ := h
    have hstep : f.run M 1 (p.config f came s) =
        match M.result v s with
        | some r => .returned r
        | none => .stuck := by
      rw [Function.run_one, Function.step_config hat, Interp.act, hop]
      rfl
    simp only [run]
    cases hr : M.result v s with
    | none => rw [hr] at hstep; exact ⟨1, hstep⟩
    | some r => rw [hr] at hstep; exact ⟨1, hstep⟩

end Code

end Shading.IR
