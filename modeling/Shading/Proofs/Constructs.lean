import Shading.Proofs.Sites

/-! # Emitted control structures

    Where the blocks of a control structure go and how they are connected,
    once the code of its parts has been emitted. -/

namespace Shading.IR

variable {func : FuncId} {n : Nat} {home : BlockId} {t : Option Targets} {f g : Function}
variable {S' S₀ S₁ S₂ S₄ S₅ S₆ S₇ S₈ S₉ Sa Sb : Site func}
    {b bodyBlock condBlock elseBlock endBlock join k right s thenBlock : BlockId} {c l r : Value}
    {T T₁ T₂ Tb Tc : Code}

/-! ## Blocks that a construct leaves alone -/

theorem Edits.inst?_old (hf : f.Valid) (hpos : 0 < f.blocks.length) (h : Edits n home t f g)
    {i : InstId} (hi : i < f.insts.length) : g.inst? i = f.inst? i := by
  have hget : f.inst? i = some f.insts[i] := List.getElem?_eq_getElem hi
  rw [hget, (h.extend hf hpos).inst? hget]

theorem Edits.isTerminated_old (hf : f.Valid) (hpos : 0 < f.blocks.length) (h : Edits n home t f g)
    (hb : b < n) (hne : b ≠ home) (h0 : b ≠ 0) : g.isTerminated b = f.isTerminated b := by
  unfold Function.isTerminated
  rw [Function.terminator?_congr hf (h.blockIds_old hb hne h0) fun i hi => h.inst?_old hf hpos hi]

theorem Edits.code_old (hf : f.Valid) (hpos : 0 < f.blocks.length) (h : Edits n home t f g)
    (hb : b < n) (hne : b ≠ home) (h0 : b ≠ 0) : g.code b = f.code b := by
  unfold Function.code
  rw [h.blockIds_old hb hne h0]
  refine (Function.dropWhile_isSlot_congr fun i hi => ?_).1
  unfold Function.isSlot
  rw [h.inst?_old hf hpos (hf b i hi)]

/-! ## Blocks that wait -/

/-- A block behind the entry that nothing has been added to. -/
structure Function.Waits (f : Function) (k : BlockId) : Prop where
  pos : k ≠ 0
  inside : k < f.blocks.length
  empty : f.blockIds k = []

/-- A block that waits is open. -/
theorem Function.Waits.isOpen (h : f.Waits k) : f.isTerminated k = false :=
  isTerminated_of_empty h.empty

theorem Function.Waits.noMerge (h : f.Waits k) : f.NoMerge k :=
  Site.noMerge_of_empty h.empty

/-- A block waits that is not the one in hand. -/
structure Site.Awaits (S : Site func) (k : BlockId) : Prop extends S.body.Waits k where
  apart : k ≠ S.block

section

variable {S S' : Site func} {c : Code} {k : BlockId}

theorem Function.Waits.moveTo (h : S.body.Waits k) (hin : b < S.body.blocks.length) (hne : k ≠ b) :
    (S.moveTo b hin).Awaits k := ⟨h, hne⟩

/-- Code for the block in hand keeps the others waiting. -/
theorem Site.Awaits.push (h : S.Awaits k) (i : Inst) : (S.push i).Awaits k where
  pos := h.pos
  inside := S.push_blocks_length i ▸ h.inside
  empty := (Function.pushInst_blockIds_ne h.apart i).trans h.empty
  apart := h.apart

/-- Blocks that a construct has appended wait until it goes on with them. -/
theorem Forked.waits {j : Nat} {op : Op} (h : Forked j S S' op) (hk : S.body.blocks.length ≤ k)
    (hlt : k < S.body.blocks.length + j) : S'.body.Waits k :=
  ⟨Nat.ne_of_gt (Nat.lt_of_lt_of_le S.pos hk), h.length ▸ hlt, h.empty k hk⟩

/-- A block that has just been appended waits. -/
theorem Appended.waits {j : Nat} (h : Appended j S S') (hk : S.body.blocks.length ≤ k)
    (hlt : k < S.body.blocks.length + j) : S'.body.Waits k :=
  ⟨Nat.ne_of_gt (Nat.lt_of_lt_of_le S.pos hk), h.length ▸ hlt,
    (h.blockIds k).trans (Function.blockIds_of_le hk)⟩

/-- A part of a construct neither touches a block that waits nor ends in it. -/
theorem Emitted.awaits (h : Emitted t c S S') (hk : S.Awaits k) : S'.Awaits k where
  pos := hk.pos
  inside := Nat.lt_of_lt_of_le hk.inside h.edits.blocks_le
  empty := (h.edits.blockIds_old hk.inside hk.apart hk.pos).trans hk.empty
  apart := by
    rcases h.home with hhome | hle
    · rw [hhome]
      exact hk.apart
    · exact Nat.ne_of_lt (Nat.lt_of_lt_of_le hk.inside hle)

/-- What starts behind some blocks ends behind them. -/
theorem Emitted.le_block (h : Emitted t c S S') (hblock : n ≤ S.block)
    (hn : n ≤ S.body.blocks.length) : n ≤ S'.block := by
  rcases h.home with hhome | hle
  · rwa [hhome]
  · exact hn.trans hle

/-- A part that starts in an empty block. -/
theorem Emitted.lies_start {hin : b < S.body.blocks.length} (h : Emitted t c (S.moveTo b hin) S')
    (hempty : S.body.blockIds b = []) {F : Function} (hF : S'.body.Extends F) :
    c.lies F t (.start b) S'.point := by
  have hstart : (S.moveTo b hin).point = .start b := Site.point_of_empty rfl hempty
  rw [← hstart]
  exact h.lies F hF

/-- A construct has grown by a part in one of its own blocks. -/
theorem Grown.part {t' : Option Targets} {hin : b < S.body.blocks.length} (h : Grown n home t S₀ S)
    (hpart : Emitted t' c (S.moveTo b hin) S') (hb : n ≤ b)
    (ht : ∀ s ∈ Targets.blocks t', n ≤ s ∨ s ∈ Targets.blocks t) : Grown n home t S₀ S' :=
  (h.trans (.moveTo S hin)).trans
    (hpart.grown.widen (hb.trans (Nat.le_of_lt hin)) (.inr hb) ht)

/-- A construct has grown by a branch to a block that waits. -/
theorem Grown.branch (h : Grown n home t S₀ S) (hopen : S.Open) (hblock : n ≤ S.block)
    (hk : S.Awaits k) (hnew : n ≤ k) : Grown n home t S₀ (S.push ⟨.br k, .void, none⟩) := by
  refine h.trans (.close hopen (.inr hblock) rfl fun s hs => ?_)
  obtain rfl : s = k := by simpa [Op.successors] using hs
  exact ⟨hk.pos, hk.inside, hk.noMerge, .inl hnew⟩

end

/-! ## Leaving -/

/-- A return ends the block in hand. -/
theorem Emitted.ret (t : Option Targets) (S : Site func) (hopen : S.Open) (v : Option Value) :
    Emitted t (.ret v) S (S.push ⟨.ret v, .void, none⟩) where
  start := hopen
  ends := Function.pushInst_isTerminated_self S.inside _
  grows := S.push_grows rfl
  edits := .single (.close S.inside hopen (.inl rfl) rfl fun s hs => by cases hs)
  home := .inl rfl
  within := by
    rw [S.push_insts_length]
    exact ⟨Nat.le_succ _, fun i hi => by cases hi⟩
  lies F hF := S.push_has rfl hF

theorem Targets.block_mem (tg : Targets) (j : Jump) : tg.block j ∈ Targets.blocks (some tg) := by
  cases j with
  | breakLoop => exact List.mem_cons_of_mem _ (List.mem_singleton.2 rfl)
  | continueLoop => exact List.mem_cons_self ..

/-- A jump ends the block in hand and leads to a target of the loop. -/
theorem Emitted.leave {tg : Targets} (S : Site func) (hopen : S.Open)
    (hsound : S.Sound (some tg)) (j : Jump) :
    Emitted (some tg) (.leave j) S (S.push ⟨.br (tg.block j), .void, none⟩) where
  start := hopen
  ends := Function.pushInst_isTerminated_self S.inside _
  grows := S.push_grows rfl
  edits := by
    refine .single (.close S.inside hopen (.inl rfl) rfl fun s hs => ?_)
    obtain rfl : s = tg.block j := by simpa [Op.successors] using hs
    obtain ⟨h0, hlt, hno⟩ := hsound.targets _ (tg.block_mem j)
    exact ⟨h0, hlt, hno, .inr (tg.block_mem j)⟩
  home := .inl rfl
  within := by
    rw [S.push_insts_length]
    exact ⟨Nat.le_succ _, fun i hi => by cases hi⟩
  lies F hF := ⟨tg, rfl, (hsound.targets _ (tg.block_mem j)).1, S.push_has rfl hF⟩

/-! ## Logical operators -/

/-- The block where the two ways of a logical operator meet is reached from the
    block of the first operand and from the end of the second one. -/
theorem Emitted.shortcut_merges {op : Op} {a : Value} (hsound : S₁.Sound t)
    (hfork : Forked 2 S₁ S₄ op) (hmem : join ∈ op.successors) (hjoin : S₁.body.blocks.length ≤ join)
    (hjoin_lt : join < S₄.body.blocks.length) (hin : right < S₄.body.blocks.length)
    (hb : Emitted t Tb (S₄.moveTo right hin) S₆) (hne : S₁.block ≠ S₆.block) :
    (S₆.push ⟨.br join, .void, none⟩).body.Merges join [(a, S₁.block), (r, S₆.block)] := by
  have htargets : join ∉ Targets.blocks t := fun hmem =>
    absurd (hsound.targets join hmem).2.1 (Nat.not_lt.2 hjoin)
  refine ⟨by simpa using hne, fun p => ?_⟩
  -- The right operand jumps to blocks of its own and to targets of a loop only.
  have hp₆ : join ∈ S₆.body.successors p ↔ p = S₁.block := by
    rw [hb.edits.successors_old (S₄.moveTo right hin).valid S₄.pos hjoin_lt htargets]
    show join ∈ S₄.body.successors p ↔ _
    rw [hfork.preds join p hjoin]
    exact ⟨fun h => h.1, fun h => ⟨h, hmem⟩⟩
  show _ ↔ join ∈ (S₆.body.pushInst S₆.block _).successors p
  by_cases hp : p = S₆.block
  · subst hp
    rw [Function.pushInst_successors_self S₆.inside]
    simp [Op.successors]
  · rw [Function.pushInst_successors_ne S₆.valid hp, hp₆]
    simp [hp]

/-- The right operand of a logical operator, with the blocks around it: `right`
    is where it starts and `join` where the two ways meet. -/
theorem Emitted.shortcut {isAnd : Bool} (hopen : S₁.Open) (hsound : S₁.Sound t)
    (hright : right = S₁.body.blocks.length) (hjoin : join = S₁.body.blocks.length + 1)
    (hfork : Forked 2 S₁ S₄ (.condBr l (if isAnd then right else join) (if isAnd then join else right)))
    (hin : right < S₄.body.blocks.length) (hb : Emitted t Tb (S₄.moveTo right hin) S₆)
    (hends : Tb.ends = false) (hin' : join < (S₆.push ⟨.br join, .void, none⟩).body.blocks.length)
    (hr : r.Below (S₆.push ⟨.br join, .void, none⟩).body.insts.length) :
    Emitted t (.shortcut isAnd l Tb r (S₆.body.insts.length + 1)) S₁
      (((S₆.push ⟨.br join, .void, none⟩).moveTo join hin').push
        ⟨.phi [(.const (.bool !isAnd), S₁.block), (r, S₆.block)], .bool, none⟩) := by
  let S₇ := S₆.push ⟨.br join, .void, none⟩
  let S₈ := S₇.moveTo join hin'
  have hright_new : S₁.body.blocks.length ≤ right := Nat.le_of_eq hright.symm
  have hlt : right < join := by
    rw [hright, hjoin]
    exact Nat.lt_succ_self _
  have hjoin_new : S₁.body.blocks.length ≤ join := hright_new.trans (Nat.le_of_lt hlt)
  -- The right operand stays in its own blocks, so the join still waits behind it.
  have hjoin₄ : S₄.body.Waits join := hfork.waits hjoin_new (hjoin ▸ Nat.lt_succ_self _)
  have hjoin₆ : S₆.Awaits join := hb.awaits (hjoin₄.moveTo hin (Nat.ne_of_gt hlt))
  have hjoin₇ : S₇.Awaits join := hjoin₆.push _
  have hnew₆ : S₁.body.blocks.length ≤ S₆.block :=
    hb.le_block hright_new (hright_new.trans (Nat.le_of_lt hin))
  have hne_left : S₆.block ≠ S₁.block := Nat.ne_of_gt (Nat.lt_of_lt_of_le S₁.inside hnew₆)
  have hmem : join ∈ (Op.condBr l (if isAnd then right else join)
      (if isAnd then join else right)).successors := by cases isAnd <;> simp [Op.successors]
  have hgrown₄ : Grown S₁.body.blocks.length S₁.block t S₁ S₄ :=
    hfork.grown (Nat.le_refl _) (.inl rfl)
  have hgrown₇ : Grown S₁.body.blocks.length S₁.block t S₁ S₇ :=
    (hgrown₄.part hb hright_new fun _ => .inr).branch (hb.ends.trans hends) hnew₆ hjoin₆ hjoin_new
  have hgrown : Grown S₁.body.blocks.length S₁.block t S₁ (S₈.push
      ⟨.phi [(.const (.bool !isAnd), S₁.block), (r, S₆.block)], .bool, none⟩) :=
    (hgrown₇.trans (.moveTo S₇ hin')).trans (.merge hjoin_new hjoin₇.empty
      (Emitted.shortcut_merges hsound hfork hmem hjoin_new hjoin₄.inside hin hb hne_left.symm)
      (by simpa using ⟨trivial, hr⟩))
  have hlen₇ : S₇.body.insts.length = S₆.body.insts.length + 1 := S₆.push_insts_length _
  have hlast : (S₈.push ⟨.phi [(.const (.bool !isAnd), S₁.block), (r, S₆.block)], .bool,
      none⟩).body.insts.length = S₆.body.insts.length + 2 := by
    rw [Site.push_insts_length]
    show S₇.body.insts.length + 1 = _
    rw [hlen₇]
  refine ⟨hopen, ?_, hgrown.grows, hgrown.edits, .inr hjoin_new, ?_, fun F hF => ?_⟩
  · show (S₇.body.pushInst join _).isTerminated join = false
    rw [Function.pushInst_isTerminated_self hin']
    rfl
  · have hinsts₄ : S₁.body.insts.length ≤ S₄.body.insts.length := hgrown₄.insts
    have hle₆ : S₄.body.insts.length ≤ S₆.body.insts.length := hb.within.1
    rw [hlast]
    refine ⟨by omega, fun i hi => ?_⟩
    rcases List.mem_append.1 hi with hi | hi
    · obtain ⟨h₁, h₂⟩ := hb.within.2 i hi
      exact ⟨hinsts₄.trans h₁, Nat.lt_of_lt_of_le h₂ (Nat.le_add_right _ _)⟩
    · obtain rfl := List.mem_singleton.1 hi
      exact ⟨(hinsts₄.trans hle₆).trans (Nat.le_succ _), Nat.lt_succ_self _⟩
  · have hF₇ : S₇.body.Extends F :=
      (Function.pushInst_extends S₈.valid S₈.inside rfl).trans hF
    have hF₆ : S₆.body.Extends F :=
      (Function.pushInst_extends S₆.valid S₆.inside rfl).trans hF₇
    have hjoin_start : S₈.point = .start join := Site.point_of_empty rfl hjoin₇.empty
    refine ⟨right, join, S₆.point, ?_, hjoin₇.pos, hne_left, hfork.has F (hb.extend.trans hF₆),
      hb.lies_start (hfork.empty right hright_new) hF₆, S₆.push_has rfl hF₇,
      ⟨⟨.phi [(.const (.bool !isAnd), S₁.block), (r, S₆.block)], .bool, none⟩, ?_, rfl⟩, ?_⟩
    · exact Nat.ne_of_gt (hright ▸ S₁.pos)
    · rw [← hjoin_start, ← hlen₇]
      exact S₈.push_at? rfl hF
    · rw [← hjoin_start]
      show (⟨join, ((S₇.body.pushInst join _).code join).length⟩ : Point) = _
      rw [Function.pushInst_code_self S₇.valid hin' rfl, List.length_append]
      rfl

/-! ## Falling into a block -/

/-- Behind code that does not end, a branch to the target. -/
inductive Falls (target : BlockId) (c : Code) (S : Site func) : Site func → Prop
  | ended (h : c.ends = true) : Falls target c S S
  | falls (h : c.ends = false) : Falls target c S (S.push ⟨.br target, .void, none⟩)

namespace Falls

variable {target : BlockId} {c : Code} {S S' : Site func}

/-- Where control falls into its target, one branch is added. -/
theorem grown (h : Falls target c S S') (hends : S.body.isTerminated S.block = c.ends)
    (hin : S.block = home ∨ n ≤ S.block) (h0 : target ≠ 0) (hlt : target < S.body.blocks.length)
    (hno : S.body.NoMerge target) (hto : n ≤ target ∨ target ∈ Targets.blocks t) :
    Grown n home t S S' := by
  cases h with
  | ended h => exact ⟨.refl func _, .refl, Nat.le_refl _⟩
  | falls h =>
    refine .close (hends.trans h) hin rfl fun s hs => ?_
    obtain rfl : s = target := by simpa [Op.successors] using hs
    exact ⟨h0, hlt, hno, hto⟩

theorem length (h : Falls target c S S') : S'.body.blocks.length = S.body.blocks.length := by
  cases h with
  | ended h => rfl
  | falls h => exact Function.pushInst_blocks_length ..

theorem insts (h : Falls target c S S') : S.body.insts.length ≤ S'.body.insts.length := by
  cases h with
  | ended h => exact Nat.le_refl _
  | falls h => rw [S.push_insts_length]; exact Nat.le_succ _

theorem code (h : Falls target c S S') (hb : b ≠ S.block) : S'.body.code b = S.body.code b := by
  cases h with
  | ended h => rfl
  | falls h => exact Function.pushInst_code_ne S.valid hb _

theorem isTerminated (h : Falls target c S S') (hb : b ≠ S.block) :
    S'.body.isTerminated b = S.body.isTerminated b := by
  cases h with
  | ended h => rfl
  | falls h => exact Function.pushInst_isTerminated_ne S.valid hb _

/-- Falling into a block fills none of those that wait. -/
theorem awaits (h : Falls target c S S') (hk : S.Awaits k) : S'.Awaits k := by
  cases h with
  | ended h => exact hk
  | falls h => exact hk.push _

theorem extend (h : Falls target c S S') : S.body.Extends S'.body := by
  cases h with
  | ended h => exact .refl _
  | falls h => exact Function.pushInst_extends S.valid S.inside rfl

theorem grows (h : Falls target c S S') : S.builder.module.Grows func S'.builder.module := by
  cases h with
  | ended h => exact .refl func _
  | falls h => exact S.push_grows rfl

/-- Control falls into a block that waits. -/
theorem grown_waits (h : Falls target c S S') (hends : S.body.isTerminated S.block = c.ends)
    (hblock : n ≤ S.block) (hk : S.body.Waits target) (hnew : n ≤ target) :
    Grown n home t S S' :=
  h.grown hends (.inr hblock) hk.pos hk.inside hk.noMerge (.inl hnew)

theorem has (h : Falls target c S S') {F : Function} (hF : S'.body.Extends F)
    (hc : c.ends = false) : F.Has S.point (.br target) := by
  cases h with
  | ended h => rw [h] at hc; cases hc
  | falls h => exact S.push_has rfl hF

end Falls

/-! ## Conditionals -/

/-- The code of a conditional is its branch between a fork and a join. -/
theorem Emitted.ifThen (hopen : S₁.Open) (hthen : thenBlock = S₁.body.blocks.length)
    (hjoin : join = S₁.body.blocks.length + 1) (hfork : Forked 2 S₁ S₂ (.condBr c thenBlock join))
    (hin : thenBlock < S₂.body.blocks.length) (hb : Emitted t T (S₂.moveTo thenBlock hin) S₄)
    (hfall : Falls join T S₄ S₅) (hin' : join < S₅.body.blocks.length) :
    Emitted t (.ifThen c T) S₁ (S₅.moveTo join hin') := by
  have hthen_new : S₁.body.blocks.length ≤ thenBlock := Nat.le_of_eq hthen.symm
  have hlt : thenBlock < join := by
    rw [hthen, hjoin]
    exact Nat.lt_succ_self _
  have hjoin_new : S₁.body.blocks.length ≤ join := hthen_new.trans (Nat.le_of_lt hlt)
  -- The branch ends in its own block or in a later one, so the join block waits for it.
  have hjoin₂ : S₂.body.Waits join := hfork.waits hjoin_new (hjoin ▸ Nat.lt_succ_self _)
  have hjoin₄ : S₄.Awaits join := hb.awaits (hjoin₂.moveTo hin (Nat.ne_of_gt hlt))
  have hjoin₅ : S₅.Awaits join := hfall.awaits hjoin₄
  have hnew₄ : S₁.body.blocks.length ≤ S₄.block :=
    hb.le_block hthen_new (hthen_new.trans (Nat.le_of_lt hin))
  have hgrown₂ : Grown S₁.body.blocks.length S₁.block t S₁ S₂ :=
    hfork.grown (Nat.le_refl _) (.inl rfl)
  have hgrown : Grown S₁.body.blocks.length S₁.block t S₁ (S₅.moveTo join hin') :=
    ((hgrown₂.part hb hthen_new fun _ => .inr).trans
      (hfall.grown_waits hb.ends hnew₄ hjoin₄.toWaits hjoin_new)).trans (.moveTo S₅ hin')
  refine ⟨hopen, hjoin₅.isOpen, hgrown.grows, hgrown.edits, .inr hjoin_new,
    ⟨hgrown.insts, fun i hi => ?_⟩, fun F hF => ?_⟩
  · obtain ⟨h₁, h₂⟩ := hb.within.2 i hi
    exact ⟨hgrown₂.insts.trans h₁, Nat.lt_of_lt_of_le h₂ hfall.insts⟩
  · have hF₄ : S₄.body.Extends F := hfall.extend.trans hF
    exact ⟨thenBlock, join, S₄.point, Nat.ne_of_gt (Nat.lt_of_lt_of_le S₁.pos hthen_new),
      hjoin₅.pos, hfork.has F (hb.extend.trans hF₄),
      hb.lies_start (hfork.empty thenBlock hthen_new) hF₄, fun hends => hfall.has hF hends,
      Site.point_of_empty rfl hjoin₅.empty⟩

/-- Behind a conditional whose branches do not both end, a block where they
    join is appended, and each branch that does not end goes there. -/
inductive Joins (a b : Code) (Sa Sb : Site func) : Site func → Prop
  | ended (h : (a.ends && b.ends) = true) : Joins a b Sa Sb Sb
  | joined {S₇ S₈ S₉ : Site func} (h : (a.ends && b.ends) = false) (happ : Appended 1 Sb S₇)
    (hina : Sa.block < S₇.body.blocks.length)
    (ha : Falls Sb.body.blocks.length a (S₇.moveTo Sa.block hina) S₈)
    (hinb : Sb.block < S₈.body.blocks.length)
    (hb : Falls Sb.body.blocks.length b (S₈.moveTo Sb.block hinb) S₉)
    (hin : Sb.body.blocks.length < S₉.body.blocks.length) :
    Joins a b Sa Sb (S₉.moveTo Sb.body.blocks.length hin)

theorem Joins.grows {a b : Code} (h : Joins a b Sa Sb S') :
    Sb.builder.module.Grows func S'.builder.module := by
  cases h with
  | ended h => exact .refl func _
  | joined h happ hina ha hinb hb hin =>
    exact ((happ.grown : Grown 0 0 none Sb _).grows.trans ha.grows).trans hb.grows

theorem Joins.insts {a b : Code} (h : Joins a b Sa Sb S') :
    Sb.body.insts.length ≤ S'.body.insts.length := by
  cases h with
  | ended h => exact Nat.le_refl _
  | joined h happ hina ha hinb hb hin =>
    exact (Nat.le_of_eq happ.insts.symm).trans (ha.insts.trans hb.insts)

/-- Both branches of a conditional have been emitted behind the blocks that the
    function had, each in blocks of its own. -/
structure Branched (t : Option Targets) (c : Value) (T₁ T₂ : Code) (S₁ S₄ S₆ : Site func) :
    Prop where
  grown : Grown S₁.body.blocks.length S₁.block t S₁ S₆
  first : S₁.body.blocks.length ≤ S₄.block ∧ S₄.block < S₆.body.blocks.length
  second : S₁.body.blocks.length ≤ S₆.block
  apart : S₆.block ≠ S₄.block
  code : S₆.body.code S₄.block = S₄.body.code S₄.block
  firstEnds : S₆.body.isTerminated S₄.block = T₁.ends
  secondEnds : S₆.body.isTerminated S₆.block = T₂.ends
  within : ∀ i ∈ (Code.ifThenElse c T₁ T₂).ids,
    S₁.body.insts.length ≤ i ∧ i < S₆.body.insts.length
  lies : ∀ F, S₆.body.Extends F → ∃ thenBlock elseBlock, thenBlock ≠ 0 ∧ elseBlock ≠ 0 ∧
    F.Has S₁.point (.condBr c thenBlock elseBlock) ∧ T₁.lies F t (.start thenBlock) S₄.point ∧
    T₂.lies F t (.start elseBlock) S₆.point

/-- Both branches lie behind the fork, and the join waits if it is needed. -/
theorem Emitted.branched (hthen : thenBlock = S₁.body.blocks.length)
    (helse : elseBlock = S₁.body.blocks.length + 1)
    (hfork : Forked 2 S₁ S₂ (.condBr c thenBlock elseBlock))
    (hin : thenBlock < S₂.body.blocks.length) (h₁ : Emitted t T₁ (S₂.moveTo thenBlock hin) S₄)
    (hin' : elseBlock < S₄.body.blocks.length) (h₂ : Emitted t T₂ (S₄.moveTo elseBlock hin') S₆) :
    Branched t c T₁ T₂ S₁ S₄ S₆ := by
  have hthen_new : S₁.body.blocks.length ≤ thenBlock := Nat.le_of_eq hthen.symm
  have hlt : thenBlock < elseBlock := by
    rw [hthen, helse]
    exact Nat.lt_succ_self _
  have helse_new : S₁.body.blocks.length ≤ elseBlock := hthen_new.trans (Nat.le_of_lt hlt)
  -- The first branch ends in its own blocks and leaves the second one empty.
  have helse₂ : S₂.body.Waits elseBlock := hfork.waits helse_new (helse ▸ Nat.lt_succ_self _)
  have helse₄ : S₄.Awaits elseBlock := h₁.awaits (helse₂.moveTo hin (Nat.ne_of_gt hlt))
  have hnew₄ : S₁.body.blocks.length ≤ S₄.block :=
    h₁.le_block hthen_new (hthen_new.trans (Nat.le_of_lt hin))
  have hzero₄ : S₄.block ≠ 0 := Nat.ne_of_gt (Nat.lt_of_lt_of_le S₁.pos hnew₄)
  have hgrown₂ : Grown S₁.body.blocks.length S₁.block t S₁ S₂ :=
    hfork.grown (Nat.le_refl _) (.inl rfl)
  have hgrown₄ := hgrown₂.part h₁ hthen_new fun _ => .inr
  refine ⟨hgrown₄.part h₂ helse_new fun _ => .inr,
    ⟨hnew₄, Nat.lt_of_lt_of_le S₄.inside h₂.edits.blocks_le⟩,
    h₂.le_block helse_new hgrown₄.blocks_le, ?_, ?_, ?_, h₂.ends, fun i hi => ?_, fun F hF => ?_⟩
  · rcases h₂.home with h | h
    · rw [h]
      exact helse₄.apart
    · exact Nat.ne_of_gt (Nat.lt_of_lt_of_le S₄.inside h)
  -- The second branch leaves the end of the first one as it is.
  · exact h₂.edits.code_old S₄.valid S₄.pos S₄.inside helse₄.apart.symm hzero₄
  · rw [h₂.edits.isTerminated_old (S₄.moveTo elseBlock hin').valid S₄.pos S₄.inside
      helse₄.apart.symm hzero₄]
    exact h₁.ends
  · rcases List.mem_append.1 hi with hi | hi
    · obtain ⟨hlo, hhi⟩ := h₁.within.2 i hi
      exact ⟨hgrown₂.insts.trans hlo, Nat.lt_of_lt_of_le hhi h₂.within.1⟩
    · obtain ⟨hlo, hhi⟩ := h₂.within.2 i hi
      exact ⟨hgrown₄.insts.trans hlo, hhi⟩
  · have hF₄ : S₄.body.Extends F := h₂.extend.trans hF
    exact ⟨thenBlock, elseBlock, Nat.ne_of_gt (Nat.lt_of_lt_of_le S₁.pos hthen_new), helse₄.pos,
      hfork.has F (h₁.extend.trans hF₄), h₁.lies_start (hfork.empty thenBlock hthen_new) hF₄,
      h₂.lies_start helse₄.empty hF⟩

/-- A block is appended where the branches join. -/
theorem Branched.joined (h : Branched t c T₁ T₂ S₁ S₄ S₆) (hopen : S₁.Open)
    (hends : (T₁.ends && T₂.ends) = false) (happ : Appended 1 S₆ S₇)
    (hina : S₄.block < S₇.body.blocks.length)
    (ha : Falls S₆.body.blocks.length T₁ (S₇.moveTo S₄.block hina) S₈)
    (hinb : S₆.block < S₈.body.blocks.length)
    (hb : Falls S₆.body.blocks.length T₂ (S₈.moveTo S₆.block hinb) S₉)
    (hin : S₆.body.blocks.length < S₉.body.blocks.length) :
    Emitted t (.ifThenElse c T₁ T₂) S₁ (S₉.moveTo S₆.body.blocks.length hin) := by
  have hnew : S₁.body.blocks.length ≤ S₆.body.blocks.length := h.grown.blocks_le
  -- The join waits while the branches fall into it one after the other.
  have hjoin₇ : S₇.body.Waits S₆.body.blocks.length :=
    happ.waits (Nat.le_refl _) (Nat.lt_succ_self _)
  have hjoin₈ : S₈.Awaits S₆.body.blocks.length :=
    ha.awaits (hjoin₇.moveTo hina (Nat.ne_of_gt h.first.2))
  have hjoin₉ : S₉.Awaits S₆.body.blocks.length :=
    hb.awaits (hjoin₈.toWaits.moveTo hinb (Nat.ne_of_gt S₆.inside))
  have hgrown₈ : Grown S₁.body.blocks.length S₁.block t S₁ S₈ :=
    ((h.grown.trans happ.grown).trans (.moveTo S₇ hina)).trans (ha.grown_waits
      ((happ.ended S₄.block).trans h.firstEnds) h.first.1 hjoin₇ hnew)
  have hended₈ : S₈.body.isTerminated S₆.block = T₂.ends :=
    (ha.isTerminated h.apart).trans ((happ.ended S₆.block).trans h.secondEnds)
  have hgrown₉ : Grown S₁.body.blocks.length S₁.block t S₁ S₉ :=
    (hgrown₈.trans (.moveTo S₈ hinb)).trans (hb.grown_waits hended₈ h.second hjoin₈.toWaits hnew)
  have hinsts : S₆.body.insts.length ≤ S₉.body.insts.length :=
    (Nat.le_of_eq happ.insts.symm).trans (ha.insts.trans hb.insts)
  refine ⟨hopen, ?_, hgrown₉.grows, hgrown₉.edits, .inr hnew, ⟨hgrown₉.insts, fun i hi =>
    ⟨(h.within i hi).1, Nat.lt_of_lt_of_le (h.within i hi).2 hinsts⟩⟩, fun F hF => ?_⟩
  · rw [Code.ends, hends]
    exact hjoin₉.isOpen
  · have hF₈ : S₈.body.Extends F := hb.extend.trans hF
    obtain ⟨thenBlock, elseBlock, h0, h0', hhas, hl₁, hl₂⟩ :=
      h.lies F (happ.extend.trans (ha.extend.trans hF₈))
    refine ⟨thenBlock, elseBlock, S₄.point, S₆.point, h0, h0', hhas, hl₁, hl₂, fun _ =>
      ⟨S₆.body.blocks.length, hjoin₉.pos, Site.point_of_empty rfl hjoin₉.empty, fun hends₁ => ?_,
        fun hends₂ => ?_⟩⟩
    · have hpoint : (S₇.moveTo S₄.block hina).point = S₄.point := by
        show (⟨S₄.block, (S₇.body.code S₄.block).length⟩ : Point) = _
        rw [happ.code, h.code]
        rfl
      rw [← hpoint]
      exact ha.has hF₈ hends₁
    · have hpoint : (S₈.moveTo S₆.block hinb).point = S₆.point := by
        show (⟨S₆.block, (S₈.body.code S₆.block).length⟩ : Point) = _
        rw [ha.code h.apart]
        show (⟨S₆.block, (S₇.body.code S₆.block).length⟩ : Point) = _
        rw [happ.code]
        rfl
      rw [← hpoint]
      exact hb.has hF hends₂

/-- The code of a conditional with two branches, which may both have ended. -/
theorem Emitted.ifThenElse (hopen : S₁.Open) (hthen : thenBlock = S₁.body.blocks.length)
    (helse : elseBlock = S₁.body.blocks.length + 1)
    (hfork : Forked 2 S₁ S₂ (.condBr c thenBlock elseBlock))
    (hin : thenBlock < S₂.body.blocks.length) (h₁ : Emitted t T₁ (S₂.moveTo thenBlock hin) S₄)
    (hin' : elseBlock < S₄.body.blocks.length) (h₂ : Emitted t T₂ (S₄.moveTo elseBlock hin') S₆)
    (hjoins : Joins T₁ T₂ S₄ S₆ S') : Emitted t (.ifThenElse c T₁ T₂) S₁ S' := by
  have hbranched := Emitted.branched hthen helse hfork hin h₁ hin' h₂
  -- Where both branches have ended, nothing is appended behind them.
  cases hjoins with
  | ended hends =>
    refine ⟨hopen, ?_, hbranched.grown.grows, hbranched.grown.edits, .inr hbranched.second,
      ⟨hbranched.grown.insts, hbranched.within⟩, fun F hF => ?_⟩
    · rw [hbranched.secondEnds, Code.ends, hends]
      exact (Bool.and_eq_true_iff.1 hends).2
    · obtain ⟨b, b', h0, h0', hhas, hl₁, hl₂⟩ := hbranched.lies F hF
      exact ⟨b, b', _, _, h0, h0', hhas, hl₁, hl₂, fun h => by
        rw [hends] at h
        cases h⟩
  | joined hends happ hina ha hinb hb hin₉ =>
    exact hbranched.joined hopen hends happ hina ha hinb hb hin₉

/-! ## Loops -/

/-- The end of the condition of a loop: the constant `true` is not tested. -/
def loopBranch (c : Value) (bodyBlock endBlock : BlockId) : Op :=
  if c = .const (.bool true) then .br bodyBlock else .condBr c bodyBlock endBlock

theorem loopBranch_isTerminator (c : Value) (bodyBlock endBlock : BlockId) :
    (loopBranch c bodyBlock endBlock).isTerminator = true := by
  unfold loopBranch
  split <;> rfl

theorem mem_loopBranch_successors (h : s ∈ (loopBranch c bodyBlock endBlock).successors) :
    s = bodyBlock ∨ s = endBlock := by
  unfold loopBranch at h
  split at h
  · exact .inl (by simpa [Op.successors] using h)
  · simpa [Op.successors] using h

/-- The branch of a loop leads to its body and behind it. -/
theorem Grown.loopBranch {S : Site func} {c : Value} {bodyBlock endBlock : BlockId}
    (hopen : S.Open) (hbody : S.Awaits bodyBlock) (hend : S.Awaits endBlock) :
    Grown S.body.blocks.length S.block (some ⟨bodyBlock, endBlock⟩) S
      (S.push ⟨loopBranch c bodyBlock endBlock, .void, none⟩) := by
  refine .close hopen (.inl rfl) (loopBranch_isTerminator ..) fun s hs => ?_
  rcases mem_loopBranch_successors hs with rfl | rfl
  · exact ⟨hbody.pos, hbody.inside, hbody.noMerge,
      .inr (Targets.block_mem ⟨s, endBlock⟩ .continueLoop)⟩
  · exact ⟨hend.pos, hend.inside, hend.noMerge,
      .inr (Targets.block_mem ⟨bodyBlock, s⟩ .breakLoop)⟩

/-- While the condition of a loop is emitted, the blocks of its body and of its
    end wait. -/
theorem Emitted.condition (hcond : condBlock = S₁.body.blocks.length)
    (hbody : bodyBlock = S₁.body.blocks.length + 1) (hend : endBlock = S₁.body.blocks.length + 2)
    (hfork : Forked 3 S₁ S₂ (.br condBlock)) (hin : condBlock < S₂.body.blocks.length)
    (hc : Emitted t Tc (S₂.moveTo condBlock hin) S₄) :
    S₄.Awaits bodyBlock ∧ S₄.Awaits endBlock ∧ bodyBlock < endBlock := by
  subst hcond hbody hend
  have hbody := (hfork.waits (Nat.le_succ _) (Nat.add_lt_add_left (by decide) _)).moveTo hin
    (Nat.succ_ne_self _)
  have hend := (hfork.waits (Nat.le_add_right _ 2) (Nat.lt_succ_self _)).moveTo hin
    (Nat.ne_of_gt (Nat.lt_add_of_pos_right (by decide)))
  exact ⟨hc.awaits hbody, hc.awaits hend, Nat.lt_succ_self _⟩

/-- The place where the body of a loop starts: its block is empty, and its
    jumps may go to the blocks of the condition and of the end. -/
theorem Emitted.loopBody (hsound : S₁.Sound t) (hcond : condBlock = S₁.body.blocks.length)
    (hbody : bodyBlock = S₁.body.blocks.length + 1) (hend : endBlock = S₁.body.blocks.length + 2)
    (hfork : Forked 3 S₁ S₂ (.br condBlock)) (hin : condBlock < S₂.body.blocks.length)
    (hc : Emitted t Tc (S₂.moveTo condBlock hin) S₄) (hTc : Tc.ends = false) :
    (S₄.push ⟨loopBranch c bodyBlock endBlock, .void, none⟩).Sound (some ⟨condBlock, endBlock⟩) ∧
    (S₄.push ⟨loopBranch c bodyBlock endBlock, .void, none⟩).body.blockIds bodyBlock = [] := by
  obtain ⟨hbody₄, hend₄, -⟩ := Emitted.condition hcond hbody hend hfork hin hc
  refine ⟨(Grown.loopBranch (hc.ends.trans hTc) hbody₄ hend₄).sound (Nat.le_refl _) ?_,
    (hbody₄.push _).empty⟩
  -- Nothing has been merged in the new blocks, so any two of them may be targets.
  refine hc.sound (Site.Sound.moveTo (hfork.sound_new hsound fun s hs => ?_) hin)
  have hs' : s = condBlock ∨ s = endBlock := by simpa [Targets.blocks] using hs
  rcases hs' with rfl | rfl
  · exact ⟨Nat.le_of_eq hcond.symm, hfork.length ▸ hin⟩
  · exact ⟨hend ▸ Nat.le_add_right _ _, hend ▸ Nat.lt_succ_self _⟩

/-- The code of a loop is its condition and its body, which jumps back. -/
theorem Emitted.loop (hopen : S₁.Open) (hcond : condBlock = S₁.body.blocks.length)
    (hbody : bodyBlock = S₁.body.blocks.length + 1) (hend : endBlock = S₁.body.blocks.length + 2)
    (hfork : Forked 3 S₁ S₂ (.br condBlock)) (hin : condBlock < S₂.body.blocks.length)
    (hc : Emitted t Tc (S₂.moveTo condBlock hin) S₄) (hTc : Tc.ends = false)
    (hin' : bodyBlock < (S₄.push ⟨loopBranch c bodyBlock endBlock, .void, none⟩).body.blocks.length)
    (hb : Emitted (some ⟨condBlock, endBlock⟩) T
      ((S₄.push ⟨loopBranch c bodyBlock endBlock, .void, none⟩).moveTo bodyBlock hin') S₇)
    (hfall : Falls condBlock T S₇ S₈) (hin'' : endBlock < S₈.body.blocks.length) :
    Emitted t (.loop Tc c T) S₁ (S₈.moveTo endBlock hin'') := by
  let S₅ := S₄.push ⟨loopBranch c bodyBlock endBlock, .void, none⟩
  have hcond_new : S₁.body.blocks.length ≤ condBlock := Nat.le_of_eq hcond.symm
  have hbody_new : S₁.body.blocks.length ≤ bodyBlock := hbody ▸ Nat.le_succ _
  have hend_new : S₁.body.blocks.length ≤ endBlock := hend ▸ Nat.le_add_right _ _
  -- The condition leaves the other two blocks empty, and the body leaves the end empty.
  obtain ⟨hbody₄, hend₄, hlt⟩ := Emitted.condition hcond hbody hend hfork hin hc
  have hend₅ : S₅.Awaits endBlock := hend₄.push _
  have hend₇ : S₇.Awaits endBlock := hb.awaits (hend₅.toWaits.moveTo hin' (Nat.ne_of_gt hlt))
  have hend₈ : S₈.Awaits endBlock := hfall.awaits hend₇
  have hgrown₂ : Grown S₁.body.blocks.length S₁.block t S₁ S₂ :=
    hfork.grown (Nat.le_refl _) (.inl rfl)
  have hgrown₄ := hgrown₂.part hc hcond_new fun _ => .inr
  have hnew₄ : S₁.body.blocks.length ≤ S₄.block := hc.le_block hcond_new hgrown₂.blocks_le
  have hbranch₅ : Grown S₄.body.blocks.length S₄.block (some ⟨bodyBlock, endBlock⟩) S₄ S₅ :=
    .loopBranch (hc.ends.trans hTc) hbody₄ hend₄
  have hgrown₅ : Grown S₁.body.blocks.length S₁.block t S₁ S₅ := by
    refine hgrown₄.trans (hbranch₅.widen hgrown₄.blocks_le (.inr hnew₄) fun s hs => .inl ?_)
    have hs' : s = bodyBlock ∨ s = endBlock := by simpa [Targets.blocks] using hs
    rcases hs' with rfl | rfl
    · exact hbody_new
    · exact hend_new
  have hgrown₇ : Grown S₁.body.blocks.length S₁.block t S₁ S₇ := by
    refine hgrown₅.part hb hbody_new fun s hs => .inl ?_
    have hs' : s = condBlock ∨ s = endBlock := by simpa [Targets.blocks] using hs
    rcases hs' with rfl | rfl
    · exact hcond_new
    · exact hend_new
  have hnew₇ : S₁.body.blocks.length ≤ S₇.block := hb.le_block hbody_new hgrown₅.blocks_le
  -- The body comes back to the condition, which starts without a merge.
  have hcond₄ : condBlock < S₄.body.blocks.length := Nat.lt_of_lt_of_le hin hc.edits.blocks_le
  have hcond₅ : condBlock < S₅.body.blocks.length := S₄.push_blocks_length _ ▸ hcond₄
  have hno₇ : S₇.body.NoMerge condBlock := by
    have hno₄ : S₄.body.NoMerge condBlock := hc.edits.noMerge (S₂.moveTo condBlock hin).valid
      S₂.pos hin (Site.noMerge_of_empty (hfork.empty condBlock hcond_new))
    have hno₅ : S₅.body.NoMerge condBlock :=
      hbranch₅.edits.noMerge S₄.valid S₄.pos hcond₄ hno₄
    exact hb.edits.noMerge (Site.moveTo S₅ bodyBlock hin').valid S₅.pos hcond₅ hno₅
  have hgrown : Grown S₁.body.blocks.length S₁.block t S₁ (S₈.moveTo endBlock hin'') :=
    (hgrown₇.trans (hfall.grown hb.ends (.inr hnew₇) (Nat.ne_of_gt (Nat.lt_of_lt_of_le S₁.pos
      hcond_new)) (Nat.lt_of_lt_of_le hcond₅ hb.edits.blocks_le) hno₇ (.inl hcond_new))).trans
      (.moveTo S₈ hin'')
  refine ⟨hopen, hend₈.isOpen, hgrown.grows, hgrown.edits, .inr hend_new,
    ⟨hgrown.insts, fun i hi => ?_⟩, fun F hF => ?_⟩
  · rcases List.mem_append.1 hi with hi | hi
    · obtain ⟨hlo, hhi⟩ := hc.within.2 i hi
      have hle : S₄.body.insts.length ≤ S₈.body.insts.length :=
        (S₄.push_insts_length _ ▸ Nat.le_succ _ :
          S₄.body.insts.length ≤ S₅.body.insts.length).trans (hb.within.1.trans hfall.insts)
      exact ⟨hgrown₂.insts.trans hlo, Nat.lt_of_lt_of_le hhi hle⟩
    · obtain ⟨hlo, hhi⟩ := hb.within.2 i hi
      exact ⟨hgrown₅.insts.trans hlo, Nat.lt_of_lt_of_le hhi hfall.insts⟩
  · have hF₇ : S₇.body.Extends F := hfall.extend.trans hF
    have hF₅ : S₅.body.Extends F := hb.extend.trans hF₇
    have hbranch := Op.not_isAlloca_of_terminator (loopBranch_isTerminator c bodyBlock endBlock)
    have hF₄ : S₄.body.Extends F :=
      (Function.pushInst_extends S₄.valid S₄.inside hbranch).trans hF₅
    exact ⟨condBlock, bodyBlock, endBlock, S₄.point, S₇.point,
      Nat.ne_of_gt (Nat.lt_of_lt_of_le S₁.pos hcond_new), hbody₄.pos, hend₈.pos,
      hfork.has F (hc.extend.trans hF₄), hc.lies_start (hfork.empty condBlock hcond_new) hF₄,
      S₄.push_has hbranch hF₅, hb.lies_start (hbody₄.push _).empty hF₇,
      fun hends => hfall.has hF hends, Site.point_of_empty rfl hend₈.empty⟩

end Shading.IR
