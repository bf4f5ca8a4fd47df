import Shading.Emit
import Shading.Proofs.Edits

/-! # Emitted code

    A `Site` is a builder that stands in a body.  `Emitted` says that a piece
    of structured code was emitted between two sites: where it lies, which
    edits put it there, and that the rest of the module is as before.

    `EmitsLine` is a small logic for actions that emit instructions without
    branching. -/

namespace Shading.IR

variable {id id' : FuncId} {f : Function} {m : Module}

/-! ## Modules that grow -/

/-- The body of one function has been extended and runtime functions have
    been declared; nothing else has changed. -/
structure Module.Grows (func : FuncId) (m m' : Module) : Prop where
  others : ∀ id f, id ≠ func → m.function? id = some f → m'.function? id = some f
  body : ∀ f, m.function? func = some f → ∃ f', m'.function? func = some f' ∧
    f'.name = f.name ∧ f'.signature = f.signature ∧ f'.linkage = f.linkage ∧ f.Extends f'
  length : m.functions.length ≤ m'.functions.length
  added : ∀ id f, id ≠ func → m.functions.length ≤ id → m'.function? id = some f →
    f.blocks = [] ∧ f.insts = [] ∧ f.linkage = .external

/-- The function at a position has a given symbol and signature. -/
def Module.Declares (m : Module) (id : FuncId) (name : String) (signature : Signature) : Prop :=
  ∃ f, m.function? id = some f ∧ f.name = name ∧ f.signature = signature

namespace Module

@[simp] theorem update_function?_self (m : Module) (id : FuncId) (g : Function → Function) :
    (m.update id g).function? id = (m.function? id).map fun f => f.withBodyOf (g f) := by
  unfold function? update
  simp

/-- The function that is there after a change that leaves its head alone. -/
theorem update_function?_eq (hf : m.function? id = some f) {g : Function → Function}
    (hg : f.withBodyOf (g f) = g f) : (m.update id g).function? id = some (g f) := by
  rw [update_function?_self, hf, Option.map_some, hg]

theorem update_function?_ne (m : Module) (hne : id' ≠ id) (g : Function → Function) :
    (m.update id g).function? id' = m.function? id' := by
  unfold function? update
  simp [Ne.symm hne]

@[simp] theorem update_length (m : Module) (id : FuncId) (g : Function → Function) :
    (m.update id g).functions.length = m.functions.length := by
  simp [update]

theorem function?_lt (h : m.function? id = some f) :
    id < m.functions.length := (List.getElem?_eq_some_iff.1 h).1

theorem add_function?_of_lt (h : id < m.functions.length) (name : String) (signature : Signature)
    (linkage : Linkage) : (m.add name signature linkage).function? id = m.function? id :=
  List.getElem?_append_left h

@[simp] theorem add_function?_new (m : Module) (name : String) (signature : Signature)
    (linkage : Linkage) : (m.add name signature linkage).function? m.functions.length =
      some (.declaration name signature linkage) := by
  show (m.functions ++ [_])[m.functions.length]? = _
  simp

@[simp] theorem add_length (m : Module) (name : String) (signature : Signature)
    (linkage : Linkage) :
    (m.add name signature linkage).functions.length = m.functions.length + 1 := by
  simp [add]

/-- A function that is found after a declaration was there before, or it is
    the one that was declared. -/
theorem add_function?_cases {name : String} {signature : Signature} {linkage : Linkage}
    (h : (m.add name signature linkage).function? id = some f) :
    m.function? id = some f ∨ f = .declaration name signature linkage := by
  by_cases hid : id < m.functions.length
  · rw [add_function?_of_lt hid] at h
    exact .inl h
  · have hlt := function?_lt h
    rw [add_length] at hlt
    obtain rfl : id = m.functions.length :=
      Nat.le_antisymm (Nat.lt_succ_iff.1 hlt) (Nat.not_lt.1 hid)
    rw [add_function?_new] at h
    exact .inr (Option.some.inj h).symm

variable {func : FuncId} {m m' m'' : Module}

theorem Grows.refl (func : FuncId) (m : Module) : m.Grows func m where
  others _ _ _ h := h
  body f h := ⟨f, h, rfl, rfl, rfl, .refl f⟩
  length := Nat.le_refl _
  added _ _ _ hle h := absurd (function?_lt h) (Nat.not_lt.2 hle)

theorem Grows.trans (h₁ : m.Grows func m') (h₂ : m'.Grows func m'') : m.Grows func m'' where
  others id f hne h := h₂.others id f hne (h₁.others id f hne h)
  body f h := by
    obtain ⟨f', hf', hname, hsig, hlink, hext⟩ := h₁.body f h
    obtain ⟨f'', hf'', hname', hsig', hlink', hext'⟩ := h₂.body f' hf'
    exact ⟨f'', hf'', hname'.trans hname, hsig'.trans hsig, hlink'.trans hlink, hext.trans hext'⟩
  length := h₁.length.trans h₂.length
  added id f hne hle h := by
    by_cases hid : id < m'.functions.length
    · have hget : m'.function? id = some m'.functions[id] := List.getElem?_eq_getElem hid
      have hnew := h₁.added id _ hne hle hget
      rw [h₂.others id _ hne hget] at h
      cases h
      exact hnew
    · exact h₂.added id f hne (Nat.not_lt.1 hid) h

theorem Grows.declares (h : m.Grows func m') {name : String} {signature : Signature}
    (hd : m.Declares id name signature) : m'.Declares id name signature := by
  obtain ⟨f, hf, hname, hsig⟩ := hd
  by_cases hne : id = func
  · subst hne
    obtain ⟨f', hf', hname', hsig', -, -⟩ := h.body f hf
    exact ⟨f', hf', hname'.trans hname, hsig'.trans hsig⟩
  · exact ⟨f, h.others id f hne hf, hname, hsig⟩

theorem Grows.update (hf : m.function? func = some f) {g : Function → Function}
    (hext : f.Extends (f.withBodyOf (g f))) : m.Grows func (m.update func g) where
  others id f' hne h := by rw [update_function?_ne m hne]; exact h
  body f' h := by
    rw [hf] at h
    cases h
    exact ⟨f.withBodyOf (g f), by rw [update_function?_self, hf]; rfl, rfl, rfl, rfl, hext⟩
  length := by rw [update_length]
  added id f' hne hle h := by
    rw [update_function?_ne m hne] at h
    exact absurd (function?_lt h) (Nat.not_lt.2 hle)

theorem Grows.add (func : FuncId) (m : Module) (name : String) (signature : Signature) :
    m.Grows func (m.add name signature .external) where
  others id f' _ h := by rw [add_function?_of_lt (function?_lt h)]; exact h
  body f' h := ⟨f', by rw [add_function?_of_lt (function?_lt h)]; exact h, rfl, rfl, rfl, .refl f'⟩
  length := by rw [add_length]; omega
  added id f' _ hle h := by
    rcases add_function?_cases h with h | rfl
    · exact absurd (function?_lt h) (Nat.not_lt.2 hle)
    · exact ⟨rfl, rfl, rfl⟩

end Module

/-! ## Sites -/

/-- A builder that stands in a body. -/
structure Site (func : FuncId) where
  builder : Builder
  block : BlockId
  body : Function
  cursor : builder.cursor = some ⟨func, block⟩
  found : builder.module.function? func = some body
  inside : block < body.blocks.length
  valid : body.Valid

namespace Site

variable {func : FuncId}

/-- The block is not ended. -/
def Open (S : Site func) : Prop := S.body.isTerminated S.block = false

/-- Where the next instruction goes. -/
def point (S : Site func) : Point := ⟨S.block, (S.body.code S.block).length⟩

theorem pos (S : Site func) : 0 < S.body.blocks.length := Nat.lt_of_le_of_lt (Nat.zero_le _) S.inside

theorem lt (S : Site func) : func < S.builder.module.functions.length := Module.function?_lt S.found

/-- Another function body at the same place. -/
def change (S : Site func) (g : Function → Function) (hhead : S.body.withBodyOf (g S.body) = g S.body)
    (hinside : S.block < (g S.body).blocks.length) (hvalid : (g S.body).Valid) : Site func where
  builder := { S.builder with module := S.builder.module.update func g }
  block := S.block
  body := g S.body
  cursor := S.cursor
  found := Module.update_function?_eq S.found hhead
  inside := hinside
  valid := hvalid

/-- An instruction more. -/
def push (S : Site func) (i : Inst) : Site func :=
  S.change (·.pushInst S.block i) rfl (by rw [Function.pushInst_blocks_length]; exact S.inside)
    (Function.pushInst_valid S.valid S.inside i)

/-- A slot more. -/
def slot (S : Site func) (i : Inst) : Site func :=
  S.change (·.insertInst 0 (S.body.leadingAllocas 0) i) rfl
    (by
      show S.block < (S.body.addSlot i).blocks.length
      rw [Function.addSlot_blocks_length]
      exact S.inside)
    (Function.addSlot_valid S.valid S.pos i)

/-- A block more. -/
def addBlock (S : Site func) (label : String) : Site func :=
  S.change (·.addBlock label) rfl
    (by rw [Function.addBlock_blocks_length]; exact Nat.lt_succ_of_lt S.inside)
    (Function.addBlock_valid S.valid label)

/-- At the end of another block. -/
def moveTo (S : Site func) (b : BlockId) (h : b < S.body.blocks.length) : Site func where
  builder := S.builder.moveTo func b
  block := b
  body := S.body
  cursor := rfl
  found := S.found
  inside := h
  valid := S.valid

/-- A runtime function more. -/
def declare (S : Site func) (name : String) (signature : Signature) : Site func where
  builder := { S.builder with module := S.builder.module.add name signature .external }
  block := S.block
  body := S.body
  cursor := S.cursor
  found := by
    show (S.builder.module.add name signature .external).function? func = _
    rw [Module.add_function?_of_lt S.lt, S.found]
  inside := S.inside
  valid := S.valid

end Site

/-! ## Emitted code -/

/-- The instructions whose results code computes. -/
def Code.ids : Code → List InstId
  | line l => l.map Prod.fst
  | seq a b => a.ids ++ b.ids
  | shortcut _ _ r _ result => r.ids ++ [result]
  | ifThen _ t => t.ids
  | ifThenElse _ t e => t.ids ++ e.ids
  | loop h _ b => h.ids ++ b.ids
  | leave _ | ret _ => []

/-- Every instruction of the code has a number from `lo` up to `hi`. -/
def Code.Within (lo hi : Nat) (c : Code) : Prop := lo ≤ hi ∧ ∀ i ∈ c.ids, lo ≤ i ∧ i < hi

namespace Code.Within

variable {lo lo' mid hi hi' : Nat} {a b : Code}

theorem weaken (h : a.Within lo hi) (hlo : lo' ≤ lo) (hhi : hi ≤ hi') : a.Within lo' hi' :=
  ⟨hlo.trans (h.1.trans hhi), fun i hi => ⟨hlo.trans (h.2 i hi).1,
    Nat.lt_of_lt_of_le (h.2 i hi).2 hhi⟩⟩

theorem both (ha : a.Within lo hi) (hb : b.Within lo hi) :
    ∀ i ∈ a.ids ++ b.ids, lo ≤ i ∧ i < hi := by
  intro i hi
  rcases List.mem_append.1 hi with hi | hi
  · exact ha.2 i hi
  · exact hb.2 i hi

theorem seq (ha : a.Within lo mid) (hb : b.Within mid hi) : (Code.seq a b).Within lo hi :=
  ⟨ha.1.trans hb.1, both (ha.weaken (Nat.le_refl _) hb.1) (hb.weaken ha.1 (Nat.le_refl _))⟩

theorem nil (lo : Nat) : (Code.line []).Within lo lo := ⟨Nat.le_refl _, fun i hi => by cases hi⟩

/-- Code that ends a block has no number of its own. -/
theorem seq_end (ha : a.Within lo hi) (hb : b.ids = []) : (Code.seq a b).Within lo hi :=
  ⟨ha.1, fun i hi => ha.2 i (by simpa [Code.ids, hb] using hi)⟩

end Code.Within

/-- Code was emitted between two sites, inside a loop with the given targets. -/
structure Emitted {func : FuncId} (t : Option Targets) (c : Code) (S S' : Site func) : Prop where
  start : S.Open
  ends : S'.body.isTerminated S'.block = c.ends
  grows : S.builder.module.Grows func S'.builder.module
  edits : Edits S.body.blocks.length S.block t S.body S'.body
  home : S'.block = S.block ∨ S.body.blocks.length ≤ S'.block
  within : c.Within S.body.insts.length S'.body.insts.length
  lies : ∀ F, S'.body.Extends F → c.lies F t S.point S'.point

namespace Emitted

variable {func : FuncId} {t : Option Targets} {S S' S'' : Site func} {a b c : Code}

theorem extend (h : Emitted t c S S') : S.body.Extends S'.body := h.edits.extend S.valid S.pos

theorem seq (h₁ : Emitted t a S S') (h₂ : Emitted t b S' S'') : Emitted t (.seq a b) S S'' where
  start := h₁.start
  ends := by
    have hopen : a.ends = false := by rw [← h₁.ends]; exact h₂.start
    rw [h₂.ends, Code.ends, hopen, Bool.false_or]
  grows := h₁.grows.trans h₂.grows
  edits := h₁.edits.trans (h₂.edits.widen h₁.edits.blocks_le h₁.home fun s hs => .inr hs)
  home := by
    rcases h₂.home with h | h
    · rw [h]; exact h₁.home
    · exact .inr (h₁.edits.blocks_le.trans h)
  within := by
    refine ⟨h₁.within.1.trans h₂.within.1, fun i hi => ?_⟩
    rcases List.mem_append.1 hi with hi | hi
    · exact ⟨(h₁.within.2 i hi).1, Nat.lt_of_lt_of_le (h₁.within.2 i hi).2 h₂.within.1⟩
    · exact ⟨h₁.within.1.trans (h₂.within.2 i hi).1, (h₂.within.2 i hi).2⟩
  lies F hF := ⟨S'.point, h₁.lies F (h₂.extend.trans hF), h₂.lies F hF⟩

end Emitted

theorem Code.liesLine_append (l l' : List (InstId × Inst)) (p : Point) :
    liesLine f (l ++ l') p ↔ liesLine f l p ∧ liesLine f l' (p.plus l.length) := by
  induction l generalizing p with
  | nil => simp [liesLine, Point.plus]
  | cons x rest ih =>
    have hp : (p.plus 1).plus rest.length = p.plus (x :: rest).length := by
      simp [Point.plus, Nat.add_comm, Nat.add_left_comm]
    rw [List.cons_append, liesLine, liesLine, ih, hp]
    tauto

namespace Emitted

variable {func : FuncId} {t : Option Targets} {S S' S'' : Site func}
  {l l' : List (InstId × Inst)}

theorem append (h₁ : Emitted t (.line l) S S') (h₂ : Emitted t (.line l') S' S'') :
    Emitted t (.line (l ++ l')) S S'' := by
  have hs := h₁.seq h₂
  refine { hs with ends := ?_, within := ?_, lies := ?_ }
  · rw [hs.ends]; rfl
  · refine ⟨hs.within.1, fun i hi => hs.within.2 i ?_⟩
    simpa [Code.ids] using hi
  · intro F hF
    obtain ⟨m, ⟨hl, rfl⟩, hl', hq⟩ := hs.lies F hF
    refine ⟨(Code.liesLine_append l l' _).2 ⟨hl, hl'⟩, ?_⟩
    rw [hq]
    simp [Point.plus, Nat.add_assoc]

/-- Lines behind code are one line. -/
theorem regroup {a : Code} (h : Emitted t (.seq (.seq a (.line l)) (.line l')) S S') :
    Emitted t (.seq a (.line (l ++ l'))) S S' := by
  refine { h with ends := ?_, within := ?_, lies := ?_ }
  · rw [h.ends]
    simp [Code.ends]
  · refine ⟨h.within.1, fun i hi => h.within.2 i ?_⟩
    simpa [Code.ids] using hi
  · intro F hF
    obtain ⟨m, ⟨m', ha, hl, rfl⟩, hl', hq⟩ := h.lies F hF
    refine ⟨m', ha, (Code.liesLine_append l l' _).2 ⟨hl, hl'⟩, ?_⟩
    rw [hq]
    simp [Point.plus, Nat.add_assoc]

/-- An action that emits no code. -/
theorem silent {t : Option Targets} {S S' : Site func} (hopen : S.Open)
    (hblock : S'.block = S.block) (hcode : S'.body.code S.block = S.body.code S.block)
    (hended : S'.body.isTerminated S.block = S.body.isTerminated S.block)
    (hgrows : S.builder.module.Grows func S'.builder.module)
    (hedits : Edits S.body.blocks.length S.block t S.body S'.body)
    (hinsts : S.body.insts.length ≤ S'.body.insts.length) : Emitted t (.line []) S S' where
  start := hopen
  ends := by rw [hblock, hended]; exact hopen
  grows := hgrows
  edits := hedits
  home := .inl hblock
  within := ⟨hinsts, fun i hi => by cases hi⟩
  -- Nothing stands in the line, so it ends where it starts.
  lies F hF := by
    refine ⟨trivial, ?_⟩
    show S'.point = S.point
    unfold Site.point
    rw [hblock, hcode]

theorem nil (t : Option Targets) (S : Site func) (hopen : S.Open) : Emitted t (.line []) S S :=
  silent hopen rfl rfl rfl (.refl func _) .refl (Nat.le_refl _)

theorem declare (t : Option Targets) (S : Site func) (hopen : S.Open) (name : String)
    (signature : Signature) : Emitted t (.line []) S (S.declare name signature) :=
  silent hopen rfl rfl rfl (.add func _ name signature) .refl (Nat.le_refl _)

theorem slot (t : Option Targets) (S : Site func) (hopen : S.Open) (ty : Ty) (size : UInt32)
    (name : String) :
    Emitted t (.line []) S (S.slot ⟨.alloca ty size, .ptr ty, some name⟩) := by
  have hext : S.body.Extends (S.body.addSlot ⟨.alloca ty size, .ptr ty, some name⟩) :=
    Function.addSlot_extends S.valid S.pos rfl
  refine silent hopen rfl ?_ (Function.addSlot_isTerminated S.valid S.pos rfl _)
    (.update S.found hext) (.single .slot) ?_
  · show (S.body.addSlot _).code S.block = _
    by_cases h0 : S.block = 0
    · rw [h0]
      exact Function.addSlot_code_entry S.valid S.pos rfl
    · exact Function.addSlot_code_ne S.valid h0 _
  · show S.body.insts.length ≤ (S.body.addSlot _).insts.length
    rw [Function.addSlot_insts, List.length_append]
    omega

/-- An instruction that neither branches nor merges nor reserves a slot. -/
theorem push (t : Option Targets) (S : Site func) (hopen : S.Open) {i : Inst}
    (hi : i.op.isPlain = true) (hslot : i.op.isAlloca = false) :
    Emitted t (.line [(S.body.insts.length, i)]) S (S.push i) where
  start := hopen
  ends := by
    show (S.body.pushInst S.block i).isTerminated S.block = false
    rw [Function.pushInst_isTerminated_self S.inside]
    cases hop : i.op <;> simp_all [Op.isPlain, Op.isTerminator]
  grows := .update S.found (Function.pushInst_extends S.valid S.inside hslot)
  edits := .single (.plain S.inside hopen (.inl rfl) hi hslot)
  home := .inl rfl
  within := by
    have hlen : (S.push i).body.insts.length = S.body.insts.length + 1 := by
      show (S.body.pushInst S.block i).insts.length = _
      simp
    rw [hlen]
    refine ⟨Nat.le_succ _, fun j hj => ?_⟩
    simp only [Code.ids, List.map_cons, List.map_nil, List.mem_singleton] at hj
    subst hj
    exact ⟨Nat.le_refl _, Nat.lt_succ_self _⟩
  lies F hF := by
    -- The instruction stands where the cursor was, and the cursor stands one further.
    refine ⟨⟨hF.at? (Function.pushInst_at? S.valid S.inside hslot), hi, trivial⟩, ?_⟩
    show Site.point _ = _
    unfold Site.point
    show (⟨S.block, ((S.body.pushInst S.block i).code S.block).length⟩ : Point) = _
    rw [Function.pushInst_code_self S.valid S.inside hslot]
    simp [Point.plus]

end Emitted

end Shading.IR
