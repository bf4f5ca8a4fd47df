import Shading.Proofs.NaturalLayout
import Shading.Proofs.Operations

/-! # Lanes of vectors

    A vector is assembled from any number of floats, and its instruction
    keeps all of them.  The type of the result has one byte for their number,
    and every later check looks at the type only.  So the type tells how many
    lanes there are, and how much room they take, exactly if they are fewer
    than 256 (`vector_type_records_lanes_iff`); from then on the number starts
    over at zero (`overfull`). -/

namespace Shading.IR

/-! ## Widths -/

/-- A type is that of a vector with so many lanes, of four bytes each. -/
structure Ty.Records (ty : Ty) (count : Nat) : Prop where
  width : ∃ n, ty = .vector n ∧ n.toNat = count
  room : ∃ size, ty.size? = some size ∧ size.toNat = 4 * count

namespace Ty

theorem records_vector (n : UInt8) : (vector n).Records n.toNat where
  width := ⟨n, rfl, rfl⟩
  room := ⟨4 * n.toUInt32, by rw [size?], toNat_four_mul n⟩

theorem Records.unique {ty : Ty} {m n : Nat} (hm : ty.Records m) (hn : ty.Records n) : m = n := by
  obtain ⟨k, rfl, rfl⟩ := hm.width
  obtain ⟨k', hk, rfl⟩ := hn.width
  rw [Ty.vector.inj hk]

/-- A count is kept up to multiples of 256. -/
theorem records_ofNat (n : Nat) : (vector (UInt8.ofNat n)).Records (n % 256) := by
  rw [← show (UInt8.ofNat n).toNat = n % 256 from UInt8.toNat_ofNat']
  exact records_vector _

theorem records_ofNat_iff (n : Nat) : (vector (UInt8.ofNat n)).Records n ↔ n < 256 := by
  constructor
  · intro h
    rw [← (records_ofNat n).unique h]
    exact Nat.mod_lt n (by decide)
  · intro h
    have hmod := records_ofNat n
    rwa [Nat.mod_eq_of_lt h] at hmod

end Ty

/-- The instruction that assembles a vector. -/
def Inst.ofLanes (lanes : List Value) : Inst :=
  ⟨.vector lanes, .vector (UInt8.ofNat lanes.length), none⟩

/-! ## Accepted operands -/

namespace Build

variable {b t : Builder} {α : Type}

theorem current_run_eq_ok {f : Function} : current.run b = (.ok f, t) ↔ b.Here f ∧ t = b := by
  unfold current
  simp only [Act.run_bind_eq_ok, cursor_run_eq_ok, function_run_eq_ok, Builder.Here]
  constructor
  · rintro ⟨c, s, ⟨hc, rfl⟩, hf, rfl⟩
    exact ⟨⟨c, hc, hf⟩, rfl⟩
  · rintro ⟨⟨c, hc, hf⟩, rfl⟩
    exact ⟨c, t, ⟨hc, rfl⟩, hf, rfl⟩

/-- A check passes exactly if the operand has the type. -/
theorem expect_run_eq_ok {v : Value} {ty : Ty} {context : String} {u : Unit} :
    (expect v ty context).run b = (.ok u, t) ↔ (∃ f, b.Here f ∧ f.valueType v = .ok ty) ∧ t = b := by
  unfold expect valueType
  simp only [Act.run_bind_eq_ok, current_run_eq_ok, Act.run_ofExcept_eq_ok, Act.run_refuseIf_eq_ok]
  constructor
  · rintro ⟨found, s, ⟨f, s', ⟨hf, rfl⟩, hv, rfl⟩, hty, rfl⟩
    exact ⟨⟨f, hf, not_not.1 hty ▸ hv⟩, rfl⟩
  · rintro ⟨⟨f, hf, hv⟩, rfl⟩
    exact ⟨ty, t, ⟨f, t, ⟨hf, rfl⟩, hv, rfl⟩, not_not.2 rfl, rfl⟩

theorem forM_run_eq_ok {x : α → Build PUnit} {P : α → Prop}
    (hx : ∀ a t, (x a).run b = (.ok (), t) ↔ P a ∧ t = b) (l : List α) {u : PUnit} :
    (l.forM x).run b = (.ok u, t) ↔ (∀ a ∈ l, P a) ∧ t = b := by
  induction l with
  | nil => simp [eq_comm]
  | cons a l ih =>
    show (x a >>= fun _ => l.forM x).run b = (.ok u, t) ↔ _
    rw [Act.run_bind_eq_ok, List.forall_mem_cons]
    constructor
    · rintro ⟨_, s, hfirst, hrest⟩
      obtain ⟨ha, rfl⟩ := (hx a s).1 hfirst
      obtain ⟨hl, rfl⟩ := ih.1 hrest
      exact ⟨⟨ha, hl⟩, rfl⟩
    · rintro ⟨⟨ha, hl⟩, rfl⟩
      exact ⟨(), t, (hx a t).2 ⟨ha, rfl⟩, ih.2 ⟨hl, rfl⟩⟩

/-- Any number of floats is accepted, and nothing else. -/
theorem vector_run_eq_ok {lanes : List Value} {v : Value} :
    (vector lanes).run b = (.ok v, t) ↔ ∃ c f, b.OpenAt c f ∧
      (∀ x ∈ lanes, f.valueType x = .ok .f32) ∧ v = .inst f.insts.length ∧
      t = { b with module := b.module.update c.func (·.pushInst c.block (.ofLanes lanes)) } := by
  unfold vector emitValue
  simp only [Act.run_bind_eq_ok, forM_run_eq_ok fun _ _ => expect_run_eq_ok, emit_run_eq_ok,
    Act.run_pure_eq_ok]
  constructor
  · rintro ⟨_, s, ⟨hlanes, rfl⟩, id, s', ⟨c, f, hb, rfl, rfl⟩, rfl, rfl⟩
    refine ⟨c, f, hb, fun x hx => ?_, rfl, rfl⟩
    -- Each lane was checked in the function of the cursor, which is `f`.
    obtain ⟨g, hg, hty⟩ := hlanes x hx
    rwa [hg.unique ⟨c, hb.cursor, hb.found⟩] at hty
  · rintro ⟨c, f, hb, hlanes, rfl, rfl⟩
    exact ⟨(), b, ⟨fun x hx => ⟨f, ⟨c, hb.cursor, hb.found⟩, hlanes x hx⟩, rfl⟩, _, _,
      ⟨c, f, hb, rfl, rfl⟩, rfl, rfl⟩

end Build

/-! ## Recorded widths -/

namespace Builder

variable {b : Builder} {id : FuncId}

/-- An instruction that was added stays, and so does the type of its result,
    until the body is dropped. -/
theorem Has.performAll_inst {k : InstId} {i : Inst} (h : b.Has id fun f => f.inst? k = some i)
    {os : List Operation} (hos : .clearBody id ∉ os) :
    (b.performAll os).Has id fun f => f.inst? k = some i ∧ f.valueType (.inst k) = .ok i.ty := by
  obtain ⟨f, hf, hk⟩ := h.performAll hos (fun _ _ hk => hk)
    (fun f block j hk => (Function.pushInst_inst?_of_lt (Function.inst?_lt hk) block j).trans hk)
    fun f j hk => (Function.addSlot_inst?_of_lt (Function.inst?_lt hk) j).trans hk
  exact ⟨f, hf, hk, Host.hasType_inst (H := ⟨b.module, f⟩) hk⟩

end Builder

/-- At an open place, lanes are accepted exactly if all of them are floats,
    however many there are.  The instruction keeps the lanes, and until the body
    is dropped every check finds the type that it was given.  This type records
    the number of lanes modulo 256, which is their number exactly if there are
    fewer than 256. -/
theorem vector_type_records_lanes_iff (b : Builder) (lanes : List Value) :
    ((∃ v t, (Build.vector lanes).run b = (.ok v, t)) ↔
      ∃ c f, b.OpenAt c f ∧ ∀ x ∈ lanes, f.valueType x = .ok .f32) ∧
    ∀ v t, (Build.vector lanes).run b = (.ok v, t) →
      ∃ c f ty, b.OpenAt c f ∧ v = .inst f.insts.length ∧
        (∀ os, .clearBody c.func ∉ os → (t.performAll os).Has c.func fun g =>
          g.inst? f.insts.length = some ⟨.vector lanes, ty, none⟩ ∧ g.valueType v = .ok ty) ∧
        ty.Records (lanes.length % 256) ∧ (ty.Records lanes.length ↔ lanes.length < 256) := by
  constructor
  · constructor
    · rintro ⟨v, t, hrun⟩
      obtain ⟨c, f, hb, hlanes, -, -⟩ := Build.vector_run_eq_ok.1 hrun
      exact ⟨c, f, hb, hlanes⟩
    · rintro ⟨c, f, hb, hlanes⟩
      exact ⟨_, _, Build.vector_run_eq_ok.2 ⟨c, f, hb, hlanes, rfl, rfl⟩⟩
  · intro v t hrun
    obtain ⟨c, f, hb, -, rfl, rfl⟩ := Build.vector_run_eq_ok.1 hrun
    refine ⟨c, f, _, hb, rfl, fun os hos => ?_, Ty.records_ofNat _, Ty.records_ofNat_iff _⟩
    -- The instruction is there from now on, whatever else is added to the function.
    have hnew : (b.module.update c.func (·.pushInst c.block (.ofLanes lanes))).function? c.func =
        some (f.pushInst c.block (.ofLanes lanes)) := Module.update_function?_eq hb.found rfl
    exact Builder.Has.performAll_inst ⟨_, hnew, Function.pushInst_inst?_new ..⟩ hos

/-- A function of a float, at the end of its entry block. -/
def floatEntry : Builder :=
  (Builder.start (.empty "m")).performAll
    [.declare "f" ⟨[.f32], .f32⟩ .internal, .appendBlock 0 "entry", .moveTo 0 0]

/-- As many lanes as a type can record. -/
def brimful : List Value := List.replicate 255 (.arg 0)

/-- Slots, blocks and other functions do not change what is recorded. -/
theorem brimful_recorded : ∃ t ty,
    (Build.vector brimful).run floatEntry = (.ok (.inst 0), t) ∧
      ((t.performAll [.alloca .f32 "x", .appendBlock 0 "exit", .br 1, .clearBody 1]).Has 0 fun g =>
        g.inst? 0 = some ⟨.vector brimful, ty, none⟩ ∧ g.valueType (.inst 0) = .ok ty) ∧
      ty.Records 255 := by
  have hrun := Act.run_eq_of_fst (x := Build.vector brimful) (r := .ok (.inst 0))
    (s := floatEntry) (by decide +kernel)
  have hcursor : floatEntry.cursor = some ⟨0, 0⟩ := by decide +kernel
  obtain ⟨c, f, ty, hopen, hv, hkept, -, hexact⟩ :=
    (vector_type_records_lanes_iff floatEntry brimful).2 _ _ hrun
  obtain rfl : c = ⟨0, 0⟩ := Option.some.inj (hopen.cursor.symm.trans hcursor)
  rw [← Value.inst.inj hv] at hkept
  rw [show brimful.length = 255 from List.length_replicate] at hexact
  exact ⟨_, ty, hrun, hkept _ (by decide), hexact.2 (by decide)⟩

/-- One lane more. -/
def overfull : List Value := List.replicate 256 (.arg 0)

/-- All 256 lanes are accepted and kept, and the type of the result is that of a
    vector without lanes. -/
theorem overfull_recorded_as_empty :
    ((Build.vector overfull).run floatEntry).1 = .ok (.inst 0) ∧
      (((Build.vector overfull).run floatEntry).2.module.function? 0).bind (·.inst? 0) =
        some ⟨.vector overfull, .vector 0, none⟩ ∧
      (Ty.vector 0).size? = some 0 ∧ ¬ (Ty.vector 0).Records overfull.length := by
  refine ⟨by decide +kernel, by decide +kernel, by decide +kernel, ?_⟩
  rw [show overfull.length = 256 from List.length_replicate]
  exact (Ty.records_ofNat_iff 256).not.2 (by decide)

end Shading.IR
