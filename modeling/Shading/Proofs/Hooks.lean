import Shading.Lower.Lifetime
import Shading.Proofs.Building
import Shading.Proofs.TypeIndexes

/-! # The code of types

    What construction, default values, copies, destruction and operators
    emit, over the built-in types.  Of these only distributions call the
    runtime; everything else computes from its operands. -/

namespace Shading

open IR

variable {l : Lines} {H : Host} {ty : TypeId} {v v' : Value} {α β ε : Type}

/-! ## The built-in types -/

/-- In a list without repeated keys, a key finds its own element. -/
theorem find?_key [DecidableEq β] {key : α → β} {l : List α} (h : (l.map key).Nodup) {a : α}
    (ha : a ∈ l) : l.find? (fun x => key x == key a) = some a := by
  induction l with
  | nil => cases ha
  | cons x rest ih =>
    rw [List.map_cons, List.nodup_cons] at h
    rcases List.mem_cons.1 ha with rfl | ha
    · rw [List.find?_cons_of_pos (by simp)]
    · have hne : key x ≠ key a := fun heq => h.1 (heq ▸ List.mem_map_of_mem ha)
      rw [List.find?_cons_of_neg (by simpa using hne)]
      exact ih h.2 ha

@[simp] theorem Builtin.descriptor_id (b : Builtin) : b.descriptor.id = b.id := by
  simp only [Builtin.descriptor]

namespace TypeTable

theorem builtins_get? (b : Builtin) : builtins.get? b.id = some b.descriptor :=
  Holds.builtins.get?_eq_some_iff.2 ⟨List.mem_map_of_mem b.mem_all, rfl⟩

/-- A type is found by its name. -/
theorem builtins_resolveName (b : Builtin) (span : Span) :
    builtins.resolveName b.name span = .ok b.id := by
  have hlookup : builtins.lookup? b.name = some b.id :=
    Holds.builtins.lookup?_eq_some_iff.2 ⟨_, builtins_get? b, rfl⟩
  unfold resolveName
  rw [hlookup]

theorem builtins_get?_eq_some {id : TypeId} {d : Descriptor} :
    builtins.get? id = some d ↔ ∃ b : Builtin, id = b.id ∧ d = b.descriptor := by
  constructor
  · intro h
    obtain ⟨hmem, rfl⟩ := Holds.builtins.get?_eq_some_iff.1 h
    obtain ⟨b, -, rfl⟩ := List.mem_map.1 hmem
    exact ⟨b, rfl, rfl⟩
  · rintro ⟨b, rfl, rfl⟩
    exact builtins_get? b

theorem builtins_resolve_eq_ok {id : TypeId} {d : Descriptor} :
    builtins.resolve id = .ok d ↔ ∃ b : Builtin, id = b.id ∧ d = b.descriptor := by
  rw [← builtins_get?_eq_some]
  unfold resolve
  cases builtins.get? id <;> simp

theorem builtins_representation (b : Builtin) {ty : Ty} :
    builtins.representation b.id = .ok ty ↔ b.repr = some ty := by
  unfold representation
  rw [builtins_resolve_eq_ok.2 ⟨b, rfl, rfl⟩]
  simp only [Bind.bind, Except.bind, show b.descriptor.repr = b.repr from rfl]
  cases b.repr with
  | none =>
    constructor
    · intro h
      cases h
    · intro h
      cases h
  | some t =>
    constructor
    · intro h
      cases h
      rfl
    · intro h
      cases h
      rfl

end TypeTable

/-- Is it one of the two types whose values are bits and words? -/
def TypeId.IsIntegral (t : TypeId) : Prop := t = Builtin.int.id ∨ t = Builtin.bool.id

@[simp] theorem Builtin.id_eq_iff {a b : Builtin} : a.id = b.id ↔ a = b :=
  ⟨id_injective, fun h => h ▸ rfl⟩

theorem Builtin.isNumeric_iff (b : Builtin) : b.id.isNumeric = true ↔ b = .int ∨ b = .float := by
  simp [TypeId.isNumeric]

theorem Builtin.isIntegral_iff (b : Builtin) : b.id.IsIntegral ↔ b = .int ∨ b = .bool := by
  simp [TypeId.IsIntegral]

/-! ## Computations -/

/-- Does the instruction only compute from its operands? -/
def IR.Op.isPure : Op → Bool
  | .arith .. | .cmp .. | .neg _ | .not _ | .cast .. | .vector _ | .splat .. => true
  | _ => false

/-- Instructions that compute some operands from given ones. -/
inductive Computes : (given : List Value) → Lines → (out : List Value) → Prop
  | nil {given out : List Value} (h : ∀ v ∈ out, v ∈ given) : Computes given [] out
  | cons {given out : List Value} {id : InstId} {i : Inst} {l : Lines} (hpure : i.op.isPure = true)
    (hops : ∀ v ∈ i.op.operands, v ∈ given) (rest : Computes (.inst id :: given) l out) :
    Computes given ((id, i) :: l) out

namespace Computes

variable {given given' out out' : List Value} {l l' : Lines}

theorem mono (h : Computes given l out) (hsub : ∀ v ∈ given, v ∈ given')
    (hout : ∀ v ∈ out', v ∈ out) : Computes given' l out' := by
  induction h generalizing given' with
  | nil h => exact .nil fun v hv => hsub v (h v (hout v hv))
  | cons hpure hops rest ih =>
    refine .cons hpure (fun v hv => hsub v (hops v hv)) (ih ?_ hout)
    intro v hv
    rcases List.mem_cons.1 hv with rfl | hv
    · exact List.mem_cons_self ..
    · exact List.mem_cons_of_mem _ (hsub v hv)

/-- Computations from what others have computed. -/
theorem append (h : Computes given l out) (h' : Computes (out ++ given) l' out') :
    Computes given (l ++ l') out' := by
  induction h with
  | nil h =>
    refine h'.mono (fun v hv => ?_) fun _ hv => hv
    rcases List.mem_append.1 hv with hv | hv
    · exact h v hv
    · exact hv
  | cons hpure hops rest ih =>
    refine .cons hpure hops (ih (h'.mono (fun v hv => ?_) fun _ hv => hv))
    rcases List.mem_append.1 hv with hv | hv
    · exact List.mem_append_left _ hv
    · exact List.mem_append_right _ (List.mem_cons_of_mem _ hv)

/-- What is given can also be given out. -/
theorem keep (h : Computes given l out) {kept : List Value} (hk : ∀ v ∈ kept, v ∈ given) :
    Computes given l (kept ++ out) := by
  induction h with
  | nil h =>
    refine .nil fun v hv => ?_
    rcases List.mem_append.1 hv with hv | hv
    · exact hk v hv
    · exact h v hv
  | cons hpure hops rest ih =>
    exact .cons hpure hops (ih fun v hv => List.mem_cons_of_mem _ (hk v hv))

theorem one {op : Op} {ty : Ty} (hpure : op.isPure = true) (hops : ∀ v ∈ op.operands, v ∈ given)
    (h : Build.OneInst H op ty v l) : Computes given l [v] := by
  obtain ⟨id, rfl, rfl, -⟩ := h
  exact .cons hpure hops (.nil fun v hv => by simpa using Or.inl (List.mem_singleton.1 hv))

end Computes

/-! ## Calls of the runtime -/

theorem IR.Module.Declares.unique {m : Module} {id : FuncId} {name name' : String}
    {sig sig' : Signature} (h : m.Declares id name sig) (h' : m.Declares id name' sig') :
    name = name' ∧ sig = sig' := by
  obtain ⟨f, hf, rfl, rfl⟩ := h
  obtain ⟨g, hg, rfl, rfl⟩ := h'
  rw [hf] at hg
  cases hg
  exact ⟨rfl, rfl⟩

/-- A builder's action as part of the emission of code. -/
theorem IR.EmitsLine.lift {x : Build α} {Q : Host → α → Lines → Prop} (h : EmitsLine x Q) :
    EmitsLine (liftM x : Emit α) Q := h.mapError Error.toFault

theorem Emit.callIntrinsic_line (name : String) (params : List Ty) (ret : Ty)
    (args : List Value) :
    EmitsLine (Emit.callIntrinsic name params ret args) fun H v l =>
      Build.OneCall H name ⟨params, ret⟩ args v l :=
  (EmitsLine.after (Build.declare_line name ⟨params, ret⟩).lift fun callee =>
    (Build.call_line callee args).lift).mono fun H v l h => by
      obtain ⟨callee, hdecl, id, name', sig', hdecl', rfl, rfl⟩ := h
      obtain ⟨rfl, rfl⟩ := hdecl.unique hdecl'
      exact ⟨callee, id, hdecl, rfl, rfl⟩

/-! ## Lifetimes -/

/-- A copy: only distributions are copied, by a call. -/
inductive CopyLine (H : Host) (ty : TypeId) (v : Value) : Value → Lines → Prop
  | same (h : ty ≠ Builtin.dfunc.id) : CopyLine H ty v v []
  | copy {v' : Value} {l : Lines} (h : ty = Builtin.dfunc.id)
    (hcall : Build.OneCall H Distribution.copySymbol ⟨[Distribution.ty], Distribution.ty⟩ [v] v' l) :
    CopyLine H ty v v' l

/-- The end of a value: only distributions are destroyed, by a call. -/
inductive DestroyLine (H : Host) (ty : TypeId) (v : Value) : Lines → Prop
  | none (h : ty ≠ Builtin.dfunc.id) : DestroyLine H ty v []
  | destroy {r : Value} {l : Lines} (h : ty = Builtin.dfunc.id)
    (hcall : Build.OneCall H Distribution.destroySymbol ⟨[Distribution.ty], .void⟩ [v] r l) :
    DestroyLine H ty v l

/-- A value that its consumer owns. -/
inductive MaterializeLine (H : Host) (x : ExprValue) : Value → Lines → Prop
  | owned (h : x.owned = true) : MaterializeLine H x x.value []
  | borrowed {v : Value} {l : Lines} (h : x.owned = false) (hcopy : CopyLine H x.ty x.value v l) :
    MaterializeLine H x v l

/-- The end of a value that nobody keeps. -/
inductive ReleaseLine (H : Host) (x : ExprValue) : Lines → Prop
  | kept (h : x.owned = false ∨ x.value = .void) : ReleaseLine H x []
  | released {l : Lines} (h : x.owned = true) (hv : x.value ≠ .void)
    (hdestroy : DestroyLine H x.ty x.value l) : ReleaseLine H x l

/-- The end of what a slot holds. -/
inductive DestroySlotLine (H : Host) (slot : Slot) : Lines → Prop
  | none (h : slot.ty ≠ Builtin.dfunc.id) : DestroySlotLine H slot []
  | destroy {ty : Ty} {v r : Value} {l l' : Lines} (h : slot.ty = Builtin.dfunc.id)
    (hload : Build.OneInst H (.load slot.ptr) ty v l)
    (hcall : Build.OneCall H Distribution.destroySymbol ⟨[Distribution.ty], .void⟩ [v] r l') :
    DestroySlotLine H slot (l ++ l')

/-- Instructions for each element, one after the other. -/
inductive Each {α : Type} (R : α → Lines → Prop) : List α → Lines → Prop
  | nil : Each R [] []
  | cons {a : α} {as : List α} {l l' : Lines} (h : R a l) (rest : Each R as l') :
    Each R (a :: as) (l ++ l')

/-! Values of other types than distributions have no lifetime of their own:
    nothing is emitted when they are copied or come to their end. -/

theorem CopyLine.of_ne (h : CopyLine H ty v v' l) (hty : ty ≠ Builtin.dfunc.id) :
    v' = v ∧ l = [] := by
  cases h with
  | same h => exact ⟨rfl, rfl⟩
  | copy h hcall => exact absurd h hty

theorem DestroyLine.of_ne (h : DestroyLine H ty v l) (hty : ty ≠ Builtin.dfunc.id) : l = [] := by
  cases h with
  | none h => rfl
  | destroy h hcall => exact absurd h hty

theorem MaterializeLine.of_ne {x : ExprValue} (h : MaterializeLine H x v l)
    (hty : x.ty ≠ Builtin.dfunc.id) : v = x.value ∧ l = [] := by
  cases h with
  | owned h => exact ⟨rfl, rfl⟩
  | borrowed h hcopy => exact hcopy.of_ne hty

theorem ReleaseLine.of_ne {x : ExprValue} (h : ReleaseLine H x l) (hty : x.ty ≠ Builtin.dfunc.id) :
    l = [] := by
  cases h with
  | kept h => rfl
  | released h hv hdestroy => exact hdestroy.of_ne hty

theorem DestroySlotLine.of_ne {slot : Slot} (h : DestroySlotLine H slot l)
    (hty : slot.ty ≠ Builtin.dfunc.id) : l = [] := by
  cases h with
  | none h => rfl
  | destroy h hload hcall => exact absurd h hty

theorem Each.eq_nil {R : α → Lines → Prop} {as : List α} (h : Each R as l)
    (hR : ∀ a ∈ as, ∀ l, R a l → l = []) : l = [] := by
  induction h with
  | nil => rfl
  | cons h rest ih =>
    rw [hR _ (List.mem_cons_self ..) _ h, ih fun a ha => hR a (List.mem_cons_of_mem _ ha)]
    rfl

theorem forM_line {x : α → Act Builder ε PUnit} {R : Host → α → Lines → Prop}
    (hx : ∀ a, EmitsLine (x a) fun H _ l => R H a l) (as : List α) :
    EmitsLine (as.forM x) fun H _ l => Each (R H) as l := by
  induction as with
  | nil => exact (EmitsLine.pure _).mono fun H _ l h => by rw [h.2]; exact .nil
  | cons a rest ih =>
    refine (EmitsLine.bind (hx a) fun _ => ih).mono fun H _ l h => ?_
    obtain ⟨_, l₁, l₂, rfl, h₁, h₂⟩ := h
    exact .cons h₁ h₂

/-- What happens with a registered type happens with a built-in one. -/
theorem resolve_line {k : Descriptor → Emit β} {R : Host → β → Lines → Prop}
    (hk : ∀ b : Builtin, ty = b.id → EmitsLine (k b.descriptor) R) :
    EmitsLine (Act.ofExcept (TypeTable.builtins.resolve ty) >>= k) R := by
  intro func t S hopen a w hrun
  obtain ⟨d, w₁, hd, hrun⟩ := Act.run_bind_eq_ok.1 hrun
  obtain ⟨hresolve, rfl⟩ := Act.run_ofExcept_eq_ok.1 hd
  obtain ⟨b, hid, rfl⟩ := TypeTable.builtins_resolve_eq_ok.1 hresolve
  exact hk b hid func t S hopen a w hrun

/-- Of the built-in types only distributions are copied and destroyed. -/
theorem Builtin.caps_copy (b : Builtin) : b.caps.copy = true ↔ b = .dfunc := by
  cases b <;> simp [caps, Capabilities.none, Capabilities.lifecycle]

theorem Builtin.caps_destroy (b : Builtin) : b.caps.destroy = true ↔ b = .dfunc := by
  cases b <;> simp [caps, Capabilities.none, Capabilities.lifecycle]

namespace Lifetime

theorem copyValue_line (ty : TypeId) (v : Value) :
    EmitsLine (copyValue .builtins ty v) fun H v' l => CopyLine H ty v v' l := by
  refine resolve_line fun b hid => ?_
  show EmitsLine (if b.caps.copy then b.descriptor.copy v else Pure.pure v) _
  by_cases hb : b = .dfunc
  · rw [if_pos (b.caps_copy.2 hb)]
    subst hb
    exact (Emit.callIntrinsic_line _ _ _ _).mono fun H v' l h => .copy hid h
  · rw [if_neg (fun h => hb (b.caps_copy.1 h))]
    refine (EmitsLine.pure v).mono fun H v' l h => ?_
    obtain ⟨rfl, rfl⟩ := h
    exact .same (by rw [hid, ne_eq, Builtin.id_eq_iff]; exact hb)

theorem destroyValue_line (ty : TypeId) (v : Value) :
    EmitsLine (destroyValue .builtins ty v) fun H _ l => DestroyLine H ty v l := by
  refine resolve_line fun b hid => ?_
  show EmitsLine (if b.caps.destroy then b.descriptor.destroy v else Pure.pure ()) _
  by_cases hb : b = .dfunc
  · rw [if_pos (b.caps_destroy.2 hb)]
    subst hb
    refine (EmitsLine.answer (Emit.callIntrinsic_line _ _ _ _) fun _ => ()).mono fun H _ l h => ?_
    obtain ⟨r, -, hcall⟩ := h
    exact .destroy hid hcall
  · rw [if_neg (fun h => hb (b.caps_destroy.1 h))]
    refine (EmitsLine.pure ()).mono fun H _ l h => ?_
    rw [h.2]
    exact .none (by rw [hid, ne_eq, Builtin.id_eq_iff]; exact hb)

theorem materialize_line (x : ExprValue) :
    EmitsLine (materialize .builtins x) fun H v l => MaterializeLine H x v l := by
  unfold materialize
  cases hx : x.owned with
  | true =>
    refine (EmitsLine.pure x.value).mono fun H v l h => ?_
    obtain ⟨rfl, rfl⟩ := h
    exact .owned hx
  | false => exact (copyValue_line x.ty x.value).mono fun H v l h => .borrowed hx h

theorem release_line (x : ExprValue) :
    EmitsLine (release .builtins x) fun H _ l => ReleaseLine H x l := by
  unfold release
  by_cases hx : (x.owned && !x.value.isVoid) = true
  · rw [if_pos hx]
    rw [Bool.and_eq_true, Bool.not_eq_true'] at hx
    refine (destroyValue_line x.ty x.value).mono fun H _ l h => .released hx.1 ?_ h
    intro hvoid
    rw [hvoid] at hx
    cases hx.2
  · rw [if_neg hx]
    refine (EmitsLine.pure ()).mono fun H _ l h => ?_
    rw [h.2]
    refine .kept ?_
    cases hv : x.value <;> simp_all [Value.isVoid]

theorem needsDestroy_eq_ok {needed : Bool} (h : needsDestroy .builtins ty = .ok needed) :
    needed = true ↔ ty = Builtin.dfunc.id := by
  unfold needsDestroy at h
  cases hr : TypeTable.builtins.resolve ty with
  | error e =>
    rw [hr] at h
    cases h
  | ok d =>
    obtain ⟨b, rfl, rfl⟩ := TypeTable.builtins_resolve_eq_ok.1 hr
    rw [hr] at h
    have hneeded : b.caps.destroy = needed := by
      injection h
    rw [← hneeded, b.caps_destroy, Builtin.id_eq_iff]

theorem destroySlot_line (slot : Slot) :
    EmitsLine (destroySlot .builtins slot) fun H _ l => DestroySlotLine H slot l := by
  refine (EmitsLine.after (EmitsLine.ofExcept (needsDestroy .builtins slot.ty))
    (R := fun needed H _ l => (needed = true ↔ slot.ty = Builtin.dfunc.id) →
      DestroySlotLine H slot l) fun needed => ?_).mono fun H _ l h => ?_
  -- What has to be destroyed is loaded first; anything else is left alone.
  · cases needed with
    | true =>
      refine (EmitsLine.bind (Build.load_line slot.ptr).lift fun v =>
        destroyValue_line slot.ty v).mono fun H _ l h hneeded => ?_
      obtain ⟨v, l₁, l₂, rfl, ⟨ty, -, hload⟩, hdestroy⟩ := h
      cases hdestroy with
      | none h => exact absurd (hneeded.1 rfl) h
      | destroy h hcall => exact .destroy h hload hcall
    | false =>
      refine (EmitsLine.pure ()).mono fun H _ l h hneeded => ?_
      rw [h.2]
      exact .none fun heq => Bool.noConfusion (hneeded.2 heq)
  · obtain ⟨needed, hneeded, h⟩ := h
    exact h (needsDestroy_eq_ok hneeded)

theorem destroySlots_line (slots : List Slot) :
    EmitsLine (destroySlots .builtins slots) fun H _ l => Each (DestroySlotLine H) slots.reverse l :=
  forM_line destroySlot_line slots.reverse

end Lifetime

end Shading
