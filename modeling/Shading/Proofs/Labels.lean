import Mathlib.Data.List.Nodup
import Shading.Proofs.Edits

/-! # Labels of blocks

    A new block is labelled with a base and the number of labels that use the
    base already.  The bases that lowering uses do not get into each other's
    way, so no label is given twice (`Edits.labels_nodup`). -/

namespace Shading.IR

namespace Build

/-- The label of the block with the given number among those of its base. -/
def numbered (base : String) : Nat → String
  | 0 => base
  | n + 1 => base ++ "." ++ (n + 1).repr

theorem newLabel_eq (blocks : List Block) (base : String) :
    newLabel blocks base = numbered base (blocks.countP fun b => labelUses base b.label) := by
  unfold newLabel
  cases blocks.countP fun b => labelUses base b.label <;> rfl

theorem numbered_succ_toList (base : String) (n : Nat) :
    (numbered base (n + 1)).toList = (base ++ ".").toList ++ (n + 1).repr.toList := by
  simp [numbered]

/-- No base of a label starts another one. -/
theorem eq_of_dotted {base base' : String} (hb : base ∈ labels) (hb' : base' ∈ labels)
    (h : (base ++ ".").toList <+: (base' ++ ".").toList) : base = base' := by
  have hall : ∀ a ∈ labels, ∀ b ∈ labels,
      (a ++ ".").toList.isPrefixOf (b ++ ".").toList = true → a = b := by decide +kernel
  exact hall base hb base' hb' (List.isPrefixOf_iff_prefix.2 h)

theorem labelUses_iff {base label : String} :
    labelUses base label = true ↔ label = base ∨ (base ++ ".").toList <+: label.toList := by
  simp [labelUses, List.isPrefixOf_iff_prefix]

theorem prefix_dotted (base : String) : base.toList <+: (base ++ ".").toList := by
  rw [String.toList_append]
  exact List.prefix_append _ _

theorem dotted_prefix_numbered (base : String) (n : Nat) :
    (base ++ ".").toList <+: (numbered base (n + 1)).toList := by
  rw [numbered_succ_toList]
  exact List.prefix_append _ _

theorem labelUses_numbered_self (base : String) (n : Nat) :
    labelUses base (numbered base n) = true := by
  rw [labelUses_iff]
  cases n with
  | zero => exact .inl rfl
  | succ n => exact .inr (dotted_prefix_numbered base n)

/-- A label uses the base it was made from and no other one. -/
theorem labelUses_numbered {base base' : String} (hb : base ∈ labels) (hb' : base' ∈ labels)
    (n : Nat) : labelUses base (numbered base' n) = true ↔ base' = base := by
  constructor
  · intro h
    rw [labelUses_iff] at h
    cases n with
    | zero =>
      rcases h with h | h
      · exact h
      · exact (eq_of_dotted hb hb' (h.trans (prefix_dotted base'))).symm
    | succ n =>
      have hdotted := dotted_prefix_numbered base' n
      rcases h with h | h
      · rw [h] at hdotted
        exact eq_of_dotted hb' hb (hdotted.trans (prefix_dotted base))
      · -- Of two prefixes of one label, one starts the other.
        rcases List.prefix_or_prefix_of_prefix h hdotted with h | h
        · exact (eq_of_dotted hb hb' h).symm
        · exact eq_of_dotted hb' hb h
  · rintro rfl
    exact labelUses_numbered_self base' n

theorem numbered_injective {base : String} {m n : Nat} (h : numbered base m = numbered base n) :
    m = n := by
  -- A number makes the label longer than its base.
  have hlen : ∀ k, numbered base (k + 1) ≠ base := by
    intro k hk
    have hk' := congrArg (fun s : String => s.toList.length) hk
    simp only [numbered_succ_toList, String.toList_append, List.length_append] at hk'
    have hdot : (".").toList.length = 1 := rfl
    omega
  cases m with
  | zero =>
    cases n with
    | zero => rfl
    | succ n => exact absurd h.symm (hlen n)
  | succ m =>
    cases n with
    | zero => exact absurd h (hlen m)
    | succ n =>
      -- The numbers are read back from their digits.
      have h' := congrArg String.toList h
      rw [numbered_succ_toList, numbered_succ_toList, List.append_right_inj,
        Nat.repr_eq_ofList_toDigits, Nat.repr_eq_ofList_toDigits, String.toList_ofList,
        String.toList_ofList] at h'
      have hread := congrArg (Nat.ofDigitChars 10 · 0) h'
      simpa [Nat.ofDigitChars_toDigits] using hread

/-- Labels that were given one after the other: each is made from a base and
    a number that is smaller than the count of labels with that base. -/
def Labelled (labelList : List String) : Prop :=
  ∃ marks : List (String × Nat), labelList = marks.map (fun q => numbered q.1 q.2) ∧
    marks.Nodup ∧ ∀ q ∈ marks, q.1 ∈ labels ∧ q.2 < marks.countP (·.1 == q.1)

theorem Labelled.nodup {labelList : List String} (h : Labelled labelList) : labelList.Nodup := by
  obtain ⟨marks, rfl, hnodup, hmarks⟩ := h
  refine hnodup.map_on fun q hq q' hq' heq => ?_
  have huse : labelUses q.1 (numbered q'.1 q'.2) = true := by
    rw [← heq]
    exact labelUses_numbered_self _ _
  have hbase : q'.1 = q.1 := (labelUses_numbered (hmarks q hq).1 (hmarks q' hq').1 _).1 huse
  rw [hbase] at heq
  exact Prod.ext hbase.symm (numbered_injective heq)

theorem Labelled.newLabel {blocks : List Block} (h : Labelled (blocks.map (·.label)))
    {base : String} (hb : base ∈ labels) :
    Labelled (blocks.map (·.label) ++ [newLabel blocks base]) := by
  obtain ⟨marks, hlabels, hnodup, hmarks⟩ := h
  -- A base is counted by the labels that are made from it, and no label is made from two bases.
  have hcount : blocks.countP (fun b => labelUses base b.label) =
      marks.countP (·.1 == base) := by
    have hmap : blocks.countP (fun b => labelUses base b.label) =
        (blocks.map (·.label)).countP (labelUses base) := by
      rw [List.countP_map]
      rfl
    rw [hmap, hlabels, List.countP_map]
    refine List.countP_congr fun q hq => ?_
    rw [Function.comp_apply, labelUses_numbered hb (hmarks q hq).1, beq_iff_eq]
  refine ⟨marks ++ [(base, marks.countP (·.1 == base))], ?_, ?_, fun q hq => ?_⟩
  · rw [List.map_append, ← hlabels, newLabel_eq, hcount]
    rfl
  · -- The new mark has a number that none of its base has reached.
    refine List.nodup_append.2 ⟨hnodup, List.pairwise_singleton _ _, fun q hq q' hq' heq => ?_⟩
    obtain rfl := List.mem_singleton.1 hq'
    have hlt := (hmarks q hq).2
    rw [heq] at hlt
    exact Nat.lt_irrefl _ hlt
  · rw [List.countP_append]
    rcases List.mem_append.1 hq with hq | hq
    · have hlt := (hmarks q hq).2
      exact ⟨(hmarks q hq).1, by omega⟩
    · obtain rfl := List.mem_singleton.1 hq
      refine ⟨hb, ?_⟩
      simp

/-- Only appending a block touches a label. -/
theorem labels_modify (blocks : List Block) (b : BlockId) (ids : Block → List InstId) :
    (blocks.modify b fun block => { block with insts := ids block }).map (·.label) =
      blocks.map (·.label) := by
  apply List.ext_getElem?
  intro k
  simp only [List.getElem?_map, List.getElem?_modify]
  cases blocks[k]? with
  | none => rfl
  | some block => by_cases hk : b = k <;> simp [hk]

end Build

theorem Edit.labelled {n : Nat} {home : BlockId} {t : Option Targets} {f g : Function}
    (he : Edit n home t f g) (h : Build.Labelled (f.blocks.map (·.label))) :
    Build.Labelled (g.blocks.map (·.label)) := by
  cases he with
  | block hl =>
    have hadd := h.newLabel hl
    simpa [Function.addBlock] using hadd
  | slot =>
    show Build.Labelled ((f.blocks.modify 0 _).map (·.label))
    rw [Build.labels_modify]
    exact h
  | plain | close | merge =>
    show Build.Labelled ((f.blocks.modify _ _).map (·.label))
    rw [Build.labels_modify]
    exact h

/-- The labels of a body are pairwise distinct. -/
theorem Edits.labels_nodup {n : Nat} {home : BlockId} {t : Option Targets} {f g : Function}
    (he : Edits n home t f g) (h : Build.Labelled (f.blocks.map (·.label))) :
    (g.blocks.map (·.label)).Nodup := by
  have hlabelled : Build.Labelled (g.blocks.map (·.label)) := by
    induction he with
    | refl => exact h
    | tail _ hedit ih => exact hedit.labelled ih
  exact hlabelled.nodup

end Shading.IR
