import Mathlib.Algebra.BigOperators.Group.List.Basic
import Mathlib.Algebra.Ring.Nat
import Mathlib.Data.List.Forall2
import Mathlib.Order.Bounds.Basic
import Mathlib.Order.MinMax
import Shading.IR.Layout

/-! # The natural layout

    Sizes are computed in 32-bit words.  Over the natural numbers the layout
    of a type can be said without computing (`Ty.Takes`): every field is at
    the first place of its alignment behind the field before it, and an
    aggregate ends at the first place of its own alignment behind the last
    one.  A type has such a layout if it holds nothing without contents, and
    as long as its size is a word, no sum on the way leaves the words
    (`layout_is_natural`). -/

namespace Shading.IR

/-! ## Places -/

/-- The least multiple of an alignment from an offset on. -/
def IsPlace (align offset place : Nat) : Prop := IsLeast {k | align ∣ k ∧ offset ≤ k} place

section

variable {align offset place : Nat}

theorem IsPlace.dvd (h : IsPlace align offset place) : align ∣ place := h.1.1

theorem IsPlace.le (h : IsPlace align offset place) : offset ≤ place := h.1.2

/-- The first place is at the offset or fills up what is left of a multiple. -/
theorem isPlace_iff (h : 0 < align) : IsPlace align offset place ↔
    place = if offset % align = 0 then offset else offset + (align - offset % align) := by
  have hlt := Nat.mod_lt offset h
  have hleast : IsPlace align offset
      (if offset % align = 0 then offset else offset + (align - offset % align)) := by
    have hdiv := Nat.div_add_mod offset align
    split
    · exact ⟨⟨Nat.dvd_of_mod_eq_zero ‹_›, le_rfl⟩, fun k hk => hk.2⟩
    · refine ⟨⟨⟨offset / align + 1, ?_⟩, Nat.le_add_right _ _⟩, ?_⟩
      · rw [Nat.mul_add, Nat.mul_one]
        omega
      · -- A multiple that is not below the offset is above the multiple before it.
        rintro k ⟨⟨q, rfl⟩, hk⟩
        have hq : offset / align < q := by
          by_contra hle
          have hmul := Nat.mul_le_mul_left align (Nat.le_of_not_lt hle)
          omega
        have hmul := Nat.mul_le_mul_left align hq
        rw [Nat.mul_succ] at hmul
        omega
  constructor
  · intro hplace
    exact hplace.unique hleast
  · rintro rfl
    exact hleast

end

/-! ## Words -/

theorem toNat_max (a b : UInt32) : (max a b).toNat = max a.toNat b.toNat := by
  rw [show max a b = if a ≤ b then b else a from rfl, Nat.max_def]
  simp only [UInt32.le_iff_toNat_le]
  split <;> rfl

/-- Rounding up to a power of two gives one, for what is not too large. -/
theorem nextPowerOfTwo_pow {n : UInt32} (h : n.toNat ≤ 2 ^ 31) :
    ∃ k, (nextPowerOfTwo n).toNat = 2 ^ k := by
  unfold nextPowerOfTwo
  split
  · exact ⟨0, rfl⟩
  · rename_i hn
    have hone : 1 < n.toNat := by
      simpa [UInt32.le_iff_toNat_le] using hn
    have hpred : (n - 1).toNat = n.toNat - 1 := UInt32.toNat_sub_of_le _ _ (by
      rw [UInt32.le_iff_toNat_le]
      exact Nat.le_of_lt hone)
    -- The bound keeps the shift inside the word.
    have hlog : (n - 1).toNat.log2 < 31 := by
      rw [hpred, Nat.log2_lt (by omega)]
      omega
    refine ⟨(n - 1).toNat.log2 + 1, ?_⟩
    rw [Nat.one_shiftLeft, UInt32.toNat_ofNat_of_lt']
    exact Nat.pow_lt_pow_right Nat.one_lt_two (Nat.add_lt_add_right hlog 1)

theorem toNat_four_mul (lanes : UInt8) : (4 * lanes.toUInt32).toNat = 4 * lanes.toNat := by
  have hlanes := lanes.toNat_lt
  rw [UInt32.toNat_mul, UInt8.toNat_toUInt32]
  exact Nat.mod_eq_of_lt (by simp only [UInt32.reduceToNat]; omega)

namespace Ty

/-! ## Layouts over the natural numbers -/

/-- A type without contents, or an aggregate that holds one.  What a pointer
    points to does not count. -/
inductive Hollow : Ty → Prop
  | void : Hollow .void
  | abstract (name : String) : Hollow (.abstract name)
  | struct (name : String) {fields : List Ty} {t : Ty} (hmem : t ∈ fields) (ht : Hollow t) :
    Hollow (.struct name fields)

/-- The largest alignment of some fields, and one if there are none. -/
def Widest (fields : List Ty) (align : Nat) : Prop :=
  IsGreatest (insert 1 {a | ∃ t ∈ fields, a = t.alignment.toNat}) align

mutual
/-- A type takes up so many bytes. -/
def Takes : Ty → Nat → Prop
  | void, _ | abstract _, _ => False
  | bool, n => n = 1
  | i32, n | f32, n => n = 4
  | vector lanes, n => n = 4 * lanes.toNat
  | ptr _, n => n = 8
  | struct _ fields, n =>
    ∃ last align, Ends fields 0 last ∧ Widest fields align ∧ IsPlace align last n

/-- Behind an offset, fields end at `last`. -/
def Ends : List Ty → Nat → Nat → Prop
  | [], offset, last => last = offset
  | t :: ts, offset, last =>
    ∃ place size, IsPlace t.alignment.toNat offset place ∧ Takes t size ∧
      Ends ts (place + size) last
end

/-! ## Words that must not overflow -/

/-- The sum of two words, if it is one. -/
def addStrict (m n : UInt32) : Option UInt32 :=
  if m.toNat + n.toNat < 2 ^ 32 then some (m + n) else none

/-- The least multiple of `m` that is not below `n`, if it is a word. -/
def nextMultipleStrict (n m : UInt32) : Option UInt32 :=
  if n % m = 0 then some n else addStrict n (m - n % m)

mutual
/-- The size of a type, if it has one and no sum overflows. -/
def sizeStrict? : Ty → Option UInt32
  | void | abstract _ => none
  | bool => some 1
  | i32 | f32 => some 4
  | vector lanes => some (4 * lanes.toUInt32)
  | ptr _ => some 8
  | struct _ fields => (placeStrict fields 0).bind (nextMultipleStrict · (alignmentOf fields))

/-- Where the last of some fields ends, if no sum overflows. -/
def placeStrict : List Ty → UInt32 → Option UInt32
  | [], offset => some offset
  | t :: ts, offset =>
    match sizeStrict? t with
    | some size =>
      ((nextMultipleStrict offset (alignment t)).bind (addStrict · size)).bind (placeStrict ts ·)
    | none => none
end

/-! ## Alignments -/

mutual
theorem alignment_pow : (t : Ty) → ∃ k, t.alignment.toNat = 2 ^ k
  | void | bool | abstract _ => ⟨0, rfl⟩
  | i32 | f32 => ⟨2, rfl⟩
  | ptr _ => ⟨3, rfl⟩
  | vector lanes => by
    unfold alignment
    split
    · exact ⟨4, rfl⟩
    · apply nextPowerOfTwo_pow
      rw [toNat_four_mul]
      have hlanes := lanes.toNat_lt
      omega
  | struct _ fields => alignmentOf_pow fields

theorem alignmentOf_pow : (ts : List Ty) → ∃ k, (alignmentOf ts).toNat = 2 ^ k
  | [] => ⟨0, rfl⟩
  | t :: ts => by
    rw [alignmentOf, toNat_max]
    rcases max_choice t.alignment.toNat (alignmentOf ts).toNat with h | h
    · rw [h]
      exact alignment_pow t
    · rw [h]
      exact alignmentOf_pow ts
end

theorem alignment_pos (t : Ty) : 0 < t.alignment.toNat := by
  obtain ⟨k, hk⟩ := t.alignment_pow
  rw [hk]
  exact Nat.two_pow_pos k

theorem alignmentOf_pos (ts : List Ty) : 0 < (alignmentOf ts).toNat := by
  obtain ⟨k, hk⟩ := alignmentOf_pow ts
  rw [hk]
  exact Nat.two_pow_pos k

theorem widest_iff {fields : List Ty} {align : Nat} :
    Widest fields align ↔ align = (alignmentOf fields).toNat := by
  -- By induction on the fields: the widest is the first or the widest of the rest.
  have hwidest : Widest fields (alignmentOf fields).toNat := by
    induction fields with
    | nil =>
      refine ⟨.inl rfl, ?_⟩
      rintro a (rfl | ⟨t, hmem, -⟩)
      · exact le_rfl
      · cases hmem
    | cons t ts ih =>
      rw [alignmentOf, toNat_max]
      constructor
      · rcases max_choice t.alignment.toNat (alignmentOf ts).toNat with h | h
        · rw [h]
          exact .inr ⟨t, List.mem_cons_self, rfl⟩
        · rw [h]
          rcases ih.1 with hone | ⟨t', hmem, ht'⟩
          · exact .inl hone
          · exact .inr ⟨t', List.mem_cons_of_mem _ hmem, ht'⟩
      · rintro a (rfl | ⟨t', hmem, rfl⟩)
        · exact le_max_of_le_right (alignmentOf_pos ts)
        · rcases List.mem_cons.1 hmem with rfl | hmem
          · exact le_max_left _ _
          · exact le_max_of_le_right (ih.2 (.inr ⟨t', hmem, rfl⟩))
  constructor
  · intro h
    exact h.unique hwidest
  · rintro rfl
    exact hwidest

/-- The layout of an aggregate, with its own alignment. -/
theorem takes_struct_iff {name : String} {fields : List Ty} {n : Nat} :
    Takes (.struct name fields) n ↔
      ∃ last, Ends fields 0 last ∧ IsPlace (alignmentOf fields).toNat last n := by
  simp only [Takes, widest_iff]
  constructor
  · rintro ⟨last, _, hends, rfl, hplace⟩
    exact ⟨last, hends, hplace⟩
  · rintro ⟨last, hends, hplace⟩
    exact ⟨last, _, hends, rfl, hplace⟩

/-! ## Types with a size -/

mutual
/-- A type has no size if and only if it is hollow. -/
theorem size?_eq_none_iff : (t : Ty) → (t.size? = none ↔ t.Hollow)
  | void => iff_of_true rfl .void
  | abstract name => iff_of_true rfl (.abstract name)
  | bool | i32 | f32 | vector _ | ptr _ => iff_of_false nofun nofun
  | struct name fields => by
    rw [size?, Option.map_eq_none_iff, placeAll_eq_none_iff fields 0]
    constructor
    · rintro ⟨t, hmem, ht⟩
      exact .struct name hmem ht
    · rintro (_ | _ | ⟨_, hmem, ht⟩)
      exact ⟨_, hmem, ht⟩

theorem placeAll_eq_none_iff : (ts : List Ty) → (offset : UInt32) →
    (placeAll ts offset = none ↔ ∃ t ∈ ts, Hollow t)
  | [], _ => iff_of_false nofun nofun
  | t :: ts, offset => by
    have ht := size?_eq_none_iff t
    rw [placeAll]
    cases hsize : t.size? with
    | none =>
      exact iff_of_true rfl ⟨t, List.mem_cons_self, ht.1 hsize⟩
    | some size =>
      have hfull : ¬ t.Hollow := fun hollow => by
        rw [ht.2 hollow] at hsize
        cases hsize
      simp [placeAll_eq_none_iff ts, hfull]
end

/-- What fields take up is taken from behind the offset. -/
theorem Ends.le : (ts : List Ty) → {offset last : Nat} → Ends ts offset last → offset ≤ last
  | [], _, _, h => Nat.le_of_eq h.symm
  | _ :: ts, _, _, ⟨_, _, hplace, _, hends⟩ =>
    hplace.le.trans ((Nat.le_add_right _ _).trans (Ends.le ts hends))

mutual
/-- A type that is not hollow has one layout. -/
theorem exists_unique_takes : (t : Ty) → ¬ t.Hollow → ∃! n, t.Takes n
  | void, h => absurd .void h
  | abstract name, h => absurd (.abstract name) h
  | bool, _ => ⟨1, rfl, fun _ h => h⟩
  | i32, _ | f32, _ => ⟨4, rfl, fun _ h => h⟩
  | vector lanes, _ => ⟨4 * lanes.toNat, rfl, fun _ h => h⟩
  | ptr _, _ => ⟨8, rfl, fun _ h => h⟩
  | struct name fields, h => by
    obtain ⟨last, hends, hlast⟩ := exists_unique_ends fields 0 fun t hmem ht =>
      h (.struct name hmem ht)
    simp only [takes_struct_iff, isPlace_iff (alignmentOf_pos fields)]
    refine ⟨_, ⟨last, hends, rfl⟩, ?_⟩
    rintro _ ⟨last', hends', rfl⟩
    rw [hlast last' hends']

theorem exists_unique_ends : (ts : List Ty) → (offset : Nat) → (∀ t ∈ ts, ¬ Hollow t) →
    ∃! last, Ends ts offset last
  | [], offset, _ => ⟨offset, rfl, fun _ h => h⟩
  | t :: ts, offset, h => by
    obtain ⟨size, hsize, hsizes⟩ := exists_unique_takes t (h t List.mem_cons_self)
    simp only [Ends, isPlace_iff t.alignment_pos]
    obtain ⟨last, hends, hlast⟩ := exists_unique_ends ts (_ + size) fun t' hmem =>
      h t' (List.mem_cons_of_mem _ hmem)
    refine ⟨last, ⟨_, size, rfl, hsize, hends⟩, ?_⟩
    rintro last' ⟨_, size', rfl, hsize', hends'⟩
    rw [hsizes size' hsize'] at hends'
    exact hlast last' hends'
end

theorem Ends.takes : (ts : List Ty) → {offset last : Nat} → Ends ts offset last →
    ∀ t ∈ ts, ∃ n, Takes t n
  | [], _, _, _ => nofun
  | _ :: ts, _, _, ⟨_, size, _, hsize, hends⟩ => by
    intro t hmem
    rcases List.mem_cons.1 hmem with rfl | hmem
    · exact ⟨size, hsize⟩
    · exact Ends.takes ts hends t hmem

theorem Takes.not_hollow {t : Ty} {n : Nat} (h : t.Takes n) : ¬ t.Hollow := by
  intro hollow
  induction hollow generalizing n with
  | void | abstract => exact h
  | struct name hmem _ ih =>
    obtain ⟨last, hends, -⟩ := takes_struct_iff.1 h
    obtain ⟨m, hm⟩ := Ends.takes _ hends _ hmem
    exact ih hm

theorem Takes.unique {t : Ty} {m n : Nat} (hm : t.Takes m) (hn : t.Takes n) : m = n :=
  (exists_unique_takes t hm.not_hollow).unique hm hn

/-- Padding only adds to what the fields take up. -/
theorem Ends.sum_le {ts : List Ty} {sizes : List Nat} (hsizes : List.Forall₂ Takes ts sizes)
    {offset last : Nat} (h : Ends ts offset last) : offset + sizes.sum ≤ last := by
  induction hsizes generalizing offset with
  | nil => exact Nat.le_of_eq h.symm
  | cons ht _ ih =>
    obtain ⟨place, size, hplace, hsize, hends⟩ := h
    have hrest := ih hends
    rw [hsize.unique ht] at hrest
    rw [List.sum_cons]
    have hle := hplace.le
    omega

/-! ## Computing in words -/

theorem addStrict_ofNat {m n : Nat} (h : m + n < 2 ^ 32) :
    addStrict (UInt32.ofNat m) (UInt32.ofNat n) = some (UInt32.ofNat (m + n)) := by
  have hm : (UInt32.ofNat m).toNat = m :=
    UInt32.toNat_ofNat_of_lt' ((Nat.le_add_right m n).trans_lt h)
  have hn : (UInt32.ofNat n).toNat = n :=
    UInt32.toNat_ofNat_of_lt' ((Nat.le_add_left n m).trans_lt h)
  rw [addStrict, hm, hn, if_pos h, UInt32.ofNat_add]

/-- As long as the place is a word, it is computed without overflow. -/
theorem nextMultipleStrict_ofNat {m : UInt32} {offset place : Nat} (hm : 0 < m.toNat)
    (h : IsPlace m.toNat offset place) (hplace : place < 2 ^ 32) :
    nextMultipleStrict (UInt32.ofNat offset) m = some (UInt32.ofNat place) := by
  have hoffset : (UInt32.ofNat offset).toNat = offset :=
    UInt32.toNat_ofNat_of_lt' (h.le.trans_lt hplace)
  have hrest : (UInt32.ofNat offset % m).toNat = offset % m.toNat := by
    rw [UInt32.toNat_mod, hoffset]
  have hzero : UInt32.ofNat offset % m = 0 ↔ offset % m.toNat = 0 := by
    rw [← UInt32.toNat_inj, hrest]
    rfl
  -- The padding does not wrap, since a rest is below its divisor.
  have hpad : m - UInt32.ofNat offset % m = UInt32.ofNat (m.toNat - offset % m.toNat) := by
    have hle : UInt32.ofNat offset % m ≤ m := by
      rw [UInt32.le_iff_toNat_le, hrest]
      exact (Nat.mod_lt offset hm).le
    rw [← hrest, ← UInt32.toNat_sub_of_le _ _ hle, UInt32.ofNat_toNat]
  rw [isPlace_iff hm] at h
  unfold nextMultipleStrict
  by_cases hmod : offset % m.toNat = 0
  · rw [if_pos hmod] at h
    rw [if_pos (hzero.2 hmod), h]
  · rw [if_neg hmod] at h
    rw [if_neg (hzero.not.2 hmod), hpad, addStrict_ofNat (h ▸ hplace), h]

mutual
/-- As long as the size is a word, it is computed without overflow. -/
theorem sizeStrict?_of_takes : (t : Ty) → {n : Nat} → t.Takes n → n < 2 ^ 32 →
    t.sizeStrict? = some (UInt32.ofNat n)
  | void, _, h, _ | abstract _, _, h, _ => h.elim
  | bool, _, rfl, _ | i32, _, rfl, _ | f32, _, rfl, _ | ptr _, _, rfl, _ => rfl
  | vector lanes, _, rfl, _ => by
    rw [sizeStrict?, ← toNat_four_mul, UInt32.ofNat_toNat]
  | struct _ fields, n, h, hn => by
    obtain ⟨last, hends, hplace⟩ := takes_struct_iff.1 h
    have hlast := placeStrict_of_ends fields hends (hplace.le.trans_lt hn)
    rw [sizeStrict?, show (0 : UInt32) = UInt32.ofNat 0 from rfl, hlast]
    exact nextMultipleStrict_ofNat (alignmentOf_pos fields) hplace hn

theorem placeStrict_of_ends : (ts : List Ty) → {offset last : Nat} → Ends ts offset last →
    last < 2 ^ 32 → placeStrict ts (UInt32.ofNat offset) = some (UInt32.ofNat last)
  | [], _, _, rfl, _ => rfl
  | t :: ts, offset, last, ⟨place, size, hplace, hsize, hends⟩, hlast => by
    -- The field ends before the last one does, so its place and its size are words too.
    have hend : place + size < 2 ^ 32 := (Ends.le ts hends).trans_lt hlast
    rw [placeStrict, sizeStrict?_of_takes t hsize (by omega)]
    simp only
    rw [nextMultipleStrict_ofNat t.alignment_pos hplace (by omega), Option.bind_some,
      addStrict_ofNat hend, Option.bind_some]
    exact placeStrict_of_ends ts hends hlast
end

theorem eq_of_addStrict {m n k : UInt32} (h : addStrict m n = some k) : k = m + n := by
  unfold addStrict at h
  split at h
  · cases h
    rfl
  · cases h

theorem eq_of_nextMultipleStrict {n m k : UInt32} (h : nextMultipleStrict n m = some k) :
    k = nextMultiple n m := by
  unfold nextMultipleStrict at h
  unfold nextMultiple
  split at h
  · rename_i hzero
    cases h
    rw [if_pos hzero]
  · rename_i hzero
    rw [if_neg hzero]
    exact eq_of_addStrict h

mutual
/-- What is computed without overflow is what is computed. -/
theorem size?_of_sizeStrict? : (t : Ty) → {w : UInt32} → t.sizeStrict? = some w → t.size? = some w
  | void, _, h | abstract _, _, h | bool, _, h | i32, _, h | f32, _, h => h
  | vector _, _, h | ptr _, _, h => h
  | struct _ fields, w, h => by
    obtain ⟨last, hlast, hw⟩ := Option.bind_eq_some_iff.1 h
    rw [size?, placeAll_of_placeStrict fields hlast, Option.map_some, eq_of_nextMultipleStrict hw]

theorem placeAll_of_placeStrict : (ts : List Ty) → {offset w : UInt32} →
    placeStrict ts offset = some w → placeAll ts offset = some w
  | [], _, _, h => h
  | t :: ts, offset, w, h => by
    rw [placeStrict] at h
    cases hsize : t.sizeStrict? with
    | none =>
      rw [hsize] at h
      cases h
    | some size =>
      simp only [hsize, Option.bind_eq_some_iff] at h
      obtain ⟨last, ⟨place, hplace, hadd⟩, hrest⟩ := h
      rw [placeAll, size?_of_sizeStrict? t hsize]
      simp only
      rw [← eq_of_nextMultipleStrict hplace, ← eq_of_addStrict hadd]
      exact placeAll_of_placeStrict ts hrest
end

end Ty

/-- Alignments are powers of two, and exactly the hollow types have no size.
    Every other type has one natural layout, and if its size is a word, then
    it is computed, and no sum on the way overflows.  The size of an
    aggregate is a multiple of its alignment and not below what the fields
    take up. -/
theorem layout_is_natural (t : Ty) :
    (∃ k, t.alignment.toNat = 2 ^ k) ∧ (t.size? = none ↔ t.Hollow) ∧
      (¬ t.Hollow → ∃! n, t.Takes n) ∧
      ∀ n, t.Takes n →
        (n < 2 ^ 32 → ∃ size, size.toNat = n ∧ t.sizeStrict? = some size ∧ t.size? = some size) ∧
          ∀ name fields, t = .struct name fields →
            t.alignment.toNat ∣ n ∧
              ∀ sizes, List.Forall₂ Ty.Takes fields sizes → sizes.sum ≤ n := by
  refine ⟨t.alignment_pow, t.size?_eq_none_iff, t.exists_unique_takes, fun n htakes => ⟨?_, ?_⟩⟩
  · intro hn
    have hstrict := t.sizeStrict?_of_takes htakes hn
    exact ⟨.ofNat n, UInt32.toNat_ofNat_of_lt' hn, hstrict, t.size?_of_sizeStrict? hstrict⟩
  · rintro name fields rfl
    obtain ⟨last, hends, hplace⟩ := Ty.takes_struct_iff.1 htakes
    refine ⟨hplace.dvd, fun sizes hsizes => ?_⟩
    have hsum := Ty.Ends.sum_le hsizes hends
    rw [Nat.zero_add] at hsum
    exact hsum.trans hplace.le

/-- Padding stands before the ray, before the handle and behind the vectors of
    three that the ray starts with. -/
def camera : Ty :=
  .struct "camera" [.f32, .struct "ray" [.vector 3, .vector 3, .f32], .bool, .handle "light"]

theorem camera_layout : camera.Takes 64 ∧
    (∃ size, size.toNat = 64 ∧ camera.sizeStrict? = some size ∧ camera.size? = some size) ∧
      camera.alignment.toNat ∣ 64 ∧ [4, 32, 1, 8].sum ≤ 64 := by
  have hplace : ∀ {a n k : Nat}, 0 < a → k = (if n % a = 0 then n else n + (a - n % a)) →
      IsPlace a n k := fun ha hk => (isPlace_iff ha).2 hk
  -- The inner structure first, then the four members one behind the other.
  have hray : (Ty.struct "ray" [.vector 3, .vector 3, .f32]).Takes 32 :=
    Ty.takes_struct_iff.2 ⟨32, ⟨0, 12, hplace (by decide) (by decide), rfl, 16, 12,
      hplace (by decide) (by decide), rfl, 28, 4, hplace (by decide) (by decide), rfl, rfl⟩,
      hplace (by decide) (by decide)⟩
  have hcamera : camera.Takes 64 :=
    Ty.takes_struct_iff.2 ⟨64, ⟨0, 4, hplace (by decide) (by decide), rfl, 16, 32,
      hplace (by decide) (by decide), hray, 48, 1, hplace (by decide) (by decide), rfl, 56, 8,
      hplace (by decide) (by decide), rfl, rfl⟩, hplace (by decide) (by decide)⟩
  obtain ⟨hword, hstruct⟩ := (layout_is_natural camera).2.2.2 64 hcamera
  obtain ⟨hdvd, hsum⟩ := hstruct _ _ rfl
  exact ⟨hcamera, hword (by decide), hdvd, hsum [4, 32, 1, 8]
    (.cons rfl (.cons hray (.cons rfl (.cons rfl .nil))))⟩

end Shading.IR
