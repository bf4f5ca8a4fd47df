/-! # Machine types

    The shapes of values in generated code.  They carry no language
    meaning: which shape a language type has is the business of its
    descriptor. -/

namespace Shading.IR

/-- A type of generated code. -/
inductive Ty where
  | void
  | bool
  | i32
  | f32
  /-- A vector of so many 32-bit floats. -/
  | vector (lanes : UInt8)
  | ptr (pointee : Ty)
  /-- A named type without known contents, used behind a pointer. -/
  | abstract (name : String)
  /-- A named aggregate with its fields in order. -/
  | struct (name : String) (fields : List Ty)
  deriving Repr, Inhabited

namespace Ty

/-! ## Equality -/

mutual
/-- Structural equality. -/
def same : Ty → Ty → Bool
  | void, void => true
  | bool, bool => true
  | i32, i32 => true
  | f32, f32 => true
  | vector m, vector n => m == n
  | ptr s, ptr t => same s t
  | abstract a, abstract b => a == b
  | struct a ss, struct b ts => a == b && sameAll ss ts
  | _, _ => false

/-- Structural equality of field lists. -/
def sameAll : List Ty → List Ty → Bool
  | [], [] => true
  | s :: ss, t :: ts => same s t && sameAll ss ts
  | _, _ => false
end

mutual
theorem same_refl : (t : Ty) → same t t = true
  | void | bool | i32 | f32 => rfl
  | vector _ => decide_eq_true rfl
  | ptr t => same_refl t
  | abstract _ => decide_eq_true rfl
  | struct _ ts => Bool.and_eq_true_iff.2 ⟨decide_eq_true rfl, sameAll_refl ts⟩

theorem sameAll_refl : (ts : List Ty) → sameAll ts ts = true
  | [] => rfl
  | t :: ts => Bool.and_eq_true_iff.2 ⟨same_refl t, sameAll_refl ts⟩
end

mutual
theorem eq_of_same : (s t : Ty) → same s t = true → s = t
  | void, t, h => by cases t <;> simp_all [same]
  | bool, t, h => by cases t <;> simp_all [same]
  | i32, t, h => by cases t <;> simp_all [same]
  | f32, t, h => by cases t <;> simp_all [same]
  | vector _, t, h => by cases t <;> simp_all [same]
  | abstract _, t, h => by cases t <;> simp_all [same]
  | ptr s, t, h => by
    cases t with
    | ptr t => rw [eq_of_same s t (by simpa [same] using h)]
    | _ => simp [same] at h
  | struct a ss, t, h => by
    cases t with
    | struct b ts =>
      simp only [same, Bool.and_eq_true, beq_iff_eq] at h
      rw [h.1, eq_of_sameAll ss ts h.2]
    | _ => simp [same] at h

theorem eq_of_sameAll : (ss ts : List Ty) → sameAll ss ts = true → ss = ts
  | [], [], _ => rfl
  | [], _ :: _, h => by simp [sameAll] at h
  | _ :: _, [], h => by simp [sameAll] at h
  | s :: ss, t :: ts, h => by
    simp only [sameAll, Bool.and_eq_true] at h
    rw [eq_of_same s t h.1, eq_of_sameAll ss ts h.2]
end

instance : DecidableEq Ty := fun s t =>
  decidable_of_iff (same s t = true) ⟨eq_of_same s t, fun h => h ▸ same_refl s⟩

/-! ## Classes of types -/

def isVoid : Ty → Bool
  | void => true
  | _ => false

def isPointer : Ty → Bool
  | ptr _ => true
  | _ => false

/-- Is it a float or a vector of floats? -/
def isFloatLike : Ty → Bool
  | f32 | vector _ => true
  | _ => false

/-- What a pointer points to. -/
def pointee? : Ty → Option Ty
  | ptr t => some t
  | _ => none

/-- A pointer to a named type without known contents. -/
def handle (name : String) : Ty := ptr (abstract name)

/-- The written form of a type. -/
def text : Ty → String
  | void => "void"
  | bool => "i1"
  | i32 => "i32"
  | f32 => "float"
  | vector lanes => s!"<{lanes.toNat} x float>"
  | ptr t => t.text ++ "*"
  | abstract name => "%" ++ name
  | struct name _ => "%" ++ name

end Ty

end Shading.IR
