import Shading.IR.Ty

/-! # Storage layout

    The size and alignment of a type in bytes, in 32-bit words.  A field of
    an aggregate is placed at the next multiple of its alignment, and the
    aggregate is rounded up to the largest alignment of its fields.  A type
    without contents has no size, and neither has an aggregate that holds
    one. -/

namespace Shading.IR

/-- The least multiple of `m` that is not below `n`. -/
def nextMultiple (n m : UInt32) : UInt32 :=
  if n % m = 0 then n else n + (m - n % m)

/-- The least power of two that is not below `n`, for `n` up to `2 ^ 31`. -/
def nextPowerOfTwo (n : UInt32) : UInt32 :=
  if n ≤ 1 then 1 else UInt32.ofNat (1 <<< ((n - 1).toNat.log2 + 1))

namespace Ty

mutual
/-- The alignment of a type in bytes.  Vectors of three floats are aligned
    like vectors of four. -/
def alignment : Ty → UInt32
  | void | bool | abstract _ => 1
  | i32 | f32 => 4
  | vector lanes => if lanes = 3 then 16 else nextPowerOfTwo (4 * lanes.toUInt32)
  | ptr _ => 8
  | struct _ fields => alignmentOf fields

/-- The largest alignment of some fields, and one if there are none. -/
def alignmentOf : List Ty → UInt32
  | [] => 1
  | t :: ts => max (alignment t) (alignmentOf ts)
end

mutual
/-- The size of a type in bytes, if it has one. -/
def size? : Ty → Option UInt32
  | void | abstract _ => none
  | bool => some 1
  | i32 | f32 => some 4
  | vector lanes => some (4 * lanes.toUInt32)
  | ptr _ => some 8
  | struct _ fields => (placeAll fields 0).map (nextMultiple · (alignmentOf fields))

/-- Where the last of some fields ends, if the first may start at `offset`. -/
def placeAll : List Ty → UInt32 → Option UInt32
  | [], offset => some offset
  | t :: ts, offset =>
    match size? t with
    | some size => placeAll ts (nextMultiple offset (alignment t) + size)
    | none => none
end

end Ty

end Shading.IR
