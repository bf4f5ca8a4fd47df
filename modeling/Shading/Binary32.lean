/-! # Binary floating-point numbers of 32 bits

    A number is its bit pattern: one sign bit, eight exponent bits and 23
    fraction bits.  Nothing here rounds; a finite number is an integer
    multiple of a power of two, and that is how it is taken apart. -/

namespace Shading

/-- A 32-bit floating-point number, as its bits. -/
structure Binary32 where
  bits : UInt32
  deriving DecidableEq, Repr, Inhabited

namespace Binary32

/-- The 23 fraction bits. -/
def fraction (x : Binary32) : Nat := (x.bits &&& 0x7fffff).toNat

/-- The eight exponent bits. -/
def exponent (x : Binary32) : Nat := (x.bits >>> 23 &&& 0xff).toNat

/-- Is the sign bit set? -/
def isNegative (x : Binary32) : Bool := x.bits >>> 31 == 1

def isNaN (x : Binary32) : Bool := x.exponent == 255 && x.fraction != 0

def isInfinite (x : Binary32) : Bool := x.exponent == 255 && x.fraction == 0

def isZero (x : Binary32) : Bool := x.exponent == 0 && x.fraction == 0

/-- Equality of numbers: all NaNs are one number, and so are the two zeros. -/
def same (x y : Binary32) : Bool :=
  x == y || (x.isNaN && y.isNaN) || (x.isZero && y.isZero)

/-- The integer factor of a finite magnitude.  Unless the exponent bits are
    zero, it has a leading one that is not stored. -/
def significand (x : Binary32) : Nat :=
  if x.exponent = 0 then x.fraction else 0x800000 + x.fraction

/-- The power of two of a finite magnitude, counted from the smallest one:
    the magnitude is `significand * 2 ^ step` in units of `2 ^ -149`. -/
def step (x : Binary32) : Nat := x.exponent - 1

/-- Is the next smaller magnitude half as far away as the next larger one? -/
def isLowestOfBinade (x : Binary32) : Bool := x.fraction == 0 && decide (1 < x.exponent)

end Binary32

end Shading
