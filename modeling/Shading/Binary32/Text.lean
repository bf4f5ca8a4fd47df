import Shading.Binary32.Shortest

/-! # How constants are written

    A float is written with the fewest digits that read back.  It is written
    positionally, with at least one digit after the point, from `1e-4` up to
    but not including `1e16`, and with an exponent otherwise. -/

namespace Shading

/-- The decisions of a number format. -/
structure FloatFormat where
  /-- The least decimal exponent of the leading digit written positionally. -/
  positionalFrom : Int
  /-- The first decimal exponent of the leading digit beyond positional. -/
  positionalBelow : Int
  nan : String
  infinity : String

/-- The format of float constants. -/
def FloatFormat.constant : FloatFormat where
  positionalFrom := -4
  positionalBelow := 16
  nan := "NaN"
  infinity := "inf"

namespace FloatFormat

/-- Digits with a point after the first `point` of them, padded by zeros. -/
def positional (digits : List Char) (point : Int) : List Char :=
  if point ≤ 0 then
    '0' :: '.' :: (List.replicate point.natAbs '0' ++ digits)
  else
    let k := point.toNat
    if digits.length ≤ k then
      digits ++ List.replicate (k - digits.length) '0' ++ ['.', '0']
    else digits.take k ++ '.' :: digits.drop k

/-- Digits with a point after the first of them and an exponent. -/
def exponential (digits : List Char) (exponent : Int) : List Char :=
  let mantissa :=
    match digits with
    | [] => ['0']
    | [d] => [d]
    | d :: rest => d :: '.' :: rest
  mantissa ++ 'e' :: (toString exponent).toList

/-- A positive decimal. -/
def decimal (f : FloatFormat) (d : Decimal) : List Char :=
  let digits := d.chars
  let leading := d.exponent + digits.length - 1
  if f.positionalFrom ≤ leading ∧ leading < f.positionalBelow then
    positional digits (leading + 1)
  else exponential digits leading

/-- The text of a number. -/
def text (f : FloatFormat) (x : Binary32) : String :=
  if x.isNaN then f.nan
  else
    let magnitude :=
      if x.isInfinite then f.infinity
      else if x.isZero then "0.0"
      else String.ofList (f.decimal x.shortest)
    if x.isNegative then "-" ++ magnitude else magnitude

end FloatFormat

/-- The text of a float constant. -/
def Binary32.text (x : Binary32) : String := FloatFormat.constant.text x

end Shading
