/-! # Hexadecimal words -/

namespace Shading.Text

/-- The last `places` hexadecimal digits of `n`, most significant first. -/
def hexDigits : (places : Nat) → (n : Nat) → List Char
  | 0, _ => []
  | k + 1, n => hexDigits k (n / 16) ++ [Nat.digitChar (n % 16)]

/-- A 64-bit word as `0x` and sixteen digits. -/
def hexWord (w : UInt64) : String := "0x" ++ String.ofList (hexDigits 16 w.toNat)

/-- A number in hexadecimal without leading zeros. -/
def hex (n : Nat) : String := String.ofList (Nat.toDigits 16 n)

end Shading.Text
