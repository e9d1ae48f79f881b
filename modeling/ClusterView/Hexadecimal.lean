import ClusterView.Bytes

/-!
# Hexadecimal digits

Numbers of a fixed number of digits, most significant digit first. Digits are written in lower
case and read in either case.
-/

namespace ClusterView.Hexadecimal

/-- The value of a digit, given as an ASCII byte. -/
def digit? (b : UInt8) : Option Nat :=
  if 0x30 ≤ b ∧ b ≤ 0x39 then some (b.toNat - 0x30)
  else if 0x61 ≤ b ∧ b ≤ 0x66 then some (b.toNat - 0x61 + 10)
  else if 0x41 ≤ b ∧ b ≤ 0x46 then some (b.toNat - 0x41 + 10)
  else none

/-- **The low digits of a number**, `count` of them. -/
def digits : (count n : Nat) → List Char
  | 0, _ => []
  | count + 1, n => digits count (n / 16) ++ [Nat.digitChar (n % 16)]

end ClusterView.Hexadecimal
