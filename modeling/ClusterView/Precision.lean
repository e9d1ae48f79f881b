import ClusterView.Datatype

/-!
# Floating-point numbers by their bits

A floating-point value is its bit pattern: a sign bit, the exponent and the
fraction. Order is read off the pattern, as sign and magnitude. Sum and product are
those of the IEEE format, correctly rounded.

## Sections
- §1: Patterns
- §2: Order
- §3: Arithmetic
-/

namespace ClusterView.Precision

/-! ## §1 Patterns -/

/-- Number of fraction bits. -/
def fractionBits : Precision → Nat
  | .single => 23
  | .double => 52

/-- The pattern without its sign, as a number. -/
def magnitude {p : Precision} (x : BitVec p.bits) : Nat :=
  x.toNat % Nat.pow 2 (p.bits - 1)

/-- Is the sign bit set? -/
def isNegative {p : Precision} (x : BitVec p.bits) : Bool := x.msb

/-- The magnitude of infinity: all exponent bits set and the fraction zero. -/
def infinity (p : Precision) : Nat :=
  Nat.pow 2 (p.bits - 1) - Nat.pow 2 p.fractionBits

/-- **Not a number**: a magnitude beyond infinity. -/
def isNaN {p : Precision} (x : BitVec p.bits) : Bool :=
  p.infinity < magnitude x

/-! ## §2 Order -/

/-- **Order key**: the magnitude with its sign. Both zeros have key zero. -/
def key {p : Precision} (x : BitVec p.bits) : Int :=
  if isNegative x then -(magnitude x : Int) else magnitude x

/-- **Least of two**: what is not a number loses to any other value, and of two equal
values the left one stays. -/
def min {p : Precision} (a b : BitVec p.bits) : BitVec p.bits :=
  -- with two of them that are not numbers, the right one stays
  if isNaN a then b
  else if isNaN b then a
  else if key b < key a then b else a

/-- **Greatest of two**, with the same rules. -/
def max {p : Precision} (a b : BitVec p.bits) : BitVec p.bits :=
  if isNaN a then b
  else if isNaN b then a
  else if key a < key b then b else a

/-! ## §3 Arithmetic -/

/-- **Sum** in the format's own rounding. -/
def add : {p : Precision} → (a b : BitVec p.bits) → BitVec p.bits
  | .single, a, b =>
      (Float32.ofBits ⟨a⟩ + Float32.ofBits ⟨b⟩).toBits.toBitVec
  | .double, a, b =>
      (Float.ofBits ⟨a⟩ + Float.ofBits ⟨b⟩).toBits.toBitVec

/-- **Product** in the format's own rounding. -/
def mul : {p : Precision} → (a b : BitVec p.bits) → BitVec p.bits
  | .single, a, b =>
      (Float32.ofBits ⟨a⟩ * Float32.ofBits ⟨b⟩).toBits.toBitVec
  | .double, a, b =>
      (Float.ofBits ⟨a⟩ * Float.ofBits ⟨b⟩).toBits.toBitVec

end ClusterView.Precision
