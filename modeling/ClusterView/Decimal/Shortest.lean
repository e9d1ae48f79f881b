/-!
# Shortest decimals

The shortest decimal of a binary floating-point number is the one with the fewest digits
among those that lie nearer to this number than to any other; of several such decimals
with equally many digits it is the nearest one. Whether a decimal half-way to a
neighbour counts depends on the parity of the significand, since a tie goes to the even
one.

For each number of digits only the two neighbours of the value on that decimal grid can
qualify, so it is enough to look at those.

## Sections
- §1: Decimals
- §2: Values and their intervals
- §3: Without trailing zeros
- §4: The search
-/

namespace ClusterView

/-! ## §1 Decimals -/

/-- **Decimal**: `digits · 10 ^ exponent`. -/
structure Decimal where
  /-- The digits, read as one number. -/
  digits : Nat
  exponent : Int
deriving DecidableEq, Repr

namespace Decimal

/-! ## §2 Values and their intervals -/

structure Fraction where
  num : Nat
  den : Nat
deriving DecidableEq, Repr

/-- The fraction `n · 2 ^ exponent`. -/
def Fraction.ofBinary (n : Nat) (exponent : Int) : Fraction :=
  ⟨n * Nat.pow 2 exponent.toNat, Nat.pow 2 (-exponent).toNat⟩

/-- **Interval** of the reals that round to a value. -/
structure Interval where
  value : Fraction
  /-- Half-way to the neighbour below. -/
  low : Fraction
  /-- Half-way to the neighbour above. -/
  high : Fraction
  /-- Do the ends belong to the interval? -/
  closed : Bool
deriving DecidableEq, Repr

/-- The interval of `significand · 2 ^ exponent`. The neighbour below is half as far away
where the exponent changes. -/
def Interval.ofBinary (significand : Nat) (exponent : Int) (atBoundary : Bool) : Interval :=
  -- in quarters of the last place, so that both ends are whole numbers
  { value := .ofBinary (4 * significand) (exponent - 2)
    low := .ofBinary (4 * significand - (if atBoundary then 1 else 2)) (exponent - 2)
    high := .ofBinary (4 * significand + 2) (exponent - 2)
    closed := significand % 2 == 0 }

/-- A decimal as a fraction. -/
def toFraction (d : Decimal) : Fraction :=
  ⟨d.digits * Nat.pow 10 d.exponent.toNat, Nat.pow 10 (-d.exponent).toNat⟩

/-- Order of fractions. -/
def Fraction.below (a b : Fraction) : Bool := a.num * b.den < b.num * a.den

/-- Does a fraction lie in the interval? -/
def Interval.contains (i : Interval) (x : Fraction) : Bool :=
  if i.closed then !x.below i.low && !i.high.below x else i.low.below x && x.below i.high

/-- Distance between two fractions, as a fraction. -/
def Fraction.distance (a b : Fraction) : Fraction :=
  let x := a.num * b.den
  let y := b.num * a.den
  ⟨if x < y then y - x else x - y, a.den * b.den⟩

/-! ## §3 Without trailing zeros -/

/-- The number without trailing zeros, and how many there were, at most `most`. -/
def stripZeros : (most : Nat) → Nat → Nat × Nat
  | 0, n => (n, 0)
  | most + 1, n =>
      if n % 10 = 0 ∧ n ≠ 0 then
        let (m, count) := stripZeros most (n / 10)
        (m, count + 1)
      else (n, 0)

/-- The same decimal without trailing zeros. -/
def reduced (d : Decimal) : Decimal :=
  let (digits, count) := stripZeros 20 d.digits
  ⟨digits, d.exponent + count⟩

/-! ## §4 The search -/

/-- The power of ten just above a fraction. -/
def magnitude (x : Fraction) : Int :=
  if x.den ≤ x.num then
    ((Nat.toDigits 10 (x.num / x.den)).length : Int)
  else
    -- no positive double is below 10 to the power of -324
    match (List.range 400).find? fun j => x.den ≤ x.num * Nat.pow 10 j with
    | some j => 1 - (j : Int)
    | none => 0

/-- Of two decimals in the interval the nearer one, the even one if both are as near; or
whichever lies in the interval. -/
def Interval.choose (i : Interval) (below above : Decimal) : Option Decimal :=
  if i.contains below.toFraction then
    if i.contains above.toFraction then
      let down := i.value.distance below.toFraction
      let up := i.value.distance above.toFraction
      if down.below up then some below
      else if up.below down then some above
      -- a tie goes to the even digit
      else if below.digits % 2 = 0 then some below else some above
    else some below
  else if i.contains above.toFraction then some above
  else none

/-- The decimal with a number of digits that lies in the interval. -/
def Interval.onGrid (i : Interval) (count : Nat) : Option Decimal :=
  let exponent := magnitude i.value - count
  let scaled : Fraction :=
    ⟨i.value.num * Nat.pow 10 (-exponent).toNat, i.value.den * Nat.pow 10 exponent.toNat⟩
  -- rounded down, so this decimal and the next one are the two neighbours
  let digits := scaled.num / scaled.den
  i.choose ⟨digits, exponent⟩ ⟨digits + 1, exponent⟩

/-- **Shortest decimal** in an interval, among those of at most seventeen digits. -/
def Interval.shortest (i : Interval) : Option Decimal :=
  ((List.range 17).findSome? fun n => i.onGrid (n + 1)).map Decimal.reduced

end Decimal

end ClusterView
