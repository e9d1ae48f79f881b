import ClusterView.Datatype
import ClusterView.Decimal.Shortest
import ClusterView.Json.Token

/-!
# JSON numbers

A number is an integer if it is written without point and exponent and fits 64 bits, with
or without sign; otherwise it is a double. A double is found from the digits that fit 64
bits, scaled by one power of ten. In print a double has its shortest digits, positional
up to sixteen places and with an exponent beyond.

## Sections
- §1: Numbers
- §2: Reading integers
- §3: Reading doubles
- §4: Printing
-/

namespace ClusterView.Json

/-! ## §1 Numbers -/

/-- **Number**: a natural number, a negative integer, or the bits of a finite double. -/
inductive Number where
  | natural (n : UInt64)
  | negative (n : Int64)
  | double (bits : UInt64)
deriving DecidableEq, Repr

/-! ## §2 Reading integers -/

/-- Append digits to a number as long as it fits 64 bits; the digits that are left over
come second. -/
def absorbDigits (n : Nat) : List Nat → Nat × List Nat
  | [] => (n, [])
  | d :: rest => if 10 * n + d < UInt64.size then absorbDigits (10 * n + d) rest else (n, d :: rest)

/-- The number that digits stand for. -/
def valueOfDigits (digits : List Nat) : Nat := digits.foldl (fun n d => 10 * n + d) 0

/-! ## §3 Reading doubles -/

/-- A power of ten as a double. -/
def powerOfTen (n : Nat) : Float := Float.ofScientific 1 false n

/-- Scale a double down by `10 ^ places`, in steps of at most 308 places. -/
def scaleDown : (steps : Nat) → Float → (places : Nat) → Float
  | 0, x, _ => x
  | steps + 1, x, places =>
      if places ≤ 308 then x / powerOfTen places
      else scaleDown steps (x / powerOfTen 308) (places - 308)

/-- Scale a double by a power of ten. What exceeds the range has no value. A number below
2 ^ 64 vanishes within three steps of 308 places. -/
def scale (x : Float) (exponent : Int) : Option Float :=
  if exponent < 0 then some (scaleDown 3 x (-exponent).toNat)
  else if exponent ≤ 308 then
    let y := x * powerOfTen exponent.toNat
    if y.isInf then none else some y
  else if x == 0 then some x
  else none

/-- The exponent as written; nothing if it needs more than 31 bits. -/
def NumberText.writtenExponent (n : NumberText) : Option Int :=
  match n.exponent with
  | none => some 0
  | some (negative, digits) =>
      let value := valueOfDigits digits
      if value < Nat.pow 2 31 then some (if negative then -(value : Int) else value) else none

/-- A number as a double: the digits that fit 64 bits, times a power of ten. -/
def NumberText.magnitude (n : NumberText) : Option Float :=
  let (whole, moreWhole) := absorbDigits 0 n.whole
  let (significand, moreFraction) := absorbDigits whole n.fraction
  -- digits that do not fit are dropped: before the point they move it, behind it they do not
  let shift : Int := moreWhole.length - (n.fraction.length - moreFraction.length : Nat)
  match n.writtenExponent with
  | some exponent => scale (UInt64.ofNat significand).toFloat (shift + exponent)
  | none =>
      -- an exponent that is out of reach makes zero, or what exceeds the range
      if significand = 0 ∨ (n.exponent.map (·.1)) = some true then some 0 else none

/-- A double with the sign of the text. -/
def NumberText.toDouble (n : NumberText) : Option Number :=
  n.magnitude.map fun x => .double (if n.negative then -x else x).toBits

/-- Is the number written without point and exponent? -/
def NumberText.isInteger (n : NumberText) : Bool := n.fraction.isEmpty && n.exponent.isNone

/-- **Value** of a number, if it is in range. A negative zero is a double. -/
def Number.ofText (n : NumberText) : Option Number :=
  let value := valueOfDigits n.whole
  if n.isInteger then
    if !n.negative then
      if value < UInt64.size then some (.natural (UInt64.ofNat value)) else n.toDouble
    -- the least integer has no positive counterpart
    else if 0 < value ∧ value ≤ Nat.pow 2 63 then some (.negative (Int64.ofInt (-(value : Int))))
    else n.toDouble
  else n.toDouble

/-! ## §4 Printing -/

/-- The shortest decimal of a positive finite double. -/
def shortestOfDouble (bits : UInt64) : Option Decimal :=
  let fraction := bits.toNat % Nat.pow 2 52
  let exponent : Nat := bits.toNat / Nat.pow 2 52 % Nat.pow 2 11
  -- exponent zero stands for the subnormal numbers, which have no leading one
  let significand := if exponent = 0 then fraction else fraction + Nat.pow 2 52
  let power : Int := (if exponent = 0 then 1 else (exponent : Int)) - (1075 : Int)
  (Decimal.Interval.ofBinary significand power (fraction == 0 && 1 < exponent)).shortest

/-- An exponent, with its sign. -/
def exponentText (exponent : Int) : String :=
  if exponent < 0 then "e" ++ exponent.repr else "e+" ++ exponent.repr

/-- Layout of a decimal: positional if the point falls within the first sixteen places or
at most four zeros follow it, and with an exponent otherwise. -/
def layoutDecimal (d : Decimal) : String :=
  let digits := Nat.toDigits 10 d.digits
  let length : Int := digits.length
  let point := length + d.exponent
  if 0 ≤ d.exponent ∧ point ≤ 16 then
    String.ofList (digits ++ List.replicate d.exponent.toNat '0') ++ ".0"
  else if 0 < point ∧ point ≤ 16 then
    String.ofList (digits.take point.toNat ++ '.' :: digits.drop point.toNat)
  else if -5 < point ∧ point ≤ 0 then
    "0." ++ String.ofList (List.replicate (-point).toNat '0' ++ digits)
  else if digits.length = 1 then
    String.ofList digits ++ exponentText (point - 1)
  else
    String.ofList (digits.take 1) ++ "." ++ String.ofList (digits.drop 1) ++
      exponentText (point - 1)

def doubleText (bits : UInt64) : String :=
  let sign := if bits.toNat / Nat.pow 2 63 = 1 then "-" else ""
  let magnitude := UInt64.ofNat (bits.toNat % Nat.pow 2 63)
  if magnitude = 0 then sign ++ "0.0"
  else
    match shortestOfDouble magnitude with
    | some d => sign ++ layoutDecimal d
    | none => "null"

def Number.text : Number → String
  | .natural n => n.toNat.repr
  | .negative n => n.toInt.repr
  | .double bits => doubleText bits

end ClusterView.Json
