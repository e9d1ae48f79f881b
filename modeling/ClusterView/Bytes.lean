/-!
# Bytes

Payloads are plain byte sequences. Numbers travel in little-endian order, least
significant byte first.

## Sections
- §1: Payloads and text
- §2: Little-endian numbers
-/

namespace ClusterView

/-! ## §1 Payloads and text -/

/-- **Bytes**: what travels between participants. -/
abbrev Bytes := List UInt8

namespace Bytes

/-- The UTF-8 bytes of a text. -/
def ofText (text : String) : Bytes := text.toUTF8.toList

/-- The text whose UTF-8 bytes these are, if they are well formed. -/
def toText? (bytes : Bytes) : Option String := String.fromUTF8? ⟨bytes.toArray⟩

/-! ## §2 Little-endian numbers -/

/-- **Digits in base 256**: the `count` low bytes of `n`, least significant first. -/
def ofNat : (count : Nat) → (n : Nat) → Bytes
  | 0, _ => []
  | count + 1, n => UInt8.ofNat (n % 256) :: ofNat count (n / 256)

/-- **Value in base 256** of bytes that come least significant first. -/
def toNat : Bytes → Nat
  | [] => 0
  | b :: rest => b.toNat + 256 * toNat rest

end Bytes

end ClusterView
