import ClusterView.Bytes
import ClusterView.Datatype

/-!
# Elements

An element is a value that can take part in a typed collective: a scalar or a
character. Elements travel in the little-endian layout of their type, and a byte
sequence decodes only if it is exactly the layout of some value.

## Sections
- §1: Element types
- §2: Values
- §3: Codec
-/

namespace ClusterView

/-! ## §1 Element types -/

/-- **Element type**: a Unicode character or a scalar. -/
inductive ElementType where
  | char
  | scalar (s : Scalar)
deriving DecidableEq, Repr

namespace ElementType

/-- Every element type, in the order of the registry. -/
def all : List ElementType :=
  [ .scalar .bool, .char,
    .scalar (.signed .w8), .scalar (.signed .w16), .scalar (.signed .w32),
    .scalar (.signed .w64), .scalar (.signed .w128),
    .scalar (.unsigned .w8), .scalar (.unsigned .w16), .scalar (.unsigned .w32),
    .scalar (.unsigned .w64), .scalar (.unsigned .w128),
    .scalar (.float .single), .scalar (.float .double) ]

/-- The type's short name: a letter for the kind and the number of bits. -/
def text : ElementType → String
  | .char => "char"
  | .scalar .bool => "bool"
  | .scalar (.signed w) => s!"i{w.bits}"
  | .scalar (.unsigned w) => s!"u{w.bits}"
  | .scalar (.float p) => s!"f{p.bits}"

/-- Diagnostic form: the name with a capital letter. -/
def describe (t : ElementType) : String := t.text.capitalize

/-! ## §2 Values -/

/-- **Values** of an element type. -/
abbrev Value : ElementType → Type
  | .char => Char
  | .scalar s => s.Value

/-- Number of bytes of an encoded element. -/
def bytes : ElementType → Nat
  | .char => 4
  | .scalar s => s.bytes

end ElementType

/-! ## §3 Codec -/

namespace Element

/-- The bytes of a word, least significant first, cut out of the bits. -/
def encodeBits {n : Nat} (count : Nat) (x : BitVec n) : Bytes :=
  (List.range count).map fun i => ⟨x.extractLsb' (8 * i) 8⟩

/-- The word whose bytes these are, least significant first. -/
def decodeBits (n : Nat) : Bytes → BitVec n
  | [] => 0
  | b :: rest => b.toBitVec.setWidth n ||| (decodeBits n rest <<< 8)

/-- A word of `n` bits out of exactly `count` bytes. -/
def decodeWord (n count : Nat) (bytes : Bytes) : Option (BitVec n) :=
  if bytes.length = count then some (decodeBits n bytes) else none

/-- **Encoding** of an element. -/
def encode : (t : ElementType) → t.Value → Bytes
  | .char, c => encodeBits 4 c.val.toBitVec
  | .scalar .bool, b => [if b then 1 else 0]
  | .scalar (.signed w), x => encodeBits w.bytes x
  | .scalar (.unsigned w), x => encodeBits w.bytes x
  | .scalar (.float p), x => encodeBits p.bytes x

/-- The character with this number, if it is a Unicode scalar value. -/
def charOfNumber? (n : UInt32) : Option Char :=
  if h : n.isValidChar then some ⟨n, h⟩ else none

/-- **Decoding**: the element with this encoding, if there is one. A truth value is
one byte 0 or 1, a character is the number of a Unicode scalar value. -/
def decode : (t : ElementType) → Bytes → Option t.Value
  | .char, bytes => (decodeWord 32 4 bytes).bind fun n => charOfNumber? ⟨n⟩
  | .scalar .bool, bytes =>
      match bytes with
      -- stricter than the fold, for which every non-zero byte is true
      | [b] => if b = 0 then some false else if b = 1 then some true else none
      | _ => none
  | .scalar (.signed w), bytes => decodeWord w.bits w.bytes bytes
  | .scalar (.unsigned w), bytes => decodeWord w.bits w.bytes bytes
  | .scalar (.float p), bytes => decodeWord p.bits p.bytes bytes

end Element

end ClusterView
