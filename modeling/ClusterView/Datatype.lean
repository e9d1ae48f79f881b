import ClusterView.Describe

/-!
# Scalars and native datatypes

A communicator carries payloads tagged with a numeric datatype identifier. The
known identifiers name raw bytes, characters and the scalars: truth values,
integers of a fixed width, and binary floating-point numbers. Any other number is
a datatype nobody knows.

## Sections
- §1: Widths and scalars
- §2: Datatype identifiers
- §3: Width and name
-/

namespace ClusterView

/-! ## §1 Widths and scalars -/

inductive Width where
  | w8
  | w16
  | w32
  | w64
  | w128
deriving DecidableEq, Repr

def Width.bytes : Width → Nat
  | .w8 => 1
  | .w16 => 2
  | .w32 => 4
  | .w64 => 8
  | .w128 => 16

def Width.bits (w : Width) : Nat := 8 * w.bytes

/-- **Floating-point precision**: the two common binary interchange formats. -/
inductive Precision where
  | single
  | double
deriving DecidableEq, Repr

def Precision.bytes : Precision → Nat
  | .single => 4
  | .double => 8

def Precision.bits (p : Precision) : Nat := 8 * p.bytes

/-- **Scalar**: a fixed-width type that arithmetic or logic is defined on. -/
inductive Scalar where
  | bool
  | signed (w : Width)
  | unsigned (w : Width)
  | float (p : Precision)
deriving DecidableEq, Repr

namespace Scalar

/-- Number of bytes of one element. -/
def bytes : Scalar → Nat
  | .bool => 1
  | .signed w => w.bytes
  | .unsigned w => w.bytes
  | .float p => p.bytes

/-- **Values**: a truth value, or the bits of a number. A floating-point value is
its bit pattern, so that every not-a-number pattern is a value of its own. -/
abbrev Value : Scalar → Type
  | .bool => Bool
  | .signed w => BitVec w.bits
  | .unsigned w => BitVec w.bits
  | .float p => BitVec p.bits

end Scalar

/-! ## §2 Datatype identifiers -/

/-- **Datatype**: the numeric tag of a payload's element type. -/
structure Datatype where
  raw : Int32
deriving DecidableEq, Repr

namespace Datatype

instance : Ord Datatype := ⟨fun a b => compare a.raw b.raw⟩

/-- Opaque bytes; a payload of them may have any length. -/
@[match_pattern] def byte : Datatype := ⟨1⟩

/-- A Unicode scalar value in four bytes. -/
@[match_pattern] def char : Datatype := ⟨2⟩

/-- A truth value in one byte. -/
@[match_pattern] def bool : Datatype := ⟨3⟩

@[match_pattern] def int8 : Datatype := ⟨10⟩
@[match_pattern] def int16 : Datatype := ⟨11⟩
@[match_pattern] def int32 : Datatype := ⟨12⟩
@[match_pattern] def int64 : Datatype := ⟨13⟩
@[match_pattern] def uint8 : Datatype := ⟨20⟩
@[match_pattern] def uint16 : Datatype := ⟨21⟩
@[match_pattern] def uint32 : Datatype := ⟨22⟩
@[match_pattern] def uint64 : Datatype := ⟨23⟩
@[match_pattern] def float : Datatype := ⟨30⟩
@[match_pattern] def double : Datatype := ⟨31⟩

/-! ## §3 Width and name -/

/-- **Width** of one element in bytes, by a table of its own. Bytes have no fixed width, nor
has an unknown datatype. -/
def width? : Datatype → Option Nat
  | .bool | .int8 | .uint8 => some 1
  | .int16 | .uint16 => some 2
  | .char | .int32 | .uint32 | .float => some 4
  | .int64 | .uint64 | .double => some 8
  | _ => none

/-- The name of a datatype; all unknown ones share one. -/
def text : Datatype → String
  | .byte => "byte"
  | .char => "char"
  | .bool => "bool"
  | .int8 => "int8"
  | .int16 => "int16"
  | .int32 => "int32"
  | .int64 => "int64"
  | .uint8 => "uint8"
  | .uint16 => "uint16"
  | .uint32 => "uint32"
  | .uint64 => "uint64"
  | .float => "float"
  | .double => "double"
  | _ => "unknown"

def describe (d : Datatype) : String :=
  Describe.wrapped "NativeDatatype" d.raw.toInt.repr

end Datatype

end ClusterView
