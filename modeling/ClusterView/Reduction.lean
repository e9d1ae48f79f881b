import ClusterView.Bytes
import ClusterView.CommError
import ClusterView.Precision

/-!
# Reductions over payloads

A reduction combines one payload of every participant, in rank order. Only scalars
can be reduced: characters and raw bytes can be gathered but have no operation, and
an unknown datatype is refused as such.

An operation is applied to two scalars and answers nothing where it is not defined. The
pre-check has no payload yet and tries the operation on default values; the fold then reads
each payload, refuses one of the wrong width, and combines from the left. Each of the two
finds the scalar of a datatype by a table of its own.

## Sections
- §1: Scalars on the wire
- §2: Applying an operation
- §3: The pre-check
- §4: The fold
-/

namespace ClusterView

namespace Scalar

/-! ## §1 Scalars on the wire -/

/-- **Reading** a payload of the scalar's width: the number written in base 256, least
significant digit first. A truth value is any byte, and only zero is false. -/
def read : (s : Scalar) → Bytes → s.Value
  | .bool, bytes => bytes.toNat != 0
  | .signed w, bytes => BitVec.ofNat w.bits bytes.toNat
  | .unsigned w, bytes => BitVec.ofNat w.bits bytes.toNat
  | .float p, bytes => BitVec.ofNat p.bits bytes.toNat

/-- **Writing** a scalar as a payload of its width. -/
def write : (s : Scalar) → s.Value → Bytes
  | .bool, b => Bytes.ofNat 1 b.toNat
  | .signed w, x => Bytes.ofNat w.bytes x.toNat
  | .unsigned w, x => Bytes.ofNat w.bytes x.toNat
  | .float p, x => Bytes.ofNat p.bytes x.toNat

/-- **Default value**, which stands for any other where there is no payload to read. -/
def default : (s : Scalar) → s.Value
  | .bool => false
  | .signed _ => 0
  | .unsigned _ => 0
  | .float _ => 0

/-! ## §2 Applying an operation -/

/-- The word for a truth value: one or zero. -/
def ofTruth {n : Nat} (b : Bool) : BitVec n := if b then 1 else 0

/-- **On integers** every known operation is defined. Sum and product wrap around; the
logical operations take any non-zero word as true and answer one or zero. The order `below`
tells signed from unsigned words. -/
def applyWords {n : Nat} (below : BitVec n → BitVec n → Bool) :
    Operation → BitVec n → BitVec n → Option (BitVec n)
  -- of two equal words it makes no difference which one stays
  | .min, a, b => some (if below b a then b else a)
  | .max, a, b => some (if below a b then b else a)
  | .sum, a, b => some (a + b)
  | .prod, a, b => some (a * b)
  | .land, a, b => some (ofTruth (a != 0 && b != 0))
  | .lor, a, b => some (ofTruth (a != 0 || b != 0))
  | .lxor, a, b => some (ofTruth ((a != 0) != (b != 0)))
  | .band, a, b => some (a &&& b)
  | .bor, a, b => some (a ||| b)
  | .bxor, a, b => some (a ^^^ b)
  | _, _, _ => none

/-- **On floating-point numbers** the arithmetic operations are defined. -/
def applyFloats {p : Precision} :
    Operation → BitVec p.bits → BitVec p.bits → Option (BitVec p.bits)
  | .min, a, b => some (Precision.min a b)
  | .max, a, b => some (Precision.max a b)
  | .sum, a, b => some (Precision.add a b)
  | .prod, a, b => some (Precision.mul a b)
  | _, _, _ => none

/-- **On truth values** the logical operations are defined. -/
def applyTruths : Operation → Bool → Bool → Option Bool
  | .land, a, b => some (a && b)
  | .lor, a, b => some (a || b)
  | .lxor, a, b => some (a != b)
  | _, _, _ => none

/-- **Apply** an operation to two scalars, if it is defined. -/
def apply : (s : Scalar) → Operation → s.Value → s.Value → Option s.Value
  | .bool => applyTruths
  | .signed _ => applyWords BitVec.slt
  | .unsigned _ => applyWords BitVec.ult
  | .float _ => applyFloats

/-- **Is the operation supported?** It is tried on default values. -/
def supports (s : Scalar) (op : Operation) : Bool :=
  (s.apply op s.default s.default).isSome

end Scalar

namespace Reduction

/-! ## §3 The pre-check -/

/-- **Pre-check**: is the operation defined for the datatype? -/
def check (datatype : Datatype) (op : Operation) : Except CommError Unit := do
  let supported ←
    match datatype with
    | .bool => .ok (Scalar.bool.supports op)
    | .int8 => .ok ((Scalar.signed .w8).supports op)
    | .int16 => .ok ((Scalar.signed .w16).supports op)
    | .int32 => .ok ((Scalar.signed .w32).supports op)
    | .int64 => .ok ((Scalar.signed .w64).supports op)
    | .uint8 => .ok ((Scalar.unsigned .w8).supports op)
    | .uint16 => .ok ((Scalar.unsigned .w16).supports op)
    | .uint32 => .ok ((Scalar.unsigned .w32).supports op)
    | .uint64 => .ok ((Scalar.unsigned .w64).supports op)
    | .float => .ok ((Scalar.float .single).supports op)
    | .double => .ok ((Scalar.float .double).supports op)
    | .char | .byte => .ok false
    | other => .error (.unsupportedDatatype other)
  if supported then .ok () else .error (.unsupportedOp op datatype)

/-! ## §4 The fold -/

/-- One step of the fold: the payload must have the scalar's width; the first one is
taken as it is and every later one is combined with what came before. -/
def absorb (datatype : Datatype) (op : Operation) (s : Scalar) (before : Option s.Value)
    (part : Bytes) : Except CommError (Option s.Value) :=
  if part.length ≠ s.bytes then
    .error (.malformedPayload datatype part.length)
  else
    match before with
    | none => .ok (some (s.read part))
    | some previous =>
        match s.apply op previous (s.read part) with
        | some value => .ok (some value)
        | none => .error (.unsupportedOp op datatype)

/-- The fold over payloads of one scalar. An empty list has no result. -/
def foldScalar (datatype : Datatype) (op : Operation) (s : Scalar) (parts : List Bytes) :
    Except CommError Bytes := do
  match ← parts.foldlM (absorb datatype op s) none with
  | some value => .ok (s.write value)
  -- the fold of nothing is reported as an empty payload
  | none => .error (.malformedPayload datatype 0)

/-- **Fold**: the pre-check, then all payloads combined from the left. -/
def fold (datatype : Datatype) (op : Operation) (parts : List Bytes) : Except CommError Bytes := do
  check datatype op
  match datatype with
  | .bool => foldScalar datatype op .bool parts
  | .int8 => foldScalar datatype op (.signed .w8) parts
  | .int16 => foldScalar datatype op (.signed .w16) parts
  | .int32 => foldScalar datatype op (.signed .w32) parts
  | .int64 => foldScalar datatype op (.signed .w64) parts
  | .uint8 => foldScalar datatype op (.unsigned .w8) parts
  | .uint16 => foldScalar datatype op (.unsigned .w16) parts
  | .uint32 => foldScalar datatype op (.unsigned .w32) parts
  | .uint64 => foldScalar datatype op (.unsigned .w64) parts
  | .float => foldScalar datatype op (.float .single) parts
  | .double => foldScalar datatype op (.float .double) parts
  | other => .error (.unsupportedDatatype other)

end Reduction

end ClusterView
