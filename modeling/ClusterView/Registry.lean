import ClusterView.ViewError

/-!
# Registry of element types

Which native datatype carries an element type, and which operators may reduce it.
The widest integers have no datatype. Integers take every operator, floating-point
numbers the arithmetic ones, truth values the logical ones, and characters can only
be gathered.

## Sections
- §1: Datatypes
- §2: Operations
-/

namespace ClusterView.Registry

/-! ## §1 Datatypes -/

/-- The datatype of each element type that has one. -/
def datatype? : ElementType → Option Datatype
  | .char => some .char
  | .scalar .bool => some .bool
  | .scalar (.signed .w8) => some .int8
  | .scalar (.signed .w16) => some .int16
  | .scalar (.signed .w32) => some .int32
  | .scalar (.signed .w64) => some .int64
  -- 128 bits are an element type, but have no datatype on the wire
  | .scalar (.signed .w128) => none
  | .scalar (.unsigned .w8) => some .uint8
  | .scalar (.unsigned .w16) => some .uint16
  | .scalar (.unsigned .w32) => some .uint32
  | .scalar (.unsigned .w64) => some .uint64
  | .scalar (.unsigned .w128) => none
  | .scalar (.float .single) => some .float
  | .scalar (.float .double) => some .double

def datatype (t : ElementType) : Except ViewError Datatype :=
  match datatype? t with
  | some d => .ok d
  | none => .error (.unsupportedType t)

/-! ## §2 Operations -/

/-- Operators that make sense for an element type. -/
def admits : ElementType → ReduceOp → Bool
  | .char, _ => false
  | .scalar .bool, op => op.isLogical
  | .scalar (.signed _), _ => true
  | .scalar (.unsigned _), _ => true
  | .scalar (.float _), op => op.isArithmetic

/-- **Is the operator registered?** Only for a type that has a datatype. -/
def isRegistered (t : ElementType) (op : ReduceOp) : Bool :=
  (datatype? t).isSome && admits t op

/-- **Operation lookup**: a type without a datatype is refused first, then an operator
that is not registered. -/
def operation (t : ElementType) (op : ReduceOp) : Except ViewError (Operation × Datatype) := do
  let d ← datatype t
  if isRegistered t op then
    .ok (op.operation, d)
  else
    .error (.unsupportedOperation t op)

end ClusterView.Registry
