import ClusterView.Describe

/-!
# Reduction operators and native operations

A reduction combines the elements of all participants with one of ten operators.
On the wire an operator is a numeric identifier; a number outside the table names
no operator.

## Sections
- §1: Operators
- §2: Operation identifiers
-/

namespace ClusterView

/-! ## §1 Operators -/

inductive ReduceOp where
  | min
  | max
  | sum
  | product
  | logicalAnd
  | logicalOr
  | logicalXor
  | bitAnd
  | bitOr
  | bitXor
deriving DecidableEq, Repr

namespace ReduceOp

/-- Every operator, in the order of the table. -/
def all : List ReduceOp :=
  [.min, .max, .sum, .product, .logicalAnd, .logicalOr, .logicalXor, .bitAnd, .bitOr, .bitXor]

/-- The operator's name. -/
def text : ReduceOp → String
  | .min => "min"
  | .max => "max"
  | .sum => "sum"
  | .product => "product"
  | .logicalAnd => "logical_and"
  | .logicalOr => "logical_or"
  | .logicalXor => "logical_xor"
  | .bitAnd => "bit_and"
  | .bitOr => "bit_or"
  | .bitXor => "bit_xor"

def describe : ReduceOp → String
  | .min => "Min"
  | .max => "Max"
  | .sum => "Sum"
  | .product => "Product"
  | .logicalAnd => "LogicalAnd"
  | .logicalOr => "LogicalOr"
  | .logicalXor => "LogicalXor"
  | .bitAnd => "BitAnd"
  | .bitOr => "BitOr"
  | .bitXor => "BitXor"

/-- Does the operator work on truth values? -/
def isLogical : ReduceOp → Bool
  | .logicalAnd | .logicalOr | .logicalXor => true
  | _ => false

/-- Does the operator work on every kind of number? -/
def isArithmetic : ReduceOp → Bool
  | .min | .max | .sum | .product => true
  | _ => false

end ReduceOp

/-! ## §2 Operation identifiers -/

/-- **Operation**: the numeric tag of a reduction operator. -/
structure Operation where
  raw : Int32
deriving DecidableEq, Repr

namespace Operation

instance : Ord Operation := ⟨fun a b => compare a.raw b.raw⟩

@[match_pattern] def min : Operation := ⟨1⟩
@[match_pattern] def max : Operation := ⟨2⟩
@[match_pattern] def sum : Operation := ⟨3⟩
@[match_pattern] def prod : Operation := ⟨4⟩
@[match_pattern] def land : Operation := ⟨5⟩
@[match_pattern] def lor : Operation := ⟨6⟩
@[match_pattern] def lxor : Operation := ⟨7⟩
@[match_pattern] def band : Operation := ⟨8⟩
@[match_pattern] def bor : Operation := ⟨9⟩
@[match_pattern] def bxor : Operation := ⟨10⟩

/-- The name of an operation; all unknown ones share one. -/
def text : Operation → String
  | .min => "min"
  | .max => "max"
  | .sum => "sum"
  | .prod => "prod"
  | .land => "land"
  | .lor => "lor"
  | .lxor => "lxor"
  | .band => "band"
  | .bor => "bor"
  | .bxor => "bxor"
  | _ => "unknown"

def describe (o : Operation) : String :=
  Describe.wrapped "NativeOp" o.raw.toInt.repr

end Operation

/-- **Identifier** of an operator. -/
def ReduceOp.operation : ReduceOp → Operation
  | .min => .min
  | .max => .max
  | .sum => .sum
  | .product => .prod
  | .logicalAnd => .land
  | .logicalOr => .lor
  | .logicalXor => .lxor
  | .bitAnd => .band
  | .bitOr => .bor
  | .bitXor => .bxor

end ClusterView
