import ClusterView.Reduction

/-!
# Operations on a datatype

What a datatype identifier names is written down three times: in the table of widths, in the
pre-check and in the fold. This module says it once more (`Datatype.kind?`) and shows that each
of the three agrees with it, on known and on unknown identifiers.

The pre-check tries an operation on default values, and the fold applies it to the values that
payloads read as. That is the same question, since an operation is defined on all operands of a
scalar or on none of them (`Scalar.isSome_apply`). So an operation that is supported computes
a function (`Scalar.supports_iff`).

## Sections
- §1: What an identifier names
- §2: Operations on all operands
- §3: The pre-check and the fold of a datatype
-/

namespace ClusterView

/-! ## §1 What an identifier names -/

namespace Datatype

/-- **Kind** of a known datatype. -/
inductive Kind where
  | byte
  | char
  | scalar (s : Scalar)
deriving DecidableEq, Repr

/-- Width of one element in bytes, where it is fixed. -/
def Kind.width? : Kind → Option Nat
  | .byte => none
  | .char => some 4
  | .scalar s => some s.bytes

/-- The kind of a datatype, if it is a known one. -/
def kind? : Datatype → Option Kind
  | .byte => some .byte
  | .char => some .char
  | .bool => some (.scalar .bool)
  | .int8 => some (.scalar (.signed .w8))
  | .int16 => some (.scalar (.signed .w16))
  | .int32 => some (.scalar (.signed .w32))
  | .int64 => some (.scalar (.signed .w64))
  | .uint8 => some (.scalar (.unsigned .w8))
  | .uint16 => some (.scalar (.unsigned .w16))
  | .uint32 => some (.scalar (.unsigned .w32))
  | .uint64 => some (.scalar (.unsigned .w64))
  | .float => some (.scalar (.float .single))
  | .double => some (.scalar (.float .double))
  | _ => none

/-- **Widths** are those of the kinds. -/
theorem width?_eq (datatype : Datatype) :
    datatype.width? = datatype.kind?.bind Kind.width? := by
  fun_cases kind? datatype
  -- the last case is an identifier that is none of the known ones
  case case14 => simp [width?, *]
  all_goals rfl

/-- A datatype that names a scalar has the width that the scalar is read with. -/
theorem width_of_scalar {datatype : Datatype} {s : Scalar}
    (h : datatype.kind? = some (.scalar s)) : datatype.width? = some s.bytes := by
  rw [width?_eq, h]
  rfl

/-- **Right width**: a payload of a scalar's datatype is one that the scalar is read from. -/
theorem width_eq_length_iff {datatype : Datatype} {s : Scalar}
    (h : datatype.kind? = some (.scalar s)) {part : Bytes} :
    datatype.width? = some part.length ↔ part.length = s.bytes := by
  rw [width_of_scalar h, Option.some_inj, eq_comm]

end Datatype

/-! ## §2 Operations on all operands -/

namespace Scalar

theorem isSome_applyWords {n : Nat} (below : BitVec n → BitVec n → Bool) (op : Operation)
    (a b a' b' : BitVec n) :
    (applyWords below op a b).isSome = (applyWords below op a' b').isSome := by
  fun_cases applyWords below op a b
  -- the last case is an operation that words do not have, and so in the two tables below
  case case11 => simp [applyWords, *]
  all_goals rfl

theorem isSome_applyFloats {p : Precision} (op : Operation) (a b a' b' : BitVec p.bits) :
    (applyFloats op a b).isSome = (applyFloats op a' b').isSome := by
  fun_cases applyFloats op a b
  case case5 => simp [applyFloats, *]
  all_goals rfl

theorem isSome_applyTruths (op : Operation) (a b a' b' : Bool) :
    (applyTruths op a b).isSome = (applyTruths op a' b').isSome := by
  fun_cases applyTruths op a b
  case case4 => simp [applyTruths, *]
  all_goals rfl

/-- **Definedness does not depend on the operands**. -/
theorem isSome_apply (s : Scalar) (op : Operation) (a b a' b' : s.Value) :
    (s.apply op a b).isSome = (s.apply op a' b').isSome := by
  cases s with
  | bool => exact isSome_applyTruths op a b a' b'
  | signed w => exact isSome_applyWords BitVec.slt op a b a' b'
  | unsigned w => exact isSome_applyWords BitVec.ult op a b a' b'
  | float p => exact isSome_applyFloats op a b a' b'

/-- **Computed function**: on whatever operands, the operation is defined and comes to this. -/
def Computes (s : Scalar) (op : Operation) (combine : s.Value → s.Value → s.Value) : Prop :=
  ∀ a b, s.apply op a b = some (combine a b)

/-- **What is supported** on default values computes a function of all of them. -/
theorem supports_iff {s : Scalar} {op : Operation} :
    s.supports op = true ↔ ∃ combine, s.Computes op combine := by
  constructor
  · intro h
    have hsome : ∀ a b, (s.apply op a b).isSome = true := by
      intro a b
      rw [s.isSome_apply op a b s.default s.default]
      exact h
    exact ⟨fun a b => (s.apply op a b).get (hsome a b), fun a b => (Option.some_get _).symm⟩
  · rintro ⟨combine, hcombine⟩
    exact Option.isSome_of_eq_some (hcombine s.default s.default)

end Scalar

/-! ## §3 The pre-check and the fold of a datatype -/

namespace Reduction

variable {datatype : Datatype} {op : Operation}

/-- **The pre-check** by the kind of the datatype. -/
theorem check_eq (datatype : Datatype) (op : Operation) :
    check datatype op = match datatype.kind? with
      | none => .error (.unsupportedDatatype datatype)
      | some (.scalar s) =>
          if s.supports op then .ok () else .error (.unsupportedOp op datatype)
      | some _ => .error (.unsupportedOp op datatype) := by
  fun_cases Datatype.kind? datatype
  case case14 => simp [check, bind, Except.bind, *]
  all_goals rfl

/-- **What passes the pre-check** is a scalar's datatype with an operation that computes a
function. -/
theorem check_eq_ok_iff : check datatype op = .ok () ↔
    ∃ s combine, datatype.kind? = some (.scalar s) ∧ s.Computes op combine := by
  rw [check_eq]
  constructor
  · intro h
    split at h
    · cases h
    · rename_i s hkind
      split at h
      · rename_i hsupports
        obtain ⟨combine, hcombine⟩ := Scalar.supports_iff.mp hsupports
        exact ⟨s, combine, hkind, hcombine⟩
      · cases h
    · cases h
  · rintro ⟨s, combine, hkind, hcombine⟩
    simp only [hkind, Scalar.supports_iff.mpr ⟨combine, hcombine⟩, if_true]

/-- The pre-check refuses the datatype or the operation. -/
theorem check_eq_error {e : CommError} (h : check datatype op = .error e) :
    e = .unsupportedDatatype datatype ∨ e = .unsupportedOp op datatype := by
  rw [check_eq] at h
  split at h
  · cases h
    exact Or.inl rfl
  · split at h
    · cases h
    · cases h
      exact Or.inr rfl
  · cases h
    exact Or.inr rfl

/-- **The fold** of what has passed the pre-check is that of the scalar. -/
theorem fold_eq_foldScalar {s : Scalar} (hkind : datatype.kind? = some (.scalar s))
    (hcheck : check datatype op = .ok ()) (parts : List Bytes) :
    fold datatype op parts = foldScalar datatype op s parts := by
  simp only [fold, hcheck, bind, Except.bind]
  revert hkind
  -- the fold goes through the identifiers by itself, and meets each scalar where it is named
  fun_cases Datatype.kind? datatype <;> intro hkind <;> cases hkind <;> rfl

end Reduction

end ClusterView
