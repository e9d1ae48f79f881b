import ClusterView.Proofs.Codec
import ClusterView.Proofs.Dispatch
import ClusterView.Registry

/-!
# Folds of typed elements

The registry says which operators an element type may be reduced with, and the fold applies
operations of its own, known by numeric identifiers. This module says what an operator
means, by the numbers that words stand for, and shows that every registered operator
arrives at the fold with that meaning, and that the fold supports no other operation. The
fold of payloads is then the combination of their values from the left, and it fails where
there are no payloads or one has the wrong width.

## Sections
- §1: What operators mean
- §2: From the registry to the fold
- §3: The fold of payloads
- §4: What a fold comes to
-/

namespace ClusterView

/-! ## §1 What operators mean -/

/-- **Operator on words**, by the numbers that they stand for. A sum or product is the word
of the number's residue, and a logical operator answers the word of a truth value. -/
def wordOperator {n : Nat} (number : BitVec n → Int) : ReduceOp → BitVec n → BitVec n → BitVec n
  | .min, a, b => if number a ≤ number b then a else b
  | .max, a, b => if number b ≤ number a then a else b
  | .sum, a, b => BitVec.ofInt n (number a + number b)
  | .product, a, b => BitVec.ofInt n (number a * number b)
  | .logicalAnd, a, b => BitVec.ofInt n (if number a ≠ 0 ∧ number b ≠ 0 then 1 else 0)
  | .logicalOr, a, b => BitVec.ofInt n (if number a ≠ 0 ∨ number b ≠ 0 then 1 else 0)
  | .logicalXor, a, b => BitVec.ofInt n (if (number a ≠ 0 ↔ number b ≠ 0) then 0 else 1)
  | .bitAnd, a, b => a &&& b
  | .bitOr, a, b => a ||| b
  | .bitXor, a, b => a ^^^ b

/-- **Operator on scalars**. Where a scalar has no such operator, the left one stays. -/
def Scalar.operator : (s : Scalar) → ReduceOp → s.Value → s.Value → s.Value
  | .bool, .logicalAnd, a, b => a && b
  | .bool, .logicalOr, a, b => a || b
  | .bool, .logicalXor, a, b => a ^^ b
  | .signed _, op, a, b => wordOperator BitVec.toInt op a b
  | .unsigned _, op, a, b => wordOperator (fun x => (x.toNat : Int)) op a b
  | .float _, .min, a, b => Precision.min a b
  | .float _, .max, a, b => Precision.max a b
  | .float _, .sum, a, b => Precision.add a b
  | .float _, .product, a, b => Precision.mul a b
  | _, _, a, _ => a

/-- **Operator on elements**. Characters have none. -/
def ElementType.operator : (t : ElementType) → ReduceOp → t.Value → t.Value → t.Value
  | .char, _, a, _ => a
  | .scalar s, op, a, b => s.operator op a b

/-- **Combination from the left**. Of nothing there is none. -/
def combineLeft {α : Type} (f : α → α → α) : List α → Option α
  | [] => none
  | first :: rest => some (rest.foldl f first)

theorem combineLeft_isSome {α : Type} (f : α → α → α) {values : List α} (h : values ≠ []) :
    (combineLeft f values).isSome := by
  cases values with
  | nil => exact absurd rfl h
  | cons first rest => rfl

section Words

variable {n : Nat} {number : BitVec n → Int}

/-- The operation on words means the same, if its order is that of the numbers. -/
theorem applyWords_operation {below : BitVec n → BitVec n → Bool}
    (hbelow : ∀ a b, below a b = true ↔ number a < number b)
    (hword : ∀ a, BitVec.ofInt n (number a) = a) (hzero : number 0 = 0) (op : ReduceOp)
    (a b : BitVec n) :
    Scalar.applyWords below op.operation a b = some (wordOperator number op a b) := by
  -- words with the same number are the same, so the truth of a word is that of its number
  have hinj : ∀ a b, number a = number b → a = b := by
    intro a b h
    rw [← hword a, ← hword b, h]
  have htruth : ∀ a, (a != 0) = decide (number a ≠ 0) := by
    intro a
    have hiff : a = 0 ↔ number a = 0 := by
      constructor
      · rintro rfl
        exact hzero
      · intro h
        exact hinj a 0 (h.trans hzero.symm)
    rw [Bool.eq_iff_iff, bne_iff_ne, decide_eq_true_eq, Ne, Ne, hiff]
  cases op with
  | min =>
    change some (if below b a then b else a) = some (if number a ≤ number b then a else b)
    by_cases hlt : number b < number a
    · rw [if_pos ((hbelow b a).mpr hlt), if_neg (Int.not_le.mpr hlt)]
    · rw [if_neg (mt (hbelow b a).mp hlt), if_pos (Int.not_lt.mp hlt)]
  | max =>
    change some (if below a b then b else a) = some (if number b ≤ number a then a else b)
    by_cases hlt : number a < number b
    · rw [if_pos ((hbelow a b).mpr hlt), if_neg (Int.not_le.mpr hlt)]
    · rw [if_neg (mt (hbelow a b).mp hlt), if_pos (Int.not_lt.mp hlt)]
  | sum =>
    change some (a + b) = _
    rw [wordOperator, BitVec.ofInt_add, hword, hword]
  | product =>
    change some (a * b) = _
    rw [wordOperator, BitVec.ofInt_mul, hword, hword]
  | logicalAnd =>
    change some (Scalar.ofTruth (a != 0 && b != 0)) = _
    simp only [wordOperator, Scalar.ofTruth, htruth]
    by_cases ha : number a = 0 <;> by_cases hb : number b = 0 <;> simp [ha, hb]
  | logicalOr =>
    change some (Scalar.ofTruth (a != 0 || b != 0)) = _
    simp only [wordOperator, Scalar.ofTruth, htruth]
    by_cases ha : number a = 0 <;> by_cases hb : number b = 0 <;> simp [ha, hb]
  | logicalXor =>
    change some (Scalar.ofTruth ((a != 0) != (b != 0))) = _
    simp only [wordOperator, Scalar.ofTruth, htruth]
    by_cases ha : number a = 0 <;> by_cases hb : number b = 0 <;> simp [ha, hb]
  | bitAnd | bitOr | bitXor => rfl

theorem applyWords_signed (op : ReduceOp) (a b : BitVec n) :
    Scalar.applyWords BitVec.slt op.operation a b = some (wordOperator BitVec.toInt op a b) := by
  apply applyWords_operation
  · intro a b
    exact BitVec.slt_iff_toInt_lt
  · intro a
    exact BitVec.ofInt_toInt
  · exact BitVec.toInt_zero

theorem applyWords_unsigned (op : ReduceOp) (a b : BitVec n) :
    Scalar.applyWords BitVec.ult op.operation a b =
      some (wordOperator (fun x => (x.toNat : Int)) op a b) := by
  apply applyWords_operation
  · intro a b
    rw [BitVec.ult_iff_toNat_lt, Int.ofNat_lt]
  · intro a
    rw [BitVec.ofInt_natCast, BitVec.ofNat_toNat, BitVec.setWidth_eq]
  · rfl

end Words

/-! ## §2 From the registry to the fold -/

namespace Registry

/-- The datatype of a scalar is known to the fold as that scalar. -/
theorem kind_of_datatype {s : Scalar} {datatype : Datatype}
    (h : datatype? (.scalar s) = some datatype) : datatype.kind? = some (.scalar s) := by
  rcases s with _ | (_ | _ | _ | _ | _) | (_ | _ | _ | _ | _) | (_ | _) <;> cases h <;> rfl

/-- A datatype has the width of its element type. -/
theorem width_of_datatype {t : ElementType} {datatype : Datatype}
    (h : datatype? t = some datatype) : datatype.width? = some t.bytes := by
  cases t with
  | char =>
    cases h
    rfl
  | scalar s => exact Datatype.width_of_scalar (kind_of_datatype h)

/-- An admitted operator has its meaning in the fold. -/
theorem computes_of_admits {s : Scalar} {op : ReduceOp} (h : admits (.scalar s) op = true) :
    s.Computes op.operation (s.operator op) := by
  intro a b
  rcases s with _ | w | w | p
  case bool => cases op <;> first | rfl | cases h
  case signed => exact applyWords_signed op a b
  case unsigned => exact applyWords_unsigned op a b
  case float => cases op <;> first | rfl | cases h

/-- An operation that is defined on words is an operator's. -/
theorem exists_of_isSome_applyWords {n : Nat} {below : BitVec n → BitVec n → Bool}
    {op : Operation} {a b : BitVec n} (h : (Scalar.applyWords below op a b).isSome = true) :
    ∃ o : ReduceOp, op = o.operation := by
  fun_cases Scalar.applyWords below op a b
  case case11 => simp [Scalar.applyWords, *] at h
  exacts [⟨.min, rfl⟩, ⟨.max, rfl⟩, ⟨.sum, rfl⟩, ⟨.product, rfl⟩, ⟨.logicalAnd, rfl⟩,
    ⟨.logicalOr, rfl⟩, ⟨.logicalXor, rfl⟩, ⟨.bitAnd, rfl⟩, ⟨.bitOr, rfl⟩, ⟨.bitXor, rfl⟩]

/-- An operation that is defined is an admitted operator's. -/
theorem exists_admits_of_isSome {s : Scalar} {op : Operation} {a b : s.Value}
    (h : (s.apply op a b).isSome = true) :
    ∃ o : ReduceOp, op = o.operation ∧ admits (.scalar s) o = true := by
  rcases s with _ | w | w | p
  case bool =>
    simp only [Scalar.apply] at h
    fun_cases Scalar.applyTruths op a b
    case case4 => simp [Scalar.applyTruths, *] at h
    exacts [⟨.logicalAnd, rfl, rfl⟩, ⟨.logicalOr, rfl, rfl⟩, ⟨.logicalXor, rfl, rfl⟩]
  case signed =>
    obtain ⟨o, ho⟩ := exists_of_isSome_applyWords h
    exact ⟨o, ho, rfl⟩
  case unsigned =>
    obtain ⟨o, ho⟩ := exists_of_isSome_applyWords h
    exact ⟨o, ho, rfl⟩
  case float =>
    simp only [Scalar.apply] at h
    fun_cases Scalar.applyFloats op a b
    case case5 => simp [Scalar.applyFloats, *] at h
    exacts [⟨.min, rfl, rfl⟩, ⟨.max, rfl, rfl⟩, ⟨.sum, rfl, rfl⟩, ⟨.product, rfl, rfl⟩]

/-- **What an operation computes** on a scalar is the meaning of an admitted operator. -/
theorem operator_of_computes {s : Scalar} {op : Operation}
    {combine : s.Value → s.Value → s.Value} (h : s.Computes op combine) :
    ∃ o : ReduceOp, op = o.operation ∧ admits (.scalar s) o = true ∧ combine = s.operator o := by
  obtain ⟨o, rfl, hadmits⟩ :=
    exists_admits_of_isSome (Option.isSome_of_eq_some (h s.default s.default))
  refine ⟨o, rfl, hadmits, ?_⟩
  funext a b
  exact Option.some.inj ((h a b).symm.trans (computes_of_admits hadmits a b))

/-- **Registered operators**: only scalars have any, and both identifiers lead to the
operator that was meant. -/
theorem operation_of_registered {t : ElementType} {op : ReduceOp}
    (h : isRegistered t op = true) :
    ∃ s datatype, t = .scalar s ∧ operation t op = .ok (op.operation, datatype) ∧
      datatype.kind? = some (.scalar s) ∧ s.Computes op.operation (s.operator op) := by
  obtain ⟨hsome, hadmits⟩ := Bool.and_eq_true_iff.mp h
  obtain ⟨datatype, hdatatype⟩ := Option.isSome_iff_exists.mp hsome
  cases t with
  | char =>
    -- characters have a datatype but no operator
    cases hadmits
  | scalar s =>
    refine ⟨s, datatype, rfl, ?_, kind_of_datatype hdatatype, computes_of_admits hadmits⟩
    simp only [operation, Registry.datatype, hdatatype]
    exact if_pos h

/-- **Refusal** of an operator that is not registered: the type is what is wrong, if it has
no datatype. -/
def refusal (t : ElementType) (op : ReduceOp) : ViewError :=
  if (datatype? t).isSome then .unsupportedOperation t op else .unsupportedType t

theorem operation_of_not_registered {t : ElementType} {op : ReduceOp}
    (h : isRegistered t op = false) : operation t op = .error (refusal t op) := by
  cases hdatatype : datatype? t with
  | none => simp [operation, datatype, refusal, hdatatype, bind, Except.bind]
  | some d => simp [operation, datatype, refusal, hdatatype, bind, Except.bind, h]

end Registry

/-! ## §3 The fold of payloads -/

namespace Reduction

section Payloads

variable {datatype : Datatype} {op : Operation} {s : Scalar}
  {combine : s.Value → s.Value → s.Value}

/-- A payload of the scalar's width is taken for the value that it reads as. -/
theorem absorb_of_length (hop : s.Computes op combine) (before : Option s.Value)
    {part : Bytes} (hpart : part.length = s.bytes) :
    absorb datatype op s before part =
      .ok (some (before.elim (s.read part) fun previous => combine previous (s.read part))) := by
  simp only [absorb, hpart, ne_eq, not_true_eq_false, if_false]
  cases before with
  | none => rfl
  | some previous => simp only [hop previous, Option.elim]

/-- After the first one, payloads are combined one by one. -/
theorem foldlM_absorb (hop : s.Computes op combine) (first : s.Value)
    {rest : List Bytes} (hrest : ∀ part ∈ rest, part.length = s.bytes) :
    rest.foldlM (absorb datatype op s) (some first) =
      .ok (some ((rest.map s.read).foldl combine first)) := by
  induction rest generalizing first with
  | nil => rfl
  | cons part rest ih =>
    rw [List.foldlM_cons, absorb_of_length hop _ (hrest part List.mem_cons_self)]
    exact ih _ fun other hother => hrest other (List.mem_cons_of_mem _ hother)

/-- **Fold of payloads** of the scalar's width: the combination from the left of the values
that they read as, as the fold writes it. -/
theorem fold_of_lengths (hkind : datatype.kind? = some (.scalar s))
    (hop : s.Computes op combine) {parts : List Bytes}
    (hparts : ∀ part ∈ parts, part.length = s.bytes) {value : s.Value}
    (hvalue : combineLeft combine (parts.map s.read) = some value) :
    fold datatype op parts = .ok (s.write value) := by
  have hcheck : check datatype op = .ok () := check_eq_ok_iff.mpr ⟨s, combine, hkind, hop⟩
  cases parts with
  | nil => cases hvalue
  | cons first rest =>
    injection hvalue with hvalue
    -- the first payload is taken as it is, and no combination is asked for
    have habsorb : (first :: rest).foldlM (absorb datatype op s) none = .ok (some value) := by
      rw [List.foldlM_cons, absorb_of_length hop _ (hparts first List.mem_cons_self), ← hvalue]
      exact foldlM_absorb hop _ fun other hother => hparts other (List.mem_cons_of_mem _ hother)
    rw [fold_eq_foldScalar hkind hcheck, foldScalar, habsorb]
    rfl

/-- Payloads of the scalar's width, at least one, have a fold: what they combine to. -/
theorem exists_fold (hkind : datatype.kind? = some (.scalar s))
    (hop : s.Computes op combine) {parts : List Bytes} (hne : parts ≠ [])
    (hparts : ∀ part ∈ parts, part.length = s.bytes) :
    ∃ value, combineLeft combine (parts.map s.read) = some value ∧
      fold datatype op parts = .ok (s.write value) := by
  have hmap : parts.map s.read ≠ [] := fun h => hne (List.map_eq_nil_iff.mp h)
  obtain ⟨value, hvalue⟩ := Option.isSome_iff_exists.mp (combineLeft_isSome combine hmap)
  exact ⟨value, hvalue, fold_of_lengths hkind hop hparts hvalue⟩

/-- **Fold of encoded elements**: their combination from the left, as the fold writes it. -/
theorem fold_encode (hkind : datatype.kind? = some (.scalar s))
    (hop : s.Computes op combine) (first : s.Value) (rest : List s.Value) :
    fold datatype op ((first :: rest).map (Element.encode (.scalar s))) =
      .ok (s.write (rest.foldl combine first)) := by
  have hread : s.read ∘ Element.encode (.scalar s) = id := funext (Element.read_encode s)
  apply fold_of_lengths hkind hop
  · intro part hpart
    obtain ⟨value, -, rfl⟩ := List.mem_map.mp hpart
    exact Element.length_encode (.scalar s) value
  · rw [List.map_map, hread, List.map_id, combineLeft]

end Payloads

/-! ## §4 What a fold comes to -/

section Outcomes

variable {datatype : Datatype} {op : Operation} {parts : List Bytes}

/-- What the pre-check refuses is not folded. -/
theorem fold_of_check_error {e : CommError} (h : check datatype op = .error e) :
    fold datatype op parts = .error e := by
  simp only [fold, h, bind, Except.bind]

/-- The fold of nothing is reported as an empty payload. -/
theorem fold_nil (h : check datatype op = .ok ()) :
    fold datatype op [] = .error (.malformedPayload datatype 0) := by
  obtain ⟨s, combine, hkind, -⟩ := check_eq_ok_iff.mp h
  rw [fold_eq_foldScalar hkind h]
  rfl

/-- A run over payloads of the right width goes through. -/
theorem foldlM_absorb_isOk {s : Scalar} {combine : s.Value → s.Value → s.Value}
    (hop : s.Computes op combine) (hparts : ∀ part ∈ parts, part.length = s.bytes) :
    ∃ result, parts.foldlM (absorb datatype op s) none = .ok result := by
  cases parts with
  | nil => exact ⟨none, rfl⟩
  | cons first rest =>
    rw [List.foldlM_cons, absorb_of_length hop none (hparts first List.mem_cons_self)]
    exact ⟨_, foldlM_absorb hop _ fun other hother => hparts other (List.mem_cons_of_mem _ hother)⟩

/-- **The first payload of the wrong width** is the one that is reported. -/
theorem fold_of_find? (h : check datatype op = .ok ()) {part : Bytes}
    (hfirst : parts.find? (fun part => datatype.width? ≠ some part.length) = some part) :
    fold datatype op parts = .error (.malformedPayload datatype part.length) := by
  obtain ⟨s, combine, hkind, hop⟩ := check_eq_ok_iff.mp h
  obtain ⟨hbad, before, after, rfl, hbefore⟩ := List.find?_eq_some_iff_append.mp hfirst
  simp only [ne_eq, Datatype.width_eq_length_iff hkind, decide_not, Bool.not_eq_true',
    decide_eq_false_iff_not, Bool.not_not, decide_eq_true_eq] at hbad hbefore
  obtain ⟨result, hresult⟩ : ∃ result, before.foldlM (absorb datatype op s) none = .ok result :=
    foldlM_absorb_isOk hop hbefore
  simp only [fold_eq_foldScalar hkind h, foldScalar, List.foldlM_append, List.foldlM_cons,
    hresult, absorb, ne_eq, if_pos hbad, bind, Except.bind]

/-- Payloads of the right width are folded, if there are any. -/
theorem fold_of_widths (h : check datatype op = .ok ()) (hsome : parts ≠ [])
    (hparts : ∀ part ∈ parts, datatype.width? = some part.length) :
    ∃ result, fold datatype op parts = .ok result := by
  obtain ⟨s, combine, hkind, hop⟩ := check_eq_ok_iff.mp h
  obtain ⟨value, -, hfold⟩ := exists_fold hkind hop hsome fun part hpart =>
    (Datatype.width_eq_length_iff hkind).mp (hparts part hpart)
  exact ⟨_, hfold⟩

theorem widths_of_find? (h : parts.find? (fun part => datatype.width? ≠ some part.length) = none) :
    ∀ part ∈ parts, datatype.width? = some part.length := by
  intro part hpart
  simpa using List.find?_eq_none.mp h part hpart

/-- **The fold succeeds** exactly on payloads of the right width, if there are any, of what the
pre-check lets pass. -/
theorem fold_isOk_iff :
    (∃ result, fold datatype op parts = .ok result) ↔ check datatype op = .ok () ∧ parts ≠ [] ∧
      ∀ part ∈ parts, datatype.width? = some part.length := by
  constructor
  · rintro ⟨result, hresult⟩
    cases h : check datatype op with
    | error e => cases hresult.symm.trans (fold_of_check_error h)
    | ok _ =>
      refine ⟨rfl, ?_, ?_⟩
      · rintro rfl
        cases hresult.symm.trans (fold_nil h)
      · cases hfirst : parts.find? fun part => datatype.width? ≠ some part.length with
        | some part => cases hresult.symm.trans (fold_of_find? h hfirst)
        | none => exact widths_of_find? hfirst
  · rintro ⟨h, hsome, hparts⟩
    exact fold_of_widths h hsome hparts

/-- What a fold comes to is a scalar as the fold writes it. -/
theorem fold_eq_ok {s : Scalar} {result : Bytes} (hcheck : check datatype op = .ok ())
    (hkind : datatype.kind? = some (.scalar s)) (h : fold datatype op parts = .ok result) :
    ∃ value, result = s.write value := by
  simp only [fold_eq_foldScalar hkind hcheck, foldScalar, bind, Except.bind] at h
  split at h
  · cases h
  · split at h
    · cases h
      exact ⟨_, rfl⟩
    · cases h

/-- What a fold comes to is a payload of the datatype. -/
theorem width_of_fold {result : Bytes} (hresult : fold datatype op parts = .ok result) :
    datatype.width? = some result.length := by
  obtain ⟨h, -, -⟩ := fold_isOk_iff.mp ⟨result, hresult⟩
  obtain ⟨s, combine, hkind, -⟩ := check_eq_ok_iff.mp h
  obtain ⟨value, rfl⟩ := fold_eq_ok h hkind hresult
  rw [Datatype.width_of_scalar hkind, Scalar.length_write]

end Outcomes

end Reduction

end ClusterView
