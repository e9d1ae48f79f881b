import ClusterView.Proofs.Folds
import Mathlib.Algebra.Group.Nat.Even
import Mathlib.Data.Int.Bitwise

/-!
# Reductions of integers

A payload of an integer datatype stands for a number, with or without a sign. The fold
combines words, two at a time and wrapping around; here its result is described by the
numbers alone: a sum or product that is reduced once, the least or greatest number, a word
bit by bit, or the truth of a statement about all numbers.

The operators of words are treated once for both kinds of numbers (`Numbering`): what one
more word does to a meaning (`Numbering.means_concat`), and from it what a whole fold comes
to (`Numbering.means_foldl`).

## Sections
- §1: Words as numbers
- §2: What a reduction means
- §3: Integer datatypes
- §4: The fold of integers
-/

namespace ClusterView

/-! ## §1 Words as numbers -/

/-- **Numbering** of the words with some number of bits, by numbers with or without a sign. -/
structure Numbering (n : Nat) where
  /-- The number that a word stands for. -/
  number : BitVec n → Int
  /-- The number that stands for all numbers with the same residue. -/
  wrap : Int → Int
  number_ofInt : ∀ v, number (BitVec.ofInt n v) = wrap v
  ofInt_number : ∀ x, BitVec.ofInt n (number x) = x
  wrap_zero : wrap 0 = 0
  wrap_one : 1 < n → wrap 1 = 1
  testBit_number : ∀ x, ∀ k < n, (number x).testBit k = x.getLsbD k

namespace Numbering

/-- The bits of a word that stands for a negative number are those of the number in two's
complement. -/
theorem testBit_toInt {n : Nat} (x : BitVec n) {k : Nat} (hk : k < n) :
    x.toInt.testBit k = x.getLsbD k := by
  rw [BitVec.toInt_eq_msb_cond]
  split
  · have hlt := x.isLt
    -- the number is minus one minus the word's complement
    have hnegative : (x.toNat : Int) - (2 ^ n : Nat) = Int.negSucc (2 ^ n - (x.toNat + 1)) := by
      omega
    rw [hnegative]
    show (!(2 ^ n - (x.toNat + 1)).testBit k) = _
    rw [Nat.testBit_two_pow_sub_succ hlt, BitVec.testBit_toNat]
    simp [hk]
  · exact BitVec.testBit_toNat x

/-- Words by their numbers in two's complement. -/
def signed (n : Nat) : Numbering n where
  number := BitVec.toInt
  wrap v := v.bmod (2 ^ n)
  number_ofInt := BitVec.toInt_ofInt
  ofInt_number _ := BitVec.ofInt_toInt
  wrap_zero := Int.zero_bmod
  wrap_one hn := by
    have hfour : 2 ^ 2 ≤ 2 ^ n := Nat.pow_le_pow_right (by decide) hn
    rw [Int.bmod_eq_of_le] <;> omega
  testBit_number x _ hk := testBit_toInt x hk

/-- Words by their numbers in base two. -/
def unsigned (n : Nat) : Numbering n where
  number x := x.toNat
  wrap v := v % (2 ^ n : Nat)
  number_ofInt v := by
    rw [BitVec.toNat_ofInt]
    exact Int.toNat_of_nonneg (Int.emod_nonneg v (Int.natCast_ne_zero.mpr (NeZero.ne (2 ^ n))))
  ofInt_number x := by
    rw [BitVec.ofInt_natCast, BitVec.ofNat_toNat, BitVec.setWidth_eq]
  wrap_zero := Int.zero_emod _
  wrap_one hn := by
    have hfour : 2 ^ 2 ≤ 2 ^ n := Nat.pow_le_pow_right (by decide) hn
    exact Int.emod_eq_of_lt (by decide) (by omega)
  testBit_number x k _ := BitVec.testBit_toNat x

section Words

variable {n : Nat} (N : Numbering n)

@[simp] theorem wrap_number (x : BitVec n) : N.wrap (N.number x) = N.number x := by
  rw [← N.number_ofInt, N.ofInt_number]

@[simp] theorem ofInt_wrap (v : Int) : BitVec.ofInt n (N.wrap v) = BitVec.ofInt n v := by
  rw [← N.number_ofInt, N.ofInt_number]

theorem number_injective : Function.Injective N.number :=
  Function.LeftInverse.injective N.ofInt_number

/-- Reducing a summand first does not change the reduced sum. -/
theorem wrap_wrap_add (v w : Int) : N.wrap (N.wrap v + w) = N.wrap (v + w) := by
  rw [← N.number_ofInt, BitVec.ofInt_add, N.ofInt_wrap, ← BitVec.ofInt_add, N.number_ofInt]

theorem wrap_wrap_mul (v w : Int) : N.wrap (N.wrap v * w) = N.wrap (v * w) := by
  rw [← N.number_ofInt, BitVec.ofInt_mul, N.ofInt_wrap, ← BitVec.ofInt_mul, N.number_ofInt]

/-- The word of a truth value stands for one or zero. -/
theorem number_truth (hn : 1 < n) (holds : Prop) [Decidable holds] :
    N.number (BitVec.ofInt n (if holds then 1 else 0)) = if holds then 1 else 0 := by
  rw [N.number_ofInt]
  split
  · exact N.wrap_one hn
  · exact N.wrap_zero

theorem number_min (a b : BitVec n) :
    N.number (wordOperator N.number .min a b) = min (N.number a) (N.number b) := by
  simp only [wordOperator, min_def]
  split <;> rfl

theorem number_max (a b : BitVec n) :
    N.number (wordOperator N.number .max a b) = max (N.number a) (N.number b) := by
  simp only [wordOperator]
  rw [max_comm, max_def]
  split <;> rfl

end Words

end Numbering

/-! ## §2 What a reduction means -/

/-- **One or zero**, for a statement about two numbers or more. A number that is alone is not
turned into a truth value. -/
def IsTruth (holds : Prop) (values : List Int) (result : Int) : Prop :=
  (values.length = 1 → values = [result]) ∧
    (2 ≤ values.length → holds ∧ result = 1 ∨ ¬ holds ∧ result = 0)

/-- **Meaning** of a reduction of numbers, for words with some number of bits. -/
def ReduceOp.Means (wrap : Int → Int) (bits : Nat) (values : List Int) (result : Int) :
    ReduceOp → Prop
  | .sum => result = wrap values.sum
  | .product => result = wrap values.prod
  | .min => result ∈ values ∧ ∀ v ∈ values, result ≤ v
  | .max => result ∈ values ∧ ∀ v ∈ values, v ≤ result
  | .bitAnd => ∀ k < bits, result.testBit k = true ↔ ∀ v ∈ values, v.testBit k = true
  | .bitOr => ∀ k < bits, result.testBit k = true ↔ ∃ v ∈ values, v.testBit k = true
  | .bitXor => ∀ k < bits, result.testBit k = true ↔ Odd (values.countP fun v => v.testBit k)
  | .logicalAnd => IsTruth (∀ v ∈ values, v ≠ 0) values result
  | .logicalOr => IsTruth (∃ v ∈ values, v ≠ 0) values result
  | .logicalXor => IsTruth (Odd (values.countP fun v => v ≠ 0)) values result

theorem IsTruth.singleton (holds : Prop) (v : Int) : IsTruth holds [v] v :=
  ⟨fun _ => rfl, fun h => absurd h (Nat.lt_irrefl 1)⟩

/-- One number more settles the truth anew. What was so far is true as a number exactly if the
statement held of it, also if it was a number alone. -/
theorem IsTruth.concat {holds : Prop} (holds' : Prop) {values : List Int}
    {result x result' : Int} [Decidable holds'] (h : IsTruth holds values result)
    (hne : values ≠ [])
    (halone : ∀ v, values = [v] → (holds ↔ v ≠ 0))
    (hresult : (holds ↔ result ≠ 0) → result' = if holds' then 1 else 0) :
    IsTruth holds' (values ++ [x]) result' := by
  have hlength : 0 < values.length := List.length_pos_iff.mpr hne
  -- the fold only sees the result so far, so it has to stand for the truth so far
  have htruth : holds ↔ result ≠ 0 := by
    rcases Nat.lt_or_ge 1 values.length with hmany | hone
    · rcases h.2 hmany with ⟨hholds, rfl⟩ | ⟨hnot, rfl⟩
      · exact ⟨fun _ => by decide, fun _ => hholds⟩
      · exact ⟨fun hholds => absurd hholds hnot, fun hzero => absurd rfl hzero⟩
    · exact halone result (h.1 (Nat.le_antisymm hone hlength))
  constructor
  · intro hone
    rw [List.length_append, List.length_singleton] at hone
    omega
  · intro _
    rw [hresult htruth]
    by_cases hholds : holds'
    · exact Or.inl ⟨hholds, if_pos hholds⟩
    · exact Or.inr ⟨hholds, if_neg hholds⟩

namespace Numbering

variable {n : Nat} (N : Numbering n)

/-- A word alone is its own reduction. -/
theorem means_singleton (op : ReduceOp) (x : BitVec n) :
    op.Means N.wrap n [N.number x] (N.number x) := by
  cases op with
  | sum => simp [ReduceOp.Means]
  | product => simp [ReduceOp.Means]
  | min | max => simp [ReduceOp.Means]
  | bitAnd | bitOr => simp [ReduceOp.Means]
  | bitXor =>
    intro k _
    cases hbit : (N.number x).testBit k <;> simp [hbit]
  | logicalAnd | logicalOr | logicalXor => exact IsTruth.singleton _ _

/-- **One number more** at the end of a list with an extreme one: the one of the two that comes
first in the order is the new extreme. -/
theorem extreme_concat (le : Int → Int → Prop) (htrans : ∀ u v w, le u v → le v w → le u w)
    {values : List Int} {a x m : Int} (h : a ∈ values ∧ ∀ v ∈ values, le a v)
    (hchoice : m = a ∨ m = x) (hold : le m a) (hnew : le m x) :
    m ∈ values ++ [x] ∧ ∀ v ∈ values ++ [x], le m v := by
  obtain ⟨hmem, hle⟩ := h
  constructor
  · rcases hchoice with rfl | rfl <;> simp [hmem]
  · intro v hv
    rcases List.mem_append.mp hv with hv | hv
    · exact htrans m a v hold (hle v hv)
    · exact List.mem_singleton.mp hv ▸ hnew

/-- **Step lemma**: one more word is taken into the meaning by the operator on words. -/
theorem means_concat (hn : 1 < n) {op : ReduceOp} {values : List Int} (hne : values ≠ [])
    {a : BitVec n} (h : op.Means N.wrap n values (N.number a)) (x : BitVec n) :
    op.Means N.wrap n (values ++ [N.number x])
      (N.number (wordOperator N.number op a x)) := by
  cases op with
  | sum =>
    have h : N.number a = N.wrap values.sum := h
    show N.number (BitVec.ofInt n _) = _
    rw [N.number_ofInt, h, N.wrap_wrap_add, List.sum_append, List.sum_singleton]
  | product =>
    have h : N.number a = N.wrap values.prod := h
    show N.number (BitVec.ofInt n _) = _
    rw [N.number_ofInt, h, N.wrap_wrap_mul, List.prod_append, List.prod_singleton]
  | min =>
    rw [N.number_min]
    exact extreme_concat (· ≤ ·) (fun _ _ _ => le_trans) h (min_choice _ _) (min_le_left _ _)
      (min_le_right _ _)
  | max =>
    rw [N.number_max]
    exact extreme_concat (· ≥ ·) (fun _ _ _ => ge_trans) h (max_choice _ _) (le_max_left _ _)
      (le_max_right _ _)
  | bitAnd =>
    intro k hk
    have hbit := h k hk
    rw [N.testBit_number _ k hk] at hbit ⊢
    simp only [wordOperator, BitVec.getLsbD_and, Bool.and_eq_true, hbit, List.mem_append,
      List.mem_singleton, or_imp, forall_and, forall_eq, N.testBit_number x k hk]
  | bitOr =>
    intro k hk
    have hbit := h k hk
    rw [N.testBit_number _ k hk] at hbit ⊢
    simp only [wordOperator, BitVec.getLsbD_or, Bool.or_eq_true, hbit, List.mem_append,
      List.mem_singleton, or_and_right, exists_or, exists_eq_left, N.testBit_number x k hk]
  | bitXor =>
    intro k hk
    have hbit := h k hk
    rw [N.testBit_number _ k hk] at hbit ⊢
    rw [List.countP_append]
    simp only [wordOperator, BitVec.getLsbD_xor, List.countP_singleton,
      N.testBit_number x k hk]
    -- a set bit more changes the parity, a clear one does not
    cases hx : x.getLsbD k with
    | false => simpa using hbit
    | true => simp [Nat.odd_add_one, ← hbit]
  | logicalAnd =>
    refine IsTruth.concat (∀ v ∈ values ++ [N.number x], v ≠ 0) h hne ?_ ?_
    · rintro v rfl
      simp
    · intro htruth
      show N.number (BitVec.ofInt n _) = _
      rw [N.number_truth hn]
      simp only [← htruth, List.mem_append, List.mem_singleton, or_imp, forall_and, forall_eq]
  | logicalOr =>
    refine IsTruth.concat (∃ v ∈ values ++ [N.number x], v ≠ 0) h hne ?_ ?_
    · rintro v rfl
      simp
    · intro htruth
      show N.number (BitVec.ofInt n _) = _
      rw [N.number_truth hn]
      simp only [← htruth, List.mem_append, List.mem_singleton, or_and_right, exists_or,
        exists_eq_left]
  | logicalXor =>
    refine IsTruth.concat (Odd ((values ++ [N.number x]).countP fun v => v ≠ 0)) h hne
      ?_ ?_
    · rintro v rfl
      by_cases hv : v = 0 <;> simp [hv]
    · intro htruth
      show N.number (BitVec.ofInt n _) = _
      -- the word says whether the two truths differ
      rw [← ite_not, N.number_truth hn]
      simp only [← htruth, List.countP_append, List.countP_singleton]
      by_cases hx : N.number x = 0
      · simp [hx]
      · simp [hx, Nat.odd_add_one]

/-- **Run lemma**: a fold of words from the left means the reduction of their numbers. -/
theorem means_foldl (hn : 1 < n) (op : ReduceOp) (first : BitVec n) (rest : List (BitVec n)) :
    op.Means N.wrap n ((first :: rest).map N.number)
      (N.number (rest.foldl (wordOperator N.number op) first)) := by
  -- induction on the words to come, for any numbers whose meaning the word so far is
  have hrun : ∀ (rest : List (BitVec n)) (values : List Int) (a : BitVec n), values ≠ [] →
      op.Means N.wrap n values (N.number a) →
      op.Means N.wrap n (values ++ rest.map N.number)
        (N.number (rest.foldl (wordOperator N.number op) a)) := by
    intro rest
    induction rest with
    | nil =>
      intro values a _ h
      simpa using h
    | cons x rest ih =>
      intro values a hne h
      rw [List.map_cons, List.append_cons]
      exact ih _ _ (by simp) (N.means_concat hn hne h x)
  exact hrun rest [N.number first] first (by simp) (N.means_singleton op first)

end Numbering

/-! ## §3 Integer datatypes -/

/-- **Integer format**: how wide a number is, and whether it has a sign. -/
structure IntegerFormat where
  signed : Bool
  width : Width
deriving DecidableEq, Repr

namespace IntegerFormat

/-- The number of the format's range with the same residue. -/
def wrap (i : IntegerFormat) (v : Int) : Int :=
  if i.signed then v.bmod (2 ^ i.width.bits) else v % (2 ^ i.width.bits : Nat)

/-- **Range** of the format's numbers. -/
def InRange (i : IntegerFormat) (v : Int) : Prop :=
  if i.signed then -2 ^ (i.width.bits - 1) ≤ v ∧ v < 2 ^ (i.width.bits - 1)
  else 0 ≤ v ∧ v < 2 ^ i.width.bits

/-- **The number** that a payload stands for: its value in base 256, in two's complement if
the format has a sign. -/
def number (i : IntegerFormat) (payload : Bytes) : Int := i.wrap payload.toNat

/-- **The payload** of a number: the digits in base 256 of its residue, least significant
first. -/
def payload (i : IntegerFormat) (v : Int) : Bytes :=
  Bytes.ofNat i.width.bytes (v % (2 ^ i.width.bits : Nat)).toNat

/-- The scalar that the fold knows the format as. -/
def scalar : IntegerFormat → Scalar
  | ⟨true, w⟩ => .signed w
  | ⟨false, w⟩ => .unsigned w

end IntegerFormat

/-- **Integer datatypes** with their formats. -/
def Datatype.integers : List (Datatype × IntegerFormat) :=
  [ (int8, ⟨true, .w8⟩), (int16, ⟨true, .w16⟩), (int32, ⟨true, .w32⟩), (int64, ⟨true, .w64⟩),
    (uint8, ⟨false, .w8⟩), (uint16, ⟨false, .w16⟩), (uint32, ⟨false, .w32⟩),
    (uint64, ⟨false, .w64⟩) ]

theorem Datatype.kind_of_integers {datatype : Datatype} {i : IntegerFormat}
    (h : (datatype, i) ∈ integers) : datatype.kind? = some (.scalar i.scalar) := by
  have hall : ∀ entry ∈ integers, entry.1.kind? = some (.scalar entry.2.scalar) := by decide
  exact hall (datatype, i) h

theorem Width.one_lt_bits (w : Width) : 1 < w.bits := by
  cases w <;> decide

namespace IntegerFormat

section Format

variable (i : IntegerFormat)

theorem inRange_wrap (v : Int) : i.InRange (i.wrap v) := by
  obtain ⟨signed, w⟩ := i
  have hbits : 2 ^ w.bits = 2 * 2 ^ (w.bits - 1) := by
    rw [← Nat.pow_succ', Nat.succ_eq_add_one, Nat.sub_add_cancel (Nat.le_of_lt w.one_lt_bits)]
  have hpos : 0 < 2 ^ w.bits := Nat.two_pow_pos _
  cases signed with
  | true =>
    have hlow := Int.le_bmod (x := v) hpos
    have hhigh := Int.bmod_lt (x := v) hpos
    simp only [InRange, wrap, if_true]
    push_cast [hbits] at hlow hhigh ⊢
    omega
  | false =>
    have hlow := Int.emod_nonneg v (Int.natCast_ne_zero.mpr (Nat.ne_of_gt hpos))
    have hhigh := Int.emod_lt_of_pos v (Int.natCast_pos.mpr hpos)
    simp only [InRange, wrap, Bool.false_eq_true, if_false]
    push_cast at hlow hhigh ⊢
    exact ⟨hlow, hhigh⟩

theorem emod_wrap (v : Int) :
    i.wrap v % (2 ^ i.width.bits : Nat) = v % (2 ^ i.width.bits : Nat) := by
  rw [wrap]
  split
  · exact Int.bmod_emod
  · exact Int.emod_emod _ _

/-- **Round trip**: a payload of the format's width is that of the number it stands for. -/
theorem payload_number {part : Bytes} (hpart : part.length = i.width.bytes) :
    i.payload (i.number part) = part := by
  have hlt : part.toNat < 2 ^ i.width.bits := by
    rw [Width.bits, ← hpart]
    exact Bytes.toNat_lt part
  rw [payload, number, emod_wrap, ← Int.natCast_mod, Int.toNat_natCast, Nat.mod_eq_of_lt hlt,
    ← hpart, Bytes.ofNat_toNat]

/-- The word that a payload is read as. -/
def word (part : Bytes) : BitVec i.width.bits := BitVec.ofNat i.width.bits part.toNat

/-- The numbering of words that the format stands for. -/
def numbering : (i : IntegerFormat) → Numbering i.width.bits
  | ⟨true, w⟩ => .signed w.bits
  | ⟨false, w⟩ => .unsigned w.bits

theorem wrap_numbering : i.numbering.wrap = i.wrap := by
  obtain ⟨_ | _, w⟩ := i <;> rfl

/-- A payload stands for the number of its word. -/
theorem number_word (part : Bytes) : i.numbering.number (i.word part) = i.number part := by
  rw [word, ← BitVec.ofInt_natCast, Numbering.number_ofInt, wrap_numbering, number]

theorem payload_numbering (x : BitVec i.width.bits) :
    i.payload (i.numbering.number x) = Bytes.ofNat i.width.bytes x.toNat := by
  rw [payload, ← BitVec.toNat_ofInt, Numbering.ofInt_number]

theorem inRange_numbering (x : BitVec i.width.bits) : i.InRange (i.numbering.number x) := by
  rw [← Numbering.wrap_number, wrap_numbering]
  exact i.inRange_wrap _

end Format

end IntegerFormat

/-! ## §4 The fold of integers -/

namespace Reduction

/-- The fold of integers combines their words. -/
theorem fold_words {datatype : Datatype} {i : IntegerFormat}
    (hkind : datatype.kind? = some (.scalar i.scalar)) (op : ReduceOp) {first : Bytes}
    {rest : List Bytes} (hparts : ∀ part ∈ first :: rest, part.length = i.width.bytes) :
    fold datatype op.operation (first :: rest) =
      .ok (Bytes.ofNat i.width.bytes
        ((rest.map i.word).foldl (wordOperator i.numbering.number op) (i.word first)).toNat) := by
  obtain ⟨_ | _, w⟩ := i
  case false => exact fold_of_lengths hkind (applyWords_unsigned op) hparts rfl
  case true => exact fold_of_lengths hkind (applyWords_signed op) hparts rfl

/-- **Integer reductions** mean what they say about the numbers that payloads stand for, on
every datatype, with every operator and of any number of payloads. The result is a number of
the datatype's range, and the fold answers its payload. -/
theorem fold_integers {datatype : Datatype} {i : IntegerFormat}
    (hdatatype : (datatype, i) ∈ Datatype.integers) (op : ReduceOp) {parts : List Bytes}
    (hne : parts ≠ []) (hparts : ∀ part ∈ parts, part.length = i.width.bytes) :
    (∀ part ∈ parts, i.InRange (i.number part) ∧ i.payload (i.number part) = part) ∧
      ∃ result : Int, fold datatype op.operation parts = .ok (i.payload result) ∧
        i.InRange result ∧ op.Means i.wrap i.width.bits (parts.map i.number) result := by
  refine ⟨fun part hpart => ⟨i.inRange_wrap _, i.payload_number (hparts part hpart)⟩, ?_⟩
  cases parts with
  | nil => exact absurd rfl hne
  | cons first rest =>
    have hfold := fold_words (Datatype.kind_of_integers hdatatype) op hparts
    have hmeans := i.numbering.means_foldl i.width.one_lt_bits op (i.word first)
      (rest.map i.word)
    have hnumbers : (first :: rest).map i.number =
        (i.word first :: rest.map i.word).map i.numbering.number := by
      simp only [List.map_cons, List.map_map, Function.comp_def, IntegerFormat.number_word]
    rw [← hnumbers, i.wrap_numbering] at hmeans
    refine ⟨_, ?_, i.inRange_numbering _, hmeans⟩
    rw [hfold, i.payload_numbering]

/-- A hundred and a hundred do not fit into eight bits with a sign: their sum wraps around to
a negative number. -/
theorem fold_integers_wrapping :
    (Datatype.int8, ⟨true, .w8⟩) ∈ Datatype.integers ∧
      (∀ part ∈ ([[100], [100]] : List Bytes), List.length part = Width.w8.bytes) ∧
      fold .int8 .sum [[100], [100]] = .ok [200] ∧
      IntegerFormat.number ⟨true, .w8⟩ [200] = -56 := by
  have hmem : (Datatype.int8, ⟨true, .w8⟩) ∈ Datatype.integers := by decide
  have hparts : ∀ part ∈ ([[100], [100]] : List Bytes), List.length part = Width.w8.bytes := by
    decide
  obtain ⟨-, result, hfold, -, hmeans⟩ := fold_integers hmem .sum (List.cons_ne_nil _ _) hparts
  have hresult : result = -56 := hmeans.trans (by decide)
  subst hresult
  exact ⟨hmem, hparts, hfold, by decide⟩

end Reduction

end ClusterView
