import ClusterView.Proofs.Integers

/-!
# Reductions in any order

A reduction of truth values or integers comes to the same bytes in whichever order the
payloads arrive and however they are cut into groups that are reduced first. Every operator
that such a scalar has is associative and commutative (`Scalar.laws_of_computes`), so a
combination from the left depends neither on the order (`combineLeft_perm`) nor on the
grouping (`combineLeft_append`).

A group of one payload takes care: its fold reads the payload and writes it again, and a
truth value that was some byte other than zero becomes one. In a tree of reductions a payload
may therefore stand as it is wherever it meets another.

## Sections
- §1: Operators without an order
- §2: Combinations without an order
- §3: Groups of payloads
- §4: Trees of reductions
-/

namespace ClusterView

/-! ## §1 Operators without an order -/

namespace Numbering

variable {n : Nat} (N : Numbering n)

theorem sum_eq_add (a b : BitVec n) : wordOperator N.number .sum a b = a + b := by
  rw [wordOperator, BitVec.ofInt_add, N.ofInt_number, N.ofInt_number]

theorem product_eq_mul (a b : BitVec n) : wordOperator N.number .product a b = a * b := by
  rw [wordOperator, BitVec.ofInt_mul, N.ofInt_number, N.ofInt_number]

theorem logicalXor_eq (a b : BitVec n) :
    wordOperator N.number .logicalXor a b =
      BitVec.ofInt n (if ¬ (N.number a ≠ 0 ↔ N.number b ≠ 0) then 1 else 0) := by
  rw [wordOperator, ite_not]

/-- The word of a truth value is true exactly if the value is. -/
theorem truth_ne_zero (hn : 1 < n) (holds : Prop) [Decidable holds] :
    N.number (BitVec.ofInt n (if holds then 1 else 0)) ≠ 0 ↔ holds := by
  rw [N.number_truth hn]
  split <;> simp [*]

theorem operator_comm (op : ReduceOp) (a b : BitVec n) :
    wordOperator N.number op a b = wordOperator N.number op b a := by
  cases op with
  | min => exact N.number_injective (by rw [N.number_min, N.number_min, min_comm])
  | max => exact N.number_injective (by rw [N.number_max, N.number_max, max_comm])
  | sum => rw [N.sum_eq_add, N.sum_eq_add, BitVec.add_comm]
  | product => rw [N.product_eq_mul, N.product_eq_mul, BitVec.mul_comm]
  | logicalAnd => simp only [wordOperator, and_comm]
  | logicalOr => simp only [wordOperator, or_comm]
  | logicalXor => simp only [wordOperator, iff_comm]
  | bitAnd => exact BitVec.and_comm a b
  | bitOr => exact BitVec.or_comm a b
  | bitXor => exact BitVec.xor_comm a b

theorem operator_assoc (hn : 1 < n) (op : ReduceOp) (a b c : BitVec n) :
    wordOperator N.number op (wordOperator N.number op a b) c =
      wordOperator N.number op a (wordOperator N.number op b c) := by
  cases op with
  | min => exact N.number_injective (by simp only [N.number_min, min_assoc])
  | max => exact N.number_injective (by simp only [N.number_max, max_assoc])
  | sum => simp only [N.sum_eq_add, BitVec.add_assoc]
  | product => simp only [N.product_eq_mul, BitVec.mul_assoc]
  | logicalAnd => simp only [wordOperator, N.truth_ne_zero hn, and_assoc]
  | logicalOr => simp only [wordOperator, N.truth_ne_zero hn, or_assoc]
  | logicalXor =>
    simp only [N.logicalXor_eq, N.truth_ne_zero hn]
    by_cases ha : N.number a = 0 <;> by_cases hb : N.number b = 0 <;> simp [ha, hb]
  | bitAnd => exact BitVec.and_assoc a b c
  | bitOr => exact BitVec.or_assoc a b c
  | bitXor => exact BitVec.xor_assoc a b c

end Numbering

/-- **Exact scalars**: the truth values and the integers. A sum of floating-point numbers
depends on the order. -/
def Scalar.isExact : Scalar → Bool
  | .float _ => false
  | _ => true

/-- **Laws of the operations** on exact scalars. -/
theorem Scalar.laws_of_computes {s : Scalar} (hs : s.isExact = true) {op : Operation}
    {combine : s.Value → s.Value → s.Value} (h : s.Computes op combine) :
    Std.Associative combine ∧ Std.Commutative combine := by
  obtain ⟨o, -, hadmits, rfl⟩ := Registry.operator_of_computes h
  rcases s with _ | w | w | p
  case bool =>
    cases o <;> first | exact ⟨⟨by decide⟩, ⟨by decide⟩⟩ | cases hadmits
  case signed =>
    exact ⟨⟨(Numbering.signed w.bits).operator_assoc w.one_lt_bits o⟩,
      ⟨(Numbering.signed w.bits).operator_comm o⟩⟩
  case unsigned =>
    exact ⟨⟨(Numbering.unsigned w.bits).operator_assoc w.one_lt_bits o⟩,
      ⟨(Numbering.unsigned w.bits).operator_comm o⟩⟩
  case float => cases hs

/-! ## §2 Combinations without an order -/

section Combinations

variable {α : Type} {f : α → α → α}

/-- **Grouping**: two lists are combined each on its own, and then with each other. -/
theorem combineLeft_append [Std.Associative f] (left right : List α) :
    combineLeft f (left ++ right) = (combineLeft f left).merge f (combineLeft f right) := by
  cases left with
  | nil => simp [combineLeft]
  | cons a left =>
    cases right with
    | nil => simp [combineLeft]
    | cons b right =>
      simp only [combineLeft, List.cons_append, List.foldl_append, List.foldl_cons,
        List.foldl_assoc, Option.merge_some_some]

theorem combineLeft_cons [Std.Associative f] (a : α) (rest : List α) :
    combineLeft f (a :: rest) = (some a).merge f (combineLeft f rest) :=
  combineLeft_append [a] rest

/-- **Order**: a combination is the same in every order. -/
theorem combineLeft_perm [Std.Associative f] [Std.Commutative f] {values values' : List α}
    (h : values.Perm values') : combineLeft f values = combineLeft f values' := by
  induction h with
  | nil => rfl
  | cons a _ ih => rw [combineLeft_cons, combineLeft_cons, ih]
  | swap a b rest =>
    simp only [combineLeft_cons]
    ac_rfl
  | trans _ _ ih ih' => exact ih.trans ih'

end Combinations

/-! ## §3 Groups of payloads -/

namespace Reduction

section Exact

variable {datatype : Datatype} {op : Operation} {s : Scalar}
  {combine : s.Value → s.Value → s.Value}

/-- **Order** of the payloads: the fold is the same. -/
theorem fold_perm [Std.Associative combine] [Std.Commutative combine]
    (hkind : datatype.kind? = some (.scalar s)) (hop : s.Computes op combine)
    {parts parts' : List Bytes} (hne : parts ≠ [])
    (hparts : ∀ part ∈ parts, part.length = s.bytes) (hperm : parts'.Perm parts) :
    fold datatype op parts' = fold datatype op parts := by
  obtain ⟨value, hvalue, hfold⟩ := exists_fold hkind hop hne hparts
  rw [hfold]
  apply fold_of_lengths hkind hop
  · intro part hpart
    exact hparts part (hperm.mem_iff.mp hpart)
  · rw [combineLeft_perm (hperm.map s.read), hvalue]

/-- Every block has a fold, and the folds combine to what the payloads combine to. -/
theorem mapM_fold [Std.Associative combine] (hkind : datatype.kind? = some (.scalar s))
    (hop : s.Computes op combine) {blocks : List (List Bytes)}
    (hne : ∀ block ∈ blocks, block ≠ [])
    (hparts : ∀ part ∈ blocks.flatten, part.length = s.bytes) :
    ∃ values : List s.Value, blocks.mapM (fold datatype op) = .ok (values.map s.write) ∧
      combineLeft combine (blocks.flatten.map s.read) = combineLeft combine values := by
  -- block by block: associativity lets one block's value stand for its payloads
  induction blocks with
  | nil => exact ⟨[], rfl, rfl⟩
  | cons block blocks ih =>
    rw [List.flatten_cons] at hparts ⊢
    obtain ⟨hblock, hblocks⟩ := List.forall_mem_append.mp hparts
    obtain ⟨value, hvalue, hfold⟩ :=
      exists_fold hkind hop (hne block List.mem_cons_self) hblock
    obtain ⟨values, hmap, hvalues⟩ :=
      ih (fun other hother => hne other (List.mem_cons_of_mem _ hother)) hblocks
    refine ⟨value :: values, ?_, ?_⟩
    · simp only [List.mapM_cons, hfold, hmap, List.map_cons, bind, Except.bind, pure, Except.pure]
    · rw [List.map_append, combineLeft_append, hvalue, hvalues, combineLeft_cons]

/-- **Grouping** of the payloads: the fold of the folds of blocks is the fold of all. -/
theorem fold_blocks [Std.Associative combine] (hkind : datatype.kind? = some (.scalar s))
    (hop : s.Computes op combine) {blocks : List (List Bytes)}
    (hne : ∀ block ∈ blocks, block ≠ []) (hflatten : blocks.flatten ≠ [])
    (hparts : ∀ part ∈ blocks.flatten, part.length = s.bytes) :
    (blocks.mapM (fold datatype op) >>= fold datatype op) =
      fold datatype op blocks.flatten := by
  obtain ⟨value, hvalue, hfold⟩ := exists_fold hkind hop hflatten hparts
  obtain ⟨values, hmap, hvalues⟩ := mapM_fold hkind hop hne hparts
  -- nothing is lost where a block's value is written and read again
  have hread : s.read ∘ s.write = id := funext s.read_write
  rw [hfold, hmap]
  apply fold_of_lengths hkind hop
  · intro part hpart
    obtain ⟨v, -, rfl⟩ := List.mem_map.mp hpart
    exact s.length_write v
  · rw [List.map_map, hread, List.map_id, ← hvalues, hvalue]

end Exact

/-! ## §4 Trees of reductions -/

/-- **Tree of reductions**: payloads at the leaves, two results reduced at every node. -/
inductive Tree where
  | leaf (part : Bytes)
  | node (left right : Tree)
deriving Repr

namespace Tree

/-- The payloads at the leaves, from left to right. -/
def leaves : Tree → List Bytes
  | leaf part => [part]
  | node left right => left.leaves ++ right.leaves

/-- **Evaluation**: what is done with a payload at a leaf is the caller's choice. -/
def evaluate (datatype : Datatype) (op : Operation) (atLeaf : Bytes → Except CommError Bytes) :
    Tree → Except CommError Bytes
  | leaf part => atLeaf part
  | node left right => do
      let a ← left.evaluate datatype op atLeaf
      let b ← right.evaluate datatype op atLeaf
      fold datatype op [a, b]

end Tree

/-- What is done with a payload at a leaf keeps its value, and perhaps sees to it that the
payload is as the fold writes the value. -/
def KeepsValues (s : Scalar) (written : Prop) (atLeaf : Bytes → Except CommError Bytes) : Prop :=
  ∀ part, part.length = s.bytes → ∃ part', atLeaf part = .ok part' ∧ part'.length = s.bytes ∧
    s.read part' = s.read part ∧ (written → s.write (s.read part') = part')

section Exact

variable {datatype : Datatype} {op : Operation} {s : Scalar}
  {combine : s.Value → s.Value → s.Value}

/-- The fold of one payload keeps its value and writes it. -/
theorem keepsValues_fold (hkind : datatype.kind? = some (.scalar s))
    (hop : s.Computes op combine) :
    KeepsValues s True fun part => fold datatype op [part] := by
  intro part hpart
  have hsingle : ∀ part' ∈ [part], part'.length = s.bytes := by simpa using hpart
  refine ⟨s.write (s.read part), fold_of_lengths hkind hop hsingle rfl, s.length_write _,
    s.read_write _, ?_⟩
  intro _
  rw [s.read_write]

/-- A payload that stands as it is may be a truth value written in another way. -/
theorem keepsValues_ok (s : Scalar) : KeepsValues s (s ≠ .bool) .ok := by
  intro part hpart
  exact ⟨part, rfl, hpart, rfl, fun hs => Scalar.write_read hs hpart⟩

/-- **Evaluation of a tree**: a payload of the value that the leaves combine to. It is as the
fold writes the value, if two payloads met or if the leaves already write theirs so. -/
theorem evaluate_spec [Std.Associative combine] (hkind : datatype.kind? = some (.scalar s))
    (hop : s.Computes op combine) {written : Prop}
    {atLeaf : Bytes → Except CommError Bytes} (hleaf : KeepsValues s written atLeaf)
    {tree : Tree} (hparts : ∀ part ∈ tree.leaves, part.length = s.bytes) :
    ∃ result, tree.evaluate datatype op atLeaf = .ok result ∧ result.length = s.bytes ∧
      combineLeft combine (tree.leaves.map s.read) = some (s.read result) ∧
      (2 ≤ tree.leaves.length ∨ written → s.write (s.read result) = result) := by
  induction tree with
  | leaf part =>
    obtain ⟨part', hatLeaf, hlength, hread, hwritten⟩ := hleaf part (hparts part List.mem_cons_self)
    refine ⟨part', hatLeaf, hlength, congrArg some hread.symm, ?_⟩
    rintro (hmany | h)
    · exact absurd hmany (Nat.not_succ_le_self 1)
    · exact hwritten h
  | node left right ihleft ihright =>
    rw [Tree.leaves] at hparts ⊢
    obtain ⟨hleft, hright⟩ := List.forall_mem_append.mp hparts
    -- how the subtrees' results are written does not matter, as the node reads their values
    obtain ⟨a, ha, halength, havalue, -⟩ := ihleft hleft
    obtain ⟨b, hb, hblength, hbvalue, -⟩ := ihright hright
    have hlengths : ∀ part ∈ [a, b], part.length = s.bytes := by
      simp [halength, hblength]
    have hfold : fold datatype op [a, b] = .ok (s.write (combine (s.read a) (s.read b))) :=
      fold_of_lengths hkind hop hlengths rfl
    refine ⟨s.write (combine (s.read a) (s.read b)), ?_, s.length_write _, ?_, ?_⟩
    · simp only [Tree.evaluate, ha, hb, bind, Except.bind, hfold]
    · rw [List.map_append, combineLeft_append, havalue, hbvalue, Option.merge_some_some,
        s.read_write]
    · intro _
      rw [s.read_write]

/-- **Tree of reductions**, over any order of the payloads: it evaluates to their fold. -/
theorem evaluate_eq [Std.Associative combine] [Std.Commutative combine]
    (hkind : datatype.kind? = some (.scalar s)) (hop : s.Computes op combine)
    {written : Prop} {atLeaf : Bytes → Except CommError Bytes}
    (hleaf : KeepsValues s written atLeaf) {parts : List Bytes}
    (hparts : ∀ part ∈ parts, part.length = s.bytes) {tree : Tree}
    (hperm : tree.leaves.Perm parts) (h : 2 ≤ parts.length ∨ written) :
    tree.evaluate datatype op atLeaf = fold datatype op parts := by
  obtain ⟨result, hresult, -, hvalue, hwritten⟩ :=
    evaluate_spec hkind hop hleaf fun part hpart => hparts part (hperm.mem_iff.mp hpart)
  rw [combineLeft_perm (hperm.map s.read)] at hvalue
  rw [hperm.length_eq] at hwritten
  rw [hresult, fold_of_lengths hkind hop hparts hvalue, hwritten h]

end Exact

/-- What the pre-check lets through on an exact datatype computes a function with both laws. -/
theorem computes_of_check {datatype : Datatype} {op : Operation} {s : Scalar}
    (hkind : datatype.kind? = some (.scalar s)) (hs : s.isExact = true)
    (hcheck : check datatype op = .ok ()) :
    ∃ combine, s.Computes op combine ∧ Std.Associative combine ∧ Std.Commutative combine := by
  obtain ⟨s', combine, hkind', hop⟩ := check_eq_ok_iff.mp hcheck
  cases hkind.symm.trans hkind'
  exact ⟨combine, hop, Scalar.laws_of_computes hs hop⟩

end Reduction

/-- **Exact datatypes**: the truth values and the integers. -/
def Datatype.exact : List Datatype := bool :: integers.map (·.1)

theorem Datatype.kind_of_exact {datatype : Datatype} (h : datatype ∈ exact) :
    ∃ s, datatype.kind? = some (.scalar s) ∧ s.isExact = true ∧
      (s = .bool → datatype = .bool) := by
  rcases List.mem_cons.mp h with rfl | h
  · exact ⟨.bool, rfl, rfl, fun _ => rfl⟩
  · obtain ⟨⟨integer, i⟩, hmem, rfl⟩ := List.mem_map.mp h
    refine ⟨i.scalar, kind_of_integers hmem, ?_, ?_⟩ <;> obtain ⟨_ | _, w⟩ := i
    · rfl
    · rfl
    · exact nofun
    · exact nofun

namespace Reduction

/-- **Regrouping**: on truth values and integers, with every operator that the pre-check lets
through, the fold of payloads is the same bytes in every order, if blocks of them are folded
first, and by every tree of reductions. A payload at a leaf is folded on its own, or taken as
it is. The latter makes a difference to a truth value that meets no other. -/
theorem fold_regrouped {datatype : Datatype} {op : Operation}
    (hdatatype : datatype ∈ Datatype.exact) (hcheck : check datatype op = .ok ())
    {parts : List Bytes} (hne : parts ≠ [])
    (hparts : ∀ part ∈ parts, datatype.width? = some part.length) :
    ∃ result, fold datatype op parts = .ok result ∧
      (∀ blocks : List (List Bytes), blocks.flatten.Perm parts → (∀ block ∈ blocks, block ≠ []) →
        (blocks.mapM (fold datatype op) >>= fold datatype op) = .ok result) ∧
      ∀ tree : Tree, tree.leaves.Perm parts →
        tree.evaluate datatype op (fun part => fold datatype op [part]) = .ok result ∧
          (2 ≤ parts.length ∨ datatype ≠ .bool → tree.evaluate datatype op .ok = .ok result) := by
  obtain ⟨s, hkind, hs, hbool⟩ := Datatype.kind_of_exact hdatatype
  obtain ⟨combine, hop, hassoc, hcomm⟩ := computes_of_check hkind hs hcheck
  have hlengths : ∀ part ∈ parts, part.length = s.bytes := by
    intro part hpart
    exact (Datatype.width_eq_length_iff hkind).mp (hparts part hpart)
  obtain ⟨value, hvalue, hfold⟩ := exists_fold hkind hop hne hlengths
  refine ⟨s.write value, hfold, ?_, ?_⟩
  · intro blocks hperm hblocks
    have hflatten : blocks.flatten ≠ [] := fun h => hne (List.nil_perm.mp (h ▸ hperm))
    rw [fold_blocks hkind hop hblocks hflatten fun part hpart =>
        hlengths part (hperm.mem_iff.mp hpart),
      fold_perm hkind hop hne hlengths hperm, hfold]
  · intro tree hperm
    constructor
    · rw [← hfold]
      exact evaluate_eq hkind hop (keepsValues_fold hkind hop) hlengths hperm (Or.inr trivial)
    · intro h
      rw [← hfold]
      exact evaluate_eq hkind hop (keepsValues_ok s) hlengths hperm
        (h.imp_right fun hne hs => hne (hbool hs))

/-- Three truth values, two of them true and each in its own way: whether an odd number is
true comes out the same with a block of one payload, and by a tree over another order. -/
theorem fold_regrouped_truths :
    Datatype.bool ∈ Datatype.exact ∧ check .bool .lxor = .ok () ∧
      (∀ part ∈ ([[0], [5], [7]] : List Bytes), Datatype.bool.width? = some part.length) ∧
      ∃ result, fold .bool .lxor [[0], [5], [7]] = .ok result ∧
        ([[[7]], [[0], [5]]].mapM (fold .bool .lxor) >>= fold .bool .lxor) = .ok result ∧
        (Tree.node (.leaf [5]) (.node (.leaf [7]) (.leaf [0]))).evaluate .bool .lxor .ok =
          .ok result := by
  have hdatatype : Datatype.bool ∈ Datatype.exact := List.mem_cons_self
  have hcheck : check .bool .lxor = .ok () := rfl
  have hparts : ∀ part ∈ ([[0], [5], [7]] : List Bytes),
      Datatype.bool.width? = some part.length := by decide
  obtain ⟨result, hfold, hblocks, htree⟩ :=
    fold_regrouped hdatatype hcheck (List.cons_ne_nil _ _) hparts
  refine ⟨hdatatype, hcheck, hparts, result, hfold, ?_, ?_⟩
  · exact hblocks [[[7]], [[0], [5]]] (by decide) (by decide)
  · exact (htree (.node (.leaf [5]) (.node (.leaf [7]) (.leaf [0]))) (by decide)).2
      (Or.inl (by decide))

end Reduction

end ClusterView
