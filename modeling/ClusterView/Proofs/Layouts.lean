import ClusterView.Proofs.Codec
import ClusterView.Proofs.Folds

/-!
# Exact layouts

The codec of an element type is a bijection between the values of the type and their
encodings. Which bytes are an encoding can be told from their number and the number of
them alone: truth values and characters leave some numbers out, words leave out none. A
type's native datatype has the width of every encoding, and the scalars that the fold knows
are read and written by it in the same layout.

## Sections
- §1: Numbers that stand for a value
- §2: The codec of every type
-/

namespace ClusterView

/-! ## §1 Numbers that stand for a value -/

/-- **Code** of an element type: a number whose bytes encode a value, provided they are as
many as the type asks for. -/
def ElementType.IsCode : ElementType → Nat → Prop
  | .char, n => n < 0x110000 ∧ ¬ (0xd800 ≤ n ∧ n ≤ 0xdfff)
  | .scalar .bool, n => n = 0 ∨ n = 1
  | .scalar (.signed _), _ => True
  | .scalar (.unsigned _), _ => True
  | .scalar (.float _), _ => True

/-- **Carried** scalars: those that some datatype has on the wire, so that the fold can read
and write them. -/
def Scalar.IsCarried (s : Scalar) : Prop := ∃ d : Datatype, d.kind? = some (.scalar s)

namespace Element

/-- A word is read from any bytes of its width. -/
theorem decodeWord_isSome (n count : Nat) (bytes : Bytes) :
    (decodeWord n count bytes).isSome = true ↔ bytes.length = count := by
  by_cases hlength : bytes.length = count <;> simp [decodeWord, hlength]

/-- A number of 32 bits is that of a character if it is a Unicode scalar value. -/
theorem charOfNumber?_isSome (n : UInt32) :
    (charOfNumber? n).isSome = true ↔ ElementType.char.IsCode n.toNat := by
  have hvalid : n.isValidChar ↔ ElementType.char.IsCode n.toNat := by
    simp only [UInt32.isValidChar, Nat.isValidChar, ElementType.IsCode]
    omega
  rw [← hvalid]
  by_cases h : n.isValidChar <;> simp [charOfNumber?, h]

/-- **Encodings among all bytes**: they have the width of the type, and their number is a
code of it. -/
theorem decode_isSome (t : ElementType) (bytes : Bytes) :
    (decode t bytes).isSome = true ↔ bytes.length = t.bytes ∧ t.IsCode bytes.toNat := by
  rcases t with _ | (_ | w | w | p)
  case char =>
    by_cases hlength : bytes.length = 4
    · have hnumber : (⟨BitVec.ofNat 32 bytes.toNat⟩ : UInt32).toNat = bytes.toNat := by
        have hlt := Bytes.toNat_lt bytes
        rw [hlength] at hlt
        exact Nat.mod_eq_of_lt hlt
      have hchar := charOfNumber?_isSome ⟨BitVec.ofNat 32 bytes.toNat⟩
      rw [hnumber] at hchar
      simp only [decode, decodeWord, if_pos hlength, Option.bind_some, decodeBits_eq_ofNat]
      exact hchar.trans (iff_and_self.mpr fun _ => hlength)
    · have hwidth : bytes.length ≠ ElementType.char.bytes := hlength
      simp [decode, decodeWord, hlength, hwidth]
  case scalar.bool =>
    have hwidth : (ElementType.scalar .bool).bytes = 1 := rfl
    rw [hwidth]
    rcases bytes with _ | ⟨b, _ | ⟨b', rest⟩⟩
    · simp [decode]
    · have hzero : b = 0 ↔ b.toNat = 0 := UInt8.toNat_inj.symm
      have hone : b = 1 ↔ b.toNat = 1 := UInt8.toNat_inj.symm
      simp only [decode, ElementType.IsCode, Bytes.toNat, hzero, hone]
      split
      · simp [*]
      · split <;> simp [*]
    · simp [decode]
  case scalar.signed => exact (decodeWord_isSome ..).trans (iff_of_eq (and_true _)).symm
  case scalar.unsigned => exact (decodeWord_isSome ..).trans (iff_of_eq (and_true _)).symm
  case scalar.float => exact (decodeWord_isSome ..).trans (iff_of_eq (and_true _)).symm

end Element

/-- Only the widest integers are not carried. -/
theorem Scalar.isCarried_iff (s : Scalar) :
    s.IsCarried ↔ s ≠ .signed .w128 ∧ s ≠ .unsigned .w128 := by
  constructor
  · rintro ⟨d, hd⟩
    -- no known datatype is of 128 bits
    revert hd
    fun_cases Datatype.kind? d <;> intro hd <;> cases hd <;> decide
  · rintro ⟨hsigned, hunsigned⟩
    have hdatatype : (Registry.datatype? (.scalar s)).isSome = true := by
      rcases s with _ | (_ | _ | _ | _ | _) | (_ | _ | _ | _ | _) | (_ | _) <;>
        first | rfl | exact absurd rfl hsigned | exact absurd rfl hunsigned
    obtain ⟨d, hd⟩ := Option.isSome_iff_exists.mp hdatatype
    exact ⟨d, Registry.kind_of_datatype hd⟩

/-! ## §2 The codec of every type -/

/-- **The codec is exact** for each of the fourteen element types. A value is decoded from
its encoding, bit for bit; bytes that decode are the encoding of what they decode to; and
the bytes that decode are those of the type's width whose number is a code. The native
datatype of a type has the width of every encoding. A scalar that the fold carries, which
are all but the widest integers, is read by it from its encoding, and what the fold writes
of it decodes. -/
theorem Element.codec_exact :
    (ElementType.all.Nodup ∧ ElementType.all.length = 14 ∧ ∀ t, t ∈ ElementType.all) ∧
      (∀ (t : ElementType) (value : t.Value), decode t (encode t value) = some value) ∧
      (∀ (t : ElementType) (bytes : Bytes) (value : t.Value),
        decode t bytes = some value → encode t value = bytes) ∧
      (∀ (t : ElementType) (bytes : Bytes), (decode t bytes).isSome = true ↔
        bytes.length = t.bytes ∧ t.IsCode bytes.toNat) ∧
      (∀ (t : ElementType) (d : Datatype), Registry.datatype? t = some d →
        ∀ value : t.Value, d.width? = some (encode t value).length) ∧
      (∀ s : Scalar, s.IsCarried ↔ s ≠ .signed .w128 ∧ s ≠ .unsigned .w128) ∧
      ∀ s : Scalar, s.IsCarried → ∀ value : s.Value,
        (encode (.scalar s) value).length = s.bytes ∧
          s.read (encode (.scalar s) value) = value ∧
          decode (.scalar s) (s.write value) = some value := by
  refine ⟨⟨by decide, rfl, ?_⟩, decode_encode, fun _ _ _ => encode_of_decode, decode_isSome,
    ?_, Scalar.isCarried_iff, ?_⟩
  · rintro (_ | (_ | (_ | _ | _ | _ | _) | (_ | _ | _ | _ | _) | (_ | _))) <;> decide
  · intro t d hd value
    rw [Registry.width_of_datatype hd, length_encode]
  · intro s _ value
    exact ⟨length_encode (.scalar s) value, read_encode s value, decode_write s value⟩

/-- Eight bits of ones stand for no truth value, and yet the fold reads them as true. -/
example : Element.decode (.scalar .bool) [0xff] = none ∧ Scalar.read .bool [0xff] = true := by
  decide

end ClusterView
