import ClusterView.Element
import ClusterView.Reduction
import Mathlib.Data.Nat.Bitwise
import Mathlib.Tactic.Ring

/-!
# Two codecs for one layout

An element is cut into bytes by its type's own codec, and a scalar is read and written by
the fold through numbers in base 256. The two were written apart. Here both are brought
down to the number that a word stands for, and from there they agree: what one writes the
other reads, in the same number of bytes.

## Sections
- §1: Numbers in base 256
- §2: Words cut into bytes
- §3: Round trips of elements
- §4: Elements against scalars
-/

namespace ClusterView

/-! ## §1 Numbers in base 256 -/

namespace Bytes

theorem toNat_ofNat (count n : Nat) : (ofNat count n).toNat = n % 256 ^ count := by
  induction count generalizing n with
  | zero => rw [ofNat, toNat, Nat.pow_zero, Nat.mod_one]
  | succ count ih =>
    have hdigit : (UInt8.ofNat (n % 256)).toNat = n % 256 := by
      rw [UInt8.toNat_ofNat', Nat.mod_eq_of_lt (Nat.mod_lt _ (by decide))]
    rw [ofNat, toNat, ih, hdigit, Nat.pow_succ', Nat.mod_mul]

theorem toNat_ofNat_of_lt {count n : Nat} (h : n < 2 ^ (8 * count)) :
    (ofNat count n).toNat = n := by
  rw [toNat_ofNat, show (256 : Nat) = 2 ^ 8 from rfl, ← Nat.pow_mul, Nat.mod_eq_of_lt h]

theorem toNat_lt (bytes : Bytes) : bytes.toNat < 2 ^ (8 * bytes.length) := by
  induction bytes with
  | nil => exact Nat.one_pos
  | cons b rest ih =>
    have hb : b.toNat < 256 := b.toNat_lt
    rw [toNat, List.length_cons, Nat.mul_succ, Nat.pow_add]
    omega

/-- **Round trip**: bytes are the digits of their value. -/
theorem ofNat_toNat (bytes : Bytes) : ofNat bytes.length bytes.toNat = bytes := by
  induction bytes with
  | nil => rfl
  | cons b rest ih =>
    have hb : b.toNat < 256 := b.toNat_lt
    have hlow : (b.toNat + 256 * toNat rest) % 256 = b.toNat := by omega
    have hhigh : (b.toNat + 256 * toNat rest) / 256 = toNat rest := by omega
    rw [toNat, List.length_cons, ofNat, hlow, hhigh, ih, UInt8.ofNat_toNat]

end Bytes

/-! ## §2 Words cut into bytes -/

namespace Element

/-- Without its lowest byte, a word is cut like the word shifted down. -/
theorem encodeBits_succ {n : Nat} (count : Nat) (x : BitVec n) :
    encodeBits (count + 1) x = ⟨x.extractLsb' 0 8⟩ :: encodeBits count (x >>> 8) := by
  -- a byte further up is the same byte of the shifted word
  have htail : ∀ i, x.extractLsb' (8 * (i + 1)) 8 = (x >>> 8).extractLsb' (8 * i) 8 := by
    intro i
    apply BitVec.eq_of_getLsbD_eq
    intro j hj
    simp only [BitVec.getLsbD_extractLsb', BitVec.getLsbD_ushiftRight]
    rw [show 8 * (i + 1) + j = 8 + (8 * i + j) by ring]
  simp only [encodeBits, List.range_succ_eq_map, List.map_cons, List.map_map]
  congr 1
  apply List.map_congr_left
  intro i _
  exact congrArg UInt8.ofBitVec (htail i)

/-- **Cutting** a word gives the digits of its number. -/
theorem encodeBits_eq_ofNat {n : Nat} (count : Nat) (x : BitVec n) :
    encodeBits count x = Bytes.ofNat count x.toNat := by
  induction count generalizing x with
  | zero => rfl
  | succ count ih =>
    -- shifting by a byte divides by 256
    rw [encodeBits_succ, ih, Bytes.ofNat, BitVec.toNat_ushiftRight, Nat.shiftRight_eq_div_pow]
    congr 1
    apply UInt8.toNat_inj.mp
    rw [UInt8.toNat_ofNat', Nat.mod_mod]
    change (x.extractLsb' 0 8).toNat = _
    rw [BitVec.extractLsb'_toNat, Nat.shiftRight_zero]

/-- **Joining** bytes gives the word of their number. -/
theorem decodeBits_eq_ofNat (n : Nat) (bytes : Bytes) :
    decodeBits n bytes = BitVec.ofNat n bytes.toNat := by
  induction bytes with
  | nil => rfl
  | cons b rest ih =>
    have hlow : b.toNat < 2 ^ 8 := b.toNat_lt
    rw [decodeBits, ih, Bytes.toNat]
    apply BitVec.eq_of_getLsbD_eq
    intro i hi
    -- the byte has no bit from the eighth on, and the rest none below it
    have hbit : (b.toNat + 256 * Bytes.toNat rest).testBit i =
        if i < 8 then b.toNat.testBit i else (Bytes.toNat rest).testBit (i - 8) := by
      rw [Nat.add_comm]
      exact Nat.testBit_two_pow_mul_add _ hlow i
    simp only [BitVec.getLsbD_or, BitVec.getLsbD_setWidth, BitVec.getLsbD_shiftLeft,
      BitVec.getLsbD_ofNat, hbit, hi, decide_true, Bool.true_and]
    by_cases hlt : i < 8
    · simp [hlt, BitVec.getLsbD]
    · have hnone : b.toBitVec.getLsbD i = false :=
        BitVec.getLsbD_of_ge _ _ (Nat.le_of_not_lt hlt)
      have hrest : i - 8 < n := by omega
      simp [hlt, hnone, hrest]

theorem length_encodeBits {n : Nat} (count : Nat) (x : BitVec n) :
    (encodeBits count x).length = count := by
  rw [encodeBits, List.length_map, List.length_range]

theorem decodeWord_encodeBits (count : Nat) (x : BitVec (8 * count)) :
    decodeWord (8 * count) count (encodeBits count x) = some x := by
  rw [decodeWord, if_pos (length_encodeBits count x), decodeBits_eq_ofNat, encodeBits_eq_ofNat,
    Bytes.toNat_ofNat_of_lt x.isLt, BitVec.ofNat_toNat, BitVec.setWidth_eq]

/-- Bytes that join to a word are the ones that it is cut into. -/
theorem encodeBits_of_decodeWord {count : Nat} {bytes : Bytes} {x : BitVec (8 * count)}
    (h : decodeWord (8 * count) count bytes = some x) : encodeBits count x = bytes := by
  unfold decodeWord at h
  split at h
  · rename_i hlength
    cases h
    subst hlength
    rw [decodeBits_eq_ofNat, encodeBits_eq_ofNat, BitVec.toNat_ofNat,
      Nat.mod_eq_of_lt (Bytes.toNat_lt bytes), Bytes.ofNat_toNat]
  · cases h

/-! ## §3 Round trips of elements -/

/-- An element has as many bytes as its type says. -/
theorem length_encode (t : ElementType) (value : t.Value) :
    (encode t value).length = t.bytes := by
  rcases t with _ | (_ | w | w | p)
  · exact length_encodeBits 4 _
  · rfl
  · exact length_encodeBits w.bytes _
  · exact length_encodeBits w.bytes _
  · exact length_encodeBits p.bytes _

/-- **Round trip**: an encoded element decodes to itself, bit for bit. -/
theorem decode_encode (t : ElementType) (value : t.Value) :
    decode t (encode t value) = some value := by
  rcases t with _ | (_ | w | w | p)
  case char =>
    have hword := decodeWord_encodeBits 4 (Char.val value).toBitVec
    simp only [decode, encode]
    rw [hword]
    exact dif_pos (Char.valid value)
  case scalar.bool => cases value <;> rfl
  case scalar.signed => exact decodeWord_encodeBits w.bytes value
  case scalar.unsigned => exact decodeWord_encodeBits w.bytes value
  case scalar.float => exact decodeWord_encodeBits p.bytes value

/-- **Round trip** the other way: bytes that decode are the encoding of what they decode to. -/
theorem encode_of_decode {t : ElementType} {bytes : Bytes} {value : t.Value}
    (h : decode t bytes = some value) : encode t value = bytes := by
  rcases t with _ | (_ | w | w | p)
  case char =>
    obtain ⟨word, hword, hchar⟩ := Option.bind_eq_some_iff.mp h
    unfold charOfNumber? at hchar
    split at hchar
    · cases hchar
      exact encodeBits_of_decodeWord hword
    · cases hchar
  case scalar.bool =>
    simp only [decode] at h
    split at h
    · split at h
      · rename_i hzero
        cases h
        rw [hzero]
        rfl
      · split at h
        · rename_i hone
          cases h
          rw [hone]
          rfl
        · cases h
    · cases h
  case scalar.signed => exact encodeBits_of_decodeWord h
  case scalar.unsigned => exact encodeBits_of_decodeWord h
  case scalar.float => exact encodeBits_of_decodeWord h

theorem decode_eq_some_iff {t : ElementType} {bytes : Bytes} {value : t.Value} :
    decode t bytes = some value ↔ encode t value = bytes :=
  ⟨encode_of_decode, fun h => h ▸ decode_encode t value⟩

/-! ## §4 Elements against scalars -/

/-- What the fold writes is the element's own encoding. -/
theorem encode_scalar (s : Scalar) (value : s.Value) :
    encode (.scalar s) value = s.write value := by
  rcases s with _ | w | w | p
  case bool => cases value <;> rfl
  case signed => exact encodeBits_eq_ofNat w.bytes value
  case unsigned => exact encodeBits_eq_ofNat w.bytes value
  case float => exact encodeBits_eq_ofNat p.bytes value

/-- The fold reads an encoded element as the element. -/
theorem read_encode (s : Scalar) (value : s.Value) :
    s.read (encode (.scalar s) value) = value := by
  have hword : ∀ (count : Nat) (x : BitVec (8 * count)),
      BitVec.ofNat (8 * count) (encodeBits count x).toNat = x := by
    intro count x
    rw [encodeBits_eq_ofNat, Bytes.toNat_ofNat_of_lt x.isLt, BitVec.ofNat_toNat,
      BitVec.setWidth_eq]
  rcases s with _ | w | w | p
  case bool => cases value <;> rfl
  case signed => exact hword w.bytes value
  case unsigned => exact hword w.bytes value
  case float => exact hword p.bytes value

/-- **What the fold writes decodes** to the value that was written. -/
theorem decode_write (s : Scalar) (value : s.Value) :
    decode (.scalar s) (s.write value) = some value := by
  rw [← encode_scalar]
  exact decode_encode (.scalar s) value

end Element

namespace Scalar

/-- **Round trip** of the fold's own codec. -/
theorem read_write (s : Scalar) (value : s.Value) : s.read (s.write value) = value := by
  rw [← Element.encode_scalar, Element.read_encode]

/-- A payload of the scalar's width is what is written of the value that it reads as. Truth
values are the exception: every byte but zero reads as true. -/
theorem write_read {s : Scalar} (hs : s ≠ .bool) {part : Bytes} (hpart : part.length = s.bytes) :
    s.write (s.read part) = part := by
  have hword : ∀ count, part.length = count →
      Bytes.ofNat count (BitVec.ofNat (8 * count) part.toNat).toNat = part := by
    rintro _ rfl
    rw [BitVec.toNat_ofNat, Nat.mod_eq_of_lt (Bytes.toNat_lt part), Bytes.ofNat_toNat]
  rcases s with _ | w | w | p
  case bool => exact absurd rfl hs
  case signed => exact hword w.bytes hpart
  case unsigned => exact hword w.bytes hpart
  case float => exact hword p.bytes hpart

theorem length_write (s : Scalar) (value : s.Value) : (s.write value).length = s.bytes := by
  rw [← Element.encode_scalar]
  exact Element.length_encode (.scalar s) value

end Scalar

end ClusterView
