import ClusterView.Serial

/-!
# Quoted text

A text inside quotes is read back as it is. The lexer works on bytes, so the argument goes
character by character: what a character is written as takes the lexer from one state in
the string to another (`Json.tokensFrom_escapeChar`), and the pieces it leaves there stand for
the bytes of the character (`Json.bytesOfPieces_piecesOf`).

## Sections
- §1: Bytes of a text
- §2: Steps of the lexer
- §3: One character
- §4: A whole text
-/

namespace ClusterView

/-! ## §1 Bytes of a text -/

namespace Bytes

/-- The bytes of an array are listed from its front. -/
theorem toList_byteArray (bytes : ByteArray) : bytes.toList = bytes.data.toList := by
  -- with the bytes listed so far, latest first
  have hloop : ∀ (i : Nat) (listed : List UInt8), ByteArray.toList.loop bytes i listed =
      listed.reverse ++ bytes.data.toList.drop i := by
    intro i listed
    fun_induction ByteArray.toList.loop bytes i listed with
    | case1 i listed hlt ih =>
      have hin : i < bytes.data.toList.length := by simpa using hlt
      have hget : bytes.get! i = bytes.data.toList[i] := by simp [ByteArray.get!, hlt]
      rw [ih, List.drop_eq_getElem_cons hin, hget]
      simp
    | case2 i listed hlt =>
      have hle : bytes.data.toList.length ≤ i := by simpa using Nat.le_of_not_lt hlt
      rw [List.drop_eq_nil_of_le hle, List.append_nil]
  rw [ByteArray.toList.eq_1, hloop]
  rfl

theorem ofText_ofList (chars : List Char) :
    ofText (String.ofList chars) = chars.flatMap String.utf8EncodeChar := by
  rw [ofText, toList_byteArray, String.toUTF8_eq_toByteArray]
  simp [List.utf8Encode]

theorem ofText_eq (s : String) : ofText s = s.toList.flatMap String.utf8EncodeChar := by
  rw [← ofText_ofList, String.ofList_toList]

theorem ofText_append (s t : String) : ofText (s ++ t) = ofText s ++ ofText t := by
  simp only [ofText_eq, String.toList_append, List.flatMap_append]

/-- The bytes of a text are read back as the text. -/
theorem toText?_ofText (s : String) : toText? (ofText s) = some s := by
  have hbytes : (⟨(ofText s).toArray⟩ : ByteArray) = s.toByteArray := by
    rw [ofText, toList_byteArray, String.toUTF8_eq_toByteArray]
  have hvalid := s.isValidUTF8
  simp only [toText?, hbytes, String.fromUTF8?, dif_pos hvalid]
  rfl

/-- A character up to number 127 is one byte, and any other one has no byte up to 127. -/
theorem utf8EncodeChar_cases (c : Char) :
    (c.toNat ≤ 127 ∧ String.utf8EncodeChar c = [UInt8.ofNat c.toNat]) ∨
      (127 < c.toNat ∧ ∀ b ∈ String.utf8EncodeChar c, 128 ≤ b.toNat) := by
  rw [String.utf8EncodeChar.eq_1]
  have hnumber : c.val.toNat = c.toNat := rfl
  rw [hnumber]
  by_cases hone : c.toNat ≤ 127
  · exact Or.inl ⟨hone, if_pos hone⟩
  · refine Or.inr ⟨Nat.lt_of_not_le hone, fun b hb => ?_⟩
    rw [if_neg hone] at hb
    have hsmall : ∀ n, 128 ≤ n → n < 256 → 128 ≤ (UInt8.ofNat n).toNat := by
      intro n hlow hhigh
      rw [UInt8.toNat_ofNat', Nat.mod_eq_of_lt hhigh]
      exact hlow
    split at hb
    · simp only [List.mem_cons, List.not_mem_nil, or_false] at hb
      rcases hb with rfl | rfl <;> apply hsmall <;> omega
    · split at hb
      · simp only [List.mem_cons, List.not_mem_nil, or_false] at hb
        rcases hb with rfl | rfl | rfl <;> apply hsmall <;> omega
      · simp only [List.mem_cons, List.not_mem_nil, or_false] at hb
        rcases hb with rfl | rfl | rfl | rfl <;> apply hsmall <;> omega

end Bytes

namespace Json

/-! ## §2 Steps of the lexer -/

theorem tokensFrom_of_step {state next : LexState} {b : UInt8} {found : List Token}
    (h : step state b = some (found, next)) (before : List Token) (rest : Bytes) :
    tokensFrom state before (b :: rest) = tokensFrom next (found.reverse ++ before) rest := by
  simp only [tokensFrom, h]

/-- A byte that is no quote, no backslash and no control character stands for itself. -/
theorem step_plain {b : UInt8} (hquote : b ≠ 0x22) (hslash : b ≠ 0x5c) (hcontrol : ¬ b < 0x20)
    (pieces : List Piece) :
    step (.string pieces) b = some ([], .string (.byte b :: pieces)) := by
  simp only [step, if_neg hquote, if_neg hslash, if_neg hcontrol]

/-- So does a run of such bytes. -/
theorem tokensFrom_plain {bytes : Bytes} (hplain : ∀ b ∈ bytes, b ≠ 0x22 ∧ b ≠ 0x5c ∧ ¬ b < 0x20)
    (pieces : List Piece) (before : List Token) (rest : Bytes) :
    tokensFrom (.string pieces) before (bytes ++ rest) =
      tokensFrom (.string ((bytes.map .byte).reverse ++ pieces)) before rest := by
  induction bytes generalizing pieces with
  | nil => rfl
  | cons b bytes ih =>
    obtain ⟨hquote, hslash, hcontrol⟩ := hplain b (List.mem_cons_self ..)
    rw [List.cons_append, tokensFrom_of_step (step_plain hquote hslash hcontrol pieces)]
    rw [List.reverse_nil, List.nil_append, ih fun b hb => hplain b (List.mem_cons_of_mem _ hb)]
    simp

/-- A backslash and a letter stand for a code unit. -/
theorem tokensFrom_short {letter : UInt8} {u : Nat} (hletter : escaped? letter = some u)
    (pieces : List Piece) (before : List Token) (rest : Bytes) :
    tokensFrom (.string pieces) before (0x5c :: letter :: rest) =
      tokensFrom (.string (.unit u :: pieces)) before rest := by
  have hslash : step (.string pieces) 0x5c = some ([], .escape pieces) := rfl
  have hnumeric : letter ≠ 0x75 := by
    rintro rfl
    cases hletter
  have hunit : step (.escape pieces) letter = some ([], .string (.unit u :: pieces)) := by
    simp only [step, if_neg hnumeric, hletter, Option.map_some]
  rw [tokensFrom_of_step hslash, tokensFrom_of_step hunit]
  rfl

/-- The byte of a hexadecimal digit. -/
def hexByte (d : Nat) : UInt8 := UInt8.ofNat (Nat.digitChar d).toNat

theorem digit?_hexByte : ∀ d < 16, Hexadecimal.digit? (hexByte d) = some d := by decide

/-- A backslash, the letter u and four digits stand for a code unit. -/
theorem tokensFrom_numeric {n : Nat} (hn : n < 65536) (pieces : List Piece)
    (before : List Token) (rest : Bytes) :
    tokensFrom (.string pieces) before (0x5c :: 0x75 :: hexByte (n / 16 / 16 / 16 % 16) ::
        hexByte (n / 16 / 16 % 16) :: hexByte (n / 16 % 16) :: hexByte (n % 16) :: rest) =
      tokensFrom (.string (.unit n :: pieces)) before rest := by
  have hslash : step (.string pieces) 0x5c = some ([], .escape pieces) := rfl
  have hnumeric : step (.escape pieces) 0x75 = some ([], .unit pieces 0 0) := rfl
  have hdigit : ∀ count value d, d < 16 → count ≠ 3 → step (.unit pieces count value) (hexByte d) =
      some ([], .unit pieces (count + 1) (16 * value + d)) := by
    intro count value d hd hcount
    simp only [step, digit?_hexByte d hd, Option.map_some, if_neg hcount]
  have hlast : ∀ value d, d < 16 → step (.unit pieces 3 value) (hexByte d) =
      some ([], .string (.unit (16 * value + d) :: pieces)) := by
    intro value d hd
    simp only [step, digit?_hexByte d hd, Option.map_some, if_true]
  have hvalue : 16 * (16 * (16 * (16 * 0 + n / 16 / 16 / 16 % 16) + n / 16 / 16 % 16) +
      n / 16 % 16) + n % 16 = n := by omega
  have hlt : ∀ m, m % 16 < 16 := fun m => Nat.mod_lt m (by decide)
  rw [tokensFrom_of_step hslash, tokensFrom_of_step hnumeric,
    tokensFrom_of_step (hdigit 0 0 _ (hlt _) (by decide)),
    tokensFrom_of_step (hdigit 1 _ _ (hlt _) (by decide)),
    tokensFrom_of_step (hdigit 2 _ _ (hlt _) (by decide)),
    tokensFrom_of_step (hlast _ _ (hlt _)), hvalue]
  rfl

/-! ## §3 One character -/

/-- The pieces that a character inside a string is read as. -/
def piecesOf (c : Char) : List Piece :=
  if escapeChar c = [c] then (String.utf8EncodeChar c).map .byte else [.unit c.toNat]

theorem piecesOf_of_escaped {c : Char} (h : escapeChar c ≠ [c]) : piecesOf c = [.unit c.toNat] :=
  if_neg h

/-- **How a character is written**: as a backslash and a letter, with its number, or as
itself. -/
inductive Written (c : Char) : Prop where
  | short (letter : Char) (b : UInt8) (escape : escapeChar c = ['\\', letter])
      (byte : String.utf8EncodeChar letter = [b]) (unit : escaped? b = some c.toNat)
      (small : c.toNat < 128)
  | numbered (escape : escapeChar c = ['\\', 'u'] ++ Hexadecimal.digits 4 c.toNat)
      (control : c.toNat < 0x20)
  | plain (escape : escapeChar c = [c]) (quote : c ≠ Char.ofNat 0x22) (slash : c ≠ '\\')
      (visible : ¬ c.toNat < 0x20)

theorem written (c : Char) : Written c := by
  fun_cases escapeChar c with
  | case1 heq =>
    subst heq
    exact .short _ 0x22 rfl (by decide) (by decide) (by decide)
  | case2 _ heq =>
    subst heq
    exact .short _ 0x5c rfl (by decide) (by decide) (by decide)
  | case3 _ _ heq =>
    subst heq
    exact .short _ 0x62 rfl (by decide) (by decide) (by decide)
  | case4 _ _ _ heq =>
    subst heq
    exact .short _ 0x66 rfl (by decide) (by decide) (by decide)
  | case5 _ _ _ _ heq =>
    subst heq
    exact .short _ 0x6e rfl (by decide) (by decide) (by decide)
  | case6 _ _ _ _ _ heq =>
    subst heq
    exact .short _ 0x72 rfl (by decide) (by decide) (by decide)
  | case7 _ _ _ _ _ _ heq =>
    subst heq
    exact .short _ 0x74 rfl (by decide) (by decide) (by decide)
  | case8 hquote hslash hback hfeed hline hreturn htab hcontrol =>
    refine .numbered ?_ hcontrol
    simp only [escapeChar, if_neg hquote, if_neg hslash, if_neg hback, if_neg hfeed,
      if_neg hline, if_neg hreturn, if_neg htab, if_pos hcontrol]
  | case9 hquote hslash hback hfeed hline hreturn htab hcontrol =>
    refine .plain ?_ hquote hslash hcontrol
    simp only [escapeChar, if_neg hquote, if_neg hslash, if_neg hback, if_neg hfeed,
      if_neg hline, if_neg hreturn, if_neg htab, if_neg hcontrol]

/-- The bytes of a character that stands for itself do so, too. -/
theorem plain_utf8EncodeChar {c : Char} (hquote : c ≠ Char.ofNat 0x22) (hslash : c ≠ '\\')
    (hvisible : ¬ c.toNat < 0x20) :
    ∀ b ∈ String.utf8EncodeChar c, b ≠ 0x22 ∧ b ≠ 0x5c ∧ ¬ b < 0x20 := by
  intro b hb
  have hchar : ∀ n, c.toNat = n → c = Char.ofNat n := by
    rintro n rfl
    exact (Char.ofNat_toNat c).symm
  rcases Bytes.utf8EncodeChar_cases c with ⟨hascii, hone⟩ | ⟨-, hhigh⟩
  · rw [hone, List.mem_singleton] at hb
    have hnumber : b.toNat = c.toNat := by
      rw [hb, UInt8.toNat_ofNat', Nat.mod_eq_of_lt (by omega)]
    refine ⟨?_, ?_, fun hlt => hvisible (hnumber ▸ hlt)⟩
    · rintro rfl
      exact hquote (hchar _ hnumber.symm)
    · rintro rfl
      exact hslash (hchar _ hnumber.symm)
  · have hhigh := hhigh b hb
    refine ⟨?_, ?_, fun hlt => ?_⟩
    · rintro rfl
      exact absurd hhigh (by decide)
    · rintro rfl
      exact absurd hhigh (by decide)
    · have hlt : b.toNat < 32 := hlt
      omega

/-- The bytes that a character is written as with its number. -/
theorem utf8_numbered (n : Nat) :
    (['\\', 'u'] ++ Hexadecimal.digits 4 n).flatMap String.utf8EncodeChar =
      [0x5c, 0x75, hexByte (n / 16 / 16 / 16 % 16), hexByte (n / 16 / 16 % 16),
        hexByte (n / 16 % 16), hexByte (n % 16)] := by
  have hdigit : ∀ d < 16, String.utf8EncodeChar (Nat.digitChar d) = [hexByte d] := by decide
  have hdigit : ∀ n, String.utf8EncodeChar (Nat.digitChar (n % 16)) = [hexByte (n % 16)] :=
    fun n => hdigit _ (Nat.mod_lt n (by decide))
  have hslash : String.utf8EncodeChar '\\' = [0x5c] := by decide
  have hu : String.utf8EncodeChar 'u' = [0x75] := by decide
  simp [Hexadecimal.digits, hdigit, hslash, hu]

/-- What a character is written as takes the lexer past its pieces. -/
theorem tokensFrom_escapeChar (c : Char) (pieces : List Piece) (before : List Token)
    (rest : Bytes) :
    tokensFrom (.string pieces) before
        ((escapeChar c).flatMap String.utf8EncodeChar ++ rest) =
      tokensFrom (.string ((piecesOf c).reverse ++ pieces)) before rest := by
  cases written c with
  | short letter b hescape hbyte hunit hsmall =>
    have hslash : String.utf8EncodeChar '\\' = [0x5c] := by decide
    have hne : escapeChar c ≠ [c] := by simp [hescape]
    rw [piecesOf_of_escaped hne, hescape]
    simp only [List.flatMap_cons, List.flatMap_nil, hslash, hbyte, List.append_nil,
      List.cons_append, List.nil_append]
    exact tokensFrom_short hunit pieces before rest
  | numbered hescape hcontrol =>
    have hne : escapeChar c ≠ [c] := by simp [hescape]
    rw [piecesOf_of_escaped hne, hescape, utf8_numbered]
    exact tokensFrom_numeric (by omega) pieces before rest
  | plain hescape hquote hslash hvisible =>
    rw [piecesOf, if_pos hescape, hescape, List.flatMap_singleton]
    exact tokensFrom_plain (plain_utf8EncodeChar hquote hslash hvisible) pieces before rest

/-- A code unit that is no half of a pair stands for a character of its own. -/
theorem bytesOfPieces_unit {u : Nat} (hhigh : isHighSurrogate u = false)
    (hlow : isLowSurrogate u = false) (rest : List Piece) :
    bytesOfPieces (.unit u :: rest) = (bytesOfPieces rest).map (bytesOfNumber u ++ ·) := by
  cases rest with
  | nil => simp [bytesOfPieces, hhigh, hlow]
  | cons piece rest => cases piece <;> simp [bytesOfPieces, hhigh, hlow]

/-- Only characters of one byte are escaped. -/
theorem toNat_of_escaped {c : Char} (h : escapeChar c ≠ [c]) : c.toNat < 128 := by
  cases written c with
  | short letter b hescape hbyte hunit hsmall => exact hsmall
  | numbered hescape hcontrol => omega
  | plain hescape hquote hslash hvisible => exact absurd hescape h

/-- The pieces of a character stand for its bytes. -/
theorem bytesOfPieces_piecesOf (c : Char) (rest : List Piece) :
    bytesOfPieces (piecesOf c ++ rest) =
      (bytesOfPieces rest).map (String.utf8EncodeChar c ++ ·) := by
  have hbytes : ∀ bytes : Bytes, bytesOfPieces (bytes.map .byte ++ rest) =
      (bytesOfPieces rest).map (bytes ++ ·) := by
    intro bytes
    induction bytes with
    | nil => simp
    | cons b bytes ih =>
      rw [List.map_cons, List.cons_append, bytesOfPieces, ih, Option.map_map]
      rfl
  unfold piecesOf
  split
  · exact hbytes _
  · rename_i hescaped
    have hsmall := toNat_of_escaped hescaped
    have hhigh : isHighSurrogate c.toNat = false := by simp [isHighSurrogate]; omega
    have hlow : isLowSurrogate c.toNat = false := by simp [isLowSurrogate]; omega
    have hnumber : bytesOfNumber c.toNat = String.utf8EncodeChar c := by
      rw [bytesOfNumber, Bytes.ofText_eq, Char.ofNat_toNat, String.toList_singleton,
        List.flatMap_singleton]
    rw [List.singleton_append, bytesOfPieces_unit hhigh hlow, hnumber]

/-! ## §4 A whole text -/

/-- **A quoted text is one token**, wherever it stands between tokens. -/
theorem tokensFrom_quote (s : String) (before : List Token) (rest : Bytes) :
    tokensFrom .between before (Bytes.ofText (quote s) ++ rest) =
      tokensFrom .between (.string (s.toList.flatMap piecesOf) :: before) rest := by
  -- from inside the string, with the pieces read so far
  have hinside : ∀ (chars : List Char) (pieces : List Piece) (rest : Bytes),
      tokensFrom (.string pieces) before
          ((chars.flatMap escapeChar).flatMap String.utf8EncodeChar ++ rest) =
        tokensFrom (.string ((chars.flatMap piecesOf).reverse ++ pieces)) before rest := by
    intro chars
    induction chars with
    | nil => intro pieces rest; rfl
    | cons c chars ih =>
      intro pieces rest
      rw [List.flatMap_cons, List.flatMap_append, List.append_assoc, tokensFrom_escapeChar, ih,
        List.flatMap_cons, List.reverse_append, List.append_assoc]
  have hmark : Bytes.ofText "\"" = [0x22] := by
    rw [Bytes.ofText_eq]
    decide
  have hopen : step .between 0x22 = some ([], .string []) := by decide
  have hclose : ∀ pieces, step (.string pieces) 0x22 =
      some ([.string pieces.reverse], .between) := fun _ => rfl
  rw [quote, Bytes.ofText_append, Bytes.ofText_append, hmark, Bytes.ofText_ofList]
  simp only [List.append_assoc, List.cons_append, List.nil_append]
  rw [tokensFrom_of_step hopen, List.reverse_nil, List.nil_append, hinside,
    tokensFrom_of_step (hclose _)]
  simp

/-- The pieces of a text stand for the text. -/
theorem textOfPieces_piecesOf (s : String) : textOfPieces (s.toList.flatMap piecesOf) = some s := by
  have hbytes : ∀ chars : List Char, bytesOfPieces (chars.flatMap piecesOf) =
      some (chars.flatMap String.utf8EncodeChar) := by
    intro chars
    induction chars with
    | nil => rfl
    | cons c chars ih =>
      rw [List.flatMap_cons, bytesOfPieces_piecesOf, ih]
      rfl
  rw [textOfPieces, hbytes, Option.bind_some, ← Bytes.ofText_eq, Bytes.toText?_ofText]

end Json

theorem Format.text_write (s : String) :
    Format.text.write s = some (Bytes.ofText (Json.quote s)) :=
  rfl

/-- **Texts survive their travel**: what the format writes for a text it reads as that text. -/
theorem Format.text_read (s : String) :
    Format.text.read (Bytes.ofText (Json.quote s)) = some s := by
  have htokens : Json.tokens (Bytes.ofText (Json.quote s)) =
      some [.string (s.toList.flatMap Json.piecesOf)] := by
    have hquote := Json.tokensFrom_quote s [] []
    rw [List.append_nil] at hquote
    rw [Json.tokens, hquote]
    rfl
  have htree : Json.Tree.ofBytes? (Bytes.ofText (Json.quote s)) =
      some (.string (s.toList.flatMap Json.piecesOf)) := by
    rw [Json.Tree.ofBytes?, htokens]
    rfl
  simp only [Format.text, Format.ofJson, htree, Option.bind_some, Json.Tree.text?,
    Json.textOfPieces_piecesOf]

end ClusterView
