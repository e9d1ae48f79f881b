import ClusterView.Hexadecimal

/-!
# JSON tokens

The lexer reads bytes one at a time. It checks what can be checked without knowing what
the text is for: punctuation, the three words, the shape of numbers, and that strings
have no control characters and only proper escapes. Whether a string's bytes and
surrogates make up text, and whether a number is in range, is left to whoever uses it.

## Sections
- §1: Tokens
- §2: Lexer states
- §3: One byte
- §4: The lexer
-/

namespace ClusterView.Json

/-! ## §1 Tokens -/

/-- **Piece of a string**: a byte as it stands, or a UTF-16 code unit that an escape
stands for. -/
inductive Piece where
  | byte (b : UInt8)
  | unit (u : Nat)
deriving DecidableEq, Repr

structure NumberText where
  /-- Does it begin with a minus sign? -/
  negative : Bool
  /-- Digits before the point. -/
  whole : List Nat
  /-- Digits after the point; none if there is no point. -/
  fraction : List Nat
  /-- Whether the exponent is negative, and its digits. -/
  exponent : Option (Bool × List Nat)
deriving DecidableEq, Repr

/-- **Word** of the language. -/
inductive Word where
  | null
  | true
  | false
deriving DecidableEq, Repr

/-- The bytes of a word. -/
def Word.bytes : Word → Bytes
  | .null => [0x6e, 0x75, 0x6c, 0x6c]
  | .true => [0x74, 0x72, 0x75, 0x65]
  | .false => [0x66, 0x61, 0x6c, 0x73, 0x65]

inductive Token where
  | beginArray
  | endArray
  | beginObject
  | endObject
  | colon
  | comma
  | word (w : Word)
  | string (pieces : List Piece)
  | number (n : NumberText)
deriving DecidableEq, Repr

/-! ## §2 Lexer states -/

/-- **Part of a number** that the lexer is in. -/
inductive NumberPart where
  | minus
  | zero
  | whole
  | point
  | fraction
  | mark
  | sign
  | exponent
deriving DecidableEq, Repr

/-- Can a number end after this part? -/
def NumberPart.isComplete : NumberPart → Bool
  | .zero | .whole | .fraction | .exponent => true
  | _ => false

/-- **Lexer state**. Pieces and digits read so far are kept latest first. -/
inductive LexState where
  | between
  /-- In a word, with the bytes that are still due. -/
  | word (due : Bytes) (w : Word)
  | string (pieces : List Piece)
  /-- In a string, after a backslash. -/
  | escape (pieces : List Piece)
  /-- In a string, in a numeric escape of which some digits are read. -/
  | unit (pieces : List Piece) (count value : Nat)
  | number (part : NumberPart) (n : NumberText)
deriving DecidableEq, Repr

/-! ## §3 One byte -/

/-- The blanks between tokens: space, tab, line feed and carriage return. -/
def isBlank (b : UInt8) : Bool := b == 0x20 || b == 0x09 || b == 0x0a || b == 0x0d

/-- The value of a decimal digit. -/
def digit? (b : UInt8) : Option Nat :=
  if 0x30 ≤ b ∧ b ≤ 0x39 then some (b.toNat - 0x30) else none

/-- The code unit that a one-letter escape stands for. -/
def escaped? (b : UInt8) : Option Nat :=
  [ (0x22, 0x22), (0x5c, 0x5c), (0x2f, 0x2f), (0x62, 0x08), (0x66, 0x0c), (0x6e, 0x0a),
    (0x72, 0x0d), (0x74, 0x09) ].lookup b

/-- Token of a punctuation byte. -/
def punctuation? (b : UInt8) : Option Token :=
  [ (0x5b, Token.beginArray), (0x5d, .endArray), (0x7b, .beginObject), (0x7d, .endObject),
    (0x3a, .colon), (0x2c, .comma) ].lookup b

/-- The word that begins with a byte. -/
def wordOf? (b : UInt8) : Option Word :=
  [ (0x6e, Word.null), (0x74, .true), (0x66, .false) ].lookup b

/-- The tokens that a byte between tokens completes, and the state after it. -/
def stepBetween (b : UInt8) : Option (List Token × LexState) :=
  if isBlank b then some ([], .between)
  else if b = 0x22 then some ([], .string [])
  else if b = 0x2d then some ([], .number .minus ⟨true, [], [], none⟩)
  else
    match digit? b with
    -- no digit may follow a leading zero
    | some 0 => some ([], .number .zero ⟨false, [0], [], none⟩)
    | some d => some ([], .number .whole ⟨false, [d], [], none⟩)
    | none =>
        match punctuation? b with
        | some token => some ([token], .between)
        | none => (wordOf? b).map fun w => ([], .word (w.bytes.drop 1) w)

/-- A number with its digits in the order they were written. -/
def NumberText.inOrder (n : NumberText) : NumberText :=
  { n with
    whole := n.whole.reverse
    fraction := n.fraction.reverse
    exponent := n.exponent.map fun e => (e.1, e.2.reverse) }

/-- A digit more in the exponent. -/
def NumberText.withExponentDigit (n : NumberText) (d : Nat) : NumberText :=
  { n with exponent := some ((n.exponent.map (·.1)).getD false, d :: ((n.exponent.map (·.2)).getD [])) }

/-- How a number goes on with a byte, if the byte belongs to it. -/
def continueNumber? (part : NumberPart) (n : NumberText) (b : UInt8) :
    Option (NumberPart × NumberText) :=
  match part, digit? b with
  | .minus, some 0 => some (.zero, { n with whole := [0] })
  | .minus, some d | .whole, some d => some (.whole, { n with whole := d :: n.whole })
  | .point, some d | .fraction, some d => some (.fraction, { n with fraction := d :: n.fraction })
  | .mark, some d | .sign, some d | .exponent, some d => some (.exponent, n.withExponentDigit d)
  | .zero, none | .whole, none =>
      if b = 0x2e then some (.point, n)
      else if b = 0x65 ∨ b = 0x45 then some (.mark, { n with exponent := some (false, []) })
      else none
  | .fraction, none =>
      if b = 0x65 ∨ b = 0x45 then some (.mark, { n with exponent := some (false, []) }) else none
  | .mark, none =>
      if b = 0x2b then some (.sign, n)
      else if b = 0x2d then some (.sign, { n with exponent := some (true, []) })
      else none
  | _, _ => none

/-- **One byte**: the tokens it completes and the state after it, or nothing if it cannot
stand here. A byte that does not belong to a complete number ends it. -/
def step (state : LexState) (b : UInt8) : Option (List Token × LexState) :=
  match state with
  | .between => stepBetween b
  | .word due w =>
      match due with
      | [] => none
      | [last] => if b = last then some ([.word w], .between) else none
      | next :: due => if b = next then some ([], .word due w) else none
  | .string pieces =>
      if b = 0x22 then some ([.string pieces.reverse], .between)
      else if b = 0x5c then some ([], .escape pieces)
      else if b < 0x20 then none
      else some ([], .string (.byte b :: pieces))
  | .escape pieces =>
      if b = 0x75 then some ([], .unit pieces 0 0)
      else (escaped? b).map fun u => ([], .string (.unit u :: pieces))
  | .unit pieces count value =>
      (Hexadecimal.digit? b).map fun d =>
        -- the fourth digit completes the code unit
        if count = 3 then ([], .string (.unit (16 * value + d) :: pieces))
        else ([], .unit pieces (count + 1) (16 * value + d))
  | .number part n =>
      match continueNumber? part n b with
      | some (part, n) => some ([], .number part n)
      | none =>
          -- a digit here would follow a leading zero
          if part.isComplete ∧ (digit? b).isNone then
            (stepBetween b).map fun result => (.number n.inOrder :: result.1, result.2)
          else none

/-! ## §4 The lexer -/

/-- The tokens that the end of the text completes. -/
def finish : LexState → Option (List Token)
  | .between => some []
  | .number part n => if part.isComplete then some [.number n.inOrder] else none
  | _ => none

/-- The tokens of the rest of a text; `before` holds the earlier ones, latest first. -/
def tokensFrom (state : LexState) (before : List Token) : Bytes → Option (List Token)
  | [] => (finish state).map fun last => before.reverse ++ last
  | b :: rest =>
      match step state b with
      | none => none
      | some (tokens, state) => tokensFrom state (tokens.reverse ++ before) rest

/-- **Lexer**: the tokens of a text. -/
def tokens (text : Bytes) : Option (List Token) := tokensFrom .between [] text

end ClusterView.Json
