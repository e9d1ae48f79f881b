import ClusterView.Json.Token

/-!
# JSON trees

A tree is the bracket structure of a text, with strings and numbers as they are written.
The parser keeps the open brackets in a list, so that texts may nest as deeply as they
like. Every reading of a text starts from its tree: parts that a reader does not care
about are simply left alone.

## Sections
- §1: Trees
- §2: Parser states
- §3: One token
- §4: The parser
- §5: Text of strings
-/

namespace ClusterView.Json

/-! ## §1 Trees -/

inductive Tree where
  | word (w : Word)
  | number (n : NumberText)
  | string (pieces : List Piece)
  | array (items : List Tree)
  | object (members : List (List Piece × Tree))
deriving Repr

/-! ## §2 Parser states -/

/-- **Open bracket** with what it holds so far, latest first. -/
inductive Frame where
  | array (items : List Tree)
  /-- An object between two members. -/
  | object (members : List (List Piece × Tree))
  /-- An object in which the value of a key is due. -/
  | member (members : List (List Piece × Tree)) (key : List Piece)

inductive Due where
  | value
  | itemOrEnd
  | key
  | keyOrEnd
  /-- The colon after a key. -/
  | colon (key : List Piece)
  | commaOrEnd
  /-- Nothing: the value is complete. -/
  | nothing (tree : Tree)

/-- **Parser state**: what is due, and the open brackets, innermost first. -/
structure ParseState where
  due : Due
  frames : List Frame

/-! ## §3 One token -/

/-- Put a complete value where it belongs. -/
def complete (tree : Tree) : List Frame → Option ParseState
  | [] => some ⟨.nothing tree, []⟩
  | .array items :: frames => some ⟨.commaOrEnd, .array (tree :: items) :: frames⟩
  | .member members key :: frames => some ⟨.commaOrEnd, .object ((key, tree) :: members) :: frames⟩
  -- an object takes a value only after a key and a colon
  | .object _ :: _ => none

/-- A token where a value is due. -/
def stepValue (frames : List Frame) : Token → Option ParseState
  | .beginArray => some ⟨.itemOrEnd, .array [] :: frames⟩
  | .beginObject => some ⟨.keyOrEnd, .object [] :: frames⟩
  | .word w => complete (.word w) frames
  | .string pieces => complete (.string pieces) frames
  | .number n => complete (.number n) frames
  | _ => none

/-- Close the innermost bracket. -/
def close (token : Token) : List Frame → Option ParseState
  | .array items :: frames =>
      if token = .endArray then complete (.array items.reverse) frames else none
  | .object members :: frames =>
      if token = .endObject then complete (.object members.reverse) frames else none
  | _ => none

/-- **One token**: the state after it, or nothing if it cannot stand here. -/
def ParseState.step (s : ParseState) (token : Token) : Option ParseState :=
  match s.due with
  | .value => stepValue s.frames token
  | .itemOrEnd =>
      if token = .endArray then close token s.frames else stepValue s.frames token
  | .key =>
      match token with
      | .string pieces => some ⟨.colon pieces, s.frames⟩
      | _ => none
  | .keyOrEnd =>
      match token with
      | .string pieces => some ⟨.colon pieces, s.frames⟩
      | _ => close token s.frames
  | .colon key =>
      match token, s.frames with
      | .colon, .object members :: frames => some ⟨.value, .member members key :: frames⟩
      | _, _ => none
  | .commaOrEnd =>
      match token, s.frames with
      -- after a comma the bracket may not end
      | .comma, .array items :: frames => some ⟨.value, .array items :: frames⟩
      | .comma, .object members :: frames => some ⟨.key, .object members :: frames⟩
      | _, _ => close token s.frames
  | .nothing _ => none

/-! ## §4 The parser -/

/-- Process tokens from a state. -/
def parseFrom : ParseState → List Token → Option Tree
  | s, [] =>
      match s.due with
      | .nothing tree => some tree
      | _ => none
  | s, token :: rest =>
      match s.step token with
      | none => none
      | some s => parseFrom s rest

/-- **Parser**: the tree of a text that holds one value and nothing else. -/
def Tree.ofBytes? (text : Bytes) : Option Tree := do
  parseFrom ⟨.value, []⟩ (← tokens text)

/-! ## §5 Text of strings -/

/-- Is this the first half of a surrogate pair? -/
def isHighSurrogate (u : Nat) : Bool := 0xd800 ≤ u && u ≤ 0xdbff

/-- Is this the second half of a surrogate pair? -/
def isLowSurrogate (u : Nat) : Bool := 0xdc00 ≤ u && u ≤ 0xdfff

/-- The UTF-8 bytes of the character with a number. -/
def bytesOfNumber (n : Nat) : Bytes := Bytes.ofText (String.singleton (Char.ofNat n))

/-- The UTF-8 bytes that the pieces of a string stand for. Surrogates count only in
pairs. -/
def bytesOfPieces : List Piece → Option Bytes
  | [] => some []
  | .byte b :: rest => (bytesOfPieces rest).map (b :: ·)
  | .unit high :: .unit low :: rest =>
      if isHighSurrogate high then
        -- ten bits of each half, on top of the numbers that need no pair
        if isLowSurrogate low then
          (bytesOfPieces rest).map
            (bytesOfNumber (0x10000 + (high - 0xd800) * 0x400 + (low - 0xdc00)) ++ ·)
        else none
      else if isLowSurrogate high then none
      else (bytesOfPieces (.unit low :: rest)).map (bytesOfNumber high ++ ·)
  | .unit u :: rest =>
      if isHighSurrogate u || isLowSurrogate u then none
      else (bytesOfPieces rest).map (bytesOfNumber u ++ ·)

/-- **Text** of a string, if its pieces make up text. -/
def textOfPieces (pieces : List Piece) : Option String :=
  (bytesOfPieces pieces).bind Bytes.toText?

end ClusterView.Json
