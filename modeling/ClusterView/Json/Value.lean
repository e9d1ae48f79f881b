import ClusterView.Json.Number
import ClusterView.Json.Tree

/-!
# JSON values

A value is what a text means: strings are text, numbers are in range, and the members of
an object that was read are sorted by key, the last of several members with one key
winning. A text that nests deeper than a given limit has no value.

## Sections
- §1: Values
- §2: Reading
- §3: Compact and indented text
- §4: Parts of a value
-/

namespace ClusterView

/-! ## §1 Values -/

inductive Json where
  | null
  | bool (b : Bool)
  | number (n : Json.Number)
  | string (s : String)
  | array (items : List Json)
  | object (members : List (String × Json))
deriving Repr

namespace Json

/-- A natural number below 2 ^ 64 as a value. -/
def natural (n : UInt64) : Json := .number (.natural n)

/-! ## §2 Reading -/

/-- How deeply the arrays and objects of a payload may nest. -/
def depthLimit : Nat := 127

/-- Put a member in its place by key; it takes the place of an earlier one. -/
def insertMember {α : Type} (key : String) (value : α) : List (String × α) → List (String × α)
  | [] => [(key, value)]
  | (k, v) :: rest =>
      -- ascending by key, whatever the order in the text
      if key < k then (key, value) :: (k, v) :: rest
      else if key = k then (key, value) :: rest
      else (k, v) :: insertMember key value rest

mutual

/-- **Value of a tree** whose brackets nest at most as deeply as given. -/
def ofTree : (depth : Nat) → Tree → Option Json
  | _, .word .null => some .null
  | _, .word .true => some (.bool true)
  | _, .word .false => some (.bool false)
  | _, .number n => (Number.ofText n).map .number
  | _, .string pieces => (textOfPieces pieces).map .string
  -- an empty array takes up a level, too
  | 0, .array _ => none
  | depth + 1, .array items => (ofTrees depth items).map .array
  | 0, .object _ => none
  | depth + 1, .object members => (ofMembers depth [] members).map .object

/-- The values of the items of an array. -/
def ofTrees : (depth : Nat) → List Tree → Option (List Json)
  | _, [] => some []
  | depth, t :: rest => do return (← ofTree depth t) :: (← ofTrees depth rest)

/-- The members of an object, inserted one after the other. -/
def ofMembers : (depth : Nat) → List (String × Json) → List (List Piece × Tree) →
    Option (List (String × Json))
  | _, sofar, [] => some sofar
  | depth, sofar, (key, t) :: rest => do
      ofMembers depth (insertMember (← textOfPieces key) (← ofTree depth t) sofar) rest

end

def ofBytes? (depth : Nat) (text : Bytes) : Option Json := do
  ofTree depth (← Tree.ofBytes? text)

/-! ## §3 Compact and indented text -/

/-- A character inside a string: quote, backslash and control characters are escaped. -/
def escapeChar (c : Char) : List Char :=
  if c = Char.ofNat 0x22 then ['\\', c]
  else if c = '\\' then ['\\', c]
  else if c = Char.ofNat 0x08 then ['\\', 'b']
  else if c = Char.ofNat 0x0c then ['\\', 'f']
  else if c = '\n' then ['\\', 'n']
  else if c = '\r' then ['\\', 'r']
  else if c = '\t' then ['\\', 't']
  else if c.toNat < 0x20 then ['\\', 'u'] ++ Hexadecimal.digits 4 c.toNat
  else [c]

def quote (text : String) : String :=
  "\"" ++ String.ofList (text.toList.flatMap escapeChar) ++ "\""

mutual

/-- **Compact text** of a value, without blanks. -/
def compact : Json → String
  | .null => "null"
  | .bool true => "true"
  | .bool false => "false"
  | .number n => n.text
  | .string s => quote s
  | .array items => "[" ++ ",".intercalate (compactItems items) ++ "]"
  | .object members => "\x7b" ++ ",".intercalate (compactMembers members) ++ "\x7d"

/-- The compact texts of the items of an array. -/
def compactItems : List Json → List String
  | [] => []
  | j :: rest => compact j :: compactItems rest

/-- The compact texts of the members of an object. -/
def compactMembers : List (String × Json) → List String
  | [] => []
  | (key, j) :: rest => (quote key ++ ":" ++ compact j) :: compactMembers rest

end

/-- A line break followed by an indentation of two blanks a level. -/
def lineBreak (level : Nat) : String := "\n" ++ String.ofList (List.replicate (2 * level) ' ')

/-- Lines between two brackets, indented by one level more. -/
def indentedBlock (level : Nat) (opening closing : String) (lines : List String) : String :=
  if lines.isEmpty then opening ++ closing
  else
    opening ++ lineBreak (level + 1) ++ ("," ++ lineBreak (level + 1)).intercalate lines ++
      lineBreak level ++ closing

mutual

/-- **Indented text** of a value at a level of indentation. -/
def indented (level : Nat) : Json → String
  | .array items => indentedBlock level "[" "]" (indentedItems (level + 1) items)
  | .object members => indentedBlock level "\x7b" "\x7d" (indentedMembers (level + 1) members)
  | j => compact j

/-- The indented texts of the items of an array. -/
def indentedItems (level : Nat) : List Json → List String
  | [] => []
  | j :: rest => indented level j :: indentedItems level rest

/-- The indented texts of the members of an object. -/
def indentedMembers (level : Nat) : List (String × Json) → List String
  | [] => []
  | (key, j) :: rest => (quote key ++ ": " ++ indented level j) :: indentedMembers level rest

end

/-! ## §4 Parts of a value -/

/-- The member of an object with a key. -/
def member? (key : String) : Json → Option Json
  | .object members => members.lookup key
  | _ => none

/-- The items of an array. -/
def items? : Json → Option (List Json)
  | .array items => some items
  | _ => none

/-- The text of a string. -/
def text? : Json → Option String
  | .string s => some s
  | _ => none

/-- The integer of a number without point and exponent. -/
def integer? : Json → Option Int
  | .number (.natural n) => some n.toNat
  | .number (.negative n) => some n.toInt
  | _ => none

end Json

end ClusterView
