import ClusterView.Config.Text

/-!
# Formats

A format writes values as bytes and reads them back. The formats here write compact
JSON. Reading is strict: a number must be an integer in range where one is asked for, a
string must be text, and a value of another shape is refused.

## Sections
- §1: Formats
- §2: Reading single values
- §3: Reading collections
- §4: The formats
-/

namespace ClusterView

/-! ## §1 Formats -/

/-- **Format** for values of a type. A value without written form, and bytes that hold no
value, are refused. -/
structure Format (α : Type) where
  write : α → Option Bytes
  read : Bytes → Option α

/-- A format that goes through JSON. -/
def Format.ofJson {α : Type} (toJson : α → Json) (ofTree? : Json.Tree → Option α) : Format α where
  write value := some (Bytes.ofText (toJson value).compact)
  read bytes := (Json.Tree.ofBytes? bytes).bind ofTree?

namespace Json.Tree

/-! ## §2 Reading single values -/

/-- The text of a string. -/
def text? : Tree → Option String
  | .string pieces => textOfPieces pieces
  | _ => none

/-- A truth value. -/
def truth? : Tree → Option Bool
  | .word .true => some true
  | .word .false => some false
  | _ => none

/-- An integer written without point and exponent. -/
def integer? : Tree → Option Int
  | .number n =>
      match Number.ofText n with
      | some (.natural n) => some n.toNat
      | some (.negative n) => some n.toInt
      | _ => none
  | _ => none

/-- An integer within bounds. -/
def integerWithin? (least greatest : Int) (t : Tree) : Option Int :=
  t.integer?.bind fun n => if least ≤ n ∧ n ≤ greatest then some n else none

/-- A string of one character. -/
def char? (t : Tree) : Option Char :=
  t.text?.bind fun s =>
    match s.toList with
    | [c] => some c
    | _ => none

/-! ## §3 Reading collections -/

/-- The items of an array, each read in the same way. -/
def listOf? {α : Type} (item : Tree → Option α) : Tree → Option (List α)
  | .array items => items.mapM item
  | _ => none

/-- The members of an object, inserted by key one after the other. -/
def tableOfMembers {α : Type} (item : Tree → Option α) :
    List (String × α) → List (List Piece × Tree) → Option (List (String × α))
  | sofar, [] => some sofar
  | sofar, (key, t) :: rest => do
      tableOfMembers item (insertMember (← textOfPieces key) (← item t) sofar) rest

/-- A table: the members of an object by key. -/
def tableOf? {α : Type} (item : Tree → Option α) : Tree → Option (List (String × α))
  | .object members => tableOfMembers item [] members
  | _ => none

/-- A value that may be missing. -/
def optional? {α : Type} (item : Tree → Option α) : Tree → Option (Option α)
  | .word .null => some none
  | t => (item t).map some

/-- An array of two. -/
def pair? {α β : Type} (first : Tree → Option α) (second : Tree → Option β) :
    Tree → Option (α × β)
  | .array [a, b] => do return (← first a, ← second b)
  | _ => none

end Json.Tree

/-! ## §4 The formats -/

/-- An integer of at most 64 bits as a value. -/
def Json.integer (n : Int) : Json :=
  if n < 0 then .number (.negative (Int64.ofInt n)) else .natural (UInt64.ofNat n.toNat)

namespace Format

open Json.Tree

/-- Any JSON value. -/
def value : Format Json := ofJson id (Json.ofTree Json.depthLimit)

/-- Text. -/
def text : Format String := ofJson Json.string text?

/-- A list of texts. -/
def texts : Format (List String) :=
  ofJson (fun items => .array (items.map Json.string)) (listOf? text?)

/-- A natural number below 2 ^ 64. -/
def natural64 : Format UInt64 := ofJson Json.natural natural?

/-- A natural number below 2 ^ 8. -/
def natural8 : Format UInt8 :=
  ofJson (fun n => Json.natural n.toUInt64) fun t =>
    (t.integerWithin? 0 255).map fun n => UInt8.ofNat n.toNat

/-- A truth value. -/
def truth : Format Bool := ofJson Json.bool truth?

/-- A character, as a string of its own. -/
def char : Format Char := ofJson (fun c => Json.string (String.singleton c)) char?

/-- A signed integer of 64 bits. -/
def integer64? (t : Json.Tree) : Option Int64 :=
  (t.integerWithin? Int64.minValue.toInt Int64.maxValue.toInt).map Int64.ofInt

/-- A signed integer of 32 bits. -/
def integer32? (t : Json.Tree) : Option Int32 :=
  (t.integerWithin? Int32.minValue.toInt Int32.maxValue.toInt).map Int32.ofInt

/-- A table of integers, sorted by key. -/
def table : Format (List (String × Int64)) :=
  ofJson (fun entries => .object (entries.map fun e => (e.1, Json.integer e.2.toInt)))
    (tableOf? integer64?)

/-- An integer or nothing. -/
def optional : Format (Option Int32) :=
  ofJson (fun n => (n.map fun n => Json.integer n.toInt).getD .null) (optional? integer32?)

/-- An integer and a text. -/
def pair : Format (Int32 × String) :=
  ofJson (fun p => .array [Json.integer p.1.toInt, .string p.2]) (pair? integer32? text?)

/-- A cluster configuration. -/
def config : Format Config := ofJson Config.toJson Config.ofTree?

end Format

end ClusterView
