import ClusterView.Config
import ClusterView.Json.Value

/-!
# Configuration text

A configuration is written as a JSON object with a field for each of its parts; the
overrides are an object whose keys are ranks. In a text that is read, every field may be
missing and then has its default, fields with other names are ignored, and a field must
not occur twice. An array with the leading parts in order is accepted as well.

## Sections
- §1: Writing
- §2: Reading the parts
- §3: Reading a configuration
- §4: Files
-/

namespace ClusterView

/-! ## §1 Writing -/

/-- **JSON value** of a configuration, with its fields in order and its overrides by
rank. -/
def Config.toJson (c : Config) : Json :=
  .object
    [ ("participants", .natural c.participants),
      ("memory_per_participant", .natural c.memoryPerParticipant),
      ("memory_overrides",
        .object (c.memoryOverrides.entries.map fun e => (e.1.toNat.repr, .natural e.2))),
      ("max_participants", .natural c.maxParticipants) ]

/-! ## §2 Reading the parts -/

/-- A natural number below 2 ^ 64, written without point and exponent. -/
def Json.Tree.natural? : Json.Tree → Option UInt64
  | .number n =>
      match Json.Number.ofText n with
      | some (.natural n) => some n
      | _ => none
  | _ => none

namespace Config

/-- The rank that a key names: plain decimal digits without leading zeros. -/
def rankOfKey? (key : List Json.Piece) : Option UInt64 := do
  let digits ← key.mapM fun
    | .byte b => Json.digit? b
    | .unit _ => none
  match digits with
  | [] => none
  | 0 :: _ :: _ => none
  | digits =>
      let value := Json.valueOfDigits digits
      if value < UInt64.size then some (UInt64.ofNat value) else none

/-- The overrides that the members of an object stand for; of several members for one
rank the last one counts. -/
def overridesOfMembers : Overrides → List (List Json.Piece × Json.Tree) → Option Overrides
  | sofar, [] => some sofar
  | sofar, (key, t) :: rest => do
      -- unlike a field, a rank may be given more than once
      overridesOfMembers (sofar.insert (← rankOfKey? key) (← t.natural?)) rest

/-- Overrides are an object. -/
def overridesOfTree? : Json.Tree → Option Overrides
  | .object members => overridesOfMembers .empty members
  | _ => none

/-! ## §3 Reading a configuration -/

/-- **Draft**: the parts of a configuration that have been read. -/
structure Draft where
  participants : Option UInt64
  memoryPerParticipant : Option UInt64
  memoryOverrides : Option Overrides
  maxParticipants : Option UInt64

namespace Draft

/-- A draft of which nothing has been read. -/
def empty : Draft := ⟨none, none, none, none⟩

/-- The configuration with the parts that were read and defaults for the others. -/
def toConfig (d : Draft) : Config :=
  { participants := d.participants.getD standard.participants
    memoryPerParticipant := d.memoryPerParticipant.getD standard.memoryPerParticipant
    memoryOverrides := d.memoryOverrides.getD standard.memoryOverrides
    maxParticipants := d.maxParticipants.getD standard.maxParticipants }

/-- Read one field. A known field must not have been read before; any other one is left
unread. -/
def field (d : Draft) (name : String) (t : Json.Tree) : Option Draft :=
  if name = "participants" then
    if d.participants.isSome then none
    else t.natural?.map fun n => { d with participants := some n }
  else if name = "memory_per_participant" then
    if d.memoryPerParticipant.isSome then none
    else t.natural?.map fun n => { d with memoryPerParticipant := some n }
  else if name = "memory_overrides" then
    if d.memoryOverrides.isSome then none
    else (overridesOfTree? t).map fun o => { d with memoryOverrides := some o }
  else if name = "max_participants" then
    if d.maxParticipants.isSome then none
    else t.natural?.map fun n => { d with maxParticipants := some n }
  else some d

/-- Read the members of an object. -/
def fields : Draft → List (List Json.Piece × Json.Tree) → Option Draft
  | d, [] => some d
  | d, (key, t) :: rest => do (← d.field (← Json.textOfPieces key) t).fields rest

end Draft

/-- The names of the fields, in order. -/
def fieldNames : List String :=
  ["participants", "memory_per_participant", "memory_overrides", "max_participants"]

/-- Read the items of an array as the leading fields. -/
def Draft.items : Draft → List String → List Json.Tree → Option Draft
  -- fields that the array is too short for keep their defaults
  | d, _, [] => some d
  | _, [], _ :: _ => none
  | d, name :: names, t :: rest => do (← d.field name t).items names rest

def ofTree? : Json.Tree → Option Config
  | .object members => (Draft.empty.fields members).map Draft.toConfig
  | .array items => (Draft.empty.items fieldNames items).map Draft.toConfig
  | _ => none

def ofText (text : String) : Except CommError Config :=
  match (Json.Tree.ofBytes? (Bytes.ofText text)).bind ofTree? with
  | some c => .ok c
  | none => .error (.config "the text does not describe a cluster")

/-! ## §4 Files -/

/-- **Configuration of a file**, given what reading the file led to. -/
def ofFile (content : Except IoError Bytes) : Except CommError Config :=
  match content with
  | .error cause => .error (.transport cause)
  | .ok bytes =>
      match bytes.toText? with
      | none => .error (.transport .notUtf8)
      | some text => ofText text

end Config

end ClusterView
