import ClusterView.Bytes
import ClusterView.Location

/-!
# Output

Where the text that an application writes ends up: the two standard streams, files, and
captures that can be looked at later.

A file is written at a position. What lies between its end and the position is filled
with zero bytes, unless there is nothing to write.

## Sections
- §1: State
- §2: Files
- §3: Captures
-/

namespace ClusterView

/-! ## §1 State -/

/-- **Output** of a process so far. -/
structure Output where
  stdout : String
  stderr : String
  files : List (Location × Bytes)
  captures : List String
deriving DecidableEq, Repr

namespace Output

/-- No output. -/
def empty : Output := ⟨"", "", [], []⟩

/-! ## §2 Files -/

/-- The directory where relative paths start. -/
def workingDirectory : Location := ["tmp", "zoneview"]

/-- Content of a file. -/
def file? (o : Output) (place : Location) : Option Bytes := o.files.lookup place

/-- Set the content of a file. -/
def setFile (o : Output) (place : Location) (content : Bytes) : Output :=
  { o with files := (place, content) :: o.files.filter fun f => f.1 != place }

/-- **What is there at a location**: a file, or one of the directories that lead to the files
and to the working directory. -/
def entry? (o : Output) (place : Location) : Option Location.Entry :=
  if (o.file? place).isSome then some .file
  -- a location that leads to something that exists is a directory
  else if (workingDirectory :: o.files.map (·.1)).any place.isPrefixOf then some .directory
  else none

/-- Put bytes at a position of some content. -/
def overwrite (content : Bytes) (position : Nat) (bytes : Bytes) : Bytes :=
  if bytes.isEmpty then content
  else
    -- a position past the end leaves a gap of zeros
    content.take position ++ List.replicate (position - content.length) 0 ++ bytes ++
      content.drop (position + bytes.length)

/-- **Write** bytes to a file at a position. -/
def writeFile (o : Output) (place : Location) (position : Nat) (bytes : Bytes) : Output :=
  o.setFile place (overwrite ((o.file? place).getD []) position bytes)

/-- **Create** the file that a path names, or empty it. -/
def create (o : Output) (path : String) : Except IoError (Location × Output) := do
  let place ← Location.ofNewFile o.entry? workingDirectory path
  return (place, o.setFile place [])

/-- **Content** of the file that a path names. -/
def contentOf (o : Output) (path : String) : Except IoError Bytes := do
  let place ← Location.ofFile o.entry? workingDirectory path
  return (o.file? place).getD []

/-! ## §3 Captures -/

/-- Open a capture. -/
def openCapture (o : Output) : Nat × Output :=
  (o.captures.length, { o with captures := o.captures ++ [""] })

/-- Content of a capture. -/
def capture (o : Output) (number : Nat) : String := o.captures.getD number ""

/-- **Append** to a capture. -/
def appendCapture (o : Output) (number : Nat) (text : String) : Output :=
  { o with captures := o.captures.set number (o.capture number ++ text) }

end Output

end ClusterView
