import ClusterView.CommError

/-!
# Locations

Where a path leads in a tree of directories. A path is followed name by name, and every
name but the last has to lead to a directory. A single dot stays in the directory, two
dots lead to the directory above, and the root is above itself.

## Sections
- §1: Entries
- §2: Following names
- §3: Following paths
-/

namespace ClusterView

/-! ## §1 Entries -/

/-- **Location**: the names that lead from the root to a file or a directory. -/
abbrev Location := List String

namespace Location

/-- **Entry**: what is there at a location. -/
inductive Entry where
  | directory
  | file
deriving DecidableEq, Repr

/-- Size of the longest name in bytes. -/
def longestName : Nat := 255

/-- Size of the longest path in bytes. -/
def longestPath : Nat := 4095

/-! ## §2 Following names -/

/-- **Follow names** from a location on. The last name may lead to nothing. -/
def follow (entry : Location → Option Entry) : Location → List String → Except IoError Location
  | here, [] => .ok here
  | here, name :: rest =>
      match entry here with
      | none => .error .noSuchFile
      | some .file => .error .notADirectory
      | some .directory =>
          -- two slashes in a row leave an empty name between them
          if name = "" ∨ name = "." then follow entry here rest
          -- the root is above itself, and `dropLast` of no name is none
          else if name = ".." then follow entry here.dropLast rest
          else if longestName < name.utf8ByteSize then .error .nameTooLong
          else follow entry (here ++ [name]) rest

/-! ## §3 Following paths -/

/-- Where a path starts: at the root if a slash comes first. -/
def start (base : Location) (path : String) : Location :=
  if path.startsWith "/" then [] else base

/-- Is the path fit to be followed at all? -/
def checkPath (path : String) : Except IoError Unit :=
  if path.contains '\x00' then .error .nulInName
  else if longestPath < path.utf8ByteSize then .error .nameTooLong
  else .ok ()

/-- **The file that a path names**, for reading. A slash at the end asks for a directory. -/
def ofFile (entry : Location → Option Entry) (base : Location) (path : String) :
    Except IoError Location := do
  checkPath path
  let place ← follow entry (start base path) (path.splitOn "/")
  match entry place with
  | some .file => return place
  | some .directory => throw .isADirectory
  | none => throw .noSuchFile

/-- **The file that a path names**, for writing; it need not be there yet, but its directory
has to be. -/
def ofNewFile (entry : Location → Option Entry) (base : Location) (path : String) :
    Except IoError Location := do
  checkPath path
  let names := (path.splitOn "/").filter (· ≠ "")
  -- the dot asks for a directory where the last name is to go
  let parent ← follow entry (start base path) (names.dropLast ++ ["."])
  if path.endsWith "/" then throw .isADirectory
  let place ← follow entry parent [names.getLast?.getD "."]
  if entry place = some .directory then throw .isADirectory
  return place

end Location

end ClusterView
