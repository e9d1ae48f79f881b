import ClusterView.CommandLine

/-!
# The program

Reads the arguments and the configuration file, and prints what the run comes to.

## Sections
- §1: Reading the file
- §2: The entry point
-/

namespace ClusterView.Main

/-! ## §1 Reading the file -/

/-- The cause of a failed read. -/
def causeOf : IO.Error → IoError
  | .noFileOrDirectory .. => .noSuchFile
  -- 20 is the code of a path that leads through a file
  | .inappropriateType _ code _ => if code = 20 then .notADirectory else .isADirectory
  | e => .refused (toString e)

/-- The content of a file, or why it cannot be read. -/
def contentOf (path : String) : IO (Except IoError Bytes) := do
  try
    return .ok (← IO.FS.readBinFile path).toList
  catch e =>
    return .error (causeOf e)

end ClusterView.Main

/-! ## §2 The entry point -/

/-- Run the program with the arguments of the command line. -/
def main (args : List String) : IO UInt32 := do
  let options := ClusterView.CommandLine.read args
  let path := match options with
    | .ok o => o.config
    | .error _ => none
  let content ← match path with
    | some path => ClusterView.Main.contentOf path
    | none => pure (.error .noSuchFile)
  let outcome :=
    ClusterView.CommandLine.run ClusterView.Fabric.counting args fun _ => content
  let verbose := match options with
    | .ok o => o.verbose
    | .error _ => false
  for event in outcome.events do
    if verbose || event.severity == .warn then
      IO.eprintln event.text
  IO.print outcome.stdout
  IO.eprint outcome.stderr
  return outcome.exit.toUInt32
