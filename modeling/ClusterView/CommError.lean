import ClusterView.CommHandle
import ClusterView.Datatype
import ClusterView.Operation

/-!
# Communication errors

What can go wrong between a participant and its runtime: the runtime is stopped, a
communicator cannot be found, a payload does not fit its datatype. Input and output
failures have causes of their own.

## Sections
- §1: Input and output
- §2: Communication
-/

namespace ClusterView

/-! ## §1 Input and output -/

inductive IoError where
  /-- The path names nothing, or leads through something that is not there. -/
  | noSuchFile
  /-- The path leads through a file as if it were a directory. -/
  | notADirectory
  | isADirectory
  /-- The path, or a name in it, exceeds its greatest length. -/
  | nameTooLong
  /-- The path holds a zero character, which no name can. -/
  | nulInName
  /-- The file's bytes are not UTF-8. -/
  | notUtf8
  /-- Any other refusal, in the words of whoever refused. -/
  | refused (text : String)
deriving DecidableEq, Repr

def IoError.message : IoError → String
  | .noSuchFile => "No such file or directory (os error 2)"
  | .notADirectory => "Not a directory (os error 20)"
  | .isADirectory => "Is a directory (os error 21)"
  | .nameTooLong => "File name too long (os error 36)"
  | .nulInName => "file name contained an unexpected NUL byte"
  | .notUtf8 => "stream did not contain valid UTF-8"
  | .refused text => text

/-! ## §2 Communication -/

inductive CommError where
  /-- The runtime has not been started, or has been stopped since. -/
  | notRunning
  | unknownCommunicator (handle : CommHandle)
  /-- A root or a queried participant is out of range. -/
  | invalidRank (rank size : Nat)
  | notAMember
  | unsupportedDatatype (datatype : Datatype)
  | unsupportedOp (operation : Operation) (datatype : Datatype)
  /-- A payload has the wrong length for its datatype. -/
  | malformedPayload (datatype : Datatype) (length : Nat)
  | resourceExhausted (detail : String)
  /-- A group cannot be formed. -/
  | invalidGroup (detail : String)
  /-- A configuration cannot be loaded or contradicts itself. -/
  | config (detail : String)
  | transport (cause : IoError)
deriving DecidableEq, Repr

def CommError.message : CommError → String
  | .notRunning => "runtime is not running"
  | .unknownCommunicator handle => "unknown communicator: " ++ handle.text
  | .invalidRank rank size => s!"invalid rank {rank} for communicator of size {size}"
  | .notAMember => "calling process is not a member of the communicator"
  | .unsupportedDatatype datatype => "unsupported datatype: " ++ datatype.text
  | .unsupportedOp operation datatype =>
      s!"unsupported operation {operation.text} for datatype {datatype.text}"
  | .malformedPayload datatype length => s!"malformed {datatype.text} payload of {length} bytes"
  | .resourceExhausted detail => "resource exhausted: " ++ detail
  | .invalidGroup detail => "invalid group: " ++ detail
  | .config detail => "invalid configuration: " ++ detail
  | .transport cause => "transport error: " ++ cause.message

end ClusterView
