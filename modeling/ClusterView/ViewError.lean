import ClusterView.CommError
import ClusterView.Element

/-!
# View errors

What can go wrong above the communication layer: a null view, an index out of
range, an element type that nothing is registered for. Errors from below are kept
as they are.

## Sections
- §1: Errors and their wording
-/

namespace ClusterView

/-! ## §1 Errors and their wording -/

inductive ViewError where
  /-- The operation needs a runtime behind the view. -/
  | nullView (operation : String)
  /-- A resource set index is past the end of the view. -/
  | outOfRange (index size : Nat)
  /-- The current process has no resource set in the view. -/
  | notAMember
  /-- Memory that belongs to no resource set cannot run collectives. -/
  | unattached
  | unsupportedType (type : ElementType)
  | unsupportedOperation (type : ElementType) (op : ReduceOp)
  /-- A collective's result is no encoding of the element type. -/
  | payload (type : ElementType)
  | notSupported (what : String)
  | comm (error : CommError)
  /-- A value could not be written as or read from text. -/
  | serialization
  | io (cause : IoError)
deriving DecidableEq, Repr

namespace ViewError

def message : ViewError → String
  | .nullView operation => operation ++ " requires a non-null runtime view"
  | .outOfRange index size =>
      s!"resource set index {index} out of range for view of size {size}"
  | .notAMember => "the current process is not part of this runtime view"
  | .unattached => "RAM is not attached to a resource set"
  | .unsupportedType type => "no native datatype registered for " ++ type.text
  | .unsupportedOperation type op =>
      s!"operation {op.text} is not registered for {type.text}"
  | .payload type => s!"malformed {type.text} payload"
  | .notSupported what => what ++ " is not supported"
  | .comm error => "comm error: " ++ error.message
  | .serialization => "serialization error"
  | .io cause => "io error: " ++ cause.message

/-- The wording of the error from below that this one wraps. -/
def source? : ViewError → Option String
  | .comm error => some error.message
  | .io cause => some cause.message
  | _ => none

end ViewError

end ClusterView
