import ClusterView.CommHandle
import ClusterView.WorldId

/-!
# Diagnostic events

What the library reports about its own doings, apart from the output that an
application writes through its loggers.

## Sections
- §1: Events
- §2: Text
-/

namespace ClusterView

/-! ## §1 Events -/

/-- **Severity** of an event. -/
inductive Severity where
  | debug
  | info
  | warn
deriving DecidableEq, Repr

inductive Event where
  | runtimeStarted (rank : Nat) (world : WorldId)
  | runtimeStopped (rank : Nat) (world : WorldId)
  | groupRegistered (handle : CommHandle)
  /-- A view started a runtime or attached to it. -/
  | viewAttached (world : WorldId) (started : Bool) (handle : CommHandle)
  /-- A view has described all members of its communicator. -/
  | setsPopulated (handle : CommHandle) (size : Nat) (rank : Option Nat)
  /-- A logger could not be flushed when its view ended. -/
  | flushFailed (error kind : String)
  /-- The end of a view stopped the runtime that the view had started. -/
  | teardownStopped (world : WorldId)
  /-- The end of a view could not stop the runtime that the view had started. -/
  | teardownFailed (world : WorldId) (error : String)
  | clusterStarting (participants : Nat)
  /-- A participant of the demo has its view. -/
  | participantReady (rank : Nat)
deriving DecidableEq, Repr

namespace Event

/-- How serious an event is. -/
def severity : Event → Severity
  | .flushFailed .. | .teardownFailed .. => .warn
  | .teardownStopped .. | .clusterStarting .. => .info
  | _ => .debug

/-! ## §2 Text -/

/-- The message of an event. -/
def message : Event → String
  | .runtimeStarted .. => "local runtime started"
  | .runtimeStopped .. => "local runtime stopped"
  | .groupRegistered .. => "registered local group"
  | .viewAttached .. => "runtime view attached"
  | .setsPopulated .. => "resource sets populated"
  | .flushFailed .. => "failed to flush logger"
  | .teardownStopped .. => "runtime stopped"
  | .teardownFailed .. => "failed to stop runtime"
  | .clusterStarting .. => "starting local cluster"
  | .participantReady .. => "participant ready"

/-- The named values that an event carries. -/
def fields : Event → List (String × String)
  | .runtimeStarted rank world | .runtimeStopped rank world =>
      [("rank", rank.repr), ("world", world.text)]
  | .groupRegistered handle => [("handle", handle.text)]
  | .viewAttached world started handle =>
      [("world", world.text), ("started", Describe.truth started), ("comm", handle.text)]
  | .setsPopulated handle size rank =>
      [("comm", handle.text), ("size", size.repr),
        ("rank", Describe.optional (rank.map Nat.repr))]
  | .flushFailed error kind => [("error", error), ("kind", kind)]
  | .teardownStopped world => [("world", world.text)]
  | .teardownFailed world error => [("world", world.text), ("error", error)]
  | .clusterStarting participants => [("participants", participants.repr)]
  | .participantReady rank => [("rank", rank.repr)]

/-- The severity in capitals. -/
def severityText (e : Event) : String :=
  match e.severity with
  | .debug => "DEBUG"
  | .info => "INFO"
  | .warn => "WARN"

/-- **Line** for an event: severity, message and fields. -/
def text (e : Event) : String :=
  " ".intercalate
    (e.severityText :: e.message :: e.fields.map fun field => field.1 ++ "=" ++ field.2)

end Event

end ClusterView
