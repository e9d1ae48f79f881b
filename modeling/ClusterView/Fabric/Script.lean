import ClusterView.Engine

/-!
# Scripted backends

A scripted backend answers every request as its script says and keeps a list of the
requests it got. It stands in for a runtime whose failures are wanted on demand.

## Sections
- §1: Scripts
- §2: Recorded requests
- §3: The backend
-/

namespace ClusterView

/-! ## §1 Scripts -/

/-- **Script**: the answer to each kind of request. -/
structure Script where
  /-- A start fails, or brings a world up (`false`), or finds one running (`true`). -/
  start : Except CommError Bool
  communicator : Except CommError Unit
  stop : Except CommError Unit
  /-- Number of members of every communicator. -/
  size : Nat
  /-- The caller's rank in every communicator. -/
  rank : Option Nat
  /-- Memory of each rank; ranks beyond the list have none. -/
  memory : List (Except CommError UInt64)
  gather : Except CommError (Option (List Bytes))
  reduce : Except CommError (Option Bytes)

/-! ## §2 Recorded requests -/

/-- **Request** as a scripted backend records it. -/
inductive Request where
  | start (args : List String)
  | communicator (handle : CommHandle)
  | memoryOf (rank : Nat)
  | gather (payload : Bytes) (datatype : Datatype) (root : Nat)
  | reduce (payload : Bytes) (datatype : Datatype) (op : Operation) (root : Nat)
  | stop
deriving DecidableEq, Repr

/-! ## §3 The backend -/

/-- **Communicator of a scripted backend**: the handle it was asked for and the script it
follows. -/
structure ScriptedComm where
  /-- The backend that handed the communicator out. -/
  backend : BackendId
  handle : CommHandle
  script : Script

structure Scripted where
  script : Script
  world : Option WorldId
  /-- How often a start brought a world up. -/
  starts : Nat
  /-- How often the world was taken down. -/
  stops : Nat
  /-- The requests so far, oldest first. -/
  requests : List Request

namespace Scripted

/-- A backend at the beginning of its script. -/
def fresh (script : Script) : Scripted := ⟨script, none, 0, 0, []⟩

def record (s : Scripted) (request : Request) : Scripted :=
  { s with requests := s.requests ++ [request] }

/-- **Start**, with the identifier that a new world would get. -/
def start (s : Scripted) (id : WorldId) : Except CommError (WorldId × Bool) × Scripted :=
  match s.script.start with
  | .error e => (.error e, s)
  | .ok attached =>
      match s.world with
      -- whatever the script says, a world that is up is attached to
      | some running => (.ok (running, false), s)
      | none =>
          if attached then (.ok (id, false), { s with world := some id })
          else (.ok (id, true), { s with world := some id, starts := s.starts + 1 })

def stop (s : Scripted) : Except CommError Unit × Scripted :=
  match s.script.stop with
  | .error e => (.error e, s)
  | .ok () =>
      match s.world with
      | none => (.error .notRunning, s)
      | some _ => (.ok (), { s with world := none, stops := s.stops + 1 })

end Scripted

end ClusterView
