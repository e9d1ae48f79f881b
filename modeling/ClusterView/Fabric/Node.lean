import ClusterView.Cluster
import ClusterView.Engine
import ClusterView.Reduction

/-!
# Nodes

A node is one participant's side of a cluster. Its runtime can be started and stopped
again and again; each incarnation is a life of its own, and communicators belong to
the life they were handed out in. A collective on a communicator whose life is over is
refused, whether or not the node has been started again.

## Sections
- §1: Communicators of a group
- §2: Lives and nodes
- §3: Starting and stopping
- §4: Collectives
-/

namespace ClusterView

/-! ## §1 Communicators of a group -/

/-- **Group communicator**: one participant's end of a group, for one life of its
node. -/
structure GroupComm where
  /-- The cluster's number. -/
  cluster : Nat
  config : Config
  /-- The group's number in the cluster. -/
  number : Nat
  group : Group
  worldRank : Nat
  /-- The backend that handed the communicator out. -/
  backend : BackendId
  /-- The life of the node that it belongs to. -/
  life : Nat
deriving DecidableEq

namespace GroupComm

/-- The participant's rank in the group, if it is a member. -/
def rank? (c : GroupComm) : Option Nat := c.group.rankOf? c.worldRank

def size (c : GroupComm) : Nat := c.group.size

/-- A rank of the group must be below its size. -/
def checkRank (c : GroupComm) (rank : Nat) : Except CommError Unit :=
  if rank < c.size then .ok () else .error (.invalidRank rank c.size)

/-- **Memory of a member**, by its rank in the group. -/
def memoryOf (c : GroupComm) (rank : Nat) : Except CommError UInt64 :=
  match c.group.members[rank]? with
  | some worldRank => .ok (c.config.memoryOf worldRank)
  | none => .error (.invalidRank rank c.size)

/-- The seat of a member. -/
def seat (c : GroupComm) (slot : Nat) : Seat :=
  ⟨⟨c.cluster, c.number⟩, c.size, slot⟩

end GroupComm

/-! ## §2 Lives and nodes -/

/-- **Life**: one incarnation of a node's runtime. -/
structure Life where
  id : WorldId
  /-- Number of the life, counted from zero. -/
  number : Nat
  /-- The communicator over all participants. -/
  comm : GroupComm
deriving DecidableEq

/-- **Node**: one participant of a cluster. -/
structure Node where
  rank : Nat
  /-- The cluster's number. -/
  cluster : Nat
  /-- The life that is going on. -/
  running : Option Life
  /-- For each life so far, whether its communicators may be used. -/
  alive : List Bool
  starts : Nat
  stops : Nat
  lastArgs : List String
deriving DecidableEq

namespace Node

/-- A node that has never been started. -/
def fresh (rank cluster : Nat) : Node := ⟨rank, cluster, none, [], 0, 0, []⟩

/-- May communicators of a life be used? -/
def isAlive (n : Node) (life : Nat) : Bool := n.alive.getD life false

/-- The communicator over a group of the cluster, for a life. -/
def comm (n : Node) (backend : BackendId) (config : Config) (number : Nat) (group : Group)
    (life : Nat) : GroupComm :=
  ⟨n.cluster, config, number, group, n.rank, backend, life⟩

/-! ## §3 Starting and stopping -/

/-- The life that a start would begin. -/
def nextLife (n : Node) (backend : BackendId) (id : WorldId) (config : Config) (number : Nat)
    (group : Group) : Life :=
  ⟨id, n.alive.length, n.comm backend config number group n.alive.length⟩

/-- **Begin a life** with some arguments. -/
def begin (n : Node) (life : Life) (args : List String) : Node :=
  { n with
    running := some life
    -- the new life's number is the length of the list before
    alive := n.alive ++ [true]
    starts := n.starts + 1
    lastArgs := args }

/-- **End a life**: its communicators are dead from now on. -/
def finish (n : Node) (life : Life) : Node :=
  { n with
    running := none
    alive := n.alive.set life.number false
    stops := n.stops + 1 }

end Node

/-! ## §4 Collectives -/

namespace GroupComm

/-- **Entry check** of a collective, which finds the caller's rank. The life must be
going on, the caller a member, the root a rank of the group, and the payload as wide
as its datatype asks. -/
def enter (c : GroupComm) (alive : Bool) (payload : Bytes) (datatype : Datatype) (root : Nat) :
    Except CommError Nat := do
  if !alive then throw .notRunning
  let me ← match c.rank? with
    | some me => .ok me
    | none => .error .notAMember
  -- the root comes before the payload, so a wrong root hides a wrong length
  c.checkRank root
  match datatype.width? with
  | some width => if payload.length ≠ width then throw (.malformedPayload datatype payload.length)
  | none => pure ()
  return me

/-- **Gather**: all payloads for the root, nothing for anybody else. -/
def gather (c : GroupComm) (alive : Bool) (payload : Bytes) (datatype : Datatype) (root : Nat) :
    Offer CommError (Option (List Bytes)) :=
  match c.enter alive payload datatype root with
  | .error e => .refuse e
  | .ok me =>
      .meet (c.seat me) payload fun parts => .ok (if me = root then some parts else none)

/-- **Reduce**: the fold of all payloads for the root, nothing for anybody else. Only the
root folds, so only the root can fail after the round. -/
def reduce (c : GroupComm) (alive : Bool) (payload : Bytes) (datatype : Datatype)
    (op : Operation) (root : Nat) : Offer CommError (Option Bytes) :=
  match (do let me ← c.enter alive payload datatype root; Reduction.check datatype op; pure me) with
  | .error e => .refuse e
  | .ok me =>
      .meet (c.seat me) payload fun parts =>
        if me = root then (Reduction.fold datatype op parts).map some else .ok none

end GroupComm

end ClusterView
