import ClusterView.Fabric.Node
import ClusterView.Fabric.Script

/-!
# Fabric

The fabric is the engine that runs inside one process: any number of clusters with
their nodes, and scripted backends beside them. It keeps the events that were reported,
and it draws world identifiers from a given supply, one for each start.

## Sections
- §1: State
- §2: Clusters and backends
- §3: Starting and stopping
- §4: Communicators
- §5: The engine
-/

namespace ClusterView

/-! ## §1 State -/

/-- **Backend** of the fabric. -/
inductive Backend where
  | node (n : Node)
  | scripted (s : Scripted)

/-- **Communicator** of the fabric. -/
inductive Comm where
  | ofGroup (c : GroupComm)
  | scripted (c : ScriptedComm)

/-- **Fabric**: everything that runs inside the process. A cluster and a backend are known by
their places in the lists. -/
structure Fabric where
  clusters : List Cluster
  backends : List Backend
  /-- The supply of world identifiers. -/
  supply : Nat → WorldId
  /-- How many of them have been drawn. -/
  drawn : Nat
  /-- The events reported, oldest first. -/
  events : List Event

namespace Fabric

/-- The supply that counts upwards. -/
def counting (n : Nat) : WorldId := ⟨BitVec.ofNat 128 n⟩

/-- A fabric without backends. -/
def empty (supply : Nat → WorldId) : Fabric := ⟨[], [], supply, 0, []⟩

/-- Report an event. -/
def report (e : Event) (f : Fabric) : Fabric := { f with events := f.events ++ [e] }

/-- The identifier that the next start draws. -/
def nextId (f : Fabric) : WorldId := f.supply f.drawn

/-- Put a backend in the place of another. -/
def setBackend (b : BackendId) (backend : Backend) (f : Fabric) : Fabric :=
  { f with backends := f.backends.set b backend }

/-! ## §2 Clusters and backends -/

/-- Add a cluster together with a node for each of its participants, and answer the
cluster's number and the numbers of its nodes. -/
def addCluster (c : Cluster) : StateM Fabric (Nat × List BackendId) := fun f =>
  let number := f.clusters.length
  let nodes := (List.range c.size).map fun rank => Backend.node (Node.fresh rank number)
  let ids := (List.range c.size).map (f.backends.length + ·)
  ((number, ids), { f with clusters := f.clusters ++ [c], backends := f.backends ++ nodes })

/-- Add a scripted backend and answer its number. -/
def addScripted (script : Script) : StateM Fabric BackendId := fun f =>
  (f.backends.length, { f with backends := f.backends ++ [.scripted (Scripted.fresh script)] })

/-- **Register a group** with a cluster. -/
def addGroup (number : Nat) (members : List Nat) : StateM Fabric (Except CommError CommHandle) :=
  fun f =>
    match f.clusters[number]? with
    | none => (.error (.invalidGroup "no such cluster"), f)
    | some c =>
        match c.addGroup members with
        | .error e => (.error e, f)
        | .ok (handle, c) =>
            (.ok handle,
              { f with clusters := f.clusters.set number c }.report (.groupRegistered handle))

/-- Is a backend's runtime running? -/
def isRunning (b : BackendId) (f : Fabric) : Bool :=
  match f.backends[b]? with
  | some (.node n) => n.running.isSome
  | some (.scripted s) => s.world.isSome
  | none => false

/-- How often a backend's runtime was started and stopped. -/
def counters (b : BackendId) (f : Fabric) : Nat × Nat :=
  match f.backends[b]? with
  | some (.node n) => (n.starts, n.stops)
  | some (.scripted s) => (s.starts, s.stops)
  | none => (0, 0)

/-! ## §3 Starting and stopping -/

/-- Start a node: attach to the life that is going on, or begin one. -/
def startNode (b : BackendId) (n : Node) (args : List String) :
    StateM Fabric (Except CommError (Startup Comm)) := fun f =>
  match n.running with
  -- a node that runs is attached to, and the arguments are forgotten
  | some life => (.ok ⟨⟨life.id, .ofGroup life.comm, b⟩, false⟩, f)
  | none =>
      match f.clusters[n.cluster]? with
      | none => (.error .notRunning, f)
      | some c =>
          match c.group .world with
          | .error e => (.error e, f)
          | .ok (number, group) =>
              let life := n.nextLife b f.nextId c.config number group
              let f := { f.setBackend b (.node (n.begin life args)) with drawn := f.drawn + 1 }
              (.ok ⟨⟨life.id, .ofGroup life.comm, b⟩, true⟩,
                f.report (.runtimeStarted n.rank life.id))

/-- The world of a scripted backend. -/
def scriptedWorld (b : BackendId) (s : Scripted) (id : WorldId) : World Comm :=
  ⟨id, .scripted ⟨b, .world, s.script⟩, b⟩

/-- Start a scripted backend. -/
def startScripted (b : BackendId) (s : Scripted) (args : List String) :
    StateM Fabric (Except CommError (Startup Comm)) := fun f =>
  let (answer, t) := (s.record (.start args)).start f.nextId
  -- the identifier counts as drawn even if the script refuses the start
  let f := { f.setBackend b (.scripted t) with drawn := f.drawn + 1 }
  match answer with
  | .error e => (.error e, f)
  | .ok (id, started) => (.ok ⟨scriptedWorld b t id, started⟩, f)

/-- **Start** a backend, or attach to it. -/
def start (b : BackendId) (args : List String) : StateM Fabric (Except CommError (Startup Comm)) :=
  fun f =>
    match f.backends[b]? with
    | some (.node n) => startNode b n args f
    | some (.scripted s) => startScripted b s args f
    | none => (.error .notRunning, f)

/-- **The running world** of a backend. -/
def world (b : BackendId) (f : Fabric) : Except CommError (World Comm) :=
  match f.backends[b]? with
  | some (.node n) =>
      match n.running with
      | some life => .ok ⟨life.id, .ofGroup life.comm, b⟩
      | none => .error .notRunning
  | some (.scripted s) =>
      match s.world with
      | some id => .ok (scriptedWorld b s id)
      | none => .error .notRunning
  | none => .error .notRunning

/-- **Stop** a backend. -/
def stop (b : BackendId) : StateM Fabric (Except CommError Unit) := fun f =>
  match f.backends[b]? with
  | some (.node n) =>
      match n.running with
      | none => (.error .notRunning, f)
      | some life =>
          (.ok (), (f.setBackend b (.node (n.finish life))).report (.runtimeStopped n.rank life.id))
  | some (.scripted s) =>
      let (answer, s) := (s.record .stop).stop
      (answer, f.setBackend b (.scripted s))
  | none => (.error .notRunning, f)

/-! ## §4 Communicators -/

/-- Find a communicator of a node. The null handle is unknown whether or not the node
runs; every other one needs a running node. -/
def nodeCommunicator (b : BackendId) (n : Node) (handle : CommHandle) (f : Fabric) :
    Except CommError Comm := do
  if handle.isNull then throw (.unknownCommunicator handle)
  match n.running with
  | none => throw .notRunning
  | some life =>
      -- the world is the group the life was begun with, and is not looked up
      if handle.isWorld then
        return .ofGroup life.comm
      match f.clusters[n.cluster]? with
      | none => throw (.unknownCommunicator handle)
      | some c =>
          let (number, group) ← c.group handle
          return .ofGroup (n.comm b c.config number group life.number)

def communicator (b : BackendId) (handle : CommHandle) : StateM Fabric (Except CommError Comm) :=
  fun f =>
    match f.backends[b]? with
    | some (.node n) => (nodeCommunicator b n handle f, f)
    | some (.scripted s) =>
        (s.script.communicator.map fun _ => .scripted ⟨b, handle, s.script⟩,
          f.setBackend b (.scripted (s.record (.communicator handle))))
    | none => (.error .notRunning, f)

/-- Record a request with the scripted backend it concerns. -/
def recordRequest (b : BackendId) (request : Request) (f : Fabric) : Fabric :=
  match f.backends[b]? with
  | some (.scripted s) => f.setBackend b (.scripted (s.record request))
  | _ => f

/-- Take the requests that a scripted backend has recorded. -/
def takeRequests (b : BackendId) : StateM Fabric (List Request) := fun f =>
  match f.backends[b]? with
  | some (.scripted s) =>
      (s.requests, f.setBackend b (.scripted { s with requests := [] }))
  | _ => ([], f)

/-- Is the life that a communicator belongs to still going on? -/
def isAlive (c : GroupComm) (f : Fabric) : Bool :=
  match f.backends[c.backend]? with
  | some (.node n) => n.isAlive c.life
  | _ => false

end Fabric

namespace Comm

/-- The handle of a communicator. -/
def handle : Comm → CommHandle
  | .ofGroup c => c.group.handle
  | .scripted c => c.handle

/-- The caller's rank, if it is a member. -/
def rank? : Comm → Option Nat
  | .ofGroup c => c.rank?
  | .scripted c => c.script.rank

def size : Comm → Nat
  | .ofGroup c => c.size
  | .scripted c => c.script.size

def memoryOf : Comm → Nat → StateM Fabric (Except CommError UInt64)
  | .ofGroup c, rank => fun f => (c.memoryOf rank, f)
  | .scripted c, rank => fun f =>
      -- a scripted communicator answers for ranks that it does not have, too
      (c.script.memory.getD rank (.ok 0), f.recordRequest c.backend (.memoryOf rank))

def gather : Comm → Bytes → Datatype → Nat →
    StateM Fabric (Offer CommError (Option (List Bytes)))
  | .ofGroup c, payload, datatype, root => fun f =>
      (c.gather (f.isAlive c) payload datatype root, f)
  | .scripted c, payload, datatype, root => fun f =>
      (.answer c.script.gather, f.recordRequest c.backend (.gather payload datatype root))

def reduce : Comm → Bytes → Datatype → Operation → Nat →
    StateM Fabric (Offer CommError (Option Bytes))
  | .ofGroup c, payload, datatype, op, root => fun f =>
      (c.reduce (f.isAlive c) payload datatype op root, f)
  | .scripted c, payload, datatype, op, root => fun f =>
      (.answer c.script.reduce, f.recordRequest c.backend (.reduce payload datatype op root))

end Comm

/-! ## §5 The engine -/

def Fabric.engine : Engine Fabric Comm where
  handle := Comm.handle
  rank := Comm.rank?
  size := Comm.size
  isRunning := Fabric.isRunning
  start := Fabric.start
  world := Fabric.world
  communicator := Fabric.communicator
  stop := Fabric.stop
  memoryOf := Comm.memoryOf
  gather := Comm.gather
  reduce := Comm.reduce
  report := Fabric.report

end ClusterView
