import ClusterView.Logger
import ClusterView.ResourceSet

/-!
# The state behind a view

A view's state is made from one start of a backend: the world that the start led to, the
communicator that the view spans, a resource set for every member, and two loggers. If
the start brought the runtime up, the end of the state takes it down again, and so does
a construction that fails half-way.

## Sections
- §1: States
- §2: Taking the runtime down
- §3: Construction
- §4: The end of a state
-/

namespace ClusterView

variable {σ κ : Type}

/-! ## §1 States -/

/-- **State behind a view**, shared by all aliases of the view. -/
structure ViewState (κ : Type) where
  /-- Did the construction bring the runtime up? -/
  started : Bool
  backend : BackendId
  /-- The running instance that the construction found or brought up. -/
  world : World κ
  /-- The communicator that the view spans. -/
  comm : κ
  /-- A resource set for each member, in rank order. -/
  sets : List (ResourceSet κ)
  progress : Logger
  debug : Logger
deriving DecidableEq, Repr

inductive Channel where
  | progress
  | debug
deriving DecidableEq, Repr

namespace ViewState

/-- The logger on a channel. -/
def logger (state : ViewState κ) : Channel → Logger
  | .progress => state.progress
  | .debug => state.debug

/-- The same state with another logger on a channel. -/
def withLogger (state : ViewState κ) (l : Logger) : Channel → ViewState κ
  | .progress => { state with progress := l }
  | .debug => { state with debug := l }

/-! ## §2 Taking the runtime down -/

/-- **Release** the runtime: stop it if this state brought it up, and report how that
went. -/
def release (E : Engine σ κ) (started : Bool) (world : World κ) (backend : BackendId) :
    StateM σ Unit := do
  if started then
    match ← E.stop backend with
    | .ok () => modify (E.report (.teardownStopped world.id))
    | .error e => modify (E.report (.teardownFailed world.id e.message))

/-! ## §3 Construction -/

/-- Memory of the given ranks, up to the first failure. -/
def memories (E : Engine σ κ) (comm : κ) : List Nat → StateM σ (Except CommError (List UInt64))
  | [] => pure (.ok [])
  | rank :: rest => do
      match ← E.memoryOf comm rank with
      | .error e => return .error e
      | .ok memory => return (← memories E comm rest).map (memory :: ·)

/-- The resource sets for the memory of all members, in rank order. -/
def describeMembers (comm : κ) (me : Option Nat) (memory : List UInt64) :
    List (ResourceSet κ) :=
  memory.zipIdx.map fun (capacity, rank) =>
    .ofMember comm rank capacity (decide (me = some rank))

/-- Find the communicator and the memory of its members. -/
def survey (E : Engine σ κ) (backend : BackendId) (handle : CommHandle) :
    StateM σ (Except CommError (κ × List UInt64)) := do
  match ← E.communicator backend handle with
  | .error e => return .error e
  | .ok comm => return (← memories E comm (List.range (E.size comm))).map fun memory => (comm, memory)

/-- **Construction**: start the backend or attach to it, find the communicator, and
describe its members. A failure after the start releases the runtime. -/
def construct (E : Engine σ κ) (backend : BackendId) (args : List String)
    (handle : CommHandle) : StateM σ (Except ViewError (ViewState κ)) := do
  match ← E.start backend args with
  | .error e => return .error (.comm e)
  | .ok startup =>
      modify (E.report (.viewAttached startup.world.id startup.started handle))
      -- from here on the runtime is up, so a failure has to take it down again
      match ← survey E backend handle with
      | .error e =>
          release E startup.started startup.world backend
          return .error (.comm e)
      | .ok (comm, memory) =>
          let me := E.rank comm
          let sets := describeMembers comm me memory
          let (progress, debug) := Logger.rootOnly me
          modify (E.report (.setsPopulated (E.handle comm) sets.length me))
          return .ok ⟨startup.started, backend, startup.world, comm, sets, progress, debug⟩

/-! ## §4 The end of a state -/

/-- Flush a logger at the end of its state, and report a failure. -/
def flushLogger (E : Engine σ κ) (l : Logger) : StateM (σ × Output) Unit := fun (s, o) =>
  match l.flush o with
  -- the logger itself ends with its state, only its output stays
  | (.ok (), _, o) => ((), s, o)
  | (.error cause, _, o) => ((), E.report (.flushFailed cause.message l.kind) s, o)

/-- **Teardown**: flush both loggers, whatever comes of it, and release the runtime. -/
def teardown (E : Engine σ κ) (state : ViewState κ) : StateM (σ × Output) Unit := do
  flushLogger E state.progress
  flushLogger E state.debug
  -- the state's own backend, whatever the default backend is by now
  modify fun (s, o) => ((release E state.started state.world state.backend s).2, o)

end ViewState

end ClusterView
