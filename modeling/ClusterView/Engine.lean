import ClusterView.CommError
import ClusterView.Event
import ClusterView.Program

/-!
# Engines

An engine is what the rest of the library needs from a distributed runtime: backends
that can be started and stopped, and communicators that run collectives. The engine
keeps its own state. Views are written against this interface, so that every statement
about them holds for every runtime.

A collective is either answered at once, or it offers a payload for the round of its
group and says what to make of all payloads of the round.

## Sections
- §1: Worlds
- §2: Offers
- §3: The interface
-/

namespace ClusterView

/-! ## §1 Worlds -/

/-- Number of a backend within an engine. -/
abbrev BackendId := Nat

/-- **World**: one running instance of a backend's runtime, with the communicator that
spans it. A world aliases the instance and does not keep it running. -/
structure World (κ : Type) where
  id : WorldId
  /-- The communicator over every participant. -/
  comm : κ
  backend : BackendId
deriving DecidableEq, Repr

/-- **Startup**: the world that a start leads to, and whether this start brought it up
or only attached to it. -/
structure Startup (κ : Type) where
  world : World κ
  /-- Did this start bring it up? -/
  started : Bool
deriving DecidableEq, Repr

/-! ## §2 Offers -/

/-- **Offer**: how a collective call continues. -/
inductive Offer (ε α : Type) where
  /-- The call is answered without meeting anybody. -/
  | answer (result : Except ε α)
  /-- The call takes part in a round and concludes from the round's payloads. -/
  | meet (seat : Seat) (payload : Bytes) (conclude : List Bytes → Except ε α)

namespace Offer

variable {ε ε' α β : Type}

def refuse (error : ε) : Offer ε α := .answer (.error error)

/-- Process the outcome of a call further. -/
def andThen (f : Except ε α → Except ε' β) : Offer ε α → Offer ε' β
  | .answer result => .answer (f result)
  | .meet seat payload conclude => .meet seat payload fun parts => f (conclude parts)

/-- **The offer as a program**: answered at once, or an exchange. -/
def toProgram {σ : Type} : Offer ε α → Program σ (Except ε α)
  | .answer result => .done result
  | .meet seat payload conclude => .exchange seat payload fun parts => .done (conclude parts)

end Offer

/-- **A collective as a program**: the call is made in one action, and then the offer is
followed. -/
def Program.collective {σ ε α : Type} (call : StateM σ (Offer ε α)) : Program σ (Except ε α) :=
  (Program.atomically call).bind Offer.toProgram

/-! ## §3 The interface -/

/-- **Engine** with state `σ` and communicators `κ`. -/
structure Engine (σ κ : Type) where
  handle : κ → CommHandle
  /-- The caller's rank in a communicator, if it is a member. -/
  rank : κ → Option Nat
  size : κ → Nat
  /-- Is the backend's runtime running? -/
  isRunning : BackendId → σ → Bool
  /-- Start the backend's runtime with some arguments, or attach to it. -/
  start : BackendId → List String → StateM σ (Except CommError (Startup κ))
  world : BackendId → σ → Except CommError (World κ)
  communicator : BackendId → CommHandle → StateM σ (Except CommError κ)
  stop : BackendId → StateM σ (Except CommError Unit)
  /-- Memory in bytes of a member of a communicator. -/
  memoryOf : κ → Nat → StateM σ (Except CommError UInt64)
  /-- Gather a payload of every member onto a root. -/
  gather : κ → Bytes → Datatype → Nat → StateM σ (Offer CommError (Option (List Bytes)))
  /-- Reduce the payloads of all members onto a root. -/
  reduce : κ → Bytes → Datatype → Operation → Nat → StateM σ (Offer CommError (Option Bytes))
  report : Event → σ → σ

namespace Engine

variable {σ κ : Type}

/-- Diagnostic form of a world. -/
def describeWorld (E : Engine σ κ) (w : World κ) : String :=
  Describe.record "World"
    [ ("id", w.id.describe), ("handle", (E.handle w.comm).describe),
      ("rank", Describe.optional ((E.rank w.comm).map Nat.repr)),
      ("size", (E.size w.comm).repr) ]

/-- Diagnostic form of a startup. -/
def describeStartup (E : Engine σ κ) (s : Startup κ) : String :=
  Describe.wrapped (if s.started then "Started" else "Attached") (E.describeWorld s.world)

end Engine

end ClusterView
