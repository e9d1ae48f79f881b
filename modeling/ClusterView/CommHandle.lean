import ClusterView.Describe

/-!
# Communicator handles

A handle names a communicator within one runtime. It is a 64-bit descriptor and
says nothing about who takes part; resolving it is the runtime's business. Two
descriptors are reserved: the null communicator and the world, which spans every
participant.

## Sections
- §1: Handles and the two reserved ones
- §2: Text
-/

namespace ClusterView

/-! ## §1 Handles and the two reserved ones -/

/-- **Communicator handle**: an opaque descriptor, compared by its number. -/
structure CommHandle where
  raw : Int64
deriving DecidableEq, Repr

namespace CommHandle

/-- The null communicator, which nobody can communicate over. -/
def null : CommHandle := ⟨0⟩

/-- The communicator that spans every participant. -/
def world : CommHandle := ⟨1⟩

instance : Inhabited CommHandle := ⟨null⟩

instance : Ord CommHandle := ⟨fun a b => compare a.raw b.raw⟩

/-- Is this the null communicator? -/
def isNull (h : CommHandle) : Bool := h == null

/-- Is this the world communicator? -/
def isWorld (h : CommHandle) : Bool := h == world

/-! ## §2 Text -/

/-- The reserved handles have names, every other one shows its number. -/
def text (h : CommHandle) : String :=
  if h.isNull then "comm:null"
  else if h.isWorld then "comm:world"
  else "comm:" ++ h.raw.toInt.repr

def describe (h : CommHandle) : String :=
  Describe.wrapped "CommHandle" h.raw.toInt.repr

end CommHandle

end ClusterView
