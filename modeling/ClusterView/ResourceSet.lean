import ClusterView.Ram

/-!
# Resource sets

A resource set says what one participant contributes to a view: its memory, and whether
the participant is the calling process itself. Two sets are the same if they have the
same rank and the same memory.

## Sections
- §1: Sets
- §2: Equality
-/

namespace ClusterView

variable {κ : Type}

/-! ## §1 Sets -/

/-- **Resource set** of one participant. -/
structure ResourceSet (κ : Type) where
  rank : Nat
  ram : Ram κ
  /-- Is it the calling process? -/
  isMine : Bool
deriving DecidableEq, Repr

namespace ResourceSet

/-- The set of a member of a communicator. -/
def ofMember (comm : κ) (rank : Nat) (capacity : UInt64) (isMine : Bool) : ResourceSet κ :=
  ⟨rank, .region capacity (some ⟨rank, comm⟩), isMine⟩

/-- Does the participant have any memory? -/
def hasRam (s : ResourceSet κ) : Bool := !s.ram.isEmpty

def describe (s : ResourceSet κ) : String :=
  Describe.record "ResourceSet"
    [("rank", s.rank.repr), ("ram", s.ram.describe), ("is_mine", Describe.truth s.isMine)]

/-! ## §2 Equality -/

/-- **Same set**: same rank and same memory. -/
def same (a b : ResourceSet κ) : Bool := a.rank == b.rank && a.ram.same b.ram

/-- Same sets throughout, in order. -/
def allSame : List (ResourceSet κ) → List (ResourceSet κ) → Bool
  | [], [] => true
  | a :: as, b :: bs => a.same b && allSame as bs
  | _, _ => false

end ResourceSet

end ClusterView
