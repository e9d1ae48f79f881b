/-!
# Slots

Variables live in named slots, and every participant has slots of its own.

## Sections
- §1: Slots
- §2: Collections of variables
-/

namespace ClusterView

/-! ## §1 Slots -/

/-- **Slot**: a participant's variable. -/
structure Slot where
  rank : Nat
  name : String
deriving DecidableEq, Repr

/-! ## §2 Collections of variables -/

/-- **Variables** of one type, at most one in each slot. -/
structure Slots (α : Type) where
  entries : List (Slot × α)
deriving Repr

namespace Slots

variable {α : Type}

/-- No variable. -/
def empty : Slots α := ⟨[]⟩

/-- The value in a slot. -/
def find? (s : Slots α) (slot : Slot) : Option α := s.entries.lookup slot

/-- **Vacate** a slot. -/
def erase (s : Slots α) (slot : Slot) : Slots α := ⟨s.entries.filter fun e => e.1 != slot⟩

/-- **Fill** a slot, whatever it held. -/
def set (s : Slots α) (slot : Slot) (value : α) : Slots α :=
  -- the old entry goes first, so that no slot occurs twice
  ⟨(slot, value) :: (s.erase slot).entries⟩

/-- The values of all variables. -/
def values (s : Slots α) : List α := s.entries.map (·.2)

/-- The names of a participant's variables, in alphabetical order. -/
def names (s : Slots α) (rank : Nat) : List String :=
  ((s.entries.filter fun e => e.1.rank == rank).map (·.1.name)).mergeSort fun a b => decide (a ≤ b)

end Slots

end ClusterView
