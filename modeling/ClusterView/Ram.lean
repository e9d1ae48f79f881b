import ClusterView.Collective

/-!
# Memory

A RAM value describes a region of memory by its capacity. It may belong to a member of a
communicator, and then it can run collectives rooted there. Two RAM values are the same
if they have the same capacity, whoever owns them; a value without any region counts as
one of capacity zero.

## Sections
- §1: Values
- §2: Equality
- §3: Collectives
-/

namespace ClusterView

variable {σ κ : Type}

/-! ## §1 Values -/

/-- **Owner** of a region: a member of a communicator. -/
structure RamOwner (κ : Type) where
  rank : Nat
  comm : κ
deriving DecidableEq, Repr

/-- **RAM**: nothing, or a region of some capacity that may have an owner. -/
inductive Ram (κ : Type) where
  | vacant
  | region (capacity : UInt64) (owner : Option (RamOwner κ))
deriving DecidableEq, Repr

namespace Ram

/-- A region that nobody owns. -/
def ofCapacity (capacity : UInt64) : Ram κ := .region capacity none

/-- **Capacity** in bytes. -/
def capacity : Ram κ → UInt64
  | .vacant => 0
  | .region capacity _ => capacity

/-- Is there no memory at all? -/
def isEmpty (r : Ram κ) : Bool := r.capacity == 0

/-- The owner. -/
def owner? : Ram κ → Option (RamOwner κ)
  | .vacant => none
  | .region _ owner => owner

/-- The owner's rank. -/
def ownerRank? (r : Ram κ) : Option Nat := r.owner?.map (·.rank)

def describe : Ram κ → String
  | .vacant => Describe.wrapped "Ram" "empty"
  | .region capacity owner =>
      Describe.record "Ram"
        [ ("total_size", capacity.toNat.repr),
          ("owner", Describe.optional (owner.map fun o => o.rank.repr)) ]

/-! ## §2 Equality -/

/-- **Same memory**: both are empty, or neither is and the capacities agree. -/
def same (a b : Ram κ) : Bool :=
  -- no memory at all is one value, in whichever form
  if a.isEmpty != b.isEmpty then false else a.isEmpty || a.capacity == b.capacity

/-! ## §3 Collectives -/

/-- **Gather** onto the owner. -/
def gather (E : Engine σ κ) (r : Ram κ) (t : ElementType) (value : t.Value) :
    StateM σ (Offer ViewError (Option (List t.Value))) :=
  match r.owner? with
  | none => pure (.refuse .unattached)
  | some owner => Collective.gather E owner.comm t value owner.rank

/-- **Reduce** onto the owner. -/
def reduce (E : Engine σ κ) (r : Ram κ) (t : ElementType) (value : t.Value) (op : ReduceOp) :
    StateM σ (Offer ViewError (Option t.Value)) :=
  match r.owner? with
  | none => pure (.refuse .unattached)
  | some owner => Collective.reduce E owner.comm t value op owner.rank

end Ram

end ClusterView
