import ClusterView.Config

/-!
# Clusters and groups

A cluster has as many participants as its configuration says. Its groups are sets of
participants that communicate together; the first one is the world, which has everybody
in it, and further ones can be registered at any time. Groups are never removed.

## Sections
- §1: Groups
- §2: Clusters
- §3: Registering a group
-/

namespace ClusterView

/-! ## §1 Groups -/

/-- **Group**: the participants that communicate together. -/
structure Group where
  /-- The handle that finds the group. -/
  handle : CommHandle
  /-- The members' ranks in the world, ascending. A member's place in this list is its
  rank in the group. -/
  members : List Nat
deriving DecidableEq, Repr

namespace Group

def size (g : Group) : Nat := g.members.length

/-- **Group rank** of a participant, if it is a member. -/
def rankOf? (g : Group) (worldRank : Nat) : Option Nat :=
  g.members.findIdx? (· == worldRank)

end Group

/-! ## §2 Clusters -/

/-- **Cluster**: a configuration and the groups registered so far, oldest first. -/
structure Cluster where
  config : Config
  groups : List Group
deriving DecidableEq

namespace Cluster

/-- The group of all participants. -/
def worldGroup (config : Config) : Group :=
  ⟨.world, List.range config.size⟩

/-- A cluster with the world as its only group. -/
def ofConfig (config : Config) : Cluster := ⟨config, [worldGroup config]⟩

def create (config : Config) : Except CommError Cluster := do
  config.validate
  return ofConfig config

/-- The one-participant cluster of the default configuration. -/
def single : Cluster := ofConfig .standard

/-- Number of participants. -/
def size (c : Cluster) : Nat := c.config.size

/-- The group of a handle, with its number in the cluster. -/
def group? (c : Cluster) (handle : CommHandle) : Option (Nat × Group) := do
  let number ← c.groups.findIdx? fun g => g.handle == handle
  let group ← c.groups[number]?
  return (number, group)

def group (c : Cluster) (handle : CommHandle) : Except CommError (Nat × Group) :=
  match c.group? handle with
  | some found => .ok found
  | none => .error (.unknownCommunicator handle)

/-! ## §3 Registering a group -/

/-- **Fault** of a list of members. -/
inductive GroupFault where
  | noMembers
  | duplicateMembers
  /-- Somebody listed is no participant. -/
  | outside (rank size : Nat)
deriving DecidableEq, Repr

/-- The communication error that reports a fault. -/
def GroupFault.toCommError : GroupFault → CommError
  | .noMembers => .invalidGroup "a group needs members"
  | .duplicateMembers => .invalidGroup "duplicate members"
  | .outside rank size => .invalidGroup s!"rank {rank} is not part of a cluster of {size}"

/-- The listed members in ascending order. -/
def ascending (members : List Nat) : List Nat :=
  members.mergeSort fun a b => a ≤ b

/-- **First fault** of a list of members: nobody, a repetition, or a rank beyond the
cluster, the smallest such rank. -/
def groupFault? (c : Cluster) (members : List Nat) : Option GroupFault :=
  if members = [] then some .noMembers
  -- repetitions are found before ranks that are out of range
  else if ¬ members.Nodup then some .duplicateMembers
  else ((ascending members).find? fun rank => c.size ≤ rank).map fun rank => .outside rank c.size

/-- The number after the greatest handle so far. -/
def nextHandle (c : Cluster) : CommHandle :=
  ⟨(c.groups.foldl (fun greatest g => max greatest g.handle.raw) CommHandle.world.raw) + 1⟩

/-- **Registration** of a group: a handle that was not used before finds it from now on. -/
def addGroup (c : Cluster) (members : List Nat) : Except CommError (CommHandle × Cluster) :=
  match c.groupFault? members with
  | some fault => .error fault.toCommError
  | none =>
      .ok (c.nextHandle, { c with groups := c.groups ++ [⟨c.nextHandle, ascending members⟩] })

end Cluster

end ClusterView
