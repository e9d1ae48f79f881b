import ClusterView.CommError

/-!
# Cluster configuration

How many participants a cluster has and how much memory each of them reports. A
participant reports the common amount unless the configuration overrides it for its
rank.

## Sections
- §1: Overrides
- §2: Configurations
- §3: Consistency
-/

namespace ClusterView

/-! ## §1 Overrides -/

/-- **Overrides**: memory by rank, kept in ascending order of the ranks, so that two
collections with the same entries are the same. -/
structure Overrides where
  /-- Rank and memory of each override. -/
  entries : List (UInt64 × UInt64)
  /-- Every rank occurs once, in ascending order. -/
  ascending : entries.Pairwise fun a b => a.1 < b.1
deriving DecidableEq

namespace Overrides

def empty : Overrides := ⟨[], List.Pairwise.nil⟩

/-- Put an entry in its place; an entry of the same rank gives way to it. -/
def insertEntry (rank memory : UInt64) : List (UInt64 × UInt64) → List (UInt64 × UInt64)
  | [] => [(rank, memory)]
  | (r, m) :: rest =>
      if rank < r then (rank, memory) :: (r, m) :: rest
      else if rank = r then (rank, memory) :: rest
      else (r, m) :: insertEntry rank memory rest

/-- The ranks after an insertion are the new one and the old ones. -/
theorem mem_insertEntry {rank memory : UInt64} {entries : List (UInt64 × UInt64)}
    {e : UInt64 × UInt64} (h : e ∈ insertEntry rank memory entries) :
    e = (rank, memory) ∨ e ∈ entries := by
  induction entries with
  | nil => simpa [insertEntry] using h
  | cons head rest ih =>
      obtain ⟨r, m⟩ := head
      simp only [insertEntry] at h
      split at h
      · simpa using h
      · split at h
        · rcases List.mem_cons.1 h with h | h
          · exact Or.inl h
          · exact Or.inr (List.mem_cons_of_mem _ h)
        · rcases List.mem_cons.1 h with h | h
          · exact Or.inr (by simp [h])
          · rcases ih h with h | h
            · exact Or.inl h
            · exact Or.inr (List.mem_cons_of_mem _ h)

/-- An insertion keeps the ranks ascending. -/
theorem pairwise_insertEntry (rank memory : UInt64) {entries : List (UInt64 × UInt64)}
    (h : entries.Pairwise fun a b => a.1 < b.1) :
    (insertEntry rank memory entries).Pairwise fun a b => a.1 < b.1 := by
  induction entries with
  | nil => simp [insertEntry]
  | cons head rest ih =>
      obtain ⟨r, m⟩ := head
      obtain ⟨hhead, hrest⟩ := List.pairwise_cons.1 h
      simp only [insertEntry]
      split
      · rename_i hlt
        refine List.pairwise_cons.2 ⟨fun e he => ?_, h⟩
        rcases List.mem_cons.1 he with rfl | he
        · exact hlt
        · exact UInt64.lt_trans hlt (hhead e he)
      · rename_i hnlt
        split
        · rename_i heq
          subst heq
          exact List.pairwise_cons.2 ⟨hhead, hrest⟩
        · rename_i hne
          refine List.pairwise_cons.2 ⟨fun e he => ?_, ih hrest⟩
          rcases mem_insertEntry he with rfl | he
          · exact UInt64.lt_of_le_of_ne (UInt64.not_lt.1 hnlt) (Ne.symm hne)
          · exact hhead e he

/-- **Insertion**: set the memory of a rank. -/
def insert (o : Overrides) (rank memory : UInt64) : Overrides :=
  ⟨insertEntry rank memory o.entries, pairwise_insertEntry rank memory o.ascending⟩

/-- The memory set for a rank. -/
def find? (o : Overrides) (rank : Nat) : Option UInt64 :=
  (o.entries.find? fun e => e.1.toNat == rank).map (·.2)

end Overrides

/-! ## §2 Configurations -/

structure Config where
  participants : UInt64
  memoryPerParticipant : UInt64
  /-- Memory that takes the place of the common amount, by rank. -/
  memoryOverrides : Overrides
  /-- Upper bound on the number of participants. -/
  maxParticipants : UInt64
deriving DecidableEq

namespace Config

/-- **Default configuration**: one participant with a gibibyte of memory, and at most
1024 participants. -/
def standard : Config :=
  { participants := 1
    memoryPerParticipant := 1073741824
    memoryOverrides := Overrides.empty
    maxParticipants := 1024 }

instance : Inhabited Config := ⟨standard⟩

/-- The default configuration for a number of participants. -/
def ofParticipants (n : UInt64) : Config := { standard with participants := n }

/-- Number of participants, for counting. -/
def size (c : Config) : Nat := c.participants.toNat

/-- **Memory of a rank**: its override, or the common amount. -/
def memoryOf (c : Config) (rank : Nat) : UInt64 :=
  (c.memoryOverrides.find? rank).getD c.memoryPerParticipant

/-! ## §3 Consistency -/

/-- **Fault** of a configuration. -/
inductive Fault where
  | noParticipants
  | tooManyParticipants (requested allowed : UInt64)
  | overrideOutside (rank participants : UInt64)
deriving DecidableEq, Repr

/-- The communication error that reports a fault. -/
def Fault.toCommError : Fault → CommError
  | .noParticipants => .config "a cluster needs at least one participant"
  | .tooManyParticipants requested allowed =>
      .resourceExhausted s!"{requested} participants requested, at most {allowed} allowed"
  | .overrideOutside rank participants =>
      .config s!"memory override for rank {rank} but only {participants} participants"

/-- **First fault** of a configuration: no participants, too many of them, or an
override, the one with the smallest rank, for a rank that does not exist. -/
def fault? (c : Config) : Option Fault :=
  if c.participants = 0 then some .noParticipants
  else if c.maxParticipants < c.participants then
    some (.tooManyParticipants c.participants c.maxParticipants)
  else
    -- entries are ascending, so the first one found has the smallest rank
    (c.memoryOverrides.entries.find? fun e => c.participants ≤ e.1).map fun e =>
      .overrideOutside e.1 c.participants

/-- **Validation**: a configuration without fault is consistent. -/
def validate (c : Config) : Except CommError Unit :=
  match c.fault? with
  | none => .ok ()
  | some fault => .error fault.toCommError

end Config

end ClusterView
