import ClusterView.Proofs.Lives
import Mathlib.Data.List.Sort

/-!
# Registration of groups

A list of members is registered exactly if it names somebody, nobody twice and participants
only; otherwise nothing changes. The handle that comes back numbers the groups of the cluster,
so nothing had it before, nothing gets it later, and it finds the same group for ever. Within
the group the rank of a member is the number of members below it, whatever order they were
listed in: the ranks of the members are the slots of a meeting, each of them taken once.

## Sections
- §1: Lists that are registered
- §2: Ranks within a group
- §3: Handles
- §4: A cluster of a fabric over a run
- §5: Registration over whole runs
-/

namespace ClusterView

/-! ## §1 Lists that are registered -/

namespace Cluster

variable {c c' : Cluster} {members : List Nat} {handle : CommHandle} {number : Nat} {g : Group}

/-- **Registrable** lists name somebody, nobody twice, and participants only. -/
def Registrable (c : Cluster) (members : List Nat) : Prop :=
  members ≠ [] ∧ members.Nodup ∧ ∀ rank ∈ members, rank < c.size

instance (c : Cluster) (members : List Nat) : Decidable (c.Registrable members) :=
  inferInstanceAs (Decidable (_ ∧ _ ∧ ∀ rank ∈ members, rank < c.size))

theorem groupFault?_eq_none_iff : c.groupFault? members = none ↔ c.Registrable members := by
  refine ⟨of_groupFault?_none, fun ⟨hsome, hdistinct, hinside⟩ => ?_⟩
  rw [groupFault?, if_neg hsome, if_neg (not_not.mpr hdistinct), Option.map_eq_none_iff,
    List.find?_eq_none]
  intro rank hrank
  have hlt := hinside rank ((ascending_perm members).mem_iff.mp hrank)
  simpa using hlt

/-- The group that is registered for a list. -/
def newGroup (c : Cluster) (members : List Nat) : Group := ⟨c.nextHandle, ascending members⟩

/-- The cluster with this group besides its others. -/
def enlarged (c : Cluster) (members : List Nat) : Cluster :=
  { c with groups := c.groups ++ [c.newGroup members] }

theorem length_enlarged (c : Cluster) (members : List Nat) :
    (c.enlarged members).groups.length = c.groups.length + 1 := List.length_append

theorem addGroup_of_registrable (h : c.Registrable members) :
    c.addGroup members = .ok (c.nextHandle, c.enlarged members) := by
  rw [addGroup, groupFault?_eq_none_iff.mpr h]
  rfl

theorem addGroup_of_not_registrable (h : ¬ c.Registrable members) :
    ∃ e, c.addGroup members = .error e := by
  rw [addGroup]
  cases hfault : c.groupFault? members with
  | none => exact absurd (groupFault?_eq_none_iff.mp hfault) h
  | some fault => exact ⟨_, rfl⟩

/-- **Successful registration**, as a whole. -/
theorem of_addGroup (h : c.addGroup members = .ok (handle, c')) :
    c.Registrable members ∧ handle = c.nextHandle ∧ c' = c.enlarged members := by
  by_cases hlist : c.Registrable members
  · rw [addGroup_of_registrable hlist] at h
    cases h
    exact ⟨hlist, rfl, rfl⟩
  · obtain ⟨e, he⟩ := addGroup_of_not_registrable hlist
    cases h.symm.trans he

/-! ## §2 Ranks within a group -/

theorem ascending_pairwise (h : members.Nodup) : (ascending members).Pairwise (· < ·) := by
  have hsorted : (ascending members).SortedLE := List.sortedLE_mergeSort
  have hdistinct : (ascending members).Nodup := (ascending_perm members).nodup_iff.mpr h
  exact (hsorted.pairwise.and hdistinct).imp fun h => lt_of_le_of_ne h.1 h.2

/-- **Members in order**, in every group that was ever registered. -/
theorem Reachable.ascending (h : c.Reachable) (hg : g ∈ c.groups) :
    g.members.Pairwise (· < ·) := by
  induction h with
  | create hcreate =>
    rw [eq_ofConfig_of_create hcreate] at hg
    rw [List.mem_singleton.mp hg]
    exact List.pairwise_lt_range
  | addGroup hc hadd ih =>
    obtain ⟨hlist, -, rfl⟩ := of_addGroup hadd
    rcases List.mem_append.mp hg with hold | hnew
    · exact ih hold
    · rw [List.mem_singleton.mp hnew]
      exact ascending_pairwise hlist.2.1

end Cluster

namespace Group

variable {g : Group} {members : List Nat}

/-- In an ascending list, as many entries are before an entry as are below it. -/
theorem findIdx?_of_ascending (h : members.Pairwise (· < ·)) (rank : Nat) :
    members.findIdx? (· == rank) =
      if rank ∈ members then some (members.countP (· < rank)) else none := by
  induction members with
  | nil => rfl
  | cons first rest ih =>
    obtain ⟨hbelow, hrest⟩ := List.pairwise_cons.mp h
    rw [List.findIdx?_cons, ih hrest]
    by_cases hfirst : first = rank
    · subst hfirst
      have hnone : rest.countP (· < first) = 0 := by
        rw [List.countP_eq_zero]
        intro other hother
        have hlt := hbelow other hother
        simpa using Nat.le_of_lt hlt
      simp [hnone]
    · by_cases hmem : rank ∈ rest
      · have hlt : first < rank := hbelow rank hmem
        simp [hfirst, hmem, hlt]
      · simp [hfirst, hmem, Ne.symm hfirst]

/-- **The rank of a member** is the number of members below it. -/
theorem rankOf?_of_perm (h : g.members.Pairwise (· < ·)) (hperm : g.members.Perm members)
    (rank : Nat) :
    g.rankOf? rank = if rank ∈ members then some (members.countP (· < rank)) else none := by
  rw [rankOf?, findIdx?_of_ascending h, hperm.countP_eq]
  simp only [hperm.mem_iff]

/-- **Members and slots**: the members' ranks in the group are the slots, one for each. -/
theorem map_rankOf? (h : g.members.Nodup) :
    g.members.map g.rankOf? = (List.range g.size).map some := by
  apply List.ext_getElem
  · simp [size]
  · intro slot hslot hslot'
    rw [List.length_map] at hslot
    simp only [List.getElem_map, List.getElem_range]
    exact rankOf?_eq_some h (List.getElem?_eq_getElem hslot)

end Group

namespace Cluster

variable {c : Cluster} {members : List Nat}

/-- **Ranks in a new group**, whatever order the members were listed in. -/
theorem Registrable.rankOf?_newGroup (h : c.Registrable members) (rank : Nat) :
    (c.newGroup members).rankOf? rank =
      if rank ∈ members then some (members.countP (· < rank)) else none :=
  Group.rankOf?_of_perm (ascending_pairwise h.2.1) (ascending_perm members) rank

/-- The members' ranks in the new group are as many as there are slots, all different. -/
theorem Registrable.ranks_perm (h : c.Registrable members) :
    (members.map (c.newGroup members).rankOf?).Perm ((List.range members.length).map some) := by
  have hperm : (c.newGroup members).members.Perm members := ascending_perm members
  have hslots := Group.map_rankOf? (hperm.nodup_iff.mpr h.2.1)
  rw [Group.size, hperm.length_eq] at hslots
  rw [← hslots]
  exact hperm.symm.map _

end Cluster

/-! ## §3 Handles -/

namespace Cluster

variable {c c' : Cluster} {members : List Nat} {handle : CommHandle} {number : Nat} {g : Group}

/-- **Handle of a number**: the world has number zero and handle one. -/
def handleAt (number : Nat) : CommHandle := ⟨Int64.ofNat (number + 1)⟩

theorem toInt_handleAt (h : number + 1 < 2 ^ 63) :
    (handleAt number).raw.toInt = (number + 1 : Nat) :=
  Int64.toInt_ofNat_of_lt h

theorem handleAt_inj {number' : Nat} (h : number + 1 < 2 ^ 63) (h' : number' + 1 < 2 ^ 63)
    (heq : handleAt number = handleAt number') : number = number' := by
  have hint := congrArg (fun handle => handle.raw.toInt) heq
  simp only [toInt_handleAt h, toInt_handleAt h'] at hint
  omega

/-- Beyond the world, no handle that is numbered is reserved. -/
theorem handleAt_ne_reserved (hpos : 0 < number) (h : number + 1 < 2 ^ 63) :
    handleAt number ≠ .null ∧ handleAt number ≠ .world := by
  constructor
  · intro hnull
    have hint := congrArg (fun handle => handle.raw.toInt) hnull
    simp only [toInt_handleAt h] at hint
    exact absurd hint (by simp [CommHandle.null]; omega)
  · intro hworld
    exact Nat.ne_of_gt hpos (handleAt_inj h (by decide) hworld)

/-- **Numbered** clusters: groups have the handles of their numbers, so that the greatest handle
says how many there are. -/
structure Numbered (c : Cluster) : Prop where
  handle : ∀ number g, c.groups[number]? = some g → g.handle = handleAt number
  greatest : c.groups.foldl (fun greatest g => max greatest g.handle.raw) CommHandle.world.raw =
    Int64.ofNat c.groups.length

theorem Numbered.nextHandle (h : c.Numbered) : c.nextHandle = handleAt c.groups.length := by
  rw [Cluster.nextHandle, h.greatest, handleAt, Int64.ofNat_add]
  rfl

theorem Numbered.ofConfig (config : Config) : (Cluster.ofConfig config).Numbered where
  handle number g hg := by
    cases number with
    | zero =>
      cases hg
      rfl
    | succ number => cases hg
  greatest := rfl

/-- **Step lemma**: as long as the numbers last, the next group has the next number. -/
theorem Numbered.enlarged (h : c.Numbered) (members : List Nat)
    (hroom : c.groups.length + 1 < 2 ^ 63) : (c.enlarged members).Numbered where
  handle number g hg := by
    have hlt := (List.getElem?_eq_some_iff.mp hg).1
    rw [length_enlarged] at hlt
    rw [Cluster.enlarged] at hg
    rcases Nat.lt_succ_iff_lt_or_eq.mp hlt with hold | rfl
    · rw [List.getElem?_append_left hold] at hg
      exact h.handle number g hg
    · rw [List.getElem?_concat_length] at hg
      cases hg
      exact h.nextHandle
  greatest := by
    have hle : Int64.ofNat c.groups.length ≤ Int64.ofNat (c.groups.length + 1) := by
      rw [Int64.le_iff_toInt_le, Int64.toInt_ofNat_of_lt (Nat.lt_of_succ_lt hroom),
        Int64.toInt_ofNat_of_lt hroom]
      omega
    rw [length_enlarged, Cluster.enlarged, List.foldl_append, h.greatest]
    show max _ c.nextHandle.raw = _
    rw [h.nextHandle]
    exact if_pos hle

/-- **Run lemma**: a reachable cluster is numbered while the numbers last. -/
theorem Reachable.numbered (h : c.Reachable) (hroom : c.groups.length < 2 ^ 63) : c.Numbered := by
  induction h with
  | create hcreate =>
    rw [eq_ofConfig_of_create hcreate]
    exact .ofConfig _
  | addGroup hc hadd ih =>
    obtain ⟨-, -, rfl⟩ := of_addGroup hadd
    rw [length_enlarged] at hroom
    exact (ih (Nat.lt_of_succ_lt hroom)).enlarged _ hroom

/-- **Finding a group** of a numbered cluster by its handle. -/
theorem Numbered.group (h : c.Numbered) (hroom : c.groups.length < 2 ^ 63)
    (hg : c.groups[number]? = some g) : c.group g.handle = .ok (number, g) := by
  obtain ⟨hlt, hget⟩ := List.getElem?_eq_some_iff.mp hg
  have hfirst : c.groups.findIdx? (fun other => other.handle == g.handle) = some number := by
    rw [List.findIdx?_eq_some_iff_getElem]
    refine ⟨hlt, by rw [hget]; exact beq_self_eq_true _, fun earlier hearlier hsame => ?_⟩
    -- an earlier group would have the same number
    have hhandle := h.handle earlier _ (List.getElem?_eq_getElem (hearlier.trans hlt))
    rw [eq_of_beq hsame, h.handle number g hg] at hhandle
    have heq := handleAt_inj (by omega) (by omega) hhandle
    omega
  rw [group_eq_ok_iff, group?, hfirst]
  simp only [bind, Option.bind, hg, pure]

/-- A handle beyond the groups finds nothing. -/
theorem Numbered.group_beyond (h : c.Numbered) (hnumber : number + 1 < 2 ^ 63)
    (hbeyond : c.groups.length ≤ number) :
    c.group (handleAt number) = .error (.unknownCommunicator (handleAt number)) := by
  have hnone : c.groups.findIdx? (fun other => other.handle == handleAt number) = none := by
    rw [List.findIdx?_eq_none_iff]
    intro other hother
    obtain ⟨i, hlt, rfl⟩ := List.getElem_of_mem hother
    rw [h.handle i _ (List.getElem?_eq_getElem hlt), beq_eq_false_iff_ne]
    intro hsame
    have heq := handleAt_inj (by omega) hnumber hsame
    omega
  rw [Cluster.group, group?, hnone]
  rfl

/-- **A new handle** is not reserved, and found nothing before. -/
theorem Reachable.nextHandle_unused (hc : c.Reachable) (hroom : c.groups.length + 1 < 2 ^ 63) :
    c.nextHandle ≠ .null ∧ c.nextHandle ≠ .world ∧
      c.group c.nextHandle = .error (.unknownCommunicator c.nextHandle) := by
  have hnumbered := hc.numbered (Nat.lt_of_succ_lt hroom)
  have hpos : 0 < c.groups.length := (List.getElem?_eq_some_iff.mp hc.rooted).1
  obtain ⟨hnull, hworld⟩ := handleAt_ne_reserved hpos hroom
  rw [hnumbered.nextHandle]
  exact ⟨hnull, hworld, hnumbered.group_beyond hroom (Nat.le_refl _)⟩

/-- It finds the new group from now on. -/
theorem Reachable.group_nextHandle (hc : c.Reachable) (hroom : c.groups.length + 1 < 2 ^ 63)
    (members : List Nat) :
    (c.enlarged members).group c.nextHandle =
      .ok (c.groups.length, c.newGroup members) := by
  have hnumbered := (hc.numbered (Nat.lt_of_succ_lt hroom)).enlarged members hroom
  have hnew : (c.enlarged members).groups[c.groups.length]? = some (c.newGroup members) :=
    List.getElem?_concat_length
  exact hnumbered.group (by rw [length_enlarged]; exact hroom) hnew

/-- It is not given again. -/
theorem Reachable.nextHandle_ne (hc : c.Reachable) (hc' : c'.Reachable)
    (hgrows : (c.enlarged members).Grows c') (hroom : c'.groups.length + 1 < 2 ^ 63) :
    c'.nextHandle ≠ c.nextHandle := by
  have hlength := hgrows.groups.length_le
  rw [length_enlarged] at hlength
  rw [(hc.numbered (by omega)).nextHandle, (hc'.numbered (by omega)).nextHandle]
  intro hsame
  have heq := handleAt_inj hroom (by omega) hsame
  omega

/-- A group that is found has the handle that was asked for. -/
theorem handle_of_group (h : c.group handle = .ok (number, g)) : g.handle = handle := by
  obtain ⟨i, hi, hrest⟩ := Option.bind_eq_some_iff.mp (group_eq_ok_iff.mp h)
  obtain ⟨g', hg', hpair⟩ := Option.bind_eq_some_iff.mp hrest
  cases hpair
  obtain ⟨hlt, hsame, -⟩ := List.findIdx?_eq_some_iff_getElem.mp hi
  rw [List.getElem?_eq_getElem hlt, Option.some.injEq] at hg'
  rw [← hg']
  exact eq_of_beq hsame

/-- The greatest handle is not below where the search for it begins. -/
theorem le_greatest (groups : List Group) (least : Int64) :
    least.toInt ≤ (groups.foldl (fun greatest g => max greatest g.handle.raw) least).toInt := by
  induction groups generalizing least with
  | nil => exact Int.le_refl _
  | cons g rest ih =>
    refine Int.le_trans ?_ (ih _)
    show least.toInt ≤ (if least ≤ g.handle.raw then g.handle.raw else least).toInt
    split
    · exact Int64.le_iff_toInt_le.mp ‹_›
    · exact Int.le_refl _

/-- The next handle is not null, even beyond the last number. -/
theorem nextHandle_ne_null (c : Cluster) : c.nextHandle ≠ .null := by
  intro hnull
  have hpos := le_greatest c.groups CommHandle.world.raw
  have hzero := congrArg (fun handle => handle.raw.toInt) hnull
  simp only [nextHandle, CommHandle.null, Int64.toInt_add] at hzero
  generalize c.groups.foldl (fun greatest g => max greatest g.handle.raw)
    CommHandle.world.raw = greatest at hpos hzero
  have hpos : 1 ≤ greatest.toInt := hpos
  have hlt := greatest.toInt_lt
  -- only a multiple of the number of handles wraps to null
  have hdvd : (2 ^ 64 : Int) ∣ greatest.toInt + 1 := Int.dvd_of_bmod_eq_zero hzero
  omega

/-- **No group is null**. -/
theorem Reachable.handle_ne_null (h : c.Reachable) (hg : g ∈ c.groups) : g.handle ≠ .null := by
  induction h with
  | create hcreate =>
    rw [eq_ofConfig_of_create hcreate] at hg
    rw [List.mem_singleton.mp hg]
    exact (by decide : CommHandle.world ≠ .null)
  | addGroup hc hadd ih =>
    obtain ⟨-, -, rfl⟩ := of_addGroup hadd
    rcases List.mem_append.mp hg with hold | hnew
    · exact ih hold
    · rw [List.mem_singleton.mp hnew]
      exact nextHandle_ne_null _

/-- **Handles keep their groups** when a cluster grows. -/
theorem Grows.group {found : Nat × Group} (h : c.Grows c')
    (hfound : c.group handle = .ok found) : c'.group handle = .ok found := by
  obtain ⟨more, hmore⟩ := h.groups
  obtain ⟨i, hi, hrest⟩ := Option.bind_eq_some_iff.mp (group_eq_ok_iff.mp hfound)
  obtain ⟨g, hg, hpair⟩ := Option.bind_eq_some_iff.mp hrest
  rw [group_eq_ok_iff, group?, ← hmore, List.findIdx?_append, hi]
  simp only [Option.some_or, bind, Option.bind, hmore, h.getElem? hg]
  exact hpair

end Cluster

/-! ## §4 A cluster of a fabric over a run -/

namespace Fabric

variable {f f' : Fabric} {number other : Nat} {c c' : Cluster} {members : List Nat} {b : BackendId}

theorem addGroup_of_registrable (hcluster : f.clusters[number]? = some c)
    (h : c.Registrable members) :
    addGroup number members f = (.ok c.nextHandle, report (.groupRegistered c.nextHandle)
      { f with clusters := f.clusters.set number (c.enlarged members) }) := by
  simp only [addGroup, hcluster, Cluster.addGroup_of_registrable h]

theorem addGroup_of_not_registrable (hcluster : f.clusters[number]? = some c)
    (h : ¬ c.Registrable members) : ∃ e, addGroup number members f = (.error e, f) := by
  obtain ⟨e, he⟩ := Cluster.addGroup_of_not_registrable h
  exact ⟨e, by simp only [addGroup, hcluster, he]⟩

/-- A registration succeeds exactly on a registrable list, and gives the next handle. -/
theorem addGroup_eq_ok_iff {handle : CommHandle} (hcluster : f.clusters[number]? = some c) :
    (addGroup number members f).1 = .ok handle ↔ c.Registrable members ∧ handle = c.nextHandle := by
  by_cases h : c.Registrable members
  · rw [addGroup_of_registrable hcluster h]
    simp [h, eq_comm]
  · obtain ⟨e, he⟩ := addGroup_of_not_registrable hcluster h
    simp [he, h]

/-- A registration that fails changes nothing. -/
theorem addGroup_of_error {e : CommError} (hcluster : f.clusters[number]? = some c)
    (he : (addGroup number members f).1 = .error e) : (addGroup number members f).2 = f := by
  by_cases h : c.Registrable members
  · rw [addGroup_of_registrable hcluster h] at he
    cases he
  · obtain ⟨e', he'⟩ := addGroup_of_not_registrable hcluster h
    rw [he']

/-- **Grown**: the fabric has a cluster that groups were registered with since an earlier
moment. -/
def Grown (number : Nat) (c : Cluster) (f : Fabric) : Prop :=
  ∃ c', f.clusters[number]? = some c' ∧ c'.Reachable ∧ c.Grows c'

theorem Grown.now (hcluster : f.clusters[number]? = some c) (hc : c.Reachable) :
    Grown number c f :=
  ⟨c, hcluster, hc, .refl c⟩

theorem Grown.still (h : Grown number c f) (hclusters : f'.clusters = f.clusters) :
    Grown number c f' := by
  rw [Grown, hclusters]
  exact h

/-- The cluster itself after a registration that succeeds. -/
theorem getElem?_addGroup (hcluster : f.clusters[number]? = some c)
    (h : c.Registrable members) :
    (addGroup number members f).2.clusters[number]? = some (c.enlarged members) := by
  obtain ⟨hlt, -⟩ := List.getElem?_eq_some_iff.mp hcluster
  rw [addGroup_of_registrable hcluster h]
  exact List.getElem?_set_self hlt

/-- A cluster grows through registrations, with itself or with another one. -/
theorem Grown.addGroup (h : Grown number c f) (other : Nat) (members : List Nat) :
    Grown number c (Fabric.addGroup other members f).2 := by
  obtain ⟨c', hcluster, hc', hgrows⟩ := h
  by_cases hother : other = number
  · subst hother
    by_cases hlist : c'.Registrable members
    · have hadd := Cluster.addGroup_of_registrable hlist
      exact ⟨c'.enlarged members, getElem?_addGroup hcluster hlist, .addGroup hc' hadd,
        hgrows.trans (Cluster.addGroup_grows hadd)⟩
    · obtain ⟨e, he⟩ := addGroup_of_not_registrable hcluster hlist
      rw [he]
      exact ⟨c', hcluster, hc', hgrows⟩
  · refine ⟨c', ?_, hc', hgrows⟩
    cases hneighbour : f.clusters[other]? with
    | none =>
      simp only [Fabric.addGroup, hneighbour]
      exact hcluster
    | some neighbour =>
      by_cases hlist : neighbour.Registrable members
      · rw [addGroup_of_registrable hneighbour hlist]
        show (f.clusters.set other (neighbour.enlarged members))[number]? = some c'
        rw [List.getElem?_set_ne hother, hcluster]
      · obtain ⟨e, he⟩ := addGroup_of_not_registrable hneighbour hlist
        rw [he]
        exact hcluster

/-- Nothing that is asked of the engine changes a cluster. -/
theorem Grown.lasting (number : Nat) (c : Cluster) : engine.Lasting (Grown number c) where
  report event f h := h.still (still_report event f).clusters
  communicator b handle f h := h.still (still_communicator b handle f).clusters
  memoryOf comm rank f h := h.still (still_memoryOf comm rank f).clusters
  start b args f h := h.still (still_start b args f).clusters
  stop b f h := h.still (still_stop b f).clusters

/-- **Step lemma**: a cluster grows through any deed. -/
theorem Grown.deed (h : Grown number c f) (deed : Deed) : Grown number c (deed.after f) := by
  cases deed with
  | call b call => exact call.keeps (Grown.lasting number c) b h
  | register other members => exact h.addGroup other members

/-- **Run lemma**: so it does through any number of them. -/
theorem Grown.run (h : Grown number c f) (deeds : List Deed) :
    Grown number c (Deed.run deeds f) := by
  induction deeds generalizing f with
  | nil => exact h
  | cons deed deeds ih => exact ih (h.deed deed)

/-- **Finding a registered group** through a node that runs. -/
theorem HasNode.communicator_of_group {n : Node} {life : Life} {handle : CommHandle} {g : Group}
    {place : Nat} (h : f.HasNode b n) (hrunning : n.running = some life)
    (hcluster : f.clusters[n.cluster]? = some c) (hnull : handle ≠ .null)
    (hworld : handle ≠ .world) (hgroup : c.group handle = .ok (place, g)) :
    Fabric.communicator b handle f =
      (.ok (.ofGroup (n.comm b c.config place g life.number)), f) := by
  have hnull : handle.isNull = false := by
    rw [CommHandle.isNull, beq_eq_false_iff_ne]
    exact hnull
  have hworld : handle.isWorld = false := by
    rw [CommHandle.isWorld, beq_eq_false_iff_ne]
    exact hworld
  simp only [Fabric.communicator, show f.backends[b]? = some (.node n) from h, nodeCommunicator,
    hnull, hworld, hrunning, hcluster, hgroup, bind, Except.bind, pure, Except.pure,
    Bool.false_eq_true, if_false]

end Fabric

/-! ## §5 Registration over whole runs -/

namespace Deed

/-- **Registration is sound** at every moment of a cluster's history. It succeeds exactly on a
list of distinct participants, and changes nothing otherwise. What was found before is found for
ever. A new handle is reserved for nothing else, was not used before and is not given again; at
all times, every node that runs finds by it the group of the listed members, where a member's
rank is the number of members below it. So the members' ranks are the slots of the group's
meetings, one for each. -/
theorem registration_sound {f : Fabric} {number : Nat} {c : Cluster}
    (hcluster : f.clusters[number]? = some c) (hc : c.Reachable) (before : List Deed)
    (members : List Nat) :
    let f₁ := run before f
    let answer := (Fabric.addGroup number members f₁).1
    let f₂ := (Fabric.addGroup number members f₁).2
    ∃ c₁, f₁.clusters[number]? = some c₁ ∧ c₁.config = c.config ∧
      ((∃ handle, answer = .ok handle) ↔
        members ≠ [] ∧ members.Nodup ∧ ∀ rank ∈ members, rank < c.size) ∧
      (∀ e, answer = .error e → f₂ = f₁) ∧
      (∀ handle found, c₁.group handle = .ok found → ∀ after : List Deed,
        ∃ c₃, (run after f₂).clusters[number]? = some c₃ ∧ c₃.group handle = .ok found) ∧
      ∀ handle, answer = .ok handle → c₁.groups.length + 1 < 2 ^ 63 →
        handle ≠ .null ∧ handle ≠ .world ∧ (∀ found, c₁.group handle ≠ .ok found) ∧
        ∃ place g, (members.map g.rankOf?).Perm ((List.range members.length).map some) ∧
          ∀ after : List Deed,
            let f₃ := run after f₂
            ∃ c₃, f₃.clusters[number]? = some c₃ ∧ c₃.group handle = .ok (place, g) ∧
              (∀ later handle', c₃.groups.length + 1 < 2 ^ 63 →
                (Fabric.addGroup number later f₃).1 = .ok handle' → handle' ≠ handle) ∧
              ∀ b n, f₃.HasNode b n → n.cluster = number → f₃.isRunning b = true →
                ∃ x, Fabric.communicator b handle f₃ = (.ok (.ofGroup x), f₃) ∧
                  x.size = members.length ∧ x.rank? = g.rankOf? n.rank ∧
                  x.rank? = (if n.rank ∈ members then some (members.countP (· < n.rank))
                    else none) ∧
                  ∀ slot, x.seat slot = ⟨⟨number, place⟩, members.length, slot⟩ := by
  intro f₁ answer f₂
  obtain ⟨c₁, hcluster₁, hc₁, hgrows₁⟩ : Fabric.Grown number c f₁ :=
    (Fabric.Grown.now hcluster hc).run before
  have hsize : c₁.size = c.size := by
    rw [Cluster.size, hgrows₁.config]
    rfl
  refine ⟨c₁, hcluster₁, hgrows₁.config, ?_, fun e => Fabric.addGroup_of_error hcluster₁, ?_, ?_⟩
  · have hanswer : ∀ handle, answer = .ok handle ↔ _ := fun handle =>
      Fabric.addGroup_eq_ok_iff hcluster₁
    rw [← hsize]
    exact ⟨fun ⟨handle, h⟩ => ((hanswer handle).mp h).1, fun h => ⟨_, (hanswer _).mpr ⟨h, rfl⟩⟩⟩
  · intro handle found hfound after
    obtain ⟨c₃, hcluster₃, -, hgrows₃⟩ : Fabric.Grown number c₁ (run after f₂) :=
      ((Fabric.Grown.now hcluster₁ hc₁).addGroup number members).run after
    exact ⟨c₃, hcluster₃, hgrows₃.group hfound⟩
  · intro handle hok hroom
    obtain ⟨hlist, rfl⟩ := (Fabric.addGroup_eq_ok_iff hcluster₁).mp hok
    obtain ⟨hnull, hworld, hunused⟩ := hc₁.nextHandle_unused hroom
    refine ⟨hnull, hworld, fun found hfound => (nomatch hunused.symm.trans hfound),
      c₁.groups.length, c₁.newGroup members, hlist.ranks_perm, ?_⟩
    intro after f₃
    have hadd := Cluster.addGroup_of_registrable hlist
    obtain ⟨c₃, hcluster₃, hc₃, hgrows₃⟩ : Fabric.Grown number (c₁.enlarged members) f₃ :=
      (Fabric.Grown.now (Fabric.getElem?_addGroup hcluster₁ hlist) (.addGroup hc₁ hadd)).run after
    have hfound := hgrows₃.group (hc₁.group_nextHandle hroom members)
    refine ⟨c₃, hcluster₃, hfound, ?_, ?_⟩
    · intro later handle' hroom₃ hok'
      obtain ⟨-, rfl⟩ := (Fabric.addGroup_eq_ok_iff hcluster₃).mp hok'
      exact hc₁.nextHandle_ne hc₃ hgrows₃ hroom₃
    · rintro b n hnode rfl hup
      rw [hnode.isRunning_eq, Option.isSome_iff_exists] at hup
      obtain ⟨life, hrunning⟩ := hup
      have hsize₃ : (c₁.newGroup members).size = members.length :=
        (Cluster.ascending_perm members).length_eq
      refine ⟨_, hnode.communicator_of_group hrunning hcluster₃ hnull hworld hfound, hsize₃, rfl,
        hlist.rankOf?_newGroup n.rank, fun slot => ?_⟩
      rw [GroupComm.seat, GroupComm.size]
      show (⟨_, (c₁.newGroup members).size, slot⟩ : Seat) = _
      rw [hsize₃]
      rfl

/-- Participants 2 and 1 of the trio are registered in this order. After a restart, participant 2
still finds the group, in which it is the last. -/
theorem registration_sound_restarted :
    JointCall.trioFabric.clusters[0]? = some JointCall.trio ∧ JointCall.trio.Reachable ∧
      ∃ handle x, (Fabric.addGroup 0 [2, 1] JointCall.trioFabric).1 = .ok handle ∧
        (Fabric.communicator 2 handle (run [.call 2 .stop, .call 2 (.start [])]
          (Fabric.addGroup 0 [2, 1] JointCall.trioFabric).2)).1 = .ok (.ofGroup x) ∧
        x.size = 2 ∧ x.rank? = some 1 := by
  have hcluster : JointCall.trioFabric.clusters[0]? = some JointCall.trio := rfl
  have hlist : JointCall.trio.Registrable [2, 1] := by decide
  obtain ⟨c₁, hcluster₁, -, hanswer, -, -, hnew⟩ :=
    registration_sound hcluster JointCall.trio_reachable [] [2, 1]
  cases hcluster.symm.trans hcluster₁
  obtain ⟨handle, hok⟩ := hanswer.mpr hlist
  obtain ⟨-, -, -, place, g, -, hlater⟩ := hnew handle hok (by decide)
  obtain ⟨c₃, -, -, -, hnodes⟩ := hlater [.call 2 .stop, .call 2 (.start [])]
  have hnode : ∃ n, (run [.call 2 .stop, .call 2 (.start [])]
      (Fabric.addGroup 0 [2, 1] JointCall.trioFabric).2).HasNode 2 n ∧ n.cluster = 0 ∧
        n.rank = 2 ∧ n.running.isSome = true := by
    rw [Fabric.addGroup_of_registrable hcluster hlist]
    exact ⟨_, rfl, rfl, rfl, rfl⟩
  obtain ⟨n, hnode, hhome, hrank, hup⟩ := hnode
  obtain ⟨x, hx, hsize, -, hplace, -⟩ := hnodes 2 n hnode hhome (hnode.isRunning_eq.trans hup)
  refine ⟨hcluster, JointCall.trio_reachable, handle, x, hok, congrArg Prod.fst hx, hsize, ?_⟩
  rw [hplace, hrank]
  rfl

end Deed

end ClusterView
