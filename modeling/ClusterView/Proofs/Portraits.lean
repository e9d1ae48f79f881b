import ClusterView.Proofs.Groups
import ClusterView.Proofs.Populated
import ClusterView.View.Query

/-!
# Portraits of a group

All that a view answers about its members comes from the resource sets in its state, which are
numbered by rank. So a view that spans a group describes it: every member is there in its place,
with its own memory, the calling process finds itself exactly if it is a member, and members with
as much memory as a RAM value are listed in rank order.

Two kinds of ranks meet here. Memory belongs to a participant of the cluster, while a set's rank
and the owner of its memory are places within the group.

## Sections
- §1: Questions to a numbered list of sets
- §2: States that span a group
- §3: What such a state says
-/

namespace ClusterView

/-! ## §1 Questions to a numbered list of sets -/

/-- **Same memory** is same capacity: no memory at all has capacity zero. -/
theorem Ram.same_eq {κ : Type} (a b : Ram κ) : a.same b = (a.capacity == b.capacity) := by
  unfold same isEmpty
  by_cases ha : a.capacity = 0
  · by_cases hb : b.capacity = 0
    · simp [ha, hb]
    · simp [ha, hb, Ne.symm hb]
  · by_cases hb : b.capacity = 0
    · simp [ha, hb]
    · simp [ha, hb]

namespace ViewState

section Numbered

variable {κ : Type} {state : ViewState κ} {n : Nat} {set : Nat → ResourceSet κ}
  (hsets : state.sets = (List.range n).map set)

include hsets

theorem size_of_sets : size (some state) = n := by
  rw [size, allSets, hsets, List.length_map, List.length_range]

theorem at?_of_lt {index : Nat} (hindex : index < n) :
    at? (some state) index = .ok (set index) := by
  have hset : state.sets[index]? = some (set index) := by simp [hsets, hindex]
  simp only [at?, behind, bind, Except.bind, hset, pure, Except.pure]

theorem at?_of_le {index : Nat} (hindex : n ≤ index) :
    at? (some state) index = .error (.outOfRange index n) := by
  have hset : state.sets[index]? = none := by simp [hsets, hindex]
  have hlength : state.sets.length = n := size_of_sets hsets
  simp only [at?, behind, bind, Except.bind, hset, hlength]
  rfl

/-- The view has the calling process among its members if one of the sets is its own. -/
theorem hasMe_of_sets :
    hasMe (some state) = .ok ((List.range n).any fun index => (set index).isMine) := by
  simp only [hasMe, behind, Except.map, hsets, List.any_map]
  rfl

/-- The calling process finds the one set that is its own. -/
theorem mySet_of_mine {me : Nat} (hme : me < n)
    (hmine : ∀ index, (set index).isMine = true ↔ me = index) :
    mySet (some state) = .ok (set me) := by
  have hfind : state.sets.find? (·.isMine) = some (set me) := by
    have hrange : (List.range n).find? (ResourceSet.isMine ∘ set) = some me := by
      rw [List.find?_range_eq_some]
      refine ⟨(hmine me).mpr rfl, List.mem_range.mpr hme, fun earlier hearlier => ?_⟩
      have hother : ¬ (set earlier).isMine = true := by
        rw [hmine]
        exact Nat.ne_of_gt hearlier
      simpa using hother
    rw [hsets, List.find?_map, hrange]
    rfl
  simp only [mySet, behind, bind, Except.bind, hfind, pure, Except.pure]

theorem mySet_of_none (hmine : ∀ index < n, ¬ (set index).isMine = true) :
    mySet (some state) = .error .notAMember := by
  have hfind : state.sets.find? (·.isMine) = none := by
    rw [hsets, List.find?_eq_none]
    intro other hother
    obtain ⟨index, hindex, rfl⟩ := List.mem_map.mp hother
    exact hmine index (List.mem_range.mp hindex)
  simp only [mySet, behind, bind, Except.bind, hfind]
  rfl

/-- **Sets with the same memory** are those of the same capacity, in order. -/
theorem equalRange_of_sets (ram : Ram κ) :
    equalRange (some state) ram = .ok (((List.range n).filter fun index =>
      (set index).ram.capacity = ram.capacity).map set) := by
  have hsame : ((fun other : ResourceSet κ => other.ram.same ram) ∘ set) =
      fun index => decide ((set index).ram.capacity = ram.capacity) := by
    funext index
    simp only [Function.comp_apply, Ram.same_eq]
    rfl
  simp only [equalRange, behind, Except.map, hsets, List.filter_map, hsame]

theorem count_of_sets (ram : Ram κ) :
    count (some state) ram = .ok ((List.range n).filter fun index =>
      (set index).ram.capacity = ram.capacity).length := by
  simp only [count, equalRange_of_sets hsets, Except.map, List.length_map]

end Numbered

end ViewState

/-! ## §2 States that span a group -/

/-- **The resource set of a member** of the group, as the communicator's owner sees it. -/
def GroupComm.set (x : GroupComm) (slot : Nat) : ResourceSet Comm :=
  .ofMember (.ofGroup x) slot (x.config.memoryOf (x.group.members.getD slot 0))
    (decide (x.rank? = some slot))

namespace GroupComm

variable {x : GroupComm} {slot member : Nat}

/-- **The memory of all members**, in the order of their ranks in the group. -/
def memory (x : GroupComm) : List UInt64 :=
  (List.range x.size).map fun slot => x.config.memoryOf (x.group.members.getD slot 0)

theorem capacity_set (h : x.group.members[slot]? = some member) :
    (x.set slot).ram.capacity = x.config.memoryOf member := by
  show x.config.memoryOf (x.group.members.getD slot 0) = _
  rw [List.getD_eq_getElem?_getD, h, Option.getD_some]

/-- A set is the owner's own if it is that of the owner's place in the group. -/
theorem isMine_set (hdistinct : x.group.members.Nodup) (slot : Nat) :
    (x.set slot).isMine = true ↔ x.group.members[slot]? = some x.worldRank := by
  show decide (x.rank? = some slot) = true ↔ _
  rw [decide_eq_true_eq]
  exact Group.rankOf?_eq_some_iff hdistinct

end GroupComm

/-- The state **spans** the group of a communicator: it has a resource set for each member. -/
structure ViewState.Spans (state : ViewState Comm) (x : GroupComm) : Prop where
  comm : state.comm = .ofGroup x
  sets : state.sets = (List.range x.size).map x.set

namespace ViewState

variable {x : GroupComm} {f f₁ : Fabric}

/-- The members of a group tell their memory. -/
theorem memories_ofGroup (x : GroupComm) (f : Fabric) {ranks : List Nat}
    (hranks : ∀ rank ∈ ranks, rank < x.group.members.length) :
    memories Fabric.engine (.ofGroup x) ranks f =
      (.ok (ranks.map fun rank => x.config.memoryOf (x.group.members.getD rank 0)), f) := by
  induction ranks with
  | nil => rfl
  | cons rank rest ih =>
    have hlt := hranks rank (List.mem_cons_self ..)
    have hfirst : Fabric.engine.memoryOf (.ofGroup x) rank f =
        (.ok (x.config.memoryOf (x.group.members.getD rank 0)), f) := by
      simp [Fabric.engine, Comm.memoryOf, GroupComm.memoryOf, hlt]
    have hrest := ih fun other hother => hranks other (List.mem_cons_of_mem _ hother)
    simp only [memories, bind, StateT.bind, hfirst, hrest]
    rfl

/-- **A survey** of a group that is found tells the memory of all its members. -/
theorem survey_ofGroup {backend : BackendId} {handle : CommHandle}
    (hfound : Fabric.communicator backend handle f = (.ok (.ofGroup x), f)) :
    survey Fabric.engine backend handle f = (.ok (.ofGroup x, x.memory), f) := by
  have hfound : Fabric.engine.communicator backend handle f = (.ok (.ofGroup x), f) := hfound
  have hmemory : memories Fabric.engine (.ofGroup x)
      (List.range (Fabric.engine.size (.ofGroup x))) f = (.ok x.memory, f) :=
    memories_ofGroup x f fun _ hrank => List.mem_range.mp hrank
  simp only [survey, bind, StateT.bind, hfound, hmemory]
  rfl

/-- The sets that are made of the members' memory. -/
theorem describeMembers_memory (x : GroupComm) :
    describeMembers (.ofGroup x) x.rank? x.memory = (List.range x.size).map x.set := by
  rw [describeMembers, GroupComm.memory]
  apply List.ext_getElem?
  intro slot
  by_cases hslot : slot < x.size <;> simp [hslot, GroupComm.set]

/-- **A construction** that finds a group leads to a state that spans it, with the default
loggers. -/
theorem construct_ofGroup {backend : BackendId} {args : List String} {handle : CommHandle}
    {startup : Startup Comm} (hstart : Fabric.start backend args f = (.ok startup, f₁))
    (hfound : let f₂ := f₁.report (.viewAttached startup.world.id startup.started handle)
      Fabric.communicator backend handle f₂ = (.ok (.ofGroup x), f₂)) :
    ∃ state, (construct Fabric.engine backend args handle f).1 = .ok state ∧ state.Spans x ∧
      (state.progress, state.debug) = Logger.rootOnly x.rank? := by
  have hsurvey := survey_ofGroup hfound
  have hcall := construct_of_survey (E := Fabric.engine) hstart hsurvey
  exact ⟨_, congrArg Prod.fst hcall, ⟨rfl, describeMembers_memory x⟩, rfl⟩

end ViewState

/-! ## §3 What such a state says -/

/-- **Portrait** of a group, in the configuration of its cluster, as a participant sees it: what
a view answers to every question about its members. -/
structure Portrait (s : Option (ViewState Comm)) (config : Config) (g : Group)
    (participant : Nat) : Prop where
  handle : ViewState.handle Fabric.engine s = g.handle
  size : ViewState.size s = g.members.length
  inside : ∀ slot member, g.members[slot]? = some member →
    ∃ set, ViewState.at? s slot = .ok set ∧ set.rank = slot ∧
      set.ram.capacity = config.memoryOf member ∧ set.ram.ownerRank? = some slot ∧
      (set.isMine = true ↔ member = participant)
  outside : ∀ slot, g.members.length ≤ slot →
    ViewState.at? s slot = .error (.outOfRange slot g.members.length)
  hasMe : ViewState.hasMe s = .ok (decide (participant ∈ g.members))
  mySet : ∀ slot, g.members[slot]? = some participant →
    ViewState.mySet s = ViewState.at? s slot ∧
      ∀ other set, ViewState.at? s other = .ok set → (set.isMine = true ↔ other = slot)
  notAMember : participant ∉ g.members → ViewState.mySet s = .error .notAMember
  equalRange : ∀ ram : Ram Comm, ∃ sets, ViewState.equalRange s ram = .ok sets ∧
    ViewState.count s ram = .ok sets.length ∧
    sets.map Except.ok = ((List.range g.members.length).filter fun slot =>
      (g.members[slot]?).map config.memoryOf = some ram.capacity).map (ViewState.at? s)

/-- **Portrait**: a state that spans a group describes it faithfully. -/
theorem ViewState.Spans.portrait {state : ViewState Comm} {x : GroupComm} (h : state.Spans x)
    (hdistinct : x.group.members.Nodup) :
    Portrait (some state) x.config x.group x.worldRank where
  handle := by
    show state.comm.handle = _
    rw [h.comm]
    rfl
  size := size_of_sets h.sets
  inside slot member hmember := by
    have hslot : slot < x.size := (List.getElem?_eq_some_iff.mp hmember).1
    refine ⟨x.set slot, at?_of_lt h.sets hslot, rfl, GroupComm.capacity_set hmember, rfl, ?_⟩
    rw [GroupComm.isMine_set hdistinct, hmember, Option.some.injEq]
  outside slot hslot := at?_of_le h.sets hslot
  hasMe := by
    rw [hasMe_of_sets h.sets]
    congr 1
    rw [Bool.eq_iff_iff, List.any_eq_true, decide_eq_true_eq, List.mem_iff_getElem?]
    simp only [GroupComm.isMine_set hdistinct, List.mem_range]
    refine ⟨fun ⟨slot, _, hslot⟩ => ⟨slot, hslot⟩, fun ⟨slot, hslot⟩ => ⟨slot, ?_, hslot⟩⟩
    exact (List.getElem?_eq_some_iff.mp hslot).1
  mySet slot hslot := by
    have hlt : slot < x.size := (List.getElem?_eq_some_iff.mp hslot).1
    have hmine : ∀ other, (x.set other).isMine = true ↔ slot = other := by
      intro other
      rw [GroupComm.isMine_set hdistinct, ← Group.rankOf?_eq_some_iff hdistinct,
        Group.rankOf?_eq_some hdistinct hslot, Option.some.injEq]
    refine ⟨(mySet_of_mine h.sets hlt hmine).trans (at?_of_lt h.sets hlt).symm, ?_⟩
    intro other set hset
    rcases Nat.lt_or_ge other x.size with hother | hother
    · rw [at?_of_lt h.sets hother, Except.ok.injEq] at hset
      rw [← hset, hmine other, eq_comm]
    · cases (at?_of_le h.sets hother).symm.trans hset
  notAMember hout := by
    refine mySet_of_none h.sets fun slot _ => ?_
    rw [GroupComm.isMine_set hdistinct]
    exact fun hslot => hout (List.mem_of_getElem? hslot)
  equalRange ram := by
    refine ⟨_, equalRange_of_sets h.sets ram, ?_, ?_⟩
    · rw [count_of_sets h.sets, List.length_map]
    · have hfilter : ((List.range x.size).filter fun slot =>
          (x.set slot).ram.capacity = ram.capacity) =
          (List.range x.size).filter fun slot =>
            (x.group.members[slot]?).map x.config.memoryOf = some ram.capacity := by
        refine List.filter_congr fun slot hslot => ?_
        have hlt : slot < x.group.members.length := List.mem_range.mp hslot
        have hmember := List.getElem?_eq_getElem hlt
        rw [decide_eq_decide, GroupComm.capacity_set hmember, hmember, Option.map_some,
          Option.some.injEq]
      rw [hfilter, List.map_map]
      refine List.map_congr_left fun slot hslot => ?_
      have hlt := List.mem_range.mp (List.mem_filter.mp hslot).1
      exact (at?_of_lt h.sets hlt).symm

end ClusterView
