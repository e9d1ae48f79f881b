import ClusterView.Fabric
import ClusterView.Proofs.Agenda
import ClusterView.Proofs.Dispatch

/-!
# Collectives over the groups of a cluster

Every group that was ever registered with a cluster has distinct members, all of them
participants. So the slot of a member is its rank in the group, and collectives over any
number of overlapping groups are the items of an agenda: whatever the schedule, they never
come to a standstill, and each answers what its own payloads say.

## Sections
- §1: Registered groups
- §2: Ends of a group
- §3: Calls that pass the checks
- §4: Joint calls
-/

namespace ClusterView

/-! ## §1 Registered groups -/

namespace Cluster

/-- **Reachable** clusters: created from a configuration, with groups registered since. -/
inductive Reachable : Cluster → Prop where
  | create {config : Config} {c : Cluster} (h : Cluster.create config = .ok c) : Reachable c
  | addGroup {c c' : Cluster} {members : List Nat} {handle : CommHandle} (hc : Reachable c)
      (h : c.addGroup members = .ok (handle, c')) : Reachable c'

/-- **Well-formed** clusters: the members of a group are distinct participants, and there is
at least one. -/
structure WellFormed (c : Cluster) : Prop where
  inhabited : ∀ g ∈ c.groups, g.members ≠ []
  distinct : ∀ g ∈ c.groups, g.members.Nodup
  inside : ∀ g ∈ c.groups, ∀ rank ∈ g.members, rank < c.size

theorem ascending_perm (members : List Nat) : (ascending members).Perm members :=
  List.mergeSort_perm _ _

/-- A list of members without fault is one of distinct participants. -/
theorem of_groupFault?_none {c : Cluster} {members : List Nat}
    (h : c.groupFault? members = none) :
    members ≠ [] ∧ members.Nodup ∧ ∀ rank ∈ members, rank < c.size := by
  unfold groupFault? at h
  split at h
  · cases h
  · rename_i hsome
    split at h
    · cases h
    · rename_i hdistinct
      refine ⟨hsome, not_not.mp hdistinct, fun rank hrank => ?_⟩
      -- the search for a rank beyond the cluster went over the sorted list
      have hnone := List.find?_eq_none.mp (Option.map_eq_none_iff.mp h) rank
        ((ascending_perm members).mem_iff.mpr hrank)
      simpa using hnone

theorem WellFormed.create {config : Config} {c : Cluster}
    (h : Cluster.create config = .ok c) : c.WellFormed := by
  unfold Cluster.create Config.validate at h
  cases hfault : config.fault? with
  | some fault =>
    rw [hfault] at h
    cases h
  | none =>
    rw [hfault] at h
    injection h with h
    subst h
    -- a configuration without participants is faulty
    have hsize : 0 < config.size := by
      apply Nat.pos_of_ne_zero
      intro hzero
      have hparticipants : config.participants = 0 := UInt64.toNat_inj.mp hzero
      simp [Config.fault?, hparticipants] at hfault
    constructor
    · intro g hg hnil
      rw [List.mem_singleton.mp hg] at hnil
      have hlength := congrArg List.length hnil
      simp only [worldGroup, List.length_range, List.length_nil] at hlength
      exact absurd hlength (Nat.ne_of_gt hsize)
    · intro g hg
      rw [List.mem_singleton.mp hg]
      exact List.nodup_range
    · intro g hg rank hrank
      rw [List.mem_singleton.mp hg] at hrank
      exact List.mem_range.mp hrank

theorem WellFormed.addGroup {c c' : Cluster} (hc : c.WellFormed) {members : List Nat}
    {handle : CommHandle} (h : c.addGroup members = .ok (handle, c')) : c'.WellFormed := by
  unfold Cluster.addGroup at h
  split at h
  · cases h
  · rename_i hfault
    obtain ⟨hsome, hdistinct, hinside⟩ := of_groupFault?_none hfault
    injection h with h
    injection h with _ h
    subst h
    have hperm := ascending_perm members
    constructor
    · intro g hg
      rcases List.mem_append.mp hg with hold | hnew
      · exact hc.inhabited g hold
      · rw [List.mem_singleton.mp hnew]
        intro hnil
        exact hsome (List.Perm.eq_nil (hnil ▸ hperm.symm))
    · intro g hg
      rcases List.mem_append.mp hg with hold | hnew
      · exact hc.distinct g hold
      · rw [List.mem_singleton.mp hnew]
        exact hperm.nodup_iff.mpr hdistinct
    · intro g hg rank hrank
      rcases List.mem_append.mp hg with hold | hnew
      · exact hc.inside g hold rank hrank
      · rw [List.mem_singleton.mp hnew] at hrank
        exact hinside rank (hperm.mem_iff.mp hrank)

/-- **Groups are well-formed** however many were registered, and with whatever lists. -/
theorem Reachable.wellFormed {c : Cluster} (h : c.Reachable) : c.WellFormed := by
  induction h with
  | create h => exact WellFormed.create h
  | addGroup _ h ih => exact ih.addGroup h

end Cluster

/-- With distinct members, a member's rank in the group is its place in the list. -/
theorem Group.rankOf?_eq_some {g : Group} (hdistinct : g.members.Nodup) {slot rank : Nat}
    (h : g.members[slot]? = some rank) : g.rankOf? rank = some slot := by
  obtain ⟨hlt, hget⟩ := List.getElem?_eq_some_iff.mp h
  apply List.findIdx?_eq_some_iff_getElem.mpr
  refine ⟨hlt, by simpa using hget, fun j hj hfound => ?_⟩
  -- an earlier place with the same participant would be a repetition
  have hsame : g.members[j] = g.members[slot] := by
    rw [hget]
    simpa using hfound
  exact Nat.ne_of_lt hj ((List.Nodup.getElem_inj_iff hdistinct).mp hsame)

/-- A member's rank in a group is its place among the members. -/
theorem Group.getElem?_of_rankOf? {g : Group} {rank slot : Nat} (h : g.rankOf? rank = some slot) :
    g.members[slot]? = some rank := by
  obtain ⟨hlt, hfound, -⟩ := List.findIdx?_eq_some_iff_getElem.mp h
  rw [List.getElem?_eq_getElem hlt]
  exact congrArg some (by simpa using hfound)

/-- With distinct members, this determines the rank. -/
theorem Group.rankOf?_eq_some_iff {g : Group} (hdistinct : g.members.Nodup) {slot rank : Nat} :
    g.rankOf? rank = some slot ↔ g.members[slot]? = some rank :=
  ⟨getElem?_of_rankOf?, rankOf?_eq_some hdistinct⟩

/-! ## §2 Ends of a group -/

namespace GroupComm

/-- **End of a group**: a communicator that belongs to a participant and spans a group of a
cluster. -/
structure IsEnd (x : GroupComm) (cluster number : Nat) (group : Group) (rank : Nat) : Prop where
  cluster : x.cluster = cluster
  number : x.number = number
  group : x.group = group
  owner : x.worldRank = rank

section Ends

variable {x : GroupComm} {cluster number : Nat} {group : Group} {rank slot : Nat}

theorem IsEnd.rank? (h : x.IsEnd cluster number group rank) (hdistinct : group.members.Nodup)
    (hslot : group.members[slot]? = some rank) : x.rank? = some slot := by
  rw [GroupComm.rank?, h.group, h.owner]
  exact Group.rankOf?_eq_some hdistinct hslot

theorem IsEnd.seat (h : x.IsEnd cluster number group rank) (slot : Nat) :
    x.seat slot = ⟨⟨cluster, number⟩, group.members.length, slot⟩ := by
  rw [GroupComm.seat, GroupComm.size, h.cluster, h.number, h.group]
  rfl

end Ends

/-- **Entry check**, as a whole: who may take part in a collective. -/
theorem enter_eq_ok_iff {x : GroupComm} {alive : Bool} {payload : Bytes} {datatype : Datatype}
    {root me : Nat} :
    x.enter alive payload datatype root = .ok me ↔
      alive = true ∧ x.rank? = some me ∧ root < x.size ∧
        ∀ width, datatype.width? = some width → payload.length = width := by
  unfold enter checkRank
  cases alive with
  | false => simp [bind, Except.bind, throw, throwThe, MonadExceptOf.throw]
  | true =>
    cases hrank : x.rank? with
    | none => simp [bind, Except.bind]
    | some slot =>
      by_cases hroot : root < x.size
      · cases hwidth : datatype.width? with
        | none => simp [bind, Except.bind, pure, Except.pure, hroot]
        | some width =>
          by_cases hlength : payload.length = width
          · simp [bind, Except.bind, pure, Except.pure, hroot, hlength]
          · simp [bind, Except.bind, throw, throwThe, MonadExceptOf.throw, hroot, hlength]
      · simp [bind, Except.bind, hroot]

/-- **Entry check, refused**: the first of its conditions that fails says why. -/
inductive Barred (x : GroupComm) (alive : Bool) (payload : Bytes) (datatype : Datatype)
    (root : Nat) : CommError → Prop where
  | notRunning (h : alive = false) : Barred x alive payload datatype root .notRunning
  | notAMember (halive : alive = true) (h : x.rank? = none) :
      Barred x alive payload datatype root .notAMember
  | invalidRank (halive : alive = true) (h : ¬ root < x.size) :
      Barred x alive payload datatype root (.invalidRank root x.size)
  | malformedPayload (halive : alive = true) (width : Nat) (hwidth : datatype.width? = some width)
      (h : payload.length ≠ width) :
      Barred x alive payload datatype root (.malformedPayload datatype payload.length)

theorem barred_of_enter {x : GroupComm} {alive : Bool} {payload : Bytes} {datatype : Datatype}
    {root : Nat} {e : CommError} (h : x.enter alive payload datatype root = .error e) :
    x.Barred alive payload datatype root e := by
  unfold enter checkRank at h
  cases alive with
  | false =>
    cases h
    exact .notRunning rfl
  | true =>
    cases hrank : x.rank? with
    | none =>
      simp [bind, Except.bind, hrank] at h
      exact h ▸ .notAMember rfl hrank
    | some slot =>
      by_cases hroot : root < x.size
      · cases hwidth : datatype.width? with
        | none => simp [bind, Except.bind, pure, Except.pure, hrank, hroot, hwidth] at h
        | some width =>
          by_cases hlength : payload.length = width
          · simp [bind, Except.bind, pure, Except.pure, hrank, hroot, hwidth, hlength] at h
          · simp [bind, Except.bind, throw, throwThe, MonadExceptOf.throw, hrank, hroot, hwidth,
              hlength] at h
            exact h ▸ .malformedPayload rfl width hwidth hlength
      · simp [bind, Except.bind, hrank, hroot] at h
        exact h ▸ .invalidRank rfl hroot

/-! ## §3 Calls that pass the checks -/

/-- **Call** of one member: a gather, or a reduction with an operation. -/
inductive Call where
  | gather (payload : Bytes) (datatype : Datatype) (root : Nat)
  | reduce (payload : Bytes) (datatype : Datatype) (op : Operation) (root : Nat)
deriving DecidableEq, Repr

/-- What a gather or a reduction brings back, the root only. -/
abbrev Reply := Option (List Bytes) ⊕ Option Bytes

namespace Call

def payload : Call → Bytes
  | .gather payload _ _ | .reduce payload _ _ _ => payload

def datatype : Call → Datatype
  | .gather _ datatype _ | .reduce _ datatype _ _ => datatype

def root : Call → Nat
  | .gather _ _ root | .reduce _ _ _ root => root

/-- The checks before the meeting, which find the caller's rank in the group. -/
def check (x : GroupComm) (alive : Bool) : Call → Except CommError Nat
  | .gather payload datatype root => x.enter alive payload datatype root
  | .reduce payload datatype op root => do
      let me ← x.enter alive payload datatype root
      Reduction.check datatype op
      return me

/-- **Reply** to a member on everybody's payloads: to the root all of them, or their fold,
and nothing to anybody else. -/
def reply (me : Nat) (parts : List Bytes) : Call → Except CommError Reply
  | .gather _ _ root => .ok (.inl (if me = root then some parts else none))
  | .reduce _ datatype op root =>
      if me = root then (Reduction.fold datatype op parts).map fun result => .inr (some result)
      else .ok (.inr none)

/-- The call, made on a communicator of the fabric. -/
def offer (x : Comm) : Call → StateM Fabric (Offer CommError Reply)
  | .gather payload datatype root => do
      return (← x.gather payload datatype root).andThen (Except.map .inl)
  | .reduce payload datatype op root => do
      return (← x.reduce payload datatype op root).andThen (Except.map .inr)

/-- **Why a call does not pass the checks**: the caller may not enter, or the reduction is not
defined. -/
theorem check_eq_error {x : GroupComm} {alive : Bool} {call : Call} {e : CommError}
    (h : call.check x alive = .error e) :
    x.Barred alive call.payload call.datatype call.root e ∨
      alive = true ∧ (e = .unsupportedDatatype call.datatype ∨
        ∃ op, e = .unsupportedOp op call.datatype) := by
  cases call with
  | gather payload datatype root => exact Or.inl (barred_of_enter h)
  | reduce payload datatype op root =>
    simp only [check] at h
    cases henter : x.enter alive payload datatype root with
    | error e' =>
      rw [henter] at h
      cases h
      exact Or.inl (barred_of_enter henter)
    | ok me =>
      rw [henter] at h
      refine Or.inr ⟨(enter_eq_ok_iff.mp henter).1, ?_⟩
      cases hcheck : Reduction.check datatype op with
      | ok _ =>
        simp only [bind, Except.bind, hcheck] at h
        cases h
      | error e' =>
        simp only [bind, Except.bind, hcheck] at h
        cases h
        exact (Reduction.check_eq_error hcheck).imp_right fun h => ⟨op, h⟩

/-- A call that passes the checks meets the others at the caller's seat. -/
theorem offer_of_check {x : GroupComm} {f : Fabric} {call : Call} {me : Nat}
    (h : call.check x (f.isAlive x) = .ok me) :
    ∃ conclude, call.offer (.ofGroup x) f = (.meet (x.seat me) call.payload conclude, f) ∧
      ∀ parts, conclude parts = call.reply me parts := by
  cases call with
  | gather payload datatype root =>
    have henter : x.enter (f.isAlive x) payload datatype root = .ok me := h
    have hgather : x.gather (f.isAlive x) payload datatype root =
        .meet (x.seat me) payload fun parts => .ok (if me = root then some parts else none) := by
      simp only [GroupComm.gather, henter]
    refine ⟨_, congrArg (fun o => (Offer.andThen (Except.map Sum.inl) o, f)) hgather, ?_⟩
    intro parts
    rfl
  | reduce payload datatype op root =>
    have henter : (do
        let me ← x.enter (f.isAlive x) payload datatype root
        Reduction.check datatype op
        pure me) = .ok me := h
    have hreduce : x.reduce (f.isAlive x) payload datatype op root =
        .meet (x.seat me) payload fun parts =>
          if me = root then (Reduction.fold datatype op parts).map some else .ok none := by
      simp only [GroupComm.reduce, henter]
    refine ⟨_, congrArg (fun o => (Offer.andThen (Except.map Sum.inr) o, f)) hreduce, ?_⟩
    intro parts
    by_cases hroot : me = root
    · simp only [reply, hroot, if_pos]
      cases Reduction.fold datatype op parts <;> rfl
    · simp only [reply, hroot, if_neg, not_false_iff]
      rfl

/-- A call that does not pass the checks is refused with what they found. -/
theorem offer_of_check_error {x : GroupComm} {f : Fabric} {call : Call} {e : CommError}
    (h : call.check x (f.isAlive x) = .error e) :
    call.offer (.ofGroup x) f = (.refuse e, f) := by
  cases call with
  | gather payload datatype root =>
    have henter : x.enter (f.isAlive x) payload datatype root = .error e := h
    have hgather : x.gather (f.isAlive x) payload datatype root = .refuse e := by
      simp only [GroupComm.gather, henter]
    exact congrArg (fun o => (Offer.andThen (Except.map Sum.inl) o, f)) hgather
  | reduce payload datatype op root =>
    have henter : (do
        let me ← x.enter (f.isAlive x) payload datatype root
        Reduction.check datatype op
        pure me) = .error e := h
    have hreduce : x.reduce (f.isAlive x) payload datatype op root = .refuse e := by
      simp only [GroupComm.reduce, henter]
    exact congrArg (fun o => (Offer.andThen (Except.map Sum.inr) o, f)) hreduce

end Call

end GroupComm

/-! ## §4 Joint calls -/

/-- **Joint call**: a collective over a registered group, with each member's own
communicator and call. -/
structure JointCall where
  /-- The group's number in the cluster. -/
  number : Nat
  group : Group
  comm : Nat → GroupComm
  call : Nat → GroupComm.Call

namespace JointCall

/-- **Passing**: the group is registered with the cluster, every member has an end of it,
and every member's call passes the checks. -/
structure Passes (j : JointCall) (f : Fabric) (number : Nat) (c : Cluster) : Prop where
  cluster : f.clusters[number]? = some c
  registered : c.groups[j.number]? = some j.group
  ends : ∀ rank ∈ j.group.members, (j.comm rank).IsEnd number j.number j.group rank
  checks : ∀ rank ∈ j.group.members, ∃ me,
    (j.call rank).check (j.comm rank) (f.isAlive (j.comm rank)) = .ok me

/-- The payloads of this joint call alone, in the order of ranks in the group. -/
def parts (j : JointCall) : List Bytes :=
  j.group.members.map fun rank => (j.call rank).payload

/-- **Serial answer** of a member. -/
def answer (j : JointCall) (rank : Nat) : Except CommError GroupComm.Reply :=
  (j.call rank).reply (j.group.members.idxOf rank) j.parts

/-- The joint call as an item of an agenda. -/
def item (number : Nat) (j : JointCall) : Item Fabric CommError GroupComm.Reply where
  point := ⟨number, j.number⟩
  members := j.group.members
  call rank := (j.call rank).offer (.ofGroup (j.comm rank))

section Passing

variable {j : JointCall} {f : Fabric} {number : Nat} {c : Cluster}

theorem check_slot {x : GroupComm} {alive : Bool} {call : GroupComm.Call} {me : Nat}
    (h : call.check x alive = .ok me) : x.rank? = some me := by
  cases call with
  | gather payload datatype root => exact (GroupComm.enter_eq_ok_iff.mp h).2.1
  | reduce payload datatype op root =>
    simp only [GroupComm.Call.check] at h
    cases henter : x.enter alive payload datatype root with
    | error e =>
      rw [henter] at h
      cases h
    | ok slot =>
      rw [henter] at h
      cases hcheck : Reduction.check datatype op with
      | error e =>
        simp only [hcheck] at h
        cases h
      | ok _ =>
        simp only [hcheck] at h
        injection h with h
        rw [← h]
        exact (GroupComm.enter_eq_ok_iff.mp henter).2.1

/-- A member's call meets the others at the member's slot, and leaves the fabric alone. -/
theorem Passes.call (h : j.Passes f number c) (hc : c.WellFormed) {slot rank : Nat}
    (hslot : j.group.members[slot]? = some rank) :
    ∃ conclude, (j.item number).call rank f =
        (.meet ⟨⟨number, j.number⟩, j.group.members.length, slot⟩ (j.call rank).payload
          conclude, f) ∧
      ∀ parts, conclude parts = (j.call rank).reply slot parts := by
  have hgroup := List.mem_of_getElem? h.registered
  have hmem := List.mem_of_getElem? hslot
  have hend := h.ends rank hmem
  obtain ⟨me, hcheck⟩ := h.checks rank hmem
  -- the rank that the check has found is the member's slot
  have hme : me = slot := by
    have hrank := check_slot hcheck
    rw [hend.rank? (hc.distinct _ hgroup) hslot] at hrank
    exact (Option.some.inj hrank).symm
  subst hme
  obtain ⟨conclude, hoffer, hconclude⟩ := GroupComm.Call.offer_of_check hcheck
  rw [hend.seat] at hoffer
  exact ⟨conclude, hoffer, hconclude⟩

theorem Passes.admitted (h : j.Passes f number c) (hc : c.WellFormed) :
    (j.item number).Admitted f := by
  refine ⟨hc.distinct _ (List.mem_of_getElem? h.registered), fun slot rank hslot => ?_⟩
  obtain ⟨conclude, hcall, -⟩ := h.call hc hslot
  exact ⟨_, conclude, hcall⟩

theorem Passes.answer (h : j.Passes f number c) (hc : c.WellFormed) {rank : Nat}
    (hmem : rank ∈ j.group.members) : (j.item number).answer f rank = j.answer rank := by
  have hdistinct := hc.distinct _ (List.mem_of_getElem? h.registered)
  obtain ⟨slot, hslot⟩ := List.mem_iff_getElem?.mp hmem
  obtain ⟨conclude, hcall, hconclude⟩ := h.call hc hslot
  have hparts : (j.item number).payloads f = j.parts := by
    apply List.map_congr_left
    intro other hother
    obtain ⟨i, hi⟩ := List.mem_iff_getElem?.mp hother
    obtain ⟨_, hcall', -⟩ := h.call hc hi
    rw [hcall']
    rfl
  have hidx : j.group.members.idxOf rank = slot := by
    obtain ⟨hlt, rfl⟩ := List.getElem?_eq_some_iff.mp hslot
    exact List.Nodup.idxOf_getElem hdistinct slot hlt
  rw [Item.answer, hcall, hparts, JointCall.answer, hidx]
  exact hconclude _

end Passing

/-- Joint calls over one cluster fit its participants. -/
theorem fit {f : Fabric} {number : Nat} {c : Cluster} (hc : c.WellFormed)
    {calls : List JointCall} (hpass : ∀ j ∈ calls, j.Passes f number c) :
    Agenda.Fit (calls.map (item number)) f c.size := by
  constructor
  case admitted =>
    intro _ hitem
    obtain ⟨j, hj, rfl⟩ := List.mem_map.mp hitem
    exact (hpass j hj).admitted hc
  case inside =>
    intro _ hitem rank hrank
    obtain ⟨j, hj, rfl⟩ := List.mem_map.mp hitem
    exact hc.inside _ (List.mem_of_getElem? (hpass j hj).registered) rank hrank
  case grouped =>
    intro _ hitem _ hother hpoint
    obtain ⟨j, hj, rfl⟩ := List.mem_map.mp hitem
    obtain ⟨i, hi, rfl⟩ := List.mem_map.mp hother
    -- a point is a group's number, so it is the same group
    have hnumber : j.number = i.number := congrArg Point.group hpoint
    have hj' := (hpass j hj).registered
    rw [hnumber, (hpass i hi).registered, Option.some.injEq] at hj'
    exact congrArg Group.members hj'.symm

/-- **Deadlock freedom and serialisability**: let every participant of a cluster make its
calls of a sequence of joint calls, one after the other, over whatever groups. Under every
schedule, somebody has a step unless everybody has ended, and everybody can be brought to its
end. Each call is answered from the payloads of its own joint call alone. -/
theorem serialisable {f : Fabric} {number : Nat} {c : Cluster} (hc : c.Reachable)
    {calls : List JointCall} (hpass : ∀ j ∈ calls, j.Passes f number c)
    (schedule : List Crew.Move) :
    let crew := (Agenda.crew (calls.map (item number)) f c.size).follow schedule
    (crew.hasEnded = false → ∃ rank < c.size, (crew.step? rank).isSome) ∧
      (∃ more, (crew.follow more).hasEnded = true) ∧
      ∀ rank < c.size,
        (crew.shared.notes rank <+:
          (calls.filter fun j => rank ∈ j.group.members).map fun j => j.answer rank) ∧
        (crew.results[rank]? = some (some ()) → crew.shared.notes rank =
          (calls.filter fun j => rank ∈ j.group.members).map fun j => j.answer rank) := by
  have hwell := hc.wellFormed
  have hfit := fit hwell hpass
  -- the serial answers of the agenda's items are those of the joint calls
  have hanswers : ∀ rank, Agenda.answers (calls.map (item number)) f rank =
      (calls.filter fun j => rank ∈ j.group.members).map fun j => j.answer rank := by
    intro rank
    rw [Agenda.answers, List.filter_map, List.map_map]
    apply List.map_congr_left
    intro j hj
    obtain ⟨hmem, hrank⟩ := List.mem_filter.mp hj
    exact (hpass j hmem).answer hwell (of_decide_eq_true hrank)
  refine ⟨Agenda.exists_step hfit schedule, Agenda.can_end hfit schedule, fun rank hrank => ?_⟩
  rw [← hanswers]
  exact (Agenda.follow_serial hfit schedule).2 rank hrank

/-- Three participants, two of which are registered as a group of their own. -/
def trio : Cluster where
  config := .ofParticipants 3
  groups := [⟨.world, [0, 1, 2]⟩, ⟨⟨2⟩, [0, 2]⟩]

theorem trio_reachable : trio.Reachable := by
  have hcreate : Cluster.create (.ofParticipants 3) =
      .ok ⟨.ofParticipants 3, [⟨.world, [0, 1, 2]⟩]⟩ := rfl
  have hascending : Cluster.ascending [0, 2] = [0, 2] :=
    List.mergeSort_of_pairwise (by decide)
  have hadd : Cluster.addGroup ⟨.ofParticipants 3, [⟨.world, [0, 1, 2]⟩]⟩ [0, 2] =
      .ok (⟨2⟩, trio) := by
    simp only [Cluster.addGroup, Cluster.groupFault?, hascending]
    rfl
  exact .addGroup (.create hcreate) hadd

/-- A fabric on which every participant of the trio runs. -/
def trioFabric : Fabric :=
  ((do
    let (_, nodes) ← Fabric.addCluster trio
    for b in nodes do
      discard (Fabric.start b [])) (Fabric.empty Fabric.counting)).2

/-- The end that a participant of the trio has of a group. -/
def trioEnd (number : Nat) (group : Group) (rank : Nat) : GroupComm :=
  ⟨0, trio.config, number, group, rank, rank, 0⟩

/-- Everybody gathers onto participant 2, the group reduces onto participant 2, and then
everybody gathers onto participant 0. -/
def trioCalls : List JointCall :=
  [ ⟨0, ⟨.world, [0, 1, 2]⟩, trioEnd 0 ⟨.world, [0, 1, 2]⟩,
      fun rank => .gather [UInt8.ofNat rank] .byte 2⟩,
    ⟨1, ⟨⟨2⟩, [0, 2]⟩, trioEnd 1 ⟨⟨2⟩, [0, 2]⟩,
      fun rank => .reduce [UInt8.ofNat (5 + rank)] .int8 .sum 1⟩,
    ⟨0, ⟨.world, [0, 1, 2]⟩, trioEnd 0 ⟨.world, [0, 1, 2]⟩,
      fun rank => .gather [UInt8.ofNat (10 + rank)] .byte 0⟩ ]

theorem trioCalls_pass : ∀ j ∈ trioCalls, j.Passes trioFabric 0 trio := by
  have hchecks : ∀ j ∈ trioCalls, ∀ rank ∈ j.group.members,
      ((j.call rank).check (j.comm rank) (trioFabric.isAlive (j.comm rank))).toOption.isSome := by
    decide
  intro j hj
  refine ⟨rfl, ?_, ?_, fun rank hrank => ?_⟩
  · revert j
    decide
  · simp only [trioCalls, List.mem_cons, List.not_mem_nil, or_false] at hj
    rcases hj with rfl | rfl | rfl
    · exact fun _ _ => ⟨rfl, rfl, rfl, rfl⟩
    · exact fun _ _ => ⟨rfl, rfl, rfl, rfl⟩
    · exact fun _ _ => ⟨rfl, rfl, rfl, rfl⟩
  · have hsome := hchecks j hj rank hrank
    cases hcheck : (j.call rank).check (j.comm rank) (trioFabric.isAlive (j.comm rank)) with
    | ok me => exact ⟨me, rfl⟩
    | error e =>
      rw [hcheck] at hsome
      cases hsome

/-- Eleven steps of each participant of the trio, participant 2 always first. -/
def trioSchedule : List Crew.Move :=
  (List.replicate 11 [.step 2, .step 0, .step 1]).flatten

theorem serialisable_trio :
    trio.Reachable ∧ (∀ j ∈ trioCalls, j.Passes trioFabric 0 trio) ∧
      ((Agenda.crew (trioCalls.map (item 0)) trioFabric trio.size).follow
        trioSchedule).shared.notes 2 =
          [.ok (.inl (some [[0], [1], [2]])), .ok (.inr (some [12])), .ok (.inl none)] := by
  refine ⟨trio_reachable, trioCalls_pass, ?_⟩
  have hended : ((Agenda.crew (trioCalls.map (item 0)) trioFabric trio.size).follow
      trioSchedule).results[2]? = some (some ()) := by
    decide +kernel
  obtain ⟨-, -, hserial⟩ := serialisable trio_reachable trioCalls_pass trioSchedule
  have hanswers : ((trioCalls.filter fun j => 2 ∈ j.group.members).map fun j => j.answer 2) =
      [.ok (.inl (some [[0], [1], [2]])), .ok (.inr (some [12])), .ok (.inl none)] := by
    rfl
  rw [← hanswers]
  exact (hserial 2 (by decide)).2 hended

end JointCall

end ClusterView
