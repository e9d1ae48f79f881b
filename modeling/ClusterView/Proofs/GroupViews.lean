import ClusterView.Proofs.Endurance
import ClusterView.Proofs.Portraits
import ClusterView.Proofs.Registration

/-!
# Views of a group

Whoever opens a view of a registered group gets one, on the backend of any participant of the
cluster and at every moment of its history, whether the participant is a member or not. The view
describes the group faithfully, and goes on doing so whatever happens later: groups are
registered, runtimes are stopped and started again, and views come and go, but nothing changes a
resource set that was made.

## Sections
- §1: Finding a group at every moment
- §2: Opening a view of a group
- §3: Views over whole runs
-/

namespace ClusterView

/-! ## §1 Finding a group at every moment -/

section Moments

variable {b : BackendId} {rank number first : Nat} {f : Fabric} {n : Node} {c : Cluster}
  {handle : CommHandle} {place : Nat} {g : Group}

/-- **Finding a group** through a node that runs: the communicator belongs to the node's
participant, be it a member or not. -/
theorem Living.communicator_of_group (h : Living b rank number first f n) {l : Life}
    (hrunning : n.running = some l) (hcluster : f.clusters[number]? = some c)
    (hnull : handle ≠ .null) (hgroup : c.group handle = .ok (place, g)) :
    ∃ x, Fabric.communicator b handle f = (.ok (.ofGroup x), f) ∧ x.group = g ∧
      x.config = c.config ∧ x.worldRank = rank := by
  by_cases hworld : handle = .world
  · -- the world is not looked up, a life has its communicator from the start
    subst hworld
    have hissued := h.comm l hrunning
    obtain ⟨c', hc', hconfig, hmember⟩ := hissued.registered
    obtain ⟨c'', hc'', hrooted⟩ := h.rooted
    cases hc'.symm.trans hcluster
    cases hc''.symm.trans hcluster
    have hfound := hrooted.group_world.symm.trans hgroup
    rw [h.world l hrunning, show c.groups[0]? = _ from hrooted] at hmember
    cases hfound
    refine ⟨l.comm, ?_, (Option.some.inj hmember).symm, hconfig.symm, hissued.isEnd.owner⟩
    simp only [Fabric.communicator, show f.backends[b]? = some (.node n) from h.node,
      Fabric.nodeCommunicator, hrunning]
    rfl
  · have hcluster : f.clusters[n.cluster]? = some c := by rw [h.home.2, hcluster]
    refine ⟨_, h.node.communicator_of_group hrunning hcluster hnull hworld hgroup, rfl, rfl, ?_⟩
    exact h.home.1

/-! ## §2 Opening a view of a group -/

/-- **Opening a view** of a group: it always succeeds, and leads to a state that spans the
group. -/
theorem Living.openGroup (h : Living b rank number first f n)
    (hcluster : f.clusters[number]? = some c) (hc : c.Reachable)
    (hgroup : c.group handle = .ok (place, g)) (args : List String) :
    ∃ state x, (ViewState.construct Fabric.engine b args handle f).1 = .ok state ∧
      state.Spans x ∧ x.group = g ∧ x.config = c.config ∧ x.worldRank = rank ∧
      (state.progress, state.debug) = Logger.rootOnly x.rank? := by
  have hnull : handle ≠ .null := by
    rw [← Cluster.handle_of_group hgroup]
    exact hc.handle_ne_null (List.mem_of_getElem? (Cluster.getElem?_of_group hgroup))
  obtain ⟨l, f₁, n₁, hstart, h₁, -, hrunning, -⟩ := h.start args
  have hclusters := (Fabric.still_start b args f).clusters
  rw [hstart] at hclusters
  -- it is said that the view is attached before the group is looked for
  have h₂ := ((Living.steady b rank number first f₁ n₁).report
    (.viewAttached l.id (!f.isRunning b) handle) f₁ ⟨h₁, .refl f₁⟩).1
  obtain ⟨x, hfound, hx, hconfig, howner⟩ := h₂.communicator_of_group hrunning
    (show f₁.clusters[number]? = some c by rw [hclusters, hcluster]) hnull hgroup
  obtain ⟨state, hstate, hspans, hdefault⟩ := ViewState.construct_ofGroup hstart hfound
  exact ⟨state, x, hstate, hspans, hx, hconfig, howner, hdefault⟩

end Moments

/-! ## §3 Views over whole runs -/

/-- **Ordinary** operations: what happens meanwhile is a call on some backend or a
registration. -/
def ViewOp.Ordinary (op : ViewOp Fabric Comm) : Prop :=
  ∀ change, op = .meanwhile change → ∃ deed : Deed, change = deed.after

/-- A state that relogging leads to spans the same group. -/
theorem ViewState.Relogged.spans {op : ViewOp Fabric Comm} {views : Slots View} {n : Nat}
    {state state' : ViewState Comm} {x : GroupComm} (h : state.Relogged op views n state')
    (hspans : state.Spans x) : state'.Spans x :=
  ⟨h.members.1.trans hspans.comm, h.members.2.trans hspans.sets⟩

/-- By default the first member of a group writes, and nobody else. -/
theorem GroupComm.rootOnly_rank? (x : GroupComm) (hdistinct : x.group.members.Nodup)
    {writer : Nat} (hwriter : x.group.members.head? = some writer) :
    Logger.rootOnly x.rank? = (if x.worldRank = writer then .stdout else .null,
      if x.worldRank = writer then .stderr else .null) := by
  have hroot : x.rank? = some 0 ↔ x.worldRank = writer := by
    rw [rank?, Group.rankOf?_eq_some_iff hdistinct, ← List.head?_eq_getElem?, hwriter,
      Option.some.injEq, eq_comm]
  rw [Logger.rootOnly]
  by_cases hwrites : x.worldRank = writer <;> simp [hroot, hwrites]

namespace Ledger

section Runs

variable {L : Ledger Fabric Comm} {ops : List (ViewOp Fabric Comm)} {n : Nat}
  {state : ViewState Comm} {x : GroupComm}

/-- What calls and registrations keep, ordinary operations keep. -/
theorem run_ordinary {P : Fabric → Prop} (hP : Fabric.engine.Lasting P)
    (hdeed : ∀ (deed : Deed) f, P f → P (deed.after f)) (h : P L.desk.engine.state)
    (hops : ∀ op ∈ ops, op.Ordinary) : P (L.run Fabric.engine ops).desk.engine.state := by
  refine run_keeps hP h fun change hmem f hf => ?_
  obtain ⟨deed, rfl⟩ := hops _ hmem change rfl
  exact hdeed deed f hf

/-- **A state that spans a group** is there with all that it says, as long as some slot holds a
view of it. -/
theorem run_spans (hL : L.Sound .null) (hn : n < L.desk.nextState)
    (hlookup : ∀ found, L.desk.states.lookup n = some found → found = state)
    (hspans : state.Spans x) {slot : Slot}
    (hslot : (L.run Fabric.engine ops).desk.views.find? slot = some (.alias n)) :
    ∃ state', (L.run Fabric.engine ops).desk.behind (.alias n) = some state' ∧ state'.Spans x ∧
      ∀ rank, (state.progress, state.debug) = Logger.rootOnly rank →
        L.Spares Fabric.engine (.alias n) ops →
        (state'.progress, state'.debug) = Logger.rootOnly rank := by
  have hsome := (hL.run Fabric.engine ops).kept.behind slot n hslot
  obtain ⟨state', hstate'⟩ := Option.isSome_iff_exists.mp hsome
  refine ⟨state', Desk.behind_of_lookup hstate', ?_, fun rank hdefault hspared => ?_⟩
  · refine run_state hn (fun found hfound => ?_) (fun _ _ _ _ _ _ h => h.spans) state' hstate'
    rw [hlookup found hfound]
    exact hspans
  · refine run_state (P := fun found => (found.progress, found.debug) = Logger.rootOnly rank) hn
      (fun found hfound => ?_) (fun done op rest hops _ _ h => ?_) state' hstate'
    · rw [hlookup found hfound]
      exact hdefault
    · exact h.defaults fun slot channel l hop => hspared done slot channel l rest (hop ▸ hops)

end Runs

/-- **A lasting portrait**: whatever happens from now on, as long as some variable holds the view
it gives a portrait of the group as the participant sees it. Until another logger is installed in
it, the writer's view writes to the standard streams, and everybody else's writes nowhere. -/
def Portrays (L : Ledger Fabric Comm) (v : View) (config : Config) (g : Group)
    (participant writer : Nat) : Prop :=
  ∀ (ops : List (ViewOp Fabric Comm)) (slot : Slot),
    let d := (L.run Fabric.engine ops).desk
    d.views.find? slot = some v →
      Portrait (d.behind v) config g participant ∧
        (L.Spares Fabric.engine v ops →
          d.viewLogger v .progress = .ok (if participant = writer then .stdout else .null) ∧
            d.viewLogger v .debug = .ok (if participant = writer then .stderr else .null))

/-- **A view describes its group**, faithfully and for ever. At every moment of a cluster's
history, its groups are found by their handles, with members in ascending order of which the
first is the writer. Whoever opens a view of a group gets one, on the backend of any participant,
and the view is a lasting portrait of the group as that participant sees it. -/
theorem view_describes_group {f : Fabric} {number : Nat} {c : Cluster}
    (hcluster : f.clusters[number]? = some c) (hc : c.Reachable) (defaultBackend : BackendId)
    (before : List (ViewOp Fabric Comm)) (hbefore : ∀ op ∈ before, op.Ordinary) :
    let L := (fresh f defaultBackend).run Fabric.engine before
    ∃ c₁, L.desk.engine.state.clusters[number]? = some c₁ ∧ c.Grows c₁ ∧
      (∀ place g, c₁.groups[place]? = some g → c₁.groups.length < 2 ^ 63 →
        c₁.group g.handle = .ok (place, g)) ∧
      ∀ handle place g, c₁.group handle = .ok (place, g) →
        g.handle = handle ∧ g.members.Pairwise (· < ·) ∧
        ∃ writer, g.members.head? = some writer ∧ writer < c.size ∧
          ∀ b participant, f.HasNode b (.fresh participant number) → ∀ slot args,
            let L₁ := L.step Fabric.engine (.openView slot b args handle)
            ∃ v, (Desk.openView Fabric.engine.recorded slot b args handle L.desk).1 = .ok v ∧
              L₁.desk.views.find? slot = some v ∧
              L₁.Portrays v c.config g participant writer := by
  intro L
  have hL : L.Sound .null := (Sound.fresh f defaultBackend).run Fabric.engine before
  obtain ⟨c₁, hcluster₁, hc₁, hgrows⟩ : Fabric.Grown number c L.desk.engine.state :=
    run_ordinary (Fabric.Grown.lasting number c) (fun deed _ h => h.deed deed)
      (.now hcluster hc) hbefore
  refine ⟨c₁, hcluster₁, hgrows, fun place g hg hroom => ?_, fun handle place g hgroup => ?_⟩
  · exact (hc₁.numbered hroom).group hroom hg
  · have hg : g ∈ c₁.groups := List.mem_of_getElem? (Cluster.getElem?_of_group hgroup)
    have hascending := hc₁.ascending hg
    obtain ⟨writer, rest, hmembers⟩ :=
      List.exists_cons_of_ne_nil (hc₁.wellFormed.inhabited g hg)
    refine ⟨Cluster.handle_of_group hgroup, hascending, writer, by rw [hmembers]; rfl, ?_, ?_⟩
    · rw [Cluster.size, ← hgrows.config]
      exact hc₁.wellFormed.inside g hg writer (hmembers ▸ List.mem_cons_self)
    · intro b participant hnode slot args L₁
      obtain ⟨n, hliving, -⟩ : Followed b participant number f.drawn f (.fresh participant number)
          L.desk.engine.state :=
        run_ordinary (Followed.lasting ..) (fun deed _ h => h.deed deed)
          (Living.fresh hnode hcluster hc).followed hbefore
      obtain ⟨state, x, hstate, hspans, rfl, hconfig, rfl, hdefault⟩ :=
        hliving.openGroup hcluster₁ hc₁ hgroup args
      rw [← ViewState.construct_recorded_answer] at hstate
      obtain ⟨hanswer, hslot, hnext, hlookup⟩ :=
        Desk.openView_opened (Prod.ext hstate rfl) slot
      refine ⟨.alias L.desk.nextState, hanswer, hslot, ?_⟩
      intro ops slot' d hheld
      obtain ⟨state', hbehind, hspans', hlater⟩ :=
        run_spans (hL.step Fabric.engine _).1 hnext hlookup hspans hheld
      have hdistinct := hascending.imp Nat.ne_of_lt
      have hwriter : x.group.members.head? = some writer := by
        rw [hmembers]
        rfl
      constructor
      · rw [hbehind, ← hgrows.config, ← hconfig]
        exact hspans'.portrait hdistinct
      · intro hspared
        obtain ⟨hprogress, hdebug⟩ :=
          Prod.mk.inj ((hlater _ hdefault hspared).trans (x.rootOnly_rank? hdistinct hwriter))
        rw [← hprogress, ← hdebug]
        exact ⟨Desk.viewLogger_of_behind hbehind .progress,
          Desk.viewLogger_of_behind hbehind .debug⟩

/-- The trio before anybody has started. -/
def idleTrio : Fabric := (Fabric.addCluster JointCall.trio (Fabric.empty Fabric.counting)).2

/-- A participant of the trio is stopped and started again. -/
def restartOf (b : BackendId) : List (ViewOp Fabric Comm) :=
  [.meanwhile (Deed.call b .stop).after, .meanwhile (Deed.call b (.start [])).after]

theorem restartOf_ordinary (b : BackendId) : ∀ op ∈ restartOf b, op.Ordinary := by
  simp only [restartOf, List.forall_mem_cons, List.not_mem_nil, false_implies, implies_true,
    and_true]
  exact ⟨fun _ hop => ⟨.call b .stop, (ViewOp.meanwhile.inj hop).symm⟩,
    fun _ hop => ⟨.call b (.start []), (ViewOp.meanwhile.inj hop).symm⟩⟩

/-- Participant 1 of the trio looks at the group of the two others. It is not a member, and
still sees their memory after a restart. -/
theorem view_describes_group_outside :
    idleTrio.clusters[0]? = some JointCall.trio ∧ JointCall.trio.Reachable ∧
      idleTrio.HasNode 1 (.fresh 1 0) ∧ (∀ op ∈ restartOf 1, op.Ordinary) ∧
      let L := (fresh idleTrio 0).run Fabric.engine (restartOf 1)
      ∃ v, (Desk.openView Fabric.engine.recorded ⟨1, "view"⟩ 1 [] ⟨2⟩ L.desk).1 = .ok v ∧
        let L₁ := L.step Fabric.engine (.openView ⟨1, "view"⟩ 1 [] ⟨2⟩)
        let s := (L₁.run Fabric.engine (restartOf 1)).desk.behind v
        ViewState.size s = 2 ∧ ViewState.hasMe s = .ok false ∧
          ViewState.mySet s = .error .notAMember ∧
          ∃ set, ViewState.at? s 1 = .ok set ∧
            set.ram.capacity = JointCall.trio.config.memoryOf 2 := by
  have hcluster : idleTrio.clusters[0]? = some JointCall.trio := rfl
  have hnode : idleTrio.HasNode 1 (.fresh 1 0) := rfl
  obtain ⟨c₁, hcluster₁, -, -, hviews⟩ :=
    view_describes_group hcluster JointCall.trio_reachable 0 (restartOf 1) (restartOf_ordinary 1)
  cases hcluster₁.symm.trans (show _ = some JointCall.trio from rfl)
  obtain ⟨-, -, writer, -, -, hopen⟩ := hviews ⟨2⟩ 1 ⟨⟨2⟩, [0, 2]⟩ rfl
  obtain ⟨v, hanswer, hslot, hlater⟩ := hopen 1 1 hnode ⟨1, "view"⟩ []
  obtain ⟨hportrait, -⟩ := hlater (restartOf 1) ⟨1, "view"⟩ hslot
  refine ⟨hcluster, JointCall.trio_reachable, hnode, restartOf_ordinary 1, v, hanswer,
    hportrait.size, hportrait.hasMe, hportrait.notAMember (by decide), ?_⟩
  obtain ⟨set, hset, -, hcapacity, -⟩ := hportrait.inside 1 2 rfl
  exact ⟨set, hset, hcapacity⟩

end Ledger

end ClusterView
