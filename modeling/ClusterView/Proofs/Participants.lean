import ClusterView.Demo
import ClusterView.Proofs.Portraits
import ClusterView.Proofs.Starters

/-!
# Participants of the demo

Each participant of the demo opens a view on a backend of its own, writes a few lines
through the view, and drops it again. What the desk holds of a participant is determined by
its standing, and no participant touches what the desk holds of another: every action
keeps everybody in place (`Scene.InPlace`), with a new standing of whoever acts.

## Sections
- §1: Scenes and standings
- §2: What the desk holds of a participant
- §3: Opening a view
- §4: Progress
- §5: Dropping the view
-/

namespace ClusterView

/-! ## §1 Scenes and standings -/

/-- **Scene** of the demo: a cluster and its nodes, on a desk that has written something
already. -/
structure Scene where
  config : Config
  args : List String
  /-- The cluster's number. -/
  cluster : Nat
  /-- The backend of rank zero; those of the others follow. -/
  base : Nat
  /-- The output before. -/
  before : Output

/-- **Standing** of a participant: before it opens its view, with a view, or after it has
dropped it; and what it has said. -/
inductive Standing where
  | waiting
  | engaged (state : Nat) (said : String)
  | finished (said : String)
deriving DecidableEq, Repr

/-- What a participant has written to the standard output stream. -/
def Standing.said : Standing → String
  | .waiting => ""
  | .engaged _ said | .finished said => said

namespace Scene

variable (S : Scene)

def size : Nat := S.config.size

/-- The variable that a participant keeps its view in. -/
def slot (rank : Nat) : Slot := ⟨rank, "view"⟩

/-- A participant's communicator over the whole cluster. -/
def comm (rank : Nat) : GroupComm :=
  ⟨S.cluster, S.config, 0, Cluster.worldGroup S.config, rank, S.base + rank, 0⟩

/-- Everybody's memory, in rank order. -/
def memory : List UInt64 := (List.range S.size).map S.config.memoryOf

/-- The state is that of a participant's view. -/
structure Describes (rank : Nat) (state : ViewState Comm) : Prop where
  started : state.started = true
  backend : state.backend = S.base + rank
  comm : state.comm = .ofGroup (S.comm rank)
  sets : state.sets =
    ViewState.describeMembers (.ofGroup (S.comm rank)) (some rank) S.memory
  progress : state.progress = (Logger.rootOnly (some rank)).1
  debug : state.debug = (Logger.rootOnly (some rank)).2

/-! ## §2 What the desk holds of a participant -/

/-- The state of a participant's node. -/
def IsNode (rank : Nat) (n : Node) : Standing → Prop
  | .waiting => n = Node.fresh rank S.cluster
  | .engaged _ _ => ∃ life, life.number = 0 ∧ n = (Node.fresh rank S.cluster).begin life S.args
  | .finished _ => ∃ life, n = ((Node.fresh rank S.cluster).begin life S.args).finish life

/-- The participant's variable, and the state that no other variable leads to. -/
def IsView (d : Workplace) (rank : Nat) : Standing → Prop
  | .waiting | .finished _ => d.views.find? (slot rank) = none
  | .engaged k _ =>
      (∀ other, d.views.find? other = some (.alias k) ↔ other = slot rank) ∧
        ∃ state, d.states.lookup k = some state ∧ S.Describes rank state

/-- **Everybody in place**: the cluster is there, the output is what rank zero has said, and
the desk holds of each participant what its standing says. -/
structure InPlace (d : Workplace) (π : Nat → Standing) : Prop where
  kept : d.Kept .null
  cluster : d.engine.clusters[S.cluster]? = some (.ofConfig S.config)
  output : d.output = { S.before with stdout := S.before.stdout ++ (π 0).said }
  node : ∀ rank < S.size, ∃ n, S.IsNode rank n (π rank) ∧ d.engine.HasNode (S.base + rank) n
  view : ∀ rank < S.size, S.IsView d rank (π rank)

variable {S} {d d' : Workplace} {π : Nat → Standing} {rank other : Nat} {standing : Standing}

theorem IsView.congr (h : S.IsView d rank standing)
    (hslot : d'.views.find? (slot rank) = d.views.find? (slot rank))
    (hheld : ∀ k said, standing = .engaged k said → ∀ place,
      d'.views.find? place = some (.alias k) ↔ d.views.find? place = some (.alias k))
    (hstate : ∀ k said, standing = .engaged k said → d'.states.lookup k = d.states.lookup k) :
    S.IsView d' rank standing := by
  cases standing with
  | waiting | finished said => exact hslot.trans h
  | engaged k said =>
    obtain ⟨honly, state, hlookup, hdescribes⟩ := h
    refine ⟨fun place => ?_, state, ?_, hdescribes⟩
    · rw [hheld k said rfl, honly]
    · rw [hstate k said rfl, hlookup]

/-- The variable of one participant does not lead to the state of another. -/
theorem InPlace.find?_ne (h : S.InPlace d π) (hother : other ≠ rank) (hsize : other < S.size)
    {k : Nat} {said : String} (hstanding : π other = .engaged k said) :
    d.views.find? (slot rank) ≠ some (.alias k) := by
  have hview := h.view other hsize
  rw [hstanding] at hview
  exact mt (hview.1 (slot rank)).mp fun hsame => hother (congrArg Slot.rank hsame).symm

/-- **Frame**: an action of one participant has to account for the others only if it touches
their nodes, variables or states. -/
theorem InPlace.of_change (h : S.InPlace d π) (hkept : d'.Kept .null)
    (hcluster : d'.engine.clusters = d.engine.clusters)
    (houtput : d'.output = { S.before with
      stdout := S.before.stdout ++ (Function.update π rank standing 0).said })
    (hnode : ∃ n, S.IsNode rank n standing ∧ d'.engine.HasNode (S.base + rank) n)
    (hview : S.IsView d' rank standing)
    (hnodes : ∀ b, b ≠ S.base + rank → d'.engine.backends[b]? = d.engine.backends[b]?)
    (hslots : ∀ place, place ≠ slot rank → d'.views.find? place = d.views.find? place)
    (hstates : ∀ k other said, other ≠ rank → other < S.size → π other = .engaged k said →
      d'.views.find? (slot rank) ≠ some (.alias k) ∧
        d'.states.lookup k = d.states.lookup k) :
    S.InPlace d' (Function.update π rank standing) := by
  constructor
  case kept => exact hkept
  case cluster => rw [hcluster, h.cluster]
  case output => exact houtput
  case node =>
    intro other hother
    by_cases heq : other = rank
    · rw [heq, Function.update_self]
      exact hnode
    · obtain ⟨n, hn, hthere⟩ := h.node other hother
      rw [Function.update_of_ne heq]
      refine ⟨n, hn, ?_⟩
      rw [Fabric.HasNode, hnodes _ fun hsame => heq (Nat.add_left_cancel hsame)]
      exact hthere
  case view =>
    intro other hother
    by_cases heq : other = rank
    · rw [heq, Function.update_self]
      exact hview
    · have hthere := h.view other hother
      rw [Function.update_of_ne heq]
      have hapart : slot other ≠ slot rank := fun hsame => heq (congrArg Slot.rank hsame)
      refine hthere.congr (hslots _ hapart) (fun k said hstanding place => ?_)
        fun k said hstanding => (hstates k other said heq hother hstanding).2
      by_cases hplace : place = slot rank
      · -- the participant's own variable leads to none of the others' states
        rw [hplace]
        exact iff_of_false (hstates k other said heq hother hstanding).1
          (h.find?_ne heq hother hstanding)
      · rw [hslots place hplace]

/-- A report keeps everybody in place. -/
theorem InPlace.report (h : S.InPlace d π) (event : Event) :
    S.InPlace { d with engine := Fabric.engine.report event d.engine } π :=
  ⟨⟨h.kept.slots, h.kept.numbers, h.kept.numbered, h.kept.behind, h.kept.held⟩, h.cluster,
    h.output, h.node, h.view⟩

/-- The state behind a participant's view. -/
theorem InPlace.behind (h : S.InPlace d π) (hrank : rank < S.size) {k : Nat} {said : String}
    (hstanding : π rank = .engaged k said) :
    ∃ state, d.states.lookup k = some state ∧ d.behind (.alias k) = some state ∧
      S.Describes rank state := by
  have hview := h.view rank hrank
  rw [hstanding] at hview
  obtain ⟨-, state, hstate, hdescribes⟩ := hview
  exact ⟨state, hstate, Desk.behind_of_lookup hstate, hdescribes⟩

/-- Where a participant has said nothing new, the output is the same. -/
theorem InPlace.output_silent (h : S.InPlace d π) (hsaid : standing.said = (π rank).said) :
    d.output = { S.before with
      stdout := S.before.stdout ++ (Function.update π rank standing 0).said } := by
  rw [h.output]
  by_cases hzero : 0 = rank
  · rw [hzero, Function.update_self, hsaid]
  · rw [Function.update_of_ne hzero]

/-- While a participant has its view, its communicator may be used. -/
theorem InPlace.isAlive (h : S.InPlace d π) (hrank : rank < S.size) {k : Nat} {said : String}
    (hstanding : π rank = .engaged k said) : d.engine.isAlive (S.comm rank) = true := by
  obtain ⟨n, hn, hthere⟩ := h.node rank hrank
  rw [hstanding] at hn
  obtain ⟨life, -, rfl⟩ := hn
  simp only [Fabric.isAlive, comm, show d.engine.backends[S.base + rank]? = _ from hthere]
  rfl

end Scene

/-! ## §3 Opening a view -/

namespace Desk

section

variable {σ κ : Type} {E : Engine σ κ} {d : Desk σ κ} {place : Slot} {backend : BackendId}
  {args : List String} {handle : CommHandle} {engine : σ} {state : ViewState κ}

/-- A view opened into a free variable. -/
theorem openView_free (hfree : d.views.find? place = none)
    (h : ViewState.construct E backend args handle d.engine = (.ok state, engine)) :
    openView E place backend args handle d =
      (.ok (.alias d.nextState),
        { d with
          engine
          states := (d.nextState, state) :: d.states
          nextState := d.nextState + 1
          views := d.views.set place (.alias d.nextState) }) := by
  rw [openView_ok h, hfree]
  rfl

theorem Kept.opened (h : d.Kept .null) (hfree : d.views.find? place = none) (engine : σ)
    (state : ViewState κ) :
    ({ d with
      engine
      states := (d.nextState, state) :: d.states
      nextState := d.nextState + 1
      views := d.views.set place (.alias d.nextState) } : Desk σ κ).Kept .null := by
  have hbefore : ({ d with engine } : Desk σ κ).Kept .null :=
    ⟨h.slots, h.numbers, h.numbered, h.behind, h.held⟩
  have hlookup := lookup_addState { d with engine } state d.nextState
  have hkept := (Kept.addState hbefore state).set place (v := .alias d.nextState)
    (fun n hn => by
      injection hn with hn
      rw [← hn, hlookup, if_pos rfl]
      rfl) (Or.inr rfl)
  rwa [show (Desk.addState state { d with engine }).2.views.find? place = none from hfree]
    at hkept

end

end Desk

namespace Scene

variable {S : Scene} {d : Workplace} {π : Nat → Standing} {rank : Nat}

/-- A rank of the cluster is its own rank in the world. -/
theorem rank?_comm (hrank : rank < S.size) : (S.comm rank).rank? = some rank := by
  have hslot : (Cluster.worldGroup S.config).members[rank]? = some rank :=
    List.getElem?_range hrank
  exact Group.rankOf?_eq_some List.nodup_range hslot

/-- Everybody's memory, as a participant's communicator tells it. -/
theorem memory_comm (S : Scene) (rank : Nat) : (S.comm rank).memory = S.memory := by
  have hsize : (S.comm rank).size = S.size := List.length_range
  rw [GroupComm.memory, hsize]
  refine List.map_congr_left fun r hr => ?_
  have hr : r < S.config.size := List.mem_range.mp hr
  simp [comm, Cluster.worldGroup, hr]

/-- **Survey** of the world on a node that has begun its first life. -/
theorem survey_world {f : Fabric} {life : Life} (hlife : life.comm = S.comm rank)
    (hnode : f.HasNode (S.base + rank) ((Node.fresh rank S.cluster).begin life S.args)) :
    ViewState.survey Fabric.engine (S.base + rank) .world f =
      (.ok (.ofGroup (S.comm rank), S.memory), f) := by
  have hcomm : Fabric.communicator (S.base + rank) .world f =
      (.ok (.ofGroup (S.comm rank)), f) := by
    simp only [Fabric.communicator, show f.backends[S.base + rank]? = _ from hnode]
    rw [← hlife]
    rfl
  rw [ViewState.survey_ofGroup hcomm, memory_comm]

/-- **Construction** on a node that has never run: it begins the node's first life, and
describes everybody. -/
theorem InPlace.construct (h : S.InPlace d π) (hrank : rank < S.size)
    (hstanding : π rank = .waiting) :
    ∃ state f, ViewState.construct Fabric.engine (S.base + rank) S.args .world d.engine =
        (.ok state, f) ∧ S.Describes rank state ∧ f.clusters = d.engine.clusters ∧
      ∃ life, life.number = 0 ∧ f.backends = d.engine.backends.set (S.base + rank)
        (.node ((Node.fresh rank S.cluster).begin life S.args)) := by
  obtain ⟨n, hn, hthere⟩ := h.node rank hrank
  rw [hstanding] at hn
  have hn : n = Node.fresh rank S.cluster := hn
  subst hn
  have hgroup : (Cluster.ofConfig S.config).group .world =
      .ok (0, Cluster.worldGroup S.config) := by
    rfl
  let life : Life := ⟨d.engine.nextId, 0, S.comm rank⟩
  let node := (Node.fresh rank S.cluster).begin life S.args
  let f₁ : Fabric := ({ d.engine.setBackend (S.base + rank) (.node node) with
    drawn := d.engine.drawn + 1 } : Fabric).report (.runtimeStarted rank life.id)
  have hstart : Fabric.engine.start (S.base + rank) S.args d.engine =
      (.ok ⟨life.world (S.base + rank), true⟩, f₁) := by
    have hcluster : d.engine.clusters[(Node.fresh rank S.cluster).cluster]? =
        some (.ofConfig S.config) := h.cluster
    simp only [Fabric.engine, Fabric.start, show d.engine.backends[S.base + rank]? = _ from hthere,
      Fabric.startNode, hcluster, hgroup]
    rfl
  let f₂ := Fabric.engine.report (.viewAttached life.id true .world) f₁
  have hnode : f₂.HasNode (S.base + rank) node := hthere.setBackend node
  have hme : Fabric.engine.rank (.ofGroup (S.comm rank)) = some rank := rank?_comm hrank
  refine ⟨_, _, ViewState.construct_of_survey hstart (survey_world rfl hnode), ?_, rfl, life,
    rfl, rfl⟩
  rw [hme]
  exact ⟨rfl, rfl, rfl, rfl, rfl, rfl⟩

/-- **Opening a view**: the participant gets a view of everybody, with a state of its own. -/
theorem InPlace.openView (h : S.InPlace d π) (hrank : rank < S.size)
    (hstanding : π rank = .waiting) :
    ∃ d', Desk.openView Fabric.engine (slot rank) (S.base + rank) S.args .world d =
        (.ok (.alias d.nextState), d') ∧
      S.InPlace d' (Function.update π rank (.engaged d.nextState "")) := by
  obtain ⟨state, f, hconstruct, hdescribes, hclusters, life, hlife, hbackends⟩ :=
    h.construct hrank hstanding
  have hfree : d.views.find? (slot rank) = none := by
    have hview := h.view rank hrank
    rwa [hstanding] at hview
  refine ⟨_, Desk.openView_free hfree hconstruct, ?_⟩
  -- no state so far has the new number
  have hunused : ∀ k, (d.states.lookup k).isSome → k ≠ d.nextState := fun k hk =>
    Nat.ne_of_lt (h.kept.numbered k hk)
  have hset := fun place => d.views.find?_set (slot rank) (.alias d.nextState) place
  apply h.of_change
  case hkept => exact h.kept.opened hfree f state
  case hcluster => exact hclusters
  case houtput => exact h.output_silent (hstanding ▸ rfl)
  case hnode =>
    obtain ⟨n, -, hthere⟩ := h.node rank hrank
    refine ⟨_, ⟨life, hlife, rfl⟩, ?_⟩
    show f.backends[S.base + rank]? = _
    rw [hbackends, List.getElem?_set_self (List.getElem?_eq_some_iff.mp hthere).1]
  case hview =>
    refine ⟨fun place => ?_, state, List.lookup_cons_self, hdescribes⟩
    rw [hset]
    split
    · rename_i hplace
      exact ⟨fun _ => hplace, fun _ => rfl⟩
    · rename_i hplace
      refine ⟨fun hfind => ?_, fun hsame => absurd hsame hplace⟩
      exact absurd rfl (hunused _ (h.kept.behind place _ hfind))
  case hnodes =>
    intro b hb
    show f.backends[b]? = _
    rw [hbackends, List.getElem?_set_ne (Ne.symm hb)]
  case hslots =>
    intro place hplace
    exact (hset place).trans (if_neg hplace)
  case hstates =>
    intro k other said hother hsize hthere
    have hview := h.view other hsize
    rw [hthere] at hview
    obtain ⟨-, old, hold, -⟩ := hview
    have hne := hunused k (by rw [hold]; rfl)
    have hfalse : (k == d.nextState) = false := by simpa using hne
    refine ⟨?_, by rw [List.lookup_cons, hfalse]⟩
    rw [hset, if_pos rfl]
    intro hsame
    injection hsame with hsame
    injection hsame with hsame
    exact hne hsame.symm

end Scene

/-! ## §4 Progress -/

theorem Logger.writeAll_null (text : String) (o : Output) :
    writeAll text o .null = (.ok (), .null, o) := by
  by_cases hempty : text.isEmpty
  · simp [writeAll, hempty]
  · simp [writeAll, split, write, hempty]

namespace Scene

variable {S : Scene} {d : Workplace} {π : Nat → Standing} {rank k : Nat} {said : String}

/-- **Text on the progress channel**: that of rank zero goes to the standard output stream,
and that of anybody else goes nowhere. -/
theorem InPlace.write (h : S.InPlace d π) (hrank : rank < S.size)
    (hstanding : π rank = .engaged k said) (text : String) :
    ∃ d', Desk.useViewLogger (.alias k) .progress (fun o l => l.writeAll text o) d =
        (.ok (.ok ()), d') ∧
      S.InPlace d' (Function.update π rank
        (.engaged k (if rank = 0 then said ++ text else said))) := by
  obtain ⟨state, hstate, -, hdescribes⟩ := h.behind hrank hstanding
  have haliased : d.aliased? (.alias k) = some (k, state) := by
    simp [Desk.aliased?, hstate]
  let output : Output := { S.before with stdout := S.before.stdout ++
    (Function.update π rank (.engaged k (if rank = 0 then said ++ text else said)) 0).said }
  -- the logger itself does not change
  have hwrite : state.progress.writeAll text d.output = (.ok (), state.progress, output) := by
    rw [hdescribes.progress]
    by_cases hzero : rank = 0
    · subst hzero
      simp only [Logger.rootOnly, if_true, Logger.writeAll_stdout, h.output, hstanding, output,
        Function.update_self, Standing.said, String.append_assoc]
    · have hsome : some rank ≠ some 0 := fun hsame => hzero (Option.some.inj hsame)
      simp only [Logger.rootOnly, if_neg hsome, Logger.writeAll_null, h.output, output,
        Function.update_of_ne (Ne.symm hzero)]
  have hlogger : state.logger .progress = state.progress := rfl
  have hsame : state.withLogger state.progress .progress = state := rfl
  refine ⟨({ d with output } : Workplace).setState k state, ?_, ?_⟩
  · simp only [Desk.useViewLogger, haliased, hlogger, hwrite, hsame]
  · have hlookup := fun n =>
      Desk.lookup_setState (d := { d with output }) (n := k) hstate state n
    have hstates : ∀ n, (({ d with output } : Workplace).setState k state).states.lookup n =
        d.states.lookup n := by
      intro n
      rw [hlookup]
      split
      · rename_i hn
        rw [hn, hstate]
      · rfl
    have hkept : ({ d with output } : Workplace).Kept .null :=
      ⟨h.kept.slots, h.kept.numbers, h.kept.numbered, h.kept.behind, h.kept.held⟩
    apply h.of_change
    case hkept => exact Desk.Kept.setState hkept hstate state
    case hcluster => rfl
    case houtput => rfl
    case hnode =>
      have hnode := h.node rank hrank
      rwa [hstanding] at hnode
    case hview =>
      have hview := h.view rank hrank
      rw [hstanding] at hview
      have hview : S.IsView d rank (.engaged k (if rank = 0 then said ++ text else said)) := hview
      exact hview.congr rfl (fun _ _ _ _ => Iff.rfl) fun n _ _ => hstates n
    case hnodes => exact fun _ _ => rfl
    case hslots => exact fun _ _ => rfl
    case hstates =>
      intro j other said' hother hsize hthere
      exact ⟨h.find?_ne hother hsize hthere, hstates j⟩

end Scene

/-! ## §5 Dropping the view -/

/-- Default loggers have nothing to flush. -/
theorem Logger.flush_rootOnly (rank : Option Nat) (o : Output) :
    (rootOnly rank).1.flush o = (.ok (), (rootOnly rank).1, o) ∧
      (rootOnly rank).2.flush o = (.ok (), (rootOnly rank).2, o) := by
  unfold rootOnly
  split
  · exact ⟨rfl, rfl⟩
  · exact ⟨rfl, rfl⟩

/-- The end of a state with default loggers stops its backend, if its construction has
started it. -/
theorem ViewState.teardown_rootOnly {σ κ : Type} {E : Engine σ κ} {state : ViewState κ}
    {rank : Option Nat} (hprogress : state.progress = (Logger.rootOnly rank).1)
    (hdebug : state.debug = (Logger.rootOnly rank).2) (s : σ) (o : Output) :
    (state.teardown E (s, o)).2 =
      ((release E state.started state.world state.backend s).2, o) := by
  have hflush := Logger.flush_rootOnly rank o
  rw [← hprogress, ← hdebug] at hflush
  have hfirst : flushLogger E state.progress (s, o) = ((), s, o) := by
    simp only [flushLogger, hflush.1]
  have hsecond : flushLogger E state.debug (s, o) = ((), s, o) := by
    simp only [flushLogger, hflush.2]
  simp only [teardown, bind, StateT.bind, hfirst, hsecond, modify_apply]

/-- **The drop of a state's only view** ends the state. -/
theorem Desk.dropView_last {σ κ : Type} {E : Engine σ κ} {d : Desk σ κ} {place : Slot} {k : Nat}
    {state : ViewState κ} (h : d.Kept .null)
    (honly : ∀ other, d.views.find? other = some (.alias k) ↔ other = place)
    (hstate : d.states.lookup k = some state) {engine : σ} {output : Output}
    (hteardown : (state.teardown E (d.engine, d.output)).2 = (engine, output)) :
    ∃ d', dropView E place d = (true, d') ∧ d'.Kept .null ∧
      d' = { d with
        engine
        output
        states := d.states.filter fun e => e.1 != k
        views := d.views.erase place } := by
  have hfind : d.views.find? place = some (.alias k) := (honly _).mpr rfl
  have hlast : ({ d with views := d.views.erase place } : Desk σ κ).aliases k = 0 := by
    rw [Desk.aliases_eq_zero_iff (h.slots.erase _)]
    intro other hother
    have hother : (d.views.erase place).find? other = _ := hother
    rw [Slots.find?_erase] at hother
    split at hother
    · cases hother
    · rename_i hne
      exact hne ((honly other).mp hother)
  have hkept := h.erase place
  rw [hfind] at hkept
  refine ⟨_, ?_, hkept.letGo E, ?_⟩
  · simp only [dropView, hfind]
    rfl
  · have hletGo := letGo_last E hlast hstate
    rw [hteardown] at hletGo
    exact hletGo

namespace Scene

variable {S : Scene} {d : Workplace} {π : Nat → Standing} {rank k : Nat} {said : String}

/-- **Teardown** of a participant's state finishes the life that its construction has
begun. -/
theorem InPlace.teardown (h : S.InPlace d π) (hrank : rank < S.size)
    (hstanding : π rank = .engaged k said) {state : ViewState Comm}
    (hdescribes : S.Describes rank state) :
    ∃ f, (state.teardown Fabric.engine (d.engine, d.output)).2 = (f, d.output) ∧
      f.clusters = d.engine.clusters ∧
      ∃ life, f.backends = d.engine.backends.set (S.base + rank)
        (.node (((Node.fresh rank S.cluster).begin life S.args).finish life)) := by
  obtain ⟨n, hn, hthere⟩ := h.node rank hrank
  rw [hstanding] at hn
  obtain ⟨life, -, rfl⟩ := hn
  have hstop : Fabric.engine.stop (S.base + rank) d.engine =
      (.ok (), (d.engine.setBackend (S.base + rank)
        (.node (((Node.fresh rank S.cluster).begin life S.args).finish life))).report
          (.runtimeStopped rank life.id)) := by
    simp only [Fabric.engine, Fabric.stop, show d.engine.backends[S.base + rank]? = _ from hthere]
    rfl
  rw [ViewState.teardown_rootOnly hdescribes.progress hdescribes.debug, hdescribes.started,
    hdescribes.backend]
  simp only [ViewState.release, if_true, bind, StateT.bind, hstop]
  exact ⟨_, rfl, rfl, life, rfl⟩

/-- **Dropping the view**: the state ends with its only view, and stops the node that it has
started. -/
theorem InPlace.dropView (h : S.InPlace d π) (hrank : rank < S.size)
    (hstanding : π rank = .engaged k said) :
    ∃ d', Desk.dropView Fabric.engine (slot rank) d = (true, d') ∧
      S.InPlace d' (Function.update π rank (.finished said)) := by
  obtain ⟨state, hstate, -, hdescribes⟩ := h.behind hrank hstanding
  have hview := h.view rank hrank
  rw [hstanding] at hview
  obtain ⟨honly, -⟩ := hview
  obtain ⟨f, hteardown, hclusters, life, hbackends⟩ := h.teardown hrank hstanding hdescribes
  obtain ⟨d', hdrop, hkept, rfl⟩ := Desk.dropView_last h.kept honly hstate hteardown
  refine ⟨_, hdrop, ?_⟩
  have herase := fun place => d.views.find?_erase (slot rank) place
  apply h.of_change
  case hkept => exact hkept
  case hcluster => exact hclusters
  case houtput => exact h.output_silent (hstanding ▸ rfl)
  case hnode =>
    obtain ⟨n, -, hthere⟩ := h.node rank hrank
    refine ⟨_, ⟨life, rfl⟩, ?_⟩
    show f.backends[S.base + rank]? = _
    rw [hbackends, List.getElem?_set_self (List.getElem?_eq_some_iff.mp hthere).1]
  case hview => exact (herase (slot rank)).trans (if_pos rfl)
  case hnodes =>
    intro b hb
    show f.backends[b]? = _
    rw [hbackends, List.getElem?_set_ne (Ne.symm hb)]
  case hslots =>
    intro place hplace
    exact (herase place).trans (if_neg hplace)
  case hstates =>
    intro j other said' hother hsize hthere
    have hj : j ≠ k := by
      rintro rfl
      exact h.find?_ne hother hsize hthere ((honly _).mpr rfl)
    refine ⟨?_, lookup_filter_ne hj d.states⟩
    show (d.views.erase (slot rank)).find? (slot rank) ≠ _
    rw [herase, if_pos rfl]
    intro hnone
    cases hnone

end Scene

end ClusterView
