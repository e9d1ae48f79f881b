import ClusterView.Proofs.GroupViews
import ClusterView.Proofs.Sameness

/-!
# Views of one instance

A view is built on the instance of a runtime that its construction found or brought up. On the
backends of a cluster's participants, two views are equal exactly if they were built on the same
instance of the same backend with the same handle. That the instances differ is told by the
identifiers of their worlds; that the resource sets agree follows from the handle, because
nothing changes a group once it is registered.

An instance is named without any regard to identifiers: by its backend and by how often that
had been started.

## Sections
- §1: Instances
- §2: Two nodes side by side
- §3: What a construction makes
- §4: Constructions in a run
- §5: Equality of views
-/

namespace ClusterView

/-! ## §1 Instances -/

/-- **The instance that runs** on a backend: how often it was started. -/
def Fabric.incarnation? (b : BackendId) (f : Fabric) : Option Nat :=
  if f.isRunning b then some (f.counters b).1 else none

/-- **Idle participant**: the backend is a node of some cluster, and was never started. -/
def Fabric.HasParticipant (b : BackendId) (rank number : Nat) (f : Fabric) : Prop :=
  f.HasNode b (.fresh rank number) ∧ ∃ c, f.clusters[number]? = some c ∧ c.Reachable

/-- **Counted**: the lives of a node are as many as its starts. -/
def Counted (b : BackendId) (f : Fabric) : Prop :=
  ∃ n, f.HasNode b n ∧ n.starts = n.alive.length

section Instances

variable {b c : BackendId} {rank number first : Nat} {f f' : Fabric} {n : Node} {l : Life}

theorem Fabric.HasNode.addGroup (h : f.HasNode b n) (number : Nat) (members : List Nat) :
    (Fabric.addGroup number members f).2.HasNode b n := by
  rw [HasNode, (grows_addGroup number members f).2]
  exact h

theorem Counted.kept (h : Counted b f) (hnode : ∀ n, f.HasNode b n → f'.HasNode b n) :
    Counted b f' := by
  obtain ⟨n, hn, hstarts⟩ := h
  exact ⟨n, hnode n hn, hstarts⟩

/-- A start that begins a life counts for both. -/
theorem Counted.start (h : Counted b f) (c : BackendId) (args : List String) :
    Counted b (Fabric.start c args f).2 := by
  by_cases hc : c = b
  · subst hc
    obtain ⟨n, hn, hstarts⟩ := h
    cases hrunning : n.running with
    | some l =>
      rw [hn.start_running hrunning]
      exact ⟨n, hn, hstarts⟩
    | none =>
      rcases hn.start_idle hrunning args with ⟨e, he⟩ | ⟨l, f', hstart, hn'⟩
      · rw [he]
        exact ⟨n, hn, hstarts⟩
      · rw [hstart]
        exact ⟨_, hn', by simp [Node.begin, hstarts]⟩
  · exact h.kept fun n hn => (Fabric.start_of_ne hc).trans hn

theorem Counted.stop (h : Counted b f) (c : BackendId) : Counted b (Fabric.stop c f).2 := by
  by_cases hc : c = b
  · subst hc
    obtain ⟨n, hn, hstarts⟩ := h
    refine ⟨n.halted, hn.stop_node, ?_⟩
    unfold Node.halted
    cases n.running with
    | none => exact hstarts
    | some l => simp [Node.finish, hstarts]
  · exact h.kept fun n hn => (Fabric.stop_of_ne hc).trans hn

theorem Counted.lasting (b : BackendId) : Fabric.engine.Lasting (Counted b) where
  report _ _ h := h.kept fun _ hn => hn
  communicator c handle _ h := h.kept fun _ hn => hn.communicator c handle
  memoryOf comm rank _ h := h.kept fun _ hn => hn.memoryOf comm rank
  start c args _ h := h.start c args
  stop c _ h := h.stop c

theorem Counted.deed (h : Counted b f) (deed : Deed) : Counted b (deed.after f) := by
  cases deed with
  | call c call => exact call.keeps (Counted.lasting b) c h
  | register number members => exact h.kept fun n hn => hn.addGroup number members

/-- The instance that runs is the life that goes on. -/
theorem Living.incarnation?_eq (h : Living b rank number first f n) (hcounted : Counted b f)
    (hrunning : n.running = some l) : f.incarnation? b = some (l.number + 1) := by
  obtain ⟨n', hn', hstarts⟩ := hcounted
  have hn := h.node
  cases hn.symm.trans hn'
  have hcounter : (f.counters b).1 = n.starts := by
    rw [Fabric.counters, show f.backends[b]? = some (.node n) from hn]
  rw [Fabric.incarnation?, hn.isRunning_eq, hrunning, Option.isSome_some, if_pos rfl, hcounter,
    hstarts, h.number l hrunning]

/-! ## §2 Two nodes side by side -/

/-- **Apart**: the lives that go on at two nodes have drawn their identifiers at different
times. -/
def Apart (first : Nat) (f : Fabric) (n m : Node) : Prop :=
  ∀ l l', n.running = some l → m.running = some l' →
    ∃ i j, i ≠ j ∧ i ∈ Set.Ico first f.drawn ∧ j ∈ Set.Ico first f.drawn ∧
      l.id = f.supply i ∧ l'.id = f.supply j

variable {b' : BackendId} {rank' number' : Nat} {m n' m' : Node} {l' : Life}

theorem Apart.symm (h : Apart first f n m) : Apart first f m n := by
  intro l l' hl hl'
  obtain ⟨i, j, hne, hi, hj, hid, hid'⟩ := h l' l hl' hl
  exact ⟨j, i, hne.symm, hj, hi, hid', hid⟩

/-- Whatever becomes of one of the nodes, a life that it begins draws an identifier of its
own. -/
theorem Apart.since (h : Apart first f n m) (hm : Living b' rank' number' first f m)
    (hsince : Since f n f' n') : Apart first f' n' m := by
  have hdrawn := hsince.grows.drawn
  have hsupply := hsince.grows.supply
  intro l l' hl hl'
  rcases hsince.running l hl with hold | ⟨-, i, hfrom, hto, hid⟩
  -- the life has gone on, or else it has begun since, with an identifier drawn since
  · obtain ⟨i, j, hne, ⟨hi, hi'⟩, ⟨hj, hj'⟩, hid, hid'⟩ := h l l' hold hl'
    refine ⟨i, j, hne, ⟨hi, hi'.trans_le hdrawn⟩, ⟨hj, hj'.trans_le hdrawn⟩, ?_, ?_⟩
    · rw [hid, hsupply]
    · rw [hid', hsupply]
  · obtain ⟨j, hj, hj', hid'⟩ := hm.drawn l' hl'
    refine ⟨i, j, by omega, ⟨hm.first_le.trans hfrom, hto⟩, ⟨hj, hj'.trans_le hdrawn⟩, ?_, ?_⟩
    · rw [hid, hsupply]
    · rw [hid', hsupply]

/-- **Side by side**: two nodes are living, and apart. -/
def SideBySide (b b' : BackendId) (rank rank' number number' first : Nat) (f : Fabric) : Prop :=
  ∃ n m, Living b rank number first f n ∧ Living b' rank' number' first f m ∧ Apart first f n m

/-- **Step lemma**: whatever leaves all nodes alone but one keeps two of them apart. -/
theorem SideBySide.moved (hne : b ≠ b') (h : SideBySide b b' rank rank' number number' first f)
    (c : BackendId) (hmove : ∀ b rank number n, Living b rank number first f n →
      ∃ n', Living b rank number first f' n' ∧ Since f n f' n' ∧ (c ≠ b → n' = n)) :
    SideBySide b b' rank rank' number number' first f' := by
  obtain ⟨n, m, hn, hm, hapart⟩ := h
  obtain ⟨n', hn', hnsince, hnsame⟩ := hmove b rank number n hn
  obtain ⟨m', hm', hmsince, hmsame⟩ := hmove b' rank' number' m hm
  refine ⟨n', m', hn', hm', ?_⟩
  -- at most one of the two has moved
  by_cases hc : c = b
  · cases hmsame (hc ▸ hne)
    exact hapart.since hm hnsince
  · cases hnsame hc
    exact (hapart.symm.since hn hmsince).symm

/-- Reports, questions and registrations leave every node alone. -/
theorem SideBySide.kept (hne : b ≠ b') (h : SideBySide b b' rank rank' number number' first f)
    (hgrows : f.Grows f') (hnode : ∀ b n, f.HasNode b n → f'.HasNode b n) :
    SideBySide b b' rank rank' number number' first f' :=
  h.moved hne b fun b rank number n hn => by
    obtain ⟨hn', hsince⟩ := hn.kept (hnode b n hn.node) hgrows
    exact ⟨n, hn', hsince, fun _ => rfl⟩

theorem SideBySide.start (hne : b ≠ b') (h : SideBySide b b' rank rank' number number' first f)
    (c : BackendId) (args : List String) :
    SideBySide b b' rank rank' number number' first (Fabric.start c args f).2 :=
  h.moved hne c fun b rank number n hn => by
    by_cases hc : c = b
    · subst hc
      obtain ⟨l, f', n', hstart, hn', hsince, -⟩ := hn.start args
      rw [hstart]
      exact ⟨n', hn', hsince, fun hc => absurd rfl hc⟩
    · obtain ⟨hn', hsince⟩ := hn.kept ((Fabric.start_of_ne hc).trans hn.node)
        (Fabric.still_start c args f).grows
      exact ⟨n, hn', hsince, fun _ => rfl⟩

theorem SideBySide.stop (hne : b ≠ b') (h : SideBySide b b' rank rank' number number' first f)
    (c : BackendId) : SideBySide b b' rank rank' number number' first (Fabric.stop c f).2 :=
  h.moved hne c fun b rank number n hn => by
    by_cases hc : c = b
    · subst hc
      exact ⟨n.halted, hn.stop.1, hn.stop.2, fun hc => absurd rfl hc⟩
    · obtain ⟨hn', hsince⟩ := hn.kept ((Fabric.stop_of_ne hc).trans hn.node)
        (Fabric.still_stop c f).grows
      exact ⟨n, hn', hsince, fun _ => rfl⟩

theorem SideBySide.lasting (hne : b ≠ b') (rank rank' number number' first : Nat) :
    Fabric.engine.Lasting (SideBySide b b' rank rank' number number' first) where
  report event f h := h.kept hne (Fabric.still_report event f).grows fun _ _ hn => hn
  communicator c handle f h := h.kept hne (Fabric.still_communicator c handle f).grows
    fun _ _ hn => hn.communicator c handle
  memoryOf comm rank f h := h.kept hne (Fabric.still_memoryOf comm rank f).grows
    fun _ _ hn => hn.memoryOf comm rank
  start c args _ h := h.start hne c args
  stop c _ h := h.stop hne c

theorem SideBySide.deed (hne : b ≠ b') (h : SideBySide b b' rank rank' number number' first f)
    (deed : Deed) : SideBySide b b' rank rank' number number' first (deed.after f) := by
  cases deed with
  | call c call => exact call.keeps (SideBySide.lasting hne ..) c h
  | register number members =>
    exact h.kept hne (Fabric.grows_addGroup number members f).1 fun _ _ hn =>
      hn.addGroup number members

/-! ## §3 What a construction makes -/

/-- **Built** on a life: the world is that of the life, and the state spans the group that the
handle finds. -/
structure ViewState.BuiltOn (state : ViewState Comm) (l : Life) (c : Cluster)
    (handle : CommHandle) : Prop where
  world : state.world.id = l.id
  spans : ∃ x place, state.Spans x ∧ x.config = c.config ∧ c.group handle = .ok (place, x.group)

theorem ViewState.BuiltOn.handle {state : ViewState Comm} {c : Cluster} {handle : CommHandle}
    (h : state.BuiltOn l c handle) : Fabric.engine.handle state.comm = handle := by
  obtain ⟨x, place, hspans, -, hgroup⟩ := h.spans
  rw [hspans.comm]
  exact Cluster.handle_of_group hgroup

/-- **The resource sets follow from the handle**: while groups are registered, it finds the same
group with the same memory. -/
theorem ViewState.BuiltOn.keys_eq {state state' : ViewState Comm} {c c' : Cluster}
    {handle : CommHandle} (h : state.BuiltOn l c handle) (h' : state'.BuiltOn l' c' handle)
    (hgrows : c.Grows c') :
    state'.sets.map ResourceSet.key = state.sets.map ResourceSet.key := by
  obtain ⟨x, place, hspans, hconfig, hgroup⟩ := h.spans
  obtain ⟨x', place', hspans', hconfig', hgroup'⟩ := h'.spans
  have hsame : x'.group = x.group :=
    (Prod.mk.inj (Except.ok.inj (hgroup'.symm.trans (hgrows.group hgroup)))).2
  have hkey : ∀ slot, (x'.set slot).key = (x.set slot).key := by
    intro slot
    show (slot, x'.config.memoryOf _) = (slot, x.config.memoryOf _)
    rw [hsame, hconfig', hconfig, hgrows.config]
  rw [hspans.sets, hspans'.sets, GroupComm.size, GroupComm.size, hsame, List.map_map,
    List.map_map]
  exact List.map_congr_left fun slot _ => hkey slot

/-- A communicator that is found is that of a group. -/
theorem Living.group_of_communicator (h : Living b rank number first f n) {c : Cluster}
    {handle : CommHandle} {comm : Comm} (hcluster : f.clusters[number]? = some c)
    (hfound : (Fabric.communicator b handle f).1 = .ok comm) :
    ∃ place g, c.group handle = .ok (place, g) := by
  obtain ⟨c', hcluster', hrooted⟩ := h.rooted
  cases hcluster'.symm.trans hcluster
  by_cases hworld : handle = .world
  · subst hworld
    exact ⟨_, _, hrooted.group_world⟩
  · have hworld : handle.isWorld = false := by
      rw [CommHandle.isWorld, beq_eq_false_iff_ne]
      exact hworld
    -- any other handle is looked up in the cluster, while a life goes on
    simp only [Fabric.communicator, show f.backends[b]? = some (.node n) from h.node,
      Fabric.nodeCommunicator, bind, Except.bind, pure, Except.pure, throw, throwThe,
      MonadExceptOf.throw, hworld, h.home.2, hcluster, Bool.false_eq_true, if_false] at hfound
    split at hfound
    · cases hfound
    · cases hrunning : n.running with
      | none =>
        rw [hrunning] at hfound
        cases hfound
      | some l =>
        rw [hrunning] at hfound
        cases hgroup : c.group handle with
        | error e =>
          simp only [hgroup] at hfound
          cases hfound
        | ok found => exact ⟨found.1, found.2, rfl⟩

/-- **A construction** that succeeds has built its state on the life that goes on afterwards. -/
theorem Living.construct (h : Living b rank number first f n) {c : Cluster}
    (hcluster : f.clusters[number]? = some c) (hc : c.Reachable) {args : List String}
    {handle : CommHandle} {state : ViewState Comm}
    (hcall : ViewState.construct Fabric.engine b args handle f = (.ok state, f')) :
    ∃ n' l, Living b rank number first f' n' ∧ Since f n f' n' ∧ n'.running = some l ∧
      state.BuiltOn l c handle := by
  obtain ⟨l, f₁, n', hstarted, h₁, hsince, hrunning, -⟩ := h.start args
  obtain ⟨startup, s₁, memory, s₂, hstart, hsurvey, -, -, hworld, -⟩ :=
    ViewState.construct_eq_ok hcall
  obtain ⟨hstartup, rfl⟩ := Prod.mk.inj (hstart.symm.trans hstarted)
  cases hstartup
  obtain ⟨s₃, hfound, -⟩ := ViewState.survey_eq_ok hsurvey
  have hclusters := (Fabric.still_start b args f).clusters
  rw [hstarted] at hclusters
  -- the communicator was looked for after a report, which changes nothing that matters
  have hreported := ((Living.steady b rank number first s₁ n').report
    (.viewAttached l.id (!f.isRunning b) handle) s₁ ⟨h₁, .refl s₁⟩).1
  obtain ⟨place, g, hgroup⟩ := hreported.group_of_communicator
    (show s₁.clusters[number]? = some c by rw [hclusters, hcluster]) (congrArg Prod.fst hfound)
  obtain ⟨state', x, hstate', hspans, rfl, hconfig, -⟩ := h.openGroup hcluster hc hgroup args
  rw [hcall] at hstate'
  cases hstate'
  rcases ViewState.construct_of_start_ok hstart (Living.steady b rank number first s₁ n')
      ⟨h₁, .refl s₁⟩ with ⟨e, s₄, -, hfailed⟩ | ⟨state', s₄, ⟨h₂, hgrows⟩, hdone, -⟩
  · cases hfailed.symm.trans hcall
  · cases hdone.symm.trans hcall
    refine ⟨n', l, h₂, hsince.trans (h₁.kept h₂.node hgrows).2, hrunning, ?_, x, place, hspans,
      hconfig, hgroup⟩
    rw [hworld]
    rfl

/-- **One backend**: two lives of a node have the same identifier if they are the same life. -/
theorem Living.id_eq_iff (h : Living b rank number first f n)
    (h' : Living b rank number first f' n') (hsince : Since f n f' n')
    (hl : n.running = some l) (hl' : n'.running = some l')
    (hdistinct : Set.InjOn f.supply (Set.Ico first f'.drawn)) :
    l.id = l'.id ↔ l.number = l'.number := by
  have hgoes := h.goes_on h' hsince hl hdistinct
  have hworld := h'.node.world_eq_ok.mpr ⟨l', hl', rfl⟩
  constructor
  · intro hid
    obtain ⟨l'', hl'', hnumber⟩ := hgoes.mpr ⟨_, hworld, hid.symm⟩
    cases hl'.symm.trans hl''
    exact hnumber.symm
  · intro hnumber
    obtain ⟨w, hw, hid⟩ := hgoes.mp ⟨l', hl', hnumber.symm⟩
    cases hworld.symm.trans hw
    exact hid.symm

/-- **Two backends**: lives of two nodes never have the same identifier. -/
theorem Apart.id_ne (h : Apart first f n m) (hn : Living b rank number first f n)
    (hsince : Since f m f' m') (hl : n.running = some l) (hl' : m'.running = some l')
    (hdistinct : Set.InjOn f.supply (Set.Ico first f'.drawn)) : l.id ≠ l'.id := by
  have hdrawn := hsince.grows.drawn
  rcases hsince.running l' hl' with hold | ⟨-, j, hj, hj', hid'⟩
  · obtain ⟨i, j, hne, ⟨hi, hi'⟩, ⟨hj, hj'⟩, hid, hid'⟩ := h l l' hl hold
    rw [hid, hid']
    exact hdistinct.ne ⟨hi, hi'.trans_le hdrawn⟩ ⟨hj, hj'.trans_le hdrawn⟩ hne
  · obtain ⟨i, hi, hi', hid⟩ := hn.drawn l hl
    rw [hid, hid']
    exact hdistinct.ne ⟨hi, hi'.trans_le hdrawn⟩ ⟨hn.first_le.trans hj, hj'⟩ (by omega)

end Instances

/-- A construction that succeeds with recording does so without. -/
theorem ViewState.construct_of_recorded {σ κ : Type} {E : Engine σ κ} {backend : BackendId}
    {args : List String} {handle : CommHandle} {r r' : Recorded σ} {state : ViewState κ}
    (h : construct E.recorded backend args handle r = (.ok state, r')) :
    construct E backend args handle r.state = (.ok state, r'.state) := by
  have hplain : ∀ {α : Type} {action : StateM σ α} {r r' : Recorded σ} {answer : α},
      Engine.unrecorded action r = (answer, r') → action r.state = (answer, r'.state) := by
    rintro α action r r' answer ⟨⟩
    rfl
  obtain ⟨startup, r₁, memory, r₂, hstart, hsurvey, -⟩ := construct_eq_ok h
  have hrecorded := construct_of_survey hstart hsurvey
  rw [survey_recorded] at hsurvey
  rw [construct_of_survey (hplain hstart) (hplain hsurvey)]
  obtain ⟨hstate, rfl⟩ := Prod.mk.inj (h.symm.trans hrecorded)
  exact Prod.ext hstate.symm rfl

/-! ## §4 Constructions in a run -/

/-- **Origin** of a view: the instance of a backend that it was built on, and the handle that it
was built with. -/
structure Origin where
  backend : BackendId
  /-- The instance: how often the backend had been started. -/
  incarnation : Option Nat
  handle : CommHandle
deriving DecidableEq, Repr

namespace Ledger

section Origins

variable {L : Ledger Fabric Comm} {op : ViewOp Fabric Comm} {ops : List (ViewOp Fabric Comm)}
  {n : Nat} {o : Origin} {state : ViewState Comm} {r : Recorded Fabric}

/-- **An operation makes a state** of this origin: its construction succeeds, on the instance
that runs when it is done. -/
structure Makes (L : Ledger Fabric Comm) (op : ViewOp Fabric Comm) (o : Origin)
    (state : ViewState Comm) (r : Recorded Fabric) : Prop where
  call : ∃ args, L.request? Fabric.engine op = some (o.backend, args, o.handle) ∧
    ViewState.construct Fabric.engine.recorded o.backend args o.handle L.desk.engine =
      (.ok state, r)
  incarnation : r.state.incarnation? o.backend = o.incarnation

/-- **Built as**: somewhere in a run, an operation made the state of this number, with this
origin. -/
def BuiltAs (L : Ledger Fabric Comm) (ops : List (ViewOp Fabric Comm)) (n : Nat) (o : Origin) :
    Prop :=
  ∃ before op after state r, ops = before ++ op :: after ∧
    (L.run Fabric.engine before).desk.nextState = n ∧
    (L.run Fabric.engine before).Makes op o state r

theorem BuiltAs.cons (h : (L.step Fabric.engine op).BuiltAs ops n o) :
    L.BuiltAs (op :: ops) n o := by
  obtain ⟨before, op', after, state, r, hops, hnumber, hmakes⟩ := h
  exact ⟨op :: before, op', after, state, r, by rw [hops, List.cons_append], hnumber, hmakes⟩

/-- The view that was opened is an alias of the state that was made. -/
theorem Makes.opened (h : L.Makes op o state r) :
    L.desk.nextState < (L.step Fabric.engine op).desk.nextState ∧
      ∀ found, (L.step Fabric.engine op).desk.states.lookup L.desk.nextState = some found →
        found = state := by
  obtain ⟨args, hrequest, hcall⟩ := h.call
  obtain ⟨backend, incarnation, handle⟩ := o
  cases op with
  | openView slot backend args handle =>
    cases hrequest
    exact (Desk.openView_opened hcall slot).2.2
  | openDefault slot args handle =>
    cases hrequest
    exact (Desk.openView_opened hcall slot).2.2
  | openWorld slot world =>
    cases hrequest
    exact (Desk.openView_opened hcall slot).2.2
  | _ => cases hrequest

/-- What lasts from the construction on holds after the operation, which may let go of another
view. -/
theorem Makes.keeps (h : L.Makes op o state r) {P : Fabric → Prop}
    (hP : Fabric.engine.Lasting P) (hr : P r.state) :
    P (L.step Fabric.engine op).desk.engine.state := by
  obtain ⟨args, hrequest, hcall⟩ := h.call
  obtain ⟨d, loose, hstep, hdoes, -⟩ := step_does Fabric.engine L op
  rw [hstep]
  refine hP.recorded.letGo ?_ loose
  cases hdoes with
  | moved hengine hroles hnone => cases hnone.symm.trans hrequest
  | changed change hop hengine hroles =>
    subst hop
    cases hrequest
  | failed backend args' handle e hrequest' hcall' hroles =>
    cases hrequest.symm.trans hrequest'
    cases hcall.symm.trans hcall'
  | opened backend args' handle state' hrequest' hcall' hroles =>
    cases hrequest.symm.trans hrequest'
    cases hcall.symm.trans hcall'
    exact hr

/-- **Step lemma**: a state that is there after an operation was there before, or the operation
has made it. -/
theorem step_makes (h : ((L.step Fabric.engine op).desk.states.lookup n).isSome) :
    (L.desk.states.lookup n).isSome ∨
      L.desk.nextState = n ∧ ∃ o state r, L.Makes op o state r := by
  obtain ⟨d, loose, hstep, hdoes, -⟩ := step_does Fabric.engine L op
  rw [hstep] at h
  obtain ⟨found, hfound⟩ := Option.isSome_iff_exists.mp h
  have hrole : (d.role? n).isSome := by
    rw [Desk.role?, (Desk.letGo_states _ d loose).2.2 n found hfound]
    rfl
  have hsame : d.role? n = L.desk.role? n → (L.desk.states.lookup n).isSome := by
    intro hroles
    rwa [hroles, Desk.role?, Option.isSome_map] at hrole
  cases hdoes with
  | moved hengine hroles hnone => exact .inl (hsame (hroles n))
  | changed change hop hengine hroles => exact .inl (hsame (hroles n))
  | failed backend args handle e hrequest hcall hroles => exact .inl (hsame (hroles n))
  | opened backend args handle state hrequest hcall hroles =>
    by_cases hn : n = L.desk.nextState
    · exact .inr ⟨hn.symm, ⟨backend, d.engine.state.incarnation? backend, handle⟩, state,
        d.engine, ⟨args, hrequest, hcall⟩, rfl⟩
    · exact .inl (hsame ((hroles n).trans (if_neg hn)))

/-- **Run lemma**: every state that a run leaves behind was there before, or was made in the
run. -/
theorem run_builtAs (h : ((L.run Fabric.engine ops).desk.states.lookup n).isSome) :
    (L.desk.states.lookup n).isSome ∨ ∃ o, L.BuiltAs ops n o := by
  induction ops generalizing L with
  | nil => exact .inl h
  | cons op rest ih =>
    rcases ih h with hthere | ⟨o, hbuilt⟩
    · rcases step_makes hthere with hbefore | ⟨hn, o, state, r, hmakes⟩
      · exact .inl hbefore
      · exact .inr ⟨o, [], op, rest, state, r, rfl, hn, hmakes⟩
    · exact .inr ⟨o, hbuilt.cons⟩

/-- A run up to an operation, this operation, and the rest. -/
theorem run_split (before : List (ViewOp Fabric Comm)) (op : ViewOp Fabric Comm)
    (after : List (ViewOp Fabric Comm)) :
    L.run Fabric.engine (before ++ op :: after) =
      ((L.run Fabric.engine before).step Fabric.engine op).run Fabric.engine after :=
  List.foldl_append

/-- The identity of the state that was made stays. -/
theorem Makes.identity (h : L.Makes op o state r) :
    ∀ found, ((L.step Fabric.engine op).run Fabric.engine ops).desk.states.lookup
        L.desk.nextState = some found →
      found.identity Fabric.engine.recorded = state.identity Fabric.engine.recorded := by
  obtain ⟨hnext, hlookup⟩ := h.opened
  refine run_state hnext (fun found hfound => ?_) fun _ _ _ _ _ _ hrelogged hsame => ?_
  · rw [hlookup found hfound]
  · exact (hrelogged.identity_eq Fabric.engine).trans hsame

/-- **What lasts from the construction on** holds through the rest of a run. -/
theorem Makes.run_keeps (h : L.Makes op o state r) {P : Fabric → Prop}
    (hP : Fabric.engine.Lasting P) (hdeed : ∀ (deed : Deed) f, P f → P (deed.after f))
    (hops : ∀ op ∈ ops, op.Ordinary) (hr : P r.state) :
    P ((L.step Fabric.engine op).run Fabric.engine ops).desk.engine.state :=
  run_ordinary hP hdeed (h.keeps hP hr) hops

end Origins

section Comparison

variable {f : Fabric} {defaultBackend : BackendId} {L : Ledger Fabric Comm}
  {op op' : ViewOp Fabric Comm} {before mid ops : List (ViewOp Fabric Comm)} {o o' : Origin}
  {state state' : ViewState Comm} {r r' : Recorded Fabric} {b : BackendId}
  {rank rank' number number' first : Nat} {f' : Fabric} {n n' m : Node} {l l' : Life}
  {c c' : Cluster}

/-- **Settled**: the state was made on a life that goes on, the one that its origin names. -/
structure Settled (state : ViewState Comm) (o : Origin) (rank number first : Nat) (f : Fabric)
    (n : Node) (l : Life) (c : Cluster) : Prop where
  living : Living o.backend rank number first f n
  running : n.running = some l
  incarnation : o.incarnation = some (l.number + 1)
  built : state.BuiltOn l c o.handle
  grown : Fabric.Grown number c f

/-- A construction on a living node settles the state. -/
theorem Makes.settled (h : L.Makes op o state r)
    (hn : Living o.backend rank number first L.desk.engine.state n)
    (hcounted : Counted o.backend L.desk.engine.state)
    (hcluster : L.desk.engine.state.clusters[number]? = some c) (hc : c.Reachable) :
    ∃ n' l, Settled state o rank number first r.state n' l c ∧
      Since L.desk.engine.state n r.state n' := by
  obtain ⟨args, -, hcall⟩ := h.call
  have hcall := ViewState.construct_of_recorded hcall
  have hcounted' := (Counted.lasting o.backend).construct o.backend args o.handle hcounted
  have hgrown := (Fabric.Grown.lasting number c).construct o.backend args o.handle
    (.now hcluster hc)
  rw [hcall] at hcounted' hgrown
  obtain ⟨n', l, hn', hsince, hrunning, hbuilt⟩ := hn.construct hcluster hc hcall
  refine ⟨n', l, ⟨hn', hrunning, ?_, hbuilt, hgrown⟩, hsince⟩
  rw [← h.incarnation, hn'.incarnation?_eq hcounted' hrunning]

/-- **On one backend**, identities differ exactly if origins do. -/
theorem Settled.identity_eq_iff (h : Settled state o rank number first f n l c)
    (h' : Settled state' o' rank number first f' n' l' c') (hbackend : o.backend = o'.backend)
    (hsince : Since f n f' n') (hgrows : c.Grows c')
    (hdistinct : Set.InjOn f.supply (Set.Ico first f'.drawn)) :
    state.identity Fabric.engine.recorded = state'.identity Fabric.engine.recorded ↔
      o = o' := by
  obtain ⟨b, incarnation, handle⟩ := o
  obtain ⟨b', incarnation', handle'⟩ := o'
  cases hbackend
  have hid := h.living.id_eq_iff h'.living hsince h.running h'.running hdistinct
  have hidentity : state.identity Fabric.engine.recorded =
      (handle, l.id, state.sets.map ResourceSet.key) :=
    congrArg₂ (fun handle id => (handle, id, _)) h.built.handle h.built.world
  have hidentity' : state'.identity Fabric.engine.recorded =
      (handle', l'.id, state'.sets.map ResourceSet.key) :=
    congrArg₂ (fun handle id => (handle, id, _)) h'.built.handle h'.built.world
  have hnumber : incarnation = incarnation' ↔ l.number = l'.number := by
    rw [show incarnation = _ from h.incarnation, show incarnation' = _ from h'.incarnation]
    simp
  rw [hidentity, hidentity', Prod.mk.injEq, Prod.mk.injEq, Origin.mk.injEq, hid, hnumber]
  constructor
  · rintro ⟨hhandle, hsame, -⟩
    exact ⟨rfl, hsame, hhandle⟩
  · rintro ⟨-, hsame, rfl⟩
    exact ⟨rfl, hsame, (h.built.keys_eq h'.built hgrows).symm⟩

/-- **On two backends**, identities always differ. -/
theorem Settled.identity_ne (h : Settled state o rank number first f n l c)
    (h' : Settled state' o' rank' number' first f' n' l' c') (hapart : Apart first f n m)
    (hsince : Since f m f' n') (hdistinct : Set.InjOn f.supply (Set.Ico first f'.drawn)) :
    state.identity Fabric.engine.recorded ≠ state'.identity Fabric.engine.recorded := by
  intro hsame
  have hworld : state.world.id = state'.world.id := congrArg (fun identity => identity.2.1) hsame
  rw [h.built.world, h'.built.world] at hworld
  exact hapart.id_ne h.living hsince h.running h'.running hdistinct hworld

/-- **A participant after a run**: its node is living, and so is its cluster. -/
theorem run_participant (defaultBackend : BackendId) (hb : f.HasParticipant b rank number)
    (hops : ∀ op ∈ ops, op.Ordinary) :
    let s := ((fresh f defaultBackend).run Fabric.engine ops).desk.engine.state
    f.Grows s ∧ (∃ n, Living b rank number f.drawn s n) ∧ Counted b s ∧
      ∃ c, s.clusters[number]? = some c ∧ c.Reachable := by
  obtain ⟨hnode, c, hcluster, hc⟩ := hb
  intro s
  obtain ⟨n, hn, hsince⟩ : Followed b rank number f.drawn f (.fresh rank number) s :=
    run_ordinary (Followed.lasting ..) (fun deed _ h => h.deed deed)
      (Living.fresh hnode hcluster hc).followed hops
  obtain ⟨c', hcluster', hc', -⟩ : Fabric.Grown number c s :=
    run_ordinary (Fabric.Grown.lasting number c) (fun deed _ h => h.deed deed)
      (.now hcluster hc) hops
  exact ⟨hsince.grows, ⟨n, hn⟩,
    run_ordinary (Counted.lasting b) (fun deed _ h => h.deed deed) ⟨_, hnode, rfl⟩ hops,
    c', hcluster', hc'⟩

/-- **Another participant** is living beside the state that a construction made, apart from its
life. -/
theorem Makes.beside
    (hmakes : ((fresh f defaultBackend).run Fabric.engine before).Makes op o state r)
    (hbefore : ∀ op ∈ before, op.Ordinary) (hb : f.HasParticipant o.backend rank number)
    (hb' : f.HasParticipant b rank' number') (hne : o.backend ≠ b)
    (hn : r.state.HasNode o.backend n) :
    ∃ m, Living b rank' number' f.drawn r.state m ∧ Apart f.drawn r.state n m := by
  obtain ⟨hnode, c, hcluster, hc⟩ := hb
  obtain ⟨hnode', c', hcluster', hc'⟩ := hb'
  have hlasting := SideBySide.lasting hne rank rank' number number' f.drawn
  have hstart : SideBySide o.backend b rank rank' number number' f.drawn f :=
    ⟨_, _, .fresh hnode hcluster hc, .fresh hnode' hcluster' hc', fun _ _ hl => nomatch hl⟩
  have hbeside := run_ordinary (L := fresh f defaultBackend) hlasting
    (fun deed _ h => h.deed hne deed) hstart hbefore
  obtain ⟨args, -, hcall⟩ := hmakes.call
  have hthen := hlasting.construct o.backend args o.handle hbeside
  rw [ViewState.construct_of_recorded hcall] at hthen
  obtain ⟨n', m, hn', hm, hapart⟩ := hthen
  cases hn'.node.symm.trans hn
  exact ⟨m, hm, hapart⟩

/-- **Two constructions** in a run have made states of the same identity exactly if these have
the same origin. -/
theorem Makes.identity_eq_iff
    (hmakes : ((fresh f defaultBackend).run Fabric.engine before).Makes op o state r)
    (hmakes' : ((fresh f defaultBackend).run Fabric.engine (before ++ op :: mid)).Makes op' o'
      state' r')
    (hops : ∀ op' ∈ before ++ op :: mid, op'.Ordinary)
    (hb : f.HasParticipant o.backend rank number)
    (hb' : f.HasParticipant o'.backend rank' number')
    (hdistinct : Set.InjOn f.supply (Set.Ico f.drawn r'.state.drawn)) :
    state.identity Fabric.engine.recorded = state'.identity Fabric.engine.recorded ↔
      o = o' := by
  obtain ⟨hbefore, hrest⟩ := List.forall_mem_append.mp hops
  have hmid := (List.forall_mem_cons.mp hrest).2
  obtain ⟨hgrows, ⟨n, hn⟩, hcounted, c, hcluster, hc⟩ :=
    run_participant defaultBackend hb hbefore
  obtain ⟨n₁, l, h₁, hsince₁⟩ := hmakes.settled hn hcounted hcluster hc
  have hsupply : r.state.supply = f.supply := (hgrows.trans hsince₁.grows).supply
  rw [← hsupply] at hdistinct
  obtain ⟨-, -, hcounted', c', hcluster', hc'⟩ := run_participant defaultBackend hb' hops
  -- the node of the second construction is followed from the first one on
  have hfollow : ∀ m, Living o'.backend rank' number' f.drawn r.state m →
      ∃ n' l', Settled state' o' rank' number' f.drawn r'.state n' l' c' ∧
        Since r.state m r'.state n' := by
    intro m hm
    obtain ⟨m', hm', hsince⟩ : Followed o'.backend rank' number' f.drawn r.state m
        ((fresh f defaultBackend).run Fabric.engine (before ++ op :: mid)).desk.engine.state := by
      rw [run_split]
      exact hmakes.run_keeps (Followed.lasting ..) (fun deed _ h => h.deed deed) hmid hm.followed
    obtain ⟨n', l', h', hsince'⟩ := hmakes'.settled hm' hcounted' hcluster' hc'
    exact ⟨n', l', h', hsince.trans hsince'⟩
  by_cases hbackend : o.backend = o'.backend
  · have hnode := hb.1
    rw [hbackend] at hnode
    cases hnode.symm.trans hb'.1
    obtain ⟨n', l', h', hsince⟩ := hfollow n₁ (hbackend ▸ h₁.living)
    obtain ⟨c'', hcluster'', -, hcgrows⟩ : Fabric.Grown number c
        ((fresh f defaultBackend).run Fabric.engine (before ++ op :: mid)).desk.engine.state := by
      rw [run_split]
      exact hmakes.run_keeps (Fabric.Grown.lasting number c) (fun deed _ h => h.deed deed) hmid
        h₁.grown
    cases hcluster''.symm.trans hcluster'
    exact h₁.identity_eq_iff h' hbackend hsince hcgrows hdistinct
  · obtain ⟨m, hm, hapart⟩ := hmakes.beside hbefore hb hb' hbackend h₁.living.node
    obtain ⟨n', l', h', hsince⟩ := hfollow m hm
    refine iff_of_false (h₁.identity_ne h' hapart hsince hdistinct) ?_
    rintro rfl
    exact hbackend rfl

end Comparison

/-! ## §5 Equality of views -/

section Equality

variable {f : Fabric} {defaultBackend : BackendId} {L : Ledger Fabric Comm}
  {op : ViewOp Fabric Comm} {before mid after ops : List (ViewOp Fabric Comm)} {n m : Nat}
  {o o' : Origin} {state state' : ViewState Comm} {r r' : Recorded Fabric} {b : BackendId}

/-- Identifiers are drawn through a run, and never given back. -/
theorem Makes.drawn_le (h : L.Makes op o state r) (hops : ∀ op ∈ ops, op.Ordinary) :
    r.state.drawn ≤
      ((L.step Fabric.engine op).run Fabric.engine ops).desk.engine.state.drawn := by
  have hlasting : Fabric.engine.Lasting r.state.Grows :=
    { report := fun event f h => h.trans (Fabric.still_report event f).grows
      communicator := fun c handle f h => h.trans (Fabric.still_communicator c handle f).grows
      memoryOf := fun comm rank f h => h.trans (Fabric.still_memoryOf comm rank f).grows
      start := fun c args f h => h.trans (Fabric.still_start c args f).grows
      stop := fun c f h => h.trans (Fabric.still_stop c f).grows }
  refine (h.run_keeps hlasting (fun deed f h => ?_) hops (.refl _)).drawn
  cases deed with
  | call c call => exact call.keeps hlasting c h
  | register number members => exact h.trans (Fabric.grows_addGroup number members f).1

/-- One construction has one origin. -/
theorem Makes.unique (h : L.Makes op o state r) (h' : L.Makes op o' state' r') : o = o' := by
  obtain ⟨b, incarnation, handle⟩ := o
  obtain ⟨b', incarnation', handle'⟩ := o'
  obtain ⟨args, hrequest, hcall⟩ := h.call
  obtain ⟨args', hrequest', hcall'⟩ := h'.call
  cases hrequest.symm.trans hrequest'
  cases hcall.symm.trans hcall'
  rw [show incarnation = _ from h.incarnation.symm, show incarnation' = _ from h'.incarnation.symm]

/-- Of two places in a list, one is before the other unless they are the same. -/
theorem split_cases {α : Type} {xs ys xs' ys' : List α} {x x' : α}
    (h : xs ++ x :: ys = xs' ++ x' :: ys') :
    (xs = xs' ∧ x = x') ∨ (∃ zs, xs' = xs ++ x :: zs) ∨ ∃ zs, xs = xs' ++ x' :: zs := by
  rcases List.append_eq_append_iff.mp h with ⟨zs, rfl, hrest⟩ | ⟨zs, rfl, hrest⟩
  · cases zs with
    | nil =>
      obtain ⟨rfl, -⟩ := List.cons.inj hrest
      exact .inl ⟨(List.append_nil _).symm, rfl⟩
    | cons z zs =>
      obtain ⟨rfl, -⟩ := List.cons.inj hrest
      exact .inr (.inl ⟨zs, rfl⟩)
  · cases zs with
    | nil =>
      obtain ⟨rfl, -⟩ := List.cons.inj hrest
      exact .inl ⟨List.append_nil _, rfl⟩
    | cons z zs =>
      obtain ⟨rfl, -⟩ := List.cons.inj hrest
      exact .inr (.inr ⟨zs, rfl⟩)

/-- **States of a run** have the same identity exactly if they have the same origin, when the
backends are participants' and every identifier is drawn once. -/
theorem BuiltAs.identity_eq_iff (hops : ∀ op ∈ ops, op.Ordinary)
    (hdistinct : Set.InjOn f.supply (Set.Ico f.drawn
      ((fresh f defaultBackend).run Fabric.engine ops).desk.engine.state.drawn))
    (hn : (fresh f defaultBackend).BuiltAs ops n o)
    (hm : (fresh f defaultBackend).BuiltAs ops m o')
    (hb : ∃ rank number, f.HasParticipant o.backend rank number)
    (hb' : ∃ rank number, f.HasParticipant o'.backend rank number)
    (hstate : ((fresh f defaultBackend).run Fabric.engine ops).desk.states.lookup n = some state)
    (hstate' :
      ((fresh f defaultBackend).run Fabric.engine ops).desk.states.lookup m = some state') :
    state.identity Fabric.engine.recorded = state'.identity Fabric.engine.recorded ↔
      o = o' := by
  obtain ⟨rank, number, hb⟩ := hb
  obtain ⟨rank', number', hb'⟩ := hb'
  obtain ⟨before, op, after, made, r, hsplit, rfl, hmakes⟩ := hn
  obtain ⟨before', op', after', made', r', hsplit', rfl, hmakes'⟩ := hm
  -- what the constructions made is what is there in the end
  have hidentity := hmakes.identity state (by rw [← run_split, ← hsplit, hstate])
  have hidentity' := hmakes'.identity state' (by rw [← run_split, ← hsplit', hstate'])
  have hordinary : ∀ {before op after}, ops = before ++ op :: after →
      (∀ op ∈ before, op.Ordinary) ∧ ∀ op ∈ after, op.Ordinary := by
    rintro before op after rfl
    obtain ⟨hbefore, hrest⟩ := List.forall_mem_append.mp hops
    exact ⟨hbefore, (List.forall_mem_cons.mp hrest).2⟩
  have hdistinct_of : ∀ {before op after o made r}, ops = before ++ op :: after →
      ((fresh f defaultBackend).run Fabric.engine before).Makes op o made r →
      Set.InjOn f.supply (Set.Ico f.drawn r.state.drawn) := by
    intro before op after o made r hsplit hmakes
    refine hdistinct.mono (Set.Ico_subset_Ico_right ?_)
    rw [hsplit, run_split]
    exact hmakes.drawn_le (hordinary hsplit).2
  rcases split_cases (hsplit.symm.trans hsplit') with ⟨rfl, rfl⟩ | ⟨mid, rfl⟩ | ⟨mid, rfl⟩
  · cases hstate.symm.trans hstate'
    exact iff_of_true rfl (hmakes.unique hmakes')
  · rw [hidentity, hidentity']
    exact hmakes.identity_eq_iff hmakes' (hordinary hsplit').1 hb hb'
      (hdistinct_of hsplit' hmakes')
  · rw [hidentity, hidentity', eq_comm, @eq_comm _ o]
    exact hmakes'.identity_eq_iff hmakes (hordinary hsplit).1 hb' hb
      (hdistinct_of hsplit hmakes)

/-- A state that is there in the end, built on a participant's backend, was built on some
instance. -/
theorem BuiltAs.incarnation (hops : ∀ op ∈ ops, op.Ordinary)
    (hn : (fresh f defaultBackend).BuiltAs ops n o)
    (hb : ∃ rank number, f.HasParticipant o.backend rank number) : o.incarnation.isSome := by
  obtain ⟨rank, number, hb⟩ := hb
  obtain ⟨before, op, after, made, r, rfl, -, hmakes⟩ := hn
  obtain ⟨-, ⟨n, hliving⟩, hcounted, c, hcluster, hc⟩ :=
    run_participant defaultBackend hb (List.forall_mem_append.mp hops).1
  obtain ⟨n', l, hsettled, -⟩ := hmakes.settled hliving hcounted hcluster hc
  rw [hsettled.incarnation]
  rfl

end Equality

/-- **Equality of views**, on any engine and at every moment. Comparing two views is refused
exactly if one of them is null. On the others, equality is an equivalence, with the negation for
the question whether they differ, and the answer for aliases of one state is what comparing
field by field would say. An answer follows the views through every operation, to wherever it
moves them.

On the backends of participants, under identifiers that are drawn once, two views are equal
exactly if they have the same origin: the same instance of the same backend, and the same
handle. -/
theorem view_equality :
    (∀ (σ κ : Type) (E : Engine σ κ) (s : σ) (defaultBackend : BackendId)
        (ops : List (ViewOp σ κ)),
      let L := (fresh s defaultBackend).run E ops
      let same := L.desk.sameView E.recorded
      (∀ (x y : Slot) (v w : View),
        L.desk.views.find? x = some v → L.desk.views.find? y = some w →
          (∀ e, same v w = .error e ↔ e = .nullView "eq" ∧ (v = .null ∨ w = .null)) ∧
          (v ≠ .null → same v v = .ok true) ∧
          same v w = same w v ∧
          (∀ u, same v w = .ok true → same w u = .ok true → same v u = .ok true) ∧
          L.desk.differentView E.recorded v w = (same v w).map (!·) ∧
          ∀ a b, L.desk.behind v = some a → L.desk.behind w = some b →
            same v w = .ok (a.same E b)) ∧
      (∀ op x y x' y', (L.step E op).desk.views.find? x = L.desk.views.find? x' →
        (L.step E op).desk.views.find? y = L.desk.views.find? y' →
          (L.step E op).compare E x y = L.compare E x' y') ∧
      ∀ source target, (L.desk.views.find? source).isSome → ∀ x y,
        let original := fun x => if x = target then source else x
        (L.step E (.copy source target)).compare E x y =
            L.compare E (original x) (original y) ∧
          (source ≠ target → x ≠ source → y ≠ source →
            (L.step E (.take source target)).compare E x y =
              L.compare E (original x) (original y)) ∧
          ((L.desk.views.find? target).isSome →
            (L.step E (.swap source target)).compare E x y =
              L.compare E (Equiv.swap source target x) (Equiv.swap source target y))) ∧
    ∀ (f : Fabric) (defaultBackend : BackendId) (ops : List (ViewOp Fabric Comm)),
      let L := (fresh f defaultBackend).run Fabric.engine ops
      (∀ op ∈ ops, op.Ordinary) →
      Set.InjOn f.supply (Set.Ico f.drawn L.desk.engine.state.drawn) →
        (∀ x n, L.desk.views.find? x = some (.alias n) →
          ∃ o, (fresh f defaultBackend).BuiltAs ops n o) ∧
        ∀ x y n m o o', L.desk.views.find? x = some (.alias n) →
          L.desk.views.find? y = some (.alias m) →
          (fresh f defaultBackend).BuiltAs ops n o → (fresh f defaultBackend).BuiltAs ops m o' →
          (∃ rank number, f.HasParticipant o.backend rank number) →
          (∃ rank number, f.HasParticipant o'.backend rank number) →
            o.incarnation.isSome ∧
              L.desk.sameView Fabric.engine.recorded (.alias n) (.alias m) =
                .ok (decide (o = o')) := by
  constructor
  · intro σ κ E s defaultBackend ops L same
    have hL : L.Sound .null := (Sound.fresh s defaultBackend).run E ops
    refine ⟨fun x y v w hv hw => ?_, fun op x y x' y' => hL.compare_step,
      fun source target hsource x y => ?_⟩
    · exact ⟨hL.kept.sameView_eq_error_iff hv hw _, fun hnull => hL.kept.sameView_self hv hnull _,
        Desk.sameView_comm .., fun u => Desk.sameView_trans, rfl,
        fun a b ha hb => Desk.sameView_of_behind ha hb⟩
    · refine ⟨hL.compare_step (find?_copy hsource x) (find?_copy hsource y), ?_, ?_⟩
      · exact fun _ hx hy => hL.compare_step (find?_take hsource fun h => absurd h hx)
          (find?_take hsource fun h => absurd h hy)
      · exact fun htarget => hL.compare_step (find?_swap hsource htarget x)
          (find?_swap hsource htarget y)
  · intro f defaultBackend ops L hops hdistinct
    have hL : L.Sound .null := (Sound.fresh f defaultBackend).run Fabric.engine ops
    refine ⟨fun x n hx => ?_, fun x y n m o o' hx hy hn hm hb hb' => ?_⟩
    · rcases run_builtAs (hL.kept.behind x n hx) with hbefore | hbuilt
      · cases hbefore
      · exact hbuilt
    · obtain ⟨state, hstate⟩ := Option.isSome_iff_exists.mp (hL.kept.behind x n hx)
      obtain ⟨state', hstate'⟩ := Option.isSome_iff_exists.mp (hL.kept.behind y m hy)
      refine ⟨hn.incarnation hops hb, ?_⟩
      rw [Desk.sameView_of_behind (Desk.behind_of_lookup hstate) (Desk.behind_of_lookup hstate'),
        ViewState.same_eq, Except.ok.injEq, decide_eq_decide]
      exact hn.identity_eq_iff hops hdistinct hm hb hb' hstate hstate'

/-- A participant of the trio opens a view, and two more after a restart. -/
def reopened : List (ViewOp Fabric Comm) :=
  .openView ⟨1, "old"⟩ 1 [] .world :: restartOf 1 ++
    [.openView ⟨1, "new"⟩ 1 [] .world, .openView ⟨1, "other"⟩ 1 [] .world]

/-- The view of the first instance differs from the others, though all have the same handle and
the same resource sets. -/
theorem view_equality_reopened :
    let L := (fresh idleTrio 0).run Fabric.engine reopened
    (∀ op ∈ reopened, op.Ordinary) ∧
      Set.InjOn idleTrio.supply (Set.Ico idleTrio.drawn L.desk.engine.state.drawn) ∧
      idleTrio.HasParticipant 1 1 0 ∧
      L.desk.sameView Fabric.engine.recorded (.alias 0) (.alias 1) = .ok false ∧
      L.desk.sameView Fabric.engine.recorded (.alias 1) (.alias 2) = .ok true := by
  intro L
  have hops : ∀ op ∈ reopened, op.Ordinary := by
    intro op hop
    rcases List.mem_cons.mp hop with rfl | hop
    · exact nofun
    rcases List.mem_append.mp hop with hop | hop
    · exact restartOf_ordinary 1 op hop
    · simp only [List.mem_cons, List.not_mem_nil, or_false] at hop
      rcases hop with rfl | rfl <;> exact nofun
  have hdistinct : Set.InjOn Fabric.counting (Set.Ico 0 2) := by
    rintro i ⟨-, hi⟩ j ⟨-, hj⟩ hij
    have hnumbers : i % 2 ^ 128 = j % 2 ^ 128 := congrArg (fun id => id.value.toNat) hij
    omega
  have hb : idleTrio.HasParticipant 1 1 0 := ⟨rfl, JointCall.trio, rfl, JointCall.trio_reachable⟩
  have hlocal : ∃ rank number, idleTrio.HasParticipant 1 rank number := ⟨1, 0, hb⟩
  have hold : (fresh idleTrio 0).BuiltAs reopened 0 ⟨1, some 1, .world⟩ :=
    ⟨[], _, _, _, _, rfl, rfl, ⟨[], rfl, rfl⟩, rfl⟩
  have hnew : (fresh idleTrio 0).BuiltAs reopened 1 ⟨1, some 2, .world⟩ :=
    ⟨reopened.take 3, _, _, _, _, rfl, rfl, ⟨[], rfl, rfl⟩, rfl⟩
  have hother : (fresh idleTrio 0).BuiltAs reopened 2 ⟨1, some 2, .world⟩ :=
    ⟨reopened.take 4, _, _, _, _, rfl, rfl, ⟨[], rfl, rfl⟩, rfl⟩
  obtain ⟨-, hsame⟩ := view_equality.2 idleTrio 0 reopened hops hdistinct
  refine ⟨hops, hdistinct, hb, ?_, ?_⟩
  · exact (hsame ⟨1, "old"⟩ ⟨1, "new"⟩ 0 1 _ _ rfl rfl hold hnew hlocal hlocal).2
  · exact (hsame ⟨1, "new"⟩ ⟨1, "other"⟩ 1 2 _ _ rfl rfl hnew hother hlocal hlocal).2

end Ledger

end ClusterView
