import ClusterView.Proofs.Instances

/-!
# Views of a world

A world names one instance of a backend's runtime, and whoever holds it may do so for longer
than the instance runs. A view is opened of a world through the world's backend and the handle
of its communicator, and the identifier of the instance is not looked at. So such a view is one
of the instance that runs, and if none does, of another one that it begins itself.

A world that was handed out is either that of the life that goes on, or it was given an
identifier at another time than that life (`Acquainted`). This is kept by whatever becomes of
the node, so it holds when the world is used, however long after.

## Sections
- §1: Worlds of a node
- §2: Opening a view of a node
- §3: Worlds that are handed out
- §4: Opening a view of a world
-/

namespace ClusterView

/-! ## §1 Worlds of a node -/

/-- **Acquainted** with a world: it spans all participants, and either it is that of the life
that goes on, or its identifier and that of the life were drawn at different times. -/
structure Acquainted (b : BackendId) (first : Nat) (f : Fabric) (n : Node) (w : World Comm) :
    Prop where
  backend : w.backend = b
  handle : w.comm.handle = .world
  drawn : ∃ i ∈ Set.Ico first f.drawn, w.id = f.supply i ∧ ∀ l, n.running = some l →
    w = l.world b ∨ ∃ j ∈ Set.Ico first f.drawn, j ≠ i ∧ l.id = f.supply j

section Nodes

variable {b : BackendId} {rank number first : Nat} {f f' : Fabric} {n n' : Node} {l : Life}
  {w : World Comm}

/-- A life has the communicator of the whole world. -/
theorem Living.handle_world (h : Living b rank number first f n) (hl : n.running = some l) :
    (l.world b).comm.handle = .world := by
  obtain ⟨c, hc, -, hgroup⟩ := (h.comm l hl).registered
  obtain ⟨c', hc', hrooted⟩ := h.rooted
  cases hc.symm.trans hc'
  rw [h.world l hl, show c.groups[0]? = _ from hrooted, Option.some.injEq] at hgroup
  show l.comm.group.handle = .world
  rw [← hgroup]
  rfl

/-- The world of the life that goes on. -/
theorem Living.acquainted (h : Living b rank number first f n) (hl : n.running = some l) :
    Acquainted b first f n (l.world b) := by
  obtain ⟨i, hfirst, hi, hid⟩ := h.drawn l hl
  refine ⟨rfl, h.handle_world hl, i, ⟨hfirst, hi⟩, hid, fun l' hl' => ?_⟩
  cases hl.symm.trans hl'
  exact .inl rfl

/-- **Whatever becomes of the node**, the acquaintance is kept: a life that is begun later has
an identifier that is drawn later. -/
theorem Acquainted.since (h : Acquainted b first f n w) (hsince : Since f n f' n') :
    Acquainted b first f' n' w := by
  have hdrawn := hsince.grows.drawn
  have hsupply := hsince.grows.supply
  obtain ⟨i, ⟨hfirst, hi⟩, hid, hlife⟩ := h.drawn
  refine ⟨h.backend, h.handle, i, ⟨hfirst, hi.trans_le hdrawn⟩, by rw [hid, hsupply], ?_⟩
  intro l hl
  rcases hsince.running l hl with hold | ⟨-, j, hfrom, hto, hid'⟩
  · rcases hlife l hold with hsame | ⟨j, ⟨hj, hj'⟩, hne, hid'⟩
    · exact .inl hsame
    · exact .inr ⟨j, ⟨hj, hj'.trans_le hdrawn⟩, hne, by rw [hid', hsupply]⟩
  · have hi_lt : i < j := hi.trans_le hfrom
    exact .inr ⟨j, ⟨hfirst.trans hi_lt.le, hto⟩, hi_lt.ne', by rw [hid', hsupply]⟩

/-- **Identifiers tell** at a later moment whether a life is the one that a world was handed out
of, if each is drawn once. -/
theorem Acquainted.id_eq_iff (h : Acquainted b first f n w) (hsince : Since f n f' n')
    (hl : n'.running = some l) (hdistinct : Set.InjOn f.supply (Set.Ico first f'.drawn)) :
    l.id = w.id ↔ n.running = some l ∧ w = l.world b := by
  have hdrawn := hsince.grows.drawn
  obtain ⟨i, ⟨hfirst, hi⟩, hid, hlife⟩ := h.drawn
  have hne : ∀ j ∈ Set.Ico first f'.drawn, j ≠ i → l.id = f.supply j → l.id ≠ w.id := by
    intro j hj hne hid' hsame
    exact hne (hdistinct hj ⟨hfirst, hi.trans_le hdrawn⟩ (by rw [← hid', ← hid, hsame]))
  constructor
  · intro hsame
    rcases hsince.running l hl with hold | ⟨-, j, hfrom, hto, hid'⟩
    · rcases hlife l hold with hworld | ⟨j, ⟨hj, hj'⟩, hji, hid'⟩
      · exact ⟨hold, hworld⟩
      · exact absurd hsame (hne j ⟨hj, hj'.trans_le hdrawn⟩ hji hid')
    · have hlt : i < j := hi.trans_le hfrom
      exact absurd hsame (hne j ⟨hfirst.trans hlt.le, hto⟩ hlt.ne' hid')
  · rintro ⟨-, rfl⟩
    rfl

/-! ## §2 Opening a view of a node -/

theorem Fabric.HasNode.starts_eq (h : f.HasNode b n) : (f.counters b).1 = n.starts := by
  rw [Fabric.counters, show f.backends[b]? = some (.node n) from h]

/-- What a start counts for. -/
theorem Living.starts_start (h : Living b rank number first f n) (args : List String)
    (hn' : (Fabric.start b args f).2.HasNode b n') :
    n'.starts = n.starts + if f.isRunning b then 0 else 1 := by
  rw [h.node.isRunning_eq]
  cases hrunning : n.running with
  | some l =>
    rw [h.node.start_running hrunning] at hn'
    cases h.node.symm.trans hn'
    rfl
  | none =>
    rcases h.node.start_idle hrunning args with ⟨e, he⟩ | ⟨l, f', hstart, hbegun⟩
    · obtain ⟨l, f', -, hstart, -⟩ := h.start args
      cases he.symm.trans hstart
    · rw [hstart] at hn'
      cases hbegun.symm.trans hn'
      rfl

/-- **A view opened on a node** is one of the life that goes on afterwards, which is the one that
went on before, or was begun by the view. -/
theorem Living.opened (h : Living b rank number first f n) {args : List String}
    {handle : CommHandle} {state : ViewState Comm}
    (hcall : ViewState.construct Fabric.engine b args handle f = (.ok state, f')) :
    ∃ n' l, Living b rank number first f' n' ∧ Since f n f' n' ∧ n'.running = some l ∧
      state.world = l.world b ∧ state.started = !f.isRunning b ∧
      n'.starts = n.starts + (if f.isRunning b then 0 else 1) ∧
      (f.isRunning b → n.running = some l) := by
  obtain ⟨l, f₁, n', hstart, h₁, hsince, hrunning, hattached⟩ := h.start args
  have hnode : (Fabric.start b args f).2.HasNode b n' := by
    rw [hstart]
    exact h₁.node
  have hstarts := h.starts_start args hnode
  -- after the start there are questions and reports only
  rcases ViewState.construct_of_start_ok hstart (Living.steady b rank number first f₁ n')
      ⟨h₁, .refl f₁⟩ with ⟨e, s₂, -, hfailed⟩ | ⟨state', s₂, ⟨h₂, hgrows⟩, hdone, hrole⟩
  · cases hfailed.symm.trans hcall
  · cases hdone.symm.trans hcall
    obtain ⟨hstarted, -, hworld⟩ := hrole
    refine ⟨n', l, h₂, hsince.trans (h₁.kept h₂.node hgrows).2, hrunning, hworld, hstarted,
      hstarts, fun hup => ?_⟩
    obtain ⟨-, rfl⟩ := hattached (h.node.isRunning_eq ▸ hup)
    exact hrunning

end Nodes

/-- Letting go of a view may stop a node, but starts nothing. -/
theorem Desk.letGo_starts {b : BackendId} {rank number first : Nat} {n : Node}
    {d : Desk (Recorded Fabric) Comm} (hn : Living b rank number first d.engine.state n)
    (loose : View) :
    d.engine.state.Grows (d.letGo Fabric.engine.recorded loose).engine.state ∧
      ((d.letGo Fabric.engine.recorded loose).engine.state.counters b).1 = n.starts := by
  obtain ⟨n', -, hsince⟩ : Followed b rank number first d.engine.state n
      (d.letGo Fabric.engine.recorded loose).engine.state :=
    (Followed.lasting ..).recorded.letGo hn.followed loose
  refine ⟨hsince.grows, ?_⟩
  rcases Desk.letGo_node hn.node loose with ⟨hkept, -⟩ | ⟨-, -, -, -, hstopped, -⟩
  · exact hkept.node.starts_eq
  · rw [hstopped.node.starts_eq, Node.halted]
    cases n.running <;> rfl

/-- Whatever has a running world runs. -/
theorem Fabric.isRunning_of_world {b : BackendId} {f : Fabric} {w : World Comm}
    (h : Fabric.world b f = .ok w) : f.isRunning b = true := by
  unfold Fabric.world at h
  unfold Fabric.isRunning
  split at h
  · split at h
    · rename_i hrunning
      rw [hrunning]
      rfl
    · cases h
  · split at h
    · rename_i hrunning
      rw [hrunning]
      rfl
    · cases h
  · cases h

/-- A world that a start leads to belongs to the backend that was started. -/
theorem Fabric.backend_of_start {c : BackendId} {args : List String} {f f' : Fabric}
    {startup : Startup Comm} (h : Fabric.start c args f = (.ok startup, f')) :
    startup.world.backend = c := by
  unfold Fabric.start at h
  split at h
  · unfold Fabric.startNode at h
    split at h
    · cases h
      rfl
    · split at h
      · cases h
      · split at h
        · cases h
        · cases h
          rfl
  · simp only [Fabric.startScripted] at h
    split at h
    · cases h
    · cases h
      rfl
  · cases h

/-! ## §3 Worlds that are handed out -/

section Introductions

variable {b : BackendId} {rank number first : Nat} {f f' : Fabric} {n : Node} {w : World Comm}
  {d d' : Desk (Recorded Fabric) Comm}

/-- Whoever follows a node through a construction is acquainted with the world of the new state,
if it is one of the node. -/
theorem Living.introduced (h : Living b rank number first f n) {c : BackendId}
    {args : List String} {handle : CommHandle} {state : ViewState Comm}
    (hcall : ViewState.construct Fabric.engine c args handle f = (.ok state, f')) :
    ∃ n', Living b rank number first f' n' ∧ Since f n f' n' ∧
      (state.world.backend = b → Acquainted b first f' n' state.world) := by
  by_cases hc : c = b
  · subst hc
    obtain ⟨n', l, h', hsince, hrunning, hworld, -⟩ := h.opened hcall
    exact ⟨n', h', hsince, fun _ => hworld ▸ h'.acquainted hrunning⟩
  · obtain ⟨n', h', hsince⟩ : Followed b rank number first f n
        (ViewState.construct Fabric.engine c args handle f).2 :=
      (Followed.lasting ..).construct c args handle h.followed
    rw [hcall] at h' hsince
    obtain ⟨startup, s₁, memory, s₂, hstart, -, -, -, hworld, -⟩ :=
      ViewState.construct_eq_ok hcall
    refine ⟨n', h', hsince, fun hb => absurd ?_ hc⟩
    rw [← hb, hworld, Fabric.backend_of_start hstart]

/-- The world behind a view, if there is one. -/
theorem Desk.worldOf_eq_ok {σ κ : Type} {d : Desk σ κ} {v : View} {w : World κ} :
    ViewState.worldOf (d.behind v) = .ok w ↔
      ∃ m state, v = .alias m ∧ d.states.lookup m = some state ∧ state.world = w := by
  rcases v with _ | m
  · simp [Desk.behind, Desk.aliased?, ViewState.worldOf, ViewState.behind, Except.map]
  · cases hstate : d.states.lookup m <;>
      simp [Desk.behind, Desk.aliased?, hstate, ViewState.worldOf, ViewState.behind, Except.map]

/-- **Introductions**: a backend is a living node, acquainted with the worlds of all states
behind views of it. -/
def Desk.Introduces (b : BackendId) (rank number first : Nat)
    (d : Desk (Recorded Fabric) Comm) : Prop :=
  ∃ n, Living b rank number first d.engine.state n ∧
    ∀ m role, d.role? m = some role → role.world.backend = b →
      Acquainted b first d.engine.state n role.world

/-- They are kept if the node is followed and introduced to the states that are new. -/
theorem Desk.Introduces.followed (h : d.Introduces b rank number first)
    (hfollow : ∀ n, Living b rank number first d.engine.state n →
      ∃ n', Living b rank number first d'.engine.state n' ∧
        Since d.engine.state n d'.engine.state n' ∧
        ∀ m role, d'.role? m = some role → d.role? m = some role ∨
          (role.world.backend = b → Acquainted b first d'.engine.state n' role.world)) :
    d'.Introduces b rank number first := by
  obtain ⟨n, hn, hroles⟩ := h
  obtain ⟨n', hn', hsince, hnew⟩ := hfollow n hn
  refine ⟨n', hn', fun m role hrole hb => ?_⟩
  rcases hnew m role hrole with hold | hmet
  · exact (hroles m role hold hb).since hsince
  · exact hmet hb

theorem Desk.Introduces.letGo (h : d.Introduces b rank number first) (loose : View) :
    (d.letGo Fabric.engine.recorded loose).Introduces b rank number first := by
  refine h.followed fun n hn => ?_
  obtain ⟨n', hn', hsince⟩ : Followed b rank number first d.engine.state n
      (d.letGo Fabric.engine.recorded loose).engine.state :=
    (Followed.lasting ..).recorded.letGo hn.followed loose
  refine ⟨n', hn', hsince, fun m role hrole => .inl ?_⟩
  rcases Desk.letGo_cases Fabric.engine.recorded d loose with hsame | ⟨k, -, -, -, -, hroles⟩
  · rwa [hsame] at hrole
  · rw [hroles] at hrole
    split at hrole
    · cases hrole
    · exact hrole

end Introductions

namespace Ledger

variable {b : BackendId} {rank number first : Nat} {n : Node} {w : World Comm}
  {L : Ledger Fabric Comm} {op : ViewOp Fabric Comm} {ops : List (ViewOp Fabric Comm)}

/-- **Step lemma**: every ordinary operation keeps the introductions. -/
theorem introduces_step (h : L.desk.Introduces b rank number first) (hop : op.Ordinary) :
    (L.step Fabric.engine op).desk.Introduces b rank number first := by
  obtain ⟨d, loose, hstep, hdoes, -⟩ := step_does Fabric.engine L op
  rw [hstep]
  refine Desk.Introduces.letGo (h.followed fun n hn => ?_) loose
  cases hdoes with
  | moved hengine hroles hnone =>
    rw [hengine]
    exact ⟨n, hn, .refl _ n, fun m role hrole => .inl (hroles m ▸ hrole)⟩
  | changed change hchange hengine hroles =>
    obtain ⟨deed, rfl⟩ := hop change hchange
    rw [hengine]
    obtain ⟨n', hn', hsince⟩ := hn.followed.deed deed
    exact ⟨n', hn', hsince, fun m role hrole => .inl (hroles m ▸ hrole)⟩
  | failed c args handle e hrequest hcall hroles =>
    have hthen := (Followed.lasting ..).recorded.construct c args handle
      (s := L.desk.engine) hn.followed
    rw [hcall] at hthen
    obtain ⟨n', hn', hsince⟩ := hthen
    exact ⟨n', hn', hsince, fun m role hrole => .inl (hroles m ▸ hrole)⟩
  | opened c args handle state hrequest hcall hroles =>
    obtain ⟨n', hn', hsince, hmet⟩ := hn.introduced (ViewState.construct_of_recorded hcall)
    refine ⟨n', hn', hsince, fun m role hrole => ?_⟩
    rw [hroles] at hrole
    split at hrole
    · cases hrole
      exact .inr hmet
    · exact .inl hrole

/-- **Handed out** in the course of a run: the world of a backend that is asked for while it
runs, the one that a start answers with, or that of a view. -/
inductive HandsOut (b : BackendId) (w : World Comm) :
    Ledger Fabric Comm → List (ViewOp Fabric Comm) → Prop
  | asked {L : Ledger Fabric Comm} {ops : List (ViewOp Fabric Comm)}
      (hworld : Fabric.world b L.desk.engine.state = .ok w) : HandsOut b w L ops
  | started {L : Ledger Fabric Comm} {ops : List (ViewOp Fabric Comm)} (args : List String)
      (started : Bool)
      (hstart : (Fabric.start b args L.desk.engine.state).1 = .ok ⟨w, started⟩) :
      HandsOut b w L (.meanwhile (Deed.call b (.start args)).after :: ops)
  | viewed {L : Ledger Fabric Comm} {ops : List (ViewOp Fabric Comm)} (slot : Slot) (v : View)
      (hslot : L.desk.views.find? slot = some v)
      (hworld : ViewState.worldOf (L.desk.behind v) = .ok w) (hbackend : w.backend = b) :
      HandsOut b w L ops
  | later {L : Ledger Fabric Comm} {op : ViewOp Fabric Comm} {ops : List (ViewOp Fabric Comm)}
      (h : HandsOut b w (L.step Fabric.engine op) ops) : HandsOut b w L (op :: ops)

/-- **Run lemma**: an acquaintance is kept through ordinary operations. -/
theorem acquainted_run (hn : Living b rank number first L.desk.engine.state n)
    (hw : Acquainted b first L.desk.engine.state n w) (hops : ∀ op ∈ ops, op.Ordinary) :
    ∃ n', Living b rank number first (L.run Fabric.engine ops).desk.engine.state n' ∧
      Acquainted b first (L.run Fabric.engine ops).desk.engine.state n' w := by
  obtain ⟨n', hn', hsince⟩ : Followed b rank number first L.desk.engine.state n
      (L.run Fabric.engine ops).desk.engine.state :=
    run_ordinary (Followed.lasting ..) (fun deed _ h => h.deed deed) hn.followed hops
  exact ⟨n', hn', hw.since hsince⟩

/-- **Whatever was handed out** in a run, the node is acquainted with it in the end. -/
theorem HandsOut.acquainted (h : L.HandsOut b w ops)
    (hL : L.desk.Introduces b rank number first) (hops : ∀ op ∈ ops, op.Ordinary) :
    ∃ n, Living b rank number first (L.run Fabric.engine ops).desk.engine.state n ∧
      Acquainted b first (L.run Fabric.engine ops).desk.engine.state n w := by
  induction h with
  | asked hworld =>
    obtain ⟨n, hn, -⟩ := hL
    obtain ⟨l, hl, rfl⟩ := hn.node.world_eq_ok.mp hworld
    exact acquainted_run hn (hn.acquainted hl) hops
  | @started L ops args started hstart =>
    obtain ⟨n, hn, -⟩ := hL
    obtain ⟨l, f', n', hstarted, hn', -, hl, -⟩ := hn.start args
    rw [hstarted] at hstart
    cases hstart
    -- the fabric after the operation is the one after the start
    obtain rfl : (Fabric.start b args L.desk.engine.state).2 = f' := congrArg Prod.snd hstarted
    exact acquainted_run (L := L.step Fabric.engine _) hn' (hn'.acquainted hl)
      (List.forall_mem_cons.mp hops).2
  | @viewed L ops slot v hslot hworld hbackend =>
    obtain ⟨n, hn, hroles⟩ := hL
    obtain ⟨m, state, -, hstate, rfl⟩ := Desk.worldOf_eq_ok.mp hworld
    exact acquainted_run hn (hroles m state.role (by rw [Desk.role?, hstate]; rfl) hbackend) hops
  | later h ih =>
    obtain ⟨hop, hrest⟩ := List.forall_mem_cons.mp hops
    exact ih (introduces_step hL hop) hrest

/-! ## §4 Opening a view of a world -/

/-- The state behind the view in a slot, if there is one. -/
def viewIn (L : Ledger Fabric Comm) (slot : Slot) : Option (ViewState Comm) :=
  (L.desk.views.find? slot).bind L.desk.behind

/-- **Joining** a world: the view that is opened of it into a slot is one of the instance that
the world names, and nothing is started for it. -/
def Joins (L : Ledger Fabric Comm) (slot : Slot) (w : World Comm) : Prop :=
  let L' := L.step Fabric.engine (.openWorld slot w)
  (∃ found, ViewState.worldOf (L'.viewIn slot) = .ok found ∧ found.id = w.id) ∧
    ViewState.startedRuntime (L'.viewIn slot) = false ∧
    (L'.desk.engine.state.counters w.backend).1 = (L.desk.engine.state.counters w.backend).1

variable {c : Cluster} {slot : Slot} {state : ViewState Comm} {r : Recorded Fabric}

/-- **Outcome** of opening a view of a world: there is a view in the slot, of a life that goes on
when the view is constructed, and started by the view only if nothing went on before. -/
structure Opens (L : Ledger Fabric Comm) (slot : Slot) (w : World Comm) (n : Node) (l : Life) :
    Prop where
  answer : ∃ v, (Desk.openWorld Fabric.engine.recorded slot w L.desk).1 = .ok v ∧
    (L.step Fabric.engine (.openWorld slot w)).desk.views.find? slot = some v
  world : ViewState.worldOf ((L.step Fabric.engine (.openWorld slot w)).viewIn slot) =
    .ok (l.world w.backend)
  started : ViewState.startedRuntime ((L.step Fabric.engine (.openWorld slot w)).viewIn slot) =
    !L.desk.engine.state.isRunning w.backend
  starts : ((L.step Fabric.engine (.openWorld slot w)).desk.engine.state.counters w.backend).1 =
    (L.desk.engine.state.counters w.backend).1 +
      if L.desk.engine.state.isRunning w.backend then 0 else 1
  before : ∀ running, Fabric.world w.backend L.desk.engine.state = .ok running ↔
    n.running = some l ∧ running = l.world w.backend
  since : ∃ f n', Since L.desk.engine.state n f n' ∧ n'.running = some l ∧
    f.Grows (L.step Fabric.engine (.openWorld slot w)).desk.engine.state

/-- The view that is constructed ends up in the slot. -/
theorem viewIn_openWorld (hL : L.Sound .null)
    (hcall : ViewState.construct Fabric.engine.recorded w.backend [] w.comm.handle
      L.desk.engine = (.ok state, r)) (slot : Slot) :
    (∃ v, (Desk.openWorld Fabric.engine.recorded slot w L.desk).1 = .ok v ∧
      (L.step Fabric.engine (.openWorld slot w)).desk.views.find? slot = some v) ∧
      (L.step Fabric.engine (.openWorld slot w)).viewIn slot = some state := by
  obtain ⟨hok, hslot, -, hlookup⟩ := Desk.openView_opened hcall slot
  have hheld : (L.step Fabric.engine (.openWorld slot w)).desk.views.find? slot =
      some (.alias L.desk.nextState) := hslot
  have hthere := (hL.step Fabric.engine (.openWorld slot w)).1.kept.behind slot _ hheld
  obtain ⟨found, hfound⟩ := Option.isSome_iff_exists.mp hthere
  obtain rfl := hlookup found hfound
  refine ⟨⟨_, hok, hheld⟩, ?_⟩
  rw [viewIn, hheld]
  exact Desk.behind_of_lookup hfound

/-- The view that the slot held before is let go of, which starts nothing. -/
theorem starts_openWorld
    (hcall : ViewState.construct Fabric.engine.recorded w.backend [] w.comm.handle
      L.desk.engine = (.ok state, r))
    (hn : Living w.backend rank number first r.state n) (slot : Slot) :
    let L' := L.step Fabric.engine (.openWorld slot w)
    r.state.Grows L'.desk.engine.state ∧
      (L'.desk.engine.state.counters w.backend).1 = n.starts := by
  intro L'
  obtain ⟨d, loose, hdesk, rfl⟩ : ∃ (d : Desk (Recorded Fabric) Comm) (loose : View),
      L'.desk = d.letGo Fabric.engine.recorded loose ∧ d.engine = r :=
    ⟨_, _, congrArg Prod.snd (Desk.openView_ok hcall), rfl⟩
  rw [hdesk]
  exact Desk.letGo_starts hn loose

/-- **Opening a view** of a world always succeeds, on the backend of a participant. -/
theorem opens_world (hL : L.Sound .null)
    (hn : Living w.backend rank number first L.desk.engine.state n)
    (hcluster : L.desk.engine.state.clusters[number]? = some c) (hc : c.Reachable)
    (hhandle : w.comm.handle = .world) (slot : Slot) : ∃ l, L.Opens slot w n l := by
  obtain ⟨state, x, hanswer, -⟩ := hn.openGroup hcluster hc hc.rooted.group_world []
  rw [← ViewState.construct_recorded_answer, ← hhandle] at hanswer
  generalize hcall : ViewState.construct Fabric.engine.recorded w.backend [] w.comm.handle
    L.desk.engine = out at hanswer
  obtain ⟨answer, r⟩ := out
  cases hanswer
  obtain ⟨n', l, hn', hsince, hl, hworld, hstarted, hstarts, hattached⟩ :=
    hn.opened (ViewState.construct_of_recorded hcall)
  obtain ⟨hgrows, hcount⟩ := starts_openWorld hcall hn' slot
  obtain ⟨hanswer, hview⟩ := viewIn_openWorld hL hcall slot
  refine ⟨l, hanswer, ?_, ?_, ?_, fun running => ?_, r.state, n', hsince, hl, hgrows⟩
  · rw [hview]
    exact congrArg Except.ok hworld
  · rw [hview]
    exact hstarted
  · rw [hn.node.starts_eq]
    exact hcount.trans hstarts
  · -- whatever ran before still does when the view is constructed
    rw [hn.node.world_eq_ok]
    constructor
    · rintro ⟨l', hl', rfl⟩
      cases hl'.symm.trans (hattached (by rw [hn.node.isRunning_eq, hl']; rfl))
      exact ⟨hl', rfl⟩
    · exact fun h => ⟨l, h⟩

/-- A view of a world whose instance still runs is one of that instance. -/
theorem Opens.joins {l : Life} (h : L.Opens slot w n l) {running : World Comm}
    (hrunning : Fabric.world w.backend L.desk.engine.state = .ok running) :
    let L' := L.step Fabric.engine (.openWorld slot w)
    ViewState.worldOf (L'.viewIn slot) = .ok running ∧
      ViewState.startedRuntime (L'.viewIn slot) = false ∧
      (L'.desk.engine.state.counters w.backend).1 =
        (L.desk.engine.state.counters w.backend).1 := by
  intro L'
  have hup := Fabric.isRunning_of_world hrunning
  obtain ⟨-, rfl⟩ := (h.before running).mp hrunning
  refine ⟨h.world, h.started.trans (by rw [hup]; rfl), h.starts.trans (by rw [hup]; rfl)⟩

/-- **Views of a world**, on any participant's backend and after any run. Opening a view of a
world that was handed out always succeeds. If an instance runs, the view is one of that
instance, and has started nothing; if none does, the view has started one. Which instance the
world names makes no difference: when every identifier is drawn once, the view joins the world
exactly if the instance that the world names still runs. -/
theorem view_of_world_joins_iff (f : Fabric) (b defaultBackend : BackendId) (rank number : Nat)
    (hb : f.HasParticipant b rank number) (ops : List (ViewOp Fabric Comm))
    (hops : ∀ op ∈ ops, op.Ordinary) (w : World Comm)
    (hw : (fresh f defaultBackend).HandsOut b w ops) (slot : Slot) :
    let L := (fresh f defaultBackend).run Fabric.engine ops
    let L' := L.step Fabric.engine (.openWorld slot w)
    let starts := fun L : Ledger Fabric Comm => (L.desk.engine.state.counters b).1
    (∃ v, (Desk.openWorld Fabric.engine.recorded slot w L.desk).1 = .ok v ∧
      L'.desk.views.find? slot = some v) ∧
    (∀ running, Fabric.world b L.desk.engine.state = .ok running →
      ViewState.worldOf (L'.viewIn slot) = .ok running ∧
        ViewState.startedRuntime (L'.viewIn slot) = false ∧ starts L' = starts L) ∧
    (L.desk.engine.state.isRunning b = false →
      (∃ begun, ViewState.worldOf (L'.viewIn slot) = .ok begun) ∧
        ViewState.startedRuntime (L'.viewIn slot) = true ∧ starts L' = starts L + 1) ∧
    (Set.InjOn f.supply (Set.Ico f.drawn L'.desk.engine.state.drawn) →
      (∀ found, ViewState.worldOf (L'.viewIn slot) = .ok found →
        (found.id = w.id ↔ Fabric.world b L.desk.engine.state = .ok w)) ∧
      (L.Joins slot w ↔ Fabric.world b L.desk.engine.state = .ok w)) := by
  intro L L' starts
  have hL : L.Sound .null := (Sound.fresh f defaultBackend).run Fabric.engine ops
  obtain ⟨hgrows, -, -, c, hcluster, hc⟩ := run_participant defaultBackend hb hops
  obtain ⟨hfresh, c₀, hcluster₀, hc₀⟩ := hb
  obtain ⟨n, hn, hknown⟩ := hw.acquainted
    ⟨_, Living.fresh hfresh hcluster₀ hc₀, fun m role hrole => nomatch hrole⟩ hops
  obtain rfl := hknown.backend
  obtain ⟨l, hopens⟩ := opens_world hL hn hcluster hc hknown.handle slot
  refine ⟨hopens.answer, fun _ => hopens.joins, fun hidle => ?_, fun hdistinct => ?_⟩
  · refine ⟨⟨_, hopens.world⟩, ?_, ?_⟩
    · rw [hopens.started, hidle]
      rfl
    · exact hopens.starts.trans (by rw [hidle]; rfl)
  · obtain ⟨f', n', hsince, hl, hgrows'⟩ := hopens.since
    rw [← hgrows.supply] at hdistinct
    have hfound : ∀ found, ViewState.worldOf (L'.viewIn slot) = .ok found →
        (found.id = w.id ↔ Fabric.world w.backend L.desk.engine.state = .ok w) := by
      intro found hfound
      cases hopens.world.symm.trans hfound
      rw [hopens.before]
      exact hknown.id_eq_iff hsince hl (hdistinct.mono (Set.Ico_subset_Ico_right hgrows'.drawn))
    refine ⟨hfound, ?_, fun hrunning => ?_⟩
    · rintro ⟨⟨found, hworld, hid⟩, -⟩
      exact (hfound found hworld).mp hid
    · obtain ⟨hworld, hattaches, hnothing⟩ := hopens.joins hrunning
      exact ⟨⟨w, hworld, rfl⟩, hattaches, hnothing⟩

/-- A participant of the trio looks at its world twice. -/
def lookedAt : List (ViewOp Fabric Comm) := [.openView ⟨1, "first"⟩ 1 [] .world]

/-- The second view is one of the world of the first. -/
theorem view_of_world_joins_living :
    idleTrio.HasParticipant 1 1 0 ∧ (∀ op ∈ lookedAt, op.Ordinary) ∧
      ∃ w, (fresh idleTrio 0).HandsOut 1 w lookedAt ∧
        let L := (fresh idleTrio 0).run Fabric.engine lookedAt
        Set.InjOn idleTrio.supply (Set.Ico idleTrio.drawn
          (L.step Fabric.engine (.openWorld ⟨1, "second"⟩ w)).desk.engine.state.drawn) ∧
          L.Joins ⟨1, "second"⟩ w := by
  have hb : idleTrio.HasParticipant 1 1 0 := ⟨rfl, JointCall.trio, rfl, JointCall.trio_reachable⟩
  have hops : ∀ op ∈ lookedAt, op.Ordinary := by
    intro op hop
    cases List.mem_singleton.mp hop
    exact nofun
  have hw : (fresh idleTrio 0).HandsOut 1 _ lookedAt :=
    .later (.viewed ⟨1, "first"⟩ (.alias 0) rfl rfl rfl)
  have hdistinct : Set.InjOn Fabric.counting (Set.Ico 0 1) := by
    rintro i ⟨-, hi⟩ j ⟨-, hj⟩ -
    omega
  refine ⟨hb, hops, _, hw, hdistinct, ?_⟩
  obtain ⟨-, -, -, hjoins⟩ := view_of_world_joins_iff idleTrio 1 0 1 0 hb lookedAt hops _ hw
    ⟨1, "second"⟩
  exact (hjoins hdistinct).2.mpr rfl

/-- A participant of the trio is started and stopped again. -/
def startedAndStopped : List (ViewOp Fabric Comm) :=
  [.meanwhile (Deed.call 1 (.start [])).after, .meanwhile (Deed.call 1 .stop).after]

/-- **A view of a world that is over** is one of another world, which it has started itself,
while the communicator of the first one refuses every collective. -/
theorem view_of_world_begins_another :
    (∀ op ∈ startedAndStopped, op.Ordinary) ∧ idleTrio.HasParticipant 1 1 0 ∧
      ∃ w, (fresh idleTrio 0).HandsOut 1 w startedAndStopped ∧
        let L := (fresh idleTrio 0).run Fabric.engine startedAndStopped
        let L' := L.step Fabric.engine (.openWorld ⟨1, "view"⟩ w)
        (Desk.openWorld Fabric.engine.recorded ⟨1, "view"⟩ w L.desk).1 = .ok (.alias 0) ∧
          ¬ L.Joins ⟨1, "view"⟩ w ∧
          (ViewState.worldOf (L'.viewIn ⟨1, "view"⟩)).map (·.id) = .ok (Fabric.counting 1) ∧
          w.id = Fabric.counting 0 ∧
          ViewState.startedRuntime (L'.viewIn ⟨1, "view"⟩) = true ∧
          L'.desk.engine.state.counters 1 = (2, 1) ∧
          w.comm.IsDead L.desk.engine.state := by
  refine ⟨?_, ⟨rfl, JointCall.trio, rfl, JointCall.trio_reachable⟩, _,
    .started [] true rfl, rfl, ?_, rfl, rfl, rfl, rfl, Comm.isDead_of_isAlive rfl⟩
  · simp only [startedAndStopped, List.forall_mem_cons, List.not_mem_nil, false_implies,
      implies_true, and_true]
    exact ⟨fun _ hop => ⟨.call 1 (.start []), (ViewOp.meanwhile.inj hop).symm⟩,
      fun _ hop => ⟨.call 1 .stop, (ViewOp.meanwhile.inj hop).symm⟩⟩
  · rintro ⟨-, hstarted, -⟩
    cases hstarted

end Ledger

end ClusterView
