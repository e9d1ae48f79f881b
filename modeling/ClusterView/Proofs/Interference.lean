import ClusterView.Proofs.Starters

/-!
# Interference with views

The application may start and stop a backend itself, besides its views. A view remembers that
its construction has brought the runtime up, but not which instance may be running by the time
it ends: if the application has stopped the first instance and somebody else has started
another one, then the view stops that one. So the end of a view may stop an instance that it
has not started.

What holds in any case is that only a view whose construction has brought the backend up stops
it (`Ledger.ended_starter`). The instance it stops is its own, as long as the application does
not stop an instance that a view has started (`Ledger.Considerate`).

## Sections
- §1: Calls of the application
- §2: What the application leaves alone
- §3: Which instance the end of a view stops
-/

namespace ClusterView

/-! ## §1 Calls of the application -/

/-- **Call** of a backend by the application itself. -/
inductive DirectCall where
  | start (backend : BackendId) (args : List String)
  | stop (backend : BackendId)

namespace DirectCall

/-- What a call does to the fabric, whatever it answers. -/
def change : DirectCall → Fabric → Fabric
  | .start backend args => fun f => (Fabric.start backend args f).2
  | .stop backend => fun f => (Fabric.stop backend f).2

end DirectCall

namespace Ledger

/-- **A considerate application** does not stop a backend while there is a starter of it. -/
def Considerate (b : BackendId) : Ledger Fabric Comm → List (ViewOp Fabric Comm) → Prop
  | _, [] => True
  | L, op :: rest =>
      (op = .meanwhile (DirectCall.stop b).change → ∀ m world, ¬ L.desk.Starter b m world) ∧
        Considerate b (L.step Fabric.engine op) rest

end Ledger

/-! ## §2 What the application leaves alone -/

section Calls

variable {b : BackendId} {n : Node} {f : Fabric} {L : Ledger Fabric Comm}
  {op : ViewOp Fabric Comm} {d d' : Desk (Recorded Fabric) Comm}

/-- A start attaches to a node that runs, and leaves it a node in any case. -/
theorem Fabric.HasNode.start (h : f.HasNode b n) (c : BackendId) (args : List String) :
    (Fabric.start c args f).2.HasNode b n ∨
      n.running = none ∧ ∃ n', (Fabric.start c args f).2.HasNode b n' := by
  by_cases hc : c = b
  · subst hc
    cases hrunning : n.running with
    | some life =>
      rw [h.start_running hrunning args]
      exact Or.inl h
    | none =>
      rcases h.start_idle hrunning args with ⟨e, hstart⟩ | ⟨life, f', hstart, hnode⟩
      · rw [hstart]
        exact Or.inl h
      · rw [hstart]
        exact Or.inr ⟨rfl, _, hnode⟩
  · exact Or.inl ((Fabric.start_of_ne hc).trans h)

theorem Fabric.HasNode.stop (h : f.HasNode b n) (c : BackendId) :
    (Fabric.stop c f).2.HasNode b n ∨ c = b ∧ (Fabric.stop c f).2.HasNode b n.halted := by
  by_cases hc : c = b
  · subst hc
    exact Or.inr ⟨rfl, h.stop_node⟩
  · exact Or.inl ((Fabric.stop_of_ne hc).trans h)

/-- A node stays a node. -/
theorem Fabric.HasNode.directCall (h : f.HasNode b n) (call : DirectCall) :
    ∃ n', (call.change f).HasNode b n' := by
  cases call with
  | start c args =>
    rcases h.start c args with hsame | ⟨-, hnew⟩
    · exact ⟨n, hsame⟩
    · exact hnew
  | stop c =>
    rcases h.stop c with hsame | ⟨-, hhalted⟩
    · exact ⟨n, hsame⟩
    · exact ⟨_, hhalted⟩

/-- **A call of a considerate application** leaves a node tended. -/
theorem Tended.directCall (h : Tended b n d) (call : DirectCall)
    (hengine : d'.engine.state = call.change d.engine.state)
    (hstarters : ∀ m world, d'.Starter b m world ↔ d.Starter b m world)
    (hconsiderate : call = .stop b → ∀ m world, ¬ d.Starter b m world) :
    ∃ n', Tended b n' d' := by
  have hnone : (∀ m world, ¬ d.Starter b m world) → ∀ m world, ¬ d'.Starter b m world := by
    simp [hstarters]
  cases call with
  | start c args =>
    rcases h.node.start c args with hsame | ⟨hidle, n', hnew⟩
    · exact ⟨n, h.congr (hengine ▸ hsame) hstarters⟩
    · exact ⟨n', .of_none (hengine ▸ hnew) (hnone (h.not_starter hidle))⟩
  | stop c =>
    rcases h.node.stop c with hsame | ⟨rfl, hhalted⟩
    · exact ⟨n, h.congr (hengine ▸ hsame) hstarters⟩
    · refine ⟨n.halted, .of_none ?_ (hnone (hconsiderate rfl))⟩
      rw [hengine]
      exact hhalted

theorem Tended.meets (h : Tended b n L.desk) (hmeets : L.Meets b n op d) :
    ∃ n', Tended b n' d := by
  cases hmeets with
  | kept hwatched hstarters hargs => exact ⟨n, h.congr hwatched.node hstarters⟩
  | undone life new hidle hwatched hstarters hargs =>
    refine ⟨_, .of_none hwatched.node ?_⟩
    simpa only [hstarters] using h.not_starter hidle
  | begun life new hidle hwatched hstarters hargs =>
    exact ⟨_, .of_begun hwatched.node (h.starter_begun hidle hstarters)⟩

theorem Tended.letGo (h : Tended b n d) (loose : View) :
    ∃ n', Tended b n' (d.letGo Fabric.engine.recorded loose) := by
  rcases Desk.letGo_node h.node loose with
    ⟨hwatched, hstarters⟩ | ⟨m, world, hwas, -, hwatched, hstarters⟩
  · exact ⟨n, h.congr hwatched.node hstarters⟩
  · exact ⟨_, .of_none hwatched.node (h.none_of_lost hwas hstarters)⟩

/-- **Step lemma**: operations on views and calls of a considerate application keep a node
tended. -/
theorem Tended.step (h : Tended b n L.desk) (hL : L.Sound .null)
    (hdirect : ∀ change, op = .meanwhile change → ∃ call : DirectCall, change = call.change)
    (hconsiderate : op = .meanwhile (DirectCall.stop b).change →
      ∀ m world, ¬ L.desk.Starter b m world) :
    ∃ n', Tended b n' (L.step Fabric.engine op).desk := by
  by_cases hop : ∃ change, op = .meanwhile change
  · obtain ⟨change, rfl⟩ := hop
    obtain ⟨call, rfl⟩ := hdirect change rfl
    exact h.directCall call rfl (fun _ _ => Iff.rfl) fun hcall => hconsiderate (by rw [hcall])
  · obtain ⟨d, loose, hstep, hdoes, -⟩ := L.step_does Fabric.engine op
    obtain ⟨n', h'⟩ := h.meets (hdoes.meets h.node hL.role?_nextState
      fun change hchange => absurd ⟨change, hchange⟩ hop)
    rw [hstep]
    exact h'.letGo loose

/-- A node stays a node, whatever the application does. -/
theorem Ledger.step_hasNode (h : L.desk.engine.state.HasNode b n) (hL : L.Sound .null)
    (hdirect : ∀ change, op = .meanwhile change → ∃ call : DirectCall, change = call.change) :
    ∃ n', (L.step Fabric.engine op).desk.engine.state.HasNode b n' := by
  by_cases hop : ∃ change, op = .meanwhile change
  · obtain ⟨change, rfl⟩ := hop
    obtain ⟨call, rfl⟩ := hdirect change rfl
    exact h.directCall call
  · obtain ⟨d, loose, hstep, hdoes, -⟩ := L.step_does Fabric.engine op
    have hmeets : L.Meets b n op d := hdoes.meets h hL.role?_nextState
      fun change hchange => absurd ⟨change, hchange⟩ hop
    have hnode : ∃ n', d.engine.state.HasNode b n' := by
      cases hmeets with
      | kept hwatched => exact ⟨_, hwatched.node⟩
      | undone life new hidle hwatched => exact ⟨_, hwatched.node⟩
      | begun life new hidle hwatched => exact ⟨_, hwatched.node⟩
    obtain ⟨n', hnode⟩ := hnode
    rw [hstep]
    rcases Desk.letGo_node hnode loose with ⟨hwatched, -⟩ | ⟨m, world, -, -, hwatched, -⟩
    · exact ⟨_, hwatched.node⟩
    · exact ⟨_, hwatched.node⟩

end Calls

/-! ## §3 Which instance the end of a view stops -/

namespace Ledger

section

variable {b : BackendId} {n : Node} {L : Ledger Fabric Comm} {op : ViewOp Fabric Comm}

/-- **Who stops an instance**: an operation on views after which an instance of a node does not
run any more has ended the last view of a state whose construction had brought the node up. -/
theorem ended_starter (hnode : L.desk.engine.state.HasNode b n) (hL : L.Sound .null)
    (hop : ∀ change, op ≠ .meanwhile change) {world : World Comm}
    (hbefore : Fabric.world b L.desk.engine.state = .ok world)
    (hafter : Fabric.world b (L.step Fabric.engine op).desk.engine.state ≠ .ok world) :
    ∃ m own, L.desk.Starter b m own ∧ (L.step Fabric.engine op).desk.role? m = none := by
  obtain ⟨life, hrunning, -⟩ := hnode.world_eq_ok.mp hbefore
  obtain ⟨d, loose, hstep, hdoes, -⟩ := L.step_does Fabric.engine op
  have hmeets : L.Meets b n op d := hdoes.meets hnode hL.role?_nextState
    fun change hchange => absurd hchange (hop change)
  rw [hstep] at hafter ⊢
  cases hmeets with
  | undone _ _ hidle _ _ _ | begun _ _ hidle _ _ _ =>
    rw [hrunning] at hidle
    cases hidle
  | kept hwatched hstarters _ =>
    -- up to here the instance still runs, so it is the view that is let go of which stops it
    rcases Desk.letGo_node hwatched.node loose with
      ⟨hstill, -⟩ | ⟨m, own, hwas, hgone, -, -⟩
    · exact absurd (hstill.node.world_eq_ok.mpr (hnode.world_eq_ok.mp hbefore)) hafter
    · exact ⟨m, own, (hstarters m own).mp hwas, hgone⟩

end

/-- Whatever the application calls, a node stays a node, and as long as it is considerate, the
node is tended. -/
theorem run_tended {b : BackendId} {n : Node} {L : Ledger Fabric Comm}
    (hnode : L.desk.engine.state.HasNode b n) (hL : L.Sound .null)
    (ops : List (ViewOp Fabric Comm))
    (hdirect : ∀ change, .meanwhile change ∈ ops → ∃ call : DirectCall, change = call.change) :
    (∃ n', (L.run Fabric.engine ops).desk.engine.state.HasNode b n') ∧
      (L.Considerate b ops → Tended b n L.desk →
        ∃ n', Tended b n' (L.run Fabric.engine ops).desk) := by
  induction ops generalizing n L with
  | nil => exact ⟨⟨n, hnode⟩, fun _ h => ⟨n, h⟩⟩
  | cons op rest ih =>
    have hhead : ∀ change, op = .meanwhile change → ∃ call : DirectCall, change = call.change :=
      fun change hop => hdirect change (hop ▸ List.mem_cons_self)
    have hrest : ∀ change, .meanwhile change ∈ rest →
        ∃ call : DirectCall, change = call.change :=
      fun change hmem => hdirect change (List.mem_cons_of_mem _ hmem)
    have hnext := (hL.step Fabric.engine op).1
    obtain ⟨n₁, h₁⟩ := step_hasNode hnode hL hhead
    refine ⟨(ih h₁ hnext hrest).1, fun hconsiderate h => ?_⟩
    obtain ⟨n₂, h₂⟩ := h.step hL hhead hconsiderate.1
    exact (ih h₂.node hnext hrest).2 hconsiderate.2 h₂

/-- **Whose instance a view stops**: in every mixture of operations on views with calls of the
application, an operation on views after which an instance of a node does not run any more has
ended the last view of a state whose construction had brought that node up. If the application
was considerate so far, then it had brought up this very instance; an instance that somebody
else has started goes on. -/
theorem stops_own_instance (f : Fabric) (b defaultBackend : BackendId) (rank cluster : Nat)
    (ops : List (ViewOp Fabric Comm)) (op : ViewOp Fabric Comm) (world : World Comm)
    (hnode : f.backends[b]? = some (.node (.fresh rank cluster)))
    (hdirect : ∀ change, .meanwhile change ∈ ops → ∃ call : DirectCall, change = call.change)
    (hop : ∀ change, op ≠ .meanwhile change) :
    let L := (fresh f defaultBackend : Ledger Fabric Comm).run Fabric.engine ops
    let L' := L.step Fabric.engine op
    Fabric.world b L.desk.engine.state = .ok world →
    Fabric.world b L'.desk.engine.state ≠ .ok world →
      ∃ m state, L.desk.states.lookup m = some state ∧ L'.desk.states.lookup m = none ∧
        state.started = true ∧ state.backend = b ∧
        ((fresh f defaultBackend : Ledger Fabric Comm).Considerate b ops →
          state.world = world) := by
  intro L L' hbefore hafter
  have hfresh : (fresh f defaultBackend : Ledger Fabric Comm).Sound .null := Sound.fresh _ _
  have hL : L.Sound .null := hfresh.run Fabric.engine ops
  have hinitial : (fresh f defaultBackend : Ledger Fabric Comm).desk.engine.state.HasNode b
      (.fresh rank cluster) := hnode
  obtain ⟨⟨n, hn⟩, htended⟩ := run_tended hinitial hfresh ops hdirect
  obtain ⟨m, own, hstarter, hgone⟩ := ended_starter hn hL hop hbefore hafter
  obtain ⟨state, hstate, hs, hb, hown⟩ := Desk.starter_iff.mp hstarter
  refine ⟨m, state, hstate, by simpa [Desk.role?] using hgone, hs, hb, fun hconsiderate => ?_⟩
  obtain ⟨n', h⟩ := htended hconsiderate (Driven.fresh hnode defaultBackend).tended
  -- the starter's world is the one that runs, and there is only one
  have hruns := h.node.world_eq_ok.mpr (h.starter m own hstarter)
  rw [hown]
  exact Except.ok.inj (hruns.symm.trans hbefore)

/-- The application starts the node and stops it again before a view starts it. -/
def considerateUse : List (ViewOp Fabric Comm) :=
  [.meanwhile (DirectCall.start 0 ["-a"]).change, .meanwhile (DirectCall.stop 0).change,
    .openView ⟨0, "first"⟩ 0 ["-b"] .world, .copy ⟨0, "first"⟩ ⟨0, "second"⟩,
    .drop ⟨0, "first"⟩]

theorem stops_own_instance_considerate :
    pairFabric.backends[0]? = some (.node (.fresh 0 0)) ∧
      (∀ change, .meanwhile change ∈ considerateUse →
        ∃ call : DirectCall, change = call.change) ∧
      (fresh pairFabric 0 : Ledger Fabric Comm).Considerate 0 considerateUse ∧
      ∃ world m state,
        ((fresh pairFabric 0 : Ledger Fabric Comm).run Fabric.engine
          considerateUse).desk.states.lookup m = some state ∧
        state.world = world ∧ world.id = Fabric.counting 1 := by
  have hnode : pairFabric.backends[0]? = some (.node (.fresh 0 0)) := rfl
  have hdirect : ∀ change, .meanwhile change ∈ considerateUse →
      ∃ call : DirectCall, change = call.change := by
    intro change hmem
    simp only [considerateUse, List.mem_cons, ViewOp.meanwhile.injEq, reduceCtorEq, List.not_mem_nil,
      or_false] at hmem
    rcases hmem with rfl | rfl
    · exact ⟨_, rfl⟩
    · exact ⟨_, rfl⟩
  have hconsiderate : (fresh pairFabric 0 : Ledger Fabric Comm).Considerate 0 considerateUse := by
    -- when the application stops the node, there is no view yet
    refine ⟨fun _ m world => ?_, fun _ m world => ?_, nofun, nofun, nofun, trivial⟩
    · exact nofun
    · exact nofun
  obtain ⟨world, hbefore, hid⟩ : ∃ world, Fabric.world 0 ((fresh pairFabric 0 : Ledger Fabric
      Comm).run Fabric.engine considerateUse).desk.engine.state = .ok world ∧
        world.id = Fabric.counting 1 := ⟨_, rfl, rfl⟩
  have hafter : Fabric.world 0 (((fresh pairFabric 0 : Ledger Fabric Comm).run Fabric.engine
      considerateUse).step Fabric.engine (.drop ⟨0, "second"⟩)).desk.engine.state ≠ .ok world :=
    nofun
  obtain ⟨m, state, hstate, -, -, -, hown⟩ := stops_own_instance pairFabric 0 0 0 0 considerateUse
    (.drop ⟨0, "second"⟩) world hnode hdirect nofun hbefore hafter
  exact ⟨hnode, hdirect, hconsiderate, world, m, state, hstate, hown hconsiderate, hid⟩

/-- The application stops the instance that the first view has started, and the second view
starts another one. -/
def inconsiderateUse : List (ViewOp Fabric Comm) :=
  [.openView ⟨0, "first"⟩ 0 [] .world, .meanwhile (DirectCall.stop 0).change,
    .openView ⟨0, "second"⟩ 0 [] .world]

/-- **The instance of another view is stopped**: dropping the first view after an inconsiderate
call stops the instance that the second view has started, and not the one that the first view
has started. -/
theorem drop_stops_another :
    ∃ (world : World Comm) (m m' : Nat) (state state' : ViewState Comm),
      let L := (fresh pairFabric 0 : Ledger Fabric Comm).run Fabric.engine inconsiderateUse
      let L' := L.step Fabric.engine (.drop ⟨0, "first"⟩)
      Fabric.world 0 L.desk.engine.state = .ok world ∧
      Fabric.world 0 L'.desk.engine.state ≠ .ok world ∧
      L.desk.views.find? ⟨0, "first"⟩ = some (.alias m) ∧
      L.desk.states.lookup m = some state ∧ L'.desk.states.lookup m = none ∧
      state.world.id ≠ world.id ∧
      L'.desk.views.find? ⟨0, "second"⟩ = some (.alias m') ∧
      L'.desk.states.lookup m' = some state' ∧ state'.started = true ∧
      state'.world = world := by
  refine ⟨_, _, _, _, _, rfl, nofun, rfl, rfl, rfl, ?_, rfl, rfl, rfl, rfl⟩
  decide

end Ledger

end ClusterView
