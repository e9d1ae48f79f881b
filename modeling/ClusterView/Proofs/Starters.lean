import ClusterView.Fabric
import ClusterView.Proofs.Conduct

/-!
# Starters of a node

A node of the fabric runs exactly while its starter lives, as long as it is started and
stopped by views only. Constructions on a running node attach to it, so a node has one
starter at most, and the world of that starter is the one that runs; when the starter ends,
it finds the node running and stops it.

What an operation means for one node is said once (`Ledger.Meets`, `Desk.letGo_node`), and
the invariant of a run is read off from that (`Driven`).

## Sections
- §1: One node of a fabric
- §2: What a construction means for a node
- §3: What an operation means for a node
- §4: Nodes driven by views
- §5: Whole runs
-/

namespace ClusterView

/-! ## §1 One node of a fabric -/

/-- The world that a life of the node at a backend spans. -/
def Life.world (life : Life) (b : BackendId) : World Comm := ⟨life.id, .ofGroup life.comm, b⟩

/-- The node after a stop: the life that goes on ends, if there is one. -/
def Node.halted (n : Node) : Node :=
  match n.running with
  | some life => n.finish life
  | none => n

@[simp] theorem Node.running_finish (n : Node) (life : Life) : (n.finish life).running = none :=
  rfl

namespace Fabric

/-- The backend is a node, in this state. -/
def HasNode (b : BackendId) (n : Node) (f : Fabric) : Prop := f.backends[b]? = some (.node n)

section

variable {b c : BackendId} {n : Node} {f : Fabric} {args : List String} {life : Life}

/-- The world of a node is that of the life that goes on. -/
theorem HasNode.world_eq_ok (h : f.HasNode b n) {world : World Comm} :
    Fabric.world b f = .ok world ↔ ∃ life, n.running = some life ∧ world = life.world b := by
  simp only [Fabric.world, show f.backends[b]? = some (.node n) from h]
  cases n.running with
  | none => simp
  | some life => simp [Life.world, eq_comm]

theorem HasNode.isRunning_eq (h : f.HasNode b n) : f.isRunning b = n.running.isSome := by
  rw [Fabric.isRunning, show f.backends[b]? = some (.node n) from h]

/-- Another backend in the place of the node. -/
theorem HasNode.setBackend (h : f.HasNode b n) (m : Node) :
    (f.setBackend b (.node m)).HasNode b m := by
  obtain ⟨hlt, -⟩ := List.getElem?_eq_some_iff.mp h
  simp [HasNode, Fabric.setBackend, hlt]

theorem backends_setBackend_ne (hc : c ≠ b) (backend : Backend) (f : Fabric) :
    (f.setBackend c backend).backends[b]? = f.backends[b]? := by
  simp [setBackend, hc]

/-- A running node is attached to. -/
theorem HasNode.start_running (h : f.HasNode b n) (hrunning : n.running = some life)
    (args : List String) : Fabric.start b args f = (.ok ⟨life.world b, false⟩, f) := by
  simp only [Fabric.start, show f.backends[b]? = some (.node n) from h, startNode, hrunning]
  rfl

/-- A node that does not run begins a life, or the start fails and changes nothing. -/
theorem HasNode.start_idle (h : f.HasNode b n) (hidle : n.running = none)
    (args : List String) : (∃ e, Fabric.start b args f = (.error e, f)) ∨
      ∃ life f', Fabric.start b args f = (.ok ⟨life.world b, true⟩, f') ∧
        f'.HasNode b (n.begin life args) := by
  simp only [Fabric.start, show f.backends[b]? = some (.node n) from h, startNode, hidle]
  cases f.clusters[n.cluster]? with
  | none => exact Or.inl ⟨_, rfl⟩
  | some cluster =>
    dsimp only
    cases cluster.group .world with
    | error e => exact Or.inl ⟨_, rfl⟩
    | ok found =>
      obtain ⟨number, group⟩ := found
      exact Or.inr ⟨_, _, rfl, h.setBackend _⟩

/-- A start elsewhere leaves a backend alone. -/
theorem start_of_ne (hc : c ≠ b) : (start c args f).2.backends[b]? = f.backends[b]? := by
  unfold start
  cases f.backends[c]? with
  | none => rfl
  | some backend =>
    cases backend with
    | scripted s =>
      simp only [startScripted]
      cases ((s.record (.start args)).start f.nextId).1 <;> exact backends_setBackend_ne hc _ f
    | node n =>
      simp only [startNode]
      cases n.running with
      | some life => rfl
      | none =>
        cases f.clusters[n.cluster]? with
        | none => rfl
        | some cluster =>
          dsimp only
          cases cluster.group .world with
          | error e => rfl
          | ok found => exact backends_setBackend_ne hc _ f

/-- A stop succeeds if and only if the node runs. -/
theorem HasNode.stop_running (h : f.HasNode b n) (hrunning : n.running = some life) :
    ∃ f', Fabric.stop b f = (.ok (), f') ∧ f'.HasNode b (n.finish life) := by
  simp only [Fabric.stop, show f.backends[b]? = some (.node n) from h, hrunning]
  exact ⟨_, rfl, h.setBackend _⟩

theorem HasNode.stop_idle (h : f.HasNode b n) (hidle : n.running = none) :
    Fabric.stop b f = (.error .notRunning, f) := by
  simp only [Fabric.stop, show f.backends[b]? = some (.node n) from h, hidle]

theorem HasNode.stop_node (h : f.HasNode b n) : (Fabric.stop b f).2.HasNode b n.halted := by
  unfold Node.halted
  cases hrunning : n.running with
  | none =>
    rw [h.stop_idle hrunning]
    exact h
  | some life =>
    obtain ⟨f', hstop, hnode⟩ := h.stop_running hrunning
    rw [hstop]
    exact hnode

theorem stop_of_ne (hc : c ≠ b) : (stop c f).2.backends[b]? = f.backends[b]? := by
  unfold stop
  cases f.backends[c]? with
  | none => rfl
  | some backend =>
    cases backend with
    | scripted s => exact backends_setBackend_ne hc _ f
    | node n =>
      dsimp only
      cases n.running with
      | none => rfl
      | some life => exact backends_setBackend_ne hc _ f

/-- A scripted backend is not in the place of a node. -/
theorem HasNode.ne_of_scripted (h : f.HasNode b n) {s : Scripted}
    (hc : f.backends[c]? = some (.scripted s)) : c ≠ b := by
  rintro rfl
  rw [show f.backends[c]? = some (.node n) from h] at hc
  cases hc

theorem HasNode.recordRequest (h : f.HasNode b n) (c : BackendId) (request : Request) :
    (f.recordRequest c request).HasNode b n := by
  unfold Fabric.recordRequest
  split
  · rename_i hc
    exact (backends_setBackend_ne (h.ne_of_scripted hc) _ f).trans h
  · exact h

theorem HasNode.communicator (h : f.HasNode b n) (c : BackendId) (handle : CommHandle) :
    (Fabric.communicator c handle f).2.HasNode b n := by
  unfold Fabric.communicator
  cases hc : f.backends[c]? with
  | none => exact h
  | some backend =>
    cases backend with
    | node _ => exact h
    | scripted s => exact (backends_setBackend_ne (h.ne_of_scripted hc) _ f).trans h

theorem HasNode.memoryOf (h : f.HasNode b n) (comm : Comm) (rank : Nat) :
    (comm.memoryOf rank f).2.HasNode b n := by
  cases comm with
  | ofGroup c => exact h
  | scripted c => exact h.recordRequest c.backend _

end

end Fabric

/-! ## §2 What a construction means for a node -/

/-- **A node under watch**: the state it is in, and how many stops were asked of it. -/
structure Watched (b : BackendId) (n : Node) (asked : Nat) (r : Recorded Fabric) : Prop where
  node : r.state.HasNode b n
  asked : (Act.stops r.acts).count b = asked

section Watching

variable {b c : BackendId} {n : Node} {asked : Nat} {r : Recorded Fabric}

/-- Reports and questions leave a node alone. -/
theorem Watched.steady (b : BackendId) (n : Node) (asked : Nat) :
    Fabric.engine.recorded.Steady (Watched b n asked) := by
  constructor
  case report =>
    intro event r h
    refine ⟨h.node, ?_⟩
    show (Act.stops (r.acts ++ [.report event])).count b = asked
    simpa using h.asked
  case communicator => exact fun c handle r h => ⟨h.node.communicator c handle, h.asked⟩
  case memoryOf => exact fun comm rank r h => ⟨h.node.memoryOf comm rank, h.asked⟩

/-- A release of another backend leaves the node alone. -/
theorem Watched.release_of_ne (h : Watched b n asked r) (hc : c ≠ b) (started : Bool)
    (world : World Comm) :
    Watched b n asked (ViewState.release Fabric.engine.recorded started world c r).2 := by
  cases started with
  | false => exact h
  | true =>
    have hstop : Watched b n asked (Fabric.engine.recorded.stop c r).2 := by
      refine ⟨(Fabric.stop_of_ne hc).trans h.node, ?_⟩
      show (Act.stops (r.acts ++ [.stop c])).count b = asked
      simpa [List.count_cons, hc] using h.asked
    obtain ⟨event, hrelease⟩ := ViewState.release_started Fabric.engine.recorded world c r
    rw [hrelease]
    exact (Watched.steady b n asked).report event _ hstop

/-- A release by somebody who has started the node asks it to stop. -/
theorem Watched.release_started (h : Watched b n asked r) (world : World Comm) :
    Watched b n.halted (asked + 1)
      (ViewState.release Fabric.engine.recorded true world b r).2 := by
  have hstop : Watched b n.halted (asked + 1) (Fabric.engine.recorded.stop b r).2 := by
    refine ⟨h.node.stop_node, ?_⟩
    show (Act.stops (r.acts ++ [.stop b])).count b = asked + 1
    simpa using h.asked
  obtain ⟨event, hrelease⟩ := ViewState.release_started Fabric.engine.recorded world b r
  rw [hrelease]
  exact (Watched.steady b n.halted (asked + 1)).report event _ hstop

/-- Has a start with some arguments brought the node up? -/
def Begins (b : BackendId) (r : Recorded Fabric) (c : BackendId) (args : List String) : Prop :=
  c = b ∧ Fabric.engine.startAnswer c args r.state = some true

instance (b : BackendId) (r : Recorded Fabric) (c : BackendId) (args : List String) :
    Decidable (Begins b r c args) :=
  inferInstanceAs (Decidable (_ ∧ _))

/-- **A construction as a node sees it**: it is none of the node's business, or it attaches to
the node, or it begins a life, which ends at once if the construction fails. -/
inductive Constructed (b : BackendId) (n : Node) (asked : Nat) (r : Recorded Fabric)
    (c : BackendId) (args : List String) :
    Except ViewError (ViewState Comm) × Recorded Fabric → Prop where
  | kept {answer : Except ViewError (ViewState Comm)} {r' : Recorded Fabric}
      (hbegins : ¬ Begins b r c args) (hwatched : Watched b n asked r')
      (hstate : ∀ state, answer = .ok state → state.started = true → state.backend ≠ b) :
      Constructed b n asked r c args (answer, r')
  | undone {e : ViewError} {r' : Recorded Fabric} (life : Life) (hbegins : Begins b r c args)
      (hidle : n.running = none)
      (hwatched : Watched b ((n.begin life args).finish life) (asked + 1) r') :
      Constructed b n asked r c args (.error e, r')
  | begun {state : ViewState Comm} {r' : Recorded Fabric} (life : Life)
      (hbegins : Begins b r c args) (hidle : n.running = none)
      (hrole : state.role = ⟨true, b, life.world b⟩)
      (hwatched : Watched b (n.begin life args) asked r') :
      Constructed b n asked r c args (.ok state, r')

/-- A construction whose start leaves the node alone, and does not count as the node's. -/
theorem Watched.construct_elsewhere {c : BackendId} {args : List String} {r₁ : Recorded Fabric}
    {startup : Startup Comm}
    (hstart : Fabric.engine.recorded.start c args r = (.ok startup, r₁))
    (h : Watched b n asked r₁) (hother : startup.started = true → c ≠ b)
    (hbegins : ¬ Begins b r c args) (handle : CommHandle) :
    Constructed b n asked r c args
      (ViewState.construct Fabric.engine.recorded c args handle r) := by
  rcases ViewState.construct_of_start_ok hstart (Watched.steady b n asked) h with
    ⟨e, r₂, h₂, hcall⟩ | ⟨state, r₂, h₂, hcall, hstarted, hbackend, -⟩
  · rw [hcall]
    refine .kept hbegins ?_ fun state hstate => nomatch hstate
    cases hs : startup.started with
    | false => exact h₂
    | true => exact h₂.release_of_ne (hother hs) true _
  · rw [hcall]
    refine .kept hbegins h₂ fun state' hstate hs => ?_
    cases hstate
    rw [hbackend]
    exact hother (hstarted ▸ hs)

/-- A construction on the node itself attaches to it or begins a life. -/
theorem Watched.construct_self (h : Watched b n asked r) (args : List String)
    (handle : CommHandle) :
    Constructed b n asked r b args
      (ViewState.construct Fabric.engine.recorded b args handle r) := by
  have hrecorded : Fabric.engine.recorded.start b args r =
      ((Fabric.start b args r.state).1, ⟨(Fabric.start b args r.state).2, r.acts⟩) := rfl
  have hanswer : ∀ out, Fabric.start b args r.state = out →
      Fabric.engine.startAnswer b args r.state = out.1.toOption.map (·.started) := by
    rintro out hout
    rw [Engine.startAnswer, show Fabric.engine.start b args r.state = out from hout]
    cases out.1 <;> rfl
  cases hrunning : n.running with
  | some life =>
    have hstart := h.node.start_running hrunning args
    rw [hstart] at hrecorded
    refine Watched.construct_elsewhere hrecorded h (fun hs => nomatch hs) ?_ handle
    rintro ⟨-, hbegins⟩
    rw [hanswer _ hstart] at hbegins
    cases hbegins
  | none =>
    rcases h.node.start_idle hrunning args with
      ⟨e, hstart⟩ | ⟨life, f', hstart, hnode⟩
    · rw [hstart] at hrecorded
      rw [ViewState.construct_of_start_error hrecorded]
      refine .kept ?_ h fun state hstate => nomatch hstate
      rintro ⟨-, hbegins⟩
      rw [hanswer _ hstart] at hbegins
      cases hbegins
    · rw [hstart] at hrecorded
      have hbegins : Begins b r b args := ⟨rfl, hanswer _ hstart⟩
      have h₁ : Watched b (n.begin life args) asked ⟨f', r.acts⟩ := ⟨hnode, h.asked⟩
      rcases ViewState.construct_of_start_ok hrecorded (Watched.steady b _ asked) h₁ with
        ⟨e, r₂, h₂, hcall⟩ | ⟨state, r₂, h₂, hcall, hstarted, hbackend, hworld⟩
      · rw [hcall]
        exact .undone life hbegins hrunning (h₂.release_started _)
      · rw [hcall]
        refine .begun life hbegins hrunning ?_ h₂
        rw [ViewState.role, hstarted, hbackend, hworld]

/-- **Every construction** is one of these, whatever backend it asks. -/
theorem Watched.construct (h : Watched b n asked r) (c : BackendId) (args : List String)
    (handle : CommHandle) :
    Constructed b n asked r c args
      (ViewState.construct Fabric.engine.recorded c args handle r) := by
  by_cases hc : c = b
  · rw [hc]
    exact h.construct_self args handle
  · have h₁ : Watched b n asked (Fabric.engine.recorded.start c args r).2 :=
      ⟨(Fabric.start_of_ne hc).trans h.node, h.asked⟩
    generalize hstart : Fabric.engine.recorded.start c args r = out at h₁
    obtain ⟨answer, r₁⟩ := out
    have hbegins : ¬ Begins b r c args := fun hbegins => hc hbegins.1
    cases answer with
    | error e =>
      rw [ViewState.construct_of_start_error hstart]
      exact .kept hbegins h₁ fun state hstate => nomatch hstate
    | ok startup => exact Watched.construct_elsewhere hstart h₁ (fun _ => hc) hbegins handle

end Watching

/-! ## §3 What an operation means for a node -/

/-- How often a backend was asked to stop. -/
def Desk.asked (d : Desk (Recorded Fabric) Comm) (b : BackendId) : Nat :=
  (Act.stops d.engine.acts).count b

namespace Ledger

variable {b : BackendId} {n : Node} {L : Ledger Fabric Comm} {op : ViewOp Fabric Comm}
  {d : Desk (Recorded Fabric) Comm} {loose : View}

/-- **The arguments that a backend's runtime was brought up with** by an operation, if it was,
or else those from before. -/
def argsAfter (L : Ledger Fabric Comm) (b : BackendId) (op : ViewOp Fabric Comm)
    (args : List String) : List String :=
  match L.request? Fabric.engine op with
  | some (c, new, _) => if Begins b L.desk.engine c new then new else args
  | none => args

/-- **What an operation means for a node** before it lets go of a view: nothing, or a new life
that gets a starter, or one that ends at once. -/
inductive Meets (b : BackendId) (n : Node) (L : Ledger Fabric Comm)
    (op : ViewOp Fabric Comm) (d : Desk (Recorded Fabric) Comm) : Prop where
  | kept (hwatched : Watched b n (L.desk.asked b) d.engine)
      (hstarters : ∀ m world, d.Starter b m world ↔ L.desk.Starter b m world)
      (hargs : ∀ args, L.argsAfter b op args = args)
  | undone (life : Life) (new : List String) (hidle : n.running = none)
      (hwatched : Watched b ((n.begin life new).finish life) (L.desk.asked b + 1) d.engine)
      (hstarters : ∀ m world, d.Starter b m world ↔ L.desk.Starter b m world)
      (hargs : ∀ args, L.argsAfter b op args = new)
  | begun (life : Life) (new : List String) (hidle : n.running = none)
      (hwatched : Watched b (n.begin life new) (L.desk.asked b) d.engine)
      (hstarters : ∀ m world, d.Starter b m world ↔
        if m = L.desk.nextState then world = life.world b else L.desk.Starter b m world)
      (hargs : ∀ args, L.argsAfter b op args = new)

/-- **Every operation** is one of these for a node, unless it changes the node from outside. -/
theorem Does.meets (hdoes : L.Does Fabric.engine op d)
    (hnode : L.desk.engine.state.HasNode b n) (hnew : L.desk.role? L.desk.nextState = none)
    (hchange : ∀ change, op = .meanwhile change →
      (change L.desk.engine.state).HasNode b n) : L.Meets b n op d := by
  have h : Watched b n (L.desk.asked b) L.desk.engine := ⟨hnode, rfl⟩
  have hsame : (∀ n, d.role? n = L.desk.role? n) →
      ∀ m world, d.Starter b m world ↔ L.desk.Starter b m world := by
    intro hroles m world
    rw [Desk.Starter, hroles]
    rfl
  cases hdoes with
  | moved hengine hroles hrequest =>
    exact .kept (hengine ▸ h) (hsame hroles) fun args => by simp [argsAfter, hrequest]
  | changed change hop hengine hroles =>
    subst hop
    refine .kept ?_ (hsame hroles) fun args => rfl
    rw [hengine]
    exact ⟨hchange change rfl, rfl⟩
  | failed c new handle e hrequest hcall hroles =>
    have hmade := h.construct c new handle
    rw [hcall] at hmade
    cases hmade with
    | kept hbegins hwatched hstate =>
      exact .kept hwatched (hsame hroles) fun args => by simp [argsAfter, hrequest, hbegins]
    | undone life hbegins hidle hwatched =>
      exact .undone life new hidle hwatched (hsame hroles) fun args => by
        simp [argsAfter, hrequest, hbegins]
  | opened c new handle state hrequest hcall hroles =>
    have hmade := h.construct c new handle
    rw [hcall] at hmade
    cases hmade with
    | kept hbegins hwatched hstate =>
      refine .kept hwatched (fun m world => ?_) fun args => by simp [argsAfter, hrequest, hbegins]
      -- the new state has not started this node
      have hother : state.role ≠ ⟨true, b, world⟩ := by
        intro hrole
        injection hrole with hstarted hbackend
        exact hstate state rfl hstarted hbackend
      rw [Desk.Starter, hroles]
      by_cases hm : m = L.desk.nextState
      · simp [hm, Desk.Starter, hnew, hother]
      · simp [hm, Desk.Starter]
    | begun life hbegins hidle hrole hwatched =>
      refine .begun life new hidle hwatched (fun m world => ?_) fun args => by
        simp [argsAfter, hrequest, hbegins]
      rw [Desk.Starter, hroles]
      by_cases hm : m = L.desk.nextState
      · simp [hm, hrole, eq_comm]
      · simp [hm, Desk.Starter]

end Ledger

/-- **Letting go of a view** is nothing to a node, unless the view was the last of a starter of
it: then the node is asked to stop. -/
theorem Desk.letGo_node {b : BackendId} {n : Node} {d : Desk (Recorded Fabric) Comm}
    (hnode : d.engine.state.HasNode b n) (loose : View) :
    (Watched b n (d.asked b) (d.letGo Fabric.engine.recorded loose).engine ∧
        ∀ m world, (d.letGo Fabric.engine.recorded loose).Starter b m world ↔
          d.Starter b m world) ∨
      ∃ m world, d.Starter b m world ∧ (d.letGo Fabric.engine.recorded loose).role? m = none ∧
        Watched b n.halted (d.asked b + 1) (d.letGo Fabric.engine.recorded loose).engine ∧
        ∀ m' world', (d.letGo Fabric.engine.recorded loose).Starter b m' world' ↔
          m' ≠ m ∧ d.Starter b m' world' := by
  have h : Watched b n (d.asked b) d.engine := ⟨hnode, rfl⟩
  rcases Desk.letGo_cases Fabric.engine.recorded d loose with
    hsame | ⟨m, state, -, hstate, hengine, hroles⟩
  · rw [hsame]
    exact Or.inl ⟨h, fun _ _ => Iff.rfl⟩
  · have hrole : d.role? m = some state.role := by rw [Desk.role?, hstate]; rfl
    have hstarters : ∀ m' world', (d.letGo Fabric.engine.recorded loose).Starter b m' world' ↔
        m' ≠ m ∧ d.Starter b m' world' := by
      intro m' world'
      rw [Desk.Starter, hroles]
      by_cases hm : m' = m
      · simp [hm]
      · simp [hm, Desk.Starter]
    obtain ⟨r, h₁, hteardown⟩ := ViewState.teardown_engine (Watched.steady b n _) state d.output h
    rw [hteardown] at hengine
    by_cases hstarter : state.started = true ∧ state.backend = b
    · obtain ⟨hstarted, hbackend⟩ := hstarter
      refine Or.inr ⟨m, state.world, ?_, ?_, ?_, hstarters⟩
      · rw [Desk.Starter, hrole, ViewState.role, hstarted, hbackend]
      · rw [hroles, if_pos rfl]
      · rw [hengine, hstarted, hbackend]
        exact h₁.release_started _
    · refine Or.inl ⟨?_, fun m' world' => ?_⟩
      · rw [hengine]
        cases hs : state.started with
        | false => exact h₁
        | true => exact h₁.release_of_ne (fun hb => hstarter ⟨hs, hb⟩) true _
      · -- the state that is gone was no starter of this node
        rw [hstarters]
        refine and_iff_right_of_imp ?_
        rintro hwas rfl
        rw [Desk.Starter, hrole, Option.some.injEq] at hwas
        injection hwas with hstarted hbackend
        exact hstarter ⟨hstarted, hbackend⟩

/-! ## §4 Nodes driven by views -/

/-- **A tended node** runs as long as it has a starter, in the world of that starter, and has
one starter at most. -/
structure Tended (b : BackendId) (n : Node) (d : Desk (Recorded Fabric) Comm) : Prop where
  node : d.engine.state.HasNode b n
  starter : ∀ m world, d.Starter b m world → ∃ life, n.running = some life ∧
    world = life.world b
  single : ∀ m world m' world', d.Starter b m world → d.Starter b m' world' → m' = m

/-- **A node driven by views** is tended, and it runs only as long as it has a starter. Every
stop that was asked of it has succeeded, and so has stopped what a start had begun. -/
structure Driven (b : BackendId) (n : Node) (args : List String)
    (d : Desk (Recorded Fabric) Comm) : Prop where
  tended : Tended b n d
  running : n.running.isSome → ∃ m world, d.Starter b m world
  starts : n.starts = n.stops + if n.running.isSome then 1 else 0
  args : n.lastArgs = args
  stops : n.stops = d.asked b

section Driving

variable {b : BackendId} {n : Node} {args : List String} {L : Ledger Fabric Comm}
  {op : ViewOp Fabric Comm} {d d' : Desk (Recorded Fabric) Comm}

theorem Tended.congr (h : Tended b n d) (hnode : d'.engine.state.HasNode b n)
    (hstarters : ∀ m world, d'.Starter b m world ↔ d.Starter b m world) : Tended b n d' := by
  refine ⟨hnode, ?_, ?_⟩
  · simpa only [hstarters] using h.starter
  · simpa only [hstarters] using h.single

theorem Tended.of_none (hnode : d.engine.state.HasNode b n)
    (hnone : ∀ m world, ¬ d.Starter b m world) : Tended b n d :=
  ⟨hnode, fun m world h => absurd h (hnone m world), fun m world _ _ h => absurd h (hnone m world)⟩

/-- A node that does not run has no starter. -/
theorem Tended.not_starter (h : Tended b n d) (hidle : n.running = none) (m : Nat)
    (world : World Comm) : ¬ d.Starter b m world := by
  intro hstarter
  obtain ⟨life, hrunning, -⟩ := h.starter m world hstarter
  rw [hidle] at hrunning
  cases hrunning

/-- The first starter of a new life. -/
theorem Tended.of_begun {life : Life} {new : List String} {m₀ : Nat}
    (hnode : d.engine.state.HasNode b (n.begin life new))
    (hstarters : ∀ m world, d.Starter b m world ↔ m = m₀ ∧ world = life.world b) :
    Tended b (n.begin life new) d := by
  refine ⟨hnode, fun m world h => ⟨life, rfl, ((hstarters m world).mp h).2⟩, ?_⟩
  intro m world m' world' h h'
  rw [((hstarters m world).mp h).1, ((hstarters m' world').mp h').1]

/-- A node has no starter left once its starter has ended. -/
theorem Tended.none_of_lost (h : Tended b n d) {m : Nat} {world : World Comm}
    (hwas : d.Starter b m world)
    (hstarters : ∀ m' world', d'.Starter b m' world' ↔ m' ≠ m ∧ d.Starter b m' world')
    (m' : Nat) (world' : World Comm) : ¬ d'.Starter b m' world' := by
  rw [hstarters]
  rintro ⟨hne, hstill⟩
  exact hne (h.single m world m' world' hwas hstill)

/-- What a new life has for a starter, if there was none before. -/
theorem Tended.starter_begun (h : Tended b n L.desk) (hidle : n.running = none) {life : Life}
    (hstarters : ∀ m world, d.Starter b m world ↔
      if m = L.desk.nextState then world = life.world b else L.desk.Starter b m world)
    (m : Nat) (world : World Comm) :
    d.Starter b m world ↔ m = L.desk.nextState ∧ world = life.world b := by
  rw [hstarters]
  by_cases hm : m = L.desk.nextState
  · simp [hm]
  · simp [hm, h.not_starter hidle]

theorem Driven.meets (h : Driven b n args L.desk) (hmeets : L.Meets b n op d) :
    ∃ n', Driven b n' (L.argsAfter b op args) d := by
  cases hmeets with
  | kept hwatched hstarters hargs =>
    refine ⟨n, h.tended.congr hwatched.node hstarters, ?_, h.starts, ?_, ?_⟩
    · simpa only [hstarters] using h.running
    · rw [hargs, h.args]
    · rw [h.stops]
      exact hwatched.asked.symm
  | undone life new hidle hwatched hstarters hargs =>
    have hnone : ∀ m world, ¬ d.Starter b m world := by
      simpa only [hstarters] using h.tended.not_starter hidle
    have hstarts := h.starts
    refine ⟨_, .of_none hwatched.node hnone, ?_, ?_, ?_, ?_⟩
    · simp
    · simp_all [Node.begin, Node.finish]
    · rw [hargs]
      rfl
    · rw [Desk.asked, hwatched.asked, ← h.stops]
      rfl
  | begun life new hidle hwatched hstarters hargs =>
    have hiff := h.tended.starter_begun hidle hstarters
    have hstarts := h.starts
    refine ⟨_, .of_begun hwatched.node hiff, ?_, ?_, ?_, ?_⟩
    · exact fun _ => ⟨_, _, (hiff _ _).mpr ⟨rfl, rfl⟩⟩
    · simp_all [Node.begin]
    · rw [hargs]
      rfl
    · rw [Desk.asked, hwatched.asked, ← h.stops]
      rfl

theorem Driven.letGo (h : Driven b n args d) (loose : View) :
    ∃ n', Driven b n' args (d.letGo Fabric.engine.recorded loose) := by
  rcases Desk.letGo_node h.tended.node loose with
    ⟨hwatched, hstarters⟩ | ⟨m, world, hwas, -, hwatched, hstarters⟩
  · refine ⟨n, h.tended.congr hwatched.node hstarters, ?_, h.starts, h.args, ?_⟩
    · simpa only [hstarters] using h.running
    · rw [h.stops]
      exact hwatched.asked.symm
  · -- the only starter has ended, and it finds the node running
    obtain ⟨life, hrunning, -⟩ := h.tended.starter m world hwas
    have hhalted : n.halted = n.finish life := by simp [Node.halted, hrunning]
    have hnone := h.tended.none_of_lost hwas hstarters
    have hstarts := h.starts
    rw [hhalted] at hwatched
    refine ⟨_, .of_none hwatched.node hnone, ?_, ?_, h.args, ?_⟩
    · simp
    · simp_all [Node.finish]
    · rw [Desk.asked, hwatched.asked, ← h.stops]
      rfl

/-- **Step lemma**: an operation on views keeps a node driven, with the arguments that it was
started with last. -/
theorem Driven.step (h : Driven b n args L.desk) (hL : L.Sound .null)
    (hchange : ∀ change, op = .meanwhile change →
      (change L.desk.engine.state).backends[b]? = L.desk.engine.state.backends[b]?) :
    ∃ n', Driven b n' (L.argsAfter b op args) (L.step Fabric.engine op).desk := by
  obtain ⟨d, loose, hstep, hdoes, -⟩ := L.step_does Fabric.engine op
  have hmeets : L.Meets b n op d :=
    hdoes.meets h.tended.node hL.role?_nextState fun change hop =>
      (hchange change hop).trans h.tended.node
  obtain ⟨n', h'⟩ := h.meets hmeets
  rw [hstep]
  exact h'.letGo loose

end Driving

/-! ## §5 Whole runs -/

namespace Ledger

/-- **The arguments that a backend's runtime was brought up with last** in the course of some
operations, if it was, or else those from before. -/
def lastArgs (b : BackendId) (L : Ledger Fabric Comm) :
    List (ViewOp Fabric Comm) → List String → List String
  | [], args => args
  | op :: rest, args => lastArgs b (L.step Fabric.engine op) rest (L.argsAfter b op args)

end Ledger

/-- **Run lemma**: whatever is done with views keeps a node driven. -/
theorem Driven.run {b : BackendId} {n : Node} {args : List String} {L : Ledger Fabric Comm}
    (h : Driven b n args L.desk) (hL : L.Sound .null) (ops : List (ViewOp Fabric Comm))
    (halone : ∀ change, .meanwhile change ∈ ops →
      ∀ f, (change f).backends[b]? = f.backends[b]?) :
    ∃ n', Driven b n' (L.lastArgs b ops args) (L.run Fabric.engine ops).desk := by
  induction ops generalizing n args L with
  | nil => exact ⟨n, h⟩
  | cons op rest ih =>
    obtain ⟨n', h'⟩ := h.step hL fun change hop => halone change (hop ▸ List.mem_cons_self) _
    exact ih h' (hL.step Fabric.engine op).1 fun change hchange =>
      halone change (List.mem_cons_of_mem _ hchange)

theorem Driven.fresh {f : Fabric} {b : BackendId} {rank cluster : Nat}
    (hnode : f.HasNode b (.fresh rank cluster)) (defaultBackend : BackendId) :
    Driven b (.fresh rank cluster) [] (Ledger.fresh f defaultBackend).desk := by
  have hnone : ∀ m (world : World Comm),
      ¬ (Ledger.fresh f defaultBackend).desk.Starter b m world :=
    fun m world hstarter => nomatch hstarter
  exact ⟨.of_none hnode hnone, (nomatch ·), rfl, rfl, rfl⟩

namespace Ledger

/-- **A node runs exactly while its starter lives**: whatever is done with views, and whatever
happens meanwhile to the rest of the fabric, a node that is started and stopped by views only
runs if and only if some variable holds a view whose construction has started it. There is
one such state at most, and its world is the one that runs. The node was started as often as
stopped, and once more if it runs; its arguments are those of the construction that brought
it up last; and of all stops that were asked of it, each has succeeded. -/
theorem runs_with_starter (f : Fabric) (b defaultBackend : BackendId) (rank cluster : Nat)
    (ops : List (ViewOp Fabric Comm))
    (hnode : f.backends[b]? = some (.node (.fresh rank cluster)))
    (halone : ∀ change, .meanwhile change ∈ ops →
      ∀ f, (change f).backends[b]? = f.backends[b]?) :
    let L := (fresh f defaultBackend : Ledger Fabric Comm).run Fabric.engine ops
    ∃ n, L.desk.engine.state.backends[b]? = some (.node n) ∧
      (n.running.isSome ↔ ∃ slot m state, L.desk.views.find? slot = some (.alias m) ∧
        L.desk.states.lookup m = some state ∧ state.started = true ∧ state.backend = b) ∧
      (∀ m state m' state',
        L.desk.states.lookup m = some state → state.started = true → state.backend = b →
        L.desk.states.lookup m' = some state' → state'.started = true → state'.backend = b →
          m' = m) ∧
      (∀ m state, L.desk.states.lookup m = some state → state.started = true →
        state.backend = b → Fabric.world b L.desk.engine.state = .ok state.world) ∧
      n.starts = n.stops + (if n.running.isSome then 1 else 0) ∧
      n.lastArgs = (fresh f defaultBackend : Ledger Fabric Comm).lastArgs b ops [] ∧
      n.stops = (Act.stops L.acts).count b := by
  intro L
  have hfresh : (fresh f defaultBackend : Ledger Fabric Comm).Sound .null := Sound.fresh _ _
  have hL : L.Sound .null := hfresh.run Fabric.engine ops
  obtain ⟨n, h⟩ := (Driven.fresh hnode defaultBackend).run hfresh ops halone
  have hstarter : ∀ m state, L.desk.states.lookup m = some state → state.started = true →
      state.backend = b → L.desk.Starter b m state.world := fun m state hstate hs hb =>
    Desk.starter_iff.mpr ⟨state, hstate, hs, hb, rfl⟩
  refine ⟨n, h.tended.node, ?_, ?_, ?_, h.starts, h.args, h.stops⟩
  · constructor
    · intro hrunning
      obtain ⟨m, world, hworld⟩ := h.running hrunning
      obtain ⟨state, hstate, hs, hb, -⟩ := Desk.starter_iff.mp hworld
      -- a state is there because some view holds it
      obtain ⟨slot, hslot⟩ := (hL.kept.held m (by rw [hstate]; rfl)).resolve_right nofun
      exact ⟨slot, m, state, hslot, hstate, hs, hb⟩
    · rintro ⟨slot, m, state, -, hstate, hs, hb⟩
      obtain ⟨life, hlife, -⟩ := h.tended.starter m _ (hstarter m state hstate hs hb)
      rw [hlife]
      rfl
  · intro m state m' state' hstate hs hb hstate' hs' hb'
    exact h.tended.single m _ m' _ (hstarter m state hstate hs hb) (hstarter m' state' hstate' hs' hb')
  · intro m state hstate hs hb
    exact h.tended.node.world_eq_ok.mpr (h.tended.starter m _ (hstarter m state hstate hs hb))

/-- A fabric with a cluster of two that nobody has started yet. -/
def pairFabric : Fabric :=
  (Fabric.addCluster (.ofConfig (.ofParticipants 2)) (.empty Fabric.counting)).2

/-- A starter, a view that attaches, a construction that fails, a second start after the first
starter was dropped, and a view that attaches in the place of the second starter. -/
def replacing : List (ViewOp Fabric Comm) :=
  [.openView ⟨0, "first"⟩ 0 ["-a"] .world, .openView ⟨0, "second"⟩ 0 ["-b"] .world,
    .openView ⟨0, "third"⟩ 0 ["-c"] ⟨9⟩, .drop ⟨0, "first"⟩,
    .openView ⟨0, "first"⟩ 0 ["-d"] .world, .openView ⟨0, "first"⟩ 0 ["-e"] .world]

theorem runs_with_starter_replacing :
    pairFabric.backends[0]? = some (.node (.fresh 0 0)) ∧
      (∀ change, .meanwhile change ∈ replacing →
        ∀ f, (change f).backends[0]? = f.backends[0]?) ∧
      ∃ n, ((fresh pairFabric 1 : Ledger Fabric Comm).run Fabric.engine
          replacing).desk.engine.state.backends[0]? = some (.node n) ∧
        n.running = none ∧ n.starts = 2 ∧ n.stops = 2 ∧ n.lastArgs = ["-d"] := by
  have hnode : pairFabric.backends[0]? = some (.node (.fresh 0 0)) := rfl
  have halone : ∀ change, .meanwhile change ∈ replacing →
      ∀ f, (change f).backends[0]? = f.backends[0]? := by
    simp [replacing]
  refine ⟨hnode, halone, ?_⟩
  obtain ⟨n, hn, hrunning, -, -, hstarts, hargs, hstops⟩ :=
    runs_with_starter pairFabric 0 1 0 0 replacing hnode halone
  have hasked : (Act.stops ((fresh pairFabric 1 : Ledger Fabric Comm).run Fabric.engine
      replacing).acts).count 0 = 2 := by
    decide +kernel
  have hlast : (fresh pairFabric 1 : Ledger Fabric Comm).lastArgs 0 replacing [] = ["-d"] := by
    decide +kernel
  have hstarters : ((fresh pairFabric 1 : Ledger Fabric Comm).run Fabric.engine
      replacing).desk.states.all (fun entry => !entry.2.started) = true := by
    decide +kernel
  have hidle : n.running = none := by
    rw [← Option.not_isSome_iff_eq_none, hrunning]
    rintro ⟨slot, m, state, -, hstate, hs, -⟩
    have hnot := List.all_eq_true.mp hstarters _ (mem_of_lookup hstate)
    simp [hs] at hnot
  rw [hasked] at hstops
  rw [hidle, hstops] at hstarts
  exact ⟨n, hn, hidle, hstarts, hstops, hargs.trans hlast⟩

end Ledger

end ClusterView
