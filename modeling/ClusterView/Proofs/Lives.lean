import ClusterView.Proofs.Groups
import ClusterView.Proofs.Populated
import ClusterView.Proofs.Starters

/-!
# Lives of a node

A node is started and stopped again and again, and every start begins a life with a world
identifier of its own. A communicator belongs to the life it was handed out in: its
collectives pass the liveness check exactly as long as that life goes on. Once they are
refused they are refused for ever, also after the node has been started again, while the
communicator says the same about its group at all times.

What happens to a fabric is a list of calls on its backends and of registrations. The state of
a node is described by one invariant (`Living`), and what may become of it by a relation
between two moments (`Since`); each kind of call keeps the invariant and is such a change,
hence a whole run is.

## Sections
- §1: Clusters and fabrics that grow
- §2: A node at one moment
- §3: A node at two moments
- §4: Calls and what they do to a node
- §5: Communicators that are handed out
- §6: Whole runs
-/

namespace ClusterView

/-! ## §1 Clusters and fabrics that grow -/

namespace Cluster

/-- **Growth** of a cluster: groups are registered after those that are there. -/
structure Grows (c c' : Cluster) : Prop where
  config : c'.config = c.config
  groups : c.groups <+: c'.groups

theorem Grows.refl (c : Cluster) : c.Grows c := ⟨rfl, List.prefix_refl _⟩

theorem Grows.trans {c c' c'' : Cluster} (h : c.Grows c') (h' : c'.Grows c'') : c.Grows c'' :=
  ⟨h'.config.trans h.config, h.groups.trans h'.groups⟩

/-- A group keeps its number. -/
theorem Grows.getElem? {c c' : Cluster} (h : c.Grows c') {number : Nat} {g : Group}
    (hg : c.groups[number]? = some g) : c'.groups[number]? = some g := by
  obtain ⟨hlt, hget⟩ := List.getElem?_eq_some_iff.mp hg
  obtain ⟨more, hmore⟩ := h.groups
  rw [← hmore, List.getElem?_append_left hlt, hg]

theorem addGroup_grows {c c' : Cluster} {members : List Nat} {handle : CommHandle}
    (h : c.addGroup members = .ok (handle, c')) : c.Grows c' := by
  unfold addGroup at h
  split at h
  · cases h
  · cases h
    exact ⟨rfl, List.prefix_append _ _⟩

/-- **Rooted** clusters: the world is the first group. -/
def Rooted (c : Cluster) : Prop := c.groups[0]? = some (worldGroup c.config)

theorem Rooted.grows {c c' : Cluster} (h : c.Rooted) (hgrows : c.Grows c') : c'.Rooted := by
  rw [Rooted, hgrows.config]
  exact hgrows.getElem? h

theorem eq_ofConfig_of_create {config : Config} {c : Cluster}
    (h : Cluster.create config = .ok c) : c = ofConfig config := by
  unfold Cluster.create at h
  generalize Config.validate _ = answer at h
  cases answer with
  | error e => cases h
  | ok _ =>
    cases h
    rfl

theorem Reachable.rooted {c : Cluster} (h : c.Reachable) : c.Rooted := by
  induction h with
  | create h =>
    rw [eq_ofConfig_of_create h]
    rfl
  | addGroup _ h ih => exact ih.grows (addGroup_grows h)

theorem group_eq_ok_iff {c : Cluster} {handle : CommHandle} {found : Nat × Group} :
    c.group handle = .ok found ↔ c.group? handle = some found := by
  rw [group]
  cases c.group? handle <;> simp

/-- A group that is found is registered under its number. -/
theorem getElem?_of_group {c : Cluster} {handle : CommHandle} {number : Nat} {g : Group}
    (h : c.group handle = .ok (number, g)) : c.groups[number]? = some g := by
  obtain ⟨i, -, hi⟩ := Option.bind_eq_some_iff.mp (group_eq_ok_iff.mp h)
  obtain ⟨g', hg', hpair⟩ := Option.bind_eq_some_iff.mp hi
  cases hpair
  exact hg'

/-- The world is found in a rooted cluster. -/
theorem Rooted.group_world {c : Cluster} (h : c.Rooted) :
    c.group .world = .ok (0, worldGroup c.config) := by
  obtain ⟨hlt, hget⟩ := List.getElem?_eq_some_iff.mp h
  have hfirst : c.groups.findIdx? (fun g => g.handle == CommHandle.world) = some 0 := by
    rw [List.findIdx?_eq_some_iff_getElem]
    exact ⟨hlt, by rw [hget]; rfl, fun j hj => absurd hj (Nat.not_lt_zero j)⟩
  rw [group_eq_ok_iff]
  simp only [group?, hfirst, bind, Option.bind, pure, show c.groups[0]? = _ from h]

end Cluster

namespace Fabric

/-- **Growth** of a fabric: identifiers are drawn, and clusters grow. -/
structure Grows (f f' : Fabric) : Prop where
  supply : f'.supply = f.supply
  drawn : f.drawn ≤ f'.drawn
  clusters : ∀ (number : Nat) (c : Cluster), f.clusters[number]? = some c →
    ∃ c', f'.clusters[number]? = some c' ∧ c.Grows c'

section

variable {f f' f'' : Fabric} {b c : BackendId}

/-- **Still** fabric: no cluster changes while identifiers are drawn. -/
structure Still (f f' : Fabric) : Prop where
  clusters : f'.clusters = f.clusters
  supply : f'.supply = f.supply
  drawn : f.drawn ≤ f'.drawn

theorem Still.refl (f : Fabric) : f.Still f := ⟨rfl, rfl, Nat.le_refl _⟩

theorem Still.grows (h : f.Still f') : f.Grows f' := by
  refine ⟨h.supply, h.drawn, fun number c hnumber => ⟨c, ?_, Cluster.Grows.refl c⟩⟩
  rw [h.clusters, hnumber]

theorem Grows.refl (f : Fabric) : f.Grows f := (Still.refl f).grows

theorem Grows.trans (h : f.Grows f') (h' : f'.Grows f'') : f.Grows f'' := by
  refine ⟨h'.supply.trans h.supply, h.drawn.trans h'.drawn, fun number c hc => ?_⟩
  obtain ⟨c', hc', hgrows⟩ := h.clusters number c hc
  obtain ⟨c'', hc'', hgrows'⟩ := h'.clusters number c' hc'
  exact ⟨c'', hc'', hgrows.trans hgrows'⟩

/-- A rooted cluster stays one. -/
theorem Grows.rooted {number : Nat} (h : f.Grows f')
    (hc : ∃ c, f.clusters[number]? = some c ∧ c.Rooted) :
    ∃ c, f'.clusters[number]? = some c ∧ c.Rooted := by
  obtain ⟨c, hnumber, hrooted⟩ := hc
  obtain ⟨c', hnumber', hgrows⟩ := h.clusters number c hnumber
  exact ⟨c', hnumber', hrooted.grows hgrows⟩

theorem still_start (c : BackendId) (args : List String) (f : Fabric) :
    f.Still (start c args f).2 := by
  unfold start
  cases f.backends[c]? with
  | none => exact .refl f
  | some backend =>
    cases backend with
    | scripted s =>
      simp only [startScripted]
      cases ((s.record (.start args)).start f.nextId).1 <;> exact ⟨rfl, rfl, Nat.le_succ _⟩
    | node n =>
      simp only [startNode]
      cases n.running with
      | some life => exact .refl f
      | none =>
        cases f.clusters[n.cluster]? with
        | none => exact .refl f
        | some cluster =>
          dsimp only
          cases cluster.group .world with
          | error e => exact .refl f
          | ok found => exact ⟨rfl, rfl, Nat.le_succ _⟩

theorem still_stop (c : BackendId) (f : Fabric) : f.Still (stop c f).2 := by
  unfold stop
  cases f.backends[c]? with
  | none => exact .refl f
  | some backend =>
    cases backend with
    | scripted s => exact ⟨rfl, rfl, Nat.le_refl _⟩
    | node n =>
      dsimp only
      cases n.running with
      | none => exact .refl f
      | some life => exact ⟨rfl, rfl, Nat.le_refl _⟩

theorem still_report (event : Event) (f : Fabric) : f.Still (f.report event) :=
  ⟨rfl, rfl, Nat.le_refl _⟩

theorem still_communicator (c : BackendId) (handle : CommHandle) (f : Fabric) :
    f.Still (communicator c handle f).2 := by
  unfold communicator
  cases f.backends[c]? with
  | none => exact .refl f
  | some backend => cases backend <;> exact ⟨rfl, rfl, Nat.le_refl _⟩

theorem still_memoryOf (comm : Comm) (rank : Nat) (f : Fabric) :
    f.Still (comm.memoryOf rank f).2 := by
  cases comm with
  | ofGroup x => exact .refl f
  | scripted x =>
    show f.Still (f.recordRequest x.backend _)
    unfold recordRequest
    split
    · exact ⟨rfl, rfl, Nat.le_refl _⟩
    · exact .refl f

/-- A registration lets one cluster grow, and leaves the backends alone. -/
theorem grows_addGroup (number : Nat) (members : List Nat) (f : Fabric) :
    f.Grows (addGroup number members f).2 ∧
      (addGroup number members f).2.backends = f.backends := by
  unfold addGroup
  cases hcluster : f.clusters[number]? with
  | none => exact ⟨.refl f, rfl⟩
  | some cluster =>
    dsimp only
    cases hadd : cluster.addGroup members with
    | error e => exact ⟨.refl f, rfl⟩
    | ok added =>
      obtain ⟨handle, cluster'⟩ := added
      refine ⟨⟨rfl, Nat.le_refl _, fun i c hc => ?_⟩, rfl⟩
      show ∃ c', (f.clusters.set number cluster')[i]? = some c' ∧ c.Grows c'
      by_cases hi : number = i
      · subst hi
        obtain ⟨hlt, -⟩ := List.getElem?_eq_some_iff.mp hc
        rw [hcluster] at hc
        cases hc
        exact ⟨cluster', by simp [hlt], Cluster.addGroup_grows hadd⟩
      · exact ⟨c, by rw [List.getElem?_set_ne hi, hc], Cluster.Grows.refl c⟩

end

end Fabric

/-! ## §2 A node at one moment -/

/-- A new life is alive, besides those that were. -/
theorem Node.isAlive_begin (n : Node) (life : Life) (args : List String) (k : Nat) :
    (n.begin life args).isAlive k = true ↔ n.isAlive k = true ∨ k = n.alive.length := by
  simp only [isAlive, begin, List.getD_eq_getElem?_getD]
  rcases Nat.lt_trichotomy k n.alive.length with hlt | rfl | hgt
  · simp [List.getElem?_append_left hlt, Nat.ne_of_lt hlt]
  · simp
  · have hbeyond : (n.alive ++ [true]).length ≤ k := by
      rw [List.length_append]
      exact hgt
    rw [List.getElem?_eq_none hbeyond, List.getElem?_eq_none (Nat.le_of_lt hgt)]
    simp [Nat.ne_of_gt hgt]

/-- A life that ended is dead, and no other one. -/
theorem Node.isAlive_finish (n : Node) (life : Life) (k : Nat) :
    (n.finish life).isAlive k = true ↔ n.isAlive k = true ∧ k ≠ life.number := by
  simp only [isAlive, finish, List.getD_eq_getElem?_getD]
  by_cases hk : life.number = k
  · subst hk
    by_cases hlt : life.number < n.alive.length <;> simp [hlt]
  · simp [List.getElem?_set_ne hk, Ne.symm hk]
/-- **Issued**: a communicator of the node at a backend, for a life of it, over a group that is
registered with its cluster. -/
structure GroupComm.Issued (x : GroupComm) (b : BackendId) (rank cluster : Nat) (f : Fabric)
    (life : Nat) : Prop where
  backend : x.backend = b
  life : x.life = life
  isEnd : x.IsEnd cluster x.number x.group rank
  registered : ∃ c, f.clusters[cluster]? = some c ∧ c.config = x.config ∧
    c.groups[x.number]? = some x.group

/-- **Living node**: at most one life goes on, the last one that was begun, and its
communicators alone may be used. Each life spans the world of the cluster, and the identifiers of
lives were drawn one by one since the first. -/
structure Living (b : BackendId) (rank cluster first : Nat) (f : Fabric) (n : Node) : Prop where
  node : f.HasNode b n
  home : n.rank = rank ∧ n.cluster = cluster
  rooted : ∃ c, f.clusters[cluster]? = some c ∧ c.Rooted
  first_le : first ≤ f.drawn
  number : ∀ life, n.running = some life → life.number + 1 = n.alive.length
  alive : ∀ k, n.isAlive k = true ↔ ∃ life, n.running = some life ∧ life.number = k
  drawn : ∀ life, n.running = some life → ∃ i, first ≤ i ∧ i < f.drawn ∧ life.id = f.supply i
  comm : ∀ life, n.running = some life → life.comm.Issued b rank cluster f life.number
  world : ∀ life, n.running = some life → life.comm.number = 0

/-- **What becomes of a node** between two moments: the fabric grows, and a life that goes on
either went on before or was begun since, with an identifier that was drawn since. -/
structure Since (f : Fabric) (n : Node) (f' : Fabric) (n' : Node) : Prop where
  grows : f.Grows f'
  lives : n.alive.length ≤ n'.alive.length
  running : ∀ life, n'.running = some life → n.running = some life ∨
    n.alive.length ≤ life.number ∧ ∃ i, f.drawn ≤ i ∧ i < f'.drawn ∧ life.id = f.supply i

section Moments

variable {b : BackendId} {rank cluster first life : Nat} {f f' f'' : Fabric} {n n' n'' : Node}
  {x : GroupComm}

theorem GroupComm.Issued.grows (h : x.Issued b rank cluster f life) (hgrows : f.Grows f') :
    x.Issued b rank cluster f' life := by
  obtain ⟨c, hc, hconfig, hgroup⟩ := h.registered
  obtain ⟨c', hc', hcgrows⟩ := hgrows.clusters cluster c hc
  exact ⟨h.backend, h.life, h.isEnd, c', hc', hcgrows.config.trans hconfig, hcgrows.getElem? hgroup⟩

/-- A node that nobody has started yet. -/
theorem Living.fresh {c : Cluster} (hnode : f.HasNode b (.fresh rank cluster))
    (hcluster : f.clusters[cluster]? = some c) (hc : c.Reachable) :
    Living b rank cluster f.drawn f (.fresh rank cluster) where
  node := hnode
  home := ⟨rfl, rfl⟩
  rooted := ⟨c, hcluster, hc.rooted⟩
  first_le := Nat.le_refl _
  number _ h := nomatch h
  alive _ := by simp [Node.isAlive, Node.fresh]
  drawn _ h := nomatch h
  comm _ h := nomatch h
  world _ h := nomatch h

/-- The communicators of a life may be used exactly if the life goes on. -/
theorem Living.isAlive_iff (h : Living b rank cluster first f n)
    (hx : x.Issued b rank cluster f life) :
    f.isAlive x = true ↔ ∃ l, n.running = some l ∧ l.number = life := by
  rw [Fabric.isAlive, hx.backend, show f.backends[b]? = some (.node n) from h.node, hx.life]
  exact h.alive life

/-! ## §3 A node at two moments -/

theorem Since.refl (f : Fabric) (n : Node) : Since f n f n :=
  ⟨.refl f, Nat.le_refl _, fun _ h => Or.inl h⟩

theorem Since.trans (h : Since f n f' n') (h' : Since f' n' f'' n'') : Since f n f'' n'' := by
  refine ⟨h.grows.trans h'.grows, h.lives.trans h'.lives, fun l hl => ?_⟩
  rcases h'.running l hl with hl' | ⟨hnumber, i, hfrom, hto, hid⟩
  · rcases h.running l hl' with hl'' | ⟨hnumber, i, hfrom, hto, hid⟩
    · exact Or.inl hl''
    · exact Or.inr ⟨hnumber, i, hfrom, hto.trans_le h'.grows.drawn, hid⟩
  · refine Or.inr ⟨h.lives.trans hnumber, i, h.grows.drawn.trans hfrom, hto, ?_⟩
    rw [hid, h.grows.supply]

/-- While a node is left alone, the fabric may grow around it. -/
theorem Living.kept (h : Living b rank cluster first f n) (hnode : f'.HasNode b n)
    (hgrows : f.Grows f') : Living b rank cluster first f' n ∧ Since f n f' n := by
  refine ⟨⟨hnode, h.home, hgrows.rooted h.rooted, h.first_le.trans hgrows.drawn, h.number, h.alive,
    ?_, fun l hl => (h.comm l hl).grows hgrows, h.world⟩, hgrows, Nat.le_refl _,
    fun _ hl => Or.inl hl⟩
  intro l hl
  obtain ⟨i, hfirst, hi, hid⟩ := h.drawn l hl
  exact ⟨i, hfirst, hi.trans_le hgrows.drawn, by rw [hid, hgrows.supply]⟩

/-- **A start** attaches to the life that goes on, or begins one. It always succeeds. -/
theorem Living.start (h : Living b rank cluster first f n) (args : List String) :
    ∃ l f' n', Fabric.start b args f = (.ok ⟨l.world b, !f.isRunning b⟩, f') ∧
      Living b rank cluster first f' n' ∧ Since f n f' n' ∧ n'.running = some l ∧
      (n.running.isSome → f' = f ∧ n' = n) := by
  rw [h.node.isRunning_eq]
  cases hrunning : n.running with
  | some l =>
    exact ⟨l, f, n, h.node.start_running hrunning args, h, .refl f n, hrunning, fun _ => ⟨rfl, rfl⟩⟩
  | none =>
    obtain ⟨c, hc, hrooted⟩ := h.rooted
    have hstart : Fabric.start b args f = (.ok ⟨(n.nextLife b f.nextId c.config 0
        (Cluster.worldGroup c.config)).world b, true⟩, Fabric.report (.runtimeStarted n.rank
          f.nextId) { f.setBackend b (.node (n.begin (n.nextLife b f.nextId c.config 0
            (Cluster.worldGroup c.config)) args)) with drawn := f.drawn + 1 }) := by
      simp only [Fabric.start, show f.backends[b]? = some (.node n) from h.node, Fabric.startNode,
        hrunning, h.home.2, hc, hrooted.group_world]
      rfl
    refine ⟨_, _, n.begin (n.nextLife b f.nextId c.config 0 (Cluster.worldGroup c.config)) args,
      hstart, ?_, ?_, rfl, fun hsome => absurd hsome Bool.false_ne_true⟩
    · refine ⟨h.node.setBackend _, h.home, h.rooted, h.first_le.trans (Nat.le_succ _),
        ?_, ?_, ?_, ?_, ?_⟩
      · rintro l ⟨⟩
        show n.alive.length + 1 = (n.alive ++ [true]).length
        rw [List.length_append, List.length_singleton]
      · intro k
        -- the lives before are over, as none went on
        rw [Node.isAlive_begin, h.alive k, hrunning]
        simp [Node.begin, Node.nextLife, eq_comm]
      · rintro l ⟨⟩
        exact ⟨f.drawn, h.first_le, Nat.lt_succ_self _, rfl⟩
      · rintro l ⟨⟩
        exact ⟨rfl, rfl, ⟨h.home.2, rfl, rfl, h.home.1⟩, c, hc, rfl, hrooted⟩
      · rintro l ⟨⟩
        rfl
    · refine ⟨Fabric.Still.grows ⟨rfl, rfl, Nat.le_succ _⟩, ?_, ?_⟩
      · rw [show (n.begin _ args).alive = n.alive ++ [true] from rfl, List.length_append]
        exact Nat.le_add_right _ _
      · rintro l ⟨⟩
        exact Or.inr ⟨Nat.le_refl _, f.drawn, Nat.le_refl _, Nat.lt_succ_self _, rfl⟩

/-- **A stop** ends the life that goes on, if there is one. -/
theorem Living.stop (h : Living b rank cluster first f n) :
    Living b rank cluster first (Fabric.stop b f).2 n.halted ∧
      Since f n (Fabric.stop b f).2 n.halted := by
  have hnode := h.node.stop_node
  have hgrows := (Fabric.still_stop b f).grows
  cases hrunning : n.running with
  | none =>
    rw [Node.halted, hrunning] at hnode ⊢
    exact h.kept hnode hgrows
  | some l =>
    have hidle : ∀ l', (n.finish l).running ≠ some l' := by
      rintro l' ⟨⟩
    rw [Node.halted, hrunning] at hnode ⊢
    have hdead : ∀ k, ¬ (n.finish l).isAlive k = true := by
      intro k
      rw [Node.isAlive_finish, h.alive k, hrunning]
      rintro ⟨⟨_, ⟨⟩, hk⟩, hne⟩
      exact hne hk.symm
    refine ⟨⟨hnode, h.home, hgrows.rooted h.rooted, h.first_le.trans hgrows.drawn, ?_, ?_, ?_, ?_,
      ?_⟩, hgrows, ?_, ?_⟩
    · exact fun l' hrun => absurd hrun (hidle l')
    · refine fun k => ⟨fun hk => absurd hk (hdead k), ?_⟩
      rintro ⟨l', hrun, -⟩
      exact absurd hrun (hidle l')
    · exact fun l' hrun => absurd hrun (hidle l')
    · exact fun l' hrun => absurd hrun (hidle l')
    · exact fun l' hrun => absurd hrun (hidle l')
    · exact (List.length_set ..).ge
    · exact fun l' hrun => absurd hrun (hidle l')

end Moments

/-! ## §4 Calls and what they do to a node -/

/-- **Call** on a backend, by the application or by a view: a view is opened, and its end may
take the runtime down. -/
inductive BackendCall where
  | start (args : List String)
  | stop
  | world
  | communicator (handle : CommHandle)
  | openView (args : List String) (handle : CommHandle)
  | endView (started : Bool) (w : World Comm)

/-- **Deed**: a call on some backend, or the registration of a group with some cluster. -/
inductive Deed where
  | call (b : BackendId) (c : BackendCall)
  | register (cluster : Nat) (members : List Nat)

/-- The fabric after a call. -/
def BackendCall.after (b : BackendId) : BackendCall → Fabric → Fabric
  | .start args, f => (Fabric.start b args f).2
  | .stop, f => (Fabric.stop b f).2
  | .world, f => f
  | .communicator handle, f => (Fabric.communicator b handle f).2
  | .openView args handle, f => (ViewState.construct Fabric.engine b args handle f).2
  | .endView started w, f => (ViewState.release Fabric.engine started w b f).2

def Deed.after : Deed → Fabric → Fabric
  | .call b c, f => c.after b f
  | .register cluster members, f => (Fabric.addGroup cluster members f).2

/-- The fabric after a number of deeds. -/
def Deed.run (deeds : List Deed) (f : Fabric) : Fabric := deeds.foldl (fun f deed => deed.after f) f

/-- **Calls keep what lasts**, whichever backend they are made on. -/
theorem BackendCall.keeps {P : Fabric → Prop} (hP : Fabric.engine.Lasting P) (call : BackendCall)
    (b : BackendId) {f : Fabric} (h : P f) : P (call.after b f) := by
  cases call with
  | start args => exact hP.start b args f h
  | stop => exact hP.stop b f h
  | world => exact h
  | communicator handle => exact hP.communicator b handle f h
  | openView args handle => exact hP.construct b args handle h
  | endView started w => exact hP.release started w b h

/-- **Followed node**: it is living now, after a change from a state at an earlier moment. -/
def Followed (b : BackendId) (rank cluster first : Nat) (f : Fabric) (n : Node) (f' : Fabric) :
    Prop :=
  ∃ n', Living b rank cluster first f' n' ∧ Since f n f' n'

section Calls

variable {b c : BackendId} {rank cluster first : Nat} {f f₀ : Fabric} {n n₀ : Node}

theorem Living.followed (h : Living b rank cluster first f n) :
    Followed b rank cluster first f n f :=
  ⟨n, h, .refl f n⟩

/-- Reports and questions leave a node as it is. -/
theorem Living.steady (b : BackendId) (rank cluster first : Nat) (f₀ : Fabric) (n : Node) :
    Fabric.engine.Steady fun f => Living b rank cluster first f n ∧ f₀.Grows f where
  report event f h := by
    have hgrows := (Fabric.still_report event f).grows
    have hnode : (f.report event).HasNode b n := h.1.node
    exact ⟨(h.1.kept hnode hgrows).1, h.2.trans hgrows⟩
  communicator c handle f h := by
    have hgrows := (Fabric.still_communicator c handle f).grows
    exact ⟨(h.1.kept (h.1.node.communicator c handle) hgrows).1, h.2.trans hgrows⟩
  memoryOf comm r f h := by
    have hgrows := (Fabric.still_memoryOf comm r f).grows
    exact ⟨(h.1.kept (h.1.node.memoryOf comm r) hgrows).1, h.2.trans hgrows⟩

/-- **Frame**: a node is followed through whatever leaves it as it is while the fabric grows. -/
theorem Followed.kept (h : Followed b rank cluster first f₀ n₀ f) {f' : Fabric}
    (hgrows : f.Grows f') (hnode : ∀ n, f.HasNode b n → f'.HasNode b n) :
    Followed b rank cluster first f₀ n₀ f' := by
  obtain ⟨n, hliving, hsince⟩ := h
  obtain ⟨hliving', hsince'⟩ := hliving.kept (hnode n hliving.node) hgrows
  exact ⟨n, hliving', hsince.trans hsince'⟩

/-- It is followed through a start of any backend, its own included. -/
theorem Followed.start (h : Followed b rank cluster first f₀ n₀ f) (c : BackendId)
    (args : List String) : Followed b rank cluster first f₀ n₀ (Fabric.start c args f).2 := by
  by_cases hc : c = b
  · subst hc
    obtain ⟨n, hliving, hsince⟩ := h
    obtain ⟨l, f', n', hstart, hliving', hsince', -⟩ := hliving.start args
    rw [hstart]
    exact ⟨n', hliving', hsince.trans hsince'⟩
  · exact h.kept (Fabric.still_start c args f).grows fun _ hn => (Fabric.start_of_ne hc).trans hn

/-- So it is through a stop. -/
theorem Followed.stop (h : Followed b rank cluster first f₀ n₀ f) (c : BackendId) :
    Followed b rank cluster first f₀ n₀ (Fabric.stop c f).2 := by
  by_cases hc : c = b
  · subst hc
    obtain ⟨n, hliving, hsince⟩ := h
    obtain ⟨hliving', hsince'⟩ := hliving.stop
    exact ⟨n.halted, hliving', hsince.trans hsince'⟩
  · exact h.kept (Fabric.still_stop c f).grows fun _ hn => (Fabric.stop_of_ne hc).trans hn

/-- Nothing that is asked of the engine is an obstacle. -/
theorem Followed.lasting (b : BackendId) (rank cluster first : Nat) (f₀ : Fabric) (n₀ : Node) :
    Fabric.engine.Lasting (Followed b rank cluster first f₀ n₀) where
  report event f h := h.kept (Fabric.still_report event f).grows fun _ hn => hn
  communicator c handle f h :=
    h.kept (Fabric.still_communicator c handle f).grows fun _ hn => hn.communicator c handle
  memoryOf comm r f h :=
    h.kept (Fabric.still_memoryOf comm r f).grows fun _ hn => hn.memoryOf comm r
  start c args _ h := h.start c args
  stop c _ h := h.stop c

/-- **Step lemma**: a node is followed through any call on any backend. -/
theorem Followed.call (h : Followed b rank cluster first f₀ n₀ f) (c : BackendId)
    (call : BackendCall) : Followed b rank cluster first f₀ n₀ (call.after c f) :=
  call.keeps (Followed.lasting b rank cluster first f₀ n₀) c h

theorem Followed.deed (h : Followed b rank cluster first f₀ n₀ f) (deed : Deed) :
    Followed b rank cluster first f₀ n₀ (deed.after f) := by
  cases deed with
  | call c call => exact h.call c call
  | register number members =>
    obtain ⟨hgrows, hbackends⟩ := Fabric.grows_addGroup number members f
    refine h.kept hgrows fun n hn => ?_
    show (Fabric.addGroup number members f).2.backends[b]? = some (.node n)
    rw [hbackends]
    exact hn

/-- **Run lemma**: a node is followed through any number of deeds. -/
theorem Followed.run (h : Followed b rank cluster first f₀ n₀ f) (deeds : List Deed) :
    Followed b rank cluster first f₀ n₀ (Deed.run deeds f) := by
  induction deeds generalizing f with
  | nil => exact h
  | cons deed deeds ih => exact ih (h.deed deed)

end Calls

/-! ## §5 Communicators that are handed out -/

/-- The communicators that a view's state holds: of its world, its own, and that of every
owner of memory in its sets. -/
def ViewState.comms (state : ViewState Comm) : List Comm :=
  state.world.comm :: state.comm ::
    state.sets.filterMap fun set => set.ram.owner?.map fun owner => owner.comm

/-- Memory in a populated state belongs to members of the state's own communicator. -/
theorem ViewState.Populated.mem_comms {state : ViewState Comm}
    (h : state.Populated Fabric.engine) {comm : Comm} (hcomm : comm ∈ state.comms) :
    comm = state.world.comm ∨ comm = state.comm := by
  obtain ⟨memory, -, hsets⟩ := h
  rcases List.mem_cons.mp hcomm with hworld | hcomm
  · exact Or.inl hworld
  · rcases List.mem_cons.mp hcomm with hown | hcomm
    · exact Or.inr hown
    · obtain ⟨set, hset, howner⟩ := List.mem_filterMap.mp hcomm
      rw [hsets] at hset
      obtain ⟨member, -, rfl⟩ := List.mem_map.mp hset
      exact Or.inr (Option.some.inj howner).symm

/-- **Communicators handed out** by a call on a backend. -/
def BackendCall.handsOut (b : BackendId) : BackendCall → Fabric → List Comm
  | .start args, f =>
      match (Fabric.start b args f).1 with
      | .ok startup => [startup.world.comm]
      | .error _ => []
  | .world, f =>
      match Fabric.world b f with
      | .ok w => [w.comm]
      | .error _ => []
  | .communicator handle, f =>
      match (Fabric.communicator b handle f).1 with
      | .ok comm => [comm]
      | .error _ => []
  | .openView args handle, f =>
      match (ViewState.construct Fabric.engine b args handle f).1 with
      | .ok state => state.comms
      | .error _ => []
  | _, _ => []

section HandedOut

variable {b : BackendId} {rank cluster first : Nat} {f : Fabric} {n : Node} {comm : Comm}

/-- A communicator that is found is issued for the life that goes on. -/
theorem Living.communicator (h : Living b rank cluster first f n) {handle : CommHandle}
    (hfound : (Fabric.communicator b handle f).1 = .ok comm) :
    ∃ l x, n.running = some l ∧ comm = .ofGroup x ∧ x.Issued b rank cluster f l.number := by
  simp only [Fabric.communicator, show f.backends[b]? = some (.node n) from h.node,
    Fabric.nodeCommunicator, bind, Except.bind, pure, Except.pure, throw, throwThe,
    MonadExceptOf.throw] at hfound
  split at hfound
  · cases hfound
  cases hrunning : n.running with
  | none =>
    simp only [hrunning] at hfound
    cases hfound
  | some l =>
    simp only [hrunning] at hfound
    split at hfound
    · cases hfound
      exact ⟨l, l.comm, rfl, rfl, h.comm l hrunning⟩
    · obtain ⟨c, hc, -⟩ := h.rooted
      simp only [h.home.2, hc] at hfound
      cases hgroup : c.group handle with
      | error e =>
        rw [hgroup] at hfound
        cases hfound
      | ok found =>
        rw [hgroup] at hfound
        obtain ⟨number, group⟩ := found
        cases hfound
        exact ⟨l, _, rfl, rfl, rfl, rfl, ⟨h.home.2, rfl, rfl, h.home.1⟩, c, hc, rfl,
          Cluster.getElem?_of_group hgroup⟩

/-- The communicators of a view that was opened are issued for the life that its construction
found or began. -/
theorem Living.openView (h : Living b rank cluster first f n) {args : List String}
    {handle : CommHandle} {state : ViewState Comm} {f' : Fabric}
    (hcall : ViewState.construct Fabric.engine b args handle f = (.ok state, f')) :
    ∃ n' l x y, Living b rank cluster first f' n' ∧ n'.running = some l ∧
      state.world.comm = .ofGroup x ∧ state.comm = .ofGroup y ∧
      x.Issued b rank cluster f' l.number ∧ y.Issued b rank cluster f' l.number := by
  obtain ⟨l, f₁, n', hstarted, hliving, -, hrunning, -⟩ := h.start args
  obtain ⟨startup, s₁, memory, s₂, hstart, hsurvey, -, -, hworld, -⟩ :=
    ViewState.construct_eq_ok hcall
  obtain ⟨hstartup, rfl⟩ := Prod.mk.inj (hstart.symm.trans hstarted)
  cases hstartup
  obtain ⟨s₃, hfound, -⟩ := ViewState.survey_eq_ok hsurvey
  -- the communicator was looked for after a report, which changes nothing that matters
  have hreported : ∀ event, Living b rank cluster first (s₁.report event) n' := fun event =>
    (hliving.kept (show (s₁.report event).HasNode b n' from hliving.node)
      (Fabric.still_report event s₁).grows).1
  obtain ⟨l', y, hrunning', hy, hyissued⟩ := (hreported _).communicator (congrArg Prod.fst hfound)
  cases hrunning.symm.trans hrunning'
  have hyissued : y.Issued b rank cluster s₁ l.number :=
    ⟨hyissued.backend, hyissued.life, hyissued.isEnd, hyissued.registered⟩
  rcases ViewState.construct_of_start_ok hstart (Living.steady b rank cluster first s₁ n')
      ⟨hliving, .refl s₁⟩ with ⟨e, s₄, -, hfailed⟩ | ⟨state', s₄, ⟨hliving', hgrows⟩, hdone, -⟩
  · rw [hfailed] at hcall
    cases hcall
  · cases hdone.symm.trans hcall
    refine ⟨n', l, l.comm, y, hliving', hrunning, ?_, hy, (hliving.comm l hrunning).grows hgrows,
      hyissued.grows hgrows⟩
    rw [hworld]
    rfl

/-- **Whatever is handed out** is issued for the life that goes on afterwards. -/
theorem Living.handsOut (h : Living b rank cluster first f n) {call : BackendCall}
    (hcomm : comm ∈ call.handsOut b f) :
    ∃ n' l x, Living b rank cluster first (call.after b f) n' ∧ n'.running = some l ∧
      comm = .ofGroup x ∧ x.Issued b rank cluster (call.after b f) l.number := by
  cases call with
  | start args =>
    obtain ⟨l, f', n', hstart, hliving, -, hrunning, -⟩ := h.start args
    simp only [BackendCall.handsOut, BackendCall.after, hstart, List.mem_singleton] at hcomm ⊢
    exact ⟨n', l, l.comm, hliving, hrunning, hcomm, hliving.comm l hrunning⟩
  | stop => cases hcomm
  | world =>
    simp only [BackendCall.handsOut] at hcomm
    split at hcomm
    · rename_i w hworld
      obtain ⟨l, hrunning, rfl⟩ := h.node.world_eq_ok.mp hworld
      exact ⟨n, l, l.comm, h, hrunning, List.mem_singleton.mp hcomm, h.comm l hrunning⟩
    · cases hcomm
  | communicator handle =>
    simp only [BackendCall.handsOut] at hcomm
    split at hcomm
    · rename_i found hfound
      cases List.mem_singleton.mp hcomm
      obtain ⟨l, x, hrunning, hx, hissued⟩ := h.communicator hfound
      have hgrows := (Fabric.still_communicator b handle f).grows
      exact ⟨n, l, x, (h.kept (h.node.communicator b handle) hgrows).1, hrunning, hx,
        hissued.grows hgrows⟩
    · cases hcomm
  | openView args handle =>
    simp only [BackendCall.handsOut] at hcomm
    generalize hcall : ViewState.construct Fabric.engine b args handle f = out at hcomm
    obtain ⟨answer, f'⟩ := out
    cases answer with
    | error e => cases hcomm
    | ok state =>
      obtain ⟨n', l, x, y, hliving, hrunning, hx, hy, hxissued, hyissued⟩ := h.openView hcall
      have hafter : (BackendCall.openView args handle).after b f = f' := by
        rw [BackendCall.after, hcall]
      rw [hafter]
      rcases (ViewState.construct_populated hcall).mem_comms hcomm with rfl | rfl
      · exact ⟨n', l, x, hliving, hrunning, hx, hxissued⟩
      · exact ⟨n', l, y, hliving, hrunning, hy, hyissued⟩
  | endView started w => cases hcomm

end HandedOut

/-! ## §6 Whole runs -/

namespace Comm

/-- **Dead**: every collective is refused, as the runtime is not running. -/
def IsDead (comm : Comm) (f : Fabric) : Prop :=
  ∀ call : GroupComm.Call, call.offer comm f = (.refuse .notRunning, f)

/-- **Live**: no collective is refused for that reason. -/
def IsLive (comm : Comm) (f : Fabric) : Prop :=
  ∀ call : GroupComm.Call, (call.offer comm f).1 ≠ .refuse .notRunning

/-- **What a communicator says**: the handle and the size of its group, its owner's rank there,
and the memory of the members. -/
structure Describes (comm : Comm) (f : Fabric) (config : Config) (g : Group) (rank : Nat) :
    Prop where
  handle : comm.handle = g.handle
  rank? : comm.rank? = g.rankOf? rank
  size : comm.size = g.size
  memoryOf : ∀ r, comm.memoryOf r f =
    (match g.members[r]? with
      | some member => .ok (config.memoryOf member)
      | none => .error (.invalidRank r g.size), f)

section

variable {x : GroupComm} {f : Fabric}

theorem isDead_of_isAlive (h : f.isAlive x = false) : (Comm.ofGroup x).IsDead f := by
  intro call
  cases call with
  | gather payload datatype root =>
    show ((x.gather (f.isAlive x) payload datatype root).andThen _, f) = _
    rw [h]
    rfl
  | reduce payload datatype op root =>
    show ((x.reduce (f.isAlive x) payload datatype op root).andThen _, f) = _
    rw [h]
    rfl

theorem isLive_of_isAlive (h : f.isAlive x = true) : (Comm.ofGroup x).IsLive f := by
  intro call
  cases hcheck : call.check x (f.isAlive x) with
  | ok me =>
    obtain ⟨conclude, hoffer, -⟩ := GroupComm.Call.offer_of_check hcheck
    rw [hoffer]
    exact nofun
  | error e =>
    rw [GroupComm.Call.offer_of_check_error hcheck]
    rintro ⟨⟩
    -- a communicator that is alive is refused for other reasons
    rcases GroupComm.Call.check_eq_error hcheck with hbarred | ⟨-, he | ⟨op, he⟩⟩
    · cases hbarred with
      | notRunning hdead => exact absurd (h.symm.trans hdead) (by decide)
    · cases he
    · cases he

/-- A communicator that is refused once is dead. -/
theorem isDead_of_offer {call : GroupComm.Call}
    (h : (call.offer (.ofGroup x) f).1 = .refuse .notRunning) : (Comm.ofGroup x).IsDead f := by
  cases halive : f.isAlive x with
  | false => exact isDead_of_isAlive halive
  | true => exact absurd h (isLive_of_isAlive halive call)

theorem not_isLive_of_isDead (h : (Comm.ofGroup x).IsDead f) : ¬ (Comm.ofGroup x).IsLive f :=
  fun hlive => hlive (.gather [] .byte 0) (congrArg Prod.fst (h _))

theorem isLive_iff : (Comm.ofGroup x).IsLive f ↔ f.isAlive x = true := by
  refine ⟨fun hlive => ?_, isLive_of_isAlive⟩
  by_contra hdead
  exact not_isLive_of_isDead (isDead_of_isAlive (eq_false_of_ne_true hdead)) hlive

theorem isDead_iff : (Comm.ofGroup x).IsDead f ↔ ¬ f.isAlive x = true := by
  refine ⟨fun hdead halive => ?_, fun h => isDead_of_isAlive (eq_false_of_ne_true h)⟩
  exact not_isLive_of_isDead hdead (isLive_of_isAlive halive)

end

end Comm

section Runs

variable {b : BackendId} {rank cluster first life : Nat} {f f' : Fabric} {n n' : Node}
  {x : GroupComm}

theorem GroupComm.Issued.describes (h : x.Issued b rank cluster f life) {config : Config}
    (hconfig : x.config = config) (f' : Fabric) :
    (Comm.ofGroup x).Describes f' config x.group rank where
  handle := rfl
  rank? := by
    show x.group.rankOf? x.worldRank = _
    rw [h.isEnd.owner]
  size := rfl
  memoryOf r := by
    show (x.memoryOf r, f') = _
    rw [GroupComm.memoryOf, hconfig]
    rfl

/-- **No way back**: the communicators of a life may be used later exactly if the life still
goes on, and that is so exactly if the running world has the life's identifier. -/
theorem Living.goes_on (h : Living b rank cluster first f n)
    (h' : Living b rank cluster first f' n')
    (hsince : Since f n f' n') {l : Life} (hrunning : n.running = some l)
    (hdistinct : Set.InjOn f.supply (Set.Ico first f'.drawn)) :
    (∃ l', n'.running = some l' ∧ l'.number = l.number) ↔
      ∃ w, Fabric.world b f' = .ok w ∧ w.id = l.id := by
  have hnumber := h.number l hrunning
  obtain ⟨i, hfirst, hi, hid⟩ := h.drawn l hrunning
  constructor
  · -- numbers are only given once, so it is the very same life
    rintro ⟨l', hl', hsame⟩
    refine ⟨l'.world b, h'.node.world_eq_ok.mpr ⟨l', hl', rfl⟩, ?_⟩
    rcases hsince.running l' hl' with hold | ⟨hlate, -⟩
    · cases hrunning.symm.trans hold
      rfl
    · omega
  · rintro ⟨w, hw, hsame⟩
    obtain ⟨l', hl', rfl⟩ := h'.node.world_eq_ok.mp hw
    refine ⟨l', hl', ?_⟩
    rcases hsince.running l' hl' with hold | ⟨-, j, hj, hj', hid'⟩
    · cases hrunning.symm.trans hold
      rfl
    · -- an identifier that was drawn since is another one
      have hij : i = j := hdistinct ⟨hfirst, hi.trans_le hsince.grows.drawn⟩
        ⟨h.first_le.trans hj, hj'⟩ (hid.symm.trans (hsame.symm.trans hid'))
      exact absurd hi (Nat.not_lt.mpr (hij ▸ hj))

/-- **A life that is over** is not begun again: the lives that are begun have later numbers. -/
theorem Since.not_resumed (h : Since f n f' n') (hlast : life < n.alive.length)
    (hover : ¬ ∃ l, n.running = some l ∧ l.number = life) :
    ¬ ∃ l, n'.running = some l ∧ l.number = life := by
  rintro ⟨l, hl, hnumber⟩
  rcases h.running l hl with hold | ⟨hlate, -⟩
  · exact hover ⟨l, hold, hnumber⟩
  · omega

end Runs

namespace Deed

/-- **Communicators die with their instance**. At every moment of a node's history a start
succeeds: it begins an instance if the node was stopped, and attaches to the one that runs if
not. A communicator that a call hands out lets collectives in exactly as long as the instance
runs that ran after the call; once it refuses them it does so for ever, while it always says
the same about the same registered group. -/
theorem communicators_die_with_instance {f : Fabric} {b : BackendId} {rank cluster : Nat}
    {c : Cluster} (hnode : f.HasNode b (.fresh rank cluster))
    (hcluster : f.clusters[cluster]? = some c) (hc : c.Reachable) (before : List Deed) :
    let f₁ := run before f
    (∀ args, ∃ startup f₂, Fabric.start b args f₁ = (.ok startup, f₂) ∧
        (startup.started = true ↔ f₁.isRunning b = false) ∧
        Fabric.world b f₂ = .ok startup.world ∧
        (f₁.isRunning b = true → Fabric.world b f₁ = .ok startup.world ∧ f₂ = f₁)) ∧
      ∀ (call : BackendCall) (comm : Comm), comm ∈ call.handsOut b f₁ →
        ∃ (world : World Comm) (number : Nat) (g : Group),
          Fabric.world b (call.after b f₁) = .ok world ∧
          ∀ after : List Deed,
            let f₂ := run after (call.after b f₁)
            (Set.InjOn f.supply (Set.Ico f.drawn f₂.drawn) →
              (comm.IsLive f₂ ↔ ∃ w, Fabric.world b f₂ = .ok w ∧ w.id = world.id) ∧
                (comm.IsDead f₂ ↔ ¬ ∃ w, Fabric.world b f₂ = .ok w ∧ w.id = world.id)) ∧
            (∀ refused : GroupComm.Call, (refused.offer comm f₂).1 = .refuse .notRunning →
              ∀ later, comm.IsDead (run later f₂)) ∧
            (∃ c', f₂.clusters[cluster]? = some c' ∧ c'.groups[number]? = some g) ∧
            comm.Describes f₂ c.config g rank := by
  intro f₁
  have hfollowed : Followed b rank cluster f.drawn f (.fresh rank cluster) f₁ :=
    (Living.fresh hnode hcluster hc).followed.run before
  obtain ⟨n₁, h₁, hsince₁⟩ := hfollowed
  constructor
  · intro args
    obtain ⟨l, f₂, n₂, hstart, h₂, -, hrunning, hattached⟩ := h₁.start args
    refine ⟨_, f₂, hstart, by simp, h₂.node.world_eq_ok.mpr ⟨l, hrunning, rfl⟩, ?_⟩
    intro hup
    obtain ⟨rfl, rfl⟩ := hattached (h₁.node.isRunning_eq ▸ hup)
    exact ⟨h₂.node.world_eq_ok.mpr ⟨l, hrunning, rfl⟩, rfl⟩
  · intro call comm hcomm
    obtain ⟨n₂, l, x, h₂, hrunning, rfl, hx⟩ := h₁.handsOut hcomm
    obtain ⟨_, _, hsince₂⟩ := Followed.call ⟨n₁, h₁, hsince₁⟩ b call
    refine ⟨l.world b, x.number, x.group, h₂.node.world_eq_ok.mpr ⟨l, hrunning, rfl⟩, ?_⟩
    intro after f₃
    have hfollowed₃ : Followed b rank cluster f.drawn (call.after b f₁) n₂ f₃ :=
      h₂.followed.run after
    obtain ⟨n₃, h₃, hsince₃⟩ := hfollowed₃
    have hx₃ := hx.grows hsince₃.grows
    refine ⟨?_, ?_, ?_, ?_⟩
    · -- alive means that its life goes on, which the world's identifier tells
      intro hdistinct
      rw [← hsince₂.grows.supply] at hdistinct
      have hgoes := (h₃.isAlive_iff hx₃).trans (h₂.goes_on h₃ hsince₃ hrunning hdistinct)
      exact ⟨Comm.isLive_iff.trans hgoes, Comm.isDead_iff.trans (not_congr hgoes)⟩
    · -- dead means that its life is over, and it stays over
      intro refused hrefused later
      have hfollowed₄ : Followed b rank cluster f.drawn f₃ n₃ (run later f₃) :=
        h₃.followed.run later
      obtain ⟨n₄, h₄, hsince₄⟩ := hfollowed₄
      have hdead := Comm.isDead_iff.mp (Comm.isDead_of_offer hrefused)
      rw [h₃.isAlive_iff hx₃] at hdead
      rw [Comm.isDead_iff, h₄.isAlive_iff (hx₃.grows hsince₄.grows)]
      have hlast := h₂.number l hrunning
      have hlives := hsince₃.lives
      exact hsince₄.not_resumed (by omega) hdead
    · obtain ⟨c', hc', -, hgroup⟩ := hx₃.registered
      exact ⟨c', hc', hgroup⟩
    · obtain ⟨c', hc', hconfig, -⟩ := hx₃.registered
      obtain ⟨c'', hc'', hgrows⟩ := (hsince₂.grows.trans hsince₃.grows).clusters cluster c hcluster
      cases hc'.symm.trans hc''
      exact hx₃.describes (hconfig.symm.trans hgrows.config) f₃

/-- A node that is stopped and started again while a communicator of its first instance is
kept. -/
def restart : List Deed := [.call 0 .stop, .call 0 (.start [])]

/-- A view of a registered group is opened, which hands out the communicators of the world, of the
group, and of the group's memory. After a restart the node runs, and yet all three are dead. -/
theorem communicators_die_with_instance_restarted :
    Ledger.pairFabric.HasNode 0 (.fresh 0 0) ∧
      (∃ c, Ledger.pairFabric.clusters[0]? = some c ∧ c.Reachable) ∧
      let f₁ := run [.register 0 [0]] Ledger.pairFabric
      let view := BackendCall.openView [] ⟨2⟩
      let f₂ := run restart (view.after 0 f₁)
      (view.handsOut 0 f₁).map Comm.handle = [.world, ⟨2⟩, ⟨2⟩] ∧
        Set.InjOn Ledger.pairFabric.supply (Set.Ico Ledger.pairFabric.drawn f₂.drawn) ∧
        f₂.isRunning 0 = true ∧ ∀ comm ∈ view.handsOut 0 f₁, comm.IsDead f₂ := by
  have hnode : Ledger.pairFabric.backends[0]? = some (.node (.fresh 0 0)) := rfl
  have hcluster : Ledger.pairFabric.clusters[0]? = some (.ofConfig (.ofParticipants 2)) := rfl
  have hcreate : Cluster.create (.ofParticipants 2) = .ok (.ofConfig (.ofParticipants 2)) := rfl
  have hc : (Cluster.ofConfig (.ofParticipants 2)).Reachable := .create hcreate
  have hdistinct : Set.InjOn Fabric.counting (Set.Ico 0 2) := by
    rintro i ⟨-, hi⟩ j ⟨-, hj⟩ hij
    have hnumbers : i % 2 ^ 128 = j % 2 ^ 128 := congrArg (fun id => id.value.toNat) hij
    omega
  obtain ⟨-, hhanded⟩ := communicators_die_with_instance hnode hcluster hc [.register 0 [0]]
  refine ⟨hnode, ⟨_, hcluster, hc⟩, ?_⟩
  intro f₁ view f₂
  have hdrawn : f₂.drawn = 2 := by decide +kernel
  have hapart : Set.InjOn Ledger.pairFabric.supply (Set.Ico Ledger.pairFabric.drawn f₂.drawn) := by
    rw [hdrawn]
    exact hdistinct
  refine ⟨by decide +kernel, hapart, by decide +kernel, fun comm hcomm => ?_⟩
  obtain ⟨world, number, g, hworld, hlater⟩ := hhanded view comm hcomm
  obtain ⟨hlive, -⟩ := hlater restart
  refine (hlive hapart).2.mpr ?_
  -- the first instance has the first identifier, and the one that runs has the second
  have hfirst : (Fabric.world 0 (view.after 0 f₁)).map World.id = .ok (Fabric.counting 0) := by
    decide +kernel
  have hsecond : (Fabric.world 0 f₂).map World.id = .ok (Fabric.counting 1) := by
    decide +kernel
  rintro ⟨w, hw, hsame⟩
  have hid : world.id = Fabric.counting 0 := by
    rw [hworld] at hfirst
    exact Except.ok.inj hfirst
  have hid' : w.id = Fabric.counting 1 := by
    rw [show Fabric.world 0 f₂ = .ok w from hw] at hsecond
    exact Except.ok.inj hsecond
  exact absurd (hid'.symm.trans (hsame.trans hid)) (by decide)

end Deed

end ClusterView
