import ClusterView.Proofs.Gathers
import ClusterView.Proofs.Participants
import ClusterView.Proofs.Portraits
import ClusterView.Proofs.Quoting
import ClusterView.Proofs.Table
import ClusterView.Proofs.TypedReduction

/-!
# What the demo comes to

The participants of the demo sit at one table with three rounds, for the sum of ranks, the
memory and the labels. Each of them keeps to the table, so under every schedule all of them
come to an end, and rank zero has got the summary that the configuration determines.

## Sections
- §1: The table
- §2: Questions to a view
- §3: One participant
- §4: The crew
- §5: Success
- §6: The demo
-/

namespace ClusterView

/-! ## §1 The table -/

namespace Demo

/-- A participant's label. -/
def label (rank : Nat) : String := s!"rank-{rank}"

/-- What a participant brings to a round. -/
def payload (config : Config) (rank : Nat) : (round : Nat) → Bytes
  | 0 => Element.encode wordType (word (UInt64.ofNat rank))
  | 1 => Element.encode wordType (word (config.memoryOf rank))
  | _ => Bytes.ofText (Json.quote (label rank))

end Demo

/-- **The table** of the demo: everybody meets in the world, three times. -/
def Scene.table (S : Scene) : Table Workplace Standing where
  point := ⟨S.cluster, 0⟩
  size := S.size
  rounds := 3
  payload := Demo.payload S.config
  Inv := S.InPlace

/-! ## §2 Questions to a view -/

namespace Scene

variable {S : Scene} {rank : Nat}

/-- The resource set of a rank, as a participant sees it. -/
def set (S : Scene) (rank other : Nat) : ResourceSet Comm :=
  .ofMember (.ofGroup (S.comm rank)) other (S.config.memoryOf other)
    (decide (some rank = some other))

theorem Describes.sets_eq {state : ViewState Comm} (h : S.Describes rank state) :
    state.sets = (List.range S.size).map (S.set rank) := by
  rw [h.sets, ViewState.describeMembers, memory]
  apply List.ext_getElem?
  intro i
  by_cases hi : i < S.size <;> simp [hi, set]

/-- A participant finds itself. -/
theorem Describes.mySet {state : ViewState Comm} (h : S.Describes rank state)
    (hrank : rank < S.size) : ViewState.mySet (some state) = .ok (S.set rank rank) := by
  refine ViewState.mySet_of_mine h.sets_eq hrank fun other => ?_
  show decide (some rank = some other) = true ↔ _
  rw [decide_eq_true_eq, Option.some.injEq]

theorem Describes.size {state : ViewState Comm} (h : S.Describes rank state) :
    ViewState.size (some state) = S.size :=
  ViewState.size_of_sets h.sets_eq

theorem Describes.at? {state : ViewState Comm} (h : S.Describes rank state) {index : Nat}
    (hindex : index < S.size) :
    ViewState.at? (some state) index = .ok (S.set rank index) :=
  ViewState.at?_of_lt h.sets_eq hindex

end Scene

namespace Demo

/-- How many ranks have the same memory as rank zero. -/
def likeRoot (config : Config) : Nat :=
  ((List.range config.size).filter fun rank => config.memoryOf rank = config.memoryOf 0).length

end Demo

theorem Scene.Describes.count {S : Scene} {rank : Nat} {state : ViewState Comm}
    (h : S.Describes rank state) :
    ViewState.count (some state) (S.set rank 0).ram = .ok (Demo.likeRoot S.config) :=
  ViewState.count_of_sets h.sets_eq _

/-! ## §3 One participant -/

/-- One more value is combined with what the others come to. -/
theorem combineLeft_concat {α : Type} {f : α → α → α} {values : List α} {result : α}
    (h : combineLeft f values = some result) (last : α) :
    combineLeft f (values ++ [last]) = some (f result last) := by
  cases values with
  | nil => cases h
  | cons first rest =>
    injection h with h
    simp [combineLeft, h]

namespace Demo

theorem sum_word (a b : UInt64) : wordType.operator .sum (word a) (word b) = word (a + b) :=
  rfl

/-- **The sum of ranks**, as words. -/
theorem combineLeft_ranks {n : Nat} (hn : 0 < n) :
    combineLeft (wordType.operator .sum) ((List.range n).map fun r => word (UInt64.ofNat r)) =
      some (word (UInt64.ofNat (n * (n - 1) / 2))) := by
  induction n, hn using Nat.le_induction with
  | base => rfl
  | succ n hn ih =>
    rw [List.range_succ, List.map_append, List.map_singleton, combineLeft_concat ih, sum_word,
      ← UInt64.ofNat_add, Nat.triangle_succ]

section Actions

variable {S : Scene} {rank k round : Nat} {said : String} {α : Type}

/-- A question to the participant's own view. -/
theorem keeps_askView (hrank : rank < S.size) {question : Workplace → Except ViewError α}
    {answer : α} {Q : Except ViewError α → Standing → Nat → Prop}
    (hanswer : ∀ d state, d.behind (.alias k) = some state → S.Describes rank state →
      question d = .ok answer)
    (hQ : Q (.ok answer) (.engaged k said) round) :
    S.table.Keeps rank Q (ask question).run (.engaged k said) round := by
  apply Table.Keeps.ask
  intro d π hd hstanding
  obtain ⟨state, -, hbehind, hdescribes⟩ := hd.behind hrank hstanding
  rw [hanswer d state hbehind hdescribes]
  exact hQ

theorem keeps_report (event : Event) {Q : Except ViewError Unit → Standing → Nat → Prop}
    (hQ : Q (.ok ()) (.engaged k said) round) :
    S.table.Keeps rank Q (ExceptT.lift (Program.atomically fun d : Workplace =>
      ((), { d with engine := Fabric.engine.report event d.engine }))).run (.engaged k said)
      round := by
  intro d π hd hstanding
  refine ⟨.engaged k said, ?_, hQ⟩
  rw [← hstanding, Function.update_eq_self]
  exact Scene.InPlace.report hd event

theorem keeps_announce (hrank : rank < S.size) (line : String)
    {Q : Except ViewError Unit → Standing → Nat → Prop}
    (hQ : Q (.ok ()) (.engaged k (if rank = 0 then said ++ (line ++ "\n") else said)) round) :
    S.table.Keeps rank Q (announce (.alias k) line).run (.engaged k said) round := by
  apply Table.Keeps.atomically
  intro d π hd hstanding
  obtain ⟨d', hwrite, hd'⟩ := Scene.InPlace.write hd hrank hstanding (line ++ "\n")
  refine ⟨.engaged k (if rank = 0 then said ++ (line ++ "\n") else said), ?_, ?_⟩
  · simp only [bind, StateT.bind, hwrite]
    exact hd'
  · simp only [bind, StateT.bind, hwrite]
    exact hQ

theorem keeps_meet {call : Workplace → StateM Fabric (Offer ViewError α)} {answer : α}
    {Q : Except ViewError α → Standing → Nat → Prop} (hround : round < 3)
    (hcall : ∀ d π, S.InPlace d π → π rank = .engaged k said → ∃ conclude,
      call d d.engine = (.meet (S.table.seat rank) (payload S.config rank round) conclude,
        d.engine) ∧ conclude (S.table.copy round) = .ok answer)
    (hQ : Q (.ok answer) (.engaged k said) (round + 1)) :
    S.table.Keeps rank Q (meet call).run (.engaged k said) round := by
  apply Table.Keeps.collective hround
  intro d π hd hstanding
  obtain ⟨conclude, hoffer, hanswer⟩ := hcall d π hd hstanding
  refine ⟨conclude, ?_, ?_⟩
  · simp only [Desk.onEngine, hoffer]
    rfl
  · rw [hanswer]
    exact hQ

/-! The three collectives, each with what everybody brings and what rank zero gets. -/

theorem size_comm (S : Scene) (rank : Nat) : (S.comm rank).size = S.size :=
  List.length_range

/-- There is a root. -/
theorem root_lt (hrank : rank < S.size) : ViewState.root < (S.comm rank).size := by
  rw [size_comm]
  exact Nat.zero_lt_of_lt hrank

theorem seat_comm (S : Scene) (rank slot : Nat) : (S.comm rank).seat slot = S.table.seat slot := by
  rw [GroupComm.seat, size_comm]
  rfl

theorem meets_sum {d : Workplace} {π : Nat → Standing} (hrank : rank < S.size)
    (hd : S.InPlace d π) (hstanding : π rank = .engaged k said) :
    ∃ conclude, ViewState.reduce Fabric.engine (d.behind (.alias k)) wordType
        (word (UInt64.ofNat rank)) .sum d.engine =
          (.meet (S.table.seat rank) (payload S.config rank 0) conclude, d.engine) ∧
      conclude (S.table.copy 0) = .ok (if rank = 0 then
        some (word (UInt64.ofNat (S.size * (S.size - 1) / 2))) else none) := by
  obtain ⟨state, -, hbehind, hdescribes⟩ := hd.behind hrank hstanding
  have hregistered : Registry.isRegistered wordType .sum = true := rfl
  obtain ⟨conclude, hreduce, hconclude⟩ := Collective.reduce_of_registered hregistered
    (hd.isAlive hrank hstanding) (Scene.rank?_comm hrank) (root_lt hrank)
    (word (UInt64.ofNat rank))
  refine ⟨conclude, ?_, ?_⟩
  · rw [hbehind]
    rw [seat_comm, ← hdescribes.comm] at hreduce
    exact hreduce
  · have hsize : 0 < S.size := Nat.zero_lt_of_lt hrank
    have hvalues : (List.range S.size).map (fun r => word (UInt64.ofNat r)) ≠ [] := by
      simpa using Nat.ne_of_gt hsize
    have hcopy := hconclude _ hvalues
    rw [List.map_map, combineLeft_ranks hsize] at hcopy
    exact hcopy

theorem meets_memory {d : Workplace} {π : Nat → Standing} (hrank : rank < S.size)
    (hd : S.InPlace d π) (hstanding : π rank = .engaged k said) :
    ∃ conclude, ViewState.gather Fabric.engine (d.behind (.alias k)) wordType
        (word (S.config.memoryOf rank)) d.engine =
          (.meet (S.table.seat rank) (payload S.config rank 1) conclude, d.engine) ∧
      conclude (S.table.copy 1) = .ok (if rank = 0 then
        some ((List.range S.size).map fun r => word (S.config.memoryOf r)) else none) := by
  obtain ⟨state, -, hbehind, hdescribes⟩ := hd.behind hrank hstanding
  obtain ⟨conclude, hgather, hconclude⟩ := Collective.gather_of_datatype (t := wordType) rfl
    (hd.isAlive hrank hstanding) (Scene.rank?_comm hrank) (root_lt hrank)
    (word (S.config.memoryOf rank))
  refine ⟨conclude, ?_, ?_⟩
  · rw [hbehind]
    rw [seat_comm, ← hdescribes.comm] at hgather
    exact hgather
  · have hcopy := hconclude ((List.range S.size).map fun r => word (S.config.memoryOf r))
    rw [List.map_map] at hcopy
    exact hcopy

theorem meets_labels {d : Workplace} {π : Nat → Standing} (hrank : rank < S.size)
    (hd : S.InPlace d π) (hstanding : π rank = .engaged k said) :
    ∃ conclude, ViewState.gatherSerialized Fabric.engine (d.behind (.alias k)) Format.text
        (label rank) d.engine =
          (.meet (S.table.seat rank) (payload S.config rank 2) conclude, d.engine) ∧
      conclude (S.table.copy 2) = .ok (if rank = 0 then
        some ((List.range S.size).map label) else none) := by
  obtain ⟨state, -, hbehind, hdescribes⟩ := hd.behind hrank hstanding
  obtain ⟨conclude, hgather, hconclude⟩ := Collective.gatherSerialized_of_format
    Format.text_write Format.text_read (hd.isAlive hrank hstanding) (Scene.rank?_comm hrank)
    (root_lt hrank) (label rank)
  refine ⟨conclude, ?_, ?_⟩
  · rw [hbehind]
    rw [seat_comm, ← hdescribes.comm] at hgather
    exact hgather
  · have hcopy := hconclude ((List.range S.size).map label)
    rw [List.map_map] at hcopy
    exact hcopy

end Actions

/-- **The summary** that a configuration determines. -/
def summaryOf (config : Config) : Summary where
  participants := config.size
  rankSum := UInt64.ofNat (config.size * (config.size - 1) / 2)
  memory := (List.range config.size).map config.memoryOf
  labels := (List.range config.size).map label
  likeRoot := likeRoot config

/-- **The lines of progress** that rank zero writes. -/
def transcript (config : Config) : String :=
  s!"zoneview: {config.size} participants, runtime started here: true" ++ "\n" ++
    (s!"zoneview: rank sum {(summaryOf config).rankSum}" ++ "\n")

/-- **Exploring**: rank zero comes to the summary and has written its lines, everybody else
comes to nothing and has written nothing. -/
theorem keeps_explore {S : Scene} {rank k : Nat} (hrank : rank < S.size)
    {Q : Except ViewError (Option Summary) → Standing → Nat → Prop}
    (hQ : Q (.ok (if rank = 0 then some (summaryOf S.config) else none))
      (.engaged k (if rank = 0 then transcript S.config else "")) 3) :
    S.table.Keeps rank Q (explore Fabric.engine (.alias k)).run (.engaged k "") 0 := by
  have hsize : 0 < S.size := Nat.zero_lt_of_lt hrank
  unfold explore
  refine .attempt (keeps_askView hrank (fun _ _ hbehind h => by
    rw [hbehind, h.mySet hrank]) ⟨_, rfl, ?_⟩)
  refine .attempt (keeps_report _ ⟨_, rfl, ?_⟩)
  refine .attempt (keeps_askView hrank (fun _ _ hbehind h => by
    rw [hbehind, h.size]) ⟨_, rfl, ?_⟩)
  refine .attempt (keeps_askView hrank (fun _ _ hbehind h => by
    rw [hbehind, ViewState.startedRuntime, h.started]) ⟨_, rfl, ?_⟩)
  refine .attempt (keeps_announce hrank _ ⟨_, rfl, ?_⟩)
  refine .attempt (keeps_meet (by decide) (fun _ _ => meets_sum hrank) ⟨_, rfl, ?_⟩)
  refine .attempt (keeps_meet (by decide) (fun _ _ => meets_memory hrank) ⟨_, rfl, ?_⟩)
  refine .attempt (keeps_meet (by decide) (fun _ _ => meets_labels hrank) ⟨_, rfl, ?_⟩)
  refine .attempt (keeps_askView hrank (fun _ _ hbehind h => by
    rw [hbehind, h.at? hsize]) ⟨_, rfl, ?_⟩)
  refine .attempt (keeps_askView hrank (fun _ _ hbehind h => by
    rw [hbehind, h.count]) ⟨_, rfl, ?_⟩)
  by_cases hzero : rank = 0
  · subst hzero
    simp only [if_true] at hQ ⊢
    refine .attempt (keeps_announce hrank _ ⟨_, rfl, ?_⟩)
    have hmemory : ((List.range S.size).map fun r => word (S.config.memoryOf r)).map
        (fun m : BitVec 64 => (⟨m⟩ : UInt64)) = (List.range S.size).map S.config.memoryOf := by
      show ((List.range S.size).map fun r => (S.config.memoryOf r).toBitVec).map
        (fun m : BitVec 64 => (⟨m⟩ : UInt64)) = _
      rw [List.map_map]
      rfl
    have htruth : toString " participants, runtime started here: " ++
        toString (Describe.truth true) =
          toString " participants, runtime started here: true" := by decide
    have hfirst : s!"zoneview: {S.size} participants, runtime started here: " ++
        toString (Describe.truth true) =
          s!"zoneview: {S.config.size} participants, runtime started here: true" := by
      rw [String.append_assoc, htruth]
      rfl
    rw [hmemory, String.empty_append]
    rw [transcript, ← hfirst] at hQ
    exact hQ
  · simp only [if_neg hzero] at hQ ⊢
    exact hQ

/-- What a participant is to come to in the end. -/
def Ends (config : Config) (rank : Nat) (outcome : Except DemoError (Option Summary))
    (standing : Standing) : Prop :=
  outcome = .ok (if rank = 0 then some (summaryOf config) else none) ∧
    standing = .finished (if rank = 0 then transcript config else "")

/-- **A participant keeps to the table**, from the opening of its view to the end. -/
theorem keeps_participant {S : Scene} {rank : Nat} (hrank : rank < S.size) :
    S.table.Keeps rank (fun outcome standing round =>
        Ends S.config rank outcome standing ∧ round = S.table.rounds)
      (participant Fabric.engine rank (S.base + rank) S.args) .waiting 0 := by
  apply Table.Keeps.bind
  apply Table.Keeps.atomically
  intro d π hd hstanding
  obtain ⟨d', hopen, hd'⟩ := Scene.InPlace.openView hd hrank hstanding
  refine ⟨.engaged d.nextState "", ?_, ?_⟩
  · rw [show ⟨rank, "view"⟩ = Scene.slot rank from rfl, hopen]
    exact hd'
  · rw [show ⟨rank, "view"⟩ = Scene.slot rank from rfl, hopen]
    apply Table.Keeps.bind
    apply keeps_explore hrank
    apply Table.Keeps.bind
    apply Table.Keeps.atomically
    intro d π hd hstanding
    obtain ⟨d', hdrop, hd'⟩ := Scene.InPlace.dropView hd hrank hstanding
    refine ⟨.finished (if rank = 0 then transcript S.config else ""), ?_, ⟨rfl, rfl⟩, rfl⟩
    rw [hdrop]
    exact hd'

/-! ## §4 The crew -/

/-- The backends that a cluster of a configuration would have. -/
def backends (site : Site) (config : Config) : List BackendId :=
  (Fabric.addCluster (.ofConfig config) site.workplace.engine).1.2

/-- The workplace with the cluster. -/
def workplace (site : Site) (config : Config) : Workplace :=
  { site.workplace with
    engine := (Fabric.addCluster (.ofConfig config) site.workplace.engine).2.report
      (.clusterStarting config.size) }

/-- **The crew** of the demo: a participant for each backend. -/
def crew (site : Site) (config : Config) (args : List String) :
    Crew Workplace (Except DemoError (Option Summary)) :=
  ⟨workplace site config, site.hall, (backends site config).zipIdx.map fun (backend, rank) =>
    participant Fabric.engine rank backend args⟩

/-- **A run of the demo** passes over its crew. -/
theorem run_eq {site : Site} {config : Config} (hvalid : config.validate = .ok ())
    (args : List String) :
    run site config args =
      (conclude 0 none ((crew site config args).run (patience config.size)).results,
        ⟨((crew site config args).run (patience config.size)).shared,
          ((crew site config args).run (patience config.size)).hall⟩) := by
  have hcreate : Cluster.create config = .ok (.ofConfig config) := by
    simp only [Cluster.create, hvalid]
    rfl
  simp only [run, hcreate]
  rfl

/-- The scene of a demo at a site. -/
def scene (site : Site) (config : Config) (args : List String) : Scene where
  config
  args
  cluster := site.workplace.engine.clusters.length
  base := site.workplace.engine.backends.length
  before := site.workplace.output

end Demo

/-- **Room** for the demo at a site: views and states are kept together, the participants'
variables are free, and nobody has been at a meeting of the next cluster. -/
structure Site.HasRoom (site : Site) : Prop where
  kept : site.workplace.Kept .null
  free : ∀ rank, site.workplace.views.find? (Scene.slot rank) = none
  unmet : ∀ point, point.cluster = site.workplace.engine.clusters.length →
    site.hall.meetings.lookup point = none

theorem Site.HasRoom.fresh (supply : Nat → WorldId) : (Site.fresh supply).HasRoom :=
  ⟨Desk.Kept.fresh _ _, fun _ => rfl, fun _ _ => rfl⟩

/-- A consistent configuration has participants. -/
theorem Config.size_pos {config : Config} (hvalid : config.validate = .ok ()) :
    0 < config.size := by
  apply Nat.pos_of_ne_zero
  intro hzero
  have hparticipants : config.participants = 0 := UInt64.toNat_inj.mp hzero
  simp [validate, fault?, hparticipants] at hvalid

namespace Demo

variable {site : Site} {config : Config}

/-- At the beginning everybody is in place. -/
theorem inPlace (hroom : site.HasRoom) (config : Config) (args : List String) :
    (scene site config args).InPlace (workplace site config) fun _ => .waiting := by
  constructor
  case kept =>
    have hkept := hroom.kept
    exact ⟨hkept.slots, hkept.numbers, hkept.numbered, hkept.behind, hkept.held⟩
  case cluster =>
    show (site.workplace.engine.clusters ++ [Cluster.ofConfig config])[
      site.workplace.engine.clusters.length]? = _
    rw [List.getElem?_concat_length]
    rfl
  case output =>
    show site.workplace.output = { site.workplace.output with
      stdout := site.workplace.output.stdout ++ "" }
    rw [String.append_empty]
  case node =>
    intro rank hrank
    have hrank : rank < config.size := hrank
    refine ⟨_, rfl, ?_⟩
    show (site.workplace.engine.backends ++ (List.range config.size).map fun rank =>
      Backend.node (Node.fresh rank site.workplace.engine.clusters.length))[
        site.workplace.engine.backends.length + rank]? = _
    rw [List.getElem?_append_right (Nat.le_add_right _ _), Nat.add_sub_cancel_left,
      List.getElem?_map, List.getElem?_range hrank]
    rfl
  case view => exact fun rank _ => hroom.free rank

theorem length_backends (site : Site) (config : Config) :
    (backends site config).length = config.size := by
  simp [backends, Fabric.addCluster, Cluster.size, Cluster.ofConfig]

theorem mem_backends {backend : BackendId} (h : backend ∈ backends site config) :
    ∃ rank < config.size, backend = site.workplace.engine.backends.length + rank := by
  simpa [backends, Fabric.addCluster, Cluster.size, Cluster.ofConfig, eq_comm] using h

theorem getElem?_members (site : Site) (config : Config) (args : List String) {rank : Nat}
    (hrank : rank < config.size) :
    (crew site config args).members[rank]? = some (participant Fabric.engine rank
      (site.workplace.engine.backends.length + rank) args) := by
  simp [crew, backends, Fabric.addCluster, Cluster.size, Cluster.ofConfig, hrank]

/-- The outcome when nobody but the first participant has a summary. -/
theorem conclude_eq {summary : Summary}
    {outcomes : List (Option (Except DemoError (Option Summary)))}
    (hfirst : outcomes[0]? = some (some (.ok (some summary))))
    (hothers : ∀ rank outcome, outcomes[rank + 1]? = some outcome → outcome = some (.ok none)) :
    conclude 0 none outcomes = .ok summary := by
  -- no later participant changes what has been found
  have hrest : ∀ (rest : List (Option (Except DemoError (Option Summary)))) (rank : Nat),
      (∀ outcome ∈ rest, outcome = some (.ok none)) →
      conclude rank (some summary) rest = .ok summary := by
    intro rest
    induction rest with
    | nil => intro rank _; rfl
    | cons outcome rest ih =>
      intro rank hnone
      rw [hnone outcome (List.mem_cons_self ..), conclude]
      exact ih _ fun other hother => hnone other (List.mem_cons_of_mem _ hother)
  cases outcomes with
  | nil => cases hfirst
  | cons outcome rest =>
    rw [List.getElem?_cons_zero, Option.some.injEq] at hfirst
    rw [hfirst, conclude]
    apply hrest
    intro other hother
    obtain ⟨i, hi⟩ := List.mem_iff_getElem?.mp hother
    exact hothers i other (by rw [List.getElem?_cons_succ, hi])

/-! ## §5 Success -/

/-- **Success** of a demo: the answer is the summary of the configuration, the lines of rank
zero are all that was written, and every backend of the cluster, one for each participant, was
started once and stopped once. -/
structure Success (site : Site) (config : Config) (answer : Except DemoError Summary)
    (d : Workplace) : Prop where
  answer : answer = .ok (summaryOf config)
  output : d.output = { site.workplace.output with
    stdout := site.workplace.output.stdout ++ transcript config }
  size : (backends site config).length = config.size
  backends : ∀ backend ∈ backends site config,
    d.engine.counters backend = (1, 1) ∧ d.engine.isRunning backend = false

/-- A crew that keeps to the table and has ended is a success. -/
theorem Success.of_follows {args : List String}
    {c : Crew Workplace (Except DemoError (Option Summary))} {sessions : Point → Session}
    {π : Nat → Standing} (hsize : 0 < config.size)
    (h : (scene site config args).table.Follows (Ends config) c sessions π)
    (hended : c.hasEnded = true) : Success site config (conclude 0 none c.results) c.shared := by
  obtain ⟨hlength, hresults⟩ := h.results hended
  have hinv : (scene site config args).InPlace c.shared π := h.inv
  have hends : ∀ rank < config.size,
      c.results[rank]? = some (some (.ok (if rank = 0 then some (summaryOf config) else none))) ∧
        π rank = .finished (if rank = 0 then transcript config else "") := by
    intro rank hrank
    obtain ⟨outcome, houtcome, heq, hstanding⟩ := hresults rank hrank
    rw [heq] at houtcome
    exact ⟨houtcome, hstanding⟩
  constructor
  case answer =>
    apply conclude_eq (hends 0 hsize).1
    intro rank outcome houtcome
    have hrank := (List.getElem?_eq_some_iff.mp houtcome).1
    rw [hlength] at hrank
    rw [(hends (rank + 1) hrank).1] at houtcome
    exact (Option.some.inj houtcome).symm
  case output =>
    rw [hinv.output, (hends 0 hsize).2]
    rfl
  case size => exact length_backends site config
  case backends =>
    intro backend hbackend
    obtain ⟨rank, hrank, rfl⟩ := mem_backends hbackend
    obtain ⟨n, hn, hthere⟩ := hinv.node rank hrank
    have hthere : c.shared.engine.backends[site.workplace.engine.backends.length + rank]? =
        some (.node n) := hthere
    rw [(hends rank hrank).2] at hn
    obtain ⟨life, rfl⟩ := hn
    simp only [Fabric.counters, Fabric.isRunning, hthere]
    exact ⟨rfl, rfl⟩

/-- **Every schedule**: whatever moves the participants make, the demo is a success once all
of them have ended, and enough further passes bring them there. -/
theorem success_of_schedule (hroom : site.HasRoom) (hvalid : config.validate = .ok ())
    (args : List String) (schedule : List Crew.Move)
    {c : Crew Workplace (Except DemoError (Option Summary))}
    (hc : c = (crew site config args).follow schedule) :
    (c.hasEnded = true → Success site config (conclude 0 none c.results) c.shared) ∧
      (c.run (patience config.size)).hasEnded = true ∧
      Success site config (conclude 0 none (c.run (patience config.size)).results)
        (c.run (patience config.size)).shared := by
  subst hc
  have hsize := Config.size_pos hvalid
  have hmembers : (crew site config args).members.length = config.size := by
    rw [crew, List.length_map, List.length_zipIdx, length_backends]
  have hpatience : config.size * (2 * 3) < patience config.size := by
    rw [patience]
    omega
  have hinv : (scene site config args).table.Inv (crew site config args).shared
      fun _ => .waiting := inPlace hroom config args
  obtain ⟨⟨_, _, hmiddle⟩, _, _, hlast, hended⟩ := Table.run_from_start
    (Q := Ends config) hinv (hroom.unmet ⟨_, 0⟩ rfl) hmembers
    (fun rank hrank => ⟨_, getElem?_members site config args hrank,
      keeps_participant (S := scene site config args) hrank⟩) schedule hpatience
  exact ⟨Success.of_follows hsize hmiddle, hended, Success.of_follows hsize hlast hended⟩

/-! ## §6 The demo -/

/-- **The demo sums up its cluster.** An inconsistent configuration is refused with its fault
and leaves the site alone. A consistent one leads to success: when the demo is run, and also
under any other schedule of its participants, which can always be completed. -/
theorem run_summarises (hroom : site.HasRoom) (config : Config) (args : List String) :
    (∀ fault, config.validate = .error fault →
      run site config args = (.error (.cluster fault), site)) ∧
    (config.validate = .ok () →
      Success site config (run site config args).1 (run site config args).2.workplace ∧
      ∀ (schedule : List Crew.Move) (c : Crew Workplace (Except DemoError (Option Summary))),
        c = (crew site config args).follow schedule →
          (c.hasEnded = true → Success site config (conclude 0 none c.results) c.shared) ∧
          (c.run (patience config.size)).hasEnded = true ∧
          Success site config (conclude 0 none (c.run (patience config.size)).results)
            (c.run (patience config.size)).shared) := by
  constructor
  · intro fault hfault
    have hcreate : Cluster.create config = .error fault := by
      simp only [Cluster.create, hfault]
      rfl
    simp only [run, hcreate]
  · intro hvalid
    refine ⟨?_, fun schedule c hc => success_of_schedule hroom hvalid args schedule hc⟩
    rw [run_eq hvalid]
    exact (success_of_schedule hroom hvalid args [] rfl).2.2

/-- Three participants, of which only the one in the middle has memory. -/
def middleOnly : Config where
  participants := 3
  memoryPerParticipant := 0
  memoryOverrides := Overrides.empty.insert 1 4096
  maxParticipants := 8

/-- Nobody takes part. -/
def nobody : Config := .ofParticipants 0

theorem run_summarises_middleOnly :
    (Site.fresh Fabric.counting).HasRoom ∧ middleOnly.validate = .ok () ∧
      (run (Site.fresh Fabric.counting) middleOnly ["a"]).1 =
        .ok ⟨3, 3, [0, 4096, 0], ["rank-0", "rank-1", "rank-2"], 2⟩ ∧
      nobody.validate = .error (.config "a cluster needs at least one participant") ∧
      run (Site.fresh Fabric.counting) nobody ["a"] =
        (.error (.cluster (.config "a cluster needs at least one participant")),
          Site.fresh Fabric.counting) := by
  have hroom := Site.HasRoom.fresh Fabric.counting
  have hvalid : middleOnly.validate = .ok () := rfl
  have hempty : nobody.validate =
      .error (.config "a cluster needs at least one participant") := rfl
  have hsummary : summaryOf middleOnly =
      ⟨3, 3, [0, 4096, 0], ["rank-0", "rank-1", "rank-2"], 2⟩ := by
    decide +kernel
  refine ⟨hroom, hvalid, ?_, hempty, (run_summarises hroom nobody ["a"]).1 _ hempty⟩
  rw [← hsummary]
  exact ((run_summarises hroom middleOnly ["a"]).2 hvalid).1.answer

end Demo

end ClusterView
