import ClusterView.View.State

/-!
# Populated states

A construction that succeeds has started the backend, found the communicator and asked for
the memory of all its members, in this order, and nothing else has failed. So the state it
leads to has a resource set for every member, each with the member's own memory.

## Sections
- §1: What succeeds
- §2: What a success leads to
-/

namespace ClusterView

theorem modify_apply {σ : Type} (f : σ → σ) (s : σ) :
    (modify f : StateM σ PUnit) s = (PUnit.unit, f s) :=
  rfl

namespace ViewState

variable {σ κ : Type} {E : Engine σ κ}

/-! ## §1 What succeeds -/

theorem length_of_memories {comm : κ} {ranks : List Nat} {s s' : σ} {memory : List UInt64}
    (h : memories E comm ranks s = (.ok memory, s')) : memory.length = ranks.length := by
  induction ranks generalizing s memory with
  | nil =>
    cases h
    rfl
  | cons rank rest ih =>
    simp only [memories, bind, StateT.bind] at h
    generalize E.memoryOf comm rank s = out at h
    obtain ⟨answer, s₁⟩ := out
    cases answer with
    | error e => cases h
    | ok first =>
      simp only [StateT.bind] at h
      generalize hrest : memories E comm rest s₁ = out at h
      obtain ⟨answer, s₂⟩ := out
      cases answer with
      | error e => cases h
      | ok others =>
        cases h
        rw [List.length_cons, List.length_cons, ih hrest]

/-- **A survey succeeds** with the memory of every member of the communicator it found. -/
theorem survey_eq_ok {backend : BackendId} {handle : CommHandle} {s s' : σ} {comm : κ}
    {memory : List UInt64} (h : survey E backend handle s = (.ok (comm, memory), s')) :
    ∃ s₁, E.communicator backend handle s = (.ok comm, s₁) ∧
      memories E comm (List.range (E.size comm)) s₁ = (.ok memory, s') := by
  simp only [survey, bind, StateT.bind] at h
  generalize E.communicator backend handle s = out at h ⊢
  obtain ⟨answer, s₁⟩ := out
  cases answer with
  | error e => cases h
  | ok found =>
    simp only [StateT.bind] at h
    generalize hmemory : memories E found (List.range (E.size found)) s₁ = out at h
    obtain ⟨answer, s₂⟩ := out
    cases answer with
    | error e => cases h
    | ok all =>
      cases h
      exact ⟨s₁, rfl, hmemory⟩

/-- **A construction succeeds** when the start and the survey do, and then the state is made
of what they answered. -/
theorem construct_eq_ok {backend : BackendId} {args : List String} {handle : CommHandle}
    {s s' : σ} {state : ViewState κ} (h : construct E backend args handle s = (.ok state, s')) :
    ∃ startup s₁ memory s₂, E.start backend args s = (.ok startup, s₁) ∧
      survey E backend handle (E.report
        (.viewAttached startup.world.id startup.started handle) s₁) =
          (.ok (state.comm, memory), s₂) ∧
      state.started = startup.started ∧ state.backend = backend ∧
      state.world = startup.world ∧
      state.sets = describeMembers state.comm (E.rank state.comm) memory := by
  simp only [construct, bind, StateT.bind] at h
  generalize E.start backend args s = out at h ⊢
  obtain ⟨answer, s₁⟩ := out
  cases answer with
  | error e => cases h
  | ok startup =>
    simp only [StateT.bind, modify_apply, pure, bind] at h
    generalize hsurvey : survey E backend handle (E.report
      (.viewAttached startup.world.id startup.started handle) s₁) = out at h
    obtain ⟨answer, s₂⟩ := out
    cases answer with
    | error e =>
      -- the runtime is released, and the failure stays a failure
      simp only [StateT.bind] at h
      generalize release E startup.started startup.world backend s₂ = out at h
      cases h
    | ok found =>
      obtain ⟨comm, memory⟩ := found
      cases h
      exact ⟨startup, s₁, memory, s₂, rfl, hsurvey, rfl, rfl, rfl, rfl⟩

/-- A construction whose start and survey succeed is made of what they answer. -/
theorem construct_of_survey {backend : BackendId}
    {args : List String} {handle : CommHandle} {s s₁ s₂ : σ} {startup : Startup κ} {comm : κ}
    {memory : List UInt64} (hstart : E.start backend args s = (.ok startup, s₁))
    (hsurvey : survey E backend handle (E.report
      (.viewAttached startup.world.id startup.started handle) s₁) = (.ok (comm, memory), s₂)) :
    construct E backend args handle s =
      (.ok ⟨startup.started, backend, startup.world, comm,
          describeMembers comm (E.rank comm) memory, (Logger.rootOnly (E.rank comm)).1,
          (Logger.rootOnly (E.rank comm)).2⟩,
        E.report (.setsPopulated (E.handle comm)
          (describeMembers comm (E.rank comm) memory).length (E.rank comm)) s₂) := by
  simp only [construct, bind, StateT.bind, hstart, modify_apply, hsurvey]
  rfl

/-! ## §2 What a success leads to -/

/-- **Populated**: the state describes each member of its communicator, in rank order. -/
def Populated (E : Engine σ κ) (state : ViewState κ) : Prop :=
  ∃ memory : List UInt64, memory.length = E.size state.comm ∧
    state.sets = describeMembers state.comm (E.rank state.comm) memory

/-- **What a construction makes is populated**, on any engine. -/
theorem construct_populated {backend : BackendId} {args : List String} {handle : CommHandle}
    {s s' : σ} {state : ViewState κ} (h : construct E backend args handle s = (.ok state, s')) :
    state.Populated E := by
  obtain ⟨startup, s₁, memory, s₂, -, hsurvey, -, -, -, hsets⟩ := construct_eq_ok h
  obtain ⟨s₃, -, hmemory⟩ := survey_eq_ok hsurvey
  exact ⟨memory, (length_of_memories hmemory).trans List.length_range, hsets⟩

/-- The memory in a populated state's set belongs to the member that the set describes. -/
theorem Populated.owner {state : ViewState κ} (h : state.Populated E) {rank : Nat}
    (hrank : rank < E.size state.comm) :
    ∃ set, state.sets[rank]? = some set ∧ set.ram.owner? = some ⟨rank, state.comm⟩ := by
  obtain ⟨memory, hlength, hsets⟩ := h
  have hlt : rank < memory.length := hlength ▸ hrank
  refine ⟨.ofMember state.comm rank memory[rank] (decide (E.rank state.comm = some rank)), ?_,
    rfl⟩
  rw [hsets, describeMembers, List.getElem?_map, List.getElem?_zipIdx,
    List.getElem?_eq_getElem hlt]
  simp only [Option.map_some, Nat.zero_add]

end ViewState

end ClusterView
