import ClusterView.Proofs.Teardown

/-!
# What an operation asks of the engine

An operation on views starts a backend at most once, asks the engine some questions and
reports some events, and stops a backend in two places only: when a construction fails after
its start, and when a state has lost its last alias. Here this is said once, for every
engine, so that what an engine promises about its starts and stops carries over to all views.

A property of the engine's state is steady if questions and reports keep it, and it lasts if
starts and stops keep it too. All that counts
about the states behind views is their role: who started which backend, and what world that
led to.

## Sections
- §1: Steady and lasting properties
- §2: Constructions and teardowns
- §3: Roles
- §4: Operations
-/

namespace ClusterView

/-! ## §1 Steady and lasting properties -/

/-- **Steady property** of an engine's state: reports and questions keep it. -/
structure Engine.Steady {σ κ : Type} (E : Engine σ κ) (P : σ → Prop) : Prop where
  report : ∀ event s, P s → P (E.report event s)
  communicator : ∀ backend handle s, P s → P (E.communicator backend handle s).2
  memoryOf : ∀ comm rank s, P s → P (E.memoryOf comm rank s).2

/-- **Lasting property**: starts and stops keep it as well. -/
structure Engine.Lasting {σ κ : Type} (E : Engine σ κ) (P : σ → Prop) : Prop
    extends E.Steady P where
  start : ∀ backend args s, P s → P (E.start backend args s).2
  stop : ∀ backend s, P s → P (E.stop backend s).2

namespace ViewState

variable {σ κ : Type} {E : Engine σ κ} {P : σ → Prop} {s s₁ : σ}

theorem memories_steady (hP : E.Steady P) (comm : κ) (ranks : List Nat) (h : P s) :
    P (memories E comm ranks s).2 := by
  induction ranks generalizing s with
  | nil => exact h
  | cons rank rest ih =>
    have hhead := hP.memoryOf comm rank s h
    simp only [memories, bind, StateT.bind]
    generalize E.memoryOf comm rank s = out at hhead ⊢
    obtain ⟨answer, s'⟩ := out
    cases answer with
    | error e => exact hhead
    | ok memory => exact ih hhead

theorem survey_steady (hP : E.Steady P) (backend : BackendId) (handle : CommHandle) (h : P s) :
    P (survey E backend handle s).2 := by
  have hfind := hP.communicator backend handle s h
  simp only [survey, bind, StateT.bind]
  generalize E.communicator backend handle s = out at hfind ⊢
  obtain ⟨answer, s'⟩ := out
  cases answer with
  | error e => exact hfind
  | ok comm => exact memories_steady hP comm _ hfind

/-! ## §2 Constructions and teardowns -/

section Construction

variable {backend : BackendId} {args : List String} {handle : CommHandle}

/-- A start that fails is all that happens. -/
theorem construct_of_start_error {e : CommError}
    (h : E.start backend args s = (.error e, s₁)) :
    construct E backend args handle s = (.error (.comm e), s₁) := by
  simp only [construct, bind, StateT.bind, h]
  rfl

/-- **After a start** come questions and reports, and then the construction releases the
runtime and fails, or it leads to a state in the role that the start has given it. -/
theorem construct_of_start_ok {startup : Startup κ}
    (h : E.start backend args s = (.ok startup, s₁)) (hP : E.Steady P) (h₁ : P s₁) :
    (∃ e s₂, P s₂ ∧ construct E backend args handle s =
        (.error e, (release E startup.started startup.world backend s₂).2)) ∨
      ∃ state s₂, P s₂ ∧ construct E backend args handle s = (.ok state, s₂) ∧
        state.started = startup.started ∧ state.backend = backend ∧
        state.world = startup.world := by
  simp only [construct, bind, StateT.bind, h, modify_apply]
  have hsurvey := survey_steady hP backend handle
    (hP.report (.viewAttached startup.world.id startup.started handle) s₁ h₁)
  generalize survey E backend handle _ = out at hsurvey ⊢
  obtain ⟨found, s₂⟩ := out
  cases found with
  | error e => exact Or.inl ⟨.comm e, s₂, hsurvey, rfl⟩
  | ok found =>
    obtain ⟨comm, memory⟩ := found
    exact Or.inr ⟨_, _, hP.report _ s₂ hsurvey, rfl, rfl, rfl, rfl⟩

end Construction

theorem flushLogger_steady (hP : E.Steady P) (l : Logger) (o : Output) (h : P s) :
    P (flushLogger E l (s, o)).2.1 := by
  simp only [flushLogger]
  obtain ⟨answer, l', o'⟩ := l.flush o
  cases answer with
  | ok _ => exact h
  | error cause => exact hP.report _ s h

/-- **A teardown** is a release, after reports at most. -/
theorem teardown_engine (hP : E.Steady P) (state : ViewState κ) (o : Output) (h : P s) :
    ∃ s₁, P s₁ ∧ (state.teardown E (s, o)).2.1 =
      (release E state.started state.world state.backend s₁).2 := by
  have hprogress := flushLogger_steady hP state.progress o h
  exact ⟨_, flushLogger_steady hP state.debug
    (flushLogger E state.progress (s, o)).2.2 hprogress, rfl⟩

/-- Whoever has brought the runtime up stops the backend, and reports how that went. -/
theorem release_started (E : Engine σ κ) (world : World κ) (backend : BackendId) (s : σ) :
    ∃ event, (release E true world backend s).2 = E.report event (E.stop backend s).2 := by
  simp only [release, if_pos, bind, StateT.bind]
  generalize E.stop backend s = out
  obtain ⟨answer, s'⟩ := out
  cases answer with
  | ok _ => exact ⟨_, rfl⟩
  | error e => exact ⟨_, rfl⟩

end ViewState

section Lasting

variable {σ κ : Type} {E : Engine σ κ} {P : σ → Prop} {s : σ}

/-- A release keeps what lasts. -/
theorem Engine.Lasting.release (hP : E.Lasting P) (started : Bool) (world : World κ)
    (backend : BackendId) (h : P s) : P (ViewState.release E started world backend s).2 := by
  cases started with
  | false => exact h
  | true =>
    obtain ⟨event, hrelease⟩ := ViewState.release_started E world backend s
    rw [hrelease]
    exact hP.report event _ (hP.stop backend s h)

/-- So does a construction, whatever comes of it. -/
theorem Engine.Lasting.construct (hP : E.Lasting P) (backend : BackendId) (args : List String)
    (handle : CommHandle) (h : P s) : P (ViewState.construct E backend args handle s).2 := by
  have hstart := hP.start backend args s h
  generalize hcall : E.start backend args s = out at hstart
  obtain ⟨answer, s₁⟩ := out
  cases answer with
  | error e =>
    rw [ViewState.construct_of_start_error hcall]
    exact hstart
  | ok startup =>
    rcases ViewState.construct_of_start_ok hcall hP.toSteady hstart with
      ⟨e, s₂, h₂, hfailed⟩ | ⟨state, s₂, h₂, hdone, -⟩
    · rw [hfailed]
      exact hP.release _ _ _ h₂
    · rw [hdone]
      exact h₂

end Lasting

namespace ViewState

variable {κ : Type}

/-! ## §3 Roles -/

/-- **Role** of a state: all about it that its release depends on. -/
structure Role (κ : Type) where
  started : Bool
  backend : BackendId
  world : World κ

def role (state : ViewState κ) : Role κ := ⟨state.started, state.backend, state.world⟩

@[simp] theorem role_withLogger (state : ViewState κ) (l : Logger) (channel : Channel) :
    (state.withLogger l channel).role = state.role := by
  cases channel <;> rfl

end ViewState

namespace Desk

variable {σ κ : Type}

/-- The role of the state with a number, if there is one. -/
def role? (d : Desk σ κ) (n : Nat) : Option (ViewState.Role κ) :=
  (d.states.lookup n).map ViewState.role

/-- **Starter** of a backend: a live state whose construction brought the backend's runtime
up, as a world. -/
def Starter (d : Desk σ κ) (backend : BackendId) (n : Nat) (world : World κ) : Prop :=
  d.role? n = some ⟨true, backend, world⟩

theorem starter_iff {d : Desk σ κ} {backend : BackendId} {n : Nat} {world : World κ} :
    d.Starter backend n world ↔ ∃ state, d.states.lookup n = some state ∧
      state.started = true ∧ state.backend = backend ∧ state.world = world := by
  simp [Starter, role?, Option.map_eq_some_iff, ViewState.role]

/-- **Letting go** changes nothing, or takes one state away and tears it down. -/
theorem letGo_cases (E : Engine σ κ) (d : Desk σ κ) (loose : View) :
    d.letGo E loose = d ∨
      ∃ n state, loose = .alias n ∧ d.states.lookup n = some state ∧
        (d.letGo E loose).engine = (state.teardown E (d.engine, d.output)).2.1 ∧
        ∀ m, (d.letGo E loose).role? m = if m = n then none else d.role? m := by
  rcases letGo_eq E d loose with hsame | ⟨n, state, hn, -, hstate, hthen⟩
  · exact Or.inl hsame
  · refine Or.inr ⟨n, state, hn, hstate, by rw [hthen], fun m => ?_⟩
    rw [hthen]
    by_cases hm : m = n
    · simp [role?, hm, lookup_filter_self]
    · simp [role?, hm, lookup_filter_ne hm]

end Desk

/-! ## §4 Operations -/

namespace Ledger

variable {σ κ : Type}

/-- The backend that an operation asks for a view, with the arguments and the handle. -/
def request? (E : Engine σ κ) (L : Ledger σ κ) :
    ViewOp σ κ → Option (BackendId × List String × CommHandle)
  | .openView _ backend args handle => some (backend, args, handle)
  | .openDefault _ args handle => some (L.desk.defaultBackend, args, handle)
  | .openWorld _ world => some (world.backend, [], E.handle world.comm)
  | _ => none

/-- **What an operation does** before it lets go of a view: it moves views about, it stands
for a change of the engine, or it makes a construction, which fails or leads to a new
state. -/
inductive Does (E : Engine σ κ) (L : Ledger σ κ) (op : ViewOp σ κ) (d : Desk (Recorded σ) κ) :
    Prop where
  | moved (hengine : d.engine = L.desk.engine) (hroles : ∀ n, d.role? n = L.desk.role? n)
      (hrequest : L.request? E op = none)
  | changed (change : σ → σ) (hop : op = .meanwhile change)
      (hengine : d.engine = ⟨change L.desk.engine.state, L.desk.engine.acts⟩)
      (hroles : ∀ n, d.role? n = L.desk.role? n)
  | failed (backend : BackendId) (args : List String) (handle : CommHandle) (e : ViewError)
      (hrequest : L.request? E op = some (backend, args, handle))
      (hcall : ViewState.construct E.recorded backend args handle L.desk.engine =
        (.error e, d.engine))
      (hroles : ∀ n, d.role? n = L.desk.role? n)
  | opened (backend : BackendId) (args : List String) (handle : CommHandle)
      (state : ViewState κ) (hrequest : L.request? E op = some (backend, args, handle))
      (hcall : ViewState.construct E.recorded backend args handle L.desk.engine =
        (.ok state, d.engine))
      (hroles : ∀ n, d.role? n =
        if n = L.desk.nextState then some state.role else L.desk.role? n)

variable {E : Engine σ κ} {L : Ledger σ κ} {op : ViewOp σ κ}

/-- The number of the next state is free. -/
theorem Sound.role?_nextState (hL : L.Sound .null) : L.desk.role? L.desk.nextState = none := by
  cases hstate : L.desk.states.lookup L.desk.nextState with
  | none => simp [Desk.role?, hstate]
  | some state =>
    exact absurd (hL.kept.numbered L.desk.nextState (by rw [hstate]; rfl)) (Nat.lt_irrefl _)

theorem Does.nothing (hrequest : L.request? E op = none) : L.Does E op L.desk :=
  .moved rfl (fun _ => rfl) hrequest

/-- A view that comes loose from a slot was in it. -/
theorem find?_of_loose {views : Slots View} {slot : Slot} {n : Nat}
    (h : (views.find? slot).getD .null = .alias n) : views.find? slot = some (.alias n) := by
  cases hfind : views.find? slot with
  | none => simp [hfind] at h
  | some v =>
    rw [hfind, Option.getD_some] at h
    rw [h]

/-- A construction, whatever slot the new view goes to. -/
theorem does_openView (op : ViewOp σ κ) (slot : Slot) {backend : BackendId}
    {args : List String} {handle : CommHandle}
    (hrequest : L.request? E op = some (backend, args, handle)) :
    ∃ d loose, (Desk.openView E.recorded slot backend args handle L.desk).2 =
        d.letGo E.recorded loose ∧ L.Does E op d ∧
      ∀ n, loose = .alias n → ∃ slot, L.desk.views.find? slot = some (.alias n) := by
  generalize hcall : ViewState.construct E.recorded backend args handle L.desk.engine = out
  obtain ⟨answer, engine⟩ := out
  cases answer with
  | error e =>
    rw [Desk.openView_error hcall]
    exact ⟨{ L.desk with engine }, .null, rfl,
      .failed backend args handle e hrequest hcall fun _ => rfl, fun n hn => nomatch hn⟩
  | ok state =>
    rw [Desk.openView_ok hcall]
    refine ⟨_, _, rfl, .opened backend args handle state hrequest hcall fun n => ?_,
      fun n hn => ⟨slot, find?_of_loose hn⟩⟩
    have hlookup := Desk.lookup_addState ({ L.desk with engine } : Desk (Recorded σ) κ) state n
    refine (congrArg (Option.map ViewState.role) hlookup).trans ?_
    by_cases hn : n = L.desk.nextState
    · simp [hn]
    · simp [hn, Desk.role?]

/-- A view put in a slot takes the place of another. -/
theorem does_putView (op : ViewOp σ κ) (slot : Slot) (v : View)
    (hrequest : L.request? E op = none) :
    ∃ d loose, L.desk.putView E.recorded slot v = d.letGo E.recorded loose ∧ L.Does E op d ∧
      ∀ n, loose = .alias n → ∃ slot, L.desk.views.find? slot = some (.alias n) := by
  exact ⟨_, _, Desk.putView_eq _ _ _ _, .moved rfl (fun _ => rfl) hrequest,
    fun n hn => ⟨slot, find?_of_loose hn⟩⟩

/-- A view taken out of a slot, and put in another one. -/
theorem does_takeView (op : ViewOp σ κ) (source target : Slot) (v : View)
    (hrequest : L.request? E op = none) :
    ∃ d loose, Desk.putView E.recorded target v
        { L.desk with views := L.desk.views.set source .null } = d.letGo E.recorded loose ∧
      L.Does E op d ∧
      ∀ n, loose = .alias n → ∃ slot, L.desk.views.find? slot = some (.alias n) := by
  refine ⟨_, _, Desk.putView_eq _ _ _ _, .moved rfl (fun _ => rfl) hrequest, fun n hn => ?_⟩
  -- what comes loose was in the target, or is the null view that the source holds by now
  have hset := L.desk.views.find?_set source .null target
  have hfind := find?_of_loose hn
  rw [hset] at hfind
  split at hfind
  · cases hfind
  · exact ⟨target, hfind⟩

/-- Another logger does not change the role of a state. -/
theorem does_setLogger {v : View} {n : Nat} {state : ViewState κ}
    (hv : L.desk.aliased? v = some (n, state)) (output : Output) (l : Logger)
    (channel : Channel) (hrequest : L.request? E op = none) :
    L.Does E op (({ L.desk with output } : Desk (Recorded σ) κ).setState n
      (state.withLogger l channel)) := by
  obtain ⟨-, hstate⟩ := Desk.aliased?_eq_some hv
  refine .moved rfl (fun m => ?_) hrequest
  have hlookup := Desk.lookup_setState (d := { L.desk with output }) hstate
    (state.withLogger l channel) m
  refine (congrArg (Option.map ViewState.role) hlookup).trans ?_
  by_cases hm : m = n
  · simp [hm, Desk.role?, hstate]
  · simp [hm, Desk.role?]

/-- **Every operation** does one of these things and then lets go of a view at most, one that
was in some slot before. -/
theorem step_does (E : Engine σ κ) (L : Ledger σ κ) (op : ViewOp σ κ) :
    ∃ d loose, (L.step E op).desk = d.letGo E.recorded loose ∧ L.Does E op d ∧
      ∀ n, loose = .alias n → ∃ slot, L.desk.views.find? slot = some (.alias n) := by
  have hself : ∀ d, L.Does E op d → ∃ d' loose, d = d'.letGo E.recorded loose ∧
      L.Does E op d' ∧
      ∀ n, loose = .alias n → ∃ slot, L.desk.views.find? slot = some (.alias n) :=
    fun d hd => ⟨d, .null, rfl, hd, fun n hn => nomatch hn⟩
  cases op with
  | openView slot backend args handle => exact does_openView _ slot rfl
  | openDefault slot args handle => exact does_openView _ slot rfl
  | openWorld slot world => exact does_openView _ slot rfl
  | clear slot => exact does_putView _ slot .null rfl
  | copy source target =>
    simp only [step, withView]
    cases hv : L.desk.views.find? source with
    | none => exact hself _ (.nothing rfl)
    | some v => exact does_putView _ target v rfl
  | take source target =>
    simp only [step, withView]
    cases hv : L.desk.views.find? source with
    | none => exact hself _ (.nothing rfl)
    | some v => exact does_takeView _ source target v rfl
  | swap a b =>
    simp only [step, withView]
    cases hv : L.desk.views.find? a with
    | none => exact hself _ (.nothing rfl)
    | some v =>
      cases hw : L.desk.views.find? b with
      | none => exact hself _ (.nothing rfl)
      | some w => exact hself _ (.moved rfl (fun _ => rfl) rfl)
  | drop slot =>
    simp only [step, Desk.dropView]
    cases hfind : L.desk.views.find? slot with
    | none => exact hself _ (.nothing rfl)
    | some old =>
      exact ⟨_, old, rfl, .moved rfl (fun _ => rfl) rfl, fun n hn => ⟨slot, hn ▸ hfind⟩⟩
  | setDefaultBackend backend => exact hself _ (.moved rfl (fun _ => rfl) rfl)
  | installLogger slot channel l =>
    simp only [step, withView]
    cases hv : L.desk.views.find? slot with
    | none => exact hself _ (.nothing rfl)
    | some v =>
      simp only [Desk.installLogger]
      cases haliased : L.desk.aliased? v with
      | none => exact hself _ (.moved rfl (fun _ => rfl) rfl)
      | some found => exact hself _ (does_setLogger haliased _ l channel rfl)
  | write slot channel text =>
    simp only [step, withView]
    cases hv : L.desk.views.find? slot with
    | none => exact hself _ (.nothing rfl)
    | some v =>
      simp only [Desk.useViewLogger]
      cases haliased : L.desk.aliased? v with
      | none => exact hself _ (.nothing rfl)
      | some found => exact hself _ (does_setLogger haliased _ _ channel rfl)
  | meanwhile change => exact hself _ (.changed change rfl rfl fun _ => rfl)

end Ledger

end ClusterView
