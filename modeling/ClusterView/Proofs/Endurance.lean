import ClusterView.Proofs.Conduct

/-!
# What lasts through operations on views

Two kinds of things last. A property of the engine's state that every call keeps holds after any
operations on views, since they reach the engine through its calls only. And the state behind a
view stays as it was made, apart from its loggers, until its last alias is gone: an operation
takes it away as a whole, or replaces one of its loggers, or writes to one.

## Sections
- §1: Answers of a recording engine
- §2: Properties of the engine
- §3: States behind views
- §4: Whole runs
-/

namespace ClusterView

/-! ## §1 Answers of a recording engine -/

namespace ViewState

variable {σ κ : Type} (E : Engine σ κ)

theorem memories_recorded (comm : κ) (ranks : List Nat) :
    memories E.recorded comm ranks = Engine.unrecorded (memories E comm ranks) := by
  induction ranks with
  | nil => rfl
  | cons rank rest ih =>
    funext r
    have hfirst : E.recorded.memoryOf comm rank r =
        Engine.unrecorded (E.memoryOf comm rank) r := rfl
    simp only [memories, bind, StateT.bind, ih, hfirst, Engine.unrecorded]
    generalize E.memoryOf comm rank r.state = out
    obtain ⟨answer, s⟩ := out
    cases answer <;> rfl

theorem survey_recorded (backend : BackendId) (handle : CommHandle) :
    survey E.recorded backend handle = Engine.unrecorded (survey E backend handle) := by
  funext r
  have hfind : E.recorded.communicator backend handle r =
      Engine.unrecorded (E.communicator backend handle) r := rfl
  have hsize : E.recorded.size = E.size := rfl
  simp only [survey, bind, StateT.bind, hfind, hsize, memories_recorded, Engine.unrecorded]
  generalize E.communicator backend handle r.state = out
  obtain ⟨answer, s⟩ := out
  cases answer <;> rfl

/-- **Recording changes no answer**: a construction comes to the same with and without it. -/
theorem construct_recorded_answer (backend : BackendId) (args : List String)
    (handle : CommHandle) (r : Recorded σ) :
    (construct E.recorded backend args handle r).1 =
      (construct E backend args handle r.state).1 := by
  have hstart : E.recorded.start backend args r =
      Engine.unrecorded (E.start backend args) r := rfl
  simp only [construct, bind, StateT.bind, hstart, survey_recorded, Engine.unrecorded]
  generalize E.start backend args r.state = out
  obtain ⟨answer, s⟩ := out
  cases answer with
  | error e => rfl
  | ok startup =>
    simp only [StateT.bind, modify_apply, pure, bind]
    have hattached : (E.recorded.report (.viewAttached startup.world.id startup.started handle)
        ⟨s, r.acts⟩).state =
          E.report (.viewAttached startup.world.id startup.started handle) s := rfl
    simp only [Engine.unrecorded, hattached]
    generalize survey E backend handle _ = out
    obtain ⟨found, s'⟩ := out
    cases found <;> rfl

end ViewState

/-! ## §2 Properties of the engine -/

section Lasting

variable {σ κ : Type} {E : Engine σ κ} {P : σ → Prop}

theorem Engine.Lasting.recorded (hP : E.Lasting P) : E.recorded.Lasting fun r => P r.state where
  report event r h := hP.report event r.state h
  communicator backend handle r h := hP.communicator backend handle r.state h
  memoryOf comm rank r h := hP.memoryOf comm rank r.state h
  start backend args r h := hP.start backend args r.state h
  stop backend r h := hP.stop backend r.state h

/-- Letting go of a view keeps what lasts. -/
theorem Engine.Lasting.letGo (hP : E.Lasting P) {d : Desk σ κ} (h : P d.engine) (loose : View) :
    P (d.letGo E loose).engine := by
  rcases Desk.letGo_cases E d loose with hsame | ⟨n, state, -, -, hengine, -⟩
  · rw [hsame]
    exact h
  · obtain ⟨s, hs, hteardown⟩ := ViewState.teardown_engine hP.toSteady state d.output h
    rw [hengine, hteardown]
    exact hP.release _ _ _ hs

namespace Ledger

variable {L : Ledger σ κ} {op : ViewOp σ κ} {d : Desk (Recorded σ) κ}

theorem Does.keeps (hdoes : L.Does E op d) (hP : E.Lasting P) (h : P L.desk.engine.state)
    (hchange : ∀ change, op = .meanwhile change → ∀ s, P s → P (change s)) :
    P d.engine.state := by
  have hconstruct := fun backend args handle =>
    hP.recorded.construct backend args handle (s := L.desk.engine) h
  cases hdoes with
  | moved hengine => rwa [hengine]
  | changed change hop hengine =>
    rw [hengine]
    exact hchange change hop _ h
  | failed backend args handle e hrequest hcall =>
    have hthen := hconstruct backend args handle
    rwa [hcall] at hthen
  | opened backend args handle state hrequest hcall =>
    have hthen := hconstruct backend args handle
    rwa [hcall] at hthen

/-- **Step lemma**: an operation keeps what lasts, as does any change meanwhile. -/
theorem step_keeps (hP : E.Lasting P) (h : P L.desk.engine.state)
    (hchange : ∀ change, op = .meanwhile change → ∀ s, P s → P (change s)) :
    P (L.step E op).desk.engine.state := by
  obtain ⟨d, loose, hstep, hdoes, -⟩ := step_does E L op
  rw [hstep]
  exact hP.recorded.letGo (hdoes.keeps hP h hchange) loose

end Ledger

end Lasting

/-! ## §3 States behind views -/

/-- **What an operation may do to a state** that stays: nothing, or it writes through one of the
loggers, or it installs another one by way of a variable that holds a view of the state. -/
inductive ViewState.Relogged {σ κ : Type} (op : ViewOp σ κ) (views : Slots View) (n : Nat)
    (state : ViewState κ) : ViewState κ → Prop
  | same : Relogged op views n state state
  | written (channel : Channel) (text : String) (o : Output) :
      Relogged op views n state
        (state.withLogger ((state.logger channel).writeAll text o).2.1 channel)
  | installed (slot : Slot) (channel : Channel) (l : Logger)
      (hop : op = .installLogger slot channel l) (hheld : views.find? slot = some (.alias n)) :
      Relogged op views n state (state.withLogger l channel)

section Relogged

variable {σ κ : Type} {op : ViewOp σ κ} {views : Slots View} {n : Nat} {state state' : ViewState κ}

/-- All but the loggers is as it was. -/
theorem ViewState.Relogged.members (h : state.Relogged op views n state') :
    state'.comm = state.comm ∧ state'.sets = state.sets := by
  cases h with
  | same => exact ⟨rfl, rfl⟩
  | written channel text o => cases channel <;> exact ⟨rfl, rfl⟩
  | installed slot channel l hop hheld => cases channel <;> exact ⟨rfl, rfl⟩

namespace Logger

/-- A standard stream and the null logger stay what they are when they are written to. -/
theorem writeAll_standard {l : Logger} (hl : l = .stdout ∨ l = .stderr ∨ l = .null)
    (text : String) (o : Output) : (l.writeAll text o).2.1 = l := by
  rcases hl with rfl | rfl | rfl
  · rw [writeAll_stdout]
  · by_cases hempty : text.isEmpty <;> simp [writeAll, hempty, write, split]
  · by_cases hempty : text.isEmpty <;> simp [writeAll, hempty, write, split]

theorem rootOnly_standard (rank : Option Nat) :
    ((rootOnly rank).1 = .stdout ∨ (rootOnly rank).1 = .stderr ∨ (rootOnly rank).1 = .null) ∧
      ((rootOnly rank).2 = .stdout ∨ (rootOnly rank).2 = .stderr ∨ (rootOnly rank).2 = .null) := by
  unfold rootOnly
  split <;> simp

end Logger

/-- **Default loggers** are kept by whatever installs no logger in the state. -/
theorem ViewState.Relogged.defaults (h : state.Relogged op views n state')
    (hspared : ∀ slot channel l, op = .installLogger slot channel l →
      views.find? slot ≠ some (.alias n))
    {rank : Option Nat} (hdefault : (state.progress, state.debug) = Logger.rootOnly rank) :
    (state'.progress, state'.debug) = Logger.rootOnly rank := by
  cases h with
  | same => exact hdefault
  | written channel text o =>
    obtain ⟨hprogress, hdebug⟩ := Logger.rootOnly_standard rank
    rw [← hdefault] at hprogress hdebug
    have hlogger : ((state.logger channel).writeAll text o).2.1 = state.logger channel := by
      cases channel with
      | progress => exact Logger.writeAll_standard hprogress text o
      | debug => exact Logger.writeAll_standard hdebug text o
    rw [hlogger]
    cases channel <;> exact hdefault
  | installed slot channel l hop hheld => exact absurd hheld (hspared slot channel l hop)

end Relogged

namespace Desk

variable {σ κ τ : Type} {E : Engine τ κ} {op : ViewOp σ κ} {d d' : Desk τ κ}

/-- Letting go of a view takes away one state at most. -/
theorem letGo_states (E : Engine τ κ) (d : Desk τ κ) (loose : View) :
    (d.letGo E loose).views = d.views ∧ (d.letGo E loose).nextState = d.nextState ∧
      ∀ n state, (d.letGo E loose).states.lookup n = some state →
        d.states.lookup n = some state := by
  rcases d.letGo_eq E loose with hsame | ⟨m, old, -, -, -, hthen⟩
  · rw [hsame]
    exact ⟨rfl, rfl, fun _ _ h => h⟩
  · rw [hthen]
    refine ⟨rfl, rfl, fun n state h => ?_⟩
    have h : (d.states.filter fun e => e.1 != m).lookup n = some state := h
    by_cases hn : n = m
    · rw [hn, lookup_filter_self] at h
      cases h
    · rwa [lookup_filter_ne hn] at h

/-- **Endurance**: of the states that were there, each is left as it was, up to its loggers, or
it is gone, and no number is given again. -/
structure Endures (op : ViewOp σ κ) (d d' : Desk τ κ) : Prop where
  nextState : d.nextState ≤ d'.nextState
  states : ∀ n < d.nextState, ∀ state', d'.states.lookup n = some state' →
    ∃ state, d.states.lookup n = some state ∧ state.Relogged op d.views n state'

theorem Endures.of_states (hnext : d'.nextState = d.nextState) (hstates : d'.states = d.states) :
    Endures op d d' :=
  ⟨Nat.le_of_eq hnext.symm, fun _ _ state' h => ⟨state', hstates ▸ h, .same⟩⟩

theorem Endures.letGo (h : Endures op d d') (loose : View) :
    Endures op d (d'.letGo E loose) := by
  obtain ⟨-, hnext, hstates⟩ := letGo_states E d' loose
  exact ⟨hnext ▸ h.nextState, fun n hn state' hstate => h.states n hn state' (hstates n _ hstate)⟩

/-- Where the views are does not matter. -/
theorem Endures.arranged (h : Endures op d d') (views : Slots View) :
    Endures op d { d' with views } :=
  ⟨h.nextState, h.states⟩

theorem Endures.putView (h : Endures op d d') (slot : Slot) (v : View) :
    Endures op d (d'.putView E slot v) := by
  rw [putView_eq]
  exact (h.arranged _).letGo _

/-- A new logger, or one that has been written to, in place of the old one. -/
theorem Endures.relogged {n : Nat} {state state' : ViewState κ}
    (hstate : d.states.lookup n = some state) (output : Output)
    (h : state.Relogged op d.views n state') :
    Endures op d (({ d with output } : Desk τ κ).setState n state') := by
  refine ⟨Nat.le_refl _, fun m _ found hfound => ?_⟩
  have hlookup := lookup_setState (d := { d with output }) hstate state' m
  rw [hfound] at hlookup
  by_cases hm : m = n
  · rw [if_pos hm, Option.some.injEq] at hlookup
    rw [hm, hlookup]
    exact ⟨state, hstate, h⟩
  · rw [if_neg hm] at hlookup
    exact ⟨found, hlookup.symm, .same⟩

/-- A construction adds a state at most, with a number of its own. -/
theorem Endures.openView (slot : Slot) (backend : BackendId) (args : List String)
    (handle : CommHandle) : Endures op d (openView E slot backend args handle d).2 := by
  generalize hcall : ViewState.construct E backend args handle d.engine = out
  obtain ⟨answer, engine⟩ := out
  cases answer with
  | error e =>
    rw [openView_error hcall]
    exact .of_states rfl rfl
  | ok state =>
    rw [openView_ok hcall]
    refine letGo ⟨Nat.le_succ _, fun n hn state' hstate => ⟨state', ?_, .same⟩⟩ _
    have hlookup := lookup_addState { d with engine } state n
    rw [if_neg (Nat.ne_of_lt hn)] at hlookup
    exact hlookup.symm.trans hstate

/-- **A view that was opened** is in its slot, an alias of the new state. -/
theorem openView_opened {backend : BackendId} {args : List String} {handle : CommHandle}
    {state : ViewState κ} {engine : τ}
    (hcall : ViewState.construct E backend args handle d.engine = (.ok state, engine))
    (slot : Slot) :
    let opened := openView E slot backend args handle d
    opened.1 = .ok (.alias d.nextState) ∧
      opened.2.views.find? slot = some (.alias d.nextState) ∧
      d.nextState < opened.2.nextState ∧
      ∀ found, opened.2.states.lookup d.nextState = some found → found = state := by
  intro opened
  obtain ⟨hviews, hnext, hstates⟩ := letGo_states E
    ({ (addState state { d with engine }).2 with
      views := d.views.set slot (.alias d.nextState) } : Desk τ κ)
    ((d.views.find? slot).getD .null)
  have hopened : opened = _ := openView_ok hcall
  rw [hopened]
  refine ⟨rfl, ?_, ?_, fun found hfound => ?_⟩
  · rw [hviews, Slots.find?_set, if_pos rfl]
  · rw [hnext]
    exact Nat.lt_succ_self _
  · have hlookup := lookup_addState { d with engine } state d.nextState
    rw [if_pos rfl] at hlookup
    exact Option.some.inj ((hstates _ _ hfound).symm.trans hlookup)

end Desk

/-! ## §4 Whole runs -/

namespace Ledger

variable {σ κ : Type} {E : Engine σ κ} {L : Ledger σ κ} {ops : List (ViewOp σ κ)}

/-- **Step lemma**: every operation lets the states endure. -/
theorem step_endures (E : Engine σ κ) (L : Ledger σ κ) (op : ViewOp σ κ) :
    Desk.Endures op L.desk (L.step E op).desk := by
  have hself : Desk.Endures op L.desk L.desk := .of_states rfl rfl
  cases op with
  | openView slot backend args handle => exact .openView slot backend args handle
  | openDefault slot args handle =>
    exact Desk.Endures.openView (E := E.recorded) slot L.desk.defaultBackend args handle
  | openWorld slot world =>
    exact Desk.Endures.openView (E := E.recorded) slot world.backend [] (E.handle world.comm)
  | clear slot => exact hself.putView slot .null
  | copy source target =>
    simp only [step, withView]
    cases L.desk.views.find? source with
    | none => exact hself
    | some v => exact hself.putView target v
  | take source target =>
    simp only [step, withView]
    cases L.desk.views.find? source with
    | none => exact hself
    | some v => exact (hself.arranged (L.desk.views.set source .null)).putView target v
  | swap a b =>
    simp only [step, withView]
    cases L.desk.views.find? a with
    | none => exact hself
    | some v =>
      cases L.desk.views.find? b with
      | none => exact hself
      | some w => exact hself.arranged ((L.desk.views.set a w).set b v)
  | drop slot =>
    simp only [step, Desk.dropView]
    cases L.desk.views.find? slot with
    | none => exact hself
    | some old => exact (hself.arranged (L.desk.views.erase slot)).letGo old
  | setDefaultBackend backend => exact .of_states rfl rfl
  | installLogger slot channel l =>
    simp only [step, withView]
    cases hv : L.desk.views.find? slot with
    | none => exact hself
    | some v =>
      simp only [Desk.installLogger]
      cases haliased : L.desk.aliased? v with
      | none => exact .of_states rfl rfl
      | some found =>
        obtain ⟨rfl, hstate⟩ := Desk.aliased?_eq_some haliased
        exact .relogged hstate _ (.installed slot channel l rfl hv)
  | write slot channel text =>
    simp only [step, withView]
    cases L.desk.views.find? slot with
    | none => exact hself
    | some v =>
      simp only [Desk.useViewLogger]
      cases haliased : L.desk.aliased? v with
      | none => exact hself
      | some found =>
        obtain ⟨-, hstate⟩ := Desk.aliased?_eq_some haliased
        exact .relogged hstate _ (.written channel text L.desk.output)
  | meanwhile change => exact .of_states rfl rfl

/-- **Run lemma**: what lasts in the engine holds after any operations. -/
theorem run_keeps {P : σ → Prop} (hP : E.Lasting P) (h : P L.desk.engine.state)
    (hchange : ∀ change, .meanwhile change ∈ ops → ∀ s, P s → P (change s)) :
    P (L.run E ops).desk.engine.state := by
  induction ops generalizing L with
  | nil => exact h
  | cons op rest ih =>
    refine ih (step_keeps hP h fun change hop => hchange change (hop ▸ List.mem_cons_self)) ?_
    exact fun change hmem => hchange change (List.mem_cons_of_mem _ hmem)

/-- **Run lemma**: what every operation on the way keeps holds of a state as long as it is
there. -/
theorem run_state {P : ViewState κ → Prop} {n : Nat} (hn : n < L.desk.nextState)
    (h : ∀ state, L.desk.states.lookup n = some state → P state)
    (hP : ∀ before op after, ops = before ++ op :: after → ∀ state state',
      state.Relogged op (L.run E before).desk.views n state' → P state → P state') :
    ∀ state, (L.run E ops).desk.states.lookup n = some state → P state := by
  induction ops generalizing L with
  | nil => exact h
  | cons op rest ih =>
    have hstep := step_endures E L op
    refine ih (Nat.lt_of_lt_of_le hn hstep.nextState) (fun state' hstate' => ?_) ?_
    · obtain ⟨state, hstate, hrelogged⟩ := hstep.states n hn state' hstate'
      exact hP [] op rest rfl state state' hrelogged (h state hstate)
    · exact fun before later after hops => hP (op :: before) later after (by rw [hops]; rfl)

/-- **Spared**: no operation installs a logger by way of a variable that holds the view. -/
def Spares (E : Engine σ κ) (L : Ledger σ κ) (v : View) (ops : List (ViewOp σ κ)) : Prop :=
  ∀ before slot channel l after, ops = before ++ .installLogger slot channel l :: after →
    (L.run E before).desk.views.find? slot ≠ some v

end Ledger

end ClusterView
