import ClusterView.Proofs.Populated
import ClusterView.Proofs.Variables

/-!
# Exactly-once teardown

Whoever lets go of the last alias of a view's state takes the runtime down again, if the
state's construction had brought it up. This module counts: over an arbitrary engine, and
whatever is done with views, a backend has been stopped exactly as often as a construction
that it answered with a fresh runtime has come to its end, be it by failing half-way or by
losing its last alias.

The counting is done by a ledger of constructions. A step of the desk ends one of them at
most, and the stops it issues are those of the constructions that it ends
(`Ledger.Settles`).

## Sections
- §1: Recording what happens to an engine
- §2: What a construction records
- §3: What the end of a state records
- §4: Ledgers
- §5: One step
- §6: Whole runs
-/

namespace ClusterView

/-! ## §1 Recording what happens to an engine -/

/-- **Act** on an engine: a backend is stopped, or an event is reported. -/
inductive Act where
  | stop (backend : BackendId)
  | report (event : Event)
deriving DecidableEq, Repr

namespace Act

def stopped? : Act → Option BackendId
  | .stop backend => some backend
  | .report _ => none

/-- The backends that were stopped, in order. -/
def stops (acts : List Act) : List BackendId := acts.filterMap stopped?

@[simp] theorem stops_nil : stops [] = [] := rfl

@[simp] theorem stops_append (before after : List Act) :
    stops (before ++ after) = stops before ++ stops after :=
  List.filterMap_append

@[simp] theorem stops_report (event : Event) (rest : List Act) :
    stops (.report event :: rest) = stops rest := rfl

@[simp] theorem stops_stop (backend : BackendId) (rest : List Act) :
    stops (.stop backend :: rest) = backend :: stops rest := rfl

end Act

/-- A state of an engine together with the acts on it so far, oldest first. -/
structure Recorded (σ : Type) where
  state : σ
  acts : List Act

namespace Engine

variable {σ κ : Type}

/-- An action that is not recorded. -/
def unrecorded {α : Type} (action : StateM σ α) : StateM (Recorded σ) α := fun r =>
  ((action r.state).1, { r with state := (action r.state).2 })

/-- **The same engine, recording** its stops and reports. -/
def recorded (E : Engine σ κ) : Engine (Recorded σ) κ where
  handle := E.handle
  rank := E.rank
  size := E.size
  isRunning backend r := E.isRunning backend r.state
  start backend args := unrecorded (E.start backend args)
  world backend r := E.world backend r.state
  communicator backend handle := unrecorded (E.communicator backend handle)
  stop backend r :=
    ((E.stop backend r.state).1, ⟨(E.stop backend r.state).2, r.acts ++ [.stop backend]⟩)
  memoryOf comm rank := unrecorded (E.memoryOf comm rank)
  gather comm payload datatype root := unrecorded (E.gather comm payload datatype root)
  reduce comm payload datatype op root := unrecorded (E.reduce comm payload datatype op root)
  report event r := ⟨E.report event r.state, r.acts ++ [.report event]⟩

/-- How a backend answers a start: whether the runtime was brought up, if it runs at all. -/
def startAnswer (E : Engine σ κ) (backend : BackendId) (args : List String) (s : σ) :
    Option Bool :=
  match (E.start backend args s).1 with
  | .ok startup => some startup.started
  | .error _ => none

end Engine

/-! ## §2 What a construction records -/

namespace ViewState

variable {σ κ : Type} (E : Engine σ κ)

theorem acts_memories (comm : κ) (ranks : List Nat) (r : Recorded σ) :
    (memories E.recorded comm ranks r).2.acts = r.acts := by
  induction ranks generalizing r with
  | nil => rfl
  | cons rank rest ih =>
    have hhead : (E.recorded.memoryOf comm rank r).2.acts = r.acts := rfl
    simp only [memories, bind, StateT.bind]
    generalize E.recorded.memoryOf comm rank r = out at hhead ⊢
    obtain ⟨answer, r'⟩ := out
    cases answer with
    | error e => exact hhead
    | ok memory => exact (ih r').trans hhead

theorem acts_survey (backend : BackendId) (handle : CommHandle) (r : Recorded σ) :
    (survey E.recorded backend handle r).2.acts = r.acts := by
  have hfind : (E.recorded.communicator backend handle r).2.acts = r.acts := rfl
  simp only [survey, bind, StateT.bind]
  generalize E.recorded.communicator backend handle r = out at hfind ⊢
  obtain ⟨answer, r'⟩ := out
  cases answer with
  | error e => exact hfind
  | ok comm => exact (acts_memories E comm _ r').trans hfind

/-- A release stops the backend if the runtime was brought up, and says so. -/
theorem acts_release (started : Bool) (world : World κ) (backend : BackendId)
    (r : Recorded σ) :
    ∃ event, (release E.recorded started world backend r).2.acts =
      r.acts ++ if started then [.stop backend, .report event] else [] := by
  cases started with
  | false => exact ⟨.teardownStopped world.id, (List.append_nil _).symm⟩
  | true =>
    simp only [release, if_pos, bind, StateT.bind]
    have hstop : (E.recorded.stop backend r).2.acts = r.acts ++ [.stop backend] := rfl
    generalize E.recorded.stop backend r = out at hstop ⊢
    obtain ⟨answer, r'⟩ := out
    have hstop : r'.acts = r.acts ++ [.stop backend] := hstop
    have hreport : ∀ event, (E.recorded.report event r').acts =
        r.acts ++ [.stop backend, .report event] := by
      intro event
      show r'.acts ++ [.report event] = _
      rw [hstop, List.append_assoc]
      rfl
    cases answer with
    | ok _ => exact ⟨_, hreport _⟩
    | error e => exact ⟨_, hreport _⟩

/-- **Construction, recorded**: a failure after the backend has brought the runtime up stops
it again, and nothing else stops anything. -/
theorem construct_recorded (backend : BackendId) (args : List String) (handle : CommHandle)
    (r : Recorded σ) :
    ∃ acts, (construct E.recorded backend args handle r).2.acts = r.acts ++ acts ∧
      ((∃ e, (construct E.recorded backend args handle r).1 = .error e ∧
          Act.stops acts =
            if E.startAnswer backend args r.state = some true then [backend] else []) ∨
        ∃ state, (construct E.recorded backend args handle r).1 = .ok state ∧
          state.backend = backend ∧
          E.startAnswer backend args r.state = some state.started ∧ Act.stops acts = []) := by
  have hacts : (E.recorded.start backend args r).2.acts = r.acts := rfl
  have hanswer : E.startAnswer backend args r.state =
      match (E.recorded.start backend args r).1 with
      | .ok startup => some startup.started
      | .error _ => none := rfl
  rw [hanswer]
  simp only [construct, bind, StateT.bind]
  generalize E.recorded.start backend args r = out at hacts ⊢
  obtain ⟨answer, r₁⟩ := out
  have hacts : r₁.acts = r.acts := hacts
  cases answer with
  | error e => exact ⟨[], by rw [List.append_nil]; exact hacts, Or.inl ⟨_, rfl, rfl⟩⟩
  | ok startup =>
    -- from here on the runtime is up, and a failure has to undo that
    have hattached : (E.recorded.report (.viewAttached startup.world.id startup.started handle)
        r₁).acts = r.acts ++ [.report (.viewAttached startup.world.id startup.started handle)] := by
      rw [← hacts]
      rfl
    simp only [StateT.bind, modify_apply, pure, bind]
    generalize E.recorded.report (.viewAttached startup.world.id startup.started handle) r₁ = r₂
      at hattached ⊢
    have hsurvey := (acts_survey E backend handle r₂).trans hattached
    generalize survey E.recorded backend handle r₂ = out at hsurvey ⊢
    obtain ⟨found, r₃⟩ := out
    have hsurvey : r₃.acts =
        r.acts ++ [.report (.viewAttached startup.world.id startup.started handle)] := hsurvey
    cases found with
    | error e =>
      obtain ⟨event, hrelease⟩ := acts_release E startup.started startup.world backend r₃
      rw [hsurvey, List.append_assoc] at hrelease
      refine ⟨_, hrelease, Or.inl ⟨_, rfl, ?_⟩⟩
      by_cases hstarted : startup.started
      · simp [hstarted]
      · simp [hstarted]
    | ok found =>
      obtain ⟨comm, memory⟩ := found
      refine ⟨[.report (.viewAttached startup.world.id startup.started handle),
        .report (.setsPopulated (E.handle comm)
          (describeMembers comm (E.rank comm) memory).length (E.rank comm))], ?_,
        Or.inr ⟨_, rfl, rfl, rfl, rfl⟩⟩
      show r₃.acts ++ [_] = _
      rw [hsurvey, List.append_assoc]
      rfl

/-! ## §3 What the end of a state records -/

/-- What a flush at the end of a state reports: its failure, if it fails. -/
def flushReport (l : Logger) (o : Output) : List Act :=
  match (l.flush o).1 with
  | .ok () => []
  | .error cause => [.report (.flushFailed cause.message l.kind)]

theorem stops_flushReport (l : Logger) (o : Output) : Act.stops (flushReport l o) = [] := by
  unfold flushReport
  cases (l.flush o).1 <;> rfl

theorem flushLogger_recorded (l : Logger) (r : Recorded σ) (o : Output) :
    (flushLogger E.recorded l (r, o)).2.1.acts = r.acts ++ flushReport l o ∧
      (flushLogger E.recorded l (r, o)).2.2 = (l.flush o).2.2 := by
  simp only [flushLogger, flushReport]
  obtain ⟨answer, l', o'⟩ := l.flush o
  cases answer with
  | ok _ => exact ⟨(List.append_nil _).symm, rfl⟩
  | error cause => exact ⟨rfl, rfl⟩

/-- **Teardown, recorded**: both loggers are flushed, whatever comes of it, and only then the
backend is stopped, if the construction had brought the runtime up. -/
theorem teardown_recorded (state : ViewState κ) (r : Recorded σ) (o : Output) :
    (state.teardown E.recorded (r, o)).2.2 =
        (state.debug.flush (state.progress.flush o).2.2).2.2 ∧
      ∃ event, (state.teardown E.recorded (r, o)).2.1.acts =
        r.acts ++ flushReport state.progress o ++
          flushReport state.debug (state.progress.flush o).2.2 ++
          if state.started then [.stop state.backend, .report event] else [] := by
  have hteardown : (state.teardown E.recorded (r, o)).2 =
      let afterProgress := (flushLogger E.recorded state.progress (r, o)).2
      let afterDebug := (flushLogger E.recorded state.debug afterProgress).2
      ((release E.recorded state.started state.world state.backend afterDebug.1).2,
        afterDebug.2) := rfl
  obtain ⟨hacts₁, hout₁⟩ := flushLogger_recorded E state.progress r o
  generalize (flushLogger E.recorded state.progress (r, o)).2 = first
    at hacts₁ hout₁ hteardown
  obtain ⟨r₁, o₁⟩ := first
  have hout₁ : o₁ = (state.progress.flush o).2.2 := hout₁
  subst hout₁
  obtain ⟨hacts₂, hout₂⟩ :=
    flushLogger_recorded E state.debug r₁ (state.progress.flush o).2.2
  obtain ⟨event, hrelease⟩ := acts_release E state.started state.world state.backend
    (flushLogger E.recorded state.debug (r₁, (state.progress.flush o).2.2)).2.1
  rw [hteardown]
  refine ⟨hout₂, event, ?_⟩
  rw [← hacts₁, ← hacts₂]
  exact hrelease

end ViewState

/-- **Letting go, recorded**: nothing happens, or the last alias of a state is gone and the
state is torn down. -/
theorem Desk.letGo_recorded {σ κ : Type} (E : Engine σ κ) (d : Desk (Recorded σ) κ)
    (loose : View) :
    d.letGo E.recorded loose = d ∨
      ∃ n state event, loose = .alias n ∧ d.aliases n = 0 ∧ d.states.lookup n = some state ∧
        (d.letGo E.recorded loose).views = d.views ∧
        (d.letGo E.recorded loose).nextState = d.nextState ∧
        (d.letGo E.recorded loose).states = d.states.filter (fun e => e.1 != n) ∧
        (d.letGo E.recorded loose).output =
          (state.debug.flush (state.progress.flush d.output).2.2).2.2 ∧
        (d.letGo E.recorded loose).engine.acts =
          d.engine.acts ++ ViewState.flushReport state.progress d.output ++
            ViewState.flushReport state.debug (state.progress.flush d.output).2.2 ++
            if state.started then [.stop state.backend, .report event] else [] := by
  rcases d.letGo_eq E.recorded loose with hsame | ⟨n, state, hn, hzero, hstate, hthen⟩
  · exact Or.inl hsame
  · obtain ⟨hout, event, hacts⟩ := ViewState.teardown_recorded E state d.engine d.output
    rw [hthen]
    exact Or.inr ⟨n, state, event, hn, hzero, hstate, rfl, rfl, rfl, hout, hacts⟩

/-! ## §4 Ledgers -/

/-- **Construction** of a view: the backend that was asked to start, how it answered, and
the number of the new state, unless the construction failed. -/
structure Construction where
  backend : BackendId
  answer : Option Bool
  state : Option Nat
deriving DecidableEq, Repr

/-- **Ledger**: a desk over a recording engine, with all constructions so far. -/
structure Ledger (σ κ : Type) where
  desk : Desk (Recorded σ) κ
  constructions : List Construction

namespace Ledger

variable {σ κ : Type}

def fresh (s : σ) (defaultBackend : BackendId) : Ledger σ κ :=
  ⟨Desk.fresh ⟨s, []⟩ defaultBackend, []⟩

/-- What has been done to the engine. -/
def acts (L : Ledger σ κ) : List Act := L.desk.engine.acts

/-- Is no alias left of what a construction made? A failed one has made nothing. -/
def isOver (L : Ledger σ κ) (c : Construction) : Bool :=
  match c.state with
  | none => true
  | some n => L.desk.aliases n == 0

/-- The constructions that brought a runtime up and have come to their end between two
ledgers: those that failed at once, and those that have lost their last alias. -/
def ended (L L' : Ledger σ κ) : List Construction :=
  ((L'.constructions.drop L.constructions.length).filter fun c =>
      c.answer = some true ∧ L'.isOver c) ++
    L.constructions.filter fun c => c.answer = some true ∧ L.isOver c = false ∧ L'.isOver c

/-- **A step settles what it ends**: what is over stays over, the stops are those of the
constructions that have come to their end, and a state that has lost its last alias has had
both of its loggers flushed before anything was stopped. -/
structure Settles (L L' : Ledger σ κ) : Prop where
  grows : L.constructions <+: L'.constructions
  stays : ∀ c ∈ L.constructions, L.isOver c → L'.isOver c
  stops : ∃ acts, L'.acts = L.acts ++ acts ∧
    Act.stops acts = (ended L L').map (·.backend)
  flushes : ∀ n state, L.desk.states.lookup n = some state → L'.desk.aliases n = 0 →
    L'.desk.output = (state.debug.flush (state.progress.flush L.desk.output).2.2).2.2 ∧
      ∃ before event, Act.stops before = [] ∧
        L'.acts = L.acts ++ before ++ ViewState.flushReport state.progress L.desk.output ++
          ViewState.flushReport state.debug (state.progress.flush L.desk.output).2.2 ++
          if state.started then [.stop state.backend, .report event] else []

/-- **Sound books**: views and states are kept together, apart from a loose view; states
have numbers of their own, and every state is that of a construction, made on the same
backend and with the same answer. -/
structure Sound (L : Ledger σ κ) (loose : View) : Prop where
  kept : L.desk.Kept loose
  single : (L.constructions.filterMap (·.state)).Nodup
  issued : ∀ c ∈ L.constructions, ∀ n, c.state = some n → n < L.desk.nextState
  known : ∀ n state, L.desk.states.lookup n = some state → ∃ c ∈ L.constructions,
    c.state = some n ∧ c.backend = state.backend ∧ c.answer = some state.started

theorem Sound.fresh (s : σ) (defaultBackend : BackendId) :
    (fresh s defaultBackend : Ledger σ κ).Sound .null := by
  constructor
  case kept => exact Desk.Kept.fresh _ _
  case single => exact List.nodup_nil
  case issued =>
    intro c hc
    cases hc
  case known =>
    intro n state hstate
    cases hstate

section Settling

variable {L L₁ : Ledger σ κ} {loose : View}

/-- A construction is over once its state is gone. -/
theorem Sound.isOver_iff (hL : L.Sound .null) {c : Construction} {n : Nat}
    (hn : c.state = some n) : L.isOver c = true ↔ L.desk.states.lookup n = none := by
  simp only [isOver, hn, beq_iff_eq]
  exact hL.kept.aliases_eq_zero_iff

theorem Sound.letGo (hL : L.Sound loose) (E : Engine σ κ) :
    (⟨L.desk.letGo E.recorded loose, L.constructions⟩ : Ledger σ κ).Sound .null := by
  have hkept := hL.kept.letGo E.recorded
  rcases Desk.letGo_recorded E L.desk loose with hsame | ⟨n, _, _, _, _, _, _, hnext, hstates, -⟩
  · rw [hsame] at hkept ⊢
    exact ⟨hkept, hL.single, hL.issued, hL.known⟩
  · constructor
    case kept => exact hkept
    case single => exact hL.single
    case issued =>
      intro c hc m hm
      show m < (L.desk.letGo E.recorded loose).nextState
      rw [hnext]
      exact hL.issued c hc m hm
    case known =>
      intro m state hstate
      have hstate : (L.desk.letGo E.recorded loose).states.lookup m = some state := hstate
      rw [hstates] at hstate
      by_cases hm : m = n
      · rw [hm, lookup_filter_self] at hstate
        cases hstate
      · rw [lookup_filter_ne hm] at hstate
        exact hL.known m state hstate

/-- **Pending**: a step has made some new constructions, of which only those that failed have
stopped anything, and one view is still to be let go. -/
structure Pending (L L₁ : Ledger σ κ) (loose : View) (new : List Construction)
    (before : List Act) : Prop where
  books : L.Sound .null
  sound : L₁.Sound loose
  constructions : L₁.constructions = L.constructions ++ new
  held : ∀ c ∈ new, ∀ n, c.state = some n → L₁.desk.aliases n ≠ 0
  acts : L₁.acts = L.acts ++ before
  stops : Act.stops before =
    (new.filter fun c => c.answer = some true ∧ c.state = none).map (·.backend)
  lookup : ∀ n < L.desk.nextState,
    (L₁.desk.states.lookup n).isSome = (L.desk.states.lookup n).isSome
  loose : ∀ n, loose = .alias n → L₁.desk.output = L.desk.output ∧
    L₁.desk.states.lookup n = L.desk.states.lookup n ∧ Act.stops before = []

section Pending

variable {new : List Construction} {before : List Act} {L' : Ledger σ κ}

/-- A construction was not over before the step as long as its state is still there. -/
theorem Pending.isOver_before (h : L.Pending L₁ loose new before) {c : Construction}
    (hc : c ∈ L.constructions) {n : Nat} (hn : c.state = some n) :
    L.isOver c = false ↔ (L₁.desk.states.lookup n).isSome := by
  rw [h.lookup n (h.books.issued c hc n hn), Option.isSome_iff_ne_none, ne_eq,
    ← h.books.isOver_iff hn, Bool.not_eq_true]

/-- A state that was there before the step is still there before the letting go. -/
theorem Pending.lookup_ne_none (h : L.Pending L₁ loose new before) {n : Nat}
    {state : ViewState κ} (hstate : L.desk.states.lookup n = some state) :
    L₁.desk.states.lookup n ≠ none := by
  have hsome := h.lookup n (h.books.kept.numbered n (by rw [hstate]; rfl))
  intro hnone
  rw [hnone, hstate] at hsome
  cases hsome

/-- If nothing ends with the view that is let go, then only new constructions have ended. -/
theorem Pending.settles_of_same (h : L.Pending L₁ loose new before) (hL' : L'.Sound .null)
    (hconstructions : L'.constructions = L.constructions ++ new) (hdesk : L'.desk = L₁.desk) :
    L.Settles L' := by
  -- no state has come or gone, so what was over is over and nothing else
  have hover : ∀ c ∈ L.constructions, L'.isOver c = L.isOver c := by
    intro c hc
    cases hn : c.state with
    | none => simp only [isOver, hn]
    | some n =>
      have hiff := h.isOver_before hc hn
      rw [← hdesk] at hiff
      cases hnow : L.isOver c with
      | true =>
        rw [hL'.isOver_iff hn, ← Option.not_isSome_iff_eq_none, ← hiff, hnow]
        decide
      | false =>
        have hsome := hiff.mp hnow
        rw [← Bool.not_eq_true, hL'.isOver_iff hn, ← ne_eq, ← Option.isSome_iff_ne_none]
        exact hsome
  constructor
  case grows => exact ⟨new, hconstructions.symm⟩
  case stays => exact fun c hc hwas => (hover c hc).trans hwas
  case stops =>
    refine ⟨before, by rw [Ledger.acts, hdesk]; exact h.acts, ?_⟩
    have hold : (L.constructions.filter fun c =>
        c.answer = some true ∧ L.isOver c = false ∧ L'.isOver c) = [] := by
      apply List.filter_eq_nil_iff.mpr
      intro c hc hthese
      obtain ⟨-, hwas, hnow⟩ := of_decide_eq_true hthese
      rw [hover c hc, hwas] at hnow
      cases hnow
    rw [ended, hconstructions, List.drop_left, hold, List.append_nil, h.stops]
    congr 1
    apply List.filter_congr
    intro c hc
    cases hn : c.state with
    | none => simp [isOver, hn]
    | some n =>
      have haliases := h.held c hc n hn
      rw [← hdesk] at haliases
      simp [isOver, hn, haliases]
  case flushes =>
    intro n state hstate hzero
    rw [hL'.kept.aliases_eq_zero_iff, hdesk] at hzero
    exact absurd hzero (h.lookup_ne_none hstate)

section Gone

variable {n : Nat} (hgone : ∀ m, L'.desk.states.lookup m =
  if m = n then none else L₁.desk.states.lookup m)

include hgone

/-- If a state ends with the view that is let go, then its construction is over besides those
that were over before. -/
theorem Pending.isOver_of_gone (h : L.Pending L₁ loose new before) (hL' : L'.Sound .null)
    {c : Construction} (hc : c ∈ L.constructions) {m : Nat} (hm : c.state = some m) :
    L'.isOver c ↔ m = n ∨ L.isOver c := by
  rw [hL'.isOver_iff hm, hgone]
  by_cases hmn : m = n
  · simp [hmn]
  · rw [if_neg hmn, ← Option.not_isSome_iff_eq_none, ← h.isOver_before hc hm, Bool.not_eq_false]
    simp [hmn]

/-- So of the old constructions just the one of that state has ended. -/
theorem Pending.ended_of_gone (h : L.Pending L₁ loose new before) (hL' : L'.Sound .null)
    (hthere : (L₁.desk.states.lookup n).isSome) {c₀ : Construction}
    (hc₀ : c₀ ∈ L.constructions) (hn : c₀.state = some n) :
    (L.constructions.filter fun c =>
        c.answer = some true ∧ L.isOver c = false ∧ L'.isOver c) =
      [c₀].filter fun c => c.answer = some true := by
  rw [← filter_eq_singleton h.books.single hc₀ hn, List.filter_filter]
  apply List.filter_congr
  intro c hc
  rw [← Bool.decide_and, decide_eq_decide]
  refine and_congr_right fun _ => ?_
  cases hm : c.state with
  | none => simp [isOver, hm]
  | some m =>
    have hwas : m = n → L.isOver c = false := by
      rintro rfl
      exact (h.isOver_before hc hm).mpr hthere
    rw [h.isOver_of_gone hgone hL' hc hm, Option.some.injEq]
    constructor
    · rintro ⟨hfalse, hmn | htrue⟩
      · exact hmn
      · rw [hfalse] at htrue
        cases htrue
    · intro hmn
      exact ⟨hwas hmn, Or.inl hmn⟩

end Gone

/-- None of the new constructions has ended if none of them has stopped anything. -/
theorem Pending.filter_new_eq_nil (h : L.Pending L₁ loose new before)
    (hnone : Act.stops before = []) (haliases : ∀ m, L'.desk.aliases m = L₁.desk.aliases m) :
    (new.filter fun c => c.answer = some true ∧ L'.isOver c) = [] := by
  -- a failed one would have stopped something, and any other one still has its view
  have hfailed := List.map_eq_nil_iff.mp (h.stops.symm.trans hnone)
  rw [List.filter_eq_nil_iff] at hfailed ⊢
  intro c hc hthese
  obtain ⟨hstarted, hnow⟩ := of_decide_eq_true hthese
  cases hm : c.state with
  | none => exact hfailed c hc (by simp [hstarted, hm])
  | some m =>
    have hheld : L'.desk.aliases m ≠ 0 := by
      rw [haliases]
      exact h.held c hc m hm
    simp [isOver, hm, hheld] at hnow

/-- **Settling**: whatever view is let go in the end, the books are sound again, and the step
settles what it ends. -/
theorem Pending.settle (h : L.Pending L₁ loose new before) (E : Engine σ κ) :
    (⟨L₁.desk.letGo E.recorded loose, L₁.constructions⟩ : Ledger σ κ).Sound .null ∧
      L.Settles ⟨L₁.desk.letGo E.recorded loose, L₁.constructions⟩ := by
  have hL' := h.sound.letGo E
  refine ⟨hL', ?_⟩
  generalize hthen : (⟨L₁.desk.letGo E.recorded loose, L₁.constructions⟩ : Ledger σ κ) = L'
    at hL' ⊢
  have hconstructions : L'.constructions = L.constructions ++ new := by
    rw [← hthen, ← h.constructions]
  have hdesk : L'.desk = L₁.desk.letGo E.recorded loose := by rw [← hthen]
  rcases Desk.letGo_recorded E L₁.desk loose with hsame |
    ⟨n, state, event, hn, -, hstate, hviews, -, hstates, hout, hend⟩
  · exact h.settles_of_same hL' hconstructions (hdesk.trans hsame)
  · -- the last view of the state with this number is gone
    obtain ⟨houtput, hlast, hnone⟩ := h.loose n hn
    have hgone : ∀ m, L'.desk.states.lookup m =
        if m = n then none else L₁.desk.states.lookup m := by
      intro m
      rw [hdesk, hstates]
      by_cases hm : m = n
      · rw [if_pos hm, hm, lookup_filter_self]
      · rw [if_neg hm, lookup_filter_ne hm]
    have hthere : (L₁.desk.states.lookup n).isSome := by
      rw [hstate]
      rfl
    rw [hlast] at hstate
    obtain ⟨c₀, hc₀, hc₀n, hbackend, hanswer⟩ := h.books.known n state hstate
    have hacts : L'.acts = L.acts ++ before ++
        ViewState.flushReport state.progress L.desk.output ++
        ViewState.flushReport state.debug (state.progress.flush L.desk.output).2.2 ++
        if state.started then [.stop state.backend, .report event] else [] := by
      have hbefore : L₁.desk.engine.acts = L.acts ++ before := h.acts
      rw [Ledger.acts, hdesk, hend, houtput, hbefore]
    constructor
    case grows => exact ⟨new, hconstructions.symm⟩
    case stays =>
      intro c hc hwas
      cases hm : c.state with
      | none => simp only [isOver, hm]
      | some m => exact (h.isOver_of_gone hgone hL' hc hm).mpr (Or.inr hwas)
    case stops =>
      refine ⟨_, by rw [hacts, List.append_assoc, List.append_assoc, List.append_assoc], ?_⟩
      have haliases : ∀ m, L'.desk.aliases m = L₁.desk.aliases m := by
        intro m
        rw [hdesk, Desk.aliases, hviews]
        rfl
      have hfailed := h.filter_new_eq_nil hnone haliases
      rw [ended, hconstructions, List.drop_left, hfailed,
        h.ended_of_gone hgone hL' hthere hc₀ hc₀n, List.nil_append]
      simp only [Act.stops_append, hnone, ViewState.stops_flushReport, List.nil_append]
      cases hstarted : state.started with
      | false => simp [hanswer, hstarted]
      | true => simp [hanswer, hstarted, hbackend]
    case flushes =>
      intro m other hother hzero
      -- no other state has ended
      have hm : m = n := by
        rw [hL'.kept.aliases_eq_zero_iff, hgone] at hzero
        by_contra hmn
        rw [if_neg hmn] at hzero
        exact h.lookup_ne_none hother hzero
      subst hm
      rw [hstate, Option.some.injEq] at hother
      subst hother
      exact ⟨by rw [hdesk, hout, houtput], before, event, hnone, hacts⟩

end Pending

end Settling

end Ledger

/-! ## §5 One step -/

/-- **Operation on views**, with the slots it reads and writes. The last one stands for
whatever else happens to the engine meanwhile. -/
inductive ViewOp (σ κ : Type) where
  /-- A view of a communicator on a backend. -/
  | openView (slot : Slot) (backend : BackendId) (args : List String) (handle : CommHandle)
  /-- A view on the default backend. -/
  | openDefault (slot : Slot) (args : List String) (handle : CommHandle)
  /-- A view of a world, on the world's own backend. -/
  | openWorld (slot : Slot) (world : World κ)
  /-- A null view over whatever the slot held. -/
  | clear (slot : Slot)
  /-- A copy, into a new variable or over an occupied one. -/
  | copy (source target : Slot)
  | take (source target : Slot)
  | swap (a b : Slot)
  | drop (slot : Slot)
  | setDefaultBackend (backend : BackendId)
  | installLogger (slot : Slot) (channel : Channel) (l : Logger)
  | write (slot : Slot) (channel : Channel) (text : String)
  | meanwhile (change : σ → σ)

namespace Ledger

variable {σ κ : Type}

/-- Enter a construction into the books: the answer of the backend, and the number of the
state that it leads to. -/
def built (E : Engine σ κ) (L : Ledger σ κ) (backend : BackendId) (args : List String)
    (action : StateM (Desk (Recorded σ) κ) (Except ViewError View)) : Ledger σ κ where
  desk := (action L.desk).2
  constructions := L.constructions ++
    [ { backend
        answer := E.startAnswer backend args L.desk.engine.state
        state :=
          match (action L.desk).1 with
          | .ok (.alias n) => some n
          | _ => none } ]

/-- Do something with the view in a slot, if there is one. -/
def withView (L : Ledger σ κ) (slot : Slot)
    (action : View → Desk (Recorded σ) κ → Desk (Recorded σ) κ) : Ledger σ κ :=
  match L.desk.views.find? slot with
  | some v => { L with desk := action v L.desk }
  | none => L

/-- **One operation** of the desk on views. -/
def step (E : Engine σ κ) (L : Ledger σ κ) : ViewOp σ κ → Ledger σ κ
  | .openView slot backend args handle =>
      L.built E backend args (Desk.openView E.recorded slot backend args handle)
  | .openDefault slot args handle =>
      L.built E L.desk.defaultBackend args (Desk.openDefault E.recorded slot args handle)
  | .openWorld slot world => L.built E world.backend [] (Desk.openWorld E.recorded slot world)
  | .clear slot => { L with desk := L.desk.putView E.recorded slot .null }
  | .copy source target => L.withView source fun v d => d.putView E.recorded target v
  | .take source target => L.withView source fun v d => d.takeView E.recorded source target v
  | .swap a b =>
      L.withView a fun v d =>
        match d.views.find? b with
        | some w => d.swapViews a b v w
        | none => d
  | .drop slot => { L with desk := (Desk.dropView E.recorded slot L.desk).2 }
  | .setDefaultBackend backend => { L with desk := (Desk.setDefaultBackend backend L.desk).2 }
  | .installLogger slot channel l =>
      L.withView slot fun v d => (Desk.installLogger v channel l d).2
  | .write slot channel text =>
      L.withView slot fun v d =>
        (Desk.useViewLogger v channel (fun o l => l.writeAll text o) d).2
  | .meanwhile change =>
      { L with desk := { L.desk with
          engine := ⟨change L.desk.engine.state, L.desk.engine.acts⟩ } }

/-- **Run** of operations. -/
def run (E : Engine σ κ) (L : Ledger σ κ) (ops : List (ViewOp σ κ)) : Ledger σ κ :=
  ops.foldl (step E) L

section Steps

variable {L : Ledger σ κ} {d : Desk (Recorded σ) κ} {loose : View}

/-- Moving views about, and changing loggers, makes no construction and stops nothing by
itself. -/
theorem Sound.settle_desk (hL : L.Sound .null) (E : Engine σ κ) (hkept : d.Kept loose)
    (hacts : d.engine.acts = L.acts) (hnext : d.nextState = L.desk.nextState)
    (hlookup : ∀ n, (d.states.lookup n).map (fun s => (s.backend, s.started)) =
      (L.desk.states.lookup n).map fun s => (s.backend, s.started))
    (hloose : ∀ n, loose = .alias n → d.output = L.desk.output ∧ d.states = L.desk.states) :
    (⟨d.letGo E.recorded loose, L.constructions⟩ : Ledger σ κ).Sound .null ∧
      L.Settles ⟨d.letGo E.recorded loose, L.constructions⟩ := by
  have h₁ : (⟨d, L.constructions⟩ : Ledger σ κ).Sound loose := by
    constructor
    case kept => exact hkept
    case single => exact hL.single
    case issued =>
      intro c hc n hn
      show n < d.nextState
      rw [hnext]
      exact hL.issued c hc n hn
    case known =>
      intro n state hstate
      have hstate : d.states.lookup n = some state := hstate
      have hrole := hlookup n
      rw [hstate] at hrole
      obtain ⟨old, hold, hpair⟩ := Option.map_eq_some_iff.mp hrole.symm
      obtain ⟨hbackend, hstarted⟩ := Prod.mk.inj hpair
      obtain ⟨c, hc, hn, hb, ha⟩ := hL.known n old hold
      exact ⟨c, hc, hn, hb.trans hbackend, by rw [ha, hstarted]⟩
  have hpending : L.Pending ⟨d, L.constructions⟩ loose [] [] := by
    constructor
    case books => exact hL
    case sound => exact h₁
    case constructions => exact (List.append_nil _).symm
    case held =>
      intro c hc
      cases hc
    case acts => rw [acts, hacts, List.append_nil]
    case stops => rfl
    case lookup =>
      intro n _
      have hsome := congrArg Option.isSome (hlookup n)
      rwa [Option.isSome_map, Option.isSome_map] at hsome
    case loose =>
      intro n hn
      obtain ⟨houtput, hstates⟩ := hloose n hn
      exact ⟨houtput, by rw [hstates], rfl⟩
  exact hpending.settle E

/-- Nothing at all. -/
theorem Sound.settle_self (hL : L.Sound .null) (E : Engine σ κ) :
    L.Sound .null ∧ L.Settles L :=
  hL.settle_desk E hL.kept rfl rfl (fun _ => rfl) fun _ _ => ⟨rfl, rfl⟩

theorem Sound.settle_put (hL : L.Sound .null) (E : Engine σ κ) (slot : Slot) {v : View}
    (hv : ∀ n, v = .alias n → (L.desk.states.lookup n).isSome) :
    (⟨L.desk.putView E.recorded slot v, L.constructions⟩ : Ledger σ κ).Sound .null ∧
      L.Settles ⟨L.desk.putView E.recorded slot v, L.constructions⟩ := by
  rw [Desk.putView_eq]
  exact hL.settle_desk E (hL.kept.set slot hv (Or.inl rfl)) rfl rfl (fun _ => rfl)
    fun _ _ => ⟨rfl, rfl⟩

theorem Sound.settle_drop (hL : L.Sound .null) (E : Engine σ κ) (slot : Slot) :
    (⟨(Desk.dropView E.recorded slot L.desk).2, L.constructions⟩ : Ledger σ κ).Sound .null ∧
      L.Settles ⟨(Desk.dropView E.recorded slot L.desk).2, L.constructions⟩ := by
  unfold Desk.dropView
  cases hfind : L.desk.views.find? slot with
  | none => exact hL.settle_self E
  | some old =>
    have hkept := hL.kept.erase slot
    rw [hfind] at hkept
    exact hL.settle_desk E hkept rfl rfl (fun _ => rfl) fun _ _ => ⟨rfl, rfl⟩

theorem Sound.settle_take (hL : L.Sound .null) (E : Engine σ κ) (source target : Slot)
    {v : View} (hv : L.desk.views.find? source = some v) :
    (⟨L.desk.takeView E.recorded source target v, L.constructions⟩ : Ledger σ κ).Sound .null ∧
      L.Settles ⟨L.desk.takeView E.recorded source target v, L.constructions⟩ := by
  have htaken : ({ L.desk with views := L.desk.views.set source .null } :
      Desk (Recorded σ) κ).Kept v := by
    have hset := hL.kept.set source (v := .null) (by simp) (Or.inl rfl)
    rwa [hv] at hset
  have hstate : ∀ n, v = .alias n → (L.desk.states.lookup n).isSome := by
    rintro n rfl
    exact hL.kept.behind source n hv
  rw [Desk.takeView, Desk.putView_eq]
  exact hL.settle_desk E (htaken.set target hstate (Or.inr rfl)) rfl rfl (fun _ => rfl)
    fun _ _ => ⟨rfl, rfl⟩

theorem Sound.settle_swap (hL : L.Sound .null) (E : Engine σ κ) (a b : Slot) {v w : View}
    (hv : L.desk.views.find? a = some v) (hw : L.desk.views.find? b = some w) :
    (⟨L.desk.swapViews a b v w, L.constructions⟩ : Ledger σ κ).Sound .null ∧
      L.Settles ⟨L.desk.swapViews a b v w, L.constructions⟩ := by
  have hstate : ∀ slot v, L.desk.views.find? slot = some v → ∀ n, v = .alias n →
      (L.desk.states.lookup n).isSome := by
    rintro slot v hfind n rfl
    exact hL.kept.behind slot n hfind
  -- after the first half the view `v` is loose, after the second half it is `w`
  have hfirst : ({ L.desk with views := L.desk.views.set a w } : Desk (Recorded σ) κ).Kept v := by
    have hset := hL.kept.set a (hstate b w hw) (Or.inl rfl)
    rwa [hv] at hset
  have hloose : ((L.desk.views.set a w).find? b).getD .null = w := by
    rw [Slots.find?_set, hw]
    split <;> rfl
  have hsecond : (L.desk.swapViews a b v w).Kept w := by
    have hset := hfirst.set b (hstate a v hv) (Or.inr rfl)
    rwa [hloose] at hset
  have hheld : ∃ slot, (L.desk.swapViews a b v w).views.find? slot = some w := by
    refine ⟨a, ?_⟩
    show ((L.desk.views.set a w).set b v).find? a = some w
    rw [Slots.find?_set, Slots.find?_set, if_pos rfl]
    split
    · rename_i hab
      rw [hab, hw] at hv
      rw [Option.some.inj hv]
    · rfl
  exact hL.settle_desk E (hsecond.tight hheld) rfl rfl (fun _ => rfl) fun _ _ => ⟨rfl, rfl⟩

/-- Another logger on a channel of a view. -/
theorem Sound.settle_logger (hL : L.Sound .null) (E : Engine σ κ) {v : View} {n : Nat}
    {state : ViewState κ} (hv : L.desk.aliased? v = some (n, state)) (l : Logger)
    (channel : Channel) (output : Output) :
    let desk := ({ L.desk with output } : Desk (Recorded σ) κ).setState n
      (state.withLogger l channel)
    (⟨desk, L.constructions⟩ : Ledger σ κ).Sound .null ∧ L.Settles ⟨desk, L.constructions⟩ := by
  obtain ⟨-, hstate⟩ := Desk.aliased?_eq_some hv
  have hkept : ({ L.desk with output } : Desk (Recorded σ) κ).Kept .null :=
    ⟨hL.kept.slots, hL.kept.numbers, hL.kept.numbered, hL.kept.behind, hL.kept.held⟩
  have hrole : ((state.withLogger l channel).backend, (state.withLogger l channel).started) =
      (state.backend, state.started) := by
    cases channel <;> rfl
  apply hL.settle_desk E (hkept.setState hstate _) rfl rfl
  · intro m
    refine (congrArg (Option.map _) (Desk.lookup_setState
      (d := { L.desk with output }) hstate _ m)).trans ?_
    split
    · rename_i hm
      rw [hm, hstate, Option.map_some, Option.map_some, hrole]
    · rfl
  · intro m hm
    cases hm

theorem Sound.settle_output (hL : L.Sound .null) (E : Engine σ κ) (output : Output) :
    (⟨{ L.desk with output }, L.constructions⟩ : Ledger σ κ).Sound .null ∧
      L.Settles ⟨{ L.desk with output }, L.constructions⟩ := by
  have hkept : ({ L.desk with output } : Desk (Recorded σ) κ).Kept .null :=
    ⟨hL.kept.slots, hL.kept.numbers, hL.kept.numbered, hL.kept.behind, hL.kept.held⟩
  apply hL.settle_desk E hkept rfl rfl (fun _ => rfl)
  intro m hm
  cases hm

/-- After a construction that failed there is nothing to let go of. -/
theorem Sound.pending_failed (hL : L.Sound .null) {engine : Recorded σ} {acts : List Act}
    (hacts : engine.acts = L.acts ++ acts) {backend : BackendId} {answer : Option Bool}
    (hstops : Act.stops acts = if answer = some true then [backend] else []) :
    L.Pending ⟨{ L.desk with engine }, L.constructions ++ [⟨backend, answer, none⟩]⟩ .null
      [⟨backend, answer, none⟩] acts := by
  constructor
  case books => exact hL
  case sound =>
    constructor
    case kept =>
      exact ⟨hL.kept.slots, hL.kept.numbers, hL.kept.numbered, hL.kept.behind, hL.kept.held⟩
    case single =>
      rw [List.filterMap_append]
      simpa using hL.single
    case issued =>
      intro c hc n hn
      rcases List.mem_append.mp hc with hold | hnew
      · exact hL.issued c hold n hn
      · rw [List.mem_singleton.mp hnew] at hn
        cases hn
    case known =>
      intro n state hstate
      obtain ⟨c, hc, hthen⟩ := hL.known n state hstate
      exact ⟨c, List.mem_append_left _ hc, hthen⟩
  case constructions => rfl
  case held =>
    intro c hc n hn
    rw [List.mem_singleton.mp hc] at hn
    cases hn
  case acts => exact hacts
  case stops =>
    rw [hstops]
    by_cases hstarted : answer = some true
    · simp [hstarted]
    · simp [hstarted]
  case lookup => exact fun _ _ => rfl
  case loose => exact fun n hn => nomatch hn

/-- After one that succeeded, the new view is in its slot, and what was there before is to be
let go. -/
theorem Sound.pending_opened (hL : L.Sound .null) {engine : Recorded σ} {acts : List Act}
    (hacts : engine.acts = L.acts ++ acts) (slot : Slot) (state : ViewState κ)
    (hstops : Act.stops acts = []) :
    L.Pending ⟨{ (Desk.addState state { L.desk with engine }).2 with
        views := L.desk.views.set slot (.alias L.desk.nextState) },
      L.constructions ++ [⟨state.backend, some state.started, some L.desk.nextState⟩]⟩
      ((L.desk.views.find? slot).getD .null)
      [⟨state.backend, some state.started, some L.desk.nextState⟩] acts := by
  have hkept : ({ L.desk with engine } : Desk (Recorded σ) κ).Kept .null :=
    ⟨hL.kept.slots, hL.kept.numbers, hL.kept.numbered, hL.kept.behind, hL.kept.held⟩
  have hlookup := Desk.lookup_addState ({ L.desk with engine } : Desk (Recorded σ) κ) state
  have hnew : ∀ n, View.alias L.desk.nextState = .alias n →
      ((Desk.addState state { L.desk with engine }).2.states.lookup n).isSome := by
    rintro n hn
    injection hn with hn
    rw [hlookup, if_pos hn.symm]
    rfl
  have hset := (hkept.addState state).set slot hnew (Or.inr rfl)
  constructor
  case books => exact hL
  case sound =>
    constructor
    case kept => exact hset
    case single =>
      rw [List.filterMap_append]
      refine List.nodup_append.mpr ⟨hL.single, List.nodup_singleton _, ?_⟩
      rintro n hn m hm rfl
      obtain ⟨c, hc, hcn⟩ := List.mem_filterMap.mp hn
      have hlt := hL.issued c hc n hcn
      rw [List.mem_singleton.mp hm] at hlt
      exact Nat.lt_irrefl _ hlt
    case issued =>
      intro c hc n hn
      show n < L.desk.nextState + 1
      rcases List.mem_append.mp hc with hold | hlast
      · exact Nat.lt_succ_of_lt (hL.issued c hold n hn)
      · rw [List.mem_singleton.mp hlast, Option.some.injEq] at hn
        omega
    case known =>
      intro n other hother
      have hthen := hlookup n
      rw [show _ = some other from hother] at hthen
      split at hthen
      · rename_i hn
        rw [Option.some.inj hthen]
        exact ⟨_, List.mem_append_right _ (List.mem_singleton_self _), by rw [hn], rfl, rfl⟩
      · obtain ⟨c, hc, hthese⟩ := hL.known n other hthen.symm
        exact ⟨c, List.mem_append_left _ hc, hthese⟩
  case constructions => rfl
  case held =>
    intro c hc n hn
    rw [List.mem_singleton.mp hc, Option.some.injEq] at hn
    subst hn
    intro hzero
    apply (Desk.aliases_eq_zero_iff hset.slots).mp hzero slot
    show (L.desk.views.set slot (.alias L.desk.nextState)).find? slot = _
    rw [Slots.find?_set, if_pos rfl]
  case acts => exact hacts
  case stops =>
    rw [hstops]
    simp
  case lookup =>
    intro n hn
    rw [show Option.isSome _ = Option.isSome _ from congrArg Option.isSome (hlookup n),
      if_neg (Nat.ne_of_lt hn)]
  case loose =>
    intro n hn
    refine ⟨rfl, (hlookup n).trans (if_neg ?_), hstops⟩
    -- an old view has an old number
    rintro rfl
    cases hfind : L.desk.views.find? slot with
    | none =>
      rw [hfind] at hn
      cases hn
    | some old =>
      rw [hfind] at hn
      have hlt := hL.kept.numbered _ (hL.kept.behind slot _ (hfind.trans (congrArg some hn)))
      exact Nat.lt_irrefl _ hlt

/-- **Construction**: a failure settles itself, and a success puts a new view in its slot. -/
theorem Sound.settle_open (hL : L.Sound .null) (E : Engine σ κ) (slot : Slot)
    (backend : BackendId) (args : List String) (handle : CommHandle) :
    (L.built E backend args (Desk.openView E.recorded slot backend args handle)).Sound .null ∧
      L.Settles (L.built E backend args
        (Desk.openView E.recorded slot backend args handle)) := by
  obtain ⟨new, hacts, hout⟩ :=
    ViewState.construct_recorded E backend args handle L.desk.engine
  generalize hcall : ViewState.construct E.recorded backend args handle L.desk.engine = out
    at hacts hout
  obtain ⟨answer, engine⟩ := out
  rcases hout with ⟨e, rfl, hstops⟩ | ⟨state, rfl, rfl, hanswer, hstops⟩
  · rw [built, Desk.openView_error hcall]
    exact (hL.pending_failed hacts hstops).settle E
  · rw [built, Desk.openView_ok hcall, hanswer]
    exact (hL.pending_opened hacts slot state hstops).settle E

/-- **Step lemma**: after every operation the books are sound again, and the operation settles
what it ends. -/
theorem Sound.step (hL : L.Sound .null) (E : Engine σ κ) (op : ViewOp σ κ) :
    (L.step E op).Sound .null ∧ L.Settles (L.step E op) := by
  cases op with
  | openView slot backend args handle => exact hL.settle_open E slot backend args handle
  | openDefault slot args handle => exact hL.settle_open E slot _ args handle
  | openWorld slot world => exact hL.settle_open E slot _ [] _
  | clear slot => exact hL.settle_put E slot fun n hn => nomatch hn
  | copy source target =>
    simp only [Ledger.step, withView]
    cases hv : L.desk.views.find? source with
    | none => exact hL.settle_self E
    | some v =>
      apply hL.settle_put E target
      rintro n rfl
      exact hL.kept.behind source n hv
  | take source target =>
    simp only [Ledger.step, withView]
    cases hv : L.desk.views.find? source with
    | none => exact hL.settle_self E
    | some v => exact hL.settle_take E source target hv
  | swap a b =>
    simp only [Ledger.step, withView]
    cases hv : L.desk.views.find? a with
    | none => exact hL.settle_self E
    | some v =>
      cases hw : L.desk.views.find? b with
      | none => simpa only [hw] using hL.settle_self E
      | some w => simpa only [hw] using hL.settle_swap E a b hv hw
  | drop slot => exact hL.settle_drop E slot
  | setDefaultBackend backend =>
    have hkept : ((Desk.setDefaultBackend backend L.desk).2).Kept .null :=
      ⟨hL.kept.slots, hL.kept.numbers, hL.kept.numbered, hL.kept.behind, hL.kept.held⟩
    exact hL.settle_desk E hkept rfl rfl (fun _ => rfl) fun n hn => nomatch hn
  | installLogger slot channel l =>
    simp only [Ledger.step, withView]
    cases hv : L.desk.views.find? slot with
    | none => exact hL.settle_self E
    | some v =>
      simp only [Desk.installLogger]
      cases haliased : L.desk.aliased? v with
      | none => exact hL.settle_output E _
      | some found => exact hL.settle_logger E haliased l channel _
  | write slot channel text =>
    simp only [Ledger.step, withView]
    cases hv : L.desk.views.find? slot with
    | none => exact hL.settle_self E
    | some v =>
      simp only [Desk.useViewLogger]
      cases haliased : L.desk.aliased? v with
      | none => exact hL.settle_self E
      | some found => exact hL.settle_logger E haliased _ channel _
  | meanwhile change =>
    have hkept : ({ L.desk with
        engine := ⟨change L.desk.engine.state, L.desk.engine.acts⟩ } :
          Desk (Recorded σ) κ).Kept .null :=
      ⟨hL.kept.slots, hL.kept.numbers, hL.kept.numbered, hL.kept.behind, hL.kept.held⟩
    exact hL.settle_desk E hkept rfl rfl (fun _ => rfl) fun n hn => nomatch hn

end Steps

/-! ## §6 Whole runs -/

/-- **Balance**: a backend has been stopped as often as it has brought a runtime up for a
construction that is over. -/
def Balanced (L : Ledger σ κ) : Prop :=
  ∀ backend, (Act.stops L.acts).count backend = L.constructions.countP fun c =>
    c.backend = backend ∧ c.answer = some true ∧ L.isOver c

/-- Whoever settles what it ends keeps the balance. -/
theorem Settles.balanced {L L' : Ledger σ κ} (h : L.Settles L') (hL : L.Balanced) :
    L'.Balanced := by
  intro backend
  obtain ⟨new, hnew⟩ := h.grows
  obtain ⟨acts, hacts, hstops⟩ := h.stops
  have hcount : ∀ l : List Construction, (l.map (·.backend)).count backend =
      l.countP fun c => c.backend = backend := by
    -- counting a backend in the list of backends is counting its constructions
    intro l
    rw [List.count, List.countP_map]
    apply List.countP_congr
    intro c _
    simp
  -- of the old constructions, those that are over now were over before or have just ended
  have hold : L.constructions.countP (fun c =>
      c.backend = backend ∧ c.answer = some true ∧ L'.isOver c) =
        L.constructions.countP (fun c =>
          c.backend = backend ∧ c.answer = some true ∧ L.isOver c) +
        (L.constructions.filter fun c =>
          c.answer = some true ∧ L.isOver c = false ∧ L'.isOver c).countP fun c =>
            c.backend = backend := by
    rw [List.countP_eq_countP_filter_add _ _ fun c => L.isOver c, List.countP_filter,
      List.countP_filter, List.countP_filter]
    congr 1
    · apply List.countP_congr
      intro c hc
      have hstays := h.stays c hc
      simp only [Bool.and_eq_true, decide_eq_true_eq]
      tauto
    · apply List.countP_congr
      intro c hc
      simp only [Bool.and_eq_true, decide_eq_true_eq, Bool.not_eq_true']
      tauto
  have hdrop : L'.constructions.drop L.constructions.length = new := by
    rw [← hnew, List.drop_left]
  have hfailed : new.countP (fun c =>
      c.backend = backend ∧ c.answer = some true ∧ L'.isOver c) =
        (new.filter fun c => c.answer = some true ∧ L'.isOver c).countP fun c =>
          c.backend = backend := by
    rw [List.countP_filter]
    apply List.countP_congr
    intro c _
    simp only [Bool.and_eq_true, decide_eq_true_eq]
  rw [hacts, Act.stops_append, List.count_append, hL backend, hstops, hcount, ended, hdrop,
    List.countP_append, ← hnew, List.countP_append, hold, hfailed]
  omega

theorem Sound.run {L : Ledger σ κ} (hL : L.Sound .null) (E : Engine σ κ)
    (ops : List (ViewOp σ κ)) : (L.run E ops).Sound .null := by
  induction ops generalizing L with
  | nil => exact hL
  | cons op rest ih => exact ih (hL.step E op).1

theorem Balanced.run {L : Ledger σ κ} (hbalanced : L.Balanced) (hL : L.Sound .null)
    (E : Engine σ κ) (ops : List (ViewOp σ κ)) : (L.run E ops).Balanced := by
  -- balance alone is not inductive: a step keeps it because the books are sound
  induction ops generalizing L with
  | nil => exact hbalanced
  | cons op rest ih =>
    obtain ⟨hsound, hsettles⟩ := hL.step E op
    exact ih (hsettles.balanced hbalanced) hsound

/-- **Exactly-once teardown**: over every engine, and after all operations on views, a backend
has been stopped as often as it has brought a runtime up for a construction without any alias
left. As long as an alias is left, the construction's state is there, on the same backend and
with the same answer; and every further operation stops exactly what it brings to its end,
after both loggers were flushed, whatever came of it. -/
theorem exactly_once (E : Engine σ κ) (s : σ) (defaultBackend : BackendId)
    (ops : List (ViewOp σ κ)) :
    let L := (fresh s defaultBackend).run E ops
    (∀ backend, (Act.stops L.acts).count backend = L.constructions.countP fun c =>
      c.backend = backend ∧ c.answer = some true ∧ L.isOver c) ∧
    (∀ c ∈ L.constructions, L.isOver c = false → ∃ n state, c.state = some n ∧
      L.desk.states.lookup n = some state ∧ state.backend = c.backend ∧
      c.answer = some state.started) ∧
    ∀ op, L.Settles (L.step E op) := by
  have hsound := (Sound.fresh s defaultBackend : (fresh s defaultBackend : Ledger σ κ).Sound
    .null)
  have hbalanced : (fresh s defaultBackend : Ledger σ κ).Balanced := fun _ => rfl
  have hL := hsound.run E ops
  refine ⟨hbalanced.run hsound E ops, fun c hc hnot => ?_, fun op => (hL.step E op).2⟩
  cases hn : c.state with
  | none =>
    simp only [isOver, hn] at hnot
    cases hnot
  | some n =>
    rw [← Bool.not_eq_true, hL.isOver_iff hn, ← ne_eq, Option.ne_none_iff_exists'] at hnot
    obtain ⟨state, hstate⟩ := hnot
    obtain ⟨c', hc', hn', hbackend, hanswer⟩ := hL.known n state hstate
    -- the state's construction is this one, since no two have the same number
    have hsingle := filter_eq_singleton hL.single hc' hn'
    have hmem : c ∈ ((fresh s defaultBackend).run E ops).constructions.filter
        fun b => b.state = some n := List.mem_filter.mpr ⟨hc, decide_eq_true hn⟩
    rw [hsingle] at hmem
    rw [List.mem_singleton.mp hmem]
    exact ⟨n, state, rfl, hstate, hbackend.symm, hanswer⟩

end Ledger

end ClusterView
