import ClusterView.Proofs.GroupViews
import ClusterView.Proofs.Sinks
import Mathlib.Data.List.Induction

/-!
# Loggers behind aliases

Every alias of a view shares the two loggers of the state behind it. So what is written through
a view goes to the logger that was put in use last through any alias of the same state, and to
the default logger of the state if there was none; wherever views are moved, and whatever
happens to other states and on the other channel.

What happens to a logger in use is a list of turns, read off from the operations of a run by
looking at which state the view in a slot is an alias of (`Ledger.turns`). What an operation
does to states and output is said once (`Ledger.Plays`). The logger in use after a run, and what
a writer has received, follow by induction over the run.

## Sections
- §1: Operations and turns
- §2: What an operation does
- §3: The logger in use
- §4: What a sink receives
- §5: Calls and installations
- §6: Whole runs
-/

namespace ClusterView

/-! ## §1 Operations and turns -/

/-- **Operation** in a run with output: one on views, a call on the logger of a view, or whatever
else happens to the output meanwhile. -/
inductive LogOp (σ κ : Type) where
  | view (op : ViewOp σ κ)
  | call (slot : Slot) (channel : Channel) (c : Logger.Call)
  | elsewhere (change : Output → Output)

namespace LogOp

variable {σ κ : Type}

/-- The turn that an operation is to a logger, with the slot of the view that it goes through. -/
def aim? : LogOp σ κ → Option (Slot × Channel × Logger.Turn)
  | .view (.installLogger slot channel l) => some (slot, channel, .replace l)
  | .view (.write slot channel text) => some (slot, channel, .call (.writeAll text))
  | .call slot channel c => some (slot, channel, .call c)
  | _ => none

/-- **Avoiding a sink**: no logger of the sink is put in use, and it is left alone elsewhere. -/
def Avoids (s : Sink) : LogOp σ κ → Prop
  | .view (.installLogger _ _ l) => l.sink? ≠ some s
  | .elsewhere change => ∀ o, (change o).content s = o.content s
  | _ => True

end LogOp

namespace Ledger

variable {σ κ : Type}

/-- **The next ledger**, after one operation. -/
def next (E : Engine σ κ) (L : Ledger σ κ) : LogOp σ κ → Ledger σ κ
  | .view op => L.step E op
  | .call slot channel c =>
      L.withView slot fun v d => (Desk.useViewLogger v channel c.perform d).2
  | .elsewhere change => { L with desk := { L.desk with output := change L.desk.output } }

/-- The ledger after a number of operations. -/
def after (E : Engine σ κ) (L : Ledger σ κ) (ops : List (LogOp σ κ)) : Ledger σ κ :=
  ops.foldl (next E) L

/-- **The turn** that an operation is to the logger of a state on a channel: it goes through an
alias of the state, or the state ends with it. -/
def turn? (E : Engine σ κ) (L : Ledger σ κ) (n : Nat) (channel : Channel) (op : LogOp σ κ) :
    Option Logger.Turn :=
  match op.aim? with
  | some (slot, c, turn) =>
      if L.desk.views.find? slot = some (.alias n) ∧ c = channel then some turn else none
  | none =>
      if (L.desk.states.lookup n).isSome ∧ (L.next E op).desk.states.lookup n = none then
        some .finish
      else none

/-- **All turns** of the logger of a state on a channel in a run, in order. -/
def turns (E : Engine σ κ) (n : Nat) (channel : Channel) :
    Ledger σ κ → List (LogOp σ κ) → List Logger.Turn
  | _, [] => []
  | L, op :: rest => (L.turn? E n channel op).toList ++ turns E n channel (L.next E op) rest

/-! ## §2 What an operation does -/

end Ledger

/-- The default loggers of a member. -/
def Logger.default (rank : Option Nat) : Channel → Logger
  | .progress => (rootOnly rank).1
  | .debug => (rootOnly rank).2

namespace ViewState

variable {σ κ : Type} {E : Engine σ κ} {state : ViewState κ} {channel c : Channel} {l : Logger}

/-- **Defaults**: both loggers are those of the member that the communicator belongs to. -/
def HasDefaults (E : Engine σ κ) (state : ViewState κ) : Prop :=
  ∀ channel, state.logger channel = Logger.default (E.rank state.comm) channel

theorem construct_defaults {backend : BackendId} {args : List String} {handle : CommHandle}
    {s s' : σ} (h : construct E backend args handle s = (.ok state, s')) :
    state.HasDefaults E := by
  obtain ⟨startup, s₁, memory, s₂, hstart, hsurvey, -⟩ := construct_eq_ok h
  obtain ⟨hanswer, -⟩ := Prod.mk.inj (h.symm.trans (construct_of_survey hstart hsurvey))
  have hstate := Except.ok.inj hanswer
  intro channel
  cases channel with
  | progress => exact congrArg ViewState.progress hstate
  | debug => exact congrArg ViewState.debug hstate

@[simp] theorem logger_withLogger (state : ViewState κ) (l : Logger) (channel : Channel) :
    (state.withLogger l channel).logger channel = l := by
  cases channel <;> rfl

theorem logger_withLogger_of_ne (h : c ≠ channel) (state : ViewState κ) (l : Logger) :
    (state.withLogger l channel).logger c = state.logger c := by
  cases channel <;> cases c <;> first | rfl | exact absurd rfl h

@[simp] theorem comm_withLogger (state : ViewState κ) (l : Logger) (channel : Channel) :
    (state.withLogger l channel).comm = state.comm := by
  cases channel <;> rfl

end ViewState

namespace Ledger

variable {σ κ : Type} {E : Engine σ κ} {L L' : Ledger σ κ} {op : LogOp σ κ}
  {d : Desk (Recorded σ) κ}

/-- **Arranging**: until a view is let go of, an operation that aims at no logger leaves the
output and the states alone, and adds a state with default loggers at most. -/
structure Arranges (E : Engine σ κ) (L : Ledger σ κ) (d : Desk (Recorded σ) κ) : Prop where
  output : d.output = L.desk.output
  old : ∀ m state, L.desk.states.lookup m = some state → d.states.lookup m = some state
  new : ∀ m state, d.states.lookup m = some state → L.desk.states.lookup m = some state ∨
    m = L.desk.nextState ∧ state.HasDefaults E

theorem Arranges.of_states (houtput : d.output = L.desk.output)
    (hstates : d.states = L.desk.states) : L.Arranges E d :=
  ⟨houtput, fun _ _ h => hstates ▸ h, fun _ _ h => .inl (hstates ▸ h)⟩

/-- A construction adds a state with a new number. -/
theorem Arranges.opened (hL : L.Sound .null) {backend : BackendId} {args : List String}
    {handle : CommHandle} {state : ViewState κ} {engine : Recorded σ}
    (hcall : ViewState.construct E.recorded backend args handle L.desk.engine =
      (.ok state, engine)) (views : Slots View) :
    L.Arranges E { (Desk.addState state { L.desk with engine }).2 with views } := by
  have hlookup := Desk.lookup_addState ({ L.desk with engine } : Desk (Recorded σ) κ) state
  refine ⟨rfl, fun m old hold => ?_, fun m found hfound => ?_⟩
  · have hlt := hL.kept.numbered m (by rw [hold]; rfl)
    exact (hlookup m).trans ((if_neg (Nat.ne_of_lt hlt)).trans hold)
  · have hthen := (hlookup m).symm.trans hfound
    split at hthen
    · rename_i hm
      cases hthen
      exact .inr ⟨hm, ViewState.construct_defaults (E := E.recorded) hcall⟩
    · exact .inl hthen

/-- A view that comes loose from a slot has a state behind it. -/
theorem Sound.loose_isSome (hL : L.Sound .null) {slot : Slot} {n : Nat}
    (h : (L.desk.views.find? slot).getD .null = .alias n) :
    (L.desk.states.lookup n).isSome :=
  hL.kept.behind slot n (find?_of_loose h)

theorem arranges_openView (hL : L.Sound .null) (slot : Slot) (backend : BackendId)
    (args : List String) (handle : CommHandle) :
    ∃ d loose, (Desk.openView E.recorded slot backend args handle L.desk).2 =
        d.letGo E.recorded loose ∧ L.Arranges E d ∧
      ∀ n, loose = .alias n → (L.desk.states.lookup n).isSome := by
  generalize hcall : ViewState.construct E.recorded backend args handle L.desk.engine = out
  obtain ⟨answer, engine⟩ := out
  cases answer with
  | error e =>
    rw [Desk.openView_error hcall]
    exact ⟨{ L.desk with engine }, .null, rfl, .of_states rfl rfl, fun n hn => nomatch hn⟩
  | ok state =>
    rw [Desk.openView_ok hcall]
    exact ⟨_, _, rfl, .opened hL hcall _, fun n hn => hL.loose_isSome hn⟩

/-- **Operations that aim at no logger** arrange states and then let go of a view at most. -/
theorem arranges_step (hL : L.Sound .null) {op : ViewOp σ κ} (haim : (LogOp.view op).aim? = none) :
    ∃ d loose, (L.step E op).desk = d.letGo E.recorded loose ∧ L.Arranges E d ∧
      ∀ n, loose = .alias n → (L.desk.states.lookup n).isSome := by
  have hself : ∃ d loose, L.desk = d.letGo E.recorded loose ∧ L.Arranges E d ∧
      ∀ n, loose = .alias n → (L.desk.states.lookup n).isSome :=
    ⟨L.desk, .null, rfl, .of_states rfl rfl, fun n hn => nomatch hn⟩
  cases op with
  | openView slot backend args handle => exact arranges_openView hL slot backend args handle
  | openDefault slot args handle => exact arranges_openView hL slot _ args handle
  | openWorld slot world => exact arranges_openView hL slot _ [] _
  | clear slot =>
    exact ⟨_, _, Desk.putView_eq _ _ _ _, .of_states rfl rfl, fun n hn => hL.loose_isSome hn⟩
  | copy source target =>
    simp only [step, withView]
    cases hv : L.desk.views.find? source with
    | none => exact hself
    | some v =>
      exact ⟨_, _, Desk.putView_eq _ _ _ _, .of_states rfl rfl, fun n hn => hL.loose_isSome hn⟩
  | take source target =>
    simp only [step, withView]
    cases hv : L.desk.views.find? source with
    | none => exact hself
    | some v =>
      refine ⟨_, _, Desk.putView_eq _ _ _ _, .of_states rfl rfl, fun n hn => ?_⟩
      -- what comes loose was in the target, or is the null view that the source holds by now
      have hfind := find?_of_loose hn
      rw [show Slots.find? _ target = _ from L.desk.views.find?_set source .null target] at hfind
      split at hfind
      · cases hfind
      · exact hL.kept.behind target n hfind
  | swap a b =>
    simp only [step, withView]
    cases hv : L.desk.views.find? a with
    | none => exact hself
    | some v =>
      cases hw : L.desk.views.find? b with
      | none => exact hself
      | some w =>
        exact ⟨L.desk.swapViews a b v w, .null, rfl, .of_states rfl rfl, fun n hn => nomatch hn⟩
  | drop slot =>
    simp only [step, Desk.dropView]
    cases hfind : L.desk.views.find? slot with
    | none => exact hself
    | some old =>
      refine ⟨_, old, rfl, .of_states rfl rfl, fun n hn => ?_⟩
      exact hL.kept.behind slot n (hn ▸ hfind)
  | setDefaultBackend backend =>
    exact ⟨(Desk.setDefaultBackend backend L.desk).2, .null, rfl, .of_states rfl rfl,
      fun n hn => nomatch hn⟩
  | meanwhile change =>
    exact ⟨(L.step E (.meanwhile change)).desk, .null, rfl, .of_states rfl rfl,
      fun n hn => nomatch hn⟩
  | installLogger _ _ _ | write _ _ _ => cases haim

/-- **What an operation does** to states and output: it is a turn to the logger of the view that
it aims at; or it misses, as there is no such view or it is null; or it has nothing to do with
views. Any other operation leaves all loggers and the output alone, unless a state ends. -/
inductive Plays (E : Engine σ κ) (L : Ledger σ κ) (op : LogOp σ κ) (L' : Ledger σ κ) : Prop
  | aimed (slot : Slot) (channel : Channel) (turn : Logger.Turn) (n : Nat) (state : ViewState κ)
      (haim : op.aim? = some (slot, channel, turn))
      (hheld : L.desk.views.find? slot = some (.alias n))
      (hstate : L.desk.states.lookup n = some state)
      (houtput : L'.desk.output = (turn.act L.desk.output (state.logger channel)).2)
      (hlookup : ∀ m, L'.desk.states.lookup m =
        if m = n then some (state.withLogger (turn.after (state.logger channel)) channel)
        else L.desk.states.lookup m)
  | missed (slot : Slot) (channel : Channel) (turn : Logger.Turn)
      (haim : op.aim? = some (slot, channel, turn))
      (hnone : ∀ n, L.desk.views.find? slot ≠ some (.alias n))
      (houtput : L'.desk.output = L.desk.output ∨
        ∃ l, turn = .replace l ∧ L'.desk.output = l.close L.desk.output)
      (hstates : L'.desk.states = L.desk.states)
  | elsewhere (change : Output → Output) (hop : op = .elsewhere change)
      (houtput : L'.desk.output = change L.desk.output)
      (hstates : L'.desk.states = L.desk.states)
  | kept (haim : op.aim? = none) (harranges : L.Arranges E L'.desk)
  | ended (n : Nat) (state : ViewState κ) (haim : op.aim? = none)
      (hstate : L.desk.states.lookup n = some state) (hgone : L'.desk.states.lookup n = none)
      (houtput : L'.desk.output =
        (state.debug.flush (state.progress.flush L.desk.output).2.2).2.2)
      (hold : ∀ m, m ≠ n → ∀ state, L.desk.states.lookup m = some state →
        L'.desk.states.lookup m = some state)
      (hnew : ∀ m state, L'.desk.states.lookup m = some state →
        L.desk.states.lookup m = some state ∨ m = L.desk.nextState ∧ state.HasDefaults E)

/-- A turn to the logger of a view. Without a state behind the view, nothing happens, but a logger
that was to be put in use goes out of use. -/
def strike (channel : Channel) (turn : Logger.Turn) (v : View) (d : Desk (Recorded σ) κ) :
    Desk (Recorded σ) κ :=
  match d.aliased? v with
  | some (n, state) =>
      let (l, output) := turn.act d.output (state.logger channel)
      { d with output }.setState n (state.withLogger l channel)
  | none =>
      match turn with
      | .replace l => { d with output := l.close d.output }
      | _ => d

/-- **Operations that aim at a logger** are turns to the logger of the view in the slot. -/
theorem next_of_aim {slot : Slot} {channel : Channel} {turn : Logger.Turn}
    (haim : op.aim? = some (slot, channel, turn)) :
    L.next E op = L.withView slot (strike channel turn) := by
  have huse : ∀ (c : Logger.Call) v (d : Desk (Recorded σ) κ),
      (Desk.useViewLogger v channel c.perform d).2 = strike channel (.call c) v d := by
    intro c v d
    simp only [Desk.useViewLogger, strike]
    cases d.aliased? v <;> rfl
  have hinstall : ∀ l v (d : Desk (Recorded σ) κ),
      (Desk.installLogger v channel l d).2 = strike channel (.replace l) v d := by
    intro l v d
    simp only [Desk.installLogger, strike]
    cases d.aliased? v <;> rfl
  cases op with
  | call slot' channel c =>
    cases haim
    simp only [next, huse]
  | elsewhere change => cases haim
  | view op =>
    cases op with
    | installLogger slot' channel l =>
      cases haim
      simp only [next, step, hinstall]
    | write slot' channel text =>
      cases haim
      -- writing a whole text is a call
      have hwrite : ∀ v (d : Desk (Recorded σ) κ),
          (Desk.useViewLogger v channel (fun o l => l.writeAll text o) d).2 =
            (Desk.useViewLogger v channel (Logger.Call.writeAll text).perform d).2 := by
        intro v d
        simp only [Desk.useViewLogger]
        cases d.aliased? v <;> rfl
      simp only [next, step, hwrite, huse]
    | _ => cases haim

/-- A turn through a view in a slot reaches the logger behind it, or misses. -/
theorem plays_strike (hL : L.Sound .null) {slot : Slot} {channel : Channel} {turn : Logger.Turn}
    (haim : op.aim? = some (slot, channel, turn)) :
    L.Plays E op (L.withView slot (strike channel turn)) := by
  simp only [withView]
  cases hfind : L.desk.views.find? slot with
  | none => exact .missed slot channel turn haim (by simp [hfind]) (.inl rfl) rfl
  | some v =>
    cases haliased : L.desk.aliased? v with
    | none =>
      refine .missed slot channel turn haim (fun n hn => ?_) ?_ ?_
      · -- a view that is not null has a state behind it
        have hsome := hL.kept.behind slot n hn
        rw [hfind, Option.some.injEq] at hn
        rw [hn, Desk.aliased?, Option.map_eq_none_iff] at haliased
        rw [haliased] at hsome
        cases hsome
      · simp only [strike, haliased]
        cases turn with
        | replace l => exact .inr ⟨l, rfl, rfl⟩
        | call c => exact .inl rfl
        | finish => exact .inl rfl
      · simp only [strike, haliased]
        cases turn <;> rfl
    | some found =>
      obtain ⟨n, state⟩ := found
      obtain ⟨rfl, hstate⟩ := Desk.aliased?_eq_some haliased
      refine .aimed slot channel turn n state haim hfind hstate ?_ fun m => ?_
      · simp only [strike, haliased]
        rfl
      · simp only [strike, haliased, turn.act_logger]
        exact Desk.lookup_setState (d := { L.desk with output := _ }) hstate _ m

/-- **Inversion**: every operation does one of these things. -/
theorem plays_next (hL : L.Sound .null) (op : LogOp σ κ) : L.Plays E op (L.next E op) := by
  cases haim : op.aim? with
  | some aim =>
    rw [next_of_aim haim]
    exact plays_strike hL haim
  | none =>
    cases op with
    | elsewhere change => exact .elsewhere change rfl rfl rfl
    | call slot channel c => cases haim
    | view op =>
      obtain ⟨d, loose, hstep, harranges, hloose⟩ := arranges_step (E := E) hL haim
      have hnext : (L.next E (.view op)).desk = d.letGo E.recorded loose := hstep
      rcases d.letGo_eq E.recorded loose with hsame | ⟨n, state, hn, -, hstate, hthen⟩
      · exact .kept haim (by rwa [hnext, hsame])
      · rw [hthen] at hnext
        -- the state that ends was there before
        obtain ⟨old, hold⟩ := Option.isSome_iff_exists.mp (hloose n hn)
        obtain rfl : old = state := Option.some.inj ((harranges.old n old hold).symm.trans hstate)
        have hlookup : ∀ m, m ≠ n →
            (L.next E (.view op)).desk.states.lookup m = d.states.lookup m := by
          intro m hm
          rw [hnext]
          exact lookup_filter_ne hm _
        have hgone : (L.next E (.view op)).desk.states.lookup n = none := by
          rw [hnext]
          exact lookup_filter_self n _
        refine .ended n old haim hold hgone ?_ (fun m hm state hstate => ?_) fun m state hm => ?_
        · rw [hnext, ← harranges.output]
          exact (ViewState.teardown_recorded E old d.engine d.output).1
        · exact (hlookup m hm).trans (harranges.old m state hstate)
        · refine harranges.new m state (hm.symm.trans (hlookup m ?_)).symm
          rintro rfl
          rw [hgone] at hm
          cases hm

/-- **Step lemma**: the books stay sound. -/
theorem Sound.next (hL : L.Sound .null) (E : Engine σ κ) (op : LogOp σ κ) :
    (L.next E op).Sound .null := by
  cases op with
  | view op => exact (hL.step E op).1
  | elsewhere change => exact (hL.settle_output E _).1
  | call slot channel c =>
    simp only [Ledger.next, withView]
    cases L.desk.views.find? slot with
    | none => exact hL
    | some v =>
      simp only [Desk.useViewLogger]
      cases haliased : L.desk.aliased? v with
      | none => exact hL
      | some found => exact (hL.settle_logger E haliased _ channel _).1

theorem Sound.after (hL : L.Sound .null) (E : Engine σ κ) (ops : List (LogOp σ κ)) :
    (L.after E ops).Sound .null := by
  induction ops generalizing L with
  | nil => exact hL
  | cons op rest ih => exact ih (hL.next E op)

/-- A number that is still to be given has no state. -/
theorem Sound.lookup_eq_none (hL : L.Sound .null) {n : Nat} (hn : L.desk.nextState ≤ n) :
    L.desk.states.lookup n = none := by
  by_contra hsome
  have hlt := hL.kept.numbered n (Option.isSome_iff_ne_none.mpr hsome)
  omega

/-- Numbers of states are given in order. -/
theorem nextState_le_next (E : Engine σ κ) (L : Ledger σ κ) (op : LogOp σ κ) :
    L.desk.nextState ≤ (L.next E op).desk.nextState := by
  cases op with
  | view op => exact (step_endures E L op).nextState
  | elsewhere change => exact Nat.le_refl _
  | call slot channel c =>
    simp only [next, withView]
    cases L.desk.views.find? slot with
    | none => exact Nat.le_refl _
    | some v =>
      simp only [Desk.useViewLogger]
      cases L.desk.aliased? v <;> exact Nat.le_refl _

/-! ## §3 The logger in use -/

section Turns

variable {n : Nat} {channel : Channel} {state : ViewState κ}

theorem aim?_ne_finish (op : LogOp σ κ) (slot : Slot) (channel : Channel) :
    op.aim? ≠ some (slot, channel, .finish) := by
  cases op with
  | view op => cases op <;> simp [LogOp.aim?]
  | call _ _ _ | elsewhere _ => simp [LogOp.aim?]

theorem turn?_of_aim {slot : Slot} {c : Channel} {turn : Logger.Turn} {m : Nat}
    (haim : op.aim? = some (slot, c, turn))
    (hheld : L.desk.views.find? slot = some (.alias m)) (n : Nat) (channel : Channel) :
    L.turn? E n channel op = if n = m ∧ channel = c then some turn else none := by
  simp only [turn?, haim, hheld, Option.some.injEq, View.alias.injEq, eq_comm]

theorem turn?_of_miss {slot : Slot} {c : Channel} {turn : Logger.Turn}
    (haim : op.aim? = some (slot, c, turn))
    (hnone : ∀ m, L.desk.views.find? slot ≠ some (.alias m)) :
    L.turn? E n channel op = none := by
  simp only [turn?, haim, hnone n, false_and, if_false]

/-- An operation that aims at no logger is a turn to those of a state that ends. -/
theorem turn?_of_kept (haim : op.aim? = none)
    (hkept : ∀ state, L.desk.states.lookup n = some state →
      (L.next E op).desk.states.lookup n = some state) : L.turn? E n channel op = none := by
  simp only [turn?, haim]
  refine if_neg ?_
  rintro ⟨hsome, hgone⟩
  obtain ⟨state, hstate⟩ := Option.isSome_iff_exists.mp hsome
  rw [hkept state hstate] at hgone
  cases hgone

/-- Where there is no state, there is no turn. -/
theorem Sound.turn?_eq_none (hL : L.Sound .null) (hnone : L.desk.states.lookup n = none)
    (E : Engine σ κ) (channel : Channel) (op : LogOp σ κ) : L.turn? E n channel op = none := by
  cases haim : op.aim? with
  | none => simp [turn?, haim, hnone]
  | some aim =>
    obtain ⟨slot, c, turn⟩ := aim
    have hheld : L.desk.views.find? slot ≠ some (.alias n) := by
      intro hheld
      have hsome := hL.kept.behind slot n hheld
      rw [hnone] at hsome
      cases hsome
    simp [turn?, haim, hheld]

/-- **What becomes of a state** in one operation: its loggers take their turns, or it ends. -/
inductive Follows (E : Engine σ κ) (L : Ledger σ κ) (op : LogOp σ κ) (n : Nat)
    (state : ViewState κ) : Prop
  | stays (state' : ViewState κ) (hstate : (L.next E op).desk.states.lookup n = some state')
      (hcomm : state'.comm = state.comm)
      (hquiet : ∀ channel, L.turn? E n channel op = none →
        state'.logger channel = state.logger channel)
      (hturn : ∀ channel turn, L.turn? E n channel op = some turn →
        turn ≠ .finish ∧ state'.logger channel = turn.after (state.logger channel))
  | ends (hgone : (L.next E op).desk.states.lookup n = none)
      (hturn : ∀ channel, L.turn? E n channel op = some .finish)

theorem Follows.quiet (hstate : (L.next E op).desk.states.lookup n = some state)
    (hquiet : ∀ channel, L.turn? E n channel op = none) : L.Follows E op n state :=
  .stays state hstate rfl (fun _ _ => rfl) fun channel turn hturn => by
    rw [hquiet channel] at hturn
    cases hturn

/-- **Step lemma**: every operation follows the views to the loggers behind them. -/
theorem Sound.follows (hL : L.Sound .null) (op : LogOp σ κ)
    (hstate : L.desk.states.lookup n = some state) : L.Follows E op n state := by
  have hstays : op.aim? = none → (L.next E op).desk.states.lookup n = some state →
      L.Follows E op n state := by
    intro haim hthen
    exact .quiet hthen fun channel => turn?_of_kept haim fun _ h => by rwa [← h, hstate]
  rcases plays_next (E := E) hL op with
    ⟨slot, c, turn, m, old, haim, hheld, hold, -, hlookup⟩ |
    ⟨slot, c, turn, haim, hnone, -, hstates⟩ | ⟨change, rfl, -, hstates⟩ | ⟨haim, harranges⟩ |
    ⟨m, old, haim, hold, hgone, -, hrest, -⟩
  · by_cases hn : n = m
    · -- the turn is that of the channel that the operation aims at
      subst hn
      cases hstate.symm.trans hold
      refine .stays _ ((hlookup n).trans (if_pos rfl)) (state.comm_withLogger _ c) ?_ ?_
      · intro channel hquiet
        simp only [turn?_of_aim haim hheld, true_and, ite_eq_right_iff, reduceCtorEq, imp_false]
          at hquiet
        exact ViewState.logger_withLogger_of_ne hquiet state _
      · intro channel turn' hturn
        simp only [turn?_of_aim haim hheld, true_and, Option.ite_none_right_eq_some,
          Option.some.injEq] at hturn
        obtain ⟨rfl, rfl⟩ := hturn
        refine ⟨?_, state.logger_withLogger _ channel⟩
        rintro rfl
        exact aim?_ne_finish op slot channel haim
    · refine .quiet ((hlookup n).trans ((if_neg hn).trans hstate)) fun channel => ?_
      rw [turn?_of_aim haim hheld, if_neg fun h => hn h.1]
  · exact .quiet (hstates ▸ hstate) fun channel => turn?_of_miss haim hnone
  · exact hstays rfl (hstates ▸ hstate)
  · exact hstays haim (harranges.old n state hstate)
  · by_cases hn : n = m
    · subst hn
      exact .ends hgone fun channel => by simp [turn?, haim, hstate, hgone]
    · exact hstays haim (hrest n hn state hstate)

/-- **A state that was not there** has the next number, and default loggers. -/
theorem Sound.follows_none (hL : L.Sound .null) (op : LogOp σ κ)
    (hnone : L.desk.states.lookup n = none)
    (hstate : (L.next E op).desk.states.lookup n = some state) :
    n = L.desk.nextState ∧ state.HasDefaults E := by
  have hsame : (L.next E op).desk.states ≠ L.desk.states := by
    intro hsame
    rw [hsame, hnone] at hstate
    cases hstate
  have hnew : L.desk.states.lookup n = some state ∨ n = L.desk.nextState ∧ state.HasDefaults E →
      n = L.desk.nextState ∧ state.HasDefaults E := by
    rintro (hold | hnew)
    · rw [hnone] at hold
      cases hold
    · exact hnew
  rcases plays_next (E := E) hL op with
    ⟨slot, c, turn, m, old, haim, hheld, hold, -, hlookup⟩ |
    ⟨slot, c, turn, haim, hnone, -, hstates⟩ | ⟨change, rfl, -, hstates⟩ | ⟨haim, harranges⟩ |
    ⟨m, old, haim, hold, hgone, -, hrest, hthen⟩
  · have hn : n ≠ m := by
      rintro rfl
      rw [hnone] at hold
      cases hold
    rw [hlookup, if_neg hn] at hstate
    exact hnew (.inl hstate)
  · exact absurd hstates hsame
  · exact absurd hstates hsame
  · exact hnew (harranges.new n state hstate)
  · exact hnew (hthen n state hstate)

end Turns

section Histories

variable {n : Nat} {channel : Channel} {ops : List (LogOp σ κ)}

theorem after_concat (E : Engine σ κ) (L : Ledger σ κ) (ops : List (LogOp σ κ))
    (op : LogOp σ κ) : L.after E (ops ++ [op]) = (L.after E ops).next E op := by
  simp only [after, List.foldl_append, List.foldl_cons, List.foldl_nil]

theorem turns_concat (L : Ledger σ κ) (ops : List (LogOp σ κ)) (op : LogOp σ κ) :
    turns E n channel L (ops ++ [op]) =
      turns E n channel L ops ++ ((L.after E ops).turn? E n channel op).toList := by
  induction ops generalizing L with
  | nil => exact List.append_nil _
  | cons first rest ih =>
    simp only [List.cons_append, turns, ih, List.append_assoc]
    rfl

/-- **Run lemma**: a state that is still to come has had no turns. -/
theorem Sound.turns_eq_nil (hL : L.Sound .null)
    (hn : (L.after E ops).desk.nextState ≤ n) : turns E n channel L ops = [] := by
  induction ops using List.reverseRecOn with
  | nil => rfl
  | append_singleton ops op ih =>
    rw [after_concat] at hn
    have hle := Nat.le_trans (nextState_le_next E (L.after E ops) op) hn
    have hsound := hL.after E ops
    rw [turns_concat, ih hle, hsound.turn?_eq_none (hsound.lookup_eq_none hle)]
    rfl

/-- **Run lemma**: the logger of a state on a channel is the one that was put in use last, or
the default one, after the calls on it since. -/
theorem inUse_after (E : Engine σ κ) (s : σ) (defaultBackend : BackendId)
    (ops : List (LogOp σ κ)) {state : ViewState κ} {n : Nat}
    (hstate : ((fresh s defaultBackend).after E ops).desk.states.lookup n = some state)
    (channel : Channel) :
    ∃ l calls, Logger.InUse (.default (E.rank state.comm) channel)
        (turns E n channel (fresh s defaultBackend) ops) l calls ∧
      state.logger channel = l.afterCalls calls := by
  have hfresh : (fresh s defaultBackend : Ledger σ κ).Sound .null := .fresh s defaultBackend
  induction ops using List.reverseRecOn generalizing state with
  | nil => cases hstate
  | append_singleton ops op ih =>
    rw [after_concat] at hstate
    rw [turns_concat]
    have hL := hfresh.after E ops
    cases hbefore : ((fresh s defaultBackend).after E ops).desk.states.lookup n with
    | none =>
      -- the state is new, so its number has had no turn so far
      obtain ⟨hn, hdefaults⟩ := hL.follows_none op hbefore hstate
      rw [hfresh.turns_eq_nil (Nat.le_of_eq hn.symm), hL.turn?_eq_none hbefore]
      exact ⟨_, [], .first [], hdefaults channel⟩
    | some before =>
      obtain ⟨l, calls, huse, hlogger⟩ := ih hbefore
      rcases hL.follows (E := E) op hbefore with
        ⟨state', hthen, hcomm, hquiet, hturn⟩ | ⟨hgone, -⟩
      · cases hstate.symm.trans hthen
        rw [hcomm]
        cases ht : ((fresh s defaultBackend).after E ops).turn? E n channel op with
        | none =>
          refine ⟨l, calls, ?_, (hquiet channel ht).trans hlogger⟩
          rw [Option.toList_none, List.append_nil]
          exact huse
        | some turn =>
          obtain ⟨hgoes, hafter⟩ := hturn channel turn ht
          obtain ⟨l', calls', huse', hlogger'⟩ := huse.turn hgoes
          exact ⟨l', calls', huse', by rw [hafter, hlogger, hlogger']⟩
      · rw [hgone] at hstate
        cases hstate

end Histories

end Ledger

/-! ## §4 What a sink receives -/

/-- **Own sinks** are those that no default logger writes to. -/
def Sink.IsOwn : Sink → Prop
  | .stdout | .stderr => False
  | .file _ | .capture _ => True

theorem Logger.sink?_default {s : Sink} (hs : s.IsOwn) (rank : Option Nat) (channel : Channel) :
    (Logger.default rank channel).sink? ≠ some s := by
  have hstandard : ∀ l : Logger, l = .stdout ∨ l = .stderr ∨ l = .null → l.sink? ≠ some s := by
    rintro l (rfl | rfl | rfl) hsink
    · cases hsink
      exact hs
    · cases hsink
      exact hs
    · cases hsink
  obtain ⟨hprogress, hdebug⟩ := Logger.rootOnly_standard rank
  cases channel with
  | progress => exact hstandard _ hprogress
  | debug => exact hstandard _ hdebug

namespace Desk

variable {σ κ : Type}

/-- **Backing**: the logger of a state on a channel writes to the sink. -/
def Backs (d : Desk σ κ) (s : Sink) (n : Nat) (channel : Channel) : Prop :=
  ∃ state, d.states.lookup n = some state ∧ (state.logger channel).sink? = some s

end Desk

namespace Ledger

variable {σ κ : Type} {E : Engine σ κ} {L : Ledger σ κ} {op : LogOp σ κ} {s : Sink} {n : Nat}
  {channel : Channel} {ops : List (LogOp σ κ)}

/-- An operation that avoids a sink puts no logger of it in use. -/
theorem sink?_of_avoids (havoids : op.Avoids s) {slot : Slot} {l : Logger}
    (haim : op.aim? = some (slot, channel, .replace l)) : l.sink? ≠ some s := by
  cases op with
  | view op =>
    cases op with
    | installLogger slot' c new =>
      cases haim
      exact havoids
    | _ => cases haim
  | call _ _ _ | elsewhere _ => cases haim

/-- A turn of a state that stays is what the operation aims at. -/
theorem aim?_of_turn? {turn : Logger.Turn} (hturn : L.turn? E n channel op = some turn)
    (hgoes : turn ≠ .finish) : ∃ slot, op.aim? = some (slot, channel, turn) := by
  cases haim : op.aim? with
  | none =>
    simp only [turn?, haim, Option.ite_none_right_eq_some, Option.some.injEq] at hturn
    exact absurd hturn.2.symm hgoes
  | some aim =>
    obtain ⟨slot, c, aimed⟩ := aim
    simp only [turn?, haim, Option.ite_none_right_eq_some, Option.some.injEq] at hturn
    obtain ⟨⟨-, rfl⟩, rfl⟩ := hturn
    exact ⟨slot, rfl⟩

/-- **Step lemma**: unless a logger of its own is put in use, no logger comes to back a sink. -/
theorem Sound.backs_next (hL : L.Sound .null) (hs : s.IsOwn) (havoids : op.Avoids s)
    (hbacks : (L.next E op).desk.Backs s n channel) : L.desk.Backs s n channel := by
  obtain ⟨state', hstate', hsink⟩ := hbacks
  cases hstate : L.desk.states.lookup n with
  | none =>
    obtain ⟨-, hdefaults⟩ := hL.follows_none op hstate hstate'
    rw [hdefaults channel] at hsink
    exact absurd hsink (Logger.sink?_default hs _ channel)
  | some state =>
    refine ⟨state, hstate, ?_⟩
    rcases hL.follows (E := E) op hstate with ⟨_, hthen, -, hquiet, hturn⟩ | ⟨hgone, -⟩
    · cases hstate'.symm.trans hthen
      cases ht : L.turn? E n channel op with
      | none => rwa [← hquiet channel ht]
      | some turn =>
        obtain ⟨hgoes, hafter⟩ := hturn channel turn ht
        rw [hafter] at hsink
        cases turn with
        | call c => rwa [← c.sink?_after]
        | replace l =>
          obtain ⟨slot, haim⟩ := aim?_of_turn? ht hgoes
          exact absurd hsink (sink?_of_avoids havoids haim)
        | finish => exact absurd rfl hgoes
    · rw [hgone] at hstate'
      cases hstate'

/-- **Step lemma**: a sink that the logger of one state on one channel backs at most gets what
that logger writes in its turn, and nothing else. -/
theorem Sound.content_next (hL : L.Sound .null) (havoids : op.Avoids s)
    (honly : ∀ m c, L.desk.Backs s m c → m = n ∧ c = channel) :
    (L.turn? E n channel op = none ∧
        (L.next E op).desk.output.content s = L.desk.output.content s) ∨
      ∃ turn state o, L.turn? E n channel op = some turn ∧
        L.desk.states.lookup n = some state ∧ o.content s = L.desk.output.content s ∧
        (L.next E op).desk.output.content s =
          (turn.act o (state.logger channel)).2.content s := by
  have hspared : ∀ m state c, L.desk.states.lookup m = some state → ¬ (m = n ∧ c = channel) →
      (state.logger c).sink? ≠ some s :=
    fun m state c hstate hnot hsink => hnot (honly m c ⟨state, hstate, hsink⟩)
  rcases plays_next (E := E) hL op with
    ⟨slot, c, turn, m, state, haim, hheld, hstate, houtput, -⟩ |
    ⟨slot, c, turn, haim, hnone, houtput, -⟩ | ⟨change, rfl, houtput, hstates⟩ |
    ⟨haim, harranges⟩ | ⟨m, state, haim, hstate, hgone, houtput, hrest, -⟩
  · rw [turn?_of_aim haim hheld]
    by_cases hm : n = m ∧ channel = c
    · obtain ⟨rfl, rfl⟩ := hm
      exact .inr ⟨turn, state, L.desk.output, if_pos ⟨rfl, rfl⟩, hstate, rfl, by rw [houtput]⟩
    · refine .inl ⟨if_neg hm, ?_⟩
      rw [houtput]
      exact turn.content_act
        (hspared m state c hstate fun h => hm ⟨h.1.symm, h.2.symm⟩) _
  · refine .inl ⟨turn?_of_miss haim hnone, ?_⟩
    rcases houtput with hsame | ⟨l, rfl, hclosed⟩
    · rw [hsame]
    · rw [hclosed]
      exact Logger.content_close (sink?_of_avoids havoids haim) _
  · refine .inl ⟨turn?_of_kept rfl fun state hstate => hstates ▸ hstate, ?_⟩
    rw [houtput]
    exact havoids _
  · exact .inl ⟨turn?_of_kept haim fun state => harranges.old n state, by rw [harranges.output]⟩
  · by_cases hm : n = m
    · -- the state ends: of its two loggers, the other one does not write to the sink
      subst hm
      have hturn : L.turn? E n channel op = some .finish := by simp [turn?, haim, hstate, hgone]
      cases channel with
      | progress =>
        have hother : state.debug.sink? ≠ some s := hspared n state .debug hstate (by simp)
        refine .inr ⟨.finish, state, L.desk.output, hturn, hstate, rfl, ?_⟩
        rw [houtput, Logger.content_flush hother]
        rfl
      | debug =>
        have hother : state.progress.sink? ≠ some s := hspared n state .progress hstate (by simp)
        refine .inr ⟨.finish, state, _, hturn, hstate, Logger.content_flush hother _, ?_⟩
        rw [houtput]
        rfl
    · have hprogress : state.progress.sink? ≠ some s :=
        hspared m state .progress hstate fun h => hm h.1.symm
      have hdebug : state.debug.sink? ≠ some s :=
        hspared m state .debug hstate fun h => hm h.1.symm
      refine .inl ⟨turn?_of_kept haim fun state => hrest n hm state, ?_⟩
      rw [houtput, Logger.content_flush hdebug, Logger.content_flush hprogress]

/-- **Run lemma**: a sink that no logger behind a view backs is left alone for good. -/
theorem Sound.content_after (hL : L.Sound .null) (hs : s.IsOwn)
    (hnone : ∀ m c, ¬ L.desk.Backs s m c) (havoids : ∀ op ∈ ops, op.Avoids s) :
    (L.after E ops).desk.output.content s = L.desk.output.content s := by
  induction ops generalizing L with
  | nil => rfl
  | cons op rest ih =>
    have hop := havoids op List.mem_cons_self
    have hsame : (L.next E op).desk.output.content s = L.desk.output.content s := by
      -- a state that is still to come has no turn
      have hnext := hL.lookup_eq_none (Nat.le_refl L.desk.nextState)
      have honly : ∀ m c, L.desk.Backs s m c → m = L.desk.nextState ∧ c = .progress :=
        fun m c hbacks => absurd hbacks (hnone m c)
      rcases hL.content_next (E := E) hop honly with ⟨-, hsame⟩ | ⟨_, _, _, hturn, -⟩
      · exact hsame
      · rw [hL.turn?_eq_none hnext] at hturn
        cases hturn
    have hrest := ih (hL.next E op) (fun m c hbacks => hnone m c (hL.backs_next hs hop hbacks))
      fun op hmem => havoids op (List.mem_cons_of_mem _ hmem)
    exact hrest.trans hsame

/-- **Step lemma**: the only logger that backs a sink is gone once it was replaced, or flushed
at the end of its state. -/
theorem Sound.unbacked_next (hL : L.Sound .null) (hs : s.IsOwn) (havoids : op.Avoids s)
    (honly : ∀ m c, L.desk.Backs s m c → m = n ∧ c = channel) {turn : Logger.Turn}
    (hturn : L.turn? E n channel op = some turn) (hlast : ∀ c, turn ≠ .call c) (m : Nat)
    (c : Channel) : ¬ (L.next E op).desk.Backs s m c := by
  intro hbacks
  obtain ⟨rfl, rfl⟩ := honly m c (hL.backs_next hs havoids hbacks)
  obtain ⟨state, hstate, -⟩ := hL.backs_next hs havoids hbacks
  obtain ⟨state', hstate', hsink⟩ := hbacks
  rcases hL.follows (E := E) op hstate with ⟨_, hthen, -, -, hgoes⟩ | ⟨hgone, -⟩
  · cases hstate'.symm.trans hthen
    obtain ⟨hfinish, hafter⟩ := hgoes c turn hturn
    cases turn with
    | call call => exact hlast call rfl
    | replace l =>
      obtain ⟨slot, haim⟩ := aim?_of_turn? hturn hfinish
      rw [hafter] at hsink
      exact sink?_of_avoids havoids haim hsink
    | finish => exact hfinish rfl
  · rw [hgone] at hstate'
    cases hstate'

/-- **A replaced logger**, if no other one writes to its sink, gives out what it holds back, and
nothing gets to the sink any more. -/
theorem Sound.content_replaced (hL : L.Sound .null) (hs : s.IsOwn)
    (honly : ∀ m c, L.desk.Backs s m c → m = n ∧ c = channel) {slot : Slot} {state : ViewState κ}
    (hheld : L.desk.views.find? slot = some (.alias n))
    (hstate : L.desk.states.lookup n = some state) {l : Logger} (hl : l.sink? ≠ some s)
    (havoids : ∀ op ∈ ops, op.Avoids s) :
    (L.after E (.view (.installLogger slot channel l) :: ops)).desk.output.content s =
      ((state.logger channel).close L.desk.output).content s := by
  have hturn : L.turn? E n channel (.view (.installLogger slot channel l)) = some (.replace l) :=
    (turn?_of_aim rfl hheld n channel).trans (if_pos ⟨rfl, rfl⟩)
  have hclosed : (L.next E (.view (.installLogger slot channel l))).desk.output =
      (state.logger channel).close L.desk.output := by
    have haliased : L.desk.aliased? (.alias n) = some (n, state) := by
      simp [Desk.aliased?, hstate]
    simp only [Ledger.next, Ledger.step, withView, hheld, Desk.installLogger, haliased]
    rfl
  have hop : LogOp.Avoids s (.view (.installLogger slot channel l) : LogOp σ κ) := hl
  have hnone := hL.unbacked_next hs hop honly hturn (by simp)
  exact ((hL.next E _).content_after hs hnone havoids).trans (by rw [hclosed])

/-- **Run lemma**: a writer that backs one logger only gets what it takes from the turns of that
logger, and nothing after it was replaced. -/
theorem Sound.content_writer (hL : L.Sound .null) {state : ViewState κ} {w : Writer}
    {text : String} (hstate : L.desk.states.lookup n = some state)
    (hwriter : state.logger channel = .writer w)
    (honly : ∀ m c, L.desk.Backs (.capture w.capture) m c → m = n ∧ c = channel)
    (havoids : ∀ op ∈ ops, op.Avoids (.capture w.capture))
    (htext : L.desk.output.content (.capture w.capture) = some (.text text)) :
    (L.after E ops).desk.output.content (.capture w.capture) =
      some (.text (text ++ Logger.Turn.received w (turns E n channel L ops))) := by
  -- the text grows with the calls, and from the first other turn on nothing backs the capture
  induction ops generalizing L text state with
  | nil =>
    rw [turns, Logger.Turn.received, String.append_empty]
    exact htext
  | cons op rest ih =>
    have hs : (Sink.capture w.capture).IsOwn := trivial
    have hop := havoids op List.mem_cons_self
    have hrest := fun op hmem => havoids op (List.mem_cons_of_mem _ hmem)
    have hnext := hL.next E op
    have hbacks : ∀ m c, (L.next E op).desk.Backs (.capture w.capture) m c →
        m = n ∧ c = channel := fun m c h => honly m c (hL.backs_next hs hop h)
    have hfollows := hL.follows (E := E) op hstate
    rcases hL.content_next (E := E) hop honly with
      ⟨hnone, hsame⟩ | ⟨turn, _, o, hturn, hfound, ho, hthen⟩
    · simp only [turns, hnone, Option.toList_none, List.nil_append]
      rcases hfollows with ⟨state', hstate', -, hquiet, -⟩ | ⟨-, hends⟩
      · exact ih hnext hstate' ((hquiet channel hnone).trans hwriter) hbacks hrest
          (hsame.trans htext)
      · cases hnone.symm.trans (hends channel)
    · cases hstate.symm.trans hfound
      rw [hwriter] at hthen
      have ho := ho.trans htext
      simp only [turns, hturn, Option.toList_some, List.singleton_append]
      cases turn with
      | call c =>
        have hgrown := hthen.trans (c.content_perform_writer ho)
        rw [Logger.Turn.received, ← String.append_assoc]
        rcases hfollows with ⟨state', hstate', -, -, hgoes⟩ | ⟨-, hends⟩
        · refine ih hnext hstate' ?_ hbacks hrest hgrown
          rw [(hgoes channel _ hturn).2, hwriter]
          exact c.after_writer w
        · cases hturn.symm.trans (hends channel)
      | replace l =>
        have hnone := hL.unbacked_next hs hop honly hturn (by simp)
        rw [Logger.Turn.received, String.append_empty]
        exact (hnext.content_after hs hnone hrest).trans (hthen.trans ho)
      | finish =>
        have hnone := hL.unbacked_next hs hop honly hturn (by simp)
        exact (hnext.content_after hs hnone hrest).trans
          (hthen.trans (Logger.Call.content_perform_writer ho .flush))

end Ledger

/-! ## §5 Calls and installations -/

namespace Desk

variable {τ κ : Type} {d : Desk τ κ} {n : Nat} {state : ViewState κ} {channel : Channel}

/-- **Touching one logger**: there is another logger on one channel of a view and its aliases,
and one sink at most holds something else. All the rest is as it was. -/
structure Touches (d d' : Desk τ κ) (v : View) (channel : Channel) (l : Logger)
    (sink? : Option Sink) : Prop where
  rest : d' = { d with states := d'.states, output := d'.output }
  behind : ∀ u, d'.behind u =
    if u = v then (d.behind u).map fun state => state.withLogger l channel else d.behind u
  sinks : ∀ s, sink? ≠ some s → d'.output.content s = d.output.content s

theorem touches_setState (hstate : d.states.lookup n = some state) (l : Logger)
    {output : Output} {sink? : Option Sink}
    (hsinks : ∀ s, sink? ≠ some s → output.content s = d.output.content s) :
    d.Touches (({ d with output } : Desk τ κ).setState n (state.withLogger l channel)) (.alias n)
      channel l sink? := by
  refine ⟨rfl, fun u => ?_, hsinks⟩
  rcases u with _ | m
  · rfl
  · have hlookup := lookup_setState (d := { d with output }) hstate (state.withLogger l channel) m
    simp only [behind, aliased?, Option.map_map, View.alias.injEq]
    rw [hlookup]
    by_cases hm : m = n
    · rw [if_pos hm, if_pos hm, hm, hstate]
      rfl
    · rw [if_neg hm, if_neg hm]

/-- **Routing**: what is done on a channel of a view is done to one logger, that of the view and
all its aliases. A call gets the answer of that logger, and another logger takes its place when
it is out of use. -/
structure Routes (d : Desk τ κ) (v : View) (channel : Channel) (l : Logger) : Prop where
  logger : d.viewLogger v channel = .ok l
  call : ∀ c : Logger.Call,
    (useViewLogger v channel c.perform d).1 = .ok (c.perform d.output l).1 ∧
      (useViewLogger v channel c.perform d).2.output = (c.perform d.output l).2.2 ∧
      d.Touches (useViewLogger v channel c.perform d).2 v channel (c.after l) l.sink?
  install : ∀ new : Logger,
    (installLogger v channel new d).1 = .ok () ∧
      (installLogger v channel new d).2.output = l.close d.output ∧
      d.Touches (installLogger v channel new d).2 v channel new l.sink?

theorem routes_alias (hstate : d.states.lookup n = some state) (channel : Channel) :
    d.Routes (.alias n) channel (state.logger channel) := by
  have haliased : d.aliased? (.alias n) = some (n, state) := by simp [aliased?, hstate]
  refine ⟨viewLogger_of_behind (behind_of_lookup hstate) channel, fun c => ?_, fun new => ?_⟩
  · have huse : useViewLogger (.alias n) channel c.perform d =
        (.ok (c.perform d.output (state.logger channel)).1,
          ({ d with output := (c.perform d.output (state.logger channel)).2.2 } :
            Desk τ κ).setState n (state.withLogger (c.after (state.logger channel)) channel)) := by
      simp only [useViewLogger, haliased, c.perform_logger]
    rw [huse]
    exact ⟨rfl, rfl, touches_setState hstate _ fun s hs => c.content_perform hs _⟩
  · have hinstall : installLogger (.alias n) channel new d =
        (.ok (), ({ d with output := (state.logger channel).close d.output } :
          Desk τ κ).setState n (state.withLogger new channel)) := by
      simp only [installLogger, haliased]
    rw [hinstall]
    exact ⟨rfl, rfl, touches_setState hstate _ fun s hs => Logger.content_close hs _⟩

/-- **Refusal**: on a null view a call changes nothing, and neither does an installation, but the
logger that was to be installed goes out of use: what it holds back goes to its own sink. -/
structure Refuses (d : Desk τ κ) (v : View) (channel : Channel) : Prop where
  call : ∀ c : Logger.Call,
    useViewLogger v channel c.perform d = (.error (.nullView (accessName channel)), d)
  install : ∀ new : Logger,
    installLogger v channel new d =
        (.error (.nullView (installName channel)), { d with output := new.close d.output }) ∧
      ∀ s, new.sink? ≠ some s ∨ new.pending = [] ∧ (d.output.content s).isSome →
        (new.close d.output).content s = d.output.content s

theorem refuses_null (d : Desk τ κ) (channel : Channel) : d.Refuses .null channel := by
  refine ⟨fun c => rfl, fun new => ⟨rfl, fun s hs => ?_⟩⟩
  rcases hs with hother | ⟨hpending, hsome⟩
  · exact Logger.content_close hother _
  · exact Logger.content_close_of_pending hpending hsome

end Desk

/-! ## §6 Whole runs -/

namespace Ledger

variable {σ κ : Type}

/-- **Loggers follow aliases**, over every engine and after all operations on views and loggers,
whatever happened to the output elsewhere. Through a view that is not null, a call reaches the
logger that was put in use last on its channel through any alias of the same state, or the
default one of the state; it changes no other logger, and no other sink. Through a null view it
is refused.

A sink that no logger behind a view writes to is left alone, until such a logger is put in use.
So a logger that is replaced gets nothing further. And a writer that backs one logger only has
got exactly what it took from the calls on that logger, up to its replacement or to the flush at
the end of the state. -/
theorem loggers_follow_aliases (E : Engine σ κ) (s : σ) (defaultBackend : BackendId)
    (before : List (LogOp σ κ)) :
    let L := (fresh s defaultBackend).after E before
    (∀ slot v, L.desk.views.find? slot = some v → ∀ channel,
      (v = .null → L.desk.Refuses v channel) ∧
      ∀ n, v = .alias n → ∃ state l calls, L.desk.states.lookup n = some state ∧
        Logger.InUse (.default (E.rank state.comm) channel)
          (turns E n channel (fresh s defaultBackend) before) l calls ∧
        L.desk.Routes v channel (l.afterCalls calls)) ∧
    (∀ sink : Sink, sink.IsOwn → (∀ n channel, ¬ L.desk.Backs sink n channel) →
      ∀ ops, (∀ op ∈ ops, op.Avoids sink) →
        (L.after E ops).desk.output.content sink = L.desk.output.content sink) ∧
    (∀ sink : Sink, sink.IsOwn → ∀ slot n channel state,
      L.desk.views.find? slot = some (.alias n) → L.desk.states.lookup n = some state →
      (∀ m c, L.desk.Backs sink m c → m = n ∧ c = channel) →
      ∀ l, l.sink? ≠ some sink → ∀ ops, (∀ op ∈ ops, op.Avoids sink) →
        (L.after E (.view (.installLogger slot channel l) :: ops)).desk.output.content sink =
          ((state.logger channel).close L.desk.output).content sink) ∧
    ∀ n channel state w text, L.desk.states.lookup n = some state →
      state.logger channel = .writer w →
      (∀ m c, L.desk.Backs (.capture w.capture) m c → m = n ∧ c = channel) →
      L.desk.output.content (.capture w.capture) = some (.text text) →
      ∀ ops, (∀ op ∈ ops, op.Avoids (.capture w.capture)) →
        (L.after E ops).desk.output.content (.capture w.capture) =
          some (.text (text ++ Logger.Turn.received w (turns E n channel L ops))) := by
  intro L
  have hL : L.Sound .null := (Sound.fresh s defaultBackend : (fresh s defaultBackend :
    Ledger σ κ).Sound .null).after E before
  refine ⟨fun slot v hheld channel => ⟨?_, ?_⟩, fun sink hs hnone ops havoids => ?_, ?_, ?_⟩
  · rintro rfl
    exact L.desk.refuses_null channel
  · rintro n rfl
    obtain ⟨state, hstate⟩ := Option.isSome_iff_exists.mp (hL.kept.behind slot n hheld)
    obtain ⟨l, calls, huse, hlogger⟩ := inUse_after E s defaultBackend before hstate channel
    exact ⟨state, l, calls, hstate, huse, hlogger ▸ Desk.routes_alias hstate channel⟩
  · exact hL.content_after hs hnone havoids
  · intro sink hs slot n channel state hheld hstate honly l hl ops havoids
    exact hL.content_replaced hs honly hheld hstate hl havoids
  · intro n channel state w text hstate hwriter honly htext ops havoids
    exact hL.content_writer hstate hwriter honly havoids htext

/-- The root participant of the trio opens a view and writes to a writer through it. -/
def captured : List (LogOp Fabric Comm) :=
  [.elsewhere fun o => o.openCapture.2, .view (.openView ⟨0, "first"⟩ 0 [] .world),
    .view (.installLogger ⟨0, "first"⟩ .progress (.writer ⟨0, none, none⟩)),
    .view (.write ⟨0, "first"⟩ .progress "a")]

/-- A copy writes on, and the view is exchanged with another before the writer is replaced through
it. -/
def exchanged : List (LogOp Fabric Comm) :=
  [.view (.copy ⟨0, "first"⟩ ⟨0, "copy"⟩), .call ⟨0, "copy"⟩ .progress (.write "b"),
    .view (.write ⟨0, "copy"⟩ .debug "elsewhere"),
    .view (.openView ⟨0, "other"⟩ 0 [] .world), .view (.swap ⟨0, "first"⟩ ⟨0, "other"⟩),
    .view (.write ⟨0, "first"⟩ .progress "not here"), .view (.write ⟨0, "other"⟩ .progress "c"),
    .view (.installLogger ⟨0, "other"⟩ .progress .stderr),
    .view (.write ⟨0, "copy"⟩ .progress "too late")]

/-- The writer has got what was written to it through the view and its copy, wherever they were,
and nothing else. -/
theorem loggers_follow_aliases_exchanged :
    (((fresh idleTrio 0).after Fabric.engine captured).after Fabric.engine
      exchanged).desk.output.content (.capture 0) = some (.text "abc") := by
  obtain ⟨state, hstates, hprogress, hdebug⟩ : ∃ state,
      ((fresh idleTrio 0).after Fabric.engine captured).desk.states = [(0, state)] ∧
      state.progress = .writer ⟨0, none, none⟩ ∧ state.debug = .stderr := ⟨_, rfl, rfl, rfl⟩
  have hstate : ((fresh idleTrio 0).after Fabric.engine captured).desk.states.lookup 0 =
      some state := by
    rw [hstates]
    rfl
  have honly : ∀ m c, ((fresh idleTrio 0).after Fabric.engine captured).desk.Backs (.capture 0) m
      c → m = 0 ∧ c = .progress := by
    rintro m c ⟨found, hfound, hsink⟩
    rw [hstates] at hfound
    have hmem := mem_of_lookup hfound
    obtain ⟨rfl, rfl⟩ := Prod.mk.inj (List.mem_singleton.mp hmem)
    refine ⟨rfl, ?_⟩
    cases c with
    | progress => rfl
    | debug =>
      rw [ViewState.logger, hdebug] at hsink
      cases hsink
  have havoids : ∀ op ∈ exchanged, op.Avoids (.capture 0) := by
    simp [exchanged, LogOp.Avoids, Logger.sink?]
  have hreceived : Logger.Turn.received ⟨0, none, none⟩ (turns Fabric.engine 0 .progress
      ((fresh idleTrio 0).after Fabric.engine captured) exchanged) = "bc" := by decide +kernel
  obtain ⟨-, -, -, hwriter⟩ := loggers_follow_aliases Fabric.engine idleTrio 0 captured
  have hcontent := hwriter 0 .progress state ⟨0, none, none⟩ "a" hstate hprogress honly rfl
    exchanged havoids
  have htext : "a" ++ "bc" = "abc" := by decide
  rw [hreceived, htext] at hcontent
  exact hcontent

end Ledger

end ClusterView
