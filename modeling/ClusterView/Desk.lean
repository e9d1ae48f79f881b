import ClusterView.Slots
import ClusterView.View.Query

/-!
# Desk

A desk is a process at work with views: its engine, its output, the default backend, the
states behind its views, and the variables that hold views, worlds, communicators, RAM
values and loggers.

A view is null or an alias of a state. Copying a view makes one alias more, and the
state ends when the last variable that holds an alias of it is overwritten or dropped.

## Sections
- §1: Views and desks
- §2: The end of a view
- §3: Construction
- §4: Moving views about
- §5: Loggers of a view
- §6: Loggers in slots
- §7: Collectives
- §8: Clearing up
-/

namespace ClusterView

variable {σ κ : Type}

/-! ## §1 Views and desks -/

/-- **View**: null, or an alias of a numbered state. -/
inductive View where
  | null
  | alias (state : Nat)
deriving DecidableEq, Repr

/-- **Desk**: the engine, the states behind views, and the variables of all participants. -/
structure Desk (σ κ : Type) where
  engine : σ
  output : Output
  /-- The backend for views that name none. -/
  defaultBackend : BackendId
  /-- The states behind views, by number. -/
  states : List (Nat × ViewState κ)
  nextState : Nat
  views : Slots View
  worlds : Slots (World κ)
  comms : Slots κ
  rams : Slots (Ram κ)
  loggers : Slots Logger
  captures : Slots Nat

namespace Desk

/-- A desk with nothing on it. -/
def fresh (engine : σ) (defaultBackend : BackendId) : Desk σ κ :=
  { engine, output := .empty, defaultBackend, states := [], nextState := 0, views := .empty
    worlds := .empty, comms := .empty, rams := .empty, loggers := .empty, captures := .empty }

/-- The state that a view is an alias of, with its number. -/
def aliased? (d : Desk σ κ) : View → Option (Nat × ViewState κ)
  | .null => none
  | .alias n => (d.states.lookup n).map fun state => (n, state)

/-- The state behind a view. -/
def behind (d : Desk σ κ) (v : View) : Option (ViewState κ) := (d.aliased? v).map (·.2)

/-- Put a state in the place of another. -/
def setState (d : Desk σ κ) (n : Nat) (state : ViewState κ) : Desk σ κ :=
  { d with states := d.states.map fun e => if e.1 = n then (n, state) else e }

/-- Run an action of the engine. -/
def onEngine {α : Type} (action : StateM σ α) : StateM (Desk σ κ) α := fun d =>
  let (answer, engine) := action d.engine
  (answer, { d with engine })

/-- **Number of aliases** of a state among the variables. -/
def aliases (d : Desk σ κ) (n : Nat) : Nat := d.views.values.count (.alias n)

/-! ## §2 The end of a view -/

/-- **Let go of a view** that a variable held: without any alias left, its state ends. -/
def letGo (E : Engine σ κ) (v : View) (d : Desk σ κ) : Desk σ κ :=
  match v with
  | .null => d
  | .alias n =>
      -- the view is out of its variable by now, so it does not count itself
      if d.aliases n = 0 then
        match d.states.lookup n with
        | none => d
        | some state =>
            let (engine, output) := (state.teardown E (d.engine, d.output)).2
            { d with engine, output, states := d.states.filter fun e => e.1 != n }
      else d

/-- **Put a view in a slot**; the view that was there is let go of. -/
def putView (E : Engine σ κ) (slot : Slot) (v : View) (d : Desk σ κ) : Desk σ κ :=
  let before := d.views.find? slot
  -- the new view is in its place before the old one ends, as in an assignment
  let d := { d with views := d.views.set slot v }
  match before with
  | some old => d.letGo E old
  | none => d

/-- **Drop** the view in a slot, and answer whether there was one. -/
def dropView (E : Engine σ κ) (slot : Slot) : StateM (Desk σ κ) Bool := fun d =>
  match d.views.find? slot with
  | some old => (true, { d with views := d.views.erase slot }.letGo E old)
  | none => (false, d)

/-! ## §3 Construction -/

/-- A new state, and the view that is its first alias. -/
def addState (state : ViewState κ) : StateM (Desk σ κ) View := fun d =>
  (.alias d.nextState,
    { d with states := (d.nextState, state) :: d.states, nextState := d.nextState + 1 })

/-- **Open a view** of a communicator on a backend, into a slot. -/
def openView (E : Engine σ κ) (slot : Slot) (backend : BackendId) (args : List String)
    (handle : CommHandle) : StateM (Desk σ κ) (Except ViewError View) := do
  match ← onEngine (ViewState.construct E backend args handle) with
  | .error e => return .error e
  | .ok state =>
      let v ← addState state
      modify (putView E slot v)
      return .ok v

def openDefault (E : Engine σ κ) (slot : Slot) (args : List String) (handle : CommHandle) :
    StateM (Desk σ κ) (Except ViewError View) := do
  openView E slot (← get).defaultBackend args handle

/-- **Open a view of a world**, through the world's own backend. -/
def openWorld (E : Engine σ κ) (slot : Slot) (w : World κ) :
    StateM (Desk σ κ) (Except ViewError View) :=
  openView E slot w.backend [] (E.handle w.comm)

/-- **Replace the default backend**, and answer the previous one. -/
def setDefaultBackend (backend : BackendId) : StateM (Desk σ κ) BackendId := fun d =>
  (d.defaultBackend, { d with defaultBackend := backend })

/-! ## §4 Moving views about -/

/-- **Take** the view out of a slot, which then holds a null view, and put it in another
slot. -/
def takeView (E : Engine σ κ) (source target : Slot) (v : View) (d : Desk σ κ) : Desk σ κ :=
  -- `v` is held by no variable for a moment, but is not let go of
  { d with views := d.views.set source .null }.putView E target v

/-- **Swap** the views in two slots. -/
def swapViews (a b : Slot) (v w : View) (d : Desk σ κ) : Desk σ κ :=
  -- both views stay held, so nothing ends
  { d with views := (d.views.set a w).set b v }

/-- **Are two views equal?** Two aliases of one state are. -/
def sameView (E : Engine σ κ) (d : Desk σ κ) (v w : View) : Except ViewError Bool := do
  let a ← ViewState.behind "eq" (d.behind v)
  let b ← ViewState.behind "eq" (d.behind w)
  if v = w then return true
  return a.same E b

/-- **Do two views differ?** -/
def differentView (E : Engine σ κ) (d : Desk σ κ) (v w : View) : Except ViewError Bool :=
  (d.sameView E v w).map (!·)

/-! ## §5 Loggers of a view -/

/-- The operation that gives access to a view's logger. -/
def accessName : Channel → String
  | .progress => "progress_logger"
  | .debug => "debug_logger"

/-- The operation that replaces a view's logger. -/
def installName : Channel → String
  | .progress => "set_progress_logger"
  | .debug => "set_debug_logger"

/-- **The logger of a view** on a channel. -/
def viewLogger (d : Desk σ κ) (v : View) (channel : Channel) : Except ViewError Logger :=
  (ViewState.behind (accessName channel) (d.behind v)).map fun state => state.logger channel

/-- **Use the logger of a view**, which every alias of the view shares. -/
def useViewLogger {α : Type} (v : View) (channel : Channel)
    (use : Output → Logger → α × Logger × Output) : StateM (Desk σ κ) (Except ViewError α) :=
  fun d =>
    match d.aliased? v with
    | none => (.error (.nullView (accessName channel)), d)
    | some (n, state) =>
        let (answer, l, output) := use d.output (state.logger channel)
        (.ok answer, { d with output }.setState n (state.withLogger l channel))

/-- **Install a logger** in a view. The one that was there goes out of use, and so does the
new one if the view is null. -/
def installLogger (v : View) (channel : Channel) (l : Logger) :
    StateM (Desk σ κ) (Except ViewError Unit) := fun d =>
  match d.aliased? v with
  | none => (.error (.nullView (installName channel)), { d with output := l.close d.output })
  | some (n, state) =>
      let d := { d with output := (state.logger channel).close d.output }
      (.ok (), d.setState n (state.withLogger l channel))

/-! ## §6 Loggers in slots -/

/-- **Put a logger in a slot**; the one that was there goes out of use. -/
def putLogger (slot : Slot) (l : Logger) (d : Desk σ κ) : Desk σ κ :=
  let before := d.loggers.find? slot
  let d := { d with loggers := d.loggers.set slot l }
  match before with
  | some old => { d with output := old.close d.output }
  | none => d

/-- **Drop** the logger in a slot, and answer whether there was one. -/
def dropLogger (slot : Slot) : StateM (Desk σ κ) Bool := fun d =>
  match d.loggers.find? slot with
  | some old =>
      (true, { d with loggers := d.loggers.erase slot, output := old.close d.output })
  | none => (false, d)

/-- Move the logger out of a slot. -/
def removeLogger (slot : Slot) (d : Desk σ κ) : Desk σ κ :=
  { d with loggers := d.loggers.erase slot }

def useLogger {α : Type} (slot : Slot) (l : Logger)
    (use : Output → Logger → α × Logger × Output) : StateM (Desk σ κ) α := fun d =>
  let (answer, l, output) := use d.output l
  (answer, { d with output, loggers := d.loggers.set slot l })

/-- **Open a file logger**, into a slot. -/
def openFileLogger (slot : Slot) (path : String) : StateM (Desk σ κ) (Except ViewError Logger) :=
  fun d =>
    match Logger.openFile path d.output with
    | .error e => (.error e, d)
    | .ok (l, output) => (.ok l, { d with output }.putLogger slot l)

/-- **Open a writer logger** with a capture of its own, into a slot; the capture's slot has
the same name. -/
def openWriter (slot : Slot) (writeFault flushFault : Option IoError) :
    StateM (Desk σ κ) Logger := fun d =>
  let (number, output) := d.output.openCapture
  let l := Logger.writer ⟨number, writeFault, flushFault⟩
  (l, { d with output, captures := d.captures.set slot number }.putLogger slot l)

/-! ## §7 Collectives -/

/-- **A collective on the desk** as a program: the call is made in one action. -/
def collective {ε α : Type} (call : Desk σ κ → StateM σ (Offer ε α)) :
    Program (Desk σ κ) (Except ε α) :=
  Program.collective fun d => onEngine (call d) d

/-! ## §8 Clearing up -/

/-- Let a participant's variables go: views in alphabetical order first, then the rest. -/
def clear (E : Engine σ κ) (rank : Nat) (d : Desk σ κ) : Desk σ κ :=
  let d := (d.views.names rank).foldl (fun d name => (dropView E ⟨rank, name⟩ d).2) d
  (d.loggers.names rank).foldl (fun d name => (dropLogger ⟨rank, name⟩ d).2) d

end Desk

end ClusterView
