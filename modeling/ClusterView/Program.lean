import ClusterView.Rendezvous

/-!
# Programs and crews

A participant's program is a sequence of actions on a shared state and of exchanges at
meeting points. An action is atomic. An exchange blocks until every member of its
group has made one, and the program goes on with everybody's payloads.

A crew is a number of programs that run side by side over one state and one hall. The
schedule implemented here lets each program run until it ends or falls asleep, one
program after the other, and passes over the crew again until all have ended.

## Sections
- §1: Programs
- §2: Steps of one program
- §3: Crews
-/

namespace ClusterView

/-! ## §1 Programs -/

/-- **Program** over a shared state `σ` with a result in `α`. -/
inductive Program (σ α : Type) where
  | done (result : α)
  /-- Change the state, and go on with what the state was before the change. -/
  | act (change : σ → σ) (rest : σ → Program σ α)
  /-- Deposit a payload at a seat, and go on with the payloads of the round. -/
  | exchange (seat : Seat) (payload : Bytes) (rest : List Bytes → Program σ α)

namespace Program

variable {σ α β : Type}

/-- Run a second program on the result of the first. -/
def bind : Program σ α → (α → Program σ β) → Program σ β
  | .done result, f => f result
  | .act change rest, f => .act change fun s => (rest s).bind f
  | .exchange seat payload rest, f => .exchange seat payload fun parts => (rest parts).bind f

instance : Monad (Program σ) where
  pure := .done
  bind := Program.bind

/-- **Atomic action** with a result. -/
def atomically (action : StateM σ α) : Program σ α :=
  .act (fun s => (action s).2) fun s => .done (action s).1

/-- The result of a program that has ended. -/
def result? : Program σ α → Option α
  | .done result => some result
  | _ => none

/-! ## §2 Steps of one program -/

/-- **One step**: an action, or one turn at the seat of an exchange. A program that has
ended or whose caller is asleep has no step. -/
def step? (s : σ) (hall : Hall) : Program σ α → Option (Program σ α × σ × Hall)
  | .done _ => none
  | .act change rest => some (rest s, change s, hall)
  | .exchange seat payload rest =>
      -- only others can wake a caller that is asleep
      if ((hall.meeting seat).stage seat.slot).isAsleep then none
      else
        match hall.turn seat payload with
        | (some parts, hall) => some (rest parts, s, hall)
        | (none, hall) => some (.exchange seat payload rest, s, hall)

/-- **Drive** a program: take steps until it ends or its caller falls asleep. -/
def drive (s : σ) (hall : Hall) : Program σ α → Program σ α × σ × Hall
  | .done result => (.done result, s, hall)
  | .act change rest => drive (change s) hall (rest s)
  | .exchange seat payload rest =>
      if ((hall.meeting seat).stage seat.slot).isAsleep then
        (.exchange seat payload rest, s, hall)
      else
        match hall.turn seat payload with
        | (some parts, hall) => drive s hall (rest parts)
        | (none, hall) => (.exchange seat payload rest, s, hall)

end Program

/-! ## §3 Crews -/

/-- **Crew**: programs side by side over one state and one hall. -/
structure Crew (σ α : Type) where
  shared : σ
  /-- The meetings they exchange payloads at. -/
  hall : Hall
  /-- What is left of each program. -/
  members : List (Program σ α)

namespace Crew

variable {σ α : Type}

/-- **One step of one member**, where it has one. This is the interleaving semantics: a
schedule is any sequence of such steps. -/
def step? (c : Crew σ α) (member : Nat) : Option (Crew σ α) := do
  let program ← c.members[member]?
  let (program, shared, hall) ← program.step? c.shared c.hall
  return ⟨shared, hall, c.members.set member program⟩

/-- Drive the members of a list one after the other. -/
def driveAll (s : σ) (hall : Hall) : List (Program σ α) → List (Program σ α) × σ × Hall
  | [] => ([], s, hall)
  | program :: rest =>
      let (program, s, hall) := program.drive s hall
      let (rest, s, hall) := driveAll s hall rest
      (program :: rest, s, hall)

/-- **Pass**: drive every member once. -/
def pass (c : Crew σ α) : Crew σ α :=
  let (members, shared, hall) := driveAll c.shared c.hall c.members
  ⟨shared, hall, members⟩

/-- Have all members ended? -/
def hasEnded (c : Crew σ α) : Bool :=
  c.members.all fun program => program.result?.isSome

/-- **Run**: pass over the crew until all members have ended, at most `patience` times. -/
def run : (patience : Nat) → Crew σ α → Crew σ α
  | 0, c => c
  | patience + 1, c => if c.hasEnded then c else run patience c.pass

/-- The result of each member that has ended. -/
def results (c : Crew σ α) : List (Option α) :=
  c.members.map Program.result?

end Crew

end ClusterView
