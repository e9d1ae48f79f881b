import ClusterView.Bytes

/-!
# Rendezvous

The members of a group meet in rounds. Each member deposits one payload; when the
last one has arrived, all payloads are published in slot order, and every member
leaves with a copy. A new round does not fill before everybody has picked up the
previous one.

A meeting is the round together with where each caller stands. Callers share one
lock and one place to sleep. Whatever a caller does while it holds the lock is one
step: it deposits, publishes, picks up, or goes to sleep. Only a publication, the end
of a round, or a chance waking takes callers out of sleep, and a caller that was woken
looks at the round again before it goes on.

## Sections
- §1: Rounds
- §2: Callers and meetings
- §3: What a caller does while it holds the lock
- §4: The hall of all meetings
-/

namespace ClusterView

/-! ## §1 Rounds -/

/-- **Round**: the payloads of the members that have arrived, or the published copy
that members are still picking up. -/
structure Round where
  /-- Number of rounds that everybody has picked up. It stands for a 64-bit counter, which it is
  equal to as long as there are fewer than 2 ^ 64 rounds. -/
  generation : Nat
  /-- The payload deposited in each slot so far. -/
  slots : List (Option Bytes)
  /-- Number of payloads deposited so far. -/
  arrived : Nat
  /-- All payloads in slot order, while members are picking them up. -/
  published : Option (List Bytes)
  /-- Number of members that have not picked up yet. -/
  pending : Nat
deriving DecidableEq, Repr

namespace Round

/-- A fresh round for a number of members. -/
def fresh (parties : Nat) : Round :=
  ⟨0, List.replicate parties none, 0, none, 0⟩

def deposit (r : Round) (slot : Nat) (payload : Bytes) : Round :=
  { r with slots := r.slots.set slot (some payload), arrived := r.arrived + 1 }

/-- Publish all payloads in slot order and empty the slots. -/
def publish (r : Round) (parties : Nat) : Round :=
  { r with
    slots := r.slots.map fun _ => none
    arrived := 0
    published := some (r.slots.map fun s => s.getD [])
    pending := parties }

/-- The copy a member picks up. -/
def copy (r : Round) : List Bytes := r.published.getD []

/-- One member less has to pick up. -/
def pickUp (r : Round) : Round := { r with pending := r.pending - 1 }

/-- Close a round that everybody has picked up. -/
def close (r : Round) : Round :=
  { r with published := none, generation := r.generation + 1 }

end Round

/-! ## §2 Callers and meetings -/

inductive Stage where
  | outside
  /-- In the meeting with a payload, about to take the lock. -/
  | entering (payload : Bytes)
  /-- Asleep before the deposit, because the previous round is still being picked up. -/
  | barred (payload : Bytes)
  /-- After the deposit of this generation, about to take the lock again. -/
  | returning (generation : Nat)
  /-- Asleep after the deposit of this generation. -/
  | parked (generation : Nat)
  /-- Out of the lock with a copy of all payloads. -/
  | leaving (parts : List Bytes)
deriving DecidableEq, Repr

namespace Stage

/-- A caller asleep, woken up; any other one as it is. -/
def woken : Stage → Stage
  | .barred payload => .entering payload
  | .parked generation => .returning generation
  | stage => stage

/-- Is the caller asleep? -/
def isAsleep : Stage → Bool
  | .barred _ | .parked _ => true
  | _ => false

/-- Is the caller between its call and its return? -/
def isInside : Stage → Bool
  | .outside => false
  | _ => true

end Stage

/-- **Meeting**: a round and the stage of the caller that owns each slot. -/
structure Meeting where
  parties : Nat
  round : Round
  /-- Where the owner of each slot stands. -/
  stages : List Stage
deriving DecidableEq, Repr

namespace Meeting

/-- A meeting that nobody has come to yet. -/
def idle (parties : Nat) : Meeting :=
  ⟨parties, Round.fresh parties, List.replicate parties .outside⟩

/-- Where the owner of a slot stands. -/
def stage (m : Meeting) (slot : Nat) : Stage := m.stages.getD slot .outside

/-- Move the owner of a slot to a stage. -/
def place (m : Meeting) (slot : Nat) (s : Stage) : Meeting :=
  { m with stages := m.stages.set slot s }

/-- Wake every caller that is asleep. -/
def wakeAll (m : Meeting) : Meeting :=
  { m with stages := m.stages.map Stage.woken }

/-! ## §3 What a caller does while it holds the lock -/

/-- Leave with a copy; the last one to do so closes the round and wakes everybody. -/
def collect (m : Meeting) (slot : Nat) : Meeting :=
  -- the copy is taken before the round may be closed under it
  let parts := m.round.copy
  let round := m.round.pickUp
  if round.pending = 0 then
    ({ m with round := round.close }.wakeAll).place slot (.leaving parts)
  else
    { m with round }.place slot (.leaving parts)

/-- Deposit a payload. The last one to arrive publishes, wakes everybody and collects at
once; any other one goes to sleep. -/
def arrive (m : Meeting) (slot : Nat) (payload : Bytes) : Meeting :=
  let round := m.round.deposit slot payload
  if round.arrived = m.parties then
    -- the one who publishes keeps the lock, and is a reader of its own round
    ({ m with round := round.publish m.parties }.wakeAll).collect slot
  else
    { m with round }.place slot (.parked round.generation)

/-- **Call**: the owner of a slot comes to the meeting with a payload. -/
def call (m : Meeting) (slot : Nat) (payload : Bytes) : Meeting :=
  match m.stage slot with
  | .outside => m.place slot (.entering payload)
  | _ => m

/-- **Proceed**: the owner of a slot takes the lock and does what it can until it gives
the lock back. A caller that is outside, asleep or leaving does nothing. -/
def proceed (m : Meeting) (slot : Nat) : Meeting :=
  match m.stage slot with
  | .entering payload =>
      -- a published round is still being picked up: nobody may deposit for the next one
      if m.round.published.isSome then m.place slot (.barred payload) else m.arrive slot payload
  | .returning generation =>
      -- a copy of another generation is not for this caller
      if m.round.published.isSome && m.round.generation == generation then m.collect slot
      else m.place slot (.parked generation)
  | _ => m

/-- **Chance waking** of the owner of a slot. -/
def wake (m : Meeting) (slot : Nat) : Meeting := m.place slot (m.stage slot).woken

/-- **Return**: the copy a leaving caller takes along, and the meeting without it. -/
def depart? (m : Meeting) (slot : Nat) : Option (List Bytes × Meeting) :=
  match m.stage slot with
  | .leaving parts => some (parts, m.place slot .outside)
  | _ => none

end Meeting

/-! ## §4 The hall of all meetings -/

/-- **Meeting point**: a group is known by its cluster and its number there. -/
structure Point where
  cluster : Nat
  /-- The group's number in the cluster. -/
  group : Nat
deriving DecidableEq, Repr

/-- **Seat**: a slot at a meeting point. -/
structure Seat where
  /-- Where the meeting takes place. -/
  point : Point
  parties : Nat
  slot : Nat
deriving DecidableEq, Repr

/-- **Hall**: every meeting that somebody has come to. At any other point the meeting is
idle. -/
structure Hall where
  /-- The meetings, one for each point that has been used. -/
  meetings : List (Point × Meeting)
deriving DecidableEq, Repr

namespace Hall

/-- A hall that nobody has come to. -/
def empty : Hall := ⟨[]⟩

/-- The meeting at a seat's point. -/
def meeting (h : Hall) (seat : Seat) : Meeting :=
  -- a point that nobody has come to has no entry yet
  (h.meetings.lookup seat.point).getD (Meeting.idle seat.parties)

/-- Put a meeting at a point. -/
def put (h : Hall) (point : Point) (m : Meeting) : Hall :=
  ⟨(point, m) :: h.meetings.filter fun entry => entry.1 != point⟩

/-- **One turn at a seat**: come to the meeting if not there yet, take the lock once if
awake, and leave if a copy is at hand. -/
def turn (h : Hall) (seat : Seat) (payload : Bytes) : Option (List Bytes) × Hall :=
  let m := ((h.meeting seat).call seat.slot payload).proceed seat.slot
  match m.depart? seat.slot with
  | some (parts, m) => (some parts, h.put seat.point m)
  | none => (none, h.put seat.point m)

end Hall

end ClusterView
