import ClusterView.Site

/-!
# Demo

Every participant of a cluster opens a view of the world and takes part in a few
collectives: a sum of the ranks, a gathering of everybody's memory, and one of
everybody's label. The participant of rank zero learns the results and sums them up.

## Sections
- §1: Summaries
- §2: Errors
- §3: One participant
- §4: The whole cluster
- §5: Reports
-/

namespace ClusterView

/-! ## §1 Summaries -/

/-- **Summary** of what the root participant learned. -/
structure Summary where
  participants : Nat
  rankSum : UInt64
  /-- Memory of each participant, in rank order. -/
  memory : List UInt64
  /-- Label of each participant, in rank order. -/
  labels : List String
  /-- Number of participants with the same memory as the root. -/
  likeRoot : Nat
deriving DecidableEq, Repr

/-! ## §2 Errors -/

inductive DemoError where
  | view (error : ViewError)
  | cluster (error : CommError)
  /-- A participant did not come to an end. -/
  | participant (rank : Nat)
  | noRoot
deriving DecidableEq, Repr

namespace DemoError

def message : DemoError → String
  | .view error => "Runtime error: " ++ error.message
  | .cluster error => "Cluster error: " ++ error.message
  | .participant rank => s!"Participant {rank} panicked"
  | .noRoot => "No participant produced a summary"

/-- The wording of the error from below that this one wraps. -/
def source? : DemoError → Option String
  | .view error => some error.message
  | .cluster error => some error.message
  | _ => none

end DemoError

namespace Demo

/-! ## §3 One participant -/

/-- What a participant does with its view. -/
abbrev Task := ExceptT ViewError (Program Workplace)

/-- A question to the workplace. -/
def ask {α : Type} (question : Workplace → Except ViewError α) : Task α :=
  ExceptT.mk (Program.atomically fun d => (question d, d))

/-- A collective. -/
def meet {α : Type} (call : Workplace → StateM Fabric (Offer ViewError α)) : Task α :=
  ExceptT.mk (Desk.collective call)

/-- A line of progress. -/
def announce (v : View) (line : String) : Task Unit :=
  ExceptT.mk (Program.atomically do
    match ← Desk.useViewLogger v .progress fun o l => l.writeAll (line ++ "\n") o with
    | .error e => return .error e
    | .ok (.error cause) => return .error (.io cause)
    | .ok (.ok ()) => return .ok ())

/-- The type of ranks and amounts of memory in collectives. -/
abbrev wordType : ElementType := .scalar (.unsigned .w64)

/-- A number of 64 bits as an element. -/
def word (n : UInt64) : wordType.Value := n.toBitVec

/-- **What a participant does** with its view. -/
def explore (E : Engine Fabric Comm) (v : View) : Task (Option Summary) := do
  let me ← ask fun d => ViewState.mySet (d.behind v)
  ExceptT.lift (Program.atomically fun d =>
    ((), { d with engine := E.report (.participantReady me.rank) d.engine }))
  let size ← ask fun d => .ok (ViewState.size (d.behind v))
  let started ← ask fun d => .ok (ViewState.startedRuntime (d.behind v))
  announce v
    s!"zoneview: {size} participants, runtime started here: {Describe.truth started}"
  let rankSum ← meet fun d =>
    ViewState.reduce E (d.behind v) wordType (word (UInt64.ofNat me.rank)) .sum
  let memory ← meet fun d => ViewState.gather E (d.behind v) wordType (word me.ram.capacity)
  let labels ← meet fun d =>
    ViewState.gatherSerialized E (d.behind v) Format.text s!"rank-{me.rank}"
  let root ← ask fun d => ViewState.at? (d.behind v) 0
  let likeRoot ← ask fun d => ViewState.count (d.behind v) root.ram
  match rankSum, memory, labels with
  | some rankSum, some memory, some labels =>
      let summary : Summary :=
        { participants := size
          rankSum := ⟨rankSum⟩
          memory := memory.map fun m => ⟨m⟩
          labels
          likeRoot }
      announce v s!"zoneview: rank sum {summary.rankSum}"
      return some summary
  | _, _, _ => return none

/-- **One participant**: open a view of the world, explore it, and drop it. -/
def participant (E : Engine Fabric Comm) (rank : Nat) (backend : BackendId)
    (args : List String) : Program Workplace (Except DemoError (Option Summary)) := do
  let slot : Slot := ⟨rank, "view"⟩
  match ← Program.atomically (Desk.openView E slot backend args .world) with
  | .error e => return .error (.view e)
  | .ok v =>
      -- the view goes in any case, so an error does not leave the runtime up
      let outcome ← (explore E v).run
      let _ ← Program.atomically (Desk.dropView E slot)
      return outcome.mapError .view

/-! ## §4 The whole cluster -/

/-- The summary out of what all participants came to, in rank order: the first error, or
else the last summary. -/
def conclude : (rank : Nat) → (found : Option Summary) →
    List (Option (Except DemoError (Option Summary))) → Except DemoError Summary
  | _, some summary, [] => .ok summary
  | _, none, [] => .error .noRoot
  | rank, _, none :: _ => .error (.participant rank)
  | _, _, some (.error e) :: _ => .error e
  | rank, _, some (.ok (some summary)) :: rest => conclude (rank + 1) (some summary) rest
  | rank, found, some (.ok none) :: rest => conclude (rank + 1) found rest

/-- How many passes over a number of participants are enough. In each of the three
collectives a participant waits at most for the end of the round before, deposits, and
picks up, and every pass brings somebody a step further. -/
def patience (participants : Nat) : Nat := 9 * participants + 1

/-- **Run** the demo on a cluster of a configuration. -/
def run (site : Site) (config : Config) (args : List String) :
    Except DemoError Summary × Site :=
  match Cluster.create config with
  | .error e => (.error (.cluster e), site)
  | .ok cluster =>
      let ((_, backends), site) := site.onFabric (Fabric.addCluster cluster)
      let ((), site) := site.onFabric fun f => ((), f.report (.clusterStarting cluster.size))
      let members := backends.zipIdx.map fun (backend, rank) =>
        participant Fabric.engine rank backend args
      let (outcomes, site) := site.runCrew (patience cluster.size) members
      (conclude 0 none outcomes, site)

end Demo

/-! ## §5 Reports -/

namespace Summary

/-- **JSON value** of a summary, with its fields in order. -/
def toJson (s : Summary) : Json :=
  .object
    [ ("participants", .natural (UInt64.ofNat s.participants)),
      ("rank_sum", .natural s.rankSum),
      ("memory", .array (s.memory.map .natural)),
      ("labels", .array (s.labels.map .string)),
      ("like_root", .natural (UInt64.ofNat s.likeRoot)) ]

/-- A text filled up with blanks to a width. -/
def padded (width : Nat) (text : String) : String :=
  text ++ String.ofList (List.replicate (width - text.length) ' ')

/-- The line for one participant. -/
def line (rank : Nat) (memory : UInt64) (label : String) : String :=
  s!"  [{rank}] {padded 10 label} {memory} bytes"

/-- **Text** of a summary, line by line. -/
def lines (s : Summary) : List String :=
  [s!"participants: {s.participants}", s!"rank sum:     {s.rankSum}"] ++
    ((s.memory.zip s.labels).zipIdx.map fun (entry, rank) => line rank entry.1 entry.2) ++
    [s!"like root:    {s.likeRoot}"]

end Summary

end ClusterView
