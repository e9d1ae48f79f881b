import ClusterView.Desk
import ClusterView.Fabric

/-!
# Sites

A site is a desk over the fabric, together with the hall in which its participants
meet. It starts out with one backend for views that name none: the only participant of a
cluster with the default configuration.

## Sections
- §1: Sites
- §2: Running programs
-/

namespace ClusterView

/-! ## §1 Sites -/

/-- **Workplace**: a desk over the fabric. -/
abbrev Workplace := Desk Fabric Comm

/-- **Site**: a workplace and the meetings at which its participants exchange
payloads. -/
structure Site where
  workplace : Workplace
  hall : Hall

namespace Site

/-- **A fresh site** that draws world identifiers from a supply. -/
def fresh (supply : Nat → WorldId) : Site :=
  let ((_, backends), fabric) := Fabric.addCluster .single (Fabric.empty supply)
  -- the cluster has one participant, so there is a first backend
  ⟨Desk.fresh fabric (backends.headD 0), .empty⟩

/-- Run an action of the fabric. -/
def onFabric {α : Type} (action : StateM Fabric α) (s : Site) : α × Site :=
  let (answer, workplace) := Desk.onEngine action s.workplace
  (answer, { s with workplace })

/-! ## §2 Running programs -/

/-- **Run programs side by side**, with a bound on the number of passes over them. -/
def runCrew {α : Type} (s : Site) (patience : Nat) (members : List (Program Workplace α)) :
    List (Option α) × Site :=
  let crew := Crew.run patience ⟨s.workplace, s.hall, members⟩
  (crew.results, ⟨crew.shared, crew.hall⟩)

/-- **Run one program** to its end, or until it waits for somebody else. -/
def runProgram {α : Type} (s : Site) (program : Program Workplace α) : Option α × Site :=
  let (program, workplace, hall) := program.drive s.workplace s.hall
  (program.result?, ⟨workplace, hall⟩)

end Site

end ClusterView
