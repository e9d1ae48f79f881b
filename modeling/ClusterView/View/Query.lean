import ClusterView.View.State

/-!
# Questions to a view

A view answers from the state behind it. A null view has none; it has size zero and the
null communicator, and every question that needs a runtime is refused in the name of the
operation.

## Sections
- §1: What every view answers
- §2: What needs a runtime
- §3: Equality
- §4: Collectives
-/

namespace ClusterView.ViewState

variable {σ κ : Type}

/-! ## §1 What every view answers -/

/-- **Handle** of the communicator that the view spans. -/
def handle (E : Engine σ κ) : Option (ViewState κ) → CommHandle
  | some s => E.handle s.comm
  | none => .null

/-- **Every resource set**, in rank order. -/
def allSets : Option (ViewState κ) → List (ResourceSet κ)
  | some s => s.sets
  | none => []

/-- **Size**: the number of resource sets. -/
def size (s : Option (ViewState κ)) : Nat := (allSets s).length

/-- Did the view bring the runtime up? -/
def startedRuntime : Option (ViewState κ) → Bool
  | some s => s.started
  | none => false

def describe (E : Engine σ κ) : Option (ViewState κ) → String
  | none => Describe.wrapped "RuntimeView" "null"
  | some s =>
      Describe.record "RuntimeView"
        [ ("comm", (E.handle s.comm).describe), ("world", s.world.id.describe),
          ("size", s.sets.length.repr), ("started_runtime", Describe.truth s.started) ]

/-! ## §2 What needs a runtime -/

/-- The state behind a view, in the name of an operation. -/
def behind (operation : String) : Option (ViewState κ) → Except ViewError (ViewState κ)
  | some s => .ok s
  | none => .error (.nullView operation)

/-- **The communicator** that the view spans. -/
def communicator (s : Option (ViewState κ)) : Except ViewError κ :=
  (behind "communicator" s).map (·.comm)

/-- **The running instance** that the view was made from. -/
def worldOf (s : Option (ViewState κ)) : Except ViewError (World κ) :=
  (behind "world" s).map (·.world)

/-- **The resource set** of a rank. -/
def at? (s : Option (ViewState κ)) (index : Nat) : Except ViewError (ResourceSet κ) := do
  let s ← behind "at" s
  match s.sets[index]? with
  | some set => return set
  | none => throw (.outOfRange index s.sets.length)

/-- **Is the calling process one of the members?** -/
def hasMe (s : Option (ViewState κ)) : Except ViewError Bool :=
  (behind "has_me" s).map fun s => s.sets.any (·.isMine)

def mySet (s : Option (ViewState κ)) : Except ViewError (ResourceSet κ) := do
  let s ← behind "my_resource_set" s
  match s.sets.find? (·.isMine) with
  | some set => return set
  | none => throw .notAMember

/-- **The resource sets with the same memory** as a RAM value, in rank order. -/
def equalRange (s : Option (ViewState κ)) (ram : Ram κ) :
    Except ViewError (List (ResourceSet κ)) :=
  (behind "equal_range" s).map fun s => s.sets.filter fun set => set.ram.same ram

/-- **How many resource sets** have the same memory as a RAM value. -/
def count (s : Option (ViewState κ)) (ram : Ram κ) : Except ViewError Nat :=
  (equalRange s ram).map List.length

/-- Diagnostic form of a range of resource sets. -/
def describeRange (sets : List (ResourceSet κ)) : String :=
  Describe.record "ResourceRange" [("sets", Describe.sequence (sets.map ResourceSet.describe))]

/-! ## §3 Equality -/

/-- **Same description**: the same communicator of the same running instance, with the
same resource sets. -/
def same (E : Engine σ κ) (a b : ViewState κ) : Bool :=
  -- the world tells two lives of one runtime apart, in which handles are the same
  E.handle a.comm == E.handle b.comm && a.world.id == b.world.id &&
    ResourceSet.allSame a.sets b.sets

/-! ## §4 Collectives -/

/-- The rank that a view's collectives are rooted at. -/
def root : Nat := 0

/-- **Gather** one element of every member onto rank zero. -/
def gather (E : Engine σ κ) (s : Option (ViewState κ)) (t : ElementType) (value : t.Value) :
    StateM σ (Offer ViewError (Option (List t.Value))) :=
  match behind "gather" s with
  | .error e => pure (.refuse e)
  | .ok s => Collective.gather E s.comm t value root

/-- **Gather** one value of every member onto rank zero, in a format. -/
def gatherSerialized {α : Type} (E : Engine σ κ) (s : Option (ViewState κ)) (format : Format α)
    (value : α) : StateM σ (Offer ViewError (Option (List α))) :=
  match behind "gather_serialized" s with
  | .error e => pure (.refuse e)
  | .ok s => Collective.gatherSerialized E s.comm format value root

/-- **Reduce** one element of every member onto rank zero. -/
def reduce (E : Engine σ κ) (s : Option (ViewState κ)) (t : ElementType) (value : t.Value)
    (op : ReduceOp) : StateM σ (Offer ViewError (Option t.Value)) :=
  match behind "reduce" s with
  | .error e => pure (.refuse e)
  | .ok s => Collective.reduce E s.comm t value op root

end ClusterView.ViewState
