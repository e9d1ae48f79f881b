import ClusterView.Engine
import ClusterView.Registry
import ClusterView.Serial

/-!
# Typed collectives

A typed collective encodes the caller's element, meets the others through the engine,
and decodes what comes back. The registry is asked first, so an element type or an
operator that is not registered never reaches the engine. Values of any other kind
travel in a format of their own, as plain bytes.

## Sections
- §1: Elements
- §2: Values in a format
-/

namespace ClusterView.Collective

variable {σ κ : Type}

/-! ## §1 Elements -/

/-- The element that a payload encodes. -/
def decode (t : ElementType) (payload : Bytes) : Except ViewError t.Value :=
  match Element.decode t payload with
  | some value => .ok value
  | none => .error (.payload t)

/-- **Gather** one element of every member onto the root, in rank order. -/
def gather (E : Engine σ κ) (comm : κ) (t : ElementType) (value : t.Value) (root : Nat) :
    StateM σ (Offer ViewError (Option (List t.Value))) :=
  match Registry.datatype t with
  | .error e => pure (.refuse e)
  | .ok datatype => do
      let offer ← E.gather comm (Element.encode t value) datatype root
      return offer.andThen fun
        | .error e => .error (.comm e)
        | .ok none => .ok none
        | .ok (some parts) => (parts.mapM (decode t)).map some

/-- **Reduce** one element of every member onto the root. -/
def reduce (E : Engine σ κ) (comm : κ) (t : ElementType) (value : t.Value) (op : ReduceOp)
    (root : Nat) : StateM σ (Offer ViewError (Option t.Value)) :=
  match Registry.operation t op with
  | .error e => pure (.refuse e)
  | .ok (operation, datatype) => do
      let offer ← E.reduce comm (Element.encode t value) datatype operation root
      return offer.andThen fun
        | .error e => .error (.comm e)
        | .ok none => .ok none
        | .ok (some result) => (decode t result).map some

/-! ## §2 Values in a format -/

/-- The value that a payload holds. -/
def read {α : Type} (format : Format α) (payload : Bytes) : Except ViewError α :=
  match format.read payload with
  | some value => .ok value
  | none => .error .serialization

/-- **Gather** one value of every member onto the root, in rank order. -/
def gatherSerialized {α : Type} (E : Engine σ κ) (comm : κ) (format : Format α) (value : α)
    (root : Nat) : StateM σ (Offer ViewError (Option (List α))) :=
  match format.write value with
  | none => pure (.refuse .serialization)
  | some payload => do
      let offer ← E.gather comm payload .byte root
      return offer.andThen fun
        | .error e => .error (.comm e)
        | .ok none => .ok none
        | .ok (some parts) => (parts.mapM (read format)).map some

end ClusterView.Collective
