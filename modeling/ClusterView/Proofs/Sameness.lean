import ClusterView.Proofs.Endurance
import ClusterView.Proofs.Portraits

/-!
# Equality of views

Two views are equal if the states behind them have the same identity: the handle of the
communicator, the identifier of the world, and rank and memory of every member. So equality
is an equivalence on the views that are not null, and the answer for two aliases of one state,
which is given without looking, is the one that looking would give.

An operation may move views from slot to slot, but it never changes the identity of a state
that stays. So the answer follows the views, wherever they go.

## Sections
- §1: What is compared
- §2: Comparing views on a desk
- §3: Comparing views after an operation
-/

namespace ClusterView

/-! ## §1 What is compared -/

section Identity

variable {σ κ : Type}

/-- What is compared of a resource set. -/
def ResourceSet.key (s : ResourceSet κ) : Nat × UInt64 := (s.rank, s.ram.capacity)

namespace ResourceSet

theorem same_eq (a b : ResourceSet κ) : a.same b = decide (a.key = b.key) := by
  rw [same, Ram.same_eq, Bool.eq_iff_iff]
  simp [key]

theorem allSame_eq (as bs : List (ResourceSet κ)) :
    allSame as bs = decide (as.map key = bs.map key) := by
  induction as generalizing bs with
  | nil => cases bs <;> simp [allSame]
  | cons a as ih =>
    cases bs with
    | nil => simp [allSame]
    | cons b bs => simp [allSame, same_eq, ih]

end ResourceSet

namespace ViewState

/-- **Identity** of a state: all that is compared. -/
def identity (E : Engine σ κ) (s : ViewState κ) : CommHandle × WorldId × List (Nat × UInt64) :=
  (E.handle s.comm, s.world.id, s.sets.map ResourceSet.key)

theorem same_eq (E : Engine σ κ) (a b : ViewState κ) :
    a.same E b = decide (a.identity E = b.identity E) := by
  rw [same, ResourceSet.allSame_eq, Bool.eq_iff_iff]
  simp [identity, and_assoc]

/-- Loggers are not compared, and nothing else of a state that stays ever changes. -/
theorem Relogged.identity_eq {op : ViewOp σ κ} {views : Slots View} {n : Nat}
    {state state' : ViewState κ} (h : state.Relogged op views n state') (E : Engine σ κ) :
    state'.identity E = state.identity E := by
  cases h with
  | same => rfl
  | written channel text o => cases channel <;> rfl
  | installed slot channel l hop hheld => cases channel <;> rfl

end ViewState

end Identity

/-! ## §2 Comparing views on a desk -/

namespace Desk

variable {σ κ : Type} {E : Engine σ κ} {d : Desk σ κ} {u v w : View} {a b : ViewState κ}

/-- **Field by field**: the answer for two views is the one for the states behind them, also
when it is given without looking because both are aliases of one state. -/
theorem sameView_of_behind (ha : d.behind v = some a) (hb : d.behind w = some b) :
    d.sameView E v w = .ok (a.same E b) := by
  simp only [sameView, ha, hb, ViewState.behind, bind, Except.bind, pure, Except.pure]
  split
  · rename_i hvw
    subst hvw
    cases ha.symm.trans hb
    simp [ViewState.same_eq]
  · rfl

theorem sameView_of_null (h : d.behind v = none ∨ d.behind w = none) :
    d.sameView E v w = .error (.nullView "eq") := by
  rcases h with h | h
  · simp only [sameView, h, ViewState.behind, bind, Except.bind]
  · cases hv : d.behind v <;> simp only [sameView, h, hv, ViewState.behind, bind, Except.bind]

/-- **A comparison** is that of the identities behind the views, if there are any. -/
theorem sameView_eq (E : Engine σ κ) (d : Desk σ κ) (v w : View) :
    d.sameView E v w =
      match d.behind v, d.behind w with
      | some a, some b => .ok (decide (a.identity E = b.identity E))
      | _, _ => .error (.nullView "eq") := by
  cases ha : d.behind v with
  | none => exact sameView_of_null (.inl ha)
  | some a =>
    cases hb : d.behind w with
    | none => exact sameView_of_null (.inr hb)
    | some b => rw [sameView_of_behind ha hb, ViewState.same_eq]

theorem sameView_comm (E : Engine σ κ) (d : Desk σ κ) (v w : View) :
    d.sameView E v w = d.sameView E w v := by
  rw [sameView_eq, sameView_eq]
  cases d.behind v <;> cases d.behind w <;> simp [eq_comm]

theorem sameView_eq_true_iff :
    d.sameView E v w = .ok true ↔
      ∃ a b, d.behind v = some a ∧ d.behind w = some b ∧ a.identity E = b.identity E := by
  rw [sameView_eq]
  cases d.behind v <;> cases d.behind w <;> simp

theorem sameView_trans (hvw : d.sameView E v w = .ok true) (hwu : d.sameView E w u = .ok true) :
    d.sameView E v u = .ok true := by
  obtain ⟨a, b, ha, hb, hab⟩ := sameView_eq_true_iff.mp hvw
  obtain ⟨b', c, hb', hc, hbc⟩ := sameView_eq_true_iff.mp hwu
  cases hb.symm.trans hb'
  exact sameView_eq_true_iff.mpr ⟨a, c, ha, hc, hab.trans hbc⟩

/-- A view in a slot has a state behind it unless it is null. -/
theorem Kept.behind_eq_none_iff {loose : View} (h : d.Kept loose) {slot : Slot}
    (hv : d.views.find? slot = some v) : d.behind v = none ↔ v = .null := by
  rcases v with _ | n
  · exact iff_of_true rfl rfl
  · obtain ⟨state, hstate⟩ := Option.isSome_iff_exists.mp (h.behind slot n hv)
    simp [behind_of_lookup hstate]

/-- **Refusals**: only null views are refused. -/
theorem Kept.sameView_eq_error_iff {loose : View} (h : d.Kept loose) {x y : Slot}
    (hv : d.views.find? x = some v) (hw : d.views.find? y = some w) (E : Engine σ κ)
    (e : ViewError) :
    d.sameView E v w = .error e ↔ e = .nullView "eq" ∧ (v = .null ∨ w = .null) := by
  rw [← h.behind_eq_none_iff hv, ← h.behind_eq_none_iff hw, sameView_eq]
  cases d.behind v <;> cases d.behind w <;> simp [eq_comm]

theorem Kept.sameView_self {loose : View} (h : d.Kept loose) {x : Slot}
    (hv : d.views.find? x = some v) (hnull : v ≠ .null) (E : Engine σ κ) :
    d.sameView E v v = .ok true := by
  obtain ⟨a, ha⟩ := Option.ne_none_iff_exists'.mp (mt (h.behind_eq_none_iff hv).mp hnull)
  exact sameView_eq_true_iff.mpr ⟨a, a, ha, ha, rfl⟩

end Desk

/-! ## §3 Comparing views after an operation -/

namespace Ledger

variable {σ κ : Type} {E : Engine σ κ} {L : Ledger σ κ} {op : ViewOp σ κ} {x y x' y' : Slot}
  {v : View}

/-- **Compare** what two slots hold, if they hold views. -/
def compare (E : Engine σ κ) (L : Ledger σ κ) (x y : Slot) : Option (Except ViewError Bool) := do
  let v ← L.desk.views.find? x
  let w ← L.desk.views.find? y
  return L.desk.sameView E.recorded v w

/-- **Identities stay**: a view that some slot holds before an operation and some slot holds
after it has the same identity behind it. -/
theorem Sound.identity_step (hL : L.Sound .null) (hbefore : L.desk.views.find? x' = some v)
    (hafter : (L.step E op).desk.views.find? x = some v) :
    ((L.step E op).desk.behind v).map (·.identity E.recorded) =
      (L.desk.behind v).map (·.identity E.recorded) := by
  rcases v with _ | n
  · rfl
  · have hkept' := (hL.step E op).1.kept
    obtain ⟨state', hstate'⟩ := Option.isSome_iff_exists.mp (hkept'.behind x n hafter)
    have hn := hL.kept.numbered n (hL.kept.behind x' n hbefore)
    obtain ⟨state, hstate, hrelogged⟩ := (step_endures E L op).states n hn state' hstate'
    rw [Desk.behind_of_lookup hstate', Desk.behind_of_lookup hstate, Option.map_some,
      Option.map_some]
    -- recording an engine leaves the handles of its communicators alone
    exact congrArg some (hrelogged.identity_eq E)

/-- **Step lemma**: the answer follows the views. If two slots hold after an operation what two
slots held before, the comparison comes to the same. -/
theorem Sound.compare_step (hL : L.Sound .null)
    (hx : (L.step E op).desk.views.find? x = L.desk.views.find? x')
    (hy : (L.step E op).desk.views.find? y = L.desk.views.find? y') :
    (L.step E op).compare E x y = L.compare E x' y' := by
  cases hv : L.desk.views.find? x' with
  | none => simp [compare, hx, hv]
  | some v =>
    cases hw : L.desk.views.find? y' with
    | none => simp [compare, hy, hw]
    | some w =>
      have hxv := hL.identity_step hv (hx.trans hv)
      have hyw := hL.identity_step hw (hy.trans hw)
      simp only [compare, hx, hy, hv, hw, Option.bind_eq_bind, Option.bind_some, Desk.sameView_eq]
      revert hxv hyw
      cases (L.step E op).desk.behind v <;> cases L.desk.behind v <;>
        cases (L.step E op).desk.behind w <;> cases L.desk.behind w <;>
          simp +contextual

/-- A copy is in its slot, and nothing else has moved. -/
theorem find?_copy {s t : Slot} (hs : (L.desk.views.find? s).isSome) (x : Slot) :
    (L.step E (.copy s t)).desk.views.find? x = L.desk.views.find? (if x = t then s else x) := by
  obtain ⟨v, hv⟩ := Option.isSome_iff_exists.mp hs
  simp only [step, withView, hv, Desk.putView_eq, (Desk.letGo_states ..).1, Slots.find?_set]
  split <;> simp [hv]

/-- A view that was taken is in its new slot, and the old slot holds a null view. -/
theorem find?_take {s t : Slot} (hs : (L.desk.views.find? s).isSome) (hx : x = s → s = t) :
    (L.step E (.take s t)).desk.views.find? x = L.desk.views.find? (if x = t then s else x) := by
  obtain ⟨v, hv⟩ := Option.isSome_iff_exists.mp hs
  simp only [step, withView, hv, Desk.takeView, Desk.putView_eq, (Desk.letGo_states ..).1,
    Slots.find?_set]
  by_cases ht : x = t
  · simp [ht, hv]
  · have hxs : x ≠ s := fun h => ht (h.trans (hx h))
    simp [ht, hxs]

/-- Two views that were swapped are in each other's slot. -/
theorem find?_swap {s t : Slot} (hs : (L.desk.views.find? s).isSome)
    (ht : (L.desk.views.find? t).isSome) (x : Slot) :
    (L.step E (.swap s t)).desk.views.find? x = L.desk.views.find? (Equiv.swap s t x) := by
  obtain ⟨v, hv⟩ := Option.isSome_iff_exists.mp hs
  obtain ⟨w, hw⟩ := Option.isSome_iff_exists.mp ht
  simp only [step, withView, hv, hw, Desk.swapViews, Slots.find?_set, Equiv.swap_apply_def]
  by_cases hxs : x = s
  · subst hxs
    by_cases hst : x = t
    · subst hst
      cases hv.symm.trans hw
      simp [hv]
    · simp [hst, hw]
  · by_cases hxt : x = t
    · subst hxt
      simp [hxs, hv]
    · simp [hxs, hxt]

end Ledger

end ClusterView
