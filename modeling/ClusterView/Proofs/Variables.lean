import ClusterView.Desk
import ClusterView.Proofs.Keys

/-!
# Variables and the states behind them

A slot holds one value at a time, and a view in a slot keeps the state behind it. This
module follows views from slot to slot: every view leads to a state, every state is held by
some view, and letting go of the last one is what ends a state (`Desk.Kept`).

## Sections
- §1: Slots
- §2: Views and their states
- §3: What keeps views and states together
-/

namespace ClusterView

/-! ## §1 Slots -/

namespace Slots

variable {α : Type}

/-- No slot is listed twice. -/
def Distinct (s : Slots α) : Prop := (s.entries.map (·.1)).Nodup

theorem find?_set (s : Slots α) (slot : Slot) (value : α) (other : Slot) :
    (s.set slot value).find? other = if other = slot then some value else s.find? other := by
  by_cases h : other = slot
  · subst h
    simp [find?, set]
  · have hfalse : (other == slot) = false := by simpa using h
    simp only [find?, set, erase, List.lookup_cons, hfalse, lookup_filter_ne h, if_neg h]

theorem find?_erase (s : Slots α) (slot other : Slot) :
    (s.erase slot).find? other = if other = slot then none else s.find? other := by
  by_cases h : other = slot
  · subst h
    rw [if_pos rfl]
    exact lookup_filter_self _ _
  · rw [if_neg h]
    exact lookup_filter_ne h _

theorem Distinct.empty : (empty : Slots α).Distinct := List.nodup_nil

theorem Distinct.erase {s : Slots α} (h : s.Distinct) (slot : Slot) : (s.erase slot).Distinct :=
  List.Nodup.sublist (List.Sublist.map _ List.filter_sublist) h

theorem Distinct.set {s : Slots α} (h : s.Distinct) (slot : Slot) (value : α) :
    (s.set slot value).Distinct := by
  refine List.nodup_cons.mpr ⟨fun hmem => ?_, h.erase slot⟩
  obtain ⟨entry, hentry, hslot⟩ := List.mem_map.mp hmem
  have hne := (List.mem_filter.mp hentry).2
  simp only [hslot, bne_self_eq_false] at hne
  cases hne

/-- A value is among the variables if it is in some slot. -/
theorem Distinct.mem_values_iff {s : Slots α} (h : s.Distinct) {value : α} :
    value ∈ s.values ↔ ∃ slot, s.find? slot = some value := by
  constructor
  · intro hmem
    obtain ⟨⟨slot, _⟩, hentry, rfl⟩ := List.mem_map.mp hmem
    exact ⟨slot, lookup_of_mem h hentry⟩
  · rintro ⟨slot, hfind⟩
    exact List.mem_map.mpr ⟨(slot, value), mem_of_lookup hfind, rfl⟩

end Slots

/-! ## §2 Views and their states -/

namespace Desk

variable {σ κ : Type}

/-- **Kept views and states**: every view in a slot leads to a state, and every state is held
by a view in some slot, or by a loose view that is in none. -/
structure Kept (d : Desk σ κ) (loose : View) : Prop where
  slots : d.views.Distinct
  numbers : (d.states.map (·.1)).Nodup
  numbered : ∀ n, (d.states.lookup n).isSome → n < d.nextState
  behind : ∀ slot n, d.views.find? slot = some (.alias n) → (d.states.lookup n).isSome
  held : ∀ n, (d.states.lookup n).isSome →
    (∃ slot, d.views.find? slot = some (.alias n)) ∨ loose = .alias n

section Views

variable {d : Desk σ κ} {loose v : View} {n : Nat} {state old : ViewState κ}

theorem aliases_eq_zero_iff (h : d.views.Distinct) :
    d.aliases n = 0 ↔ ∀ slot, d.views.find? slot ≠ some (.alias n) := by
  rw [aliases, List.count_eq_zero, h.mem_values_iff, not_exists]

/-- A state has ended if and only if no view is an alias of it. -/
theorem Kept.aliases_eq_zero_iff (h : d.Kept .null) :
    d.aliases n = 0 ↔ d.states.lookup n = none := by
  rw [Desk.aliases_eq_zero_iff h.slots]
  constructor
  · intro hnone
    cases hlookup : d.states.lookup n with
    | none => rfl
    | some state =>
      rcases h.held n (by rw [hlookup]; rfl) with ⟨slot, hslot⟩ | hloose
      · exact absurd hslot (hnone slot)
      · cases hloose
  · intro hlookup slot hslot
    have hsome := h.behind slot n hslot
    rw [hlookup] at hsome
    cases hsome

/-- A loose view that is also in a slot is not needed. -/
theorem Kept.tight (h : d.Kept loose) (hheld : ∃ slot, d.views.find? slot = some loose) :
    d.Kept .null := by
  refine { h with held := fun n hn => ?_ }
  rcases h.held n hn with hslot | rfl
  · exact Or.inl hslot
  · exact Or.inl hheld

theorem letGo_of_held (E : Engine σ κ) (h : d.aliases n ≠ 0) : d.letGo E (.alias n) = d := by
  rw [letGo]
  exact if_neg h

theorem letGo_of_lookup_none (E : Engine σ κ) (h : d.states.lookup n = none) :
    d.letGo E (.alias n) = d := by
  simp only [letGo, h]
  split <;> rfl

/-- Letting go of the last alias tears the state down. -/
theorem letGo_last (E : Engine σ κ) (h : d.aliases n = 0) {state : ViewState κ}
    (hstate : d.states.lookup n = some state) :
    d.letGo E (.alias n) =
      { d with
        engine := (state.teardown E (d.engine, d.output)).2.1
        output := (state.teardown E (d.engine, d.output)).2.2
        states := d.states.filter fun e => e.1 != n } := by
  simp only [letGo, if_pos h, hstate]

/-- **Letting go** changes nothing, or a state has lost its last alias and is torn down. -/
theorem letGo_eq (E : Engine σ κ) (d : Desk σ κ) (loose : View) :
    d.letGo E loose = d ∨
      ∃ n state, loose = .alias n ∧ d.aliases n = 0 ∧ d.states.lookup n = some state ∧
        d.letGo E loose =
          { d with
            engine := (state.teardown E (d.engine, d.output)).2.1
            output := (state.teardown E (d.engine, d.output)).2.2
            states := d.states.filter fun e => e.1 != n } := by
  rcases loose with _ | n
  · exact Or.inl rfl
  · by_cases hzero : d.aliases n = 0
    · cases hstate : d.states.lookup n with
      | none => exact Or.inl (letGo_of_lookup_none E hstate)
      | some state => exact Or.inr ⟨n, state, rfl, hzero, hstate, letGo_last E hzero hstate⟩
    · exact Or.inl (letGo_of_held E hzero)

/-! ## §3 What keeps views and states together -/

theorem Kept.fresh (engine : σ) (backend : BackendId) :
    (Desk.fresh engine backend : Desk σ κ).Kept .null := by
  constructor
  case slots => exact Slots.Distinct.empty
  case numbers => exact List.nodup_nil
  case numbered =>
    intro n hn
    cases hn
  case behind =>
    intro slot n hslot
    cases hslot
  case held =>
    intro n hn
    cases hn

/-- A view in place of another leaves the other one loose. -/
theorem Kept.set (h : d.Kept loose) (slot : Slot)
    (hv : ∀ n, v = .alias n → (d.states.lookup n).isSome) (hloose : loose = .null ∨ loose = v) :
    ({ d with views := d.views.set slot v } : Desk σ κ).Kept
      ((d.views.find? slot).getD .null) := by
  constructor
  case slots => exact h.slots.set slot v
  case numbers => exact h.numbers
  case numbered => exact h.numbered
  case behind =>
    intro other n hother
    have hfind := d.views.find?_set slot v other
    rw [hother] at hfind
    split at hfind
    · exact hv n (Option.some.inj hfind).symm
    · exact h.behind other n hfind.symm
  case held =>
    intro n hn
    -- a state held in the slot alone is held by what comes loose
    rcases h.held n hn with ⟨other, hother⟩ | hn
    · by_cases hslot : other = slot
      · subst hslot
        exact Or.inr (by rw [hother]; rfl)
      · refine Or.inl ⟨other, ?_⟩
        show (d.views.set slot v).find? other = _
        rw [Slots.find?_set, if_neg hslot, hother]
    · rcases hloose with hnull | hsame
      · rw [hnull] at hn
        cases hn
      · refine Or.inl ⟨slot, ?_⟩
        show (d.views.set slot v).find? slot = _
        rw [Slots.find?_set, if_pos rfl, ← hsame, hn]

theorem Kept.erase (h : d.Kept .null) (slot : Slot) :
    ({ d with views := d.views.erase slot } : Desk σ κ).Kept
      ((d.views.find? slot).getD .null) := by
  constructor
  case slots => exact h.slots.erase slot
  case numbers => exact h.numbers
  case numbered => exact h.numbered
  case behind =>
    intro other n hother
    have hfind := d.views.find?_erase slot other
    rw [hother] at hfind
    split at hfind
    · cases hfind
    · exact h.behind other n hfind.symm
  case held =>
    intro n hn
    rcases h.held n hn with ⟨other, hother⟩ | hn
    · by_cases hslot : other = slot
      · subst hslot
        exact Or.inr (by rw [hother]; rfl)
      · refine Or.inl ⟨other, ?_⟩
        show (d.views.erase slot).find? other = _
        rw [Slots.find?_erase, if_neg hslot, hother]
    · cases hn

theorem lookup_addState (d : Desk σ κ) (state : ViewState κ) (n : Nat) :
    (Desk.addState state d).2.states.lookup n =
      if n = d.nextState then some state else d.states.lookup n := by
  show ((d.nextState, state) :: d.states).lookup n = _
  by_cases hn : n = d.nextState
  · rw [if_pos hn, hn, List.lookup_cons_self]
  · have hfalse : (n == d.nextState) = false := by simpa using hn
    rw [if_neg hn, List.lookup_cons, hfalse]

/-- A new state is held by a loose view at first. -/
theorem Kept.addState (h : d.Kept .null) (state : ViewState κ) :
    (Desk.addState state d).2.Kept (.alias d.nextState) := by
  constructor
  case slots => exact h.slots
  case numbers =>
    refine List.nodup_cons.mpr ⟨fun hmem => ?_, h.numbers⟩
    -- numbers are not given twice
    obtain ⟨⟨n, old⟩, hentry, hn⟩ := List.mem_map.mp hmem
    have hn : n = d.nextState := hn
    have hlt := h.numbered n (by rw [lookup_of_mem h.numbers hentry]; rfl)
    exact absurd hn (Nat.ne_of_lt hlt)
  case numbered =>
    intro n hn
    show n < d.nextState + 1
    rw [lookup_addState] at hn
    split at hn
    · omega
    · exact Nat.lt_succ_of_lt (h.numbered n hn)
  case behind =>
    intro slot n hslot
    rw [lookup_addState]
    split
    · rfl
    · exact h.behind slot n hslot
  case held =>
    intro n hn
    rw [lookup_addState] at hn
    split at hn
    · rename_i heq
      exact Or.inr (by rw [heq])
    · exact Or.inl ((h.held n hn).resolve_right (by simp))

/-- What a slot holds after another view was put there first. -/
theorem putView_eq (E : Engine σ κ) (slot : Slot) (v : View) (d : Desk σ κ) :
    d.putView E slot v =
      ({ d with views := d.views.set slot v } : Desk σ κ).letGo E
        ((d.views.find? slot).getD .null) := by
  unfold putView
  cases d.views.find? slot <;> rfl

section Opening

variable {E : Engine σ κ} {slot : Slot} {backend : BackendId} {args : List String}
  {handle : CommHandle} {engine : σ}

theorem openView_error {e : ViewError}
    (h : ViewState.construct E backend args handle d.engine = (.error e, engine)) :
    openView E slot backend args handle d = (.error e, { d with engine }) := by
  simp only [openView, onEngine, bind, StateT.bind, h]
  rfl

/-- A new view is an alias of a new state, in place of what the slot held. -/
theorem openView_ok
    (h : ViewState.construct E backend args handle d.engine = (.ok state, engine)) :
    openView E slot backend args handle d =
      (.ok (.alias d.nextState),
        ({ (addState state { d with engine }).2 with
          views := d.views.set slot (.alias d.nextState) } : Desk σ κ).letGo E
            ((d.views.find? slot).getD .null)) := by
  simp only [openView, onEngine, bind, StateT.bind, h]
  exact congrArg (Prod.mk _) (putView_eq E slot _ _)

end Opening

theorem aliased?_eq_some (h : d.aliased? v = some (n, state)) :
    v = .alias n ∧ d.states.lookup n = some state := by
  rcases v with _ | m
  · cases h
  · obtain ⟨state', hstate, hpair⟩ := Option.map_eq_some_iff.mp h
    obtain ⟨rfl, rfl⟩ := Prod.mk.inj hpair
    exact ⟨rfl, hstate⟩

theorem behind_of_lookup (h : d.states.lookup n = some state) :
    d.behind (.alias n) = some state := by
  simp [behind, aliased?, h]

theorem viewLogger_of_behind (h : d.behind v = some state) (channel : Channel) :
    d.viewLogger v channel = .ok (state.logger channel) := by
  rw [viewLogger, h]
  rfl

theorem lookup_setState (hold : d.states.lookup n = some old) (state : ViewState κ) (m : Nat) :
    (d.setState n state).states.lookup m =
      if m = n then some state else d.states.lookup m := by
  by_cases hm : m = n
  · rw [if_pos hm, hm]
    exact lookup_replace_self (by rw [hold]; rfl) state
  · rw [if_neg hm]
    exact lookup_replace_ne hm state d.states

/-- Another description of a state does not change who holds it. -/
theorem Kept.setState (h : d.Kept .null) (hold : d.states.lookup n = some old)
    (state : ViewState κ) : (d.setState n state).Kept .null := by
  have hsome : ∀ m, ((d.setState n state).states.lookup m).isSome =
      (d.states.lookup m).isSome := by
    intro m
    rw [lookup_setState hold]
    split
    · rename_i hm
      rw [hm, hold]
      rfl
    · rfl
  constructor
  case slots => exact h.slots
  case numbers =>
    have hkeys : (d.setState n state).states.map (·.1) = d.states.map (·.1) := by
      simp only [Desk.setState, List.map_map]
      apply List.map_congr_left
      intro entry _
      by_cases hentry : entry.1 = n
      · simp [hentry]
      · simp [hentry]
    rw [hkeys]
    exact h.numbers
  case numbered =>
    intro m hm
    rw [hsome] at hm
    exact h.numbered m hm
  case behind =>
    intro slot m hslot
    rw [hsome]
    exact h.behind slot m hslot
  case held =>
    intro m hm
    rw [hsome] at hm
    exact h.held m hm

/-- Letting go of the loose view keeps the rest. -/
theorem Kept.letGo (h : d.Kept loose) (E : Engine σ κ) : (d.letGo E loose).Kept .null := by
  rcases loose with _ | n
  · exact h
  · by_cases hzero : d.aliases n = 0
    · cases hstate : d.states.lookup n with
      | none =>
        -- there is no state that the loose view could hold
        rw [letGo_of_lookup_none E hstate]
        refine { h with held := fun m hm => ?_ }
        rcases h.held m hm with hslot | hm'
        · exact Or.inl hslot
        · injection hm' with hm'
          rw [← hm', hstate] at hm
          cases hm
      | some state =>
        -- the state goes with its last view, and no other view led to it
        rw [letGo_last E hzero hstate]
        have hnone := (Desk.aliases_eq_zero_iff h.slots).mp hzero
        constructor
        case slots => exact h.slots
        case numbers =>
          exact List.Nodup.sublist (List.Sublist.map _ List.filter_sublist) h.numbers
        case numbered =>
          intro m hm
          by_cases hmn : m = n
          · subst hmn
            rw [lookup_filter_self] at hm
            cases hm
          · rw [lookup_filter_ne hmn] at hm
            exact h.numbered m hm
        case behind =>
          intro slot m hslot
          have hmn : m ≠ n := by
            rintro rfl
            exact hnone slot hslot
          show ((d.states.filter fun e => e.1 != n).lookup m).isSome
          rw [lookup_filter_ne hmn]
          exact h.behind slot m hslot
        case held =>
          intro m hm
          have hm : ((d.states.filter fun e => e.1 != n).lookup m).isSome := hm
          by_cases hmn : m = n
          · subst hmn
            rw [lookup_filter_self] at hm
            cases hm
          · rw [lookup_filter_ne hmn] at hm
            rcases h.held m hm with hslot | hm'
            · exact Or.inl hslot
            · injection hm' with hm'
              exact absurd hm'.symm hmn
    · -- another slot holds the same view
      rw [letGo_of_held E hzero]
      rw [Desk.aliases_eq_zero_iff h.slots] at hzero
      apply h.tight
      simpa using hzero

end Views

end Desk

end ClusterView
