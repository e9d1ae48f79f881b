import Mathlib.Data.List.Nodup

/-!
# Lists with keys

Meetings, states and variables are found by a key in a list of pairs. The entry of a key is
replaced by filtering the key out and putting a new entry in front.
-/

namespace ClusterView

section Keys

variable {κ β : Type} [BEq κ] [LawfulBEq κ]

theorem lookup_filter_ne {key other : κ} (hne : other ≠ key) (entries : List (κ × β)) :
    (entries.filter fun entry => entry.1 != key).lookup other = entries.lookup other := by
  induction entries with
  | nil => rfl
  | cons entry rest ih =>
    obtain ⟨k, v⟩ := entry
    by_cases hk : k = key
    · subst hk
      have hfalse : (other == k) = false := by simpa using hne
      simp [List.lookup_cons, hfalse, ih]
    · by_cases ho : other = k <;> simp [List.lookup_cons, hk, ho, ih]

theorem lookup_filter_self (key : κ) (entries : List (κ × β)) :
    (entries.filter fun entry => entry.1 != key).lookup key = none := by
  apply List.lookup_eq_none_iff.mpr
  intro entry hentry
  have hne := (List.mem_filter.mp hentry).2
  rw [bne_iff_ne] at hne
  simpa using Ne.symm hne

/-- With distinct keys, every entry is found by its key. -/
theorem lookup_of_mem {key : κ} {value : β} {entries : List (κ × β)}
    (hdistinct : (entries.map (·.1)).Nodup) (hmem : (key, value) ∈ entries) :
    entries.lookup key = some value := by
  induction entries with
  | nil => cases hmem
  | cons entry rest ih =>
    obtain ⟨hhead, hrest⟩ := List.nodup_cons.mp hdistinct
    rcases List.mem_cons.mp hmem with rfl | htail
    · exact List.lookup_cons_self
    · have hne : key ≠ entry.1 := by
        rintro rfl
        exact hhead (List.mem_map.mpr ⟨_, htail, rfl⟩)
      have hfalse : (key == entry.1) = false := by simpa using hne
      rw [List.lookup_cons, hfalse]
      exact ih hrest htail

theorem mem_of_lookup {key : κ} {value : β} {entries : List (κ × β)}
    (h : entries.lookup key = some value) : (key, value) ∈ entries := by
  obtain ⟨before, after, rfl, -⟩ := List.lookup_eq_some_iff.mp h
  exact List.mem_append_right _ (List.mem_cons_self ..)

section Replacement

variable [DecidableEq κ]

theorem lookup_replace_ne {key other : κ} (hne : other ≠ key) (value : β)
    (entries : List (κ × β)) :
    (entries.map fun entry => if entry.1 = key then (key, value) else entry).lookup other =
      entries.lookup other := by
  have hfalse : (other == key) = false := by simpa using hne
  induction entries with
  | nil => rfl
  | cons entry rest ih =>
    by_cases hk : entry.1 = key
    · rw [List.map_cons, if_pos hk, List.lookup_cons, List.lookup_cons, hk, hfalse]
      exact ih
    · rw [List.map_cons, if_neg hk, List.lookup_cons, List.lookup_cons, ih]

theorem lookup_replace_self {key : κ} {entries : List (κ × β)}
    (hsome : (entries.lookup key).isSome) (value : β) :
    (entries.map fun entry => if entry.1 = key then (key, value) else entry).lookup key =
      some value := by
  induction entries with
  | nil => cases hsome
  | cons entry rest ih =>
    by_cases hk : entry.1 = key
    · rw [List.map_cons, if_pos hk, List.lookup_cons_self]
    · have hfalse : (key == entry.1) = false := by simpa using Ne.symm hk
      rw [List.lookup_cons, hfalse] at hsome
      rw [List.map_cons, if_neg hk, List.lookup_cons, hfalse]
      exact ih hsome

end Replacement

end Keys

/-- In a list where the numbers of the elements differ, a number picks out one element. -/
theorem filter_eq_singleton {α : Type} {f : α → Option Nat} {l : List α}
    (hdistinct : (l.filterMap f).Nodup) {a : α} (hmem : a ∈ l) {n : Nat} (hn : f a = some n) :
    (l.filter fun b => f b = some n) = [a] := by
  induction l with
  | nil => cases hmem
  | cons b rest ih =>
    have hnone : n ∈ rest.filterMap f → f b ≠ some n := by
      intro hin hb
      rw [List.filterMap_cons_some hb] at hdistinct
      exact (List.nodup_cons.mp hdistinct).1 hin
    have hrest : (rest.filterMap f).Nodup := by
      cases hb : f b with
      | none => rwa [List.filterMap_cons_none hb] at hdistinct
      | some m =>
        rw [List.filterMap_cons_some hb] at hdistinct
        exact (List.nodup_cons.mp hdistinct).2
    rcases List.mem_cons.mp hmem with rfl | htail
    · have hothers : (rest.filter fun b => f b = some n) = [] := by
        apply List.filter_eq_nil_iff.mpr
        intro b hb hfound
        exact hnone (List.mem_filterMap.mpr ⟨b, hb, by simpa using hfound⟩) hn
      rw [List.filter_cons_of_pos (by simpa using hn), hothers]
    · have hb := hnone (List.mem_filterMap.mpr ⟨a, htail, hn⟩)
      rw [List.filter_cons_of_neg (by simpa using hb)]
      exact ih hrest htail

end ClusterView
