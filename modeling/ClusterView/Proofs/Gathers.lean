import ClusterView.Collective
import ClusterView.Proofs.Folds
import ClusterView.Proofs.Groups

/-!
# Gathers of values

A gather of typed values brings everybody's encoded value to the root, which decodes all
payloads or none. Decoding is exact: the values that come out are the ones whose encodings
came in, and a payload that is no encoding of the root's type spoils the whole gather. The
same goes for values that are written in a format.

## Sections
- §1: Reading payloads, one by one
- §2: Gathers on the end of a group
-/

namespace ClusterView

/-! ## §1 Reading payloads, one by one -/

/-- Values are read back as they were written. -/
theorem mapM_map_eq_ok {ε α β : Type} {write : α → β} {read : β → Except ε α}
    (h : ∀ value, read (write value) = .ok value) (values : List α) :
    (values.map write).mapM read = .ok values := by
  induction values with
  | nil => rfl
  | cons value rest ih =>
    rw [List.map_cons, List.mapM_cons, h, ih]
    rfl

/-- What is read is what was written, if that holds of every single value. -/
theorem map_eq_of_mapM_eq_ok {ε α β : Type} {write : α → β} {read : β → Except ε α}
    (h : ∀ part value, read part = .ok value → write value = part) {parts : List β}
    {values : List α} (hread : parts.mapM read = .ok values) : values.map write = parts := by
  induction parts generalizing values with
  | nil =>
    cases hread
    rfl
  | cons part rest ih =>
    rw [List.mapM_cons] at hread
    cases hpart : read part with
    | error e =>
      rw [hpart] at hread
      cases hread
    | ok value =>
      cases hrest : rest.mapM read with
      | error e =>
        rw [hpart, hrest] at hread
        cases hread
      | ok others =>
        rw [hpart, hrest] at hread
        cases hread
        rw [List.map_cons, h part value hpart, ih hrest]

theorem map_eq_error {β γ ε : Type} {g : β → γ} {r : Except ε β} {e : ε}
    (h : r.map g = .error e) : r = .error e := by
  cases r with
  | ok _ => cases h
  | error _ =>
    cases h
    rfl

theorem exists_of_mapM_eq_error {β γ ε : Type} {f : β → Except ε γ} {l : List β} {e : ε}
    (h : l.mapM f = .error e) : ∃ x ∈ l, f x = .error e := by
  induction l with
  | nil => cases h
  | cons x rest ih =>
    rw [List.mapM_cons] at h
    cases hx : f x with
    | error e' =>
      rw [hx] at h
      cases h
      exact ⟨x, List.mem_cons_self, hx⟩
    | ok y =>
      rw [hx] at h
      cases hrest : rest.mapM f with
      | error e' =>
        rw [hrest] at h
        cases h
        obtain ⟨z, hz, herror⟩ := ih hrest
        exact ⟨z, List.mem_cons_of_mem _ hz, herror⟩
      | ok ys =>
        rw [hrest] at h
        cases h

namespace Collective

theorem decode_eq_error {t : ElementType} {part : Bytes} {e : ViewError}
    (h : decode t part = .error e) : Element.decode t part = none ∧ e = .payload t := by
  unfold decode at h
  split at h
  · cases h
  · rename_i hnone
    cases h
    exact ⟨hnone, rfl⟩

theorem read_eq_error {β : Type} {format : Format β} {part : Bytes} {e : ViewError}
    (h : read format part = .error e) : format.read part = none ∧ e = .serialization := by
  unfold read at h
  split at h
  · cases h
  · rename_i hnone
    cases h
    exact ⟨hnone, rfl⟩

theorem decode_eq_ok_iff {t : ElementType} {part : Bytes} {value : t.Value} :
    decode t part = .ok value ↔ Element.encode t value = part := by
  rw [← Element.decode_eq_some_iff, decode]
  cases Element.decode t part <;> simp

/-- **Exact decoding**: some values come out exactly if their encodings came in. -/
theorem mapM_decode_eq_ok_iff {t : ElementType} {parts : List Bytes} {values : List t.Value} :
    parts.mapM (decode t) = .ok values ↔ values.map (Element.encode t) = parts := by
  constructor
  · exact map_eq_of_mapM_eq_ok fun part value => decode_eq_ok_iff.mp
  · rintro rfl
    exact mapM_map_eq_ok (fun value => decode_eq_ok_iff.mpr rfl) values

/-- **All or nothing**: with a payload that encodes no value, nothing comes out. -/
theorem mapM_decode_of_not_encoding {t : ElementType} {parts : List Bytes} {part : Bytes}
    (hpart : part ∈ parts) (hbad : ∀ value, Element.encode t value ≠ part) :
    parts.mapM (decode t) = .error (.payload t) := by
  cases hread : parts.mapM (decode t) with
  | error e =>
    obtain ⟨_, -, hfails⟩ := exists_of_mapM_eq_error hread
    rw [(decode_eq_error hfails).2]
  | ok values =>
    rw [← mapM_decode_eq_ok_iff.mp hread] at hpart
    obtain ⟨value, -, hvalue⟩ := List.mem_map.mp hpart
    exact absurd hvalue (hbad value)

/-! ## §2 Gathers on the end of a group -/

section

variable {x : GroupComm} {f : Fabric} {root slot : Nat}

/-- A gather that passes the entry check meets the others with its payload. -/
theorem gather_of_enter {payload : Bytes} {datatype : Datatype}
    (h : x.enter (f.isAlive x) payload datatype root = .ok slot) :
    Fabric.engine.gather (.ofGroup x) payload datatype root f =
      (.meet (x.seat slot) payload fun parts => .ok (if slot = root then some parts else none),
        f) := by
  simp only [Fabric.engine, Comm.gather, GroupComm.gather, h]

/-- **A typed gather** of a type with a datatype, by a living member onto a rank of the group,
meets the others with the caller's encoded value. The root decodes what comes together. -/
theorem gather_eq_meet {t : ElementType} {datatype : Datatype}
    (hdatatype : Registry.datatype? t = some datatype) (halive : f.isAlive x = true)
    (hrank : x.rank? = some slot) (hroot : root < x.size) (value : t.Value) :
    gather Fabric.engine (.ofGroup x) t value root f =
      (.meet (x.seat slot) (Element.encode t value) fun parts =>
        if slot = root then (parts.mapM (decode t)).map some else .ok none, f) := by
  have henter : x.enter (f.isAlive x) (Element.encode t value) datatype root = .ok slot := by
    refine GroupComm.enter_eq_ok_iff.mpr ⟨halive, hrank, hroot, fun width hwidth => ?_⟩
    rw [Registry.width_of_datatype hdatatype] at hwidth
    rw [Element.length_encode]
    exact Option.some.inj hwidth
  have hfound : Registry.datatype t = .ok datatype := by simp only [Registry.datatype, hdatatype]
  simp only [gather, hfound, bind, StateT.bind, gather_of_enter henter]
  refine congrArg (fun conclude =>
    (Offer.meet (x.seat slot) (Element.encode t value) conclude, f)) (funext fun parts => ?_)
  by_cases hme : slot = root <;> simp [hme]

/-- On the payloads of some values a typed gather comes to these, for the root only. -/
theorem gather_of_datatype {t : ElementType} {datatype : Datatype}
    (hdatatype : Registry.datatype? t = some datatype) (halive : f.isAlive x = true)
    (hrank : x.rank? = some slot) (hroot : root < x.size) (value : t.Value) :
    ∃ conclude, gather Fabric.engine (.ofGroup x) t value root f =
        (.meet (x.seat slot) (Element.encode t value) conclude, f) ∧
      ∀ values : List t.Value, conclude (values.map (Element.encode t)) =
        .ok (if slot = root then some values else none) := by
  refine ⟨_, gather_eq_meet hdatatype halive hrank hroot value, fun values => ?_⟩
  by_cases hme : slot = root
  · simp only [hme, if_true, mapM_decode_eq_ok_iff.mpr rfl]
    rfl
  · simp only [hme, if_false]

/-- **A typed gather that is not refused** was made by a living member, onto a rank of the
group, of a type with a datatype. -/
theorem gather_not_refused {t : ElementType} {value : t.Value}
    (h : ∀ e, (gather Fabric.engine (.ofGroup x) t value root f).1 ≠ .refuse e) :
    f.isAlive x = true ∧ (∃ slot, x.rank? = some slot) ∧ root < x.size ∧
      ∃ datatype, Registry.datatype? t = some datatype := by
  cases hdatatype : Registry.datatype? t with
  | none =>
    refine absurd ?_ (h (.unsupportedType t))
    simp only [gather, Registry.datatype, hdatatype]
    rfl
  | some datatype =>
    have hfound : Registry.datatype t = .ok datatype := by
      simp only [Registry.datatype, hdatatype]
    cases henter : x.enter (f.isAlive x) (Element.encode t value) datatype root with
    | error e =>
      refine absurd ?_ (h (.comm e))
      simp only [gather, hfound, Fabric.engine, Comm.gather, GroupComm.gather, henter, bind,
        StateT.bind]
      rfl
    | ok slot =>
      obtain ⟨halive, hrank, hroot, -⟩ := GroupComm.enter_eq_ok_iff.mp henter
      exact ⟨halive, ⟨slot, hrank⟩, hroot, datatype, rfl⟩

/-- A gather in a format that reads what it writes. -/
theorem gatherSerialized_of_format {α : Type} {format : Format α} {written : α → Bytes}
    (hwrite : ∀ value, format.write value = some (written value))
    (hread : ∀ value, format.read (written value) = some value) (halive : f.isAlive x = true)
    (hrank : x.rank? = some slot) (hroot : root < x.size) (value : α) :
    ∃ conclude, gatherSerialized Fabric.engine (.ofGroup x) format value root f =
        (.meet (x.seat slot) (written value) conclude, f) ∧
      ∀ values : List α, conclude (values.map written) =
        .ok (if slot = root then some values else none) := by
  -- plain bytes may have any length
  have henter : x.enter (f.isAlive x) (written value) .byte root = .ok slot :=
    GroupComm.enter_eq_ok_iff.mpr ⟨halive, hrank, hroot, fun width hwidth => nomatch hwidth⟩
  refine ⟨_, by
    simp only [gatherSerialized, hwrite, bind, StateT.bind, gather_of_enter henter]
    rfl, fun values => ?_⟩
  by_cases hme : slot = root
  · have hback : ∀ value, read format (written value) = .ok value := by
      intro value
      simp only [read, hread]
    simp only [hme, if_true, mapM_map_eq_ok hback]
    rfl
  · simp only [hme, if_false]

end

end Collective

end ClusterView
