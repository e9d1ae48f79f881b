import ClusterView.Proofs.Determinacy
import ClusterView.Proofs.Gathers
import ClusterView.Site

/-!
# Refused collectives

A collective can be asked for through a communicator, a view, a resource set or a RAM value,
and each of these layers may refuse it. Whoever refuses, it happens before the meeting: the
desk, the hall and everybody else are as if the call had never been made. An accepted call
brings one payload to the caller's own seat, and what may still go wrong then goes wrong on
the root alone, and only in what it makes of the payloads.

So the routines of all participants may as well do without the calls that are refused, and
every other call is answered as before.

## Sections
- §1: Requests
- §2: What is refused, and what fails later
- §3: Gathers and reductions on the end of a group
- §4: Every request is settled
- §5: Routines that make requests
- §6: Invisible refusals
-/

namespace ClusterView

/-! ## §1 Requests -/

/-- **Source** of a typed collective. -/
inductive Source where
  | view (v : View)
  | set (s : ResourceSet Comm)
  | ram (r : Ram Comm)

/-- **Request** of a collective, by the errors and the results that it may answer. -/
inductive CollectiveRequest : Type → Type → Type 1 where
  | comm (c : Comm) (call : GroupComm.Call) : CollectiveRequest CommError GroupComm.Reply
  | gather (source : Source) (t : ElementType) (value : t.Value) :
      CollectiveRequest ViewError (Option (List t.Value))
  | reduce (source : Source) (t : ElementType) (value : t.Value) (op : ReduceOp) :
      CollectiveRequest ViewError (Option t.Value)
  | gatherSerialized (v : View) {β : Type} (format : Format β) (value : β) :
      CollectiveRequest ViewError (Option (List β))

/-- The communicator that a source leads to on a desk, and the root there. -/
def Source.target? (d : Workplace) : Source → Option (Comm × Nat)
  | view v => (d.behind v).map fun state => (state.comm, ViewState.root)
  | set s => s.ram.owner?.map fun owner => (owner.comm, owner.rank)
  | ram r => r.owner?.map fun owner => (owner.comm, owner.rank)

namespace CollectiveRequest

variable {ε α : Type}

/-- The collective on the fabric that is asked for on a desk. -/
def onFabric (d : Workplace) : CollectiveRequest ε α → StateM Fabric (Offer ε α)
  | comm c call => call.offer c
  | gather (.view v) t value => ViewState.gather Fabric.engine (d.behind v) t value
  | gather (.set s) t value => s.ram.gather Fabric.engine t value
  | gather (.ram r) t value => r.gather Fabric.engine t value
  | reduce (.view v) t value op => ViewState.reduce Fabric.engine (d.behind v) t value op
  | reduce (.set s) t value op => s.ram.reduce Fabric.engine t value op
  | reduce (.ram r) t value op => r.reduce Fabric.engine t value op
  | gatherSerialized v format value =>
      ViewState.gatherSerialized Fabric.engine (d.behind v) format value

/-- **The call** on a desk. -/
def offer (r : CollectiveRequest ε α) : StateM Workplace (Offer ε α) := fun d =>
  Desk.onEngine (r.onFabric d) d

/-- The communicator that the request leads to, and the root there. -/
def target? (d : Workplace) : CollectiveRequest ε α → Option (Comm × Nat)
  | comm c call => some (c, call.root)
  | gather source _ _ | reduce source _ _ _ => source.target? d
  | gatherSerialized v _ _ => (Source.view v).target? d

/-- The sender's own payload, if its value has one. -/
def payload? : CollectiveRequest ε α → Option Bytes
  | comm _ call => some call.payload
  | gather _ t value | reduce _ t value _ => some (Element.encode t value)
  | gatherSerialized _ format value => format.write value

/-- An error as the views report it. -/
def viewed : CollectiveRequest ε α → ε → ViewError
  | comm _ _, e => .comm e
  | gather _ _ _, e | reduce _ _ _ _, e | gatherSerialized _ _ _, e => e

end CollectiveRequest

/-! ## §2 What is refused, and what fails later -/

/-- **Refusals of a communicator**, where the sender's own payload is known. -/
inductive CommError.IsRefusal (payload : Bytes) : CommError → Prop where
  | notRunning : IsRefusal payload .notRunning
  | notAMember : IsRefusal payload .notAMember
  | invalidRank (rank size : Nat) : IsRefusal payload (.invalidRank rank size)
  /-- The sender's own payload has the wrong length. -/
  | malformedPayload (datatype : Datatype) :
      IsRefusal payload (.malformedPayload datatype payload.length)
  | unsupportedDatatype (datatype : Datatype) : IsRefusal payload (.unsupportedDatatype datatype)
  | unsupportedOp (op : Operation) (datatype : Datatype) :
      IsRefusal payload (.unsupportedOp op datatype)

/-- **Refusals** of a request, where the sender's own payload is known if there is one. -/
inductive ViewError.IsRefusal (own : Option Bytes) : ViewError → Prop where
  | nullView (operation : String) : IsRefusal own (.nullView operation)
  | unattached : IsRefusal own .unattached
  | unsupportedType (t : ElementType) : IsRefusal own (.unsupportedType t)
  | unsupportedOperation (t : ElementType) (op : ReduceOp) :
      IsRefusal own (.unsupportedOperation t op)
  /-- The sender's own value cannot be written. -/
  | serialization (h : own = none) : IsRefusal own .serialization
  | comm {payload : Bytes} {e : CommError} (h : own = some payload) (he : e.IsRefusal payload) :
      IsRefusal own (.comm e)

/-- **Later errors** of the member in a slot, given everybody's payloads: there is one that
cannot be folded or read. -/
inductive ViewError.IsLate (me : Nat) (parts : List Bytes) : ViewError → Prop where
  /-- Another member's payload has the wrong length. -/
  | malformedPayload {datatype : Datatype} {slot : Nat} {part : Bytes} (hslot : slot ≠ me)
      (hpart : parts[slot]? = some part) (hwidth : datatype.width? ≠ some part.length) :
      IsLate me parts (.comm (.malformedPayload datatype part.length))
  | payload {t : ElementType} {part : Bytes} (hpart : part ∈ parts)
      (h : Element.decode t part = none) : IsLate me parts (.payload t)
  | serialization {β : Type} {format : Format β} {part : Bytes} (hpart : part ∈ parts)
      (h : format.read part = none) : IsLate me parts .serialization

/-- **Settled offer** of a request for a communicator and a root: refused, or accepted at the
caller's own seat, with its own payload, and with errors on the root only. -/
inductive Offer.Settles {ε α : Type} (target : Option (GroupComm × Nat)) (own : Option Bytes)
    (viewed : ε → ViewError) : Offer ε α → Prop where
  | refused {e : ε} (h : (viewed e).IsRefusal own) : Settles target own viewed (.refuse e)
  | accepted {x : GroupComm} {root me : Nat} {payload : Bytes}
      {conclude : List Bytes → Except ε α} (htarget : target = some (x, root))
      (hown : own = some payload) (hme : x.rank? = some me)
      (hlate : ∀ parts e, conclude parts = .error e →
        me = root ∧ (parts[me]? = some payload → (viewed e).IsLate me parts)) :
      Settles target own viewed (.meet (x.seat me) payload conclude)

/-! ## §3 Gathers and reductions on the end of a group -/

namespace Reduction

/-- **A fold fails** on a payload of the wrong length only. -/
theorem fold_eq_error {datatype : Datatype} {op : Operation} {parts : List Bytes} {e : CommError}
    (hcheck : check datatype op = .ok ()) (hparts : parts ≠ [])
    (h : fold datatype op parts = .error e) :
    ∃ part ∈ parts, datatype.width? ≠ some part.length ∧
      e = .malformedPayload datatype part.length := by
  cases hfirst : parts.find? fun part => datatype.width? ≠ some part.length with
  | some part =>
    cases h.symm.trans (fold_of_find? hcheck hfirst)
    exact ⟨part, List.mem_of_find?_eq_some hfirst, by simpa using List.find?_some hfirst, rfl⟩
  | none =>
    -- payloads that are all right have a fold
    obtain ⟨result, hresult⟩ := fold_of_widths hcheck hparts (widths_of_find? hfirst)
    cases hresult.symm.trans h

/-- **A fold that fails** over a payload of the right length fails on one in another slot. -/
theorem fold_eq_error_elsewhere {datatype : Datatype} {op : Operation} {payload : Bytes}
    {parts : List Bytes} {slot : Nat} {e : CommError} (hcheck : check datatype op = .ok ())
    (hwidth : ∀ width, datatype.width? = some width → payload.length = width)
    (hown : parts[slot]? = some payload) (h : fold datatype op parts = .error e) :
    ∃ other part, other ≠ slot ∧ parts[other]? = some part ∧
      datatype.width? ≠ some part.length ∧ e = .malformedPayload datatype part.length := by
  have hsome : parts ≠ [] := by
    rintro rfl
    cases hown
  obtain ⟨part, hpart, hwrong, he⟩ := fold_eq_error hcheck hsome h
  obtain ⟨other, hother⟩ := List.mem_iff_getElem?.mp hpart
  refine ⟨other, part, ?_, hother, hwrong, he⟩
  rintro rfl
  cases hown.symm.trans hother
  obtain ⟨s, combine, hkind, -⟩ := check_eq_ok_iff.mp hcheck
  have hscalar := Datatype.width_of_scalar hkind
  exact hwrong (by rw [hscalar, hwidth _ hscalar])

end Reduction

namespace GroupComm

variable {x : GroupComm} {alive : Bool} {payload : Bytes} {datatype : Datatype} {root : Nat}

theorem Barred.isRefusal {e : CommError} (h : x.Barred alive payload datatype root e) :
    e.IsRefusal payload := by
  cases h with
  | notRunning _ => exact .notRunning
  | notAMember _ _ => exact .notAMember
  | invalidRank _ _ => exact .invalidRank _ _
  | malformedPayload _ _ _ _ => exact .malformedPayload _

/-- **A gather** is refused, or meets the others with the payload and never fails. -/
theorem gather_cases (x : GroupComm) (alive : Bool) (payload : Bytes) (datatype : Datatype)
    (root : Nat) :
    (∃ e, x.gather alive payload datatype root = .refuse e ∧ e.IsRefusal payload) ∨
      ∃ me, x.rank? = some me ∧ x.gather alive payload datatype root =
        .meet (x.seat me) payload fun parts => .ok (if me = root then some parts else none) := by
  cases henter : x.enter alive payload datatype root with
  | error e =>
    exact Or.inl ⟨e, by simp only [gather, henter], (barred_of_enter henter).isRefusal⟩
  | ok me => exact Or.inr ⟨me, (enter_eq_ok_iff.mp henter).2.1, by simp only [gather, henter]⟩

/-- **A reduction** is refused, or meets the others with the payload and fails on the root at
most, and on another member's payload. -/
theorem reduce_cases (x : GroupComm) (alive : Bool) (payload : Bytes) (datatype : Datatype)
    (op : Operation) (root : Nat) :
    (∃ e, x.reduce alive payload datatype op root = .refuse e ∧ e.IsRefusal payload) ∨
      ∃ me, x.rank? = some me ∧ Reduction.check datatype op = .ok () ∧
        (∀ width, datatype.width? = some width → payload.length = width) ∧
        x.reduce alive payload datatype op root = .meet (x.seat me) payload fun parts =>
          if me = root then (Reduction.fold datatype op parts).map some else .ok none := by
  cases henter : x.enter alive payload datatype root with
  | error e =>
    refine Or.inl ⟨e, ?_, (barred_of_enter henter).isRefusal⟩
    simp only [reduce, henter, bind, Except.bind]
  | ok me =>
    obtain ⟨-, hrank, -, hwidth⟩ := enter_eq_ok_iff.mp henter
    cases hcheck : Reduction.check datatype op with
    | error e =>
      refine Or.inl ⟨e, by simp only [reduce, henter, bind, Except.bind, hcheck], ?_⟩
      rcases Reduction.check_eq_error hcheck with rfl | rfl
      · exact .unsupportedDatatype _
      · exact .unsupportedOp _ _
    | ok _ =>
      refine Or.inr ⟨me, hrank, rfl, hwidth, ?_⟩
      simp only [reduce, henter, bind, Except.bind, hcheck, pure, Except.pure]

/-- A fold fails on another member's payload, since one's own has passed the entry check. -/
theorem isLate_of_fold {op : Operation} {me : Nat} {parts : List Bytes} {e : CommError}
    (hcheck : Reduction.check datatype op = .ok ())
    (hwidth : ∀ width, datatype.width? = some width → payload.length = width)
    (hme : parts[me]? = some payload) (h : Reduction.fold datatype op parts = .error e) :
    (ViewError.comm e).IsLate me parts := by
  obtain ⟨other, part, hne, hother, hwrong, rfl⟩ :=
    Reduction.fold_eq_error_elsewhere hcheck hwidth hme h
  exact .malformedPayload hne hother hwrong

section Settling

variable {ε γ : Type} {viewed : ε → ViewError} (x : GroupComm) (alive : Bool) (payload : Bytes)
  (datatype : Datatype) (root : Nat)

/-- **A gather is settled**, whatever its outcome is processed into, if that fails on the root's
payloads only. -/
theorem gather_settles {f : Except CommError (Option (List Bytes)) → Except ε γ}
    (herror : ∀ e, ∃ e', f (.error e) = .error e' ∧ viewed e' = .comm e)
    (hnone : ∀ e, f (.ok none) ≠ .error e)
    (hsome : ∀ parts e, f (.ok (some parts)) = .error e → ∀ me, (viewed e).IsLate me parts) :
    ((x.gather alive payload datatype root).andThen f).Settles (some (x, root)) (some payload)
      viewed := by
  rcases x.gather_cases alive payload datatype root with ⟨e, hgather, he⟩ | ⟨me, hme, hgather⟩
  · obtain ⟨e', hf, hviewed⟩ := herror e
    rw [hgather, show (Offer.refuse e).andThen f = Offer.refuse e' from congrArg Offer.answer hf]
    exact .refused (hviewed ▸ .comm rfl he)
  · rw [hgather]
    refine .accepted rfl rfl hme fun parts e hfails => ?_
    by_cases hroot : me = root
    · simp only [if_pos hroot] at hfails
      exact ⟨hroot, fun _ => hsome parts e hfails me⟩
    · simp only [if_neg hroot] at hfails
      exact absurd hfails (hnone e)

/-- **A reduction is settled**, whatever its outcome is processed into, if that never fails on
a result. -/
theorem reduce_settles (op : Operation) {f : Except CommError (Option Bytes) → Except ε γ}
    (herror : ∀ e, ∃ e', f (.error e) = .error e' ∧ viewed e' = .comm e)
    (hnone : ∀ e, f (.ok none) ≠ .error e)
    (hsome : ∀ parts result, Reduction.check datatype op = .ok () →
      Reduction.fold datatype op parts = .ok result → ∀ e, f (.ok (some result)) ≠ .error e) :
    ((x.reduce alive payload datatype op root).andThen f).Settles (some (x, root)) (some payload)
      viewed := by
  rcases x.reduce_cases alive payload datatype op root with
    ⟨e, hreduce, he⟩ | ⟨me, hme, hcheck, hwidth, hreduce⟩
  · obtain ⟨e', hf, hviewed⟩ := herror e
    rw [hreduce, show (Offer.refuse e).andThen f = Offer.refuse e' from congrArg Offer.answer hf]
    exact .refused (hviewed ▸ .comm rfl he)
  · rw [hreduce]
    refine .accepted rfl rfl hme fun parts e hfails => ?_
    by_cases hroot : me = root
    · -- on the root, it is the fold that fails, as its result can be processed
      refine ⟨hroot, fun hown => ?_⟩
      simp only [if_pos hroot] at hfails
      cases hfold : Reduction.fold datatype op parts with
      | ok result =>
        rw [hfold] at hfails
        exact absurd hfails (hsome parts result hcheck hfold e)
      | error e' =>
        obtain ⟨e'', hf, hviewed⟩ := herror e'
        rw [hfold] at hfails
        cases hf.symm.trans hfails
        rw [hviewed]
        exact isLate_of_fold hcheck hwidth hown hfold
    · simp only [if_neg hroot] at hfails
      exact absurd hfails (hnone e)

end Settling

end GroupComm

/-! ## §4 Every request is settled -/

namespace Collective

variable (x : GroupComm) (root : Nat) (f : Fabric)

/-- **A typed gather is settled**: the root may fail to decode a payload. -/
theorem gather_settles (t : ElementType) (value : t.Value) :
    (gather Fabric.engine (.ofGroup x) t value root f).2 = f ∧
      (gather Fabric.engine (.ofGroup x) t value root f).1.Settles (some (x, root))
        (some (Element.encode t value)) id := by
  unfold gather Registry.datatype
  cases Registry.datatype? t with
  | none => exact ⟨rfl, .refused (.unsupportedType t)⟩
  | some datatype =>
    refine ⟨rfl, x.gather_settles _ _ datatype root (fun e => ⟨_, rfl, rfl⟩) nofun ?_⟩
    intro parts e hfails me
    obtain ⟨part, hpart, hdecode⟩ := exists_of_mapM_eq_error (map_eq_error hfails)
    obtain ⟨hnone, rfl⟩ := decode_eq_error hdecode
    exact .payload hpart hnone

/-- **A typed reduction is settled**: the root may fail to fold the payloads. -/
theorem reduce_settles (t : ElementType) (value : t.Value) (op : ReduceOp) :
    (reduce Fabric.engine (.ofGroup x) t value op root f).2 = f ∧
      (reduce Fabric.engine (.ofGroup x) t value op root f).1.Settles (some (x, root))
        (some (Element.encode t value)) id := by
  cases hregistered : Registry.isRegistered t op with
  | false =>
    simp only [reduce, Registry.operation_of_not_registered hregistered]
    refine ⟨rfl, .refused ?_⟩
    show (Registry.refusal t op).IsRefusal _
    unfold Registry.refusal
    split
    · exact .unsupportedOperation t op
    · exact .unsupportedType t
  | true =>
    obtain ⟨s, datatype, rfl, hoperation, hkind, -⟩ := Registry.operation_of_registered hregistered
    simp only [reduce, hoperation]
    refine ⟨rfl, x.reduce_settles _ _ datatype root op.operation (fun e => ⟨_, rfl, rfl⟩) nofun ?_⟩
    -- what the fold has written is a scalar, and decodes
    intro parts result hcheck hfold e hfails
    obtain ⟨written, rfl⟩ := Reduction.fold_eq_ok hcheck hkind hfold
    simp only [decode, Element.decode_write] at hfails
    cases hfails

/-- **A gather of values in a format is settled**: the root may fail to read a payload. -/
theorem gatherSerialized_settles {β : Type} (format : Format β) (value : β) :
    (gatherSerialized Fabric.engine (.ofGroup x) format value root f).2 = f ∧
      (gatherSerialized Fabric.engine (.ofGroup x) format value root f).1.Settles
        (some (x, root)) (format.write value) id := by
  unfold gatherSerialized
  cases format.write value with
  | none => exact ⟨rfl, .refused (.serialization rfl)⟩
  | some payload =>
    refine ⟨rfl, x.gather_settles _ payload .byte root (fun e => ⟨_, rfl, rfl⟩) nofun ?_⟩
    intro parts e hfails me
    obtain ⟨part, hpart, hread⟩ := exists_of_mapM_eq_error (map_eq_error hfails)
    obtain ⟨hnone, rfl⟩ := read_eq_error hread
    exact .serialization hpart hnone

end Collective

/-- **A call on a communicator is settled**: the root may fail to fold the payloads. -/
theorem GroupComm.Call.offer_settles (x : GroupComm) (call : GroupComm.Call) (f : Fabric) :
    (call.offer (.ofGroup x) f).2 = f ∧
      (call.offer (.ofGroup x) f).1.Settles (some (x, call.root)) (some call.payload)
        ViewError.comm := by
  cases call with
  | gather payload datatype root =>
    exact ⟨rfl, x.gather_settles _ payload datatype root (fun e => ⟨e, rfl, rfl⟩) nofun nofun⟩
  | reduce payload datatype op root =>
    exact ⟨rfl, x.reduce_settles _ payload datatype root op (fun e => ⟨e, rfl, rfl⟩) nofun
      fun _ _ _ _ => nofun⟩

/-- What a source refuses a collective with, if it leads to no communicator. -/
def Source.refusal (operation : String) : Source → ViewError
  | view _ => .nullView operation
  | set _ | ram _ => .unattached

theorem Source.isRefusal (source : Source) (operation : String) (own : Option Bytes) :
    (source.refusal operation).IsRefusal own := by
  cases source with
  | view _ => exact .nullView operation
  | set _ | ram _ => exact .unattached

namespace CollectiveRequest

variable {ε α : Type}

theorem onFabric_gather (source : Source) (t : ElementType) (value : t.Value) (d : Workplace) :
    (gather source t value).onFabric d = match source.target? d with
      | none => pure (.refuse (source.refusal "gather"))
      | some (c, root) => Collective.gather Fabric.engine c t value root := by
  cases source with
  | view v =>
    simp only [onFabric, ViewState.gather, Source.target?]
    cases d.behind v <;> rfl
  | set s =>
    simp only [onFabric, Ram.gather, Source.target?]
    cases s.ram.owner? <;> rfl
  | ram r =>
    simp only [onFabric, Ram.gather, Source.target?]
    cases r.owner? <;> rfl

theorem onFabric_reduce (source : Source) (t : ElementType) (value : t.Value) (op : ReduceOp)
    (d : Workplace) :
    (reduce source t value op).onFabric d = match source.target? d with
      | none => pure (.refuse (source.refusal "reduce"))
      | some (c, root) => Collective.reduce Fabric.engine c t value op root := by
  cases source with
  | view v =>
    simp only [onFabric, ViewState.reduce, Source.target?]
    cases d.behind v <;> rfl
  | set s =>
    simp only [onFabric, Ram.reduce, Source.target?]
    cases s.ram.owner? <;> rfl
  | ram r =>
    simp only [onFabric, Ram.reduce, Source.target?]
    cases r.owner? <;> rfl

theorem onFabric_gatherSerialized (v : View) {β : Type} (format : Format β) (value : β)
    (d : Workplace) :
    (gatherSerialized v format value).onFabric d = match (Source.view v).target? d with
      | none => pure (.refuse (.nullView "gather_serialized"))
      | some (c, root) => Collective.gatherSerialized Fabric.engine c format value root := by
  simp only [onFabric, ViewState.gatherSerialized, Source.target?]
  cases d.behind v <;> rfl

/-- **Reaching** the end of a group with a root, or no communicator at all. -/
def Reaches (r : CollectiveRequest ε α) (d : Workplace) (target : Option (GroupComm × Nat)) :
    Prop :=
  r.target? d = target.map fun (x, root) => (.ofGroup x, root)

theorem settles_onFabric (r : CollectiveRequest ε α) {d : Workplace}
    {target : Option (GroupComm × Nat)} (h : r.Reaches d target) (f : Fabric) :
    (r.onFabric d f).2 = f ∧ (r.onFabric d f).1.Settles target r.payload? r.viewed := by
  cases r with
  | comm c call =>
    cases target with
    | none => cases h
    | some found =>
      obtain ⟨rfl, hroot⟩ := Prod.mk.inj (Option.some.inj h)
      rw [show found = (found.1, call.root) from congrArg (found.1, ·) hroot.symm]
      exact call.offer_settles found.1 f
  | gather source t value =>
    rw [onFabric_gather, show source.target? d = _ from h]
    cases target with
    | none => exact ⟨rfl, .refused (source.isRefusal _ _)⟩
    | some found => exact Collective.gather_settles found.1 found.2 f t value
  | reduce source t value op =>
    rw [onFabric_reduce, show source.target? d = _ from h]
    cases target with
    | none => exact ⟨rfl, .refused (source.isRefusal _ _)⟩
    | some found => exact Collective.reduce_settles found.1 found.2 f t value op
  | gatherSerialized v format value =>
    rw [onFabric_gatherSerialized, show (Source.view v).target? d = _ from h]
    cases target with
    | none => exact ⟨rfl, .refused (.nullView _)⟩
    | some found => exact Collective.gatherSerialized_settles found.1 found.2 f format value

/-- **Every request is settled**, and leaves the desk as it is. -/
theorem settles (r : CollectiveRequest ε α) {d : Workplace} {target : Option (GroupComm × Nat)}
    (h : r.Reaches d target) :
    (r.offer d).2 = d ∧ (r.offer d).1.Settles target r.payload? r.viewed := by
  obtain ⟨hfabric, hsettles⟩ := r.settles_onFabric h d.engine
  refine ⟨?_, hsettles⟩
  show { d with engine := (r.onFabric d d.engine).2 } = d
  rw [hfabric]

end CollectiveRequest

/-! ## §5 Routines that make requests -/

/-- The end of a group that was registered with one of some clusters, in the hands of a
participant. -/
def GroupComm.BelongsTo (clusters : Nat → Cluster) (rank : Nat) (x : GroupComm) : Prop :=
  (clusters x.cluster).groups[x.number]? = some x.group ∧ x.worldRank = rank

/-- The members of the group that meets at a point. -/
def membersAt (clusters : Nat → Cluster) (point : Point) : List Nat :=
  (((clusters point.cluster).groups[point.group]?).map Group.members).getD []

theorem membersAt_nodup {clusters : Nat → Cluster} (h : ∀ n, (clusters n).Reachable)
    (point : Point) : (membersAt clusters point).Nodup := by
  unfold membersAt
  cases hgroup : (clusters point.cluster).groups[point.group]? with
  | none => exact List.nodup_nil
  | some g => exact (h point.cluster).wellFormed.distinct g (List.mem_of_getElem? hgroup)

/-- A seat at the end of a participant's group is a seat of its own. -/
theorem GroupComm.BelongsTo.isOwn {ε α : Type} {clusters : Nat → Cluster} {rank me : Nat}
    {x : GroupComm} (h : x.BelongsTo clusters rank) (hme : x.rank? = some me) (payload : Bytes)
    (conclude : List Bytes → Except ε α) :
    (⟨x.seat me, payload, conclude⟩ : Deposit ε α).IsOwn (membersAt clusters) rank := by
  have hmembers : membersAt clusters (x.seat me).point = x.group.members := by
    show (((clusters x.cluster).groups[x.number]?).map Group.members).getD [] = _
    rw [h.1]
    rfl
  refine ⟨?_, ?_⟩
  · show (membersAt clusters (x.seat me).point)[me]? = some rank
    rw [hmembers, ← h.2]
    exact Group.getElem?_of_rankOf? hme
  · show x.size = (membersAt clusters (x.seat me).point).length
    rw [hmembers]
    rfl

namespace Routine

variable {ε α : Type} {Good : Workplace → Prop}

/-- **Requesting** routines over good desks: every call is a request whose answer is processed
further, and which reaches at most an end of the participant's own of some group. -/
def Requests (clusters : Nat → Cluster) (rank : Nat) : Routine {d // Good d} ε α → Prop
  | .done => True
  | .act _ next => ∀ d, (next d).Requests clusters rank
  | .call collective next =>
      (∃ (ε' α' : Type) (r : CollectiveRequest ε' α') (f : Except ε' α' → Except ε α),
        ∀ d : {d // Good d},
          (∃ target, r.Reaches d target ∧ ∀ x root, target = some (x, root) →
            x.BelongsTo clusters rank) ∧
          (collective d).1 = (r.offer d).1.andThen f ∧
          ((collective d).2 : Workplace) = (r.offer d).2) ∧
        ∀ answer, (next answer).Requests clusters rank

variable {clusters : Nat → Cluster} {rank : Nat} {P : Routine {d // Good d} ε α}

theorem Requests.quiet (h : P.Requests clusters rank) : P.Quiet := by
  induction P with
  | done => trivial
  | act change next ih => exact fun d => ih d (h d)
  | call collective next ih =>
    obtain ⟨⟨ε', α', r, f, hcall⟩, hnext⟩ := h
    refine ⟨fun d => Subtype.ext ?_, fun answer => ih answer (hnext answer)⟩
    obtain ⟨⟨target, hreaches, -⟩, -, hstate⟩ := hcall d
    rw [hstate, (r.settles hreaches).1]

theorem Requests.seated (h : P.Requests clusters rank) : P.Seated (membersAt clusters) rank := by
  induction P with
  | done => trivial
  | act change next ih => exact fun d => ih d (h d)
  | call collective next ih =>
    obtain ⟨⟨ε', α', r, f, hcall⟩, hnext⟩ := h
    refine ⟨fun d deposit hoffer => ?_, fun answer => ih answer (hnext answer)⟩
    obtain ⟨⟨target, hreaches, hown⟩, hsame, -⟩ := hcall d
    have hsettles := (r.settles hreaches).2
    rw [hsame] at hoffer
    generalize (r.offer d).1 = offer at hoffer hsettles
    cases hsettles with
    | refused _ => cases hoffer
    | @accepted x root me payload conclude htarget _ hme _ =>
      obtain ⟨seat, own, concludes⟩ := deposit
      cases hoffer
      exact (hown x root htarget).isOwn hme _ _

end Routine

/-! ## §6 Invisible refusals -/

namespace CollectiveRequest

/-- **Outcome** of a request as a program, on a desk and in a hall. Either way, the call itself
is one step that leaves both as they are. If it is refused, the program has ended; if it is
accepted, all that is left is one exchange of the sender's own payload at its own seat, and an
error after it is one of the root's. -/
inductive Outcome {ε α : Type} (r : CollectiveRequest ε α) (d : Workplace) (hall : Hall)
    (target : Option (GroupComm × Nat)) : Prop where
  | refused {e : ε} (he : (r.viewed e).IsRefusal r.payload?)
      (hstep : (Program.collective r.offer).step? d hall = some (.done (.error e), d, hall)) :
      Outcome r d hall target
  | accepted {x : GroupComm} {root me : Nat} {payload : Bytes}
      {conclude : List Bytes → Except ε α} (htarget : target = some (x, root))
      (hown : r.payload? = some payload) (hme : x.rank? = some me)
      (hstep : (Program.collective r.offer).step? d hall =
        some (.exchange (x.seat me) payload fun parts => .done (conclude parts), d, hall))
      (hlate : ∀ parts e, conclude parts = .error e →
        me = root ∧ (parts[me]? = some payload → (r.viewed e).IsLate me parts)) :
      Outcome r d hall target

theorem outcome {ε α : Type} (r : CollectiveRequest ε α) {d : Workplace} (hall : Hall)
    {target : Option (GroupComm × Nat)} (h : r.Reaches d target) : r.Outcome d hall target := by
  obtain ⟨hstate, hsettles⟩ := r.settles h
  have hstep : (Program.collective r.offer).step? d hall =
      some ((r.offer d).1.toProgram, (r.offer d).2, hall) := rfl
  rw [hstate] at hstep
  generalize (r.offer d).1 = offer at hsettles hstep
  cases hsettles with
  | refused he => exact .refused he hstep
  | accepted htarget hown hme hlate => exact .accepted htarget hown hme hstep hlate

end CollectiveRequest

namespace Routine

/-- **Refused collectives are invisible**. A request that is refused leaves the desk and the
hall as they are. An accepted one deposits one payload, at the sender's own seat, and later
errors are the root's alone.

Let every participant follow a routine of requests, in between whatever it does to the desk.
Under every schedule, the same can be done without the calls that were refused, and all other
calls are answered the same. Whatever errors there are, everybody's call with a number at a
group is answered from the payloads of everybody's call with that number there. If nobody's
routine depends on what others do but for the answers, then the refused calls are known
beforehand, and no schedule without them answers a call otherwise. -/
theorem refusals_invisible {clusters : Nat → Cluster} (hclusters : ∀ n, (clusters n).Reachable)
    {Good : Workplace → Prop} {ε α : Type} {P : Nat → Routine {d // Good d} ε α}
    (hrequests : ∀ rank, (P rank).Requests clusters rank) (d : {d // Good d}) (size : Nat)
    (schedule : List Crew.Move) :
    let c := (crew P d .empty size).follow schedule
    let trimmed := crew (fun rank => (P rank).trim d) d .empty size
    (∀ {ε' α' : Type} (r : CollectiveRequest ε' α') (d : Workplace) (hall : Hall)
      (target : Option (GroupComm × Nat)), r.Reaches d target → r.Outcome d hall target) ∧
    (∀ hall,
      let c := (crew P d hall size).follow schedule
      let without := crew (fun rank => (P rank).without (c.shared.calls rank)) d hall size
      ∃ schedule', schedule'.Sublist schedule ∧ (without.follow schedule').hall = c.hall ∧
        c.shared.Without (without.follow schedule').shared) ∧
    c.shared.Paired (membersAt clusters) ∧ c.hall.Receives (membersAt clusters) c.shared ∧
    ∀ {τ : Type} (own : Nat → {d // Good d} → τ), (∀ rank, (P rank).Private own rank) →
      (∃ schedule', schedule'.Sublist schedule ∧ (trimmed.follow schedule').hall = c.hall ∧
        c.shared.Without (trimmed.follow schedule').shared) ∧
      ∀ schedule', c.shared.Agrees (trimmed.follow schedule').shared := by
  intro c trimmed
  have hquiet := fun rank => (hrequests rank).quiet
  have hseated := fun rank => (hrequests rank).seated
  have hdistinct := membersAt_nodup hclusters
  -- requests are quiet and seated, which is all that the theory of routines asks for
  obtain ⟨_, _, hpairs⟩ := (Crew.Pairs.crew hseated d size).follow hdistinct schedule
  refine ⟨fun r d hall target hreaches => r.outcome hall hreaches,
    fun hall => run_without hquiet d hall size schedule, hpairs.paired, hpairs.receives,
    fun own hprivate => ⟨run_trim hprivate hquiet d .empty size schedule, ?_⟩⟩
  exact answers_agree hdistinct hseated (fun rank => (hseated rank).trim d) hprivate
    (fun rank => (hprivate rank).trim d) hquiet (fun rank => (hquiet rank).trim d)
    (fun rank => nextDeposit?_trim (P rank) d) size schedule

section Trio

open JointCall (trio trioFabric trioEnd trio_reachable)

/-- A participant's call on its end of the world of the trio. -/
def trioAsks (rank : Nat) (call : GroupComm.Call) :
    StateM {_d : Workplace // True} (Offer CommError GroupComm.Reply) := fun d =>
  let request := CollectiveRequest.comm (.ofGroup (trioEnd 0 ⟨.world, [0, 1, 2]⟩ rank)) call
  ((request.offer d).1, ⟨(request.offer d).2, trivial⟩)

/-- Everybody asks for a gather onto a rank that there is not. Then participant 0 reduces what
the others believe to be gathered, and at last everybody gathers onto participant 0. -/
def trioRoutine (rank : Nat) : Routine {_d : Workplace // True} CommError GroupComm.Reply :=
  .call (trioAsks rank (.gather [1] .byte 7)) fun _ =>
    .call (trioAsks rank (if rank = 0 then .reduce [5] .int8 .sum 0 else .gather [1, 2] .byte 0))
      fun _ => .call (trioAsks rank (.gather [UInt8.ofNat (10 + rank)] .byte 0)) fun _ => .done

theorem trioAsks_requests (rank : Nat) (call : GroupComm.Call) :
    ∃ (ε' α' : Type) (r : CollectiveRequest ε' α')
      (f : Except ε' α' → Except CommError GroupComm.Reply), ∀ d : {_d : Workplace // True},
        (∃ target, r.Reaches d target ∧ ∀ x root, target = some (x, root) →
          x.BelongsTo (fun _ => trio) rank) ∧
        (trioAsks rank call d).1 = (r.offer d).1.andThen f ∧
        ((trioAsks rank call d).2 : Workplace) = (r.offer d).2 := by
  refine ⟨_, _, .comm (.ofGroup (trioEnd 0 ⟨.world, [0, 1, 2]⟩ rank)) call, id, fun d =>
    ⟨⟨some (trioEnd 0 ⟨.world, [0, 1, 2]⟩ rank, call.root), rfl, ?_⟩, ?_, rfl⟩⟩
  · rintro x root ⟨⟩
    exact ⟨rfl, rfl⟩
  · simp only [trioAsks]
    cases (CollectiveRequest.offer _ _).1 <;> rfl

theorem trioRoutine_requests (rank : Nat) : (trioRoutine rank).Requests (fun _ => trio) rank :=
  ⟨trioAsks_requests rank _, fun _ => ⟨trioAsks_requests rank _, fun _ =>
    ⟨trioAsks_requests rank _, fun _ => trivial⟩⟩⟩

/-- Is the participant's end of the world alive? Nothing else matters to its calls. -/
def trioAlive (rank : Nat) (d : {_d : Workplace // True}) : Bool :=
  d.1.engine.isAlive (trioEnd 0 ⟨.world, [0, 1, 2]⟩ rank)

theorem trioAsks_alive {rank : Nat} (call : GroupComm.Call) (d d' : {_d : Workplace // True})
    (h : trioAlive rank d = trioAlive rank d') :
    (trioAsks rank call d).1 = (trioAsks rank call d').1 := by
  unfold trioAlive at h
  cases call with
  | gather payload datatype root =>
    exact congrArg (fun alive => (GroupComm.gather _ alive payload datatype root).andThen _) h
  | reduce payload datatype op root =>
    exact congrArg (fun alive => (GroupComm.reduce _ alive payload datatype op root).andThen _) h

theorem trioRoutine_private (rank : Nat) : (trioRoutine rank).Private trioAlive rank :=
  ⟨trioAsks_alive _, fun _ => ⟨trioAsks_alive _, fun _ => ⟨trioAsks_alive _, fun _ => trivial⟩⟩⟩

/-- The trio's desk, on which everybody runs. -/
def trioDesk : {_d : Workplace // True} := ⟨Desk.fresh trioFabric 0, trivial⟩

/-- Fourteen steps of each participant of the trio, participant 2 always first. -/
def trioSchedule : List Crew.Move :=
  (List.replicate 14 [.step 2, .step 0, .step 1]).flatten

theorem refusals_invisible_trio :
    (∀ _ : Nat, trio.Reachable) ∧ (∀ rank, (trioRoutine rank).Requests (fun _ => trio) rank) ∧
      (∀ rank, (trioRoutine rank).Private trioAlive rank) ∧
      (((crew trioRoutine trioDesk .empty 3).follow trioSchedule).shared.calls 0).length = 3 ∧
      ∃ schedule',
        let register := ((crew (fun rank => (trioRoutine rank).trim trioDesk) trioDesk .empty
          3).follow schedule').shared
        (register.calls 0).length = 2 ∧ register.answers 0 =
          [.error (.malformedPayload .int8 2), .ok (.inl (some [[10], [11], [12]]))] := by
  refine ⟨fun _ => trio_reachable, trioRoutine_requests, trioRoutine_private, by decide +kernel, ?_⟩
  obtain ⟨-, -, -, -, htrim⟩ := refusals_invisible (fun _ => trio_reachable) trioRoutine_requests
    trioDesk 3 trioSchedule
  obtain ⟨⟨schedule', -, -, hwithout⟩, -⟩ := htrim trioAlive trioRoutine_private
  refine ⟨schedule', ?_, ?_⟩
  · rw [hwithout.calls]
    decide +kernel
  · rw [hwithout.answers]
    decide +kernel

end Trio

end Routine

end ClusterView
