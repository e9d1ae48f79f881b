import ClusterView.Site
import ClusterView.Proofs.Folds
import ClusterView.Proofs.Groups
import ClusterView.Proofs.Populated

/-!
# Typed reductions

A typed reduction starts at a view, at one of its resource sets or at a RAM value, and ends
with a value of the element type at the root. On the way it passes the registry, the
codec of elements, the entry check, the meeting of the group, the fold, and the codec
again. Whatever collectives come before and after, and under every schedule, the root gets
the combination of everybody's values from the left, in the order of ranks.

## Sections
- §1: Reductions on the end of a group
- §2: Ways to a root
- §3: A reduction of a group
-/

namespace ClusterView

/-! ## §1 Reductions on the end of a group -/

namespace Collective

/-- A registered reduction meets the others with the caller's encoded value. On the payloads
of some values it comes to their combination, for the root only. -/
theorem reduce_of_registered {t : ElementType} {op : ReduceOp} {x : GroupComm} {f : Fabric}
    {root slot : Nat} (hregistered : Registry.isRegistered t op = true)
    (halive : f.isAlive x = true) (hrank : x.rank? = some slot) (hroot : root < x.size)
    (value : t.Value) :
    ∃ conclude, reduce Fabric.engine (.ofGroup x) t value op root f =
        (.meet (x.seat slot) (Element.encode t value) conclude, f) ∧
      ∀ values : List t.Value, values ≠ [] → conclude (values.map (Element.encode t)) =
        .ok (if slot = root then combineLeft (t.operator op) values else none) := by
  obtain ⟨s, datatype, rfl, hoperation, hkind, hcombine⟩ :=
    Registry.operation_of_registered hregistered
  -- the entry check asks for the width of the datatype, the element has that of its type
  have henter : x.enter (f.isAlive x) (Element.encode (.scalar s) value) datatype root =
      .ok slot := by
    refine GroupComm.enter_eq_ok_iff.mpr ⟨halive, hrank, hroot, fun width hwidth => ?_⟩
    rw [Datatype.width_of_scalar hkind] at hwidth
    rw [Element.length_encode]
    exact Option.some.inj hwidth
  have hcheck : Reduction.check datatype op.operation = .ok () :=
    Reduction.check_eq_ok_iff.mpr ⟨s, _, hkind, hcombine⟩
  have hmeet : x.reduce (f.isAlive x) (Element.encode (.scalar s) value) datatype op.operation
      root = .meet (x.seat slot) (Element.encode (.scalar s) value) fun parts =>
        if slot = root then (Reduction.fold datatype op.operation parts).map some
        else .ok none := by
    simp only [GroupComm.reduce, henter, bind, Except.bind, hcheck, pure, Except.pure]
  refine ⟨_, by
    simp only [reduce, hoperation, Fabric.engine, Comm.reduce, bind, StateT.bind, hmeet]
    rfl, fun values hvalues => ?_⟩
  by_cases hme : slot = root
  · -- the root alone folds, and decodes what the fold has written
    obtain ⟨first, rest, rfl⟩ := List.exists_cons_of_ne_nil hvalues
    have hfold := Reduction.fold_encode hkind hcombine first rest
    simp only [hme, if_true, hfold, Except.map, decode, Element.decode_write]
    rfl
  · simp only [hme, if_false]

/-- A reduction that is not registered is refused, by any engine, and changes nothing. -/
theorem reduce_of_not_registered {σ κ : Type} (E : Engine σ κ) (comm : κ) {t : ElementType}
    {op : ReduceOp} (h : Registry.isRegistered t op = false) (value : t.Value) (root : Nat)
    (s : σ) :
    reduce E comm t value op root s = (.refuse (Registry.refusal t op), s) := by
  simp only [reduce, Registry.operation_of_not_registered h]
  rfl

end Collective

/-! ## §2 Ways to a root -/

/-- **Way** to make a collective: on a view, on the resource set of one of its ranks, or on a
RAM value. -/
inductive Way where
  | view (v : View)
  | set (v : View) (index : Nat)
  | ram (r : Ram Comm)

namespace Way

/-- The reduction made this way, on a desk. -/
def reduce {t : ElementType} (value : t.Value) (op : ReduceOp) (d : Workplace) :
    Way → StateM Fabric (Offer ViewError (Option t.Value))
  | .view v => ViewState.reduce Fabric.engine (d.behind v) t value op
  | .set v index =>
      match ViewState.at? (d.behind v) index with
      | .error e => pure (.refuse e)
      | .ok chosen => chosen.ram.reduce Fabric.engine t value op
  | .ram r => r.reduce Fabric.engine t value op

/-- **Leading to a root**: the view spans the communicator and the root is rank zero, or the
set is the root's, or the RAM value was taken from the root's set, of a view that may be
gone by now. -/
def Leads (d : Workplace) (x : GroupComm) (root : Nat) : Way → Prop
  | .view v => root = 0 ∧ ∃ state, d.behind v = some state ∧ state.comm = .ofGroup x
  | .set v index =>
      index = root ∧ ∃ state, d.behind v = some state ∧ state.comm = .ofGroup x ∧
        state.Populated Fabric.engine
  | .ram r =>
      ∃ (state : ViewState Comm) (owned : ResourceSet Comm), state.comm = .ofGroup x ∧
        state.Populated Fabric.engine ∧ state.sets[root]? = some owned ∧ owned.ram = r

/-- **All ways are one**: they make the same reduction on the communicator. -/
theorem Leads.reduce {way : Way} {d : Workplace} {x : GroupComm} {root : Nat}
    (h : way.Leads d x root) (hroot : root < x.size) {t : ElementType} (value : t.Value)
    (op : ReduceOp) :
    way.reduce value op d = Collective.reduce Fabric.engine (.ofGroup x) t value op root := by
  -- the root's set is owned by the root, so its RAM value leads there
  have howner : ∀ {state : ViewState Comm} {owned : ResourceSet Comm},
      state.Populated Fabric.engine → state.comm = .ofGroup x → state.sets[root]? = some owned →
      owned.ram.owner? = some ⟨root, .ofGroup x⟩ := by
    intro state owned hpopulated hcomm hset
    obtain ⟨found, hfound, howner⟩ := hpopulated.owner (by rw [hcomm]; exact hroot)
    rw [hset, Option.some.injEq] at hfound
    rw [hfound, howner, hcomm]
  cases way with
  | view v =>
    obtain ⟨rfl, state, hstate, hcomm⟩ := h
    simp only [Way.reduce, ViewState.reduce, ViewState.behind, hstate, hcomm]
    rfl
  | set v index =>
    obtain ⟨rfl, state, hstate, hcomm, hpopulated⟩ := h
    obtain ⟨owned, hset, -⟩ := hpopulated.owner (by rw [hcomm]; exact hroot)
    have hat : ViewState.at? (some state) index = .ok owned := by
      simp only [ViewState.at?, ViewState.behind, bind, Except.bind, hset]
      rfl
    simp only [Way.reduce, hstate, hat, Ram.reduce, howner hpopulated hcomm hset]
  | ram r =>
    obtain ⟨state, owned, hcomm, hpopulated, hset, rfl⟩ := h
    simp only [Way.reduce, Ram.reduce, howner hpopulated hcomm hset]

end Way

/-! ## §3 A reduction of a group -/

/-- **Typed reduction** over a registered group, with each member's own value and way to make
the call. -/
structure TypedReduction (t : ElementType) where
  /-- The group's number in the cluster. -/
  number : Nat
  group : Group
  op : ReduceOp
  /-- The root's rank in the group. -/
  root : Nat
  value : Nat → t.Value
  /-- How each member makes the call. -/
  way : Nat → Way

namespace TypedReduction

variable {t : ElementType}

/-- **Ready** on a desk: the group is registered with the cluster, the root is a rank of it,
and every member has a way to the root over an end of the group that is still alive. -/
structure Ready (r : TypedReduction t) (d : Workplace) (cluster : Nat) (c : Cluster) : Prop where
  registered : c.groups[r.number]? = some r.group
  root_lt : r.root < r.group.members.length
  ways : ∀ rank ∈ r.group.members, ∃ x : GroupComm,
    x.IsEnd cluster r.number r.group rank ∧ d.engine.isAlive x = true ∧
      (r.way rank).Leads d x r.root

/-- The call of a member. -/
def call (r : TypedReduction t) (rank : Nat) :
    StateM Workplace (Offer ViewError (Option t.Value)) :=
  fun d => Desk.onEngine ((r.way rank).reduce (r.value rank) r.op d) d

/-- The call as a program. -/
def program (r : TypedReduction t) (rank : Nat) :
    Program Workplace (Except ViewError (Option t.Value)) :=
  Program.collective (r.call rank)

/-- **The combination** of all values from the left, in the order of ranks in the group. -/
def combination (r : TypedReduction t) : Option t.Value :=
  combineLeft (t.operator r.op) (r.group.members.map r.value)

/-- What the member in a slot is to get. -/
def answer (r : TypedReduction t) (slot : Nat) : Option t.Value :=
  if slot = r.root then r.combination else none

/-- The reduction as an item of an agenda, whose answers are of any type. -/
def item {α : Type} (r : TypedReduction t) (cluster : Nat) (wrap : Option t.Value → α) :
    Item Workplace ViewError α where
  point := ⟨cluster, r.number⟩
  members := r.group.members
  call rank := do return (← r.call rank).andThen (Except.map wrap)

section Ready

variable {r : TypedReduction t} {d : Workplace} {cluster : Nat} {c : Cluster}

theorem Ready.members_ne_nil (h : r.Ready d cluster c) : r.group.members ≠ [] := by
  intro hnil
  have hroot := h.root_lt
  rw [hnil] at hroot
  exact Nat.not_lt_zero _ hroot

theorem Ready.combination_isSome (h : r.Ready d cluster c) : r.combination.isSome :=
  combineLeft_isSome _ (mt List.map_eq_nil_iff.mp h.members_ne_nil)

/-- A member's call is the reduction on its end of the group. -/
theorem Ready.call_eq (h : r.Ready d cluster c) {rank : Nat} (hrank : rank ∈ r.group.members) :
    ∃ x : GroupComm, x.IsEnd cluster r.number r.group rank ∧ d.engine.isAlive x = true ∧
      r.root < x.size ∧ r.call rank d = Desk.onEngine
        (Collective.reduce Fabric.engine (.ofGroup x) t (r.value rank) r.op r.root) d := by
  obtain ⟨x, hend, halive, hleads⟩ := h.ways rank hrank
  have hroot : r.root < x.size := by
    rw [GroupComm.size, hend.group]
    exact h.root_lt
  exact ⟨x, hend, halive, hroot, by rw [call, hleads.reduce hroot]⟩

/-- A registered reduction meets at the member's slot with its encoded value, and leaves the
desk alone. -/
theorem Ready.call_registered (h : r.Ready d cluster c) (hc : c.WellFormed)
    (hregistered : Registry.isRegistered t r.op = true) {slot rank : Nat}
    (hslot : r.group.members[slot]? = some rank) :
    ∃ conclude, r.call rank d =
        (.meet ⟨⟨cluster, r.number⟩, r.group.members.length, slot⟩
          (Element.encode t (r.value rank)) conclude, d) ∧
      conclude (r.group.members.map fun rank => Element.encode t (r.value rank)) =
        .ok (r.answer slot) := by
  obtain ⟨x, hend, halive, hroot, hcall⟩ := h.call_eq (List.mem_of_getElem? hslot)
  have hrank := hend.rank? (hc.distinct _ (List.mem_of_getElem? h.registered)) hslot
  obtain ⟨conclude, hreduce, hconclude⟩ :=
    Collective.reduce_of_registered hregistered halive hrank hroot (r.value rank)
  refine ⟨conclude, ?_, ?_⟩
  · rw [hcall, Desk.onEngine, hreduce, hend.seat]
  · have hvalues := hconclude (r.group.members.map r.value)
      (mt List.map_eq_nil_iff.mp h.members_ne_nil)
    rw [List.map_map] at hvalues
    exact hvalues

/-- An operator that is not registered is refused at once, and the desk stays as it is. -/
theorem Ready.call_not_registered (h : r.Ready d cluster c)
    (hregistered : Registry.isRegistered t r.op = false) {rank : Nat}
    (hrank : rank ∈ r.group.members) :
    r.call rank d = (.answer (.error (Registry.refusal t r.op)), d) := by
  obtain ⟨x, -, -, -, hcall⟩ := h.call_eq hrank
  rw [hcall, Desk.onEngine, Collective.reduce_of_not_registered _ _ hregistered]
  rfl

variable {α : Type} (wrap : Option t.Value → α)

theorem Ready.item_call (h : r.Ready d cluster c) (hc : c.WellFormed)
    (hregistered : Registry.isRegistered t r.op = true) {slot rank : Nat}
    (hslot : r.group.members[slot]? = some rank) :
    ∃ conclude, (r.item cluster wrap).call rank d =
        (.meet ⟨⟨cluster, r.number⟩, r.group.members.length, slot⟩
          (Element.encode t (r.value rank)) conclude, d) ∧
      conclude (r.group.members.map fun rank => Element.encode t (r.value rank)) =
        .ok (wrap (r.answer slot)) := by
  obtain ⟨conclude, hcall, hanswer⟩ := h.call_registered hc hregistered hslot
  refine ⟨fun parts => (conclude parts).map wrap, ?_, ?_⟩
  · simp only [item, bind, StateT.bind, hcall]
    rfl
  · simp only [hanswer, Except.map]

theorem Ready.admitted (h : r.Ready d cluster c) (hc : c.WellFormed)
    (hregistered : Registry.isRegistered t r.op = true) :
    (r.item cluster wrap).Admitted d := by
  refine ⟨hc.distinct _ (List.mem_of_getElem? h.registered), fun slot rank hslot => ?_⟩
  obtain ⟨conclude, hcall, -⟩ := h.item_call wrap hc hregistered hslot
  exact ⟨_, conclude, hcall⟩

/-- The serial answer of the member in a slot. -/
theorem Ready.item_answer (h : r.Ready d cluster c) (hc : c.WellFormed)
    (hregistered : Registry.isRegistered t r.op = true) {slot rank : Nat}
    (hslot : r.group.members[slot]? = some rank) :
    (r.item cluster wrap).answer d rank = .ok (wrap (r.answer slot)) := by
  obtain ⟨conclude, hcall, hanswer⟩ := h.item_call wrap hc hregistered hslot
  have hpayloads : (r.item cluster wrap).payloads d =
      r.group.members.map fun rank => Element.encode t (r.value rank) := by
    apply List.map_congr_left
    intro other hother
    obtain ⟨i, hi⟩ := List.mem_iff_getElem?.mp hother
    obtain ⟨_, hcall', -⟩ := h.item_call wrap hc hregistered hi
    rw [hcall']
    rfl
  rw [Item.answer, hcall, hpayloads]
  exact hanswer

/-- The reduction fits in where its point always has the group's members. -/
theorem Ready.fit (h : r.Ready d cluster c) (hc : c.WellFormed)
    (hregistered : Registry.isRegistered t r.op = true)
    {before after : Agenda Workplace ViewError α} (hfit : (before ++ after).Fit d c.size)
    (hpoint : ∀ other ∈ before ++ after, other.point = ⟨cluster, r.number⟩ →
      other.members = r.group.members) :
    Agenda.Fit (before ++ r.item cluster wrap :: after) d c.size := by
  exact hfit.insert (h.admitted wrap hc hregistered)
    (hc.inside _ (List.mem_of_getElem? h.registered)) hpoint

end Ready

/-- **Typed reduction, end to end**: let every member of a group make a typed reduction its
next collective on the group, in whatever way, before and after whatever other collectives.
If the operator is registered for the element type, then under every schedule everybody can
be brought to its end, and the only answer that a member ever notes for the reduction is the
combination of all values from the left for the root, and nothing for anybody else. If it is
not, then every member is refused in one step that takes it to no meeting. -/
theorem end_to_end {r : TypedReduction t} {d : Workplace} {cluster : Nat} {c : Cluster}
    (hc : c.Reachable) (hready : r.Ready d cluster c) {α : Type} (wrap : Option t.Value → α)
    {before after : Agenda Workplace ViewError α} (hfit : (before ++ after).Fit d c.size)
    (hpoint : ∀ other ∈ before ++ after, other.point = ⟨cluster, r.number⟩ →
      other.members = r.group.members)
    (schedule : List Crew.Move) :
    let crew := (Agenda.crew (before ++ r.item cluster wrap :: after) d c.size).follow schedule
    (Registry.isRegistered t r.op = true →
      r.combination.isSome ∧ (∃ more, (crew.follow more).hasEnded = true) ∧
        ∀ slot rank, r.group.members[slot]? = some rank →
          let note := (crew.shared.notes rank)[(before.answers d rank).length]?
          (note = none ∨ note = some (.ok (wrap (r.answer slot)))) ∧
            (crew.results[rank]? = some (some ()) → note = some (.ok (wrap (r.answer slot))))) ∧
      (Registry.isRegistered t r.op = false → ∀ rank ∈ r.group.members, ∀ hall,
        (r.program rank).step? d hall =
          some (.done (.error (Registry.refusal t r.op)), d, hall)) := by
  intro crew
  have hwell := hc.wellFormed
  constructor
  · intro hregistered
    have hall := hready.fit wrap hwell hregistered hfit hpoint
    refine ⟨hready.combination_isSome, Agenda.can_end hall schedule, fun slot rank hslot => ?_⟩
    rw [← hready.item_answer wrap hwell hregistered hslot]
    exact Agenda.follow_item hall schedule (List.mem_of_getElem? hslot)
  · intro hregistered rank hrank hall
    have hcall := hready.call_not_registered hregistered hrank
    simp only [program, Program.collective, Program.atomically, Program.bind, Program.step?,
      hcall, Offer.toProgram]

section Trio

open JointCall (trio trioFabric trioEnd trio_reachable)

/-- The trio's workplace, with a view of the world for each participant and a view of their
group for participants 0 and 2. -/
def trioDesk : Workplace :=
  [(0, "all", .world), (1, "all", .world), (2, "all", .world), (0, "two", ⟨2⟩),
      (2, "two", ⟨2⟩)].foldl
    (fun d (rank, name, handle) =>
      (Desk.openView Fabric.engine ⟨rank, name⟩ rank [] handle d).2)
    (Desk.fresh trioFabric 0)

/-- Everybody's reduction to the greatest value, on a view. -/
def trioMax : TypedReduction (.scalar (.signed .w8)) where
  number := 0
  group := ⟨.world, [0, 1, 2]⟩
  op := .max
  root := 0
  value rank := BitVec.ofInt 8 (3 - rank)
  way rank := .view (.alias rank)

/-- The sum of 100 and 100 in the group, on a resource set and on a RAM value of it. -/
def trioSum : TypedReduction (.scalar (.signed .w8)) where
  number := 1
  group := ⟨⟨2⟩, [0, 2]⟩
  op := .sum
  root := 1
  value _ := 100
  way rank := if rank = 0 then .set (.alias 3) 1
    else .ram (.region (trio.config.memoryOf 2) (some ⟨1, .ofGroup (trioEnd 1 ⟨⟨2⟩, [0, 2]⟩ 2)⟩))

theorem trioMax_ready : trioMax.Ready trioDesk 0 trio := by
  refine ⟨rfl, by decide, fun rank hrank => ⟨trioEnd 0 ⟨.world, [0, 1, 2]⟩ rank,
    ⟨rfl, rfl, rfl, rfl⟩, ?_, rfl, ?_⟩⟩
  · revert rank
    decide +kernel
  · simp only [trioMax, List.mem_cons, List.not_mem_nil, or_false] at hrank
    rcases hrank with rfl | rfl | rfl
    · exact ⟨(trioDesk.behind (.alias 0)).get rfl, rfl, rfl⟩
    · exact ⟨(trioDesk.behind (.alias 1)).get rfl, rfl, rfl⟩
    · exact ⟨(trioDesk.behind (.alias 2)).get rfl, rfl, rfl⟩

theorem trioSum_ready : trioSum.Ready trioDesk 0 trio := by
  have hmemory : (trio.config.memoryOf 0 :: [trio.config.memoryOf 2]).length = 2 := rfl
  refine ⟨rfl, by decide, fun rank hrank => ⟨trioEnd 1 ⟨⟨2⟩, [0, 2]⟩ rank,
    ⟨rfl, rfl, rfl, rfl⟩, ?_, ?_⟩⟩
  · revert rank
    decide +kernel
  · simp only [trioSum, List.mem_cons, List.not_mem_nil, or_false] at hrank
    rcases hrank with rfl | rfl
    · exact ⟨rfl, (trioDesk.behind (.alias 3)).get rfl, rfl, rfl, _, hmemory, rfl⟩
    · exact ⟨(trioDesk.behind (.alias 4)).get rfl, _, rfl, ⟨_, hmemory, rfl⟩, rfl, rfl⟩

/-- What comes before the sum. -/
def trioBefore : Agenda Workplace ViewError (Option (ElementType.scalar (.signed .w8)).Value) :=
  [trioMax.item 0 id]

theorem trioBefore_fit : (trioBefore ++ []).Fit trioDesk trio.size := by
  show Agenda.Fit ([] ++ trioMax.item 0 id :: []) trioDesk trio.size
  apply trioMax_ready.fit id trio_reachable.wellFormed rfl
  · exact .nil _ _
  · exact fun _ h => absurd h List.not_mem_nil

theorem end_to_end_trio :
    trio.Reachable ∧ trioSum.Ready trioDesk 0 trio ∧ (trioBefore ++ []).Fit trioDesk trio.size ∧
      (∀ other ∈ trioBefore ++ [], other.point = ⟨0, 1⟩ → other.members = [0, 2]) ∧
      Registry.isRegistered (.scalar (.signed .w8)) .sum = true ∧
      trioSum.answer 1 = some (-56) ∧
      (((Agenda.crew (trioBefore ++ trioSum.item 0 id :: []) trioDesk trio.size).follow
        JointCall.trioSchedule).shared.notes 2)[1]? = some (.ok (trioSum.answer 1)) := by
  have hpoint : ∀ other ∈ trioBefore ++ [], other.point = ⟨0, 1⟩ → other.members = [0, 2] := by
    intro other hother hsame
    rw [List.mem_singleton.mp hother] at hsame
    cases hsame
  have hanswer : trioSum.answer 1 = some (-56) := by
    decide +kernel
  have hplace : (trioBefore.answers trioDesk 2).length = 1 := rfl
  have hended : ((Agenda.crew (trioBefore ++ trioSum.item 0 id :: []) trioDesk
      trio.size).follow JointCall.trioSchedule).results[2]? = some (some ()) := by
    decide +kernel
  obtain ⟨-, -, hnotes⟩ := (end_to_end trio_reachable trioSum_ready id trioBefore_fit hpoint
    JointCall.trioSchedule).1 rfl
  have hnote := (hnotes 1 2 rfl).2 hended
  simp only [hplace, id_eq] at hnote
  exact ⟨trio_reachable, trioSum_ready, trioBefore_fit, hpoint, rfl, hanswer, hnote⟩

end Trio

end TypedReduction

end ClusterView
