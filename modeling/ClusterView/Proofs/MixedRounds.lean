import ClusterView.Proofs.Refusals

/-!
# Rounds of unlike calls

Nobody checks that the members of a group make the same call. In a mixed round each of them
makes a request of its own kind, with its own element type, operator and root, and the round
takes place all the same: everybody's payload comes to everybody, and each member makes of
them what its own call says.

A typed gather stays exact in such company. Its root gets values exactly if every payload
happens to be the encoding of one, and then they are the ones encoded; otherwise it gets an
error, and never a part of the list.

## Sections
- §1: A member's call
- §2: Mixed items of an agenda
- §3: Typed gathers
-/

namespace ClusterView

/-! ## §1 A member's call -/

/-- **Note** of an answer by a participant: at this place of its notes there is never anything
else, and there is this answer once the participant has ended. -/
def Crew.Notes {σ β : Type} (crew : Crew (Logbook σ β) Unit) (rank place : Nat) (answer : β) :
    Prop :=
  ((crew.shared.notes rank)[place]? = none ∨ (crew.shared.notes rank)[place]? = some answer) ∧
    (crew.results[rank]? = some (some ()) → (crew.shared.notes rank)[place]? = some answer)

namespace Item

variable {ε α ε' α' : Type} {item : Item Workplace ε α} {d : Workplace} {c : Cluster} {g : Group}
  {rank slot root : Nat} {r : CollectiveRequest ε' α'} {f : Except ε' α' → Except ε α}

/-- **Asking**: on a desk, the member's call is a request that its end of the group does not
refuse, with a root of its own. What it comes to is processed further. -/
structure Asks (item : Item Workplace ε α) (d : Workplace) (g : Group) (rank : Nat)
    (r : CollectiveRequest ε' α') (f : Except ε' α' → Except ε α) (root : Nat) : Prop where
  reaches : ∃ x : GroupComm, x.IsEnd item.point.cluster item.point.group g rank ∧
    r.Reaches d (some (x, root))
  accepted : ∀ e, (r.offer d).1 ≠ .refuse e
  call : item.call rank d = ((r.offer d).1.andThen f, d)

/-- An accepted request meets the others at the member's own slot, with its own payload. -/
theorem Asks.meets (h : item.Asks d g rank r f root) (hdistinct : g.members.Nodup)
    (hslot : g.members[slot]? = some rank) :
    ∃ payload conclude, r.payload? = some payload ∧
      (r.offer d).1 = .meet ⟨item.point, g.members.length, slot⟩ payload conclude ∧
      item.call rank d =
        (.meet ⟨item.point, g.members.length, slot⟩ payload fun parts => f (conclude parts), d) ∧
      ∀ parts e, conclude parts = .error e →
        slot = root ∧ (parts[slot]? = some payload → (r.viewed e).IsLate slot parts) := by
  obtain ⟨x, hend, hreaches⟩ := h.reaches
  have hsettles := (r.settles hreaches).2
  have hcall := h.call
  have haccepted := h.accepted
  generalize (r.offer d).1 = offer at hsettles hcall haccepted
  cases hsettles with
  | @refused e _ => exact absurd rfl (haccepted e)
  | @accepted x' root' me payload conclude htarget hown hme hlate =>
    cases htarget
    -- the member's rank in the group is its slot
    cases hme.symm.trans (hend.rank? hdistinct hslot)
    rw [hend.seat] at hcall ⊢
    exact ⟨payload, conclude, hown, rfl, hcall, hlate⟩

/-! ## §2 Mixed items of an agenda -/

/-- **Mixed item**: over a group that is registered with a cluster, every member asks for
something. -/
structure Mixed (item : Item Workplace ε α) (d : Workplace) (c : Cluster) (g : Group) : Prop where
  registered : c.groups[item.point.group]? = some g
  members : item.members = g.members
  asks : ∀ rank ∈ g.members, ∃ (ε' α' : Type) (r : CollectiveRequest ε' α')
    (f : Except ε' α' → Except ε α) (root : Nat), item.Asks d g rank r f root

theorem Mixed.admitted (h : item.Mixed d c g) (hc : c.WellFormed) : item.Admitted d := by
  have hdistinct := hc.distinct g (List.mem_of_getElem? h.registered)
  refine ⟨h.members ▸ hdistinct, fun slot rank hslot => ?_⟩
  rw [h.members] at hslot
  obtain ⟨ε', α', r, f, root, hasks⟩ := h.asks rank (List.mem_of_getElem? hslot)
  obtain ⟨payload, conclude, -, -, hcall, -⟩ := hasks.meets hdistinct hslot
  rw [h.members]
  exact ⟨payload, _, hcall⟩

/-- The payload in a slot is the one of the request there. -/
theorem Mixed.payloads (h : item.Mixed d c g) (hc : c.WellFormed)
    (hslot : g.members[slot]? = some rank) (hasks : item.Asks d g rank r f root) :
    (item.payloads d)[slot]? = r.payload? := by
  obtain ⟨payload, conclude, hown, -, hcall, -⟩ :=
    hasks.meets (hc.distinct g (List.mem_of_getElem? h.registered)) hslot
  rw [Item.payloads, List.getElem?_map, h.members, hslot, Option.map_some, hcall, hown]
  rfl

/-- **Answers in a mixed round**: each member's own conclusion from everybody's payloads. -/
theorem Mixed.answer (h : item.Mixed d c g) (hc : c.WellFormed)
    (hslot : g.members[slot]? = some rank) (hasks : item.Asks d g rank r f root) :
    item.answer d rank = f ((r.offer d).1.outcome (item.payloads d)) := by
  obtain ⟨payload, conclude, -, hoffer, hcall, -⟩ :=
    hasks.meets (hc.distinct g (List.mem_of_getElem? h.registered)) hslot
  rw [Item.answer, hcall, hoffer]
  rfl

end Item

/-- **Mixed round** of a group: a mixed item that has its turn between whatever other items of an
agenda. Those at its point have the same members, and all of them fit together. -/
structure MixedRound {ε α : Type} (before after : Agenda Workplace ε α) (item : Item Workplace ε α)
    (d : Workplace) (c : Cluster) (g : Group) : Prop where
  reachable : c.Reachable
  mixed : item.Mixed d c g
  others : (before ++ after).Fit d c.size
  point : ∀ other ∈ before ++ after, other.point = item.point → other.members = g.members

namespace MixedRound

variable {ε α ε' α' : Type} {before after : Agenda Workplace ε α} {item : Item Workplace ε α}
  {d : Workplace} {c : Cluster} {g : Group} {rank slot root : Nat}

theorem fit (h : MixedRound before after item d c g) :
    Agenda.Fit (before ++ item :: after) d c.size := by
  have hwell := h.reachable.wellFormed
  have hpoint := h.point
  rw [← h.mixed.members] at hpoint
  refine h.others.insert (h.mixed.admitted hwell) ?_ hpoint
  rw [h.mixed.members]
  exact hwell.inside g (List.mem_of_getElem? h.mixed.registered)

theorem distinct (h : MixedRound before after item d c g) : g.members.Nodup :=
  h.reachable.wellFormed.distinct g (List.mem_of_getElem? h.mixed.registered)

/-- **Notes of a mixed round**: under every schedule a member notes its own conclusion from
everybody's payloads. -/
theorem notes (h : MixedRound before after item d c g) (schedule : List Crew.Move)
    {r : CollectiveRequest ε' α'} {f : Except ε' α' → Except ε α}
    (hslot : g.members[slot]? = some rank) (hasks : item.Asks d g rank r f root) :
    ((Agenda.crew (before ++ item :: after) d c.size).follow schedule).Notes rank
      (before.answers d rank).length (f ((r.offer d).1.outcome (item.payloads d))) := by
  rw [← h.mixed.answer h.reachable.wellFormed hslot hasks]
  have hrank : rank ∈ item.members := h.mixed.members ▸ List.mem_of_getElem? hslot
  exact Agenda.follow_item h.fit schedule hrank

end MixedRound

/-! ## §3 Typed gathers -/

section Gathers

variable {ε α : Type} {item : Item Workplace ε α} {d : Workplace} {g : Group}
  {rank slot root : Nat} {source : Source} {t : ElementType} {value : t.Value}
  {f : Except ViewError (Option (List t.Value)) → Except ε α}

theorem CollectiveRequest.offer_gather {x : GroupComm}
    (hreaches : (gather source t value).Reaches d (some (x, root))) :
    ((gather source t value).offer d).1 =
      (Collective.gather Fabric.engine (.ofGroup x) t value root d.engine).1 := by
  show ((gather source t value).onFabric d d.engine).1 = _
  rw [onFabric_gather, show source.target? d = _ from hreaches]
  rfl

/-- **A typed gather is accepted** of a living member, onto a rank of the group, if the type has
a datatype. -/
theorem CollectiveRequest.gather_accepted_iff {x : GroupComm} (hrank : x.rank? = some slot)
    (hreaches : (gather source t value).Reaches d (some (x, root))) :
    (∀ e, ((gather source t value).offer d).1 ≠ .refuse e) ↔
      d.engine.isAlive x = true ∧ root < x.size ∧ (Registry.datatype? t).isSome := by
  rw [offer_gather hreaches]
  constructor
  · intro h
    obtain ⟨halive, -, hroot, datatype, hdatatype⟩ := Collective.gather_not_refused h
    exact ⟨halive, hroot, Option.isSome_iff_exists.mpr ⟨datatype, hdatatype⟩⟩
  · rintro ⟨halive, hroot, hsome⟩ e
    obtain ⟨datatype, hdatatype⟩ := Option.isSome_iff_exists.mp hsome
    rw [Collective.gather_eq_meet hdatatype halive hrank hroot]
    exact nofun

/-- **A typed gather in a mixed round** decodes everybody's payload, on the root only. -/
theorem Item.Asks.gather_outcome (h : item.Asks d g rank (.gather source t value) f root)
    (hdistinct : g.members.Nodup) (hslot : g.members[slot]? = some rank) (parts : List Bytes) :
    root < g.members.length ∧
      ((CollectiveRequest.gather source t value).offer d).1.outcome parts =
        if slot = root then (parts.mapM (Collective.decode t)).map some else .ok none := by
  obtain ⟨x, hend, hreaches⟩ := h.reaches
  have hrank := hend.rank? hdistinct hslot
  obtain ⟨halive, hroot, hsome⟩ :=
    (CollectiveRequest.gather_accepted_iff hrank hreaches).mp h.accepted
  obtain ⟨datatype, hdatatype⟩ := Option.isSome_iff_exists.mp hsome
  rw [CollectiveRequest.offer_gather hreaches,
    Collective.gather_eq_meet hdatatype halive hrank hroot]
  rw [GroupComm.size, hend.group] at hroot
  exact ⟨hroot, rfl⟩

/-- Where all members gather the same type, the payloads are the encodings of their values. -/
theorem Item.Mixed.payloads_of_gathers {c : Cluster} (h : item.Mixed d c g) (hc : c.WellFormed)
    {source : Nat → Source} {value : Nat → t.Value}
    {f : Nat → Except ViewError (Option (List t.Value)) → Except ε α}
    (hasks : ∀ rank ∈ g.members,
      item.Asks d g rank (.gather (source rank) t (value rank)) (f rank) root) :
    (g.members.map value).map (Element.encode t) = item.payloads d := by
  apply List.ext_getElem?
  intro slot
  rw [List.getElem?_map, List.getElem?_map]
  cases hslot : g.members[slot]? with
  | none =>
    rw [Item.payloads, h.members, List.getElem?_map, hslot]
    rfl
  | some rank =>
    rw [h.payloads hc hslot (hasks rank (List.mem_of_getElem? hslot))]
    rfl

end Gathers

namespace MixedRound

/-- **Typed gathers are exact in mixed rounds**. Let every member of a group make a request of
its own choosing its next collective on the group, before and after whatever other rounds. Under
every schedule everybody can be brought to its end. A member that made a typed gather gets
nothing if it is not its root. On its root it gets some values exactly if everybody's payload,
in the order of ranks, is the encoding of one of them, and an error that names the type if some
payload is no such encoding. If all members gather the same type onto the same root, then the
root alone gets the values, which are those that were sent. -/
theorem typed_gathers_exact {ε α : Type} {before after : Agenda Workplace ε α}
    {item : Item Workplace ε α} {d : Workplace} {c : Cluster} {g : Group}
    (h : MixedRound before after item d c g) (schedule : List Crew.Move) :
    let crew := (Agenda.crew (before ++ item :: after) d c.size).follow schedule
    let place := fun rank => (before.answers d rank).length
    (∃ more, (crew.follow more).hasEnded = true) ∧
      (item.payloads d).length = g.members.length ∧
      (∀ {ε' α' : Type} (slot rank : Nat) (r : CollectiveRequest ε' α')
        (f : Except ε' α' → Except ε α) (root : Nat), g.members[slot]? = some rank →
          item.Asks d g rank r f root → (item.payloads d)[slot]? = r.payload?) ∧
      (∀ (slot rank : Nat) (source : Source) (t : ElementType) (value : t.Value) (x : GroupComm)
        (root : Nat), g.members[slot]? = some rank →
          x.IsEnd item.point.cluster item.point.group g rank →
          (CollectiveRequest.gather source t value).Reaches d (some (x, root)) →
          ((∀ e, ((CollectiveRequest.gather source t value).offer d).1 ≠ .refuse e) ↔
            d.engine.isAlive x = true ∧ root < g.members.length ∧
              (Registry.datatype? t).isSome)) ∧
      (∀ (slot rank : Nat) (source : Source) (t : ElementType) (value : t.Value)
        (f : Except ViewError (Option (List t.Value)) → Except ε α) (root : Nat),
        g.members[slot]? = some rank → item.Asks d g rank (.gather source t value) f root →
          ∃ outcome, crew.Notes rank (place rank) (f outcome) ∧
            (slot ≠ root → outcome = .ok none) ∧
            (slot = root →
              (∀ values, outcome = .ok (some values) ↔
                values.map (Element.encode t) = item.payloads d) ∧
              ∀ part ∈ item.payloads d, (∀ value, Element.encode t value ≠ part) →
                outcome = .error (.payload t))) ∧
      ∀ (source : Nat → Source) (t : ElementType) (value : Nat → t.Value)
        (f : Nat → Except ViewError (Option (List t.Value)) → Except ε α) (root : Nat),
        (∀ rank ∈ g.members,
          item.Asks d g rank (.gather (source rank) t (value rank)) (f rank) root) →
        root < g.members.length ∧ ∀ slot rank, g.members[slot]? = some rank →
          crew.Notes rank (place rank)
            (f rank (.ok (if slot = root then some (g.members.map value) else none))) := by
  intro crew place
  have hwell := h.reachable.wellFormed
  have hlength : (item.payloads d).length = g.members.length := by
    rw [Item.payloads, List.length_map, h.mixed.members]
  refine ⟨Agenda.can_end h.fit schedule, hlength,
    fun slot rank r f root hslot => h.mixed.payloads hwell hslot, ?_, ?_, ?_⟩
  · intro slot rank source t value x root hslot hend hreaches
    rw [CollectiveRequest.gather_accepted_iff (hend.rank? h.distinct hslot) hreaches,
      GroupComm.size, hend.group]
    rfl
  · intro slot rank source t value f root hslot hasks
    have houtcome := (hasks.gather_outcome h.distinct hslot (item.payloads d)).2
    refine ⟨_, h.notes schedule hslot hasks, ?_, ?_⟩
    · intro hroot
      rw [houtcome, if_neg hroot]
    · intro hroot
      rw [houtcome, if_pos hroot]
      refine ⟨fun values => ?_, fun part hpart hbad => ?_⟩
      · rw [← Collective.mapM_decode_eq_ok_iff]
        cases (item.payloads d).mapM (Collective.decode t) <;> simp [Except.map]
      · rw [Collective.mapM_decode_of_not_encoding hpart hbad]
        rfl
  · intro source t value f root hasks
    have hdecoded := Collective.mapM_decode_eq_ok_iff.mpr (h.mixed.payloads_of_gathers hwell hasks)
    constructor
    · obtain ⟨rank, hrank⟩ :=
        List.exists_mem_of_ne_nil _ (hwell.inhabited g (List.mem_of_getElem? h.mixed.registered))
      obtain ⟨slot, hslot⟩ := List.mem_iff_getElem?.mp hrank
      exact ((hasks rank hrank).gather_outcome h.distinct hslot []).1
    · intro slot rank hslot
      have hask := hasks rank (List.mem_of_getElem? hslot)
      have hnotes := h.notes schedule hslot hask
      rw [(hask.gather_outcome h.distinct hslot _).2, hdecoded] at hnotes
      by_cases hroot : slot = root
      · rw [if_pos hroot] at hnotes ⊢
        exact hnotes
      · rw [if_neg hroot] at hnotes ⊢
        exact hnotes

section Trio

open JointCall (trio trioFabric trioEnd trio_reachable)

/-- The trio's desk, on which everybody runs. -/
def trioDesk : Workplace := Desk.fresh trioFabric 0

/-- A participant's end of the world of the trio. -/
def trioWorld (rank : Nat) : GroupComm := trioEnd 0 ⟨.world, [0, 1, 2]⟩ rank

/-- What participant 0 gathers truth values with. -/
def trioSource : Source := .ram (.region 0 (some ⟨0, .ofGroup (trioWorld 0)⟩))

/-- Participant 0 gathers truth values, participant 1 adds up numbers, and participant 2 gathers
bytes, each onto itself. -/
def trioMixed : Item Workplace ViewError (Option (List Bool)) where
  point := ⟨0, 0⟩
  members := [0, 1, 2]
  call rank := fun d =>
    match rank with
    | 0 => (((CollectiveRequest.gather trioSource (.scalar .bool) true).offer d).1.andThen id, d)
    | 1 => (((CollectiveRequest.comm (.ofGroup (trioWorld 1)) (.reduce [1] .int8 .sum 1)).offer
        d).1.andThen fun _ => .ok none, d)
    | _ => (((CollectiveRequest.comm (.ofGroup (trioWorld 2)) (.gather [0] .byte 2)).offer
        d).1.andThen fun _ => .ok none, d)

theorem trioMixed_asks :
    trioMixed.Asks trioDesk ⟨.world, [0, 1, 2]⟩ 0 (.gather trioSource (.scalar .bool) true) id 0 :=
  ⟨⟨trioWorld 0, ⟨rfl, rfl, rfl, rfl⟩, rfl⟩, nofun, rfl⟩

theorem trioMixed_mixed : trioMixed.Mixed trioDesk trio ⟨.world, [0, 1, 2]⟩ := by
  refine ⟨rfl, rfl, fun rank hrank => ?_⟩
  simp only [List.mem_cons, List.not_mem_nil, or_false] at hrank
  rcases hrank with rfl | rfl | rfl
  · exact ⟨_, _, _, _, _, trioMixed_asks⟩
  · exact ⟨_, _, .comm (.ofGroup (trioWorld 1)) (.reduce [1] .int8 .sum 1), fun _ => .ok none, 1,
      ⟨trioWorld 1, ⟨rfl, rfl, rfl, rfl⟩, rfl⟩, nofun, rfl⟩
  · exact ⟨_, _, .comm (.ofGroup (trioWorld 2)) (.gather [0] .byte 2), fun _ => .ok none, 2,
      ⟨trioWorld 2, ⟨rfl, rfl, rfl, rfl⟩, rfl⟩, nofun, rfl⟩

theorem trioMixed_round : MixedRound [] [] trioMixed trioDesk trio ⟨.world, [0, 1, 2]⟩ where
  reachable := trio_reachable
  mixed := trioMixed_mixed
  others := .nil _ _
  point _ h := absurd h List.not_mem_nil

/-- The numbers that the others bring happen to be truth values. -/
theorem typed_gathers_exact_trio :
    MixedRound [] [] trioMixed trioDesk trio ⟨.world, [0, 1, 2]⟩ ∧
      trioMixed.Asks trioDesk ⟨.world, [0, 1, 2]⟩ 0 (.gather trioSource (.scalar .bool) true) id 0 ∧
      (((Agenda.crew [trioMixed] trioDesk trio.size).follow
        JointCall.trioSchedule).shared.notes 0)[0]? = some (.ok (some [true, true, false])) := by
  refine ⟨trioMixed_round, trioMixed_asks, ?_⟩
  obtain ⟨-, -, -, -, hgathers, -⟩ := typed_gathers_exact trioMixed_round JointCall.trioSchedule
  obtain ⟨outcome, ⟨-, hnoted⟩, -, hroot⟩ := hgathers 0 0 _ _ _ _ _ rfl trioMixed_asks
  have hended : ((Agenda.crew [trioMixed] trioDesk trio.size).follow
      JointCall.trioSchedule).results[0]? = some (some ()) := by
    decide +kernel
  have hnote := hnoted hended
  rw [((hroot rfl).1 [true, true, false]).mpr rfl] at hnote
  -- nothing was noted before
  simp only [List.nil_append, id_eq, Agenda.answers, List.filter_nil, List.map_nil,
    List.length_nil] at hnote
  exact hnote

end Trio

end MixedRound

end ClusterView
