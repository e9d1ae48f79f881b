import ClusterView.Proofs.MixedRounds

/-!
# The pre-check and the fold

The pre-check of a reduction knows the datatype and the operation only, and the fold meets the
payloads. They agree: what passes the pre-check is folded unless there is no payload or one of
the wrong width, and then the error names the first of them. A result is a payload of the
datatype again. Behind this are the tables that name the same datatypes, and operations that
are defined whatever the operands are (`Reduction.check_eq_ok_iff`, `Datatype.width_of_scalar`).

A reduction that was accepted has passed the pre-check and brings a payload of the right width
itself. So its fold fails on what others have brought, or not at all.

## Sections
- §1: Reductions in a round
- §2: The agreement
-/

namespace ClusterView

/-! ## §1 Reductions in a round -/

/-- **A reduction in a mixed round** has passed the pre-check with a payload of the right width.
Its root folds everybody's payload. -/
theorem Item.Asks.reduce_outcome {ε α : Type} {item : Item Workplace ε α} {d : Workplace}
    {g : Group} {rank slot root : Nat} {x : GroupComm} {payload : Bytes} {datatype : Datatype}
    {op : Operation} {f : Except CommError GroupComm.Reply → Except ε α}
    (h : item.Asks d g rank (.comm (.ofGroup x) (.reduce payload datatype op root)) f root)
    (hdistinct : g.members.Nodup) (hslot : g.members[slot]? = some rank) :
    Reduction.check datatype op = .ok () ∧
      (∀ width, datatype.width? = some width → payload.length = width) ∧
      ∀ parts, ((CollectiveRequest.comm (.ofGroup x) (.reduce payload datatype op root)).offer
        d).1.outcome parts = if slot = root then
          (Reduction.fold datatype op parts).map fun result => .inr (some result)
        else .ok (.inr none) := by
  obtain ⟨y, hend, hreaches⟩ := h.reaches
  cases hreaches
  have hrank := hend.rank? hdistinct hslot
  have hoffer : ((CollectiveRequest.comm (.ofGroup x) (.reduce payload datatype op root)).offer
      d).1 = (x.reduce (d.engine.isAlive x) payload datatype op root).andThen (Except.map .inr) :=
    rfl
  rcases x.reduce_cases (d.engine.isAlive x) payload datatype op root with
    ⟨e, hrefused, -⟩ | ⟨me, hme, hcheck, hwidth, hmeets⟩
  · refine absurd ?_ (h.accepted e)
    rw [hoffer, hrefused]
    rfl
  · cases hme.symm.trans hrank
    refine ⟨hcheck, hwidth, fun parts => ?_⟩
    rw [hoffer, hmeets]
    by_cases hroot : slot = root
    · simp only [Offer.andThen, Offer.outcome, hroot, if_true]
      cases Reduction.fold datatype op parts <;> rfl
    · simp only [Offer.andThen, Offer.outcome, hroot, if_false]
      rfl

/-! ## §2 The agreement -/

namespace Reduction

/-- **The pre-check and the fold agree**, whatever the two identifiers name. The fold succeeds
exactly on some payloads of the right width, of what the pre-check lets pass, and comes to a
payload of that width. What the pre-check refuses, the fold refuses with the same error; else it
names the length of the first payload of a wrong width, or zero if there are none at all.

So a member's accepted reduction, in a round of whatever calls, fails on its root only, and only
on a payload of another member that has a different width. -/
theorem check_and_fold_agree (datatype : Datatype) (op : Operation) :
    (∀ parts : List Bytes,
      ((∃ result, fold datatype op parts = .ok result) ↔
        check datatype op = .ok () ∧ parts ≠ [] ∧
          ∀ part ∈ parts, datatype.width? = some part.length) ∧
      (∀ result, fold datatype op parts = .ok result → datatype.width? = some result.length) ∧
      (∀ e, check datatype op = .error e → fold datatype op parts = .error e) ∧
      (check datatype op = .ok () → parts = [] →
        fold datatype op parts = .error (.malformedPayload datatype 0)) ∧
      ∀ part, check datatype op = .ok () →
        parts.find? (fun part => datatype.width? ≠ some part.length) = some part →
        fold datatype op parts = .error (.malformedPayload datatype part.length)) ∧
    ∀ {ε α : Type} {before after : Agenda Workplace ε α} {item : Item Workplace ε α}
      {d : Workplace} {c : Cluster} {g : Group}, MixedRound before after item d c g →
      ∀ (schedule : List Crew.Move) (slot rank root : Nat) (x : GroupComm) (payload : Bytes)
        (f : Except CommError GroupComm.Reply → Except ε α), g.members[slot]? = some rank →
        item.Asks d g rank (.comm (.ofGroup x) (.reduce payload datatype op root)) f root →
        ∃ outcome, ((Agenda.crew (before ++ item :: after) d c.size).follow schedule).Notes rank
            (before.answers d rank).length (f outcome) ∧
          ∀ e, outcome = .error e → slot = root ∧
            ∃ other part, other ≠ slot ∧ (item.payloads d)[other]? = some part ∧
              datatype.width? ≠ some part.length ∧
              e = .malformedPayload datatype part.length := by
  constructor
  · intro parts
    refine ⟨fold_isOk_iff, fun result => width_of_fold, fun e => fold_of_check_error, ?_,
      fun part h => fold_of_find? h⟩
    rintro h rfl
    exact fold_nil h
  · intro ε α before after item d c g h schedule slot rank root x payload f hslot hasks
    obtain ⟨hcheck, hwidth, houtcome⟩ := hasks.reduce_outcome h.distinct hslot
    have hown := h.mixed.payloads h.reachable.wellFormed hslot hasks
    refine ⟨_, h.notes schedule hslot hasks, fun e hfails => ?_⟩
    rw [houtcome] at hfails
    by_cases hroot : slot = root
    · rw [if_pos hroot] at hfails
      exact ⟨hroot, fold_eq_error_elsewhere hcheck hwidth hown (map_eq_error hfails)⟩
    · rw [if_neg hroot] at hfails
      cases hfails

section Trio

open JointCall (trio trio_reachable)
open MixedRound (trioDesk trioWorld)

/-- Participant 0 reduces numbers of one byte, and the others bring it two bytes each. -/
def trioUneven : Item Workplace CommError GroupComm.Reply where
  point := ⟨0, 0⟩
  members := [0, 1, 2]
  call rank := fun d =>
    (((CollectiveRequest.comm (.ofGroup (trioWorld rank))
      (if rank = 0 then .reduce [5] .int8 .sum 0 else .gather [1, 2] .byte 0)).offer
        d).1.andThen id, d)

theorem trioUneven_asks (rank : Nat) (h : rank ∈ [0, 1, 2]) :
    trioUneven.Asks trioDesk ⟨.world, [0, 1, 2]⟩ rank (.comm (.ofGroup (trioWorld rank))
      (if rank = 0 then .reduce [5] .int8 .sum 0 else .gather [1, 2] .byte 0)) id 0 := by
  simp only [List.mem_cons, List.not_mem_nil, or_false] at h
  rcases h with rfl | rfl | rfl
  · exact ⟨⟨trioWorld 0, ⟨rfl, rfl, rfl, rfl⟩, rfl⟩, nofun, rfl⟩
  · exact ⟨⟨trioWorld 1, ⟨rfl, rfl, rfl, rfl⟩, rfl⟩, nofun, rfl⟩
  · exact ⟨⟨trioWorld 2, ⟨rfl, rfl, rfl, rfl⟩, rfl⟩, nofun, rfl⟩

theorem trioUneven_round : MixedRound [] [] trioUneven trioDesk trio ⟨.world, [0, 1, 2]⟩ where
  reachable := trio_reachable
  mixed := ⟨rfl, rfl, fun rank h => ⟨_, _, _, _, _, trioUneven_asks rank h⟩⟩
  others := .nil _ _
  point _ h := absurd h List.not_mem_nil

theorem check_and_fold_agree_uneven :
    check .int8 .sum = .ok () ∧
      fold .int8 .sum [[5], [1, 2], []] = .error (.malformedPayload .int8 2) ∧
      MixedRound [] [] trioUneven trioDesk trio ⟨.world, [0, 1, 2]⟩ ∧
      ∃ e, (((Agenda.crew [trioUneven] trioDesk trio.size).follow
          JointCall.trioSchedule).shared.notes 0)[0]? = some (.error e) ∧
        ∃ other part, other ≠ 0 ∧ (trioUneven.payloads trioDesk)[other]? = some part ∧
          e = .malformedPayload .int8 part.length := by
  obtain ⟨hfold, hround⟩ := check_and_fold_agree .int8 .sum
  refine ⟨rfl, (hfold _).2.2.2.2 [1, 2] rfl rfl, trioUneven_round, ?_⟩
  obtain ⟨outcome, ⟨-, hnoted⟩, hlate⟩ := hround trioUneven_round JointCall.trioSchedule 0 0 0
    (trioWorld 0) [5] id rfl (trioUneven_asks 0 List.mem_cons_self)
  have hended : ((Agenda.crew [trioUneven] trioDesk trio.size).follow
      JointCall.trioSchedule).results[0]? = some (some ()) := by
    decide +kernel
  have hfailed : (((Agenda.crew [trioUneven] trioDesk trio.size).follow
      JointCall.trioSchedule).shared.notes 0)[0]? = some (.error (.malformedPayload .int8 2)) := by
    decide +kernel
  have hnote := hnoted hended
  simp only [List.nil_append, id_eq, Agenda.answers, List.filter_nil, List.map_nil,
    List.length_nil] at hnote
  obtain ⟨-, other, part, hne, hother, -, he⟩ :=
    hlate _ (Option.some.inj (hnote.symm.trans hfailed))
  exact ⟨_, hfailed, other, part, hne, hother, he⟩

end Trio

end Reduction

end ClusterView
