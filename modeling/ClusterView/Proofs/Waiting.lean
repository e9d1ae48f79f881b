import ClusterView.Proofs.Session

/-!
# Waiting at a meeting

Callers sleep for two reasons: before their deposit, until the previous round has been
picked up, and after it, until their own round is published. Both kinds of sleeper share one
place, so both have to be woken in time. In every session, no sleeper's reason to sleep is
over (`Session.Sound.barred`, `Session.Sound.parked`), and callers never block each other: if
nobody at the meeting can move, the meeting waits for somebody who has not come yet
(`Session.Sound.missing`).

## Sections
- §1: Callers that can move
- §2: Reasons to sleep
- §3: Whom a blocked meeting waits for
-/

namespace ClusterView

namespace Session

/-! ## §1 Callers that can move -/

/-- The owner of a slot is between its call and its return. -/
def Inside (s : Session) (slot : Nat) : Prop := (s.meeting.stage slot).isInside = true

/-- The owner of a slot can do something about its call by itself: what it does under the
lock, or its return, changes the session. -/
def CanMove (s : Session) (slot : Nat) : Prop :=
  s.step (.proceed slot) ≠ s ∨ s.step (.leave slot) ≠ s

/-- The owner of a slot has called, and can only wait for the others. -/
def Blocked (s : Session) (slot : Nat) : Prop := s.Inside slot ∧ ¬ s.CanMove slot

end Session

namespace Meeting

section

variable {m : Meeting} {slot : Nat}

theorem lt_of_stage_ne_outside (h : m.stage slot ≠ .outside) : slot < m.stages.length :=
  Nat.lt_of_not_le fun hle => h (stage_of_le hle)

/-- A critical section takes whoever is about to take the lock to another stage. -/
theorem stage_proceed_ne (hawake : (∃ payload, m.stage slot = .entering payload) ∨
    ∃ generation, m.stage slot = .returning generation) :
    (m.proceed slot).stage slot ≠ m.stage slot := by
  have hslot : slot < m.stages.length := by
    apply lt_of_stage_ne_outside
    rcases hawake with ⟨_, hstage⟩ | ⟨_, hstage⟩ <;> simp [hstage]
  rcases hawake with ⟨payload, hstage⟩ | ⟨generation, hstage⟩
  · simp only [proceed, hstage]
    split
    · simp [stage_place hslot]
    · rw [arrive_eq]
      split
      · have hslot' : slot < (m.deposited slot payload).publishAll.stages.length := by
          simpa [publishAll, wakeAll, deposited, place] using hslot
        simp [stage_collect hslot']
      · simp [stage_deposited hslot]
  · simp only [proceed, hstage]
    split
    · simp [stage_collect hslot]
    · simp [stage_place hslot]

end

end Meeting

namespace Session

section

variable {s : Session} {slot : Nat}

/-- Of those at the meeting, exactly the sleepers cannot move. -/
theorem blocked_iff : s.Blocked slot ↔ (s.meeting.stage slot).isAsleep = true := by
  unfold Blocked Inside CanMove
  cases hstage : s.meeting.stage slot with
  | outside => simp [Stage.isInside, Stage.isAsleep]
  | barred _ | parked _ =>
    simp [step, Meeting.proceed, Meeting.depart?, hstage, Stage.isInside, Stage.isAsleep]
  | entering _ | returning _ =>
    have hmoves : s.step (.proceed slot) ≠ s := by
      intro hsame
      have hawake : (∃ payload, s.meeting.stage slot = .entering payload) ∨
          ∃ generation, s.meeting.stage slot = .returning generation := by simp [hstage]
      exact Meeting.stage_proceed_ne hawake (congrArg (fun s => s.meeting.stage slot) hsame)
    simp [hmoves, Stage.isAsleep]
  | leaving parts =>
    have hslot : slot < s.meeting.stages.length :=
      Meeting.lt_of_stage_ne_outside (by simp [hstage])
    have hmoves : s.step (.leave slot) ≠ s := by
      intro hsame
      have hout := congrArg (fun s => s.meeting.stage slot) hsame
      simp [step, Meeting.depart?, hstage, Meeting.stage_place hslot] at hout
    simp [hmoves, Stage.isAsleep]

/-! ## §2 Reasons to sleep -/

/-- Whoever sleeps before its deposit sees a published round that somebody has still to pick
up. -/
theorem Sound.barred (hs : s.Sound) {payload : Bytes}
    (hstage : s.meeting.stage slot = .barred payload) :
    s.meeting.round.published.isSome ∧ 0 < s.meeting.round.pending := by
  have hpub := hs.alert.barred slot payload hstage
  obtain ⟨hpending, hreaders⟩ := hs.agrees.pending hpub
  exact ⟨hpub, hpending ▸ hreaders⟩

/-- Whoever is at the meeting owns a slot. -/
theorem Sound.lt_parties (hs : s.Sound) (hstage : s.meeting.stage slot ≠ .outside) :
    slot < s.meeting.parties :=
  hs.agrees.stages_length ▸ Meeting.lt_of_stage_ne_outside hstage

/-- Whoever sleeps after its deposit sees its own round, not yet published. -/
theorem Sound.parked (hs : s.Sound) {generation : Nat}
    (hstage : s.meeting.stage slot = .parked generation) :
    s.meeting.round.generation = generation ∧ s.meeting.round.published = none := by
  have hfits := hs.agrees.standing slot (hs.lt_parties (by simp [hstage]))
  rw [hstage] at hfits
  exact ⟨hfits.1.symm, hs.alert.parked slot generation hstage⟩

/-- While a round is not published, whoever is blocked has made its call for this round and
deposited. -/
theorem Sound.deposited_of_blocked (hs : s.Sound) (hpub : s.meeting.round.published = none)
    (hblocked : s.Blocked slot) :
    (s.meeting.stage slot).awaitsCopy = true ∧
      (s.minutes.calls slot).length = s.meeting.round.publications + 1 := by
  have hasleep := blocked_iff.mp hblocked
  cases hstage : s.meeting.stage slot with
  | parked generation =>
    have hfits := hs.agrees.standing slot (hs.lt_parties (by simp [hstage]))
    rw [hstage] at hfits
    rw [Round.publications_of_none hpub]
    exact ⟨rfl, hfits.2.1⟩
  | barred payload =>
    have hsome := hs.alert.barred slot payload hstage
    simp [hpub] at hsome
  | outside | entering _ | returning _ | leaving _ =>
    simp [hstage, Stage.isAsleep] at hasleep

/-! ## §3 Whom a blocked meeting waits for -/

/-- When nobody at the meeting can move, the round is not published: a published round has a
reader left, and readers do not sleep. -/
theorem Sound.unpublished (hs : s.Sound) (hblocked : ∀ slot, s.Inside slot → s.Blocked slot) :
    s.meeting.round.published = none := by
  cases hpub : s.meeting.round.published with
  | none => rfl
  | some parts =>
    have hreaders := (hs.agrees.pending (by simp [hpub])).2
    obtain ⟨reader, -, hawaits⟩ := Meeting.exists_awaitsCopy hreaders
    have hinside : s.Inside reader := by
      unfold Inside
      cases hstage : s.meeting.stage reader <;>
        simp [hstage, Stage.awaitsCopy, Stage.isInside] at hawaits ⊢
    have hasleep := blocked_iff.mp (hblocked reader hinside)
    cases hstage : s.meeting.stage reader with
    | parked generation => simp [hs.alert.parked reader generation hstage] at hpub
    | outside | entering _ | barred _ | returning _ | leaving _ =>
      simp [hstage, Stage.awaitsCopy, Stage.isAsleep] at hawaits hasleep

/-- **Missing caller**: when nobody at the meeting can move, somebody has not come who has
returned from fewer calls than anybody at the meeting has made. -/
theorem Sound.missing (hs : s.Sound) (hparties : 0 < s.meeting.parties)
    (hblocked : ∀ slot, s.Inside slot → s.Blocked slot) :
    ∃ j < s.meeting.parties, ¬ s.Inside j ∧ ∀ slot, s.Inside slot →
      (s.minutes.returns j).length < (s.minutes.calls slot).length := by
  have hpub := hs.unpublished hblocked
  have hless : s.meeting.awaiting < s.meeting.stages.length := by
    have hlt := hs.alert.arrived_lt hparties hpub
    rw [hs.agrees.arrived, hpub] at hlt
    simpa [hs.agrees.stages_length] using hlt
  obtain ⟨j, hj, hnot⟩ := Meeting.exists_not_awaitsCopy hless
  rw [hs.agrees.stages_length] at hj
  refine ⟨j, hj, fun hinside => ?_, fun slot hinside => ?_⟩
  · obtain ⟨hawaits, -⟩ := hs.deposited_of_blocked hpub (hblocked j hinside)
    simp [hawaits] at hnot
  · obtain ⟨-, hcalls⟩ := hs.deposited_of_blocked hpub (hblocked slot hinside)
    rw [hcalls]
    exact Nat.lt_succ_of_le (hs.agrees.returns_le_publications hj)

/-- **No lost wake-up and no deadlock**: under every schedule, whoever sleeps before its
deposit sees a published round that is still being picked up, whoever sleeps after it sees
its own round not yet published, a meeting where nobody can move waits for a caller that has
not come and has completed fewer calls than anybody at the meeting has begun, and the owners
of all slots are never blocked together. -/
theorem no_lost_wakeup (parties : Nat) (moves : List Move) (hparties : 0 < parties) :
    let s := (idle parties).run moves
    (∀ slot payload, s.meeting.stage slot = .barred payload →
      s.meeting.round.published.isSome ∧ 0 < s.meeting.round.pending) ∧
    (∀ slot generation, s.meeting.stage slot = .parked generation →
      s.meeting.round.generation = generation ∧ s.meeting.round.published = none) ∧
    ((∃ slot, s.Inside slot) → (∀ slot, s.Inside slot → ¬ s.CanMove slot) →
      ∃ j < parties, ¬ s.Inside j ∧ ∀ slot, s.Blocked slot →
        (s.minutes.returns j).length < (s.minutes.calls slot).length) ∧
    ∃ slot < parties, ¬ s.Blocked slot := by
  intro s
  have hs : s.Sound := (Sound.idle parties).run moves
  have hlen : s.meeting.parties = parties := parties_run _ _
  refine ⟨fun _ _ => hs.barred, fun _ _ => hs.parked, fun _ hstuck => ?_, ?_⟩
  · obtain ⟨j, hj, hout, hfewer⟩ :=
      hs.missing (hlen ▸ hparties) fun slot hinside => ⟨hinside, hstuck slot hinside⟩
    exact ⟨j, hlen ▸ hj, hout, fun slot hblocked => hfewer slot hblocked.1⟩
  · -- were all of them blocked, the missing caller would be blocked outside
    apply Classical.byContradiction
    intro hnone
    have hall : ∀ slot < parties, s.Blocked slot := fun slot hslot =>
      Classical.byContradiction fun hfree => hnone ⟨slot, hslot, hfree⟩
    have hblocked : ∀ slot, s.Inside slot → s.Blocked slot := by
      intro slot hinside
      refine hall slot (hlen ▸ hs.lt_parties fun hout => ?_)
      simp [Inside, hout, Stage.isInside] at hinside
    obtain ⟨j, hj, hout, -⟩ := hs.missing (hlen ▸ hparties) hblocked
    exact hout (hall j (hlen ▸ hj)).1

/-- A schedule of two that ends with slot 1 asleep in the second round: it waits for slot 0,
which has returned from one call only. -/
def lagging : List Move :=
  [.call 0 [7], .proceed 0, .call 1 [], .proceed 1, .leave 1, .call 1 [9], .proceed 1,
    .proceed 0, .leave 0, .wake 1, .proceed 1]

theorem no_lost_wakeup_lagging :
    0 < 2 ∧ ((idle 2).run lagging).meeting.stage 1 = .parked 1 ∧
      ((idle 2).run lagging).meeting.round.generation = 1 ∧
      ((idle 2).run lagging).meeting.round.published = none ∧
      ∃ j < 2, ¬ ((idle 2).run lagging).Inside j ∧ ∀ slot, ((idle 2).run lagging).Blocked slot →
        (((idle 2).run lagging).minutes.returns j).length <
          (((idle 2).run lagging).minutes.calls slot).length := by
  have hparties : 0 < 2 := by decide
  have hstage : ((idle 2).run lagging).meeting.stage 1 = .parked 1 := by decide
  obtain ⟨-, hparked, hmissing, -⟩ := no_lost_wakeup 2 lagging hparties
  obtain ⟨hgeneration, hpub⟩ := hparked 1 1 hstage
  refine ⟨hparties, hstage, hgeneration, hpub, ?_⟩
  refine hmissing ⟨1, by simp [Inside, hstage, Stage.isInside]⟩ fun slot hinside => ?_
  have hs := (Sound.idle 2).run lagging
  have hslot : slot < 2 := by
    refine hs.lt_parties fun hout => ?_
    simp [Inside, hout, Stage.isInside] at hinside
  have hone : slot = 1 := by
    refine (Nat.lt_succ_iff_lt_or_eq.mp hslot).resolve_left fun hlt => ?_
    rw [Nat.lt_one_iff.mp hlt] at hinside
    exact absurd hinside (by unfold Inside; decide)
  rw [hone]
  exact (blocked_iff.mpr (by rw [hstage]; rfl)).2

end

end Session

end ClusterView
