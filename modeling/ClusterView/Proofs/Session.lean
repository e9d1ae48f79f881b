import ClusterView.Rendezvous
import Mathlib.Logic.Function.Basic

/-!
# Sessions of a meeting

A session is a meeting together with its minutes: which payloads the owner of each slot
has called with, and which copies it has taken along. The moves of a session are those of
single callers, one critical section each, and a schedule is any list of moves.

The minutes and the meeting agree at all times (`Meeting.Agrees`): the stage of every
caller says how far its calls and its returns have got, and the round holds exactly the
payloads that belong to it. No caller sleeps through a change it waits for
(`Meeting.Alert`). Round agreement follows: whoever returns from its call number `k` has
everybody's payload number `k`.

## Sections
- §1: Stages of a meeting
- §2: Minutes and sessions
- §3: What the minutes say about a meeting
- §4: Publishing and picking up
- §5: Single moves
- §6: Whole schedules
-/

namespace ClusterView

/-! ## §1 Stages of a meeting -/

namespace Stage

/-- Has the caller deposited without having picked up yet? -/
def awaitsCopy : Stage → Bool
  | .returning _ | .parked _ => true
  | _ => false

@[simp] theorem awaitsCopy_woken (s : Stage) : s.woken.awaitsCopy = s.awaitsCopy := by
  cases s <;> rfl

@[simp] theorem woken_woken (s : Stage) : s.woken.woken = s.woken := by
  cases s <;> rfl

@[simp] theorem isAsleep_woken (s : Stage) : s.woken.isAsleep = false := by
  cases s <;> rfl

end Stage

namespace Meeting

/-- Number of callers that have deposited without having picked up yet. -/
def awaiting (m : Meeting) : Nat := m.stages.countP Stage.awaitsCopy

@[simp] theorem parties_place (m : Meeting) (slot : Nat) (s : Stage) :
    (m.place slot s).parties = m.parties := rfl

@[simp] theorem round_place (m : Meeting) (slot : Nat) (s : Stage) :
    (m.place slot s).round = m.round := rfl

@[simp] theorem length_stages_place (m : Meeting) (slot : Nat) (s : Stage) :
    (m.place slot s).stages.length = m.stages.length := by
  simp [place]

theorem place_of_le {m : Meeting} {slot : Nat} (h : m.stages.length ≤ slot) (s : Stage) :
    m.place slot s = m := by
  simp [place, List.set_eq_of_length_le h]

theorem stage_of_le {m : Meeting} {slot : Nat} (h : m.stages.length ≤ slot) :
    m.stage slot = .outside := by
  simp [stage, h]

theorem stage_place {m : Meeting} {slot : Nat} (h : slot < m.stages.length) (s : Stage)
    (j : Nat) : (m.place slot s).stage j = if j = slot then s else m.stage j := by
  simp only [stage, place, List.getD_eq_getElem?_getD, List.getElem?_set]
  by_cases hj : slot = j
  · subst hj
    simp [h]
  · simp [hj, Ne.symm hj]

theorem stage_place_of_ne (m : Meeting) {slot j : Nat} (hj : j ≠ slot) (s : Stage) :
    (m.place slot s).stage j = m.stage j := by
  simp [stage, place, Ne.symm hj]

@[simp] theorem stage_idle (parties slot : Nat) : (idle parties).stage slot = .outside := by
  by_cases hslot : slot < parties <;> simp [idle, stage, hslot]

@[simp] theorem stage_wakeAll (m : Meeting) (j : Nat) :
    m.wakeAll.stage j = (m.stage j).woken := by
  simp only [stage, wakeAll, List.getD_eq_getElem?_getD, List.getElem?_map]
  cases m.stages[j]? <;> rfl

/-- A waking leaves a stage as it is, or wakes it. -/
theorem stage_wake (m : Meeting) (slot j : Nat) :
    (m.wake slot).stage j = m.stage j ∨ (m.wake slot).stage j = (m.stage j).woken := by
  by_cases hj : j = slot
  · subst hj
    by_cases hlt : j < m.stages.length
    · exact Or.inr (by rw [wake, stage_place hlt, if_pos rfl])
    · exact Or.inl (by rw [wake, place_of_le (Nat.le_of_not_lt hlt)])
  · exact Or.inl (stage_place_of_ne _ hj _)

@[simp] theorem awaiting_wakeAll (m : Meeting) : m.wakeAll.awaiting = m.awaiting := by
  have hpred : Stage.awaitsCopy ∘ Stage.woken = Stage.awaitsCopy :=
    funext Stage.awaitsCopy_woken
  simp [awaiting, wakeAll, List.countP_map, hpred]

/-- Moving one caller changes the number of awaiting callers by that one caller. -/
theorem awaiting_place {m : Meeting} {slot : Nat} (h : slot < m.stages.length) (s : Stage) :
    (m.place slot s).awaiting + (if (m.stage slot).awaitsCopy then 1 else 0) =
      m.awaiting + if s.awaitsCopy then 1 else 0 := by
  have hstage : m.stage slot = m.stages[slot] := by simp [stage, h]
  have hle : (if (m.stages[slot]).awaitsCopy then 1 else 0) ≤ m.awaiting := by
    split
    · exact List.countP_pos_iff.mpr ⟨_, List.getElem_mem h, by assumption⟩
    · exact Nat.zero_le _
  simp only [awaiting, place, hstage] at hle ⊢
  rw [List.countP_set h]
  omega

theorem awaitsCopy_of_awaiting_eq {m : Meeting} (h : m.awaiting = m.stages.length)
    {slot : Nat} (hslot : slot < m.stages.length) : (m.stage slot).awaitsCopy = true := by
  have hall := List.countP_eq_length.mp h
  simpa [stage, hslot] using hall _ (List.getElem_mem hslot)

theorem exists_awaitsCopy {m : Meeting} (h : 0 < m.awaiting) :
    ∃ slot < m.stages.length, (m.stage slot).awaitsCopy = true := by
  obtain ⟨stage, hmem, hawaits⟩ := List.countP_pos_iff.mp h
  obtain ⟨slot, hslot, rfl⟩ := List.mem_iff_getElem.mp hmem
  exact ⟨slot, hslot, by simpa [Meeting.stage, hslot] using hawaits⟩

theorem exists_not_awaitsCopy {m : Meeting} (h : m.awaiting < m.stages.length) :
    ∃ slot < m.stages.length, (m.stage slot).awaitsCopy = false := by
  apply Classical.byContradiction
  intro hall
  refine Nat.ne_of_lt h (List.countP_eq_length.mpr fun stage hmem => ?_)
  obtain ⟨slot, hslot, rfl⟩ := List.mem_iff_getElem.mp hmem
  cases hawaits : (m.stages[slot]).awaitsCopy with
  | true => rfl
  | false => exact absurd ⟨slot, hslot, by simpa [Meeting.stage, hslot] using hawaits⟩ hall

theorem awaitsCopy_of_awaiting_zero {m : Meeting} (h : m.awaiting = 0) {slot : Nat}
    (hslot : slot < m.stages.length) : (m.stage slot).awaitsCopy = false := by
  have hall := List.countP_eq_zero.mp h
  simpa [stage, hslot] using hall _ (List.getElem_mem hslot)

end Meeting

/-! ## §2 Minutes and sessions -/

/-- **Minutes** of a meeting: what the owner of each slot has done so far, oldest first. -/
structure Minutes where
  /-- The payloads that each slot's owner has called with. -/
  calls : Nat → List Bytes
  /-- The copies that each slot's owner has returned with. -/
  returns : Nat → List (List Bytes)

namespace Minutes

/-- Nothing has happened yet. -/
def blank : Minutes := ⟨fun _ => [], fun _ => []⟩

/-- Note a call. -/
def recordCall (h : Minutes) (slot : Nat) (payload : Bytes) : Minutes :=
  { h with calls := Function.update h.calls slot (h.calls slot ++ [payload]) }

/-- Note a return. -/
def recordReturn (h : Minutes) (slot : Nat) (parts : List Bytes) : Minutes :=
  { h with returns := Function.update h.returns slot (h.returns slot ++ [parts]) }

/-- The payloads of everybody's call with a number, in slot order. -/
def payloads (h : Minutes) (parties number : Nat) : List Bytes :=
  (List.range parties).map fun slot => (h.calls slot).getD number []

end Minutes

/-- **Session**: a meeting and its minutes. -/
structure Session where
  meeting : Meeting
  minutes : Minutes

/-- **Move** of the owner of a slot: come to the meeting with a payload, take the lock and
keep it for one critical section, be woken, or return with a copy. -/
inductive Move where
  | call (slot : Nat) (payload : Bytes)
  | proceed (slot : Nat)
  | wake (slot : Nat)
  | leave (slot : Nat)
deriving DecidableEq, Repr

namespace Session

/-- A session before anybody has come. -/
def idle (parties : Nat) : Session := ⟨Meeting.idle parties, Minutes.blank⟩

/-- **One move**. A caller comes only if it is outside and owns a slot; a move that its
caller cannot make changes nothing. -/
def step (s : Session) : Move → Session
  | .call slot payload =>
      if slot < s.meeting.parties ∧ s.meeting.stage slot = .outside then
        ⟨s.meeting.call slot payload, s.minutes.recordCall slot payload⟩
      else s
  | .proceed slot => { s with meeting := s.meeting.proceed slot }
  | .wake slot => { s with meeting := s.meeting.wake slot }
  | .leave slot =>
      match s.meeting.depart? slot with
      | some (parts, m) => ⟨m, s.minutes.recordReturn slot parts⟩
      | none => s

/-- **Schedule**: one move after the other, in any order of the callers. -/
def run (s : Session) (moves : List Move) : Session := moves.foldl step s

end Session

/-! ## §3 What the minutes say about a meeting -/

/-- Number of rounds that have been published, the one being picked up included. -/
def Round.publications (r : Round) : Nat := r.generation + if r.published.isSome then 1 else 0

/-- **Standing** of a slot's owner: how many calls and returns its stage allows. A caller
before its deposit has picked up every round published so far; one after its deposit is in
the current round. -/
def Minutes.Fits (h : Minutes) (parties : Nat) (r : Round) (slot : Nat) : Stage → Prop
  | .outside =>
      (h.calls slot).length = r.publications ∧ (h.returns slot).length = r.publications
  | .entering payload | .barred payload =>
      (h.calls slot).length = r.publications + 1 ∧ (h.returns slot).length = r.publications ∧
        (h.calls slot)[r.publications]? = some payload
  | .returning generation | .parked generation =>
      generation = r.generation ∧ (h.calls slot).length = r.generation + 1 ∧
        (h.returns slot).length = r.generation
  | .leaving parts =>
      (h.calls slot).length = r.publications ∧
        (h.returns slot).length + 1 = r.publications ∧
        parts = h.payloads parties (h.returns slot).length

namespace Meeting

/-- **Agreement** of a meeting with its minutes. -/
structure Agrees (m : Meeting) (h : Minutes) : Prop where
  stages_length : m.stages.length = m.parties
  slots_length : m.round.slots.length = m.parties
  /-- Everybody's stage fits its calls and returns. -/
  standing : ∀ slot < m.parties, h.Fits m.parties m.round slot (m.stage slot)
  /-- While a round fills, a slot holds the payload of its owner's current call, from the
  deposit on. -/
  filled : ∀ slot < m.parties, m.round.slots[slot]? =
    some (if m.round.published = none ∧ (m.stage slot).awaitsCopy then
      (h.calls slot)[m.round.generation]? else none)
  /-- The arrivals are the deposits that have not been published. -/
  arrived : m.round.arrived = if m.round.published.isSome then 0 else m.awaiting
  /-- A published round has a reader left, and counts its readers. -/
  pending : m.round.published.isSome → m.round.pending = m.awaiting ∧ 0 < m.awaiting
  /-- A published round holds the payloads of the calls with its number. -/
  copy : ∀ parts, m.round.published = some parts →
    parts = h.payloads m.parties m.round.generation
  /-- So does every copy that was taken along. -/
  returned : ∀ slot < m.parties, ∀ number parts,
    (h.returns slot)[number]? = some parts → parts = h.payloads m.parties number

/-- **Alertness**: nobody sleeps through the change it waits for, and a round that everybody
has deposited in has been published. -/
structure Alert (m : Meeting) : Prop where
  barred : ∀ slot payload, m.stage slot = .barred payload → m.round.published.isSome
  parked : ∀ slot generation, m.stage slot = .parked generation → m.round.published = none
  arrived_lt : 0 < m.parties → m.round.published = none → m.round.arrived < m.parties

end Meeting

namespace Minutes

@[simp] theorem calls_recordCall_self (h : Minutes) (slot : Nat) (payload : Bytes) :
    (h.recordCall slot payload).calls slot = h.calls slot ++ [payload] := by
  simp [recordCall]

@[simp] theorem calls_recordCall_of_ne (h : Minutes) {slot j : Nat} (hj : j ≠ slot)
    (payload : Bytes) : (h.recordCall slot payload).calls j = h.calls j := by
  simp [recordCall, hj]

@[simp] theorem returns_recordReturn_self (h : Minutes) (slot : Nat) (parts : List Bytes) :
    (h.recordReturn slot parts).returns slot = h.returns slot ++ [parts] := by
  simp [recordReturn]

@[simp] theorem returns_recordReturn_of_ne (h : Minutes) {slot j : Nat} (hj : j ≠ slot)
    (parts : List Bytes) : (h.recordReturn slot parts).returns j = h.returns j := by
  simp [recordReturn, hj]

@[simp] theorem length_payloads (h : Minutes) (parties number : Nat) :
    (h.payloads parties number).length = parties := by
  simp [payloads]

theorem getElem?_payloads (h : Minutes) {parties slot : Nat} (hslot : slot < parties)
    (number : Nat) :
    (h.payloads parties number)[slot]? = some ((h.calls slot).getD number []) := by
  simp [payloads, List.getElem?_range hslot]

/-- A new call leaves the payloads of earlier calls as they are. -/
theorem payloads_recordCall (h : Minutes) (parties : Nat) {slot number : Nat}
    (hnumber : number < (h.calls slot).length) (payload : Bytes) :
    (h.recordCall slot payload).payloads parties number = h.payloads parties number := by
  refine List.map_congr_left fun j _ => ?_
  by_cases hj : j = slot
  · subst hj
    simp [List.getElem?_append_left hnumber]
  · simp [hj]

/-- The standing of a caller depends on the round's generation and publication only. -/
theorem fits_congr {h : Minutes} {parties slot : Nat} {r r' : Round} {s : Stage}
    (hgen : r'.generation = r.generation) (hpub : r'.published = r.published) :
    h.Fits parties r' slot s ↔ h.Fits parties r slot s := by
  cases s <;> simp [Fits, Round.publications, hgen, hpub]

/-- Before its deposit and after its pick-up a caller only sees how many rounds were
published. -/
theorem fits_congr_of_not_awaits {h : Minutes} {parties slot : Nat} {r r' : Round} {s : Stage}
    (hs : s.awaitsCopy = false) (hpub : r'.publications = r.publications) :
    h.Fits parties r' slot s ↔ h.Fits parties r slot s := by
  cases s <;> simp_all [Fits, Stage.awaitsCopy]

@[simp] theorem fits_woken {h : Minutes} {parties slot : Nat} {r : Round} {s : Stage} :
    h.Fits parties r slot s.woken ↔ h.Fits parties r slot s := by
  cases s <;> rfl

end Minutes

namespace Round

theorem publications_of_none {r : Round} (h : r.published = none) :
    r.publications = r.generation := by
  simp [publications, h]

theorem publications_of_isSome {r : Round} (h : r.published.isSome) :
    r.publications = r.generation + 1 := by
  simp [publications, h]

end Round

namespace Meeting

section Agreement

variable {m : Meeting} {h : Minutes} {slot : Nat}

/-- Everybody has made a call for every round that was published. -/
theorem Agrees.publications_le_calls (hm : m.Agrees h) (hslot : slot < m.parties) :
    m.round.publications ≤ (h.calls slot).length := by
  have hfits := hm.standing slot hslot
  have hle : m.round.publications ≤ m.round.generation + 1 := by
    unfold Round.publications
    split <;> omega
  cases hs : m.stage slot <;> simp only [hs, Minutes.Fits] at hfits <;> omega

/-- Nobody has returned more often than rounds were published. -/
theorem Agrees.returns_le_publications (hm : m.Agrees h) (hslot : slot < m.parties) :
    (h.returns slot).length ≤ m.round.publications := by
  have hfits := hm.standing slot hslot
  have hle : m.round.generation ≤ m.round.publications := Nat.le_add_right _ _
  cases hs : m.stage slot <;> simp only [hs, Minutes.Fits] at hfits <;> omega

/-- Whoever waits for a copy has returned from all rounds before the current one. -/
theorem Agrees.returns_of_awaits (hm : m.Agrees h) (hslot : slot < m.parties)
    (hawaits : (m.stage slot).awaitsCopy = true) :
    (h.returns slot).length = m.round.generation := by
  have hfits := hm.standing slot hslot
  cases hstage : m.stage slot with
  | returning _ | parked _ =>
    rw [hstage] at hfits
    exact hfits.2.2
  | outside | entering _ | barred _ | leaving _ =>
    rw [hstage] at hawaits
    cases hawaits

/-- Two meetings with the same callers waiting for a copy have the same number of them. -/
theorem awaiting_congr {m' : Meeting} (hlen : m'.stages.length = m.stages.length)
    (hawaits : ∀ j < m.stages.length, (m'.stage j).awaitsCopy = (m.stage j).awaitsCopy) :
    m'.awaiting = m.awaiting := by
  -- counted over the stages' answers instead of the stages
  have hmap : m'.stages.map Stage.awaitsCopy = m.stages.map Stage.awaitsCopy := by
    refine List.ext_getElem (by simp [hlen]) fun j hj' hj => ?_
    have hj' : j < m'.stages.length := by simpa using hj'
    have hj : j < m.stages.length := by simpa using hj
    simpa [stage, hj, hj'] using hawaits j hj
  have hcount : ∀ l : List Stage, l.countP Stage.awaitsCopy =
      (l.map Stage.awaitsCopy).countP id := fun l => by simp [List.countP_map]
  rw [awaiting, awaiting, hcount, hcount, hmap]

/-- A change of stages alone keeps the agreement if every new stage fits and nobody begins
or ends to wait for a copy. -/
theorem Agrees.of_stages {m' : Meeting} (hm : m.Agrees h) (hparties : m'.parties = m.parties)
    (hround : m'.round = m.round) (hlen : m'.stages.length = m.stages.length)
    (hfits : ∀ j < m.parties, h.Fits m.parties m.round j (m'.stage j))
    (hawaits : ∀ j < m.parties, (m'.stage j).awaitsCopy = (m.stage j).awaitsCopy) :
    m'.Agrees h := by
  have hcount : m'.awaiting = m.awaiting :=
    awaiting_congr hlen fun j hj => hawaits j (hm.stages_length ▸ hj)
  constructor
  case stages_length => rw [hlen, hparties, hm.stages_length]
  case slots_length => rw [hround, hparties, hm.slots_length]
  case standing => simpa only [hparties, hround] using hfits
  case filled =>
    intro j hj
    rw [hparties] at hj
    rw [hround, hawaits j hj]
    exact hm.filled j hj
  case arrived => rw [hround, hcount, hm.arrived]
  case pending => simpa only [hround, hcount] using hm.pending
  case copy => simpa only [hround, hparties] using hm.copy
  case returned => simpa only [hparties] using hm.returned

/-- The same for the stage of one caller. -/
theorem Agrees.place (hm : m.Agrees h) (hslot : slot < m.parties) {s : Stage}
    (hfits : h.Fits m.parties m.round slot s)
    (hawaits : s.awaitsCopy = (m.stage slot).awaitsCopy) : (m.place slot s).Agrees h := by
  have hslot' : slot < m.stages.length := hm.stages_length ▸ hslot
  refine hm.of_stages rfl rfl (by simp [Meeting.place]) (fun j hj => ?_) fun j _ => ?_
  · rw [stage_place hslot']
    split
    · subst j
      exact hfits
    · exact hm.standing j hj
  · rw [stage_place hslot']
    split
    · subst j
      exact hawaits
    · rfl

theorem Agrees.wakeAll (hm : m.Agrees h) : m.wakeAll.Agrees h := by
  refine hm.of_stages rfl rfl (by simp [Meeting.wakeAll]) (fun j hj => ?_) fun j _ => ?_
  · rw [stage_wakeAll, Minutes.fits_woken]
    exact hm.standing j hj
  · rw [stage_wakeAll, Stage.awaitsCopy_woken]

/-! ## §4 Publishing and picking up -/

/-- The meeting after a deposit, with the depositor asleep. -/
def deposited (m : Meeting) (slot : Nat) (payload : Bytes) : Meeting :=
  { m with round := m.round.deposit slot payload }.place slot (.parked m.round.generation)

/-- The meeting after a publication, with everybody awake. -/
def publishAll (m : Meeting) : Meeting :=
  { m with round := m.round.publish m.parties }.wakeAll

theorem stage_deposited (hslot : slot < m.stages.length) (payload : Bytes) (j : Nat) :
    (m.deposited slot payload).stage j =
      if j = slot then .parked m.round.generation else m.stage j :=
  stage_place (m := { m with round := m.round.deposit slot payload }) hslot _ j

@[simp] theorem stage_publishAll (m : Meeting) (j : Nat) :
    m.publishAll.stage j = (m.stage j).woken :=
  stage_wakeAll _ j

/-- Where a caller stood before it picked up does not matter afterwards. -/
theorem collect_place (m : Meeting) (slot : Nat) (s : Stage) :
    (m.place slot s).collect slot = m.collect slot := by
  simp only [collect, Meeting.place, Meeting.wakeAll, List.map_set, List.set_set]

/-- An arrival is a deposit, followed by a publication and a pick-up if it was the last. -/
theorem arrive_eq (m : Meeting) (slot : Nat) (payload : Bytes) :
    m.arrive slot payload =
      if m.round.arrived + 1 = m.parties then (m.deposited slot payload).publishAll.collect slot
      else m.deposited slot payload := by
  have hwoken : (m.deposited slot payload).publishAll =
      ({ m with round := (m.round.deposit slot payload).publish m.parties }.wakeAll).place slot
        (.returning m.round.generation) := by
    simp [deposited, publishAll, Meeting.place, Meeting.wakeAll, List.map_set, Stage.woken]
  rw [hwoken, collect_place]
  rfl

/-- **Deposit**: one caller more waits for the copies of a round that is being filled. -/
theorem Agrees.deposited (hm : m.Agrees h) (hslot : slot < m.parties) {payload : Bytes}
    (hstage : m.stage slot = .entering payload) (hpub : m.round.published = none) :
    (m.deposited slot payload).Agrees h ∧
      (m.deposited slot payload).awaiting = m.round.arrived + 1 := by
  have hslot' : slot < m.stages.length := hm.stages_length ▸ hslot
  have hslots : slot < m.round.slots.length := hm.slots_length ▸ hslot
  have hfits := hm.standing slot hslot
  rw [hstage] at hfits
  obtain ⟨hcalls, hreturns, hpayload⟩ := hfits
  rw [Round.publications_of_none hpub] at hcalls hreturns hpayload
  have hstages := stage_deposited (m := m) hslot' payload
  have hcount : (m.deposited slot payload).awaiting = m.awaiting + 1 := by
    have hplace := awaiting_place
      (m := { m with round := m.round.deposit slot payload }) hslot' (.parked m.round.generation)
    have hbefore : ({ m with round := m.round.deposit slot payload } : Meeting).stage slot =
        .entering payload := hstage
    rw [hbefore] at hplace
    exact hplace
  have harrived : m.round.arrived = m.awaiting := by simpa [hpub] using hm.arrived
  refine ⟨?_, by rw [hcount, harrived]⟩
  constructor
  case stages_length => simpa [Meeting.deposited, Meeting.place] using hm.stages_length
  case slots_length =>
    simpa [Meeting.deposited, Meeting.place, Round.deposit] using hm.slots_length
  case standing =>
    intro j hj
    rw [hstages]
    split
    · subst j
      exact ⟨rfl, hcalls, hreturns⟩
    · exact (Minutes.fits_congr rfl rfl).mpr (hm.standing j hj)
  case filled =>
    intro j hj
    rw [hstages]
    show (m.round.slots.set slot (some payload))[j]? = _
    rw [List.getElem?_set]
    by_cases hj' : j = slot
    · subst j
      simp [hslots, Stage.awaitsCopy, Meeting.deposited, Meeting.place, Round.deposit, hpub,
        hpayload]
    · rw [if_neg (Ne.symm hj'), if_neg hj']
      exact hm.filled j hj
  case arrived =>
    rw [hcount, ← harrived]
    simp [Meeting.deposited, Meeting.place, Round.deposit, hpub]
  case pending =>
    intro hsome
    simp [Meeting.deposited, Meeting.place, Round.deposit, hpub] at hsome
  case copy =>
    intro parts hparts
    simp [Meeting.deposited, Meeting.place, Round.deposit, hpub] at hparts
  case returned => exact hm.returned

/-- **Publication**: when everybody has deposited, the slots hold the payloads of
everybody's current call. -/
theorem Agrees.publishAll (hm : m.Agrees h) (hpub : m.round.published = none)
    (hall : m.awaiting = m.parties) (hpos : 0 < m.parties) : m.publishAll.Agrees h := by
  have hawaits : ∀ j < m.parties, (m.stage j).awaitsCopy = true := fun j hj =>
    awaitsCopy_of_awaiting_eq (hall.trans hm.stages_length.symm) (hm.stages_length ▸ hj)
  -- so the slots hold everybody's payload of the current call, in order
  have hcopy : (m.round.slots.map fun s => s.getD []) =
      h.payloads m.parties m.round.generation := by
    refine List.ext_getElem? fun j => ?_
    by_cases hj : j < m.parties
    · have hfilled := hm.filled j hj
      simp only [hpub, hawaits j hj, and_self, if_true] at hfilled
      simp [hfilled, Minutes.getElem?_payloads h hj]
    · simp [Minutes.payloads, hj, hm.slots_length]
  apply Agrees.wakeAll
  constructor
  case stages_length => exact hm.stages_length
  case slots_length => simpa [Round.publish] using hm.slots_length
  case standing =>
    intro j hj
    -- a caller that waits for its copy fits a round by the generation alone
    have hfits := hm.standing j hj
    have hj' := hawaits j hj
    change h.Fits m.parties (m.round.publish m.parties) j (m.stage j)
    cases hs : m.stage j <;> simp_all [Minutes.Fits, Stage.awaitsCopy, Round.publish]
  case filled =>
    intro j hj
    have hj' : j < m.round.slots.length := hm.slots_length ▸ hj
    simp [Round.publish, hj']
  case arrived => simp [Round.publish]
  case pending => exact fun _ => ⟨hall.symm, hall ▸ hpos⟩
  case copy =>
    intro parts hparts
    have hparts : m.round.slots.map (fun s => s.getD []) = parts := by
      simpa [Round.publish] using hparts
    rw [← hparts, hcopy]
    rfl
  case returned => exact hm.returned

/-- The meeting while a reader holds its copy but has not given the lock back: what is left
of the round, and everybody awake if nothing is. -/
def pickedUp (m : Meeting) : Meeting :=
  if m.round.pickUp.pending = 0 then { m with round := m.round.pickUp.close }.wakeAll
  else { m with round := m.round.pickUp }

theorem collect_eq (m : Meeting) (slot : Nat) :
    m.collect slot = m.pickedUp.place slot (.leaving m.round.copy) := by
  simp only [collect, pickedUp]
  split <;> rfl

@[simp] theorem parties_pickedUp (m : Meeting) : m.pickedUp.parties = m.parties := by
  unfold pickedUp
  split <;> rfl

@[simp] theorem parties_collect (m : Meeting) (slot : Nat) :
    (m.collect slot).parties = m.parties := by
  rw [collect_eq, parties_place, parties_pickedUp]

@[simp] theorem parties_proceed (m : Meeting) (slot : Nat) :
    (m.proceed slot).parties = m.parties := by
  unfold proceed
  cases m.stage slot with
  | entering payload =>
    dsimp only
    split
    · rfl
    · rw [arrive_eq]
      split
      · rw [parties_collect]
        rfl
      · rfl
  | returning generation =>
    dsimp only
    split
    · exact parties_collect m slot
    · rfl
  | outside | barred _ | parked _ | leaving _ => rfl

@[simp] theorem length_stages_pickedUp (m : Meeting) :
    m.pickedUp.stages.length = m.stages.length := by
  unfold pickedUp
  split <;> simp [Meeting.wakeAll]

@[simp] theorem awaiting_pickedUp (m : Meeting) : m.pickedUp.awaiting = m.awaiting := by
  unfold pickedUp
  split
  · exact awaiting_wakeAll _
  · rfl

/-- Picking up wakes callers at most, which does not change their standing. -/
theorem stage_pickedUp (m : Meeting) (j : Nat) :
    m.pickedUp.stage j = m.stage j ∨ m.pickedUp.stage j = (m.stage j).woken := by
  unfold pickedUp
  split
  · exact Or.inr (stage_wakeAll _ j)
  · exact Or.inl rfl

/-- The number of rounds published so far does not change when a round is picked up. -/
theorem publications_pickedUp (hpub : m.round.published.isSome) :
    m.pickedUp.round.publications = m.round.publications := by
  unfold pickedUp
  split
  · simp [Round.publications, Meeting.wakeAll, Round.close, Round.pickUp, hpub]
  · rfl

theorem stage_collect (hslot : slot < m.stages.length) (j : Nat) :
    (m.collect slot).stage j = if j = slot then .leaving m.round.copy else m.pickedUp.stage j := by
  rw [collect_eq, stage_place (by simpa using hslot)]

theorem length_stages_collect (m : Meeting) (slot : Nat) :
    (m.collect slot).stages.length = m.stages.length := by
  rw [collect_eq, length_stages_place, length_stages_pickedUp]

theorem round_collect (m : Meeting) (slot : Nat) :
    (m.collect slot).round = m.pickedUp.round := by
  rw [collect_eq, round_place]

/-- A reader that picks up is one less to wait for its copy. -/
theorem awaiting_collect (hslot : slot < m.stages.length)
    (hawaits : (m.stage slot).awaitsCopy = true) :
    (m.collect slot).awaiting + 1 = m.awaiting := by
  have hplace := awaiting_place (m := m.pickedUp) (by simpa using hslot) (.leaving m.round.copy)
  have hsame : (m.pickedUp.stage slot).awaitsCopy = (m.stage slot).awaitsCopy := by
    rcases stage_pickedUp m slot with hj | hj <;> simp [hj]
  rw [hsame, hawaits, awaiting_pickedUp, ← collect_eq] at hplace
  exact hplace

/-- Either nobody waits for a copy any more and the round is closed, or the round stays as it
was for its readers. -/
theorem Agrees.collect_cases (hm : m.Agrees h) (hslot : slot < m.parties)
    (hpub : m.round.published.isSome) (hawaits : (m.stage slot).awaitsCopy = true) :
    ((m.collect slot).round = m.round.pickUp.close ∧ (m.collect slot).awaiting = 0) ∨
      ((m.collect slot).round = m.round.pickUp ∧ 0 < (m.collect slot).awaiting) := by
  obtain ⟨hpending, -⟩ := hm.pending hpub
  have hcount := awaiting_collect (hm.stages_length ▸ hslot) hawaits
  rw [round_collect]
  by_cases hlast : m.round.pickUp.pending = 0
  · refine Or.inl ⟨by simp [pickedUp, hlast, Meeting.wakeAll], ?_⟩
    change m.round.pending - 1 = 0 at hlast
    omega
  · refine Or.inr ⟨by simp [pickedUp, hlast], ?_⟩
    change m.round.pending - 1 ≠ 0 at hlast
    omega

/-- The reader itself takes along the payloads of its own round. -/
theorem Agrees.fits_leaving (hm : m.Agrees h) (hslot : slot < m.parties)
    (hpub : m.round.published.isSome) (hawaits : (m.stage slot).awaitsCopy = true) {r : Round}
    (hr : r.publications = m.round.generation + 1) :
    h.Fits m.parties r slot (.leaving m.round.copy) := by
  have hcopy : m.round.copy = h.payloads m.parties m.round.generation := by
    obtain ⟨parts, hparts⟩ := Option.isSome_iff_exists.mp hpub
    simpa [Round.copy, hparts] using hm.copy parts hparts
  have hreturns := hm.returns_of_awaits hslot hawaits
  have hcalls : (h.calls slot).length = m.round.generation + 1 := by
    have hfits := hm.standing slot hslot
    cases hs : m.stage slot <;> simp_all [Minutes.Fits, Stage.awaitsCopy]
  exact ⟨hcalls.trans hr.symm, by rw [hreturns, hr], by rw [hcopy, hreturns]⟩

/-- **Pick-up**: the reader has everybody's payloads, and the last reader closes the
round. -/
theorem Agrees.collect (hm : m.Agrees h) (hslot : slot < m.parties)
    (hpub : m.round.published.isSome) (hawaits : (m.stage slot).awaitsCopy = true) :
    (m.collect slot).Agrees h := by
  have hstages := stage_collect (m := m) (hm.stages_length ▸ hslot)
  have hparties := parties_collect m slot
  have hlen : (m.collect slot).stages.length = m.parties :=
    (length_stages_collect m slot).trans hm.stages_length
  have hcase := hm.collect_cases hslot hpub hawaits
  have hidle : (m.collect slot).awaiting = 0 →
      ∀ j < m.parties, ((m.collect slot).stage j).awaitsCopy = false := fun hzero j hj =>
    awaitsCopy_of_awaiting_zero hzero (hlen ▸ hj)
  constructor
  case stages_length => exact hlen.trans hparties.symm
  case slots_length =>
    rw [hparties, ← hm.slots_length]
    rcases hcase with ⟨hround, -⟩ | ⟨hround, -⟩ <;> rw [hround] <;> rfl
  case standing =>
    intro j hj
    rw [hparties] at hj ⊢
    have hpublished : (m.collect slot).round.publications = m.round.generation + 1 := by
      rw [round_collect, publications_pickedUp hpub, Round.publications_of_isSome hpub]
    have hother : h.Fits m.parties m.round j (m.pickedUp.stage j) := by
      rcases stage_pickedUp m j with hstage | hstage <;> rw [hstage]
      · exact hm.standing j hj
      · exact Minutes.fits_woken.mpr (hm.standing j hj)
    by_cases hj' : j = slot
    · rw [hj', hstages, if_pos rfl]
      exact hm.fits_leaving hslot hpub hawaits hpublished
    · -- another caller sees the round closed only when it does not wait for a copy of it
      rcases hcase with ⟨-, hzero⟩ | ⟨hround, -⟩
      · have hnot := hidle hzero j hj
        rw [hstages, if_neg hj'] at hnot ⊢
        exact (Minutes.fits_congr_of_not_awaits hnot
          (hpublished.trans (Round.publications_of_isSome hpub).symm)).mpr hother
      · rw [hround, hstages, if_neg hj']
        exact (Minutes.fits_congr rfl rfl).mpr hother
  case filled =>
    intro j hj
    rw [hparties] at hj
    -- the publication has emptied the slots, and nobody has deposited since
    have hempty : m.round.slots[j]? = some none := by
      have hfilled := hm.filled j hj
      rwa [if_neg fun hboth => by simp [hboth.1] at hpub] at hfilled
    have hnot : ¬((m.collect slot).round.published = none ∧
        ((m.collect slot).stage j).awaitsCopy = true) := by
      rintro ⟨hnone, hwaits⟩
      rcases hcase with ⟨-, hzero⟩ | ⟨hround, -⟩
      · simp [hidle hzero j hj] at hwaits
      · rw [hround] at hnone
        have hnone : m.round.published = none := hnone
        simp [hnone] at hpub
    rw [if_neg hnot, ← hempty]
    rcases hcase with ⟨hround, -⟩ | ⟨hround, -⟩ <;> rw [hround] <;> rfl
  case arrived =>
    have hzero : m.round.arrived = 0 := by simpa [hpub] using hm.arrived
    rcases hcase with ⟨hround, hnobody⟩ | ⟨hround, -⟩ <;> rw [hround]
    · simp [Round.close, Round.pickUp, hzero, hnobody]
    · simp [Round.pickUp, hzero, hpub]
  case pending =>
    intro hsome
    rcases hcase with ⟨hround, -⟩ | ⟨hround, hsomebody⟩
    · simp [hround, Round.close] at hsome
    · obtain ⟨hpending, -⟩ := hm.pending hpub
      have hcount := awaiting_collect (hm.stages_length ▸ hslot) hawaits
      refine ⟨?_, hsomebody⟩
      rw [hround]
      show m.round.pending - 1 = _
      omega
  case copy =>
    intro parts hparts
    rcases hcase with ⟨hround, -⟩ | ⟨hround, -⟩
    · simp [hround, Round.close] at hparts
    · rw [hround] at hparts ⊢
      rw [hparties]
      exact hm.copy parts hparts
  case returned => simpa only [hparties] using hm.returned

/-! ## §5 Single moves -/

/-- A caller may be put at a stage unless it would sleep through a change there. -/
theorem Alert.place (ha : m.Alert) {s : Stage}
    (hbarred : ∀ payload, s = .barred payload → m.round.published.isSome)
    (hparked : ∀ generation, s = .parked generation → m.round.published = none) :
    (m.place slot s).Alert := by
  have hstages : ∀ j, (m.place slot s).stage j = m.stage j ∨ (m.place slot s).stage j = s := by
    intro j
    by_cases hslot : slot < m.stages.length
    · rw [stage_place hslot]
      split
      · exact Or.inr rfl
      · exact Or.inl rfl
    · exact Or.inl (by rw [place_of_le (Nat.le_of_not_lt hslot)])
  refine ⟨fun j payload hj => ?_, fun j generation hj => ?_, ha.arrived_lt⟩
  · rcases hstages j with hsame | hnew
    · exact ha.barred j payload (hsame ▸ hj)
    · exact hbarred payload (hnew ▸ hj)
  · rcases hstages j with hsame | hnew
    · exact ha.parked j generation (hsame ▸ hj)
    · exact hparked generation (hnew ▸ hj)

theorem Alert.place_awake (ha : m.Alert) {s : Stage} (hs : s.isAsleep = false) :
    (m.place slot s).Alert := by
  refine ha.place (fun payload hp => ?_) fun generation hg => ?_
  · simp [hp, Stage.isAsleep] at hs
  · simp [hg, Stage.isAsleep] at hs

/-- When everybody is awake, nobody sleeps through anything. -/
theorem Alert.of_awake (hawake : ∀ j, (m.stage j).isAsleep = false)
    (harrived : 0 < m.parties → m.round.published = none → m.round.arrived < m.parties) :
    m.Alert := by
  refine ⟨fun j payload hj => ?_, fun j generation hj => ?_, harrived⟩
  · simpa [hj, Stage.isAsleep] using hawake j
  · simpa [hj, Stage.isAsleep] using hawake j

theorem Alert.publishAll (m : Meeting) : m.publishAll.Alert := by
  refine Alert.of_awake (fun j => ?_) fun _ hnone => ?_
  · rw [stage_publishAll]
    exact Stage.isAsleep_woken _
  · simp [Meeting.publishAll, Meeting.wakeAll, Round.publish] at hnone

theorem Alert.collect (ha : m.Alert) (hm : m.Agrees h) (hpub : m.round.published.isSome) :
    (m.collect slot).Alert := by
  rw [collect_eq]
  refine Alert.place_awake ?_ rfl
  unfold pickedUp
  split
  · refine Alert.of_awake (fun j => ?_) fun hpos _ => ?_
    · rw [stage_wakeAll]
      exact Stage.isAsleep_woken _
    · have hzero : m.round.arrived = 0 := by simpa [hpub] using hm.arrived
      show m.round.arrived < m.parties
      exact hzero ▸ hpos
  · exact ⟨ha.barred, ha.parked, ha.arrived_lt⟩

/-- **Arrival**: a deposit keeps the agreement and the alertness, be it the last of its round
or not. -/
theorem Agrees.arrive (hm : m.Agrees h) (ha : m.Alert) (hslot : slot < m.parties)
    {payload : Bytes} (hstage : m.stage slot = .entering payload)
    (hpub : m.round.published = none) :
    (m.arrive slot payload).Agrees h ∧ (m.arrive slot payload).Alert := by
  obtain ⟨hdeposit, hcount⟩ := hm.deposited hslot hstage hpub
  have hslot' : slot < m.stages.length := hm.stages_length ▸ hslot
  have hunpublished : (m.deposited slot payload).round.published = none := hpub
  have hparties : (m.deposited slot payload).parties = m.parties := rfl
  have hle : (m.deposited slot payload).awaiting ≤ m.parties := by
    rw [← hparties, ← hdeposit.stages_length]
    exact List.countP_le_length
  rw [arrive_eq]
  split
  · -- the last arrival publishes, and picks up before anybody else can
    rename_i hlast
    have hpublished := hdeposit.publishAll hunpublished (hcount.trans hlast)
      (Nat.zero_lt_of_lt hslot)
    have hawaits : ((m.deposited slot payload).publishAll.stage slot).awaitsCopy = true := by
      rw [stage_publishAll, stage_deposited hslot', if_pos rfl]
      rfl
    exact ⟨hpublished.collect hslot rfl hawaits, (Alert.publishAll _).collect hpublished rfl⟩
  · -- any other one falls asleep in a round that still lacks somebody
    rename_i hmore
    refine ⟨hdeposit, ?_⟩
    have hbefore : ({ m with round := m.round.deposit slot payload } : Meeting).Alert := by
      refine ⟨ha.barred, ha.parked, fun _ _ => ?_⟩
      show m.round.arrived + 1 < m.parties
      omega
    refine hbefore.place (fun payload hp => ?_) fun _ _ => hpub
    cases hp

/-- **Critical section**: whatever a caller does under the lock keeps the agreement and the
alertness. -/
theorem Agrees.proceed (hm : m.Agrees h) (ha : m.Alert) (slot : Nat) :
    (m.proceed slot).Agrees h ∧ (m.proceed slot).Alert := by
  by_cases hslot : slot < m.parties
  · have hfits := hm.standing slot hslot
    cases hstage : m.stage slot with
    | outside | barred _ | parked _ | leaving _ =>
      simp only [Meeting.proceed, hstage]
      exact ⟨hm, ha⟩
    | entering payload =>
      rw [hstage] at hfits
      simp only [Meeting.proceed, hstage]
      split
      · -- kept out while a round is being picked up
        rename_i hpub
        refine ⟨hm.place hslot hfits (by rw [hstage]; rfl), ha.place (fun _ _ => hpub) ?_⟩
        intro generation hg
        cases hg
      · rename_i hpub
        exact hm.arrive ha hslot hstage (by simpa using hpub)
    | returning generation =>
      rw [hstage] at hfits
      obtain ⟨hgen, -⟩ := id hfits
      simp only [Meeting.proceed, hstage]
      split
      · rename_i hready
        have hpub : m.round.published.isSome := by simp_all
        exact ⟨hm.collect hslot hpub (by rw [hstage]; rfl), ha.collect hm hpub⟩
      · -- woken although the round is not complete: back to sleep
        rename_i hready
        have hpub : m.round.published = none := by simpa [hgen] using hready
        refine ⟨hm.place hslot hfits (by rw [hstage]; rfl), ha.place ?_ fun _ _ => hpub⟩
        intro payload hp
        cases hp
  · -- nobody owns this slot
    have hout := stage_of_le (hm.stages_length ▸ Nat.le_of_not_lt hslot)
    simp only [Meeting.proceed, hout]
    exact ⟨hm, ha⟩

/-- **Waking** a caller keeps the agreement and the alertness. -/
theorem Agrees.wake (hm : m.Agrees h) (ha : m.Alert) (slot : Nat) :
    (m.wake slot).Agrees h ∧ (m.wake slot).Alert := by
  refine ⟨?_, ha.place_awake (Stage.isAsleep_woken _)⟩
  by_cases hslot : slot < m.parties
  · exact hm.place hslot (Minutes.fits_woken.mpr (hm.standing slot hslot))
      (Stage.awaitsCopy_woken _)
  · have hsame : m.wake slot = m := place_of_le (hm.stages_length ▸ Nat.le_of_not_lt hslot) _
    rwa [hsame]

/-- **Coming**: a new call is the caller's first after all rounds published so far. -/
theorem Agrees.call (hm : m.Agrees h) (hslot : slot < m.parties)
    (hstage : m.stage slot = .outside) (payload : Bytes) :
    (m.place slot (.entering payload)).Agrees (h.recordCall slot payload) := by
  have hslot' : slot < m.stages.length := hm.stages_length ▸ hslot
  have hfits := hm.standing slot hslot
  rw [hstage] at hfits
  obtain ⟨hcalls, hreturns⟩ := hfits
  -- the new call belongs to a round that is not published, so all published ones stay
  have hold : ∀ number < m.round.publications,
      (h.recordCall slot payload).payloads m.parties number = h.payloads m.parties number :=
    fun number hnumber => h.payloads_recordCall m.parties (hcalls ▸ hnumber) payload
  have hstages := stage_place (m := m) hslot' (.entering payload)
  have hcount : (m.place slot (.entering payload)).awaiting = m.awaiting := by
    have hplace := awaiting_place hslot' (.entering payload)
    rwa [hstage] at hplace
  constructor
  case stages_length => simpa [Meeting.place] using hm.stages_length
  case slots_length => exact hm.slots_length
  case standing =>
    intro j hj
    rw [hstages]
    by_cases hj' : j = slot
    · subst hj'
      rw [if_pos rfl]
      exact ⟨by simp [hcalls, Meeting.place], hreturns, by simp [← hcalls, Meeting.place]⟩
    · rw [if_neg hj']
      -- of all stages, only a leaving one looks at the calls of others
      have hother := hm.standing j hj
      cases hs : m.stage j <;> simp only [hs, Minutes.Fits] at hother
      case leaving parts =>
        refine ⟨by simpa [hj'] using hother.1, hother.2.1, ?_⟩
        show parts = (h.recordCall slot payload).payloads m.parties (h.returns j).length
        rw [hold _ (by omega)]
        exact hother.2.2
      all_goals simpa [Minutes.Fits, hj', Minutes.recordCall] using hother
  case filled =>
    intro j hj
    rw [hstages]
    have hfilled := hm.filled j hj
    by_cases hj' : j = slot
    · subst hj'
      simpa [hstage, Stage.awaitsCopy] using hfilled
    · simpa [hj'] using hfilled
  case arrived =>
    rw [hcount]
    exact hm.arrived
  case pending =>
    rw [hcount]
    exact hm.pending
  case copy =>
    intro parts hparts
    have hpub : m.round.published.isSome := by
      have hparts : m.round.published = some parts := hparts
      simp [hparts]
    have hlt : m.round.generation < m.round.publications := by
      rw [Round.publications_of_isSome hpub]
      exact Nat.lt_succ_self _
    exact (hm.copy parts hparts).trans (hold _ hlt).symm
  case returned =>
    intro j hj number parts hreturn
    have hnumber : number < (h.returns j).length :=
      (List.getElem?_eq_some_iff.mp hreturn).1
    exact (hm.returned j hj number parts hreturn).trans
      (hold _ (Nat.lt_of_lt_of_le hnumber (hm.returns_le_publications hj))).symm

/-- **Returning**: the copy taken along is the one of the call that returns. -/
theorem Agrees.leave (hm : m.Agrees h) (hslot : slot < m.parties) {parts : List Bytes}
    (hstage : m.stage slot = .leaving parts) :
    (m.place slot .outside).Agrees (h.recordReturn slot parts) := by
  have hslot' : slot < m.stages.length := hm.stages_length ▸ hslot
  have hfits := hm.standing slot hslot
  rw [hstage] at hfits
  obtain ⟨hcalls, hreturns, hparts⟩ := hfits
  have hstages := stage_place (m := m) hslot' .outside
  have hcount : (m.place slot .outside).awaiting = m.awaiting := by
    have hplace := awaiting_place hslot' .outside
    rwa [hstage] at hplace
  constructor
  case stages_length => simpa [Meeting.place] using hm.stages_length
  case slots_length => exact hm.slots_length
  case standing =>
    intro j hj
    rw [hstages]
    by_cases hj' : j = slot
    · subst hj'
      rw [if_pos rfl]
      exact ⟨hcalls, by simpa using hreturns⟩
    · rw [if_neg hj']
      have hother := hm.standing j hj
      cases hs : m.stage j <;>
        simpa [hs, Minutes.Fits, hj', Minutes.recordReturn, Minutes.payloads] using hother
  case filled =>
    intro j hj
    rw [hstages]
    have hfilled := hm.filled j hj
    by_cases hj' : j = slot
    · subst hj'
      simpa [hstage, Stage.awaitsCopy] using hfilled
    · simpa [hj', Minutes.recordReturn] using hfilled
  case arrived =>
    rw [hcount]
    exact hm.arrived
  case pending =>
    rw [hcount]
    exact hm.pending
  case copy => exact hm.copy
  case returned =>
    intro j hj number copy hreturn
    by_cases hj' : j = slot
    · subst hj'
      rw [Minutes.returns_recordReturn_self] at hreturn
      -- an earlier copy, the new one, or none
      rcases Nat.lt_trichotomy number (h.returns j).length with hlt | heq | hgt
      · rw [List.getElem?_append_left hlt] at hreturn
        exact hm.returned j hj number copy hreturn
      · subst heq
        rw [List.getElem?_concat_length] at hreturn
        exact (Option.some.inj hreturn).symm.trans hparts
      · have hlen : (h.returns j ++ [parts]).length ≤ number := by
          rw [List.length_append]
          exact hgt
        simp [List.getElem?_eq_none hlen] at hreturn
    · rw [Minutes.returns_recordReturn_of_ne _ hj'] at hreturn
      exact hm.returned j hj number copy hreturn

end Agreement

/-- Nobody has come yet. -/
theorem Agrees.idle (parties : Nat) : (Meeting.idle parties).Agrees Minutes.blank := by
  have hcount : (Meeting.idle parties).awaiting = 0 := by
    simp [awaiting, Meeting.idle, List.countP_replicate, Stage.awaitsCopy]
  constructor
  case stages_length => simp [Meeting.idle]
  case slots_length => simp [Meeting.idle, Round.fresh]
  case standing =>
    intro j _
    rw [stage_idle]
    exact ⟨rfl, rfl⟩
  case filled =>
    intro j hj
    have hj : j < parties := hj
    rw [stage_idle]
    simp [Stage.awaitsCopy, Meeting.idle, Round.fresh, hj]
  case arrived =>
    rw [hcount]
    rfl
  case pending =>
    intro hpub
    cases hpub
  case copy =>
    intro parts hparts
    cases hparts
  case returned =>
    intro j _ number parts hreturn
    cases hreturn

theorem Alert.idle (parties : Nat) : (Meeting.idle parties).Alert := by
  refine Alert.of_awake (fun j => ?_) fun hpos _ => hpos
  rw [stage_idle]
  rfl

end Meeting

/-! ## §6 Whole schedules -/

namespace Session

/-- **Soundness** of a session: its meeting agrees with the minutes and is alert. -/
structure Sound (s : Session) : Prop where
  agrees : s.meeting.Agrees s.minutes
  alert : s.meeting.Alert

theorem Sound.idle (parties : Nat) : (Session.idle parties).Sound :=
  ⟨Meeting.Agrees.idle parties, Meeting.Alert.idle parties⟩

/-- **Step lemma**: every move of every caller keeps a session sound. -/
theorem Sound.step {s : Session} (hs : s.Sound) (move : Move) : (s.step move).Sound := by
  obtain ⟨hm, ha⟩ := hs
  cases move with
  | call slot payload =>
    simp only [Session.step]
    split
    · rename_i hcall
      obtain ⟨hslot, hout⟩ := hcall
      simp only [Meeting.call, hout]
      exact ⟨hm.call hslot hout payload, ha.place_awake rfl⟩
    · exact ⟨hm, ha⟩
  | proceed slot =>
    obtain ⟨hm', ha'⟩ := hm.proceed ha slot
    exact ⟨hm', ha'⟩
  | wake slot =>
    obtain ⟨hm', ha'⟩ := hm.wake ha slot
    exact ⟨hm', ha'⟩
  | leave slot =>
    simp only [Session.step, Meeting.depart?]
    cases hstage : s.meeting.stage slot with
    | leaving parts =>
      have hslot : slot < s.meeting.parties := by
        refine Nat.lt_of_not_le fun hle => ?_
        rw [Meeting.stage_of_le (hm.stages_length ▸ hle)] at hstage
        cases hstage
      exact ⟨hm.leave hslot hstage, ha.place_awake rfl⟩
    | outside | entering _ | barred _ | returning _ | parked _ => exact ⟨hm, ha⟩

/-- **Run lemma**: a session stays sound under every schedule. -/
theorem Sound.run {s : Session} (hs : s.Sound) (moves : List Move) : (s.run moves).Sound := by
  induction moves generalizing s with
  | nil => exact hs
  | cons move rest ih => exact ih (hs.step move)

@[simp] theorem parties_step (s : Session) (move : Move) :
    (s.step move).meeting.parties = s.meeting.parties := by
  cases move with
  | call slot payload =>
    simp only [step, Meeting.call]
    split
    · split <;> rfl
    · rfl
  | proceed slot => exact Meeting.parties_proceed _ _
  | wake slot => rfl
  | leave slot =>
    simp only [step, Meeting.depart?]
    cases s.meeting.stage slot <;> rfl

@[simp] theorem parties_run (s : Session) (moves : List Move) :
    (s.run moves).meeting.parties = s.meeting.parties := by
  induction moves generalizing s with
  | nil => rfl
  | cons move rest ih => exact (ih (s.step move)).trans (parties_step s move)

/-- **Round agreement**: under every schedule, whoever has returned from its call with some
number holds one payload of every member, in slot order, and each of them is the payload of
that member's call with the same number. -/
theorem returns_agree (parties : Nat) (moves : List Move) {slot : Nat} (hslot : slot < parties)
    {number : Nat} {parts : List Bytes}
    (hreturn : (((idle parties).run moves).minutes.returns slot)[number]? = some parts) :
    parts.length = parties ∧ ∀ j < parties, ∃ payload,
      (((idle parties).run moves).minutes.calls j)[number]? = some payload ∧
        parts[j]? = some payload := by
  have hsound := (Sound.idle parties).run moves
  have hparties : ((idle parties).run moves).meeting.parties = parties := parties_run _ _
  generalize (idle parties).run moves = s at hreturn hsound hparties ⊢
  subst hparties
  obtain ⟨hm, -⟩ := hsound
  have hparts := hm.returned slot hslot number parts hreturn
  -- the round was published, so everybody has made its call with this number
  have hnumber : number < s.meeting.round.publications :=
    Nat.lt_of_lt_of_le (List.getElem?_eq_some_iff.mp hreturn).1 (hm.returns_le_publications hslot)
  refine ⟨by rw [hparts, Minutes.length_payloads], fun j hj => ?_⟩
  have hcalled : number < (s.minutes.calls j).length :=
    Nat.lt_of_lt_of_le hnumber (hm.publications_le_calls hj)
  refine ⟨(s.minutes.calls j)[number], List.getElem?_eq_getElem hcalled, ?_⟩
  rw [hparts, Minutes.getElem?_payloads _ hj, List.getD_eq_getElem?_getD,
    List.getElem?_eq_getElem hcalled]
  rfl

/-- A schedule in which slot 1 overtakes slot 0: it makes its second call while slot 0 still
has to pick up the first round. -/
def overtaking : List Move :=
  [.call 0 [7], .proceed 0, .call 1 [], .proceed 1, .leave 1, .call 1 [9], .proceed 1,
    .proceed 0, .leave 0, .wake 1, .call 0 [8], .proceed 0, .proceed 1, .leave 1]

theorem returns_agree_overtaking :
    (((idle 2).run overtaking).minutes.returns 1)[1]? = some [[8], [9]] ∧
      ([[8], [9]] : List Bytes).length = 2 ∧ ∀ j < 2, ∃ payload,
        (((idle 2).run overtaking).minutes.calls j)[1]? = some payload ∧
          ([[8], [9]] : List Bytes)[j]? = some payload := by
  have hslot : 1 < 2 := by decide
  have hreturn : (((idle 2).run overtaking).minutes.returns 1)[1]? = some [[8], [9]] := by decide
  exact ⟨hreturn, returns_agree 2 overtaking hslot hreturn⟩

end Session

end ClusterView
