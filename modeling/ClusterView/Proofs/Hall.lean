import ClusterView.Program
import ClusterView.Proofs.Keys
import ClusterView.Proofs.Session

/-!
# Schedules of a crew

The members of a crew meet at many points, each of which has a session of its own. A
schedule of the crew is any list of moves, each of them a step of one member or a chance
waking of somebody asleep. A turn at a seat is the same as three moves of the session at
the seat's point: the caller comes, takes the lock once, and leaves if it has a copy.

## Sections
- §1: Schedules
- §2: Meetings in a hall
- §3: Turns
- §4: What a turn comes to
-/

namespace ClusterView

/-! ## §1 Schedules -/

namespace Hall

/-- **Chance waking** of the owner of a slot, if it is asleep. -/
def wake (h : Hall) (point : Point) (slot : Nat) : Hall :=
  ⟨h.meetings.map fun entry =>
    (entry.1, if entry.1 = point then entry.2.wake slot else entry.2)⟩

end Hall

namespace Crew

variable {σ α : Type}

/-- **Move** of a crew: a step of one member, or a chance waking. -/
inductive Move where
  | step (member : Nat)
  | wake (point : Point) (slot : Nat)
deriving DecidableEq, Repr

/-- **One move**; the step of a member that has none changes nothing. -/
def move (c : Crew σ α) : Move → Crew σ α
  | .step member => (c.step? member).getD c
  | .wake point slot => { c with hall := c.hall.wake point slot }

/-- **Schedule**: one move after the other, in any order of the members. -/
def follow (c : Crew σ α) (schedule : List Move) : Crew σ α := schedule.foldl move c

section Steps

variable {c : Crew σ α} {member : Nat}

/-- A member with a result has ended. -/
theorem done_of_results {result : α} (h : c.results[member]? = some (some result)) :
    c.members[member]? = some (.done result) := by
  rw [results, List.getElem?_map, Option.map_eq_some_iff] at h
  obtain ⟨program, hprogram, hresult⟩ := h
  cases program with
  | done other =>
    injection hresult with hresult
    rw [hprogram, hresult]
  | act _ _ | exchange _ _ _ => cases hresult

theorem step?_of_le (h : c.members.length ≤ member) : c.step? member = none := by
  simp [step?, List.getElem?_eq_none h]

theorem step?_of_done {result : α} (h : c.members[member]? = some (.done result)) :
    c.step? member = none := by
  simp [step?, h, Program.step?]

theorem step?_of_act {change : σ → σ} {rest : σ → Program σ α}
    (h : c.members[member]? = some (.act change rest)) :
    c.step? member =
      some ⟨change c.shared, c.hall, c.members.set member (rest c.shared)⟩ := by
  simp [step?, h, Program.step?]

theorem step?_of_asleep {seat : Seat} {payload : Bytes} {rest : List Bytes → Program σ α}
    (h : c.members[member]? = some (.exchange seat payload rest))
    (hasleep : ((c.hall.meeting seat).stage seat.slot).isAsleep = true) :
    c.step? member = none := by
  simp [step?, h, Program.step?, hasleep]

/-- A member that is awake at an exchange takes a turn there. -/
theorem step?_of_exchange {seat : Seat} {payload : Bytes} {rest : List Bytes → Program σ α}
    (h : c.members[member]? = some (.exchange seat payload rest))
    (hawake : ((c.hall.meeting seat).stage seat.slot).isAsleep = false) :
    c.step? member = some ⟨c.shared, (c.hall.turn seat payload).2,
      c.members.set member (((c.hall.turn seat payload).1.map rest).getD
        (.exchange seat payload rest))⟩ := by
  simp only [step?, h, Program.step?, hawake, Option.bind_eq_bind, Option.bind_some]
  obtain ⟨found, hall⟩ := c.hall.turn seat payload
  cases found <;> rfl

end Steps

end Crew

/-! ## §2 Meetings in a hall -/

namespace Hall

theorem meeting_put (h : Hall) (point : Point) (m : Meeting) (seat : Seat) :
    (h.put point m).meeting seat = if seat.point = point then m else h.meeting seat := by
  by_cases hp : seat.point = point
  · simp [meeting, put, hp]
  · have hfalse : (seat.point == point) = false := by simpa using hp
    rw [if_neg hp]
    simp only [meeting, put, List.lookup_cons, hfalse, lookup_filter_ne hp]

theorem wake_idle (parties slot : Nat) :
    (Meeting.idle parties).wake slot = Meeting.idle parties := by
  rw [Meeting.wake, Meeting.stage_idle]
  simp [Stage.woken, Meeting.place, Meeting.idle]

theorem meeting_wake (h : Hall) (point : Point) (slot : Nat) (seat : Seat) :
    (h.wake point slot).meeting seat =
      if seat.point = point then (h.meeting seat).wake slot else h.meeting seat := by
  obtain ⟨meetings⟩ := h
  simp only [meeting, wake]
  induction meetings with
  | nil => simp [wake_idle]
  | cons entry rest ih =>
    obtain ⟨p, m⟩ := entry
    by_cases hp : seat.point = p
    · by_cases hq : p = point <;> simp [hp, hq]
    · have hfalse : (seat.point == p) = false := by simpa using hp
      simpa only [List.map_cons, List.lookup_cons, hfalse] using ih

/-- **Hosting**: the meeting at every point is that of the session that takes place there,
for whoever knows the number of members. -/
def Hosts (h : Hall) (sessions : Point → Session) : Prop :=
  ∀ seat : Seat, seat.parties = (sessions seat.point).meeting.parties →
    h.meeting seat = (sessions seat.point).meeting

theorem Hosts.empty (parties : Point → Nat) :
    Hall.empty.Hosts fun point => Session.idle (parties point) := by
  intro seat hseat
  have hseat : seat.parties = parties seat.point := hseat
  simp [meeting, Hall.empty, Session.idle, hseat]

/-- A new meeting at one point is a new session there. -/
theorem Hosts.put {h : Hall} {sessions : Point → Session} (hh : h.Hosts sessions)
    {point : Point} {m : Meeting} {s : Session} (hm : m = s.meeting) :
    (h.put point m).Hosts (Function.update sessions point s) := by
  intro seat hseat
  rw [meeting_put]
  by_cases hp : seat.point = point
  · rw [if_pos hp, hp, Function.update_self, hm]
  · rw [if_neg hp, Function.update_of_ne hp]
    rw [Function.update_of_ne hp] at hseat
    exact hh seat hseat

theorem Hosts.wake {h : Hall} {sessions : Point → Session} (hh : h.Hosts sessions)
    (point : Point) (slot : Nat) :
    (h.wake point slot).Hosts
      (Function.update sessions point ((sessions point).step (.wake slot))) := by
  intro seat hseat
  rw [meeting_wake]
  by_cases hp : seat.point = point
  · subst hp
    rw [Function.update_self, Session.parties_step] at hseat
    rw [if_pos rfl, Function.update_self, hh seat hseat]
    rfl
  · rw [if_neg hp, Function.update_of_ne hp]
    rw [Function.update_of_ne hp] at hseat
    exact hh seat hseat

end Hall

/-! ## §3 Turns -/

namespace Session

/-- **Turn** of the owner of a slot: come with a payload if outside, take the lock once, and
leave if a copy is at hand. -/
def turn (s : Session) (slot : Nat) (payload : Bytes) : Session :=
  s.run [.call slot payload, .proceed slot, .leave slot]

theorem meeting_call (s : Session) {slot : Nat} (hslot : slot < s.meeting.parties)
    (payload : Bytes) : (s.step (.call slot payload)).meeting = s.meeting.call slot payload := by
  simp only [step, Meeting.call, hslot, true_and]
  cases hstage : s.meeting.stage slot <;> simp

theorem Sound.turn {s : Session} (hs : s.Sound) (slot : Nat) (payload : Bytes) :
    (s.turn slot payload).Sound :=
  hs.run _

@[simp] theorem parties_turn (s : Session) (slot : Nat) (payload : Bytes) :
    (s.turn slot payload).meeting.parties = s.meeting.parties :=
  parties_run _ _

end Session

/-- **A turn in the hall is a turn of the session** at the seat's point. -/
theorem Hall.Hosts.turn {h : Hall} {sessions : Point → Session} (hh : h.Hosts sessions)
    {seat : Seat} (hparties : seat.parties = (sessions seat.point).meeting.parties)
    (hslot : seat.slot < seat.parties) (payload : Bytes) :
    (h.turn seat payload).2.Hosts (Function.update sessions seat.point
        ((sessions seat.point).turn seat.slot payload)) ∧
      (h.turn seat payload).1 =
        ((((sessions seat.point).meeting.call seat.slot payload).proceed seat.slot).depart?
          seat.slot).map (·.1) := by
  have hmeeting := hh seat hparties
  have hcall := (sessions seat.point).meeting_call (hparties ▸ hslot) payload
  simp only [Hall.turn, hmeeting]
  have hturn : ((sessions seat.point).turn seat.slot payload).meeting =
      ((((sessions seat.point).meeting.call seat.slot payload).proceed seat.slot).depart?
        seat.slot).elim
          (((sessions seat.point).meeting.call seat.slot payload).proceed seat.slot) (·.2) := by
    simp only [Session.turn, Session.run, List.foldl_cons, List.foldl_nil]
    rw [← hcall]
    simp only [Session.step]
    split <;> simp_all
  cases hdepart : (((sessions seat.point).meeting.call seat.slot payload).proceed
      seat.slot).depart? seat.slot with
  | none =>
    rw [hdepart] at hturn
    exact ⟨hh.put hturn.symm, rfl⟩
  | some found =>
    obtain ⟨parts, m⟩ := found
    rw [hdepart] at hturn
    exact ⟨hh.put hturn.symm, rfl⟩

/-! ## §4 What a turn comes to -/

namespace Meeting

variable {m : Meeting} {h : Minutes} {slot : Nat}

/-- A critical section wakes other callers at most. -/
theorem stage_proceed_of_ne {j : Nat} (hj : j ≠ slot) :
    (m.proceed slot).stage j = m.stage j ∨ (m.proceed slot).stage j = (m.stage j).woken := by
  have hcollect : ∀ m : Meeting, (m.collect slot).stage j = m.stage j ∨
      (m.collect slot).stage j = (m.stage j).woken := fun m => by
    rw [collect_eq, stage_place_of_ne _ hj]
    exact stage_pickedUp m j
  unfold proceed
  cases m.stage slot with
  | entering payload =>
    dsimp only
    split
    · exact Or.inl (stage_place_of_ne m hj _)
    · have hdeposited : (m.deposited slot payload).stage j = m.stage j :=
        stage_place_of_ne { m with round := m.round.deposit slot payload } hj _
      rw [arrive_eq]
      split
      · -- woken by the publication, and perhaps once more by the pick-up
        have hboth := hcollect (m.deposited slot payload).publishAll
        rw [stage_publishAll, hdeposited, Stage.woken_woken, or_self] at hboth
        exact Or.inr hboth
      · exact Or.inl hdeposited
  | returning generation =>
    dsimp only
    split
    · exact hcollect m
    · exact Or.inl (stage_place_of_ne m hj _)
  | outside | barred _ | parked _ | leaving _ => exact Or.inl rfl

/-- A caller before its deposit sleeps if a round is being picked up; otherwise it deposits,
and then it sleeps or leaves. -/
theorem stage_proceed_entering (hslot : slot < m.stages.length) {payload : Bytes}
    (hstage : m.stage slot = .entering payload) :
    (m.round.published.isSome ∧ (m.proceed slot).stage slot = .barred payload) ∨
      (m.round.published = none ∧
        ((∃ generation, (m.proceed slot).stage slot = .parked generation) ∨
          ∃ parts, (m.proceed slot).stage slot = .leaving parts)) := by
  simp only [proceed, hstage]
  split
  · rename_i hpub
    exact Or.inl ⟨hpub, by rw [stage_place hslot, if_pos rfl]⟩
  · rename_i hpub
    refine Or.inr ⟨by simpa using hpub, ?_⟩
    rw [arrive_eq]
    split
    · have hslot' : slot < (m.deposited slot payload).publishAll.stages.length := by
        simpa [publishAll, deposited, Meeting.wakeAll] using hslot
      exact Or.inr ⟨_, by rw [stage_collect hslot', if_pos rfl]⟩
    · exact Or.inl ⟨_, by rw [stage_deposited hslot, if_pos rfl]⟩

/-- A caller after its deposit leaves if its round has been published, and sleeps again
otherwise. -/
theorem Agrees.stage_proceed_returning (hm : m.Agrees h) (hslot : slot < m.parties)
    {generation : Nat} (hstage : m.stage slot = .returning generation) :
    (m.round.published.isSome ∧ ∃ parts, (m.proceed slot).stage slot = .leaving parts) ∨
      (m.round.published = none ∧ (m.proceed slot).stage slot = .parked generation) := by
  have hslot' : slot < m.stages.length := hm.stages_length ▸ hslot
  have hfits := hm.standing slot hslot
  rw [hstage] at hfits
  obtain ⟨hgeneration, -⟩ := hfits
  simp only [Meeting.proceed, hstage]
  split
  · rename_i hready
    refine Or.inl ⟨by simp_all, m.round.copy, ?_⟩
    rw [stage_collect hslot', if_pos rfl]
  · rename_i hready
    refine Or.inr ⟨by simpa [hgeneration] using hready, ?_⟩
    rw [stage_place hslot', if_pos rfl]

end Meeting

namespace Session

/-- The minutes at a turn once its call has been noted, if the caller was outside. -/
def called (s : Session) (slot : Nat) (payload : Bytes) : Minutes :=
  (s.step (.call slot payload)).minutes

/-- **Outcome of a turn**: the caller leaves with a copy; or it sleeps before its deposit,
since a round is being picked up; or it sleeps after its deposit, since its round is not
complete. -/
inductive Turned (s : Session) (slot : Nat) (payload : Bytes) : Option (List Bytes) → Prop where
  | left (parts : List Bytes)
      (stage : (s.turn slot payload).meeting.stage slot = .outside)
      (minutes : (s.turn slot payload).minutes =
        (s.called slot payload).recordReturn slot parts) :
      Turned s slot payload (some parts)
  | barred
      (stage : (s.turn slot payload).meeting.stage slot = .barred payload)
      (minutes : (s.turn slot payload).minutes = s.called slot payload)
      (draining : s.meeting.round.published.isSome)
      (before : (s.meeting.stage slot).awaitsCopy = false) :
      Turned s slot payload none
  | parked (generation : Nat)
      (stage : (s.turn slot payload).meeting.stage slot = .parked generation)
      (minutes : (s.turn slot payload).minutes = s.called slot payload)
      (filling : s.meeting.round.published = none) :
      Turned s slot payload none

/-- May the owner of a slot take a turn with a payload? -/
def MayTurn (payload : Bytes) (stage : Stage) : Prop :=
  stage = .outside ∨ stage = .entering payload ∨ ∃ generation, stage = .returning generation

/-- Whoever may take a turn is inside and awake once its call has been made. -/
theorem stage_call {s : Session} {slot : Nat} (hslot : slot < s.meeting.stages.length)
    {payload : Bytes} (hmay : MayTurn payload (s.meeting.stage slot)) :
    ((s.meeting.call slot payload).stage slot = .entering payload ∧
        (s.meeting.stage slot).awaitsCopy = false) ∨
      ∃ generation, (s.meeting.call slot payload).stage slot = .returning generation := by
  rcases hmay with hout | hin | ⟨generation, hback⟩
  · refine Or.inl ⟨?_, by rw [hout]; rfl⟩
    simp only [Meeting.call, hout]
    rw [Meeting.stage_place hslot, if_pos rfl]
  · refine Or.inl ⟨?_, by rw [hin]; rfl⟩
    simp only [Meeting.call, hin]
  · refine Or.inr ⟨generation, ?_⟩
    simp only [Meeting.call, hback]

@[simp] theorem round_call (m : Meeting) (slot : Nat) (payload : Bytes) :
    (m.call slot payload).round = m.round := by
  unfold Meeting.call
  split <;> rfl

theorem Sound.turned {s : Session} (hs : s.Sound) {slot : Nat} (hslot : slot < s.meeting.parties)
    {payload : Bytes} (hmay : MayTurn payload (s.meeting.stage slot)) :
    Turned s slot payload
      ((((s.meeting.call slot payload).proceed slot).depart? slot).map (·.1)) := by
  have hcall := s.meeting_call hslot payload
  have hcalled := (hs.step (.call slot payload)).agrees
  rw [hcall] at hcalled
  have hslot₁ : slot < (s.meeting.call slot payload).stages.length := by
    rwa [hcalled.stages_length, ← hcall, parties_step]
  have hslot₂ : slot < ((s.meeting.call slot payload).proceed slot).stages.length := by
    have hproceed := ((hs.step (.call slot payload)).step (.proceed slot)).agrees
    have hmeeting : ((s.step (.call slot payload)).step (.proceed slot)).meeting =
        (s.meeting.call slot payload).proceed slot := congrArg (Meeting.proceed · slot) hcall
    rwa [← hmeeting, hproceed.stages_length, parties_step, parties_step]
  -- the turn is what leaving makes of the critical section
  have hturn : s.turn slot payload =
      (⟨(s.meeting.call slot payload).proceed slot, s.called slot payload⟩ : Session).step
        (.leave slot) := by
    rw [← hcall]
    rfl
  -- either the section ends with a copy at hand, or the caller stays where it is
  have hstay : (∀ parts, ((s.meeting.call slot payload).proceed slot).stage slot ≠
      .leaving parts) → s.turn slot payload =
        ⟨(s.meeting.call slot payload).proceed slot, s.called slot payload⟩ ∧
      ((s.meeting.call slot payload).proceed slot).depart? slot = none := by
    intro hnot
    have hnone : ((s.meeting.call slot payload).proceed slot).depart? slot = none := by
      unfold Meeting.depart?
      split
      · rename_i parts hparts
        exact absurd hparts (hnot parts)
      · rfl
    exact ⟨by rw [hturn]; simp only [Session.step, hnone], hnone⟩
  have hleave : ∀ parts, ((s.meeting.call slot payload).proceed slot).stage slot =
      .leaving parts → Turned s slot payload
        ((((s.meeting.call slot payload).proceed slot).depart? slot).map (·.1)) := by
    intro parts hparts
    have hsome : ((s.meeting.call slot payload).proceed slot).depart? slot =
        some (parts, ((s.meeting.call slot payload).proceed slot).place slot .outside) := by
      simp only [Meeting.depart?, hparts]
    rw [hsome]
    simp only [Session.step, hsome] at hturn
    refine Turned.left parts ?_ (by rw [hturn])
    rw [hturn, Meeting.stage_place hslot₂, if_pos rfl]
  rcases stage_call (hs.agrees.stages_length ▸ hslot) hmay with ⟨hin, hbefore⟩ | ⟨generation, hin⟩
  · -- before its deposit
    rcases Meeting.stage_proceed_entering hslot₁ hin with
      ⟨hpub, hstage⟩ | ⟨hpub, ⟨generation, hstage⟩ | ⟨parts, hstage⟩⟩
    · obtain ⟨hsame, hnone⟩ := hstay (by simp [hstage])
      rw [hnone]
      rw [round_call] at hpub
      exact Turned.barred (by rw [hsame]; exact hstage) (by rw [hsame]) hpub hbefore
    · obtain ⟨hsame, hnone⟩ := hstay (by simp [hstage])
      rw [hnone]
      rw [round_call] at hpub
      exact Turned.parked generation (by rw [hsame]; exact hstage) (by rw [hsame]) hpub
    · exact hleave parts hstage
  · -- after its deposit
    have hslot' : slot < (s.meeting.call slot payload).parties := hcalled.stages_length ▸ hslot₁
    rcases hcalled.stage_proceed_returning hslot' hin with
      ⟨-, ⟨parts, hstage⟩⟩ | ⟨hpub, hstage⟩
    · exact hleave parts hstage
    · obtain ⟨hsame, hnone⟩ := hstay (by simp [hstage])
      rw [hnone]
      rw [round_call] at hpub
      exact Turned.parked generation (by rw [hsame]; exact hstage) (by rw [hsame]) hpub

/-- A turn notes nothing about other callers. -/
theorem minutes_turn_of_ne (s : Session) {slot j : Nat} (hj : j ≠ slot) (payload : Bytes) :
    (s.turn slot payload).minutes.calls j = s.minutes.calls j ∧
      (s.turn slot payload).minutes.returns j = s.minutes.returns j := by
  -- of the three moves of a turn, the critical section writes no minutes at all
  have hcall : ∀ s : Session, (s.step (.call slot payload)).minutes.calls j =
      s.minutes.calls j ∧ (s.step (.call slot payload)).minutes.returns j =
        s.minutes.returns j := by
    intro s
    simp only [step]
    split
    · exact ⟨Minutes.calls_recordCall_of_ne _ hj _, rfl⟩
    · exact ⟨rfl, rfl⟩
  have hleave : ∀ s : Session, (s.step (.leave slot)).minutes.calls j = s.minutes.calls j ∧
      (s.step (.leave slot)).minutes.returns j = s.minutes.returns j := by
    intro s
    simp only [step]
    split
    · exact ⟨rfl, Minutes.returns_recordReturn_of_ne _ hj _⟩
    · exact ⟨rfl, rfl⟩
  simp only [turn, run, List.foldl_cons, List.foldl_nil]
  rw [(hleave _).1, (hleave _).2]
  exact hcall s

/-- A call notes its payload if the caller was outside, and nothing else. -/
theorem called_eq (s : Session) {slot : Nat} (hslot : slot < s.meeting.parties)
    (payload : Bytes) :
    (s.meeting.stage slot = .outside ∧
        s.called slot payload = s.minutes.recordCall slot payload) ∨
      s.called slot payload = s.minutes := by
  simp only [called, step, hslot, true_and]
  split
  · rename_i hout
    exact Or.inl ⟨hout, rfl⟩
  · exact Or.inr rfl

/-- A turn wakes other callers at most. -/
theorem stage_turn_of_ne {s : Session} {slot j : Nat} (hslot : slot < s.meeting.parties)
    (hj : j ≠ slot) (payload : Bytes) :
    (s.turn slot payload).meeting.stage j = s.meeting.stage j ∨
      (s.turn slot payload).meeting.stage j = (s.meeting.stage j).woken := by
  have hcall : (s.meeting.call slot payload).stage j = s.meeting.stage j := by
    unfold Meeting.call
    split
    · exact Meeting.stage_place_of_ne _ hj _
    · rfl
  have hleave : ∀ s : Session, (s.step (.leave slot)).meeting.stage j = s.meeting.stage j := by
    intro s
    simp only [Session.step, Meeting.depart?]
    cases s.meeting.stage slot with
    | leaving parts => exact Meeting.stage_place_of_ne _ hj _
    | outside | entering _ | barred _ | returning _ | parked _ => rfl
  have hproceed := Meeting.stage_proceed_of_ne (m := s.meeting.call slot payload) hj
  rw [hcall] at hproceed
  simp only [turn, run, List.foldl_cons, List.foldl_nil]
  rw [hleave]
  simp only [Session.step]
  rw [← s.meeting_call hslot payload] at hproceed
  exact hproceed

end Session

end ClusterView
