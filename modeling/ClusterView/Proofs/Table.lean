import ClusterView.Engine
import ClusterView.Proofs.Hall
import ClusterView.Proofs.Waiting
import Mathlib.Algebra.Order.BigOperators.Group.Finset
import Mathlib.Algebra.BigOperators.Group.Finset.Basic

/-!
# Crews at one table

The members of a crew sit at one table: all of them take part in the same rounds, at one
meeting point, and between the rounds each of them acts on the shared state. What a member
brings to a round does not depend on the schedule, so neither does what it takes along.

Programs are checked one by one. Every member has a standing, and an invariant ties the
standings to the shared state; a member's program keeps to the table if each of its actions
keeps the invariant, by a change of the member's own standing only, and its exchanges are
those of the rounds (`Table.Keeps`). Then every schedule of the crew keeps to the table
(`Table.Follows`), and a number of passes over the crew brings everybody to an end.

## Sections
- §1: Tables
- §2: Programs that keep to a table
- §3: The crew at the table
- §4: How far a session has got
- §5: What one move preserves
- §6: Passes
- §7: Whole runs
-/

namespace ClusterView

/-! ## §1 Tables -/

/-- **Table**: a meeting point, how many members meet there in how many rounds, what each of
them brings to each round, and an invariant of the shared state, given everybody's
standing. -/
structure Table (σ S : Type) where
  point : Point
  /-- Number of members. -/
  size : Nat
  rounds : Nat
  /-- What a member brings to a round. -/
  payload : Nat → Nat → Bytes
  /-- The shared state fits everybody's standing. -/
  Inv : σ → (Nat → S) → Prop

namespace Table

variable {σ S α β : Type}

/-- What everybody takes along from a round. -/
def copy (T : Table σ S) (round : Nat) : List Bytes :=
  (List.range T.size).map fun member => T.payload member round

/-- All that a member brings, in order. -/
def deposits (T : Table σ S) (member : Nat) : List Bytes :=
  (List.range T.rounds).map fun round => T.payload member round

/-- A member's seat. -/
def seat (T : Table σ S) (member : Nat) : Seat := ⟨T.point, T.size, member⟩

theorem getElem?_deposits (T : Table σ S) (member : Nat) {round : Nat}
    (hround : round < T.rounds) :
    (T.deposits member)[round]? = some (T.payload member round) := by
  simp [deposits, hround]

/-! ## §2 Programs that keep to a table -/

/-- **Keeping to the table**, from a standing and a round on: every action keeps the invariant
with a new standing of the member, every exchange is the next round at the member's seat, and
the result is as wanted. -/
def Keeps (T : Table σ S) (member : Nat) (Q : α → S → Nat → Prop) :
    Program σ α → S → Nat → Prop
  | .done result, standing, round => Q result standing round
  | .act change rest, standing, round =>
      ∀ s π, T.Inv s π → π member = standing → ∃ standing',
        T.Inv (change s) (Function.update π member standing') ∧
          T.Keeps member Q (rest s) standing' round
  | .exchange seat payload rest, standing, round =>
      seat = T.seat member ∧ payload = T.payload member round ∧ round < T.rounds ∧
        T.Keeps member Q (rest (T.copy round)) standing (round + 1)

section Keeping

variable {T : Table σ S} {member : Nat}

theorem Keeps.mono {Q Q' : α → S → Nat → Prop}
    (hQ : ∀ result standing round, Q result standing round → Q' result standing round)
    {p : Program σ α} {standing : S} {round : Nat} (h : T.Keeps member Q p standing round) :
    T.Keeps member Q' p standing round := by
  induction p generalizing standing round with
  | done result => exact hQ _ _ _ h
  | act change rest ih =>
    intro s π hinv hstanding
    obtain ⟨standing', hinv', hrest⟩ := h s π hinv hstanding
    exact ⟨standing', hinv', ih s hrest⟩
  | exchange seat payload rest ih =>
    obtain ⟨hseat, hpayload, hround, hrest⟩ := h
    exact ⟨hseat, hpayload, hround, ih _ hrest⟩

/-- One program after the other keeps to the table if the second does from wherever the first
one ends. -/
theorem Keeps.bind {Q : β → S → Nat → Prop} {p : Program σ α} {f : α → Program σ β}
    {standing : S} {round : Nat}
    (h : T.Keeps member (fun result standing round => T.Keeps member Q (f result) standing round)
      p standing round) : T.Keeps member Q (p.bind f) standing round := by
  induction p generalizing standing round with
  | done result => exact h
  | act change rest ih =>
    intro s π hinv hstanding
    obtain ⟨standing', hinv', hrest⟩ := h s π hinv hstanding
    exact ⟨standing', hinv', ih s hrest⟩
  | exchange seat payload rest ih =>
    obtain ⟨hseat, hpayload, hround, hrest⟩ := h
    exact ⟨hseat, hpayload, hround, ih _ hrest⟩

/-- **An action** keeps to the table if it keeps the invariant. -/
theorem Keeps.atomically {Q : α → S → Nat → Prop} {action : StateM σ α} {standing : S}
    {round : Nat} (h : ∀ s π, T.Inv s π → π member = standing → ∃ standing',
      T.Inv (action s).2 (Function.update π member standing') ∧ Q (action s).1 standing' round) :
    T.Keeps member Q (Program.atomically action) standing round :=
  h

/-- An action that changes nothing needs only an answer. -/
theorem Keeps.ask {Q : α → S → Nat → Prop} {question : σ → α} {standing : S} {round : Nat}
    (h : ∀ s π, T.Inv s π → π member = standing → Q (question s) standing round) :
    T.Keeps member Q (Program.atomically fun s => (question s, s)) standing round := by
  intro s π hinv hstanding
  refine ⟨standing, ?_, h s π hinv hstanding⟩
  rwa [← hstanding, Function.update_eq_self]

/-- **A collective** keeps to the table if its call changes nothing and offers what the member
brings to the round. -/
theorem Keeps.collective {ε : Type} {Q : Except ε α → S → Nat → Prop}
    {call : StateM σ (Offer ε α)} {standing : S} {round : Nat} (hround : round < T.rounds)
    (h : ∀ s π, T.Inv s π → π member = standing → ∃ conclude,
      call s = (.meet (T.seat member) (T.payload member round) conclude, s) ∧
        Q (conclude (T.copy round)) standing (round + 1)) :
    T.Keeps member Q (Program.collective call) standing round := by
  apply Keeps.bind
  intro s π hinv hstanding
  obtain ⟨conclude, hcall, hQ⟩ := h s π hinv hstanding
  refine ⟨standing, ?_, ?_⟩
  · simp only [hcall]
    rwa [← hstanding, Function.update_eq_self]
  · simp only [hcall]
    exact ⟨rfl, rfl, hround, hQ⟩

/-- A program that may fail goes on with the results that it can have. -/
theorem Keeps.attempt {ε : Type} {Q : Except ε β → S → Nat → Prop}
    {p : ExceptT ε (Program σ) α} {f : α → ExceptT ε (Program σ) β} {standing : S}
    {round : Nat}
    (h : T.Keeps member (fun answer standing round => ∃ result, answer = .ok result ∧
      T.Keeps member Q (f result).run standing round) p.run standing round) :
    T.Keeps member Q (p >>= f).run standing round := by
  apply Keeps.bind
  apply h.mono
  rintro answer standing round ⟨result, rfl, hrest⟩
  exact hrest

end Keeping

end Table

/-! ## §3 The crew at the table -/

/-- The stages at the table that fit what is left of a program. -/
def Program.Allows {σ α : Type} (stage : Stage) : Program σ α → Prop
  | .exchange _ payload _ =>
      stage = .outside ∨ stage = .entering payload ∨ stage = .barred payload ∨
        stage.awaitsCopy = true
  | _ => stage = .outside

namespace Program

variable {σ α : Type} {p : Program σ α} {stage : Stage}

theorem allows_outside (p : Program σ α) : p.Allows .outside := by
  cases p with
  | exchange seat payload rest => exact Or.inl rfl
  | done _ | act _ _ => rfl

theorem Allows.woken (h : p.Allows stage) : p.Allows stage.woken := by
  cases p with
  | exchange seat payload rest =>
    rcases h with h | h | h | h
    · exact Or.inl (by rw [h]; rfl)
    · exact Or.inr (Or.inl (by rw [h]; rfl))
    · exact Or.inr (Or.inl (by rw [h]; rfl))
    · exact Or.inr (Or.inr (Or.inr (by rwa [Stage.awaitsCopy_woken])))
  | done _ | act _ _ =>
    have h : stage = .outside := h
    rw [h]
    rfl

/-- Whoever is awake at an exchange may take a turn. -/
theorem Allows.mayTurn {seat : Seat} {payload : Bytes} {rest : List Bytes → Program σ α}
    (h : (exchange seat payload rest).Allows stage) (hawake : stage.isAsleep = false) :
    Session.MayTurn payload stage := by
  rcases h with h | h | h | h
  · exact Or.inl h
  · exact Or.inr (Or.inl h)
  · rw [h] at hawake
    cases hawake
  · cases stage with
    | returning generation => exact Or.inr (Or.inr ⟨generation, rfl⟩)
    | parked _ => cases hawake
    | outside | entering _ | barred _ | leaving _ => cases h

end Program

namespace Table

variable {σ S α : Type}

/-- **The crew keeps to the table**: the shared state fits the standings, the session at the
table's point has noted nothing but what the members are to bring, and every member stands in
it where the rest of its program says. -/
structure Follows (T : Table σ S) (Q : Nat → α → S → Prop) (c : Crew σ α)
    (sessions : Point → Session) (π : Nat → S) : Prop where
  inv : T.Inv c.shared π
  length : c.members.length = T.size
  hosts : c.hall.Hosts sessions
  sound : (sessions T.point).Sound
  parties : (sessions T.point).meeting.parties = T.size
  calls : ∀ member < T.size, (sessions T.point).minutes.calls member <+: T.deposits member
  member : ∀ member < T.size, ∃ p, c.members[member]? = some p ∧
    T.Keeps member (fun result standing round => Q member result standing ∧ round = T.rounds)
      p (π member) ((sessions T.point).minutes.returns member).length ∧
    p.Allows ((sessions T.point).meeting.stage member)

/-- The session at a point of a hall, where nothing has been noted yet. -/
def opening (T : Table σ S) (hall : Hall) (point : Point) : Session :=
  match hall.meetings.lookup point with
  | some m => ⟨m, Minutes.blank⟩
  | none => Session.idle T.size

theorem hosts_opening (T : Table σ S) (hall : Hall) : hall.Hosts (T.opening hall) := by
  intro seat hseat
  simp only [opening, Hall.meeting] at hseat ⊢
  cases hmet : hall.meetings.lookup seat.point with
  | some m => rfl
  | none =>
    rw [hmet] at hseat
    exact congrArg Meeting.idle hseat

/-- The crew at the beginning: nobody has come to the table, whatever goes on elsewhere in
the hall. -/
theorem Follows.start {T : Table σ S} {Q : Nat → α → S → Prop} {c : Crew σ α} {π : Nat → S}
    (hinv : T.Inv c.shared π) (hunmet : c.hall.meetings.lookup T.point = none)
    (hlength : c.members.length = T.size)
    (hkeeps : ∀ member < T.size, ∃ p, c.members[member]? = some p ∧
      T.Keeps member (fun result standing round => Q member result standing ∧ round = T.rounds)
        p (π member) 0) :
    T.Follows Q c (T.opening c.hall) π := by
  have hidle : T.opening c.hall T.point = Session.idle T.size := by
    simp only [opening, hunmet]
  constructor
  case inv => exact hinv
  case length => exact hlength
  case hosts => exact T.hosts_opening c.hall
  case sound => exact hidle ▸ Session.Sound.idle T.size
  case parties => exact hidle ▸ rfl
  case calls =>
    intro member _
    rw [hidle]
    exact List.nil_prefix
  case member =>
    intro member hmember
    obtain ⟨p, hp, hkeep⟩ := hkeeps member hmember
    rw [hidle]
    refine ⟨p, hp, hkeep, ?_⟩
    rw [show (Session.idle T.size).meeting = Meeting.idle T.size from rfl, Meeting.stage_idle]
    exact p.allows_outside

end Table

/-! ## §4 How far a session has got -/

namespace Session

/-- How far the owner of a slot has got: two steps for every return, and one for a deposit. -/
def progress (s : Session) (slot : Nat) : Nat :=
  2 * (s.minutes.returns slot).length + if (s.meeting.stage slot).awaitsCopy then 1 else 0

/-- A call notes no return. -/
theorem returns_called (s : Session) (slot : Nat) (payload : Bytes) :
    (s.called slot payload).returns = s.minutes.returns := by
  simp only [called, step]
  split
  · rfl
  · rfl

/-- Whoever comes before its deposit while a round is being picked up falls asleep. -/
theorem Meeting.proceed_call_draining {m : Meeting} {slot : Nat}
    (hslot : slot < m.stages.length) {payload : Bytes} (hmay : MayTurn payload (m.stage slot))
    (hbefore : (m.stage slot).awaitsCopy = false) (hdraining : m.round.published.isSome) :
    (m.call slot payload).proceed slot = m.place slot (.barred payload) := by
  rcases hmay with hout | hin | ⟨generation, hback⟩
  · have hstage := Meeting.stage_place hslot (.entering payload) slot
    rw [if_pos rfl] at hstage
    simp only [Meeting.call, hout, Meeting.proceed, hstage, Meeting.round_place]
    rw [if_pos hdraining]
    simp [Meeting.place]
  · simp only [Meeting.call, hin, Meeting.proceed]
    rw [if_pos hdraining]
  · rw [hback] at hbefore
    cases hbefore

/-- Whoever looks after its copy while its round still fills goes back to sleep. -/
theorem Meeting.proceed_call_filling {m : Meeting} {slot generation : Nat}
    (hback : m.stage slot = .returning generation) (hfilling : m.round.published = none)
    (payload : Bytes) :
    (m.call slot payload).proceed slot = m.place slot (.parked generation) := by
  simp [Meeting.call, Meeting.proceed, hback, hfilling]

/-- A turn that ends in sleep replaces the caller's stage and nothing else. -/
theorem meeting_turn_of_sleep {s : Session} {slot : Nat} (hslot : slot < s.meeting.parties)
    (hlength : s.meeting.stages.length = s.meeting.parties) {payload : Bytes} {stage : Stage}
    (hasleep : stage.isAsleep = true)
    (hproceed : (s.meeting.call slot payload).proceed slot = s.meeting.place slot stage) :
    (s.turn slot payload).meeting = s.meeting.place slot stage := by
  have hcall := s.meeting_call hslot payload
  have hstage : (s.meeting.place slot stage).stage slot = stage := by
    rw [Meeting.stage_place (hlength ▸ hslot), if_pos rfl]
  have hdepart : (s.meeting.place slot stage).depart? slot = none := by
    simp only [Meeting.depart?, hstage]
    cases stage with
    | barred _ | parked _ => rfl
    | outside | entering _ | returning _ | leaving _ => cases hasleep
  simp only [turn, run, List.foldl_cons, List.foldl_nil]
  rw [← hcall] at hproceed
  have hbefore : (((s.step (.call slot payload)).step (.proceed slot))).meeting =
      s.meeting.place slot stage := hproceed
  simp only [step] at hbefore ⊢
  rw [hbefore, hdepart]

/-- A caller's turn either takes it a step further, or it only puts the caller to sleep. -/
theorem Turned.progress {s : Session} {slot : Nat} (hslot : slot < s.meeting.parties)
    {payload : Bytes} (hlength : s.meeting.stages.length = s.meeting.parties)
    (hmay : MayTurn payload (s.meeting.stage slot)) {found : Option (List Bytes)}
    (h : Turned s slot payload found) :
    s.progress slot < (s.turn slot payload).progress slot ∨
      (s.turn slot payload).progress slot = s.progress slot ∧
        ∃ stage, (s.turn slot payload).meeting = s.meeting.place slot stage := by
  have hslot' : slot < s.meeting.stages.length := hlength ▸ hslot
  cases h with
  | left parts hstage hminutes =>
    left
    simp only [Session.progress, hstage, hminutes, Minutes.returns_recordReturn_self,
      returns_called, List.length_append, List.length_singleton]
    split <;> omega
  | barred hstage hminutes hdraining hbefore =>
    right
    have hafter : (Stage.barred payload).awaitsCopy = false := rfl
    have hproceed := Meeting.proceed_call_draining hslot' hmay hbefore hdraining
    refine ⟨?_, _, meeting_turn_of_sleep hslot hlength rfl hproceed⟩
    simp [Session.progress, hstage, hminutes, returns_called, hbefore, hafter]
  | parked generation hstage hminutes hfilling =>
    have hafter : (Stage.parked generation).awaitsCopy = true := rfl
    rcases hmay with hbefore | hbefore | ⟨generation, hbefore⟩
    · left
      have hwas : (s.meeting.stage slot).awaitsCopy = false := by rw [hbefore]; rfl
      simp [Session.progress, hstage, hminutes, returns_called, hwas, hafter]
    · left
      have hwas : (s.meeting.stage slot).awaitsCopy = false := by rw [hbefore]; rfl
      simp [Session.progress, hstage, hminutes, returns_called, hwas, hafter]
    · right
      have hwas : (s.meeting.stage slot).awaitsCopy = true := by rw [hbefore]; rfl
      have hproceed := Meeting.proceed_call_filling hbefore hfilling payload
      refine ⟨?_, _, meeting_turn_of_sleep hslot hlength rfl hproceed⟩
      simp [Session.progress, hstage, hminutes, returns_called, hwas, hafter]

/-- **Total progress** of the owners of a number of slots. -/
def total (s : Session) (size : Nat) : Nat := ∑ slot ∈ Finset.range size, s.progress slot

/-- Between two sessions the owner of a slot has brought the meeting further, or there is no
change but in its own stage. -/
def Advances (size slot : Nat) (s s' : Session) : Prop :=
  s.total size < s'.total size ∨
    s'.total size = s.total size ∧ ∀ j, j ≠ slot → s'.meeting.stage j = s.meeting.stage j

namespace Advances

variable {size slot : Nat} {s s' s'' : Session}

theorem refl (size slot : Nat) (s : Session) : Advances size slot s s :=
  Or.inr ⟨rfl, fun _ _ => rfl⟩

theorem trans (h : Advances size slot s s') (h' : Advances size slot s' s'') :
    Advances size slot s s'' := by
  rcases h with hlt | ⟨heq, hsame⟩
  · left
    rcases h' with hlt' | ⟨heq', -⟩
    · exact hlt.trans hlt'
    · rwa [heq']
  · rcases h' with hlt' | ⟨heq', hsame'⟩
    · left
      rwa [← heq]
    · exact Or.inr ⟨heq'.trans heq, fun j hj => (hsame' j hj).trans (hsame j hj)⟩

end Advances

/-- The progress of others does not change in a turn. -/
theorem progress_turn_of_ne {s : Session} {slot j : Nat} (hslot : slot < s.meeting.parties)
    (hj : j ≠ slot) (payload : Bytes) : (s.turn slot payload).progress j = s.progress j := by
  have hreturns := (s.minutes_turn_of_ne hj payload).2
  have hawaits : ((s.turn slot payload).meeting.stage j).awaitsCopy =
      (s.meeting.stage j).awaitsCopy := by
    rcases stage_turn_of_ne hslot hj payload with hstage | hstage
    · rw [hstage]
    · rw [hstage, Stage.awaitsCopy_woken]
  simp only [progress, hreturns, hawaits]

/-- **Every turn advances** the meeting. -/
theorem Turned.advances {s : Session} {slot size : Nat} (hslot : slot < s.meeting.parties)
    (hsize : slot < size) {payload : Bytes}
    (hlength : s.meeting.stages.length = s.meeting.parties)
    (hmay : MayTurn payload (s.meeting.stage slot)) {found : Option (List Bytes)}
    (h : Turned s slot payload found) : Advances size slot s (s.turn slot payload) := by
  have hothers : ∀ j, j ≠ slot → (s.turn slot payload).progress j = s.progress j :=
    fun j hj => progress_turn_of_ne hslot hj payload
  rcases h.progress hslot hlength hmay with hlt | ⟨heq, stage, hmeeting⟩
  · left
    apply Finset.sum_lt_sum
    · intro j _
      by_cases hj : j = slot
      · rw [hj]
        exact Nat.le_of_lt hlt
      · exact Nat.le_of_eq (hothers j hj).symm
    · exact ⟨slot, Finset.mem_range.mpr hsize, hlt⟩
  · right
    refine ⟨Finset.sum_congr rfl fun j _ => ?_, fun j hj => ?_⟩
    · by_cases hj : j = slot
      · exact hj ▸ heq
      · exact hothers j hj
    · rw [hmeeting]
      exact Meeting.stage_place_of_ne _ hj _

/-- Nobody gets further than its calls. -/
theorem Sound.progress_le {s : Session} (hs : s.Sound) {slot : Nat}
    (hslot : slot < s.meeting.parties) :
    s.progress slot ≤ 2 * (s.minutes.calls slot).length := by
  have hcalls := hs.agrees.publications_le_calls hslot
  have hreturns := hs.agrees.returns_le_publications hslot
  unfold Session.progress
  split
  · rename_i hawaits
    have hfits := hs.agrees.standing slot hslot
    cases hstage : s.meeting.stage slot with
    | returning _ | parked _ =>
      rw [hstage] at hfits
      obtain ⟨-, hcalled, hreturned⟩ := hfits
      omega
    | outside | entering _ | barred _ | leaving _ =>
      rw [hstage] at hawaits
      cases hawaits
  · omega

end Session

/-! ## §5 What one move preserves -/

namespace Table

variable {σ S α : Type} {T : Table σ S} {Q : Nat → α → S → Prop} {c c' : Crew σ α}
  {sessions sessions' : Point → Session} {π : Nat → S} {member : Nat}

/-- **Frame**: where one member moves, there is nothing to show about the programs of the
others. -/
theorem Follows.of_change (h : T.Follows Q c sessions π) (hmember : member < T.size)
    {standing : S} {p : Program σ α}
    (hinv : T.Inv c'.shared (Function.update π member standing))
    (hmembers : c'.members = c.members.set member p) (hhosts : c'.hall.Hosts sessions')
    (hsound : (sessions' T.point).Sound)
    (hparties : (sessions' T.point).meeting.parties = (sessions T.point).meeting.parties)
    (hothers : ∀ other, other ≠ member →
      (sessions' T.point).minutes.calls other = (sessions T.point).minutes.calls other ∧
      (sessions' T.point).minutes.returns other = (sessions T.point).minutes.returns other ∧
      ((sessions' T.point).meeting.stage other = (sessions T.point).meeting.stage other ∨
        (sessions' T.point).meeting.stage other =
          ((sessions T.point).meeting.stage other).woken))
    (hcalls : (sessions' T.point).minutes.calls member <+: T.deposits member)
    (hkeeps : T.Keeps member (fun result standing round => Q member result standing ∧
      round = T.rounds) p standing ((sessions' T.point).minutes.returns member).length)
    (hallows : p.Allows ((sessions' T.point).meeting.stage member)) :
    T.Follows Q c' sessions' (Function.update π member standing) := by
  constructor
  case inv => exact hinv
  case length => rw [hmembers, List.length_set, h.length]
  case hosts => exact hhosts
  case sound => exact hsound
  case parties => rw [hparties, h.parties]
  case calls =>
    intro other hother
    by_cases heq : other = member
    · exact heq ▸ hcalls
    · rw [(hothers other heq).1]
      exact h.calls other hother
  case member =>
    intro other hother
    by_cases heq : other = member
    · subst heq
      refine ⟨p, ?_, ?_, hallows⟩
      · rw [hmembers, List.getElem?_set_self (h.length ▸ hother)]
      · rwa [Function.update_self]
    · obtain ⟨q, hq, hkept, hfits⟩ := h.member other hother
      obtain ⟨-, hreturns, hstage⟩ := hothers other heq
      refine ⟨q, ?_, ?_, ?_⟩
      · rw [hmembers, List.getElem?_set_ne (Ne.symm heq), hq]
      · rwa [Function.update_of_ne heq, hreturns]
      · rcases hstage with hstage | hstage
        · rwa [hstage]
        · rw [hstage]
          exact hfits.woken

/-- **Chance waking** keeps to the table. -/
theorem Follows.wake (h : T.Follows Q c sessions π) (point : Point) (slot : Nat) :
    T.Follows Q (c.move (.wake point slot))
      (Function.update sessions point ((sessions point).step (.wake slot))) π := by
  have hhosts := h.hosts.wake point slot
  by_cases hpoint : T.point = point
  · subst hpoint
    constructor
    case inv => exact h.inv
    case length => exact h.length
    case hosts => exact hhosts
    case sound =>
      rw [Function.update_self]
      exact h.sound.step _
    case parties => rw [Function.update_self, Session.parties_step, h.parties]
    case calls =>
      rw [Function.update_self]
      exact h.calls
    case member =>
      intro member hmember
      obtain ⟨p, hp, hkeeps, hallows⟩ := h.member member hmember
      rw [Function.update_self]
      refine ⟨p, hp, hkeeps, ?_⟩
      rcases Meeting.stage_wake _ slot member with hsame | hwoken
      · exact hsame.symm ▸ hallows
      · exact hwoken.symm ▸ hallows.woken
  · have hsame := Function.update_of_ne hpoint ((sessions point).step (.wake slot)) sessions
    constructor
    case inv => exact h.inv
    case length => exact h.length
    case hosts => exact hhosts
    case sound => exact hsame.symm ▸ h.sound
    case parties => exact hsame.symm ▸ h.parties
    case calls => exact hsame.symm ▸ h.calls
    case member => exact hsame.symm ▸ h.member

/-- **Action** of a member. -/
theorem Follows.act (h : T.Follows Q c sessions π) (hmember : member < T.size)
    {change : σ → σ} {rest : σ → Program σ α}
    (hprogram : c.members[member]? = some (.act change rest)) :
    ∃ standing, T.Follows Q
      ⟨change c.shared, c.hall, c.members.set member (rest c.shared)⟩ sessions
      (Function.update π member standing) := by
  obtain ⟨p, hp, hkeeps, hallows⟩ := h.member member hmember
  rw [hprogram, Option.some.injEq] at hp
  subst hp
  obtain ⟨standing, hinv, hrest⟩ := hkeeps c.shared π h.inv rfl
  have hout : (sessions T.point).meeting.stage member = .outside := hallows
  refine ⟨standing, h.of_change hmember hinv rfl h.hosts h.sound rfl
    (fun _ _ => ⟨rfl, rfl, Or.inl rfl⟩) (h.calls member hmember) hrest ?_⟩
  rw [hout]
  exact Program.allows_outside _

/-- At an exchange, a call notes what the member is to bring. -/
theorem Follows.calls_called (h : T.Follows Q c sessions π) (hmember : member < T.size)
    {round : Nat} (hround : round < T.rounds)
    (hreturns : ((sessions T.point).minutes.returns member).length = round) :
    ((sessions T.point).called member (T.payload member round)).calls member <+:
      T.deposits member := by
  have hlt : member < (sessions T.point).meeting.parties := h.parties ▸ hmember
  have hbefore := h.calls member hmember
  rcases (sessions T.point).called_eq hlt (T.payload member round) with
    ⟨hout, hcalled⟩ | hcalled
  · -- outside, the caller has returned from all of its calls, so this one is the next
    have hfits := h.sound.agrees.standing member hlt
    rw [hout] at hfits
    obtain ⟨hcalls, hreturned⟩ := hfits
    have hlength : ((sessions T.point).minutes.calls member).length = round := by
      rw [hcalls, ← hreturned, hreturns]
    obtain ⟨hin, hdeposit⟩ := List.getElem?_eq_some_iff.mp (T.getElem?_deposits member hround)
    have hnext := List.concat_get_prefix hbefore (hlength ▸ hin)
    rw [List.get_eq_getElem] at hnext
    simp only [hlength, hdeposit] at hnext
    rwa [hcalled, Minutes.calls_recordCall_self]
  · rwa [hcalled]

/-- **Copies**: whoever returns from a round holds what everybody brings to it. -/
theorem copy_of_return {session : Session} (hsound : session.Sound)
    (hparties : session.meeting.parties = T.size)
    (hcalls : ∀ member < T.size, session.minutes.calls member <+: T.deposits member)
    (hmember : member < T.size) {round : Nat} (hround : round < T.rounds)
    {parts : List Bytes} (hreturn : (session.minutes.returns member)[round]? = some parts) :
    parts = T.copy round := by
  have hagrees := hsound.agrees
  have hparts := hagrees.returned member (hparties ▸ hmember) _ parts hreturn
  have hnumber : round < session.meeting.round.publications :=
    Nat.lt_of_lt_of_le (List.getElem?_eq_some_iff.mp hreturn).1
      (hagrees.returns_le_publications (hparties ▸ hmember))
  rw [hparts, hparties, Minutes.payloads, copy]
  refine List.map_congr_left fun j hj => ?_
  have hj : j < T.size := List.mem_range.mp hj
  have hlt : round < (session.minutes.calls j).length :=
    Nat.lt_of_lt_of_le hnumber (hagrees.publications_le_calls (hparties ▸ hj))
  have hcall : (session.minutes.calls j)[round]? = some (T.payload j round) := by
    rw [List.getElem?_eq_getElem hlt, (hcalls j hj).getElem hlt, ← List.getElem?_eq_getElem]
    exact T.getElem?_deposits j hround
  rw [List.getD_eq_getElem?_getD, hcall]
  rfl

/-- **Frame of a turn**: where one member has taken a turn, only the rest of its own program
has to fit the minutes. -/
theorem Follows.of_turn (h : T.Follows Q c sessions π) (hmember : member < T.size)
    {payload : Bytes} {p : Program σ α}
    (hcalls : ((sessions T.point).turn member payload).minutes.calls member <+:
      T.deposits member)
    (hkeeps : T.Keeps member (fun result standing round => Q member result standing ∧
      round = T.rounds) p (π member)
        (((sessions T.point).turn member payload).minutes.returns member).length)
    (hallows : p.Allows (((sessions T.point).turn member payload).meeting.stage member)) :
    T.Follows Q ⟨c.shared, (c.hall.turn (T.seat member) payload).2, c.members.set member p⟩
      (Function.update sessions T.point ((sessions T.point).turn member payload)) π := by
  have hlt : member < (sessions T.point).meeting.parties := h.parties ▸ hmember
  have hparties : (T.seat member).parties = (sessions (T.seat member).point).meeting.parties :=
    h.parties.symm
  have hself := Function.update_self T.point ((sessions T.point).turn member payload) sessions
  have hstays : Function.update π member (π member) = π := Function.update_eq_self _ _
  rw [← hstays]
  apply h.of_change hmember
  case hinv =>
    rw [hstays]
    exact h.inv
  case hmembers => rfl
  case hhosts => exact (h.hosts.turn hparties hmember payload).1
  case hsound => exact hself.symm ▸ h.sound.turn member payload
  case hparties => rw [hself, Session.parties_turn]
  case hothers =>
    intro other hother
    have hminutes := (sessions T.point).minutes_turn_of_ne hother payload
    rw [hself]
    exact ⟨hminutes.1, hminutes.2, Session.stage_turn_of_ne hlt hother payload⟩
  case hcalls => exact hself.symm ▸ hcalls
  case hkeeps => exact hself.symm ▸ hkeeps
  case hallows => exact hself.symm ▸ hallows

/-- Whoever leaves with a turn holds what everybody brings to the round. -/
theorem Follows.copy_of_left (h : T.Follows Q c sessions π) (hmember : member < T.size)
    {round : Nat} (hround : round < T.rounds)
    (hnumber : ((sessions T.point).minutes.returns member).length = round) {parts : List Bytes}
    (hminutes : ((sessions T.point).turn member (T.payload member round)).minutes =
      ((sessions T.point).called member (T.payload member round)).recordReturn member parts) :
    parts = T.copy round := by
  have hreturns : ((sessions T.point).turn member (T.payload member round)).minutes.returns
      member = (sessions T.point).minutes.returns member ++ [parts] := by
    rw [hminutes, Minutes.returns_recordReturn_self, Session.returns_called]
  refine copy_of_return (h.sound.turn member (T.payload member round)) ?_
    (fun other hother => ?_) hmember hround
    (by rw [hreturns, ← hnumber, List.getElem?_concat_length])
  · rw [Session.parties_turn, h.parties]
  · by_cases heq : other = member
    · rw [heq, hminutes]
      exact h.calls_called hmember hround hnumber
    · rw [((sessions T.point).minutes_turn_of_ne heq _).1]
      exact h.calls other hother

/-- **Turn** of a member that is awake at an exchange: it goes on with what everybody brings
to the round, or it falls asleep. -/
theorem Follows.turn (h : T.Follows Q c sessions π) (hmember : member < T.size) {seat : Seat}
    {payload : Bytes} {rest : List Bytes → Program σ α}
    (hprogram : c.members[member]? = some (.exchange seat payload rest))
    (hawake : ((c.hall.meeting seat).stage seat.slot).isAsleep = false) :
    ∃ sessions', T.Follows Q ⟨c.shared, (c.hall.turn seat payload).2, c.members.set member
        (((c.hall.turn seat payload).1.map rest).getD (.exchange seat payload rest))⟩
        sessions' π ∧
      Session.Advances T.size member (sessions T.point) (sessions' T.point) ∧
      ((c.hall.turn seat payload).1 = none →
        ((sessions' T.point).meeting.stage member).isAsleep = true) := by
  obtain ⟨p, hp, hkeeps, hallows⟩ := h.member member hmember
  rw [hprogram, Option.some.injEq] at hp
  subst hp
  obtain ⟨rfl, rfl, hround, hrest⟩ := hkeeps
  have hparties : (T.seat member).parties = (sessions (T.seat member).point).meeting.parties :=
    h.parties.symm
  have hlt : member < (sessions T.point).meeting.parties := h.parties ▸ hmember
  rw [h.hosts _ hparties] at hawake
  have hmay := hallows.mayTurn hawake
  generalize hnumber : ((sessions T.point).minutes.returns member).length = round at *
  have hcalls := h.calls_called hmember hround hnumber
  have hturned : (sessions T.point).Turned member (T.payload member round)
      (c.hall.turn (T.seat member) (T.payload member round)).1 := by
    rw [(h.hosts.turn hparties hmember (T.payload member round)).2]
    exact h.sound.turned hlt hmay
  have hadvances := hturned.advances hlt hmember h.sound.agrees.stages_length hmay
  generalize (c.hall.turn (T.seat member) (T.payload member round)).1 = found at hturned ⊢
  refine ⟨Function.update sessions T.point
    ((sessions T.point).turn member (T.payload member round)), ?_, ?_, ?_⟩
  · cases hturned with
    | left parts hstage hminutes =>
      apply h.of_turn hmember
      · rw [hminutes]
        exact hcalls
      · rw [hminutes, Minutes.returns_recordReturn_self, Session.returns_called,
          List.length_append, hnumber]
        exact h.copy_of_left hmember hround hnumber hminutes ▸ hrest
      · rw [hstage]
        exact Program.allows_outside _
    | barred hstage hminutes hdraining hbefore =>
      apply h.of_turn hmember
      · exact hminutes ▸ hcalls
      · rw [hminutes, Session.returns_called, hnumber]
        exact ⟨rfl, rfl, hround, hrest⟩
      · rw [hstage]
        exact Or.inr (Or.inr (Or.inl rfl))
    | parked generation hstage hminutes hfilling =>
      apply h.of_turn hmember
      · exact hminutes ▸ hcalls
      · rw [hminutes, Session.returns_called, hnumber]
        exact ⟨rfl, rfl, hround, hrest⟩
      · rw [hstage]
        exact Or.inr (Or.inr (Or.inr rfl))
  · rw [Function.update_self]
    exact hadvances
  · intro hnone
    rw [Function.update_self]
    cases hturned with
    | left parts hstage hminutes => cases hnone
    | barred hstage hminutes hdraining hbefore => exact hstage.symm ▸ rfl
    | parked generation hstage hminutes hfilling => exact hstage.symm ▸ rfl

/-- **Step lemma**: every move of the crew keeps to the table. -/
theorem Follows.move (h : T.Follows Q c sessions π) (m : Crew.Move) :
    ∃ sessions' π', T.Follows Q (c.move m) sessions' π' := by
  cases m with
  | wake point slot => exact ⟨_, _, h.wake point slot⟩
  | step member =>
    by_cases hmember : member < T.size
    · obtain ⟨p, hp, hkeeps, -⟩ := h.member member hmember
      cases p with
      | done result =>
        exact ⟨sessions, π, by rw [Crew.move, Crew.step?_of_done hp]; exact h⟩
      | act change rest =>
        obtain ⟨standing, h'⟩ := h.act hmember hp
        exact ⟨sessions, _, by rw [Crew.move, Crew.step?_of_act hp]; exact h'⟩
      | exchange seat payload rest =>
        cases hasleep : ((c.hall.meeting seat).stage seat.slot).isAsleep with
        | true =>
          exact ⟨sessions, π, by rw [Crew.move, Crew.step?_of_asleep hp hasleep]; exact h⟩
        | false =>
          obtain ⟨sessions', h', -⟩ := h.turn hmember hp hasleep
          exact ⟨sessions', π, by rw [Crew.move, Crew.step?_of_exchange hp hasleep]; exact h'⟩
    · -- there is no such member
      have hnone := Crew.step?_of_le (h.length ▸ Nat.le_of_not_lt hmember)
      exact ⟨sessions, π, by rw [Crew.move, hnone]; exact h⟩

/-- **Run lemma**: so does every schedule. -/
theorem Follows.follow (h : T.Follows Q c sessions π) (schedule : List Crew.Move) :
    ∃ sessions' π', T.Follows Q (c.follow schedule) sessions' π' := by
  induction schedule generalizing c sessions π with
  | nil => exact ⟨sessions, π, h⟩
  | cons move rest ih =>
    obtain ⟨sessions', π', h'⟩ := h.move move
    exact ih h'

end Table

/-! ## §6 Passes -/

namespace Crew

variable {σ α : Type} {c : Crew σ α} {member : Nat}

/-- Drive one member, and leave the others where they are. -/
def driveOne (c : Crew σ α) (member : Nat) : Crew σ α :=
  match c.members[member]? with
  | none => c
  | some program =>
      let (program, shared, hall) := program.drive c.shared c.hall
      ⟨shared, hall, c.members.set member program⟩

/-- A pass drives one member after the other. -/
theorem pass_eq (c : Crew σ α) :
    c.pass = (List.range c.members.length).foldl driveOne c := by
  -- with the members in front that have had their turn
  have hall : ∀ (todo front : List (Program σ α)) (s : σ) (h : Hall),
      (List.range' front.length todo.length).foldl driveOne ⟨s, h, front ++ todo⟩ =
        ⟨(driveAll s h todo).2.1, (driveAll s h todo).2.2, front ++ (driveAll s h todo).1⟩ := by
    intro todo
    induction todo with
    | nil => intro front s h; rfl
    | cons program rest ih =>
      intro front s h
      have hone : driveOne ⟨s, h, front ++ program :: rest⟩ front.length =
          ⟨(program.drive s h).2.1, (program.drive s h).2.2,
            (front ++ [(program.drive s h).1]) ++ rest⟩ := by
        simp [driveOne]
      have hnext := ih (front ++ [(program.drive s h).1]) (program.drive s h).2.1
        (program.drive s h).2.2
      rw [List.length_append, List.length_singleton] at hnext
      rw [List.length_cons, List.range'_succ, List.foldl_cons, hone, hnext]
      simp [driveAll]
  have hwhole := hall c.members [] c.shared c.hall
  rw [List.nil_append, List.length_nil, ← List.range_eq_range'] at hwhole
  rw [hwhole]
  rfl

theorem driveOne_of_ne (c : Crew σ α) {other : Nat} (h : other ≠ member) :
    (c.driveOne member).members[other]? = c.members[other]? := by
  unfold driveOne
  split
  · rfl
  · simp [Ne.symm h]

theorem driveOne_eq {p : Program σ α} (h : c.members[member]? = some p) :
    c.driveOne member = ⟨(p.drive c.shared c.hall).2.1, (p.drive c.shared c.hall).2.2,
      c.members.set member (p.drive c.shared c.hall).1⟩ := by
  simp only [driveOne, h]

theorem set_member {p : Program σ α} (h : c.members[member]? = some p) :
    c.members.set member p = c.members := by
  obtain ⟨hlt, rfl⟩ := List.getElem?_eq_some_iff.mp h
  exact List.set_getElem_self hlt

/-- A member that has ended, or is asleep, stays where it is. -/
theorem driveOne_of_done {result : α} (h : c.members[member]? = some (.done result)) :
    c.driveOne member = c := by
  simp only [driveOne_eq h, Program.drive, set_member h]

theorem driveOne_of_asleep {seat : Seat} {payload : Bytes} {rest : List Bytes → Program σ α}
    (h : c.members[member]? = some (.exchange seat payload rest))
    (hasleep : ((c.hall.meeting seat).stage seat.slot).isAsleep = true) :
    c.driveOne member = c := by
  simp only [driveOne_eq h, Program.drive, if_pos hasleep, set_member h]

/-- A drive goes on after an action. -/
theorem driveOne_of_act {change : σ → σ} {rest : σ → Program σ α}
    (h : c.members[member]? = some (.act change rest)) :
    c.driveOne member = driveOne
      ⟨change c.shared, c.hall, c.members.set member (rest c.shared)⟩ member := by
  have hlt := (List.getElem?_eq_some_iff.mp h).1
  rw [driveOne_eq h, driveOne_eq (List.getElem?_set_self hlt)]
  simp only [Program.drive, List.set_set]

/-- A drive goes on after a turn that ends with a copy, and stops after any other one. -/
theorem driveOne_of_exchange {seat : Seat} {payload : Bytes} {rest : List Bytes → Program σ α}
    (h : c.members[member]? = some (.exchange seat payload rest))
    (hawake : ((c.hall.meeting seat).stage seat.slot).isAsleep = false) :
    c.driveOne member = match (c.hall.turn seat payload).1 with
      | some parts => driveOne
          ⟨c.shared, (c.hall.turn seat payload).2, c.members.set member (rest parts)⟩ member
      | none => ⟨c.shared, (c.hall.turn seat payload).2,
          c.members.set member (.exchange seat payload rest)⟩ := by
  have hlt := (List.getElem?_eq_some_iff.mp h).1
  rw [driveOne_eq h]
  simp only [Program.drive, hawake, Bool.false_eq_true, if_false]
  obtain ⟨found, hall⟩ := c.hall.turn seat payload
  cases found with
  | none => rfl
  | some parts =>
    dsimp only
    rw [driveOne_eq (List.getElem?_set_self hlt), List.set_set]

end Crew

namespace Table

variable {σ S α : Type} {T : Table σ S} {Q : Nat → α → S → Prop} {c : Crew σ α}
  {sessions : Point → Session} {π : Nat → S} {member : Nat}

/-- A member that cannot go on by itself: it has ended or is asleep at the table. -/
def AtRest (c : Crew σ α) (session : Session) (member : Nat) : Prop :=
  (∃ result, c.members[member]? = some (.done result)) ∨
    (session.meeting.stage member).isAsleep = true

/-- **Drive lemma**: driving a member keeps to the table and advances the meeting, until the
member is at rest. -/
theorem Follows.driveOne (p : Program σ α) (h : T.Follows Q c sessions π)
    (hmember : member < T.size) (hprogram : c.members[member]? = some p) :
    ∃ sessions' π', T.Follows Q (c.driveOne member) sessions' π' ∧
      Session.Advances T.size member (sessions T.point) (sessions' T.point) ∧
      AtRest (c.driveOne member) (sessions' T.point) member := by
  induction p generalizing c sessions π with
  | done result =>
    rw [Crew.driveOne_of_done hprogram]
    exact ⟨sessions, π, h, .refl _ _ _, Or.inl ⟨result, hprogram⟩⟩
  | act change rest ih =>
    obtain ⟨standing, h'⟩ := h.act hmember hprogram
    have hlt := (List.getElem?_eq_some_iff.mp hprogram).1
    rw [Crew.driveOne_of_act hprogram]
    exact ih c.shared h' (List.getElem?_set_self hlt)
  | exchange seat payload rest ih =>
    have hlt := (List.getElem?_eq_some_iff.mp hprogram).1
    cases hasleep : ((c.hall.meeting seat).stage seat.slot).isAsleep with
    | true =>
      rw [Crew.driveOne_of_asleep hprogram hasleep]
      refine ⟨sessions, π, h, .refl _ _ _, Or.inr ?_⟩
      obtain ⟨q, hq, hkeeps, -⟩ := h.member member hmember
      rw [hprogram, Option.some.injEq] at hq
      subst hq
      obtain ⟨rfl, -⟩ := hkeeps
      rwa [h.hosts (T.seat member) h.parties.symm] at hasleep
    | false =>
      obtain ⟨sessions', h', hadvances, hsleeps⟩ := h.turn hmember hprogram hasleep
      rw [Crew.driveOne_of_exchange hprogram hasleep]
      cases hfound : (c.hall.turn seat payload).1 with
      | none =>
        rw [hfound] at h'
        exact ⟨sessions', π, h', hadvances, Or.inr (hsleeps hfound)⟩
      | some parts =>
        rw [hfound] at h'
        obtain ⟨sessions'', π', h'', hadvances', hrest⟩ :=
          ih parts h' (List.getElem?_set_self hlt)
        exact ⟨sessions'', π', h'', hadvances.trans hadvances', hrest⟩

/-- When everybody is at rest, everybody has ended: a blocked meeting waits for a member that
has not come, and whoever has ended has come to all rounds. -/
theorem Follows.hasEnded_of_rest (h : T.Follows Q c sessions π)
    (hrest : ∀ member < T.size, AtRest c (sessions T.point) member) : c.hasEnded = true := by
  -- whoever is at the table at rest is asleep
  have houtside : ∀ member < T.size, (∃ result, c.members[member]? = some (.done result)) →
      ¬ (sessions T.point).Inside member := by
    intro member hmember hdone hinside
    obtain ⟨result, hdone⟩ := hdone
    obtain ⟨p, hp, -, hallows⟩ := h.member member hmember
    rw [hdone, Option.some.injEq] at hp
    subst hp
    have hout : (sessions T.point).meeting.stage member = .outside := hallows
    simp [Session.Inside, hout, Stage.isInside] at hinside
  have hblocked : ∀ slot, (sessions T.point).Inside slot → (sessions T.point).Blocked slot := by
    intro slot hinside
    have hslot : slot < T.size := by
      rw [← h.parties]
      refine h.sound.lt_parties fun hout => ?_
      simp [Session.Inside, hout, Stage.isInside] at hinside
    rcases hrest slot hslot with hdone | hasleep
    · exact absurd hinside (houtside slot hslot hdone)
    · exact Session.blocked_iff.mpr hasleep
  have hdone : ∀ member < T.size, ∃ result, c.members[member]? = some (.done result) := by
    intro member hmember
    rcases hrest member hmember with hdone | hasleep
    · exact hdone
    · exfalso
      have hparties : 0 < (sessions T.point).meeting.parties := by
        rw [h.parties]
        exact Nat.zero_lt_of_lt hmember
      obtain ⟨j, hj, hout, hfewer⟩ := h.sound.missing hparties hblocked
      rw [h.parties] at hj
      rcases hrest j hj with ⟨result, hended⟩ | hsleeps
      · obtain ⟨p, hp, hkeeps, -⟩ := h.member j hj
        rw [hended, Option.some.injEq] at hp
        subst hp
        have hall : ((sessions T.point).minutes.returns j).length = T.rounds := hkeeps.2
        have hcalls := (h.calls member hmember).length_le
        have hless := hfewer member (Session.blocked_iff.mpr hasleep).1
        simp only [deposits, List.length_map, List.length_range] at hcalls
        omega
      · exact hout (Session.blocked_iff.mpr hsleeps).1
  apply List.all_eq_true.mpr
  intro p hp
  obtain ⟨member, hmember, rfl⟩ := List.mem_iff_getElem.mp hp
  obtain ⟨result, hresult⟩ := hdone member (h.length ▸ hmember)
  rw [List.getElem?_eq_getElem hmember, Option.some.injEq] at hresult
  rw [hresult]
  rfl

/-- **Pass lemma**: after a pass everybody has ended, or the table has got further. -/
theorem Follows.pass (h : T.Follows Q c sessions π) :
    ∃ sessions' π', T.Follows Q c.pass sessions' π' ∧
      (c.pass.hasEnded = true ∨
        (sessions T.point).total T.size < (sessions' T.point).total T.size) := by
  -- after the first few members the table has got further, or all of them are at rest
  have hsome : ∀ k ≤ T.size, ∃ sessions' π',
      T.Follows Q ((List.range k).foldl Crew.driveOne c) sessions' π' ∧
        ((sessions T.point).total T.size < (sessions' T.point).total T.size ∨
          (sessions' T.point).total T.size = (sessions T.point).total T.size ∧
            ∀ member < k, AtRest ((List.range k).foldl Crew.driveOne c) (sessions' T.point)
              member) := by
    intro k hk
    induction k with
    | zero => exact ⟨sessions, π, h, Or.inr ⟨rfl, fun _ hlt => absurd hlt (Nat.not_lt_zero _)⟩⟩
    | succ k ih =>
      obtain ⟨sessions', π', h', hbefore⟩ := ih (Nat.le_of_succ_le hk)
      obtain ⟨p, hp, -⟩ := h'.member k hk
      obtain ⟨sessions'', π'', h'', hadvances, hrest⟩ := h'.driveOne p hk hp
      rw [List.range_succ, List.foldl_concat]
      refine ⟨sessions'', π'', h'', ?_⟩
      rcases hbefore with hlt | ⟨heq, hall⟩
      · left
        rcases hadvances with hmore | ⟨hsame, -⟩
        · exact hlt.trans hmore
        · rwa [hsame]
      · rcases hadvances with hmore | ⟨hsame, hothers⟩
        · left
          rwa [← heq]
        · refine Or.inr ⟨hsame.trans heq, fun member hmember => ?_⟩
          rcases Nat.lt_succ_iff_lt_or_eq.mp hmember with hlt | rfl
          · have hne : member ≠ k := Nat.ne_of_lt hlt
            rcases hall member hlt with ⟨result, hdone⟩ | hasleep
            · exact Or.inl ⟨result, by rw [Crew.driveOne_of_ne _ hne, hdone]⟩
            · exact Or.inr (by rw [hothers member hne, hasleep])
          · exact hrest
  obtain ⟨sessions', π', h', hwhole⟩ := hsome T.size (Nat.le_refl _)
  rw [← h.length, ← Crew.pass_eq] at h' hwhole
  refine ⟨sessions', π', h', ?_⟩
  rcases hwhole with hlt | ⟨-, hall⟩
  · exact Or.inr (h.length ▸ hlt)
  · exact Or.inl (h'.hasEnded_of_rest (h.length ▸ hall))

/-- Nobody gets further than the rounds. -/
theorem Follows.total_le (h : T.Follows Q c sessions π) :
    (sessions T.point).total T.size ≤ T.size * (2 * T.rounds) := by
  have hsum : (sessions T.point).total T.size ≤ ∑ _slot ∈ Finset.range T.size, 2 * T.rounds := by
    apply Finset.sum_le_sum
    intro slot hslot
    have hslot := Finset.mem_range.mp hslot
    have hprogress := h.sound.progress_le (h.parties ▸ hslot)
    have hcalls := (h.calls slot hslot).length_le
    simp only [deposits, List.length_map, List.length_range] at hcalls
    omega
  simpa using hsum

/-- **Enough passes** bring everybody to an end. -/
theorem Follows.run (patience : Nat) (h : T.Follows Q c sessions π)
    (hpatience : T.size * (2 * T.rounds) < patience + (sessions T.point).total T.size) :
    ∃ sessions' π', T.Follows Q (c.run patience) sessions' π' ∧
      (c.run patience).hasEnded = true := by
  induction patience generalizing c sessions π with
  | zero =>
    have hle := h.total_le
    omega
  | succ patience ih =>
    rw [Crew.run]
    split
    · rename_i hended
      exact ⟨sessions, π, h, hended⟩
    · obtain ⟨sessions', π', h', hended | hlt⟩ := h.pass
      · refine ⟨sessions', π', ?_⟩
        have hstays : c.pass.run patience = c.pass := by
          cases patience with
          | zero => rfl
          | succ patience => rw [Crew.run, if_pos hended]
        rw [hstays]
        exact ⟨h', hended⟩
      · exact ih h' (by omega)

/-! ## §7 Whole runs -/

/-- What every member has come to when all have ended. -/
theorem Follows.results (h : T.Follows Q c sessions π) (hended : c.hasEnded = true) :
    c.results.length = T.size ∧ ∀ member < T.size, ∃ result,
      c.results[member]? = some (some result) ∧ Q member result (π member) := by
  refine ⟨by rw [Crew.results, List.length_map, h.length], fun member hmember => ?_⟩
  obtain ⟨p, hp, hkeeps, -⟩ := h.member member hmember
  have hsome := List.all_eq_true.mp hended p (List.mem_of_getElem? hp)
  cases p with
  | done result => exact ⟨result, by rw [Crew.results, List.getElem?_map, hp]; rfl, hkeeps.1⟩
  | act _ _ | exchange _ _ _ => cases hsome

/-- **Whole runs**: members that keep to a table from its beginning on come to an end with
the results wanted, whatever moves are made first. -/
theorem run_from_start (hinv : T.Inv c.shared π)
    (hunmet : c.hall.meetings.lookup T.point = none) (hlength : c.members.length = T.size)
    (hkeeps : ∀ member < T.size, ∃ p, c.members[member]? = some p ∧
      T.Keeps member (fun result standing round => Q member result standing ∧ round = T.rounds)
        p (π member) 0)
    (schedule : List Crew.Move) {patience : Nat}
    (hpatience : T.size * (2 * T.rounds) < patience) :
    (∃ sessions' π', T.Follows Q (c.follow schedule) sessions' π') ∧
      ∃ sessions' π', T.Follows Q ((c.follow schedule).run patience) sessions' π' ∧
        ((c.follow schedule).run patience).hasEnded = true := by
  obtain ⟨sessions', π', h'⟩ := (Follows.start hinv hunmet hlength hkeeps).follow schedule
  exact ⟨⟨sessions', π', h'⟩, h'.run patience
    (Nat.lt_of_lt_of_le hpatience (Nat.le_add_right _ _))⟩

end Table

end ClusterView
