import ClusterView.Engine
import ClusterView.Proofs.Hall
import Mathlib.Algebra.Order.BigOperators.Group.Finset
import Mathlib.Algebra.BigOperators.Group.Finset.Basic
import Mathlib.Data.Finset.Max

/-!
# Agendas

An agenda is a finite sequence of collectives, each of them one call of every member of a
group. The participants work through the agenda side by side: each makes exactly the calls
that it has a part in, one after the other, and waits in each for the others of the group.
Groups may overlap, and participants may be at different places of the agenda at a time.

Two things hold under every schedule. Each call answers what it would answer if the
collectives were made one after the other (`Item.answer`), and the agenda can always be
worked through to its end. The reason is the earliest collective that is not complete:
nobody that has a part in it can be waiting for anything else.

## Sections
- §1: Items and agendas
- §2: Working through an agenda
- §3: Places in an agenda
- §4: The state of the work
- §5: What one move preserves
- §6: There is always a way on
- §7: Whole schedules
-/

namespace ClusterView

/-! ## §1 Items and agendas -/

namespace Offer

variable {ε α : Type}

/-- The payload that an offer brings to its meeting. -/
def payload : Offer ε α → Bytes
  | .answer _ => []
  | .meet _ payload _ => payload

/-- What an offer comes to, given everybody's payloads. -/
def outcome : Offer ε α → List Bytes → Except ε α
  | .answer result, _ => result
  | .meet _ _ conclude, parts => conclude parts

end Offer

/-- **Item** of an agenda: a collective at a meeting point, with a call of each member. -/
structure Item (σ ε α : Type) where
  point : Point
  /-- The participants that take part, in the order of their slots. -/
  members : List Nat
  /-- The call that each of them makes. -/
  call : Nat → StateM σ (Offer ε α)

namespace Item

variable {σ ε α : Type}

/-- The payloads of all members' calls, in slot order. -/
def payloads (item : Item σ ε α) (s : σ) : List Bytes :=
  item.members.map fun rank => (item.call rank s).1.payload

/-- **Serial answer** of a member: what its call comes to on the payloads of this item
alone. -/
def answer (item : Item σ ε α) (s : σ) (rank : Nat) : Except ε α :=
  (item.call rank s).1.outcome (item.payloads s)

/-- **Admission**: every member's call passes its checks and meets the others at the
member's own slot, and leaves the state as it is. -/
structure Admitted (item : Item σ ε α) (s : σ) : Prop where
  distinct : item.members.Nodup
  meets : ∀ slot rank, item.members[slot]? = some rank → ∃ payload conclude,
    item.call rank s = (.meet ⟨item.point, item.members.length, slot⟩ payload conclude, s)

end Item

/-- **Agenda**: collectives in a fixed order. -/
abbrev Agenda (σ ε α : Type) := List (Item σ ε α)

/-- **Logbook**: a state, and what the calls of each participant have answered so far. -/
structure Logbook (σ β : Type) where
  state : σ
  /-- The answers of each participant, oldest first. -/
  notes : Nat → List β

namespace Logbook

variable {σ β α : Type}

/-- Act on the state alone. -/
def onState (action : StateM σ α) : StateM (Logbook σ β) α := fun book =>
  ((action book.state).1, { book with state := (action book.state).2 })

/-- Note an answer of a participant. -/
def note (rank : Nat) (answer : β) (book : Logbook σ β) : Logbook σ β :=
  { book with notes := Function.update book.notes rank (book.notes rank ++ [answer]) }

end Logbook

namespace Agenda

variable {σ ε α : Type}

/-- **Fitness** of an agenda for a number of participants: every item is admitted, its
members are participants, and a meeting point always has the same members. -/
structure Fit (agenda : Agenda σ ε α) (s : σ) (size : Nat) : Prop where
  admitted : ∀ item ∈ agenda, item.Admitted s
  inside : ∀ item ∈ agenda, ∀ rank ∈ item.members, rank < size
  grouped : ∀ item ∈ agenda, ∀ other ∈ agenda,
    item.point = other.point → item.members = other.members

theorem Fit.nil (s : σ) (size : Nat) : Fit ([] : Agenda σ ε α) s size := by
  constructor <;> exact fun _ h => absurd h List.not_mem_nil

/-- **One item more**: it fits in if it is admitted, its members are participants, and it has the
members of its point. -/
theorem Fit.insert {before after : Agenda σ ε α} {item : Item σ ε α} {s : σ} {size : Nat}
    (hfit : (before ++ after).Fit s size) (hadmitted : item.Admitted s)
    (hinside : ∀ rank ∈ item.members, rank < size)
    (hpoint : ∀ other ∈ before ++ after, other.point = item.point → other.members = item.members) :
    Fit (before ++ item :: after) s size := by
  -- each fact is known of the other items, and is to be added for this one
  have hcases : ∀ one ∈ before ++ item :: after, one ∈ before ++ after ∨ one = item := by
    intro one hone
    simp only [List.mem_append, List.mem_cons] at hone ⊢
    tauto
  constructor
  case admitted =>
    intro one hone
    rcases hcases one hone with hold | rfl
    · exact hfit.admitted one hold
    · exact hadmitted
  case inside =>
    intro one hone
    rcases hcases one hone with hold | rfl
    · exact hfit.inside one hold
    · exact hinside
  case grouped =>
    intro one hone other hother hsame
    rcases hcases one hone with hold | rfl
    · rcases hcases other hother with hold' | rfl
      · exact hfit.grouped one hold other hold' hsame
      · exact hpoint one hold hsame
    · rcases hcases other hother with hold' | rfl
      · exact (hpoint other hold' hsame.symm).symm
      · rfl

/-- The serial answers to a participant's calls, in order. -/
def answers (agenda : Agenda σ ε α) (s : σ) (rank : Nat) : List (Except ε α) :=
  (agenda.filter fun item => rank ∈ item.members).map fun item => item.answer s rank

/-! ## §2 Working through an agenda -/

/-- What a participant does with the answer of a call: note it, and go on. -/
def afterwards (rank : Nat) (rest : Program (Logbook σ (Except ε α)) Unit)
    (answer : Except ε α) : Program (Logbook σ (Except ε α)) Unit :=
  .act (Logbook.note rank answer) fun _ => rest

/-- **Part** of a participant: the calls of the items it is a member of, one after the
other. -/
def part (rank : Nat) : Agenda σ ε α → Program (Logbook σ (Except ε α)) Unit
  | [] => .done ()
  | item :: rest =>
      if rank ∈ item.members then
        (Program.collective (Logbook.onState (item.call rank))).bind
          (afterwards rank (part rank rest))
      else part rank rest

/-- **Crew** of an agenda: every participant with its part, in an empty hall. -/
def crew (agenda : Agenda σ ε α) (s : σ) (size : Nat) : Crew (Logbook σ (Except ε α)) Unit :=
  ⟨⟨s, fun _ => []⟩, Hall.empty, (List.range size).map fun rank => agenda.part rank⟩

/-! ## §3 Places in an agenda -/

/-- Number of items at a meeting point before a place in the agenda. -/
def rounds (agenda : Agenda σ ε α) (point : Point) (place : Nat) : Nat :=
  ((agenda.take place).filter fun item => item.point = point).length

/-- The first place from a given one on where a participant has a part. -/
def next (agenda : Agenda σ ε α) (rank place : Nat) : Nat :=
  place + (agenda.drop place).findIdx fun item => rank ∈ item.members

/-- The payloads that a participant brings to a meeting point, in order. -/
def deposits (agenda : Agenda σ ε α) (s : σ) (point : Point) (rank : Nat) : List Bytes :=
  (agenda.filter fun item => item.point = point).map fun item => (item.call rank s).1.payload

section Places

variable {agenda : Agenda σ ε α} {s : σ} {rank place : Nat} {item : Item σ ε α}

theorem le_next (agenda : Agenda σ ε α) (rank place : Nat) :
    place ≤ agenda.next rank place :=
  Nat.le_add_right _ _

theorem next_le (hplace : place ≤ agenda.length) (rank : Nat) :
    agenda.next rank place ≤ agenda.length := by
  have hle : (agenda.drop place).findIdx (fun item => rank ∈ item.members) ≤
      (agenda.drop place).length := List.findIdx_le_length
  rw [List.length_drop] at hle
  unfold next
  omega

/-- A participant has a part at its next place. -/
theorem mem_members_next (hitem : agenda[agenda.next rank place]? = some item) :
    rank ∈ item.members := by
  rw [next, ← List.getElem?_drop] at hitem
  obtain ⟨hlt, hget⟩ := List.getElem?_eq_some_iff.mp hitem
  have hfound := List.findIdx_getElem (w := hlt)
  rw [hget] at hfound
  simpa using hfound

/-- Between a place and the next one a participant has no part. -/
theorem not_mem_members_skipped :
    ∀ item ∈ (agenda.drop place).take (agenda.next rank place - place), rank ∉ item.members := by
  intro item hitem
  obtain ⟨i, hi, hget⟩ := List.mem_iff_getElem.mp hitem
  rw [List.length_take] at hi
  rw [next, Nat.add_sub_cancel_left] at hi
  have hlt : i < (agenda.drop place).findIdx fun item => rank ∈ item.members := by omega
  have hnot := List.not_of_lt_findIdx hlt
  rw [List.getElem_take] at hget
  simpa [hget] using hnot

theorem drop_eq_skipped_append (agenda : Agenda σ ε α) (rank place : Nat) :
    agenda.drop place = (agenda.drop place).take (agenda.next rank place - place) ++
      agenda.drop (agenda.next rank place) := by
  have hdrop : agenda.drop (agenda.next rank place) =
      (agenda.drop place).drop (agenda.next rank place - place) := by
    rw [List.drop_drop]
    congr 1
    have := le_next agenda rank place
    omega
  rw [hdrop, List.take_append_drop]

theorem take_eq_append_skipped (agenda : Agenda σ ε α) (rank place : Nat) :
    agenda.take (agenda.next rank place) = agenda.take place ++
      (agenda.drop place).take (agenda.next rank place - place) := by
  have hnext : agenda.next rank place = place + (agenda.next rank place - place) := by
    have := le_next agenda rank place
    omega
  conv_lhs => rw [hnext]
  exact List.take_add

/-- A participant's part begins at its next place. -/
theorem part_drop_next (agenda : Agenda σ ε α) (rank place : Nat) :
    part rank (agenda.drop (agenda.next rank place)) = part rank (agenda.drop place) := by
  -- a part is not changed by items in front that the participant is no member of
  have hskip : ∀ (skipped rest : Agenda σ ε α), (∀ item ∈ skipped, rank ∉ item.members) →
      part rank (skipped ++ rest) = part rank rest := by
    intro skipped rest hnot
    induction skipped with
    | nil => rfl
    | cons item skipped ih =>
      rw [List.cons_append, part, if_neg (hnot item (List.mem_cons_self ..))]
      exact ih fun other hother => hnot other (List.mem_cons_of_mem _ hother)
  conv_rhs => rw [drop_eq_skipped_append agenda rank place]
  exact (hskip _ _ not_mem_members_skipped).symm

/-- Items without part of the participant do not count among its answers. -/
theorem answers_take_next (agenda : Agenda σ ε α) (s : σ) (rank place : Nat) :
    answers (agenda.take (agenda.next rank place)) s rank =
      answers (agenda.take place) s rank := by
  have hnone : ((agenda.drop place).take (agenda.next rank place - place)).filter
      (fun item => rank ∈ item.members) = [] :=
    List.filter_eq_nil_iff.mpr fun item hitem => by
      simpa using not_mem_members_skipped item hitem
  rw [take_eq_append_skipped, answers, answers, List.filter_append, hnone, List.append_nil]

/-- Nor do they take place where the participant has a part every time. -/
theorem rounds_next {point : Point}
    (hpoint : ∀ item ∈ agenda, item.point = point → rank ∈ item.members) :
    agenda.rounds point (agenda.next rank place) = agenda.rounds point place := by
  have hnone : ((agenda.drop place).take (agenda.next rank place - place)).filter
      (fun item => item.point = point) = [] := by
    refine List.filter_eq_nil_iff.mpr fun item hitem => ?_
    have hmem : item ∈ agenda := List.mem_of_mem_drop (List.mem_of_mem_take hitem)
    simpa using fun hp => not_mem_members_skipped item hitem (hpoint item hmem hp)
  rw [rounds, take_eq_append_skipped, List.filter_append, hnone, List.append_nil, rounds]

theorem take_succ_of_getElem? (hitem : agenda[place]? = some item) :
    agenda.take (place + 1) = agenda.take place ++ [item] := by
  rw [List.take_add_one, hitem]
  rfl

theorem rounds_succ (hitem : agenda[place]? = some item) (point : Point) :
    agenda.rounds point (place + 1) =
      agenda.rounds point place + if item.point = point then 1 else 0 := by
  rw [rounds, take_succ_of_getElem? hitem, List.filter_append, List.length_append, rounds]
  by_cases hp : item.point = point <;> simp [hp]

theorem rounds_mono (agenda : Agenda σ ε α) (point : Point) {place later : Nat}
    (h : place ≤ later) : agenda.rounds point place ≤ agenda.rounds point later := by
  obtain ⟨k, rfl⟩ := Nat.exists_eq_add_of_le h
  rw [rounds, rounds, List.take_add, List.filter_append, List.length_append]
  exact Nat.le_add_right _ _

/-- The item at a place is the one with its number among those at its meeting point. -/
theorem filter_getElem?_rounds (hitem : agenda[place]? = some item) :
    (agenda.filter fun other => other.point = item.point)[agenda.rounds item.point place]? =
      some item := by
  have hlt : place < agenda.length := (List.getElem?_eq_some_iff.mp hitem).1
  have hsplit : agenda = agenda.take place ++ item :: agenda.drop (place + 1) := by
    conv_lhs => rw [← List.take_append_drop place agenda]
    rw [List.drop_eq_getElem_cons hlt, (List.getElem?_eq_some_iff.mp hitem).2]
  conv_lhs => rw [hsplit, List.filter_append]
  have hhead : ((item :: agenda.drop (place + 1)).filter fun other =>
      other.point = item.point) = item :: ((agenda.drop (place + 1)).filter fun other =>
        other.point = item.point) := by simp
  rw [hhead, rounds, ← hsplit, List.getElem?_append_right (Nat.le_refl _), Nat.sub_self]
  rfl

/-- What a participant brings to an item comes among its deposits at the item's number. -/
theorem deposits_rounds (hitem : agenda[place]? = some item) (s : σ) (rank : Nat) :
    (agenda.deposits s item.point rank)[agenda.rounds item.point place]? =
      some (item.call rank s).1.payload := by
  rw [deposits, List.getElem?_map, filter_getElem?_rounds hitem]
  rfl

/-- **Copies**: if everybody brings its deposits in order to a session at an item's point,
whoever returns from the round with the item's number holds the item's payloads. -/
theorem eq_payloads_of_return (hitem : agenda[place]? = some item) {session : Session}
    (hsound : session.Sound) (hparties : session.meeting.parties = item.members.length)
    (hcalls : ∀ j other, item.members[j]? = some other →
      session.minutes.calls j <+: agenda.deposits s item.point other)
    {slot : Nat} (hslot : slot < item.members.length) {parts : List Bytes}
    (hreturn : (session.minutes.returns slot)[agenda.rounds item.point place]? = some parts) :
    parts = item.payloads s := by
  have hagrees := hsound.agrees
  have hparts := hagrees.returned slot (hparties ▸ hslot) _ parts hreturn
  have hnumber : agenda.rounds item.point place < session.meeting.round.publications :=
    Nat.lt_of_lt_of_le (List.getElem?_eq_some_iff.mp hreturn).1
      (hagrees.returns_le_publications (hparties ▸ hslot))
  rw [hparts, hparties]
  apply List.ext_getElem?
  intro j
  by_cases hj : j < item.members.length
  · have hother := List.getElem?_eq_getElem hj
    have hlt : agenda.rounds item.point place < (session.minutes.calls j).length :=
      Nat.lt_of_lt_of_le hnumber (hagrees.publications_le_calls (hparties ▸ hj))
    have hcall : (session.minutes.calls j)[agenda.rounds item.point place]? =
        some (item.call item.members[j] s).1.payload := by
      rw [List.getElem?_eq_getElem hlt, (hcalls j _ hother).getElem hlt,
        ← List.getElem?_eq_getElem]
      exact deposits_rounds hitem s _
    rw [Minutes.getElem?_payloads _ hj, List.getD_eq_getElem?_getD, hcall, Item.payloads,
      List.getElem?_map, hother]
    rfl
  · have hle := Nat.le_of_not_lt hj
    rw [List.getElem?_eq_none (by simpa using hle),
      List.getElem?_eq_none (by simpa [Item.payloads] using hle)]

theorem answers_append (agenda others : Agenda σ ε α) (s : σ) (rank : Nat) :
    answers (agenda ++ others) s rank = agenda.answers s rank ++ others.answers s rank := by
  rw [answers, List.filter_append, List.map_append, answers, answers]

theorem answers_succ (hitem : agenda[place]? = some item) (hrank : rank ∈ item.members) :
    answers (agenda.take (place + 1)) s rank =
      answers (agenda.take place) s rank ++ [item.answer s rank] := by
  simp [answers, take_succ_of_getElem? hitem, List.filter_append, hrank]

theorem part_of_getElem? (hitem : agenda[place]? = some item) (hrank : rank ∈ item.members) :
    part rank (agenda.drop place) =
      (Program.collective (Logbook.onState (item.call rank))).bind
        (afterwards rank (part rank (agenda.drop (place + 1)))) := by
  obtain ⟨hlt, hget⟩ := List.getElem?_eq_some_iff.mp hitem
  rw [List.drop_eq_getElem_cons hlt, hget, part, if_pos hrank]

end Places

/-! ## §4 The state of the work -/

/-- **Phase** of a participant at its place in an agenda: about to make the call, in the
meeting before or after its deposit, or about to note the answer. -/
inductive Phase where
  | ready
  | coming
  | waiting
  | noting
deriving DecidableEq, Repr

/-- The stages that a phase allows at the seat of the current item. -/
def Phase.Allows (payload : Bytes) : Phase → Stage → Prop
  | .ready, stage | .noting, stage => stage = .outside
  | .coming, stage =>
      stage = .outside ∨ stage = .entering payload ∨ stage = .barred payload
  | .waiting, stage => stage.awaitsCopy = true

theorem Phase.Allows.woken {payload : Bytes} {phase : Phase} {stage : Stage}
    (h : phase.Allows payload stage) : phase.Allows payload stage.woken := by
  cases phase with
  | ready | noting =>
    have h : stage = .outside := h
    rw [h]
    rfl
  | coming =>
    rcases h with h | h | h <;> rw [h]
    · exact Or.inl rfl
    · exact Or.inr (Or.inl rfl)
    · exact Or.inr (Or.inl rfl)
  | waiting =>
    have h : stage.awaitsCopy = true := h
    exact (Stage.awaitsCopy_woken stage).trans h

/-- In a meeting, whoever is awake may take a turn. -/
theorem Phase.Allows.mayTurn {payload : Bytes} {phase : Phase} {stage : Stage}
    (h : phase.Allows payload stage) (hphase : phase = .coming ∨ phase = .waiting)
    (hawake : stage.isAsleep = false) : Session.MayTurn payload stage := by
  rcases hphase with rfl | rfl
  · rcases h with hout | hin | hbarred
    · exact Or.inl hout
    · exact Or.inr (Or.inl hin)
    · rw [hbarred] at hawake
      cases hawake
  · have h : stage.awaitsCopy = true := h
    cases stage with
    | returning generation => exact Or.inr (Or.inr ⟨generation, rfl⟩)
    | parked _ => cases hawake
    | outside | entering _ | barred _ | leaving _ => cases h

/-- **Course** of the work: the sessions that take place, and every participant's place in
the agenda with its phase there. -/
structure Course where
  /-- The session at each point. -/
  sessions : Point → Session
  /-- The place of each participant. -/
  place : Nat → Nat
  /-- The phase of each participant at its place. -/
  phase : Nat → Phase

namespace Course

/-- The course with another session at a point. -/
def withSession (g : Course) (point : Point) (session : Session) : Course :=
  { g with sessions := Function.update g.sessions point session }

/-- The course with a participant at another place, in another phase. -/
def moveTo (g : Course) (rank place : Nat) (phase : Phase) : Course :=
  { g with
    place := Function.update g.place rank place
    phase := Function.update g.phase rank phase }

/-- The place before which a participant has met the others everywhere. -/
def passed (g : Course) (rank : Nat) : Nat :=
  g.place rank + if g.phase rank = .noting then 1 else 0

@[simp] theorem sessions_withSession_self (g : Course) (point : Point) (session : Session) :
    (g.withSession point session).sessions point = session := by
  simp [withSession]

@[simp] theorem sessions_withSession_of_ne (g : Course) {point other : Point}
    (h : other ≠ point) (session : Session) :
    (g.withSession point session).sessions other = g.sessions other := by
  simp [withSession, h]

@[simp] theorem sessions_moveTo (g : Course) (rank place : Nat) (phase : Phase) :
    (g.moveTo rank place phase).sessions = g.sessions := rfl

@[simp] theorem place_moveTo_self (g : Course) (rank place : Nat) (phase : Phase) :
    (g.moveTo rank place phase).place rank = place := by
  simp [moveTo]

@[simp] theorem phase_moveTo_self (g : Course) (rank place : Nat) (phase : Phase) :
    (g.moveTo rank place phase).phase rank = phase := by
  simp [moveTo]

theorem moveTo_of_ne (g : Course) {rank other : Nat} (h : other ≠ rank) (place : Nat)
    (phase : Phase) : (g.moveTo rank place phase).place other = g.place other ∧
      (g.moveTo rank place phase).phase other = g.phase other := by
  simp [moveTo, h]

/-- **A seat in order**: the session at a point has seen as much of a slot's owner as the
owner's place says. -/
structure Seated (g : Course) (agenda : Agenda σ ε α) (s : σ) (point : Point)
    (slot rank : Nat) : Prop where
  returns : ((g.sessions point).minutes.returns slot).length =
    agenda.rounds point (g.passed rank)
  calls : (g.sessions point).minutes.calls slot <+: agenda.deposits s point rank
  here : ∀ item, agenda[g.place rank]? = some item → item.point = point →
    (g.phase rank).Allows (item.call rank s).1.payload ((g.sessions point).meeting.stage slot)
  away : (∀ item, agenda[g.place rank]? = some item → item.point ≠ point) →
    (g.sessions point).meeting.stage slot = .outside

end Course

/-- What is left of a participant's program at a place, in a phase. -/
def remains (agenda : Agenda σ ε α) (s : σ) (rank place : Nat) (phase : Phase) :
    Program (Logbook σ (Except ε α)) Unit :=
  match phase, agenda[place]? with
  | .ready, _ => part rank (agenda.drop place)
  | _, none => .done ()
  | .noting, some item =>
      afterwards rank (part rank (agenda.drop (place + 1))) (item.answer s rank)
  | _, some item =>
      (item.call rank s).1.toProgram.bind (afterwards rank (part rank (agenda.drop (place + 1))))

/-- A participant that waits in a meeting has the same left as before its deposit. -/
theorem remains_inside (agenda : Agenda σ ε α) (s : σ) (rank place : Nat) :
    agenda.remains s rank place .waiting = agenda.remains s rank place .coming := by
  unfold remains
  cases agenda[place]? <;> rfl

/-- **Work in order**: a crew stands where a course says. -/
structure Follows (agenda : Agenda σ ε α) (s : σ) (size : Nat)
    (c : Crew (Logbook σ (Except ε α)) Unit) (g : Course) : Prop where
  state : c.shared.state = s
  length : c.members.length = size
  hosts : c.hall.Hosts g.sessions
  sound : ∀ point, (g.sessions point).Sound
  parties : ∀ item ∈ agenda, (g.sessions item.point).meeting.parties = item.members.length
  program : ∀ rank < size,
    c.members[rank]? = some (agenda.remains s rank (g.place rank) (g.phase rank))
  place_le : ∀ rank < size, g.place rank ≤ agenda.length
  busy : ∀ rank < size, g.phase rank ≠ .ready → g.place rank < agenda.length
  mine : ∀ rank < size, ∀ item, agenda[g.place rank]? = some item → rank ∈ item.members
  notes : ∀ rank < size,
    c.shared.notes rank = answers (agenda.take (g.place rank)) s rank
  seats : ∀ item ∈ agenda, ∀ slot rank, item.members[slot]? = some rank →
    g.Seated agenda s item.point slot rank

/-- The course at the beginning. -/
def beginning (agenda : Agenda σ ε α) : Course where
  sessions point := Session.idle
    (((agenda.find? fun item => item.point = point).map fun item => item.members.length).getD 0)
  place rank := agenda.next rank 0
  phase _ := .ready

section Work

variable {agenda : Agenda σ ε α} {s : σ} {size : Nat}
  {c : Crew (Logbook σ (Except ε α)) Unit} {g : Course}

theorem Follows.crew (hfit : agenda.Fit s size) :
    agenda.Follows s size (agenda.crew s size) agenda.beginning := by
  have hshare : ∀ item ∈ agenda, ∀ rank ∈ item.members, ∀ other ∈ agenda,
      other.point = item.point → rank ∈ other.members := fun item hitem rank hrank other hother hp =>
    hfit.grouped item hitem other hother hp.symm ▸ hrank
  constructor
  · rfl
  · simp [Agenda.crew]
  · exact Hall.Hosts.empty _
  · exact fun point => Session.Sound.idle _
  · intro item hitem
    cases hfind : agenda.find? fun other => other.point = item.point with
    | none => exact absurd (List.find?_eq_none.mp hfind item hitem) (by simp)
    | some other =>
      have hpoint : other.point = item.point := by simpa using List.find?_some hfind
      have hsame := hfit.grouped other (List.mem_of_find?_eq_some hfind) item hitem hpoint
      simp [beginning, hfind, Session.idle, Meeting.idle, hsame]
  · intro rank hrank
    show ((List.range size).map fun rank => agenda.part rank)[rank]? =
      some (part rank (agenda.drop (agenda.next rank 0)))
    rw [part_drop_next]
    simp [List.getElem?_range hrank]
  · exact fun rank _ => next_le (Nat.zero_le _) rank
  · exact fun rank _ hphase => absurd rfl hphase
  · exact fun rank _ item hitem => mem_members_next hitem
  · intro rank _
    show [] = answers (agenda.take (agenda.next rank 0)) s rank
    rw [answers_take_next]
    rfl
  · intro item hitem slot rank hslot
    have hzero : agenda.rounds item.point (agenda.next rank 0) = 0 := by
      rw [rounds_next (hshare item hitem rank (List.mem_of_getElem? hslot))]
      rfl
    exact ⟨hzero.symm, List.nil_prefix, fun _ _ _ => Meeting.stage_idle _ _,
      fun _ => Meeting.stage_idle _ _⟩

end Work

/-! ## §5 What one move preserves -/

section Seats

variable {agenda : Agenda σ ε α} {s : σ} {g g' : Course} {point : Point} {slot rank : Nat}

/-- A seat stays in order in another session that treats its owner alike, apart from waking
it. -/
theorem Course.Seated.withSession (h : g.Seated agenda s point slot rank) {other : Point}
    {session : Session}
    (hsame : point = other →
      session.minutes.calls slot = (g.sessions point).minutes.calls slot ∧
      session.minutes.returns slot = (g.sessions point).minutes.returns slot ∧
      (session.meeting.stage slot = (g.sessions point).meeting.stage slot ∨
        session.meeting.stage slot = ((g.sessions point).meeting.stage slot).woken)) :
    (g.withSession other session).Seated agenda s point slot rank := by
  by_cases hpoint : point = other
  · obtain ⟨hcalls, hreturns, hstage⟩ := hsame hpoint
    subst hpoint
    constructor
    case returns =>
      rw [Course.sessions_withSession_self, hreturns]
      exact h.returns
    case calls =>
      rw [Course.sessions_withSession_self, hcalls]
      exact h.calls
    case here =>
      intro item hitem hq
      rw [Course.sessions_withSession_self]
      have hhere := h.here item hitem hq
      rcases hstage with hstage | hstage
      · rw [hstage]
        exact hhere
      · rw [hstage]
        exact hhere.woken
    case away =>
      intro hitem
      rw [Course.sessions_withSession_self]
      have haway := h.away hitem
      rcases hstage with hstage | hstage
      · rw [hstage, haway]
      · rw [hstage, haway]
        rfl
  · have hsession := Course.sessions_withSession_of_ne g hpoint session
    constructor
    case returns => exact hsession ▸ h.returns
    case calls => exact hsession ▸ h.calls
    case here => exact hsession ▸ h.here
    case away => exact hsession ▸ h.away

/-- A seat stays in order when somebody else moves on. -/
theorem Course.Seated.moveTo_of_ne (h : g.Seated agenda s point slot rank) {other : Nat}
    (hne : rank ≠ other) (place : Nat) (phase : Phase) :
    (g.moveTo other place phase).Seated agenda s point slot rank := by
  obtain ⟨hplace, hphase⟩ := Course.moveTo_of_ne g hne place phase
  constructor
  case returns =>
    rw [Course.passed, hplace, hphase]
    exact h.returns
  case calls => exact h.calls
  case here =>
    rw [hplace, hphase]
    exact h.here
  case away =>
    rw [hplace]
    exact h.away

/-- Elsewhere, noting an answer does not count. -/
theorem Course.rounds_passed {item : Item σ ε α} (hitem : agenda[g.place rank]? = some item)
    (hne : item.point ≠ point) :
    agenda.rounds point (g.passed rank) = agenda.rounds point (g.place rank) := by
  unfold Course.passed
  split
  · rw [rounds_succ hitem, if_neg hne]
    rfl
  · rfl

/-- Whoever is about to make a call, or to note its answer, is outside everywhere. -/
theorem Course.Seated.outside (h : g.Seated agenda s point slot rank)
    (hphase : g.phase rank = .ready ∨ g.phase rank = .noting) :
    (g.sessions point).meeting.stage slot = .outside := by
  by_cases hitem : ∃ item, agenda[g.place rank]? = some item ∧ item.point = point
  · obtain ⟨item, hitem, hpoint⟩ := hitem
    have hhere := h.here item hitem hpoint
    rcases hphase with hready | hnoting
    · rw [hready] at hhere
      exact hhere
    · rw [hnoting] at hhere
      exact hhere
  · apply h.away
    intro item hget hpoint
    exact hitem ⟨item, hget, hpoint⟩

end Seats

section Work

variable {agenda : Agenda σ ε α} {s : σ} {size : Nat}
  {c c' : Crew (Logbook σ (Except ε α)) Unit} {g g' : Course}

/-- **Frame**: where one participant moves, there is nothing to show about the program, the
place and the notes of the others. -/
theorem Follows.of_change (h : agenda.Follows s size c g) {rank : Nat} (hrank : rank < size)
    (hstate : c'.shared.state = s) (hhosts : c'.hall.Hosts g'.sessions)
    (hsound : ∀ point, (g'.sessions point).Sound)
    (hparties : ∀ point,
      (g'.sessions point).meeting.parties = (g.sessions point).meeting.parties)
    (hprogram : c'.members =
      c.members.set rank (agenda.remains s rank (g'.place rank) (g'.phase rank)))
    (hothers : ∀ other, other ≠ rank → g'.place other = g.place other ∧
      g'.phase other = g.phase other ∧ c'.shared.notes other = c.shared.notes other)
    (hle : g'.place rank ≤ agenda.length)
    (hbusy : g'.phase rank ≠ .ready → g'.place rank < agenda.length)
    (hmine : ∀ item, agenda[g'.place rank]? = some item → rank ∈ item.members)
    (hnotes : c'.shared.notes rank = answers (agenda.take (g'.place rank)) s rank)
    (hseats : ∀ item ∈ agenda, ∀ slot other, item.members[slot]? = some other →
      g'.Seated agenda s item.point slot other) :
    agenda.Follows s size c' g' := by
  have hlt : rank < c.members.length := h.length ▸ hrank
  constructor
  case state => exact hstate
  case length => rw [hprogram, List.length_set, h.length]
  case hosts => exact hhosts
  case sound => exact hsound
  case parties =>
    intro item hitem
    rw [hparties, h.parties item hitem]
  case program =>
    intro other hother
    rw [hprogram]
    by_cases heq : other = rank
    · subst heq
      rw [List.getElem?_set_self hlt]
    · obtain ⟨hplace, hphase, -⟩ := hothers other heq
      rw [List.getElem?_set_ne (Ne.symm heq), h.program other hother, hplace, hphase]
  case place_le =>
    intro other hother
    by_cases heq : other = rank
    · exact heq ▸ hle
    · exact (hothers other heq).1 ▸ h.place_le other hother
  case busy =>
    intro other hother
    by_cases heq : other = rank
    · exact heq ▸ hbusy
    · obtain ⟨hplace, hphase, -⟩ := hothers other heq
      rw [hplace, hphase]
      exact h.busy other hother
  case mine =>
    intro other hother
    by_cases heq : other = rank
    · exact heq ▸ hmine
    · exact (hothers other heq).1 ▸ h.mine other hother
  case notes =>
    intro other hother
    by_cases heq : other = rank
    · exact heq ▸ hnotes
    · obtain ⟨hplace, -, hsame⟩ := hothers other heq
      rw [hsame, hplace]
      exact h.notes other hother
  case seats => exact hseats

/-- **Chance waking** moves nobody. -/
theorem Follows.wake (h : agenda.Follows s size c g) (point : Point) (slot : Nat) :
    ∃ g', agenda.Follows s size (c.move (.wake point slot)) g' := by
  refine ⟨g.withSession point ((g.sessions point).step (.wake slot)), ?_⟩
  constructor
  case state => exact h.state
  case length => exact h.length
  case hosts => exact h.hosts.wake point slot
  case sound =>
    intro q
    by_cases hq : q = point
    · subst hq
      rw [Course.sessions_withSession_self]
      exact (h.sound q).step _
    · rw [Course.sessions_withSession_of_ne _ hq]
      exact h.sound q
  case parties =>
    intro item hitem
    rw [← h.parties item hitem]
    by_cases hq : item.point = point
    · rw [hq, Course.sessions_withSession_self, Session.parties_step]
    · rw [Course.sessions_withSession_of_ne _ hq]
  case program => exact h.program
  case place_le => exact h.place_le
  case busy => exact h.busy
  case mine => exact h.mine
  case notes => exact h.notes
  case seats =>
    intro item hitem j rank hj
    apply (h.seats item hitem j rank hj).withSession
    intro hq
    subst hq
    exact ⟨rfl, rfl, Meeting.stage_wake _ slot j⟩

/-- The seat of a participant at its current item. -/
theorem Follows.seat (h : agenda.Follows s size c g) {rank : Nat} (hrank : rank < size)
    {item : Item σ ε α} (hitem : agenda[g.place rank]? = some item) :
    ∃ slot, item.members[slot]? = some rank ∧ g.Seated agenda s item.point slot rank := by
  obtain ⟨slot, hslot⟩ := List.mem_iff_getElem?.mp (h.mine rank hrank item hitem)
  exact ⟨slot, hslot, h.seats item (List.mem_of_getElem? hitem) slot rank hslot⟩

/-- A participant at the end of the agenda has ended. -/
theorem Follows.program_done (h : agenda.Follows s size c g) {rank : Nat} (hrank : rank < size)
    (hitem : agenda[g.place rank]? = none) : c.members[rank]? = some (.done ()) := by
  have hle := List.getElem?_eq_none_iff.mp hitem
  have hready : g.phase rank = .ready := by
    by_contra hbusy
    exact absurd (h.busy rank hrank hbusy) (Nat.not_lt.mpr hle)
  rw [h.program rank hrank, hready]
  simp only [remains, List.drop_eq_nil_of_le hle, part]

/-- **Call**: a participant that is ready makes its call, which changes nothing yet. -/
theorem Follows.call (hfit : agenda.Fit s size) (h : agenda.Follows s size c g) {rank : Nat}
    (hrank : rank < size) (hready : g.phase rank = .ready) {item : Item σ ε α}
    (hitem : agenda[g.place rank]? = some item) :
    ∃ c', c.step? rank = some c' ∧
      agenda.Follows s size c' (g.moveTo rank (g.place rank) .coming) := by
  have hmem := h.mine rank hrank item hitem
  obtain ⟨slot, hslot, -⟩ := h.seat hrank hitem
  obtain ⟨payload, conclude, hcall⟩ :=
    (hfit.admitted item (List.mem_of_getElem? hitem)).meets slot rank hslot
  -- what is left of its program begins with the action that makes the call
  have hprogram : c.members[rank]? = some ((Program.collective
      (Logbook.onState (item.call rank))).bind
        (afterwards rank (part rank (agenda.drop (g.place rank + 1))))) := by
    rw [h.program rank hrank, hready, ← part_of_getElem? hitem hmem]
    rfl
  refine ⟨_, Crew.step?_of_act hprogram, ?_⟩
  have hstate : (item.call rank c.shared.state).2 = s := by
    rw [h.state, hcall]
  apply h.of_change hrank
  case hstate => exact hstate
  case hhosts => exact h.hosts
  case hsound => exact h.sound
  case hparties => exact fun _ => rfl
  case hprogram =>
    rw [Course.place_moveTo_self, Course.phase_moveTo_self]
    simp only [remains, hitem, ← h.state]
    rfl
  case hothers =>
    intro other hne
    obtain ⟨hplace, hphase⟩ := Course.moveTo_of_ne g hne (g.place rank) .coming
    exact ⟨hplace, hphase, rfl⟩
  case hle =>
    rw [Course.place_moveTo_self]
    exact h.place_le rank hrank
  case hbusy =>
    intro _
    rw [Course.place_moveTo_self]
    exact (List.getElem?_eq_some_iff.mp hitem).1
  case hmine =>
    rw [Course.place_moveTo_self]
    exact h.mine rank hrank
  case hnotes =>
    rw [Course.place_moveTo_self]
    exact h.notes rank hrank
  case hseats =>
    intro item' hitem' j other hj
    have hseat := h.seats item' hitem' j other hj
    by_cases hne : other = rank
    · subst hne
      constructor
      case returns =>
        rw [Course.passed, Course.place_moveTo_self, Course.phase_moveTo_self]
        simpa [Course.passed, hready] using hseat.returns
      case calls => exact hseat.calls
      case here =>
        intro _ _ _
        rw [Course.phase_moveTo_self]
        exact Or.inl (hseat.outside (Or.inl hready))
      case away =>
        intro _
        exact hseat.outside (Or.inl hready)
    · exact hseat.moveTo_of_ne hne _ _

/-- **Noting**: a participant notes the answer of its call, which is the serial one, and
goes on to the next item it has a part in. -/
theorem Follows.note (hfit : agenda.Fit s size) (h : agenda.Follows s size c g) {rank : Nat}
    (hrank : rank < size) (hnoting : g.phase rank = .noting) {item : Item σ ε α}
    (hitem : agenda[g.place rank]? = some item) :
    ∃ c', c.step? rank = some c' ∧
      agenda.Follows s size c'
        (g.moveTo rank (agenda.next rank (g.place rank + 1)) .ready) := by
  have hmem := h.mine rank hrank item hitem
  have hlt : g.place rank < agenda.length := (List.getElem?_eq_some_iff.mp hitem).1
  have hprogram : c.members[rank]? = some (afterwards rank
      (part rank (agenda.drop (g.place rank + 1))) (item.answer s rank)) := by
    rw [h.program rank hrank, hnoting]
    simp only [remains, hitem]
  refine ⟨_, Crew.step?_of_act hprogram, ?_⟩
  apply h.of_change hrank
  case hstate => exact h.state
  case hhosts => exact h.hosts
  case hsound => exact h.sound
  case hparties => exact fun _ => rfl
  case hprogram =>
    rw [Course.place_moveTo_self, Course.phase_moveTo_self]
    simp only [remains, part_drop_next]
  case hothers =>
    intro other hne
    obtain ⟨hplace, hphase⟩ :=
      Course.moveTo_of_ne g hne (agenda.next rank (g.place rank + 1)) .ready
    exact ⟨hplace, hphase, Function.update_of_ne hne _ _⟩
  case hle =>
    rw [Course.place_moveTo_self]
    exact next_le hlt rank
  case hbusy =>
    intro hphase
    rw [Course.phase_moveTo_self] at hphase
    exact absurd rfl hphase
  case hmine =>
    rw [Course.place_moveTo_self]
    exact fun _ => mem_members_next
  case hnotes =>
    rw [Course.place_moveTo_self, answers_take_next, answers_succ hitem hmem,
      ← h.notes rank hrank]
    exact Function.update_self _ _ _
  case hseats =>
    intro item' hitem' j other hj
    have hseat := h.seats item' hitem' j other hj
    by_cases hne : other = rank
    · subst hne
      -- between the old place and the new one the participant has no part
      have hrounds : agenda.rounds item'.point (agenda.next other (g.place other + 1)) =
          agenda.rounds item'.point (g.place other + 1) := by
        apply rounds_next
        intro item'' hitem'' hpoint
        rw [hfit.grouped item'' hitem'' item' hitem' hpoint]
        exact List.mem_of_getElem? hj
      constructor
      case returns =>
        rw [Course.passed, Course.place_moveTo_self, Course.phase_moveTo_self]
        simpa [Course.passed, hnoting, hrounds] using hseat.returns
      case calls => exact hseat.calls
      case here =>
        intro _ _ _
        rw [Course.phase_moveTo_self]
        exact hseat.outside (Or.inr hnoting)
      case away =>
        intro _
        exact hseat.outside (Or.inr hnoting)
    · exact hseat.moveTo_of_ne hne _ _

/-- At its own meeting, a participant's seat is in order if the turn has left it so. -/
theorem Course.Seated.turned {rank slot : Nat} {item : Item σ ε α}
    (hitem : agenda[g.place rank]? = some item) {session : Session} {phase : Phase}
    (hreturns : (session.minutes.returns slot).length =
      agenda.rounds item.point (g.place rank + if phase = .noting then 1 else 0))
    (hcalls : session.minutes.calls slot <+: agenda.deposits s item.point rank)
    (hstage : phase.Allows (item.call rank s).1.payload (session.meeting.stage slot)) :
    ((g.withSession item.point session).moveTo rank (g.place rank) phase).Seated agenda s
      item.point slot rank := by
  constructor
  case returns =>
    rw [Course.passed, Course.place_moveTo_self, Course.phase_moveTo_self,
      Course.sessions_moveTo, Course.sessions_withSession_self]
    exact hreturns
  case calls =>
    rw [Course.sessions_moveTo, Course.sessions_withSession_self]
    exact hcalls
  case here =>
    intro other hother _
    rw [Course.place_moveTo_self, hitem] at hother
    rw [Course.phase_moveTo_self, Course.sessions_moveTo, Course.sessions_withSession_self,
      ← Option.some.inj hother]
    exact hstage
  case away =>
    intro haway
    rw [Course.place_moveTo_self] at haway
    exact absurd rfl (haway item hitem)

/-- Its seats at other meetings stay as they are. -/
theorem Course.Seated.turned_elsewhere {point : Point} {rank slot : Nat} {item : Item σ ε α}
    (h : g.Seated agenda s point slot rank) (hitem : agenda[g.place rank]? = some item)
    (hpoint : point ≠ item.point) (session : Session) (phase : Phase) :
    ((g.withSession item.point session).moveTo rank (g.place rank) phase).Seated agenda s
      point slot rank := by
  have haway : ∀ other, agenda[g.place rank]? = some other → other.point ≠ point := by
    intro other hother hsame
    rw [hitem, Option.some.injEq] at hother
    exact hpoint (hother ▸ hsame.symm)
  have helsewhere := Course.sessions_withSession_of_ne g hpoint session
  constructor
  case returns =>
    rw [Course.sessions_moveTo, helsewhere, h.returns,
      Course.rounds_passed hitem (Ne.symm hpoint)]
    apply Eq.symm
    rw [Course.rounds_passed (by rw [Course.place_moveTo_self]; exact hitem)
      (Ne.symm hpoint), Course.place_moveTo_self]
  case calls =>
    rw [Course.sessions_moveTo, helsewhere]
    exact h.calls
  case here =>
    intro other hother hsame
    rw [Course.place_moveTo_self] at hother
    exact absurd hsame (haway other hother)
  case away =>
    intro _
    rw [Course.sessions_moveTo, helsewhere]
    exact h.away haway

/-- **A participant's turn** leaves every seat in order if it leaves its own in order. -/
theorem Follows.seats_turn (hfit : agenda.Fit s size) (h : agenda.Follows s size c g)
    {rank slot : Nat} {item : Item σ ε α} (hitem : agenda[g.place rank]? = some item)
    (hslot : item.members[slot]? = some rank) {session : Session} {phase : Phase}
    (hsession : session =
      (g.sessions item.point).turn slot (item.call rank s).1.payload)
    (hreturns : (session.minutes.returns slot).length =
      agenda.rounds item.point (g.place rank + if phase = .noting then 1 else 0))
    (hcalls : session.minutes.calls slot <+: agenda.deposits s item.point rank)
    (hstage : phase.Allows (item.call rank s).1.payload (session.meeting.stage slot)) :
    ∀ item' ∈ agenda, ∀ j other, item'.members[j]? = some other →
      ((g.withSession item.point session).moveTo rank (g.place rank) phase).Seated agenda s
        item'.point j other := by
  intro item' hitem' j other hj
  have hmem : item ∈ agenda := List.mem_of_getElem? hitem
  have hdistinct := (hfit.admitted item hmem).distinct
  have hlt : slot < (g.sessions item.point).meeting.parties := by
    rw [h.parties item hmem]
    exact (List.getElem?_eq_some_iff.mp hslot).1
  have hseat := h.seats item' hitem' j other hj
  by_cases hother : other = rank
  · subst hother
    by_cases hpoint : item'.point = item.point
    · have hj' : j = slot := by
        rw [hfit.grouped item' hitem' item hmem hpoint] at hj
        have hlt' := (List.getElem?_eq_some_iff.mp hj).1
        exact (List.getElem?_inj hlt' hdistinct).mp (hj.trans hslot.symm)
      rw [hpoint, hj']
      exact Course.Seated.turned hitem hreturns hcalls hstage
    · exact hseat.turned_elsewhere hitem hpoint session phase
  · -- for the others it is a turn of somebody else, at another slot
    refine Course.Seated.moveTo_of_ne (hseat.withSession fun hpoint => ?_) hother _ _
    have hj' : j ≠ slot := by
      rintro rfl
      rw [hfit.grouped item' hitem' item hmem hpoint, hslot, Option.some.injEq] at hj
      exact hother hj.symm
    obtain ⟨hcalls', hreturns'⟩ :=
      (g.sessions item.point).minutes_turn_of_ne hj' (item.call rank s).1.payload
    rw [hpoint, hsession]
    exact ⟨hcalls', hreturns', Session.stage_turn_of_ne hlt hj' _⟩

/-- What a turn does to the notes about its caller, as far as the agenda goes. -/
theorem Follows.calls_called (h : agenda.Follows s size c g) {rank : Nat}
    {item : Item σ ε α} (hitem : agenda[g.place rank]? = some item)
    (hnoting : g.phase rank ≠ .noting) {slot : Nat} (hslot : item.members[slot]? = some rank) :
    ((g.sessions item.point).called slot (item.call rank s).1.payload).calls slot <+:
        agenda.deposits s item.point rank ∧
      (((g.sessions item.point).called slot (item.call rank s).1.payload).returns slot).length =
        agenda.rounds item.point (g.place rank) := by
  have hmem : item ∈ agenda := List.mem_of_getElem? hitem
  have hseat := h.seats item hmem slot rank hslot
  have hlt : slot < (g.sessions item.point).meeting.parties := by
    rw [h.parties item hmem]
    exact (List.getElem?_eq_some_iff.mp hslot).1
  have hreturns : ((g.sessions item.point).minutes.returns slot).length =
      agenda.rounds item.point (g.place rank) := by
    simpa [Course.passed, hnoting] using hseat.returns
  rcases (g.sessions item.point).called_eq hlt (item.call rank s).1.payload with
    ⟨hout, hcalled⟩ | hcalled
  · rw [hcalled]
    refine ⟨?_, hreturns⟩
    -- outside, the caller has returned from all of its calls, so this one is the next
    have hfits := (h.sound item.point).agrees.standing slot hlt
    rw [hout] at hfits
    obtain ⟨hcalls, hreturned⟩ := hfits
    have hlength : ((g.sessions item.point).minutes.calls slot).length =
        agenda.rounds item.point (g.place rank) := by
      rw [hcalls, ← hreturned, hreturns]
    obtain ⟨hin, hdeposit⟩ := List.getElem?_eq_some_iff.mp (deposits_rounds hitem s rank)
    have hnext := List.concat_get_prefix hseat.calls (hlength ▸ hin)
    rw [List.get_eq_getElem] at hnext
    simp only [hlength, hdeposit] at hnext
    rw [Minutes.calls_recordCall_self]
    exact hnext
  · rw [hcalled]
    exact ⟨hseat.calls, hreturns⟩

theorem Follows.of_turn (h : agenda.Follows s size c g) {rank : Nat} (hrank : rank < size)
    {item : Item σ ε α} (hitem : agenda[g.place rank]? = some item) {session : Session}
    {phase : Phase} (hsound : session.Sound)
    (hparties : session.meeting.parties = (g.sessions item.point).meeting.parties)
    (hshared : c'.shared = c.shared)
    (hhosts : c'.hall.Hosts (Function.update g.sessions item.point session))
    (hprogram : c'.members = c.members.set rank (agenda.remains s rank (g.place rank) phase))
    (hseats : ∀ item' ∈ agenda, ∀ j other, item'.members[j]? = some other →
      ((g.withSession item.point session).moveTo rank (g.place rank) phase).Seated agenda s
        item'.point j other) :
    agenda.Follows s size c'
      ((g.withSession item.point session).moveTo rank (g.place rank) phase) := by
  apply h.of_change hrank
  case hstate => rw [hshared, h.state]
  case hhosts => exact hhosts
  case hsound =>
    intro q
    by_cases hq : q = item.point
    · subst hq
      rw [Course.sessions_moveTo, Course.sessions_withSession_self]
      exact hsound
    · rw [Course.sessions_moveTo, Course.sessions_withSession_of_ne g hq]
      exact h.sound q
  case hparties =>
    intro q
    by_cases hq : q = item.point
    · subst hq
      rw [Course.sessions_moveTo, Course.sessions_withSession_self, hparties]
    · rw [Course.sessions_moveTo, Course.sessions_withSession_of_ne g hq]
  case hprogram =>
    rw [Course.place_moveTo_self, Course.phase_moveTo_self]
    exact hprogram
  case hothers =>
    intro other hne
    obtain ⟨hplace, hphase⟩ :=
      Course.moveTo_of_ne (g.withSession item.point session) hne (g.place rank) phase
    exact ⟨hplace, hphase, by rw [hshared]⟩
  case hle =>
    rw [Course.place_moveTo_self]
    exact h.place_le rank hrank
  case hbusy =>
    intro _
    rw [Course.place_moveTo_self]
    exact (List.getElem?_eq_some_iff.mp hitem).1
  case hmine =>
    rw [Course.place_moveTo_self]
    exact h.mine rank hrank
  case hnotes =>
    rw [Course.place_moveTo_self, hshared]
    exact h.notes rank hrank
  case hseats => exact hseats

/-- In a meeting, what is left of a participant's program begins with the exchange. -/
theorem Follows.exchange (hfit : agenda.Fit s size) (h : agenda.Follows s size c g)
    {rank : Nat} (hrank : rank < size) {item : Item σ ε α}
    (hitem : agenda[g.place rank]? = some item)
    (hphase : g.phase rank = .coming ∨ g.phase rank = .waiting) {slot : Nat}
    (hslot : item.members[slot]? = some rank) :
    c.members[rank]? = some (.exchange ⟨item.point, item.members.length, slot⟩
      (item.call rank s).1.payload fun parts => afterwards rank
        (part rank (agenda.drop (g.place rank + 1))) ((item.call rank s).1.outcome parts)) := by
  obtain ⟨payload, conclude, hcall⟩ :=
    (hfit.admitted item (List.mem_of_getElem? hitem)).meets slot rank hslot
  rw [h.program rank hrank, hcall]
  rcases hphase with hp | hp
  · simp only [remains, hp, hitem, hcall]
    rfl
  · simp only [remains, hp, hitem, hcall]
    rfl

/-- **Turn**: a participant that is awake in a meeting takes the lock there. It leaves with
the serial answer, or it goes to sleep: before its deposit while a round is being picked up,
after its deposit while its round fills. -/
theorem Follows.turn (hfit : agenda.Fit s size) (h : agenda.Follows s size c g) {rank : Nat}
    (hrank : rank < size) {item : Item σ ε α} (hitem : agenda[g.place rank]? = some item)
    (hphase : g.phase rank = .coming ∨ g.phase rank = .waiting) {slot : Nat}
    (hslot : item.members[slot]? = some rank)
    (hawake : ((g.sessions item.point).meeting.stage slot).isAsleep = false) :
    ∃ c' session phase, c.step? rank = some c' ∧
      agenda.Follows s size c'
        ((g.withSession item.point session).moveTo rank (g.place rank) phase) ∧
      (phase = .noting ∨
        (phase = .coming ∧ g.phase rank = .coming ∧
          (g.sessions item.point).meeting.round.published.isSome) ∨
        (phase = .waiting ∧ (g.sessions item.point).meeting.round.published = none)) := by
  have hmem : item ∈ agenda := List.mem_of_getElem? hitem
  have hmembers : slot < item.members.length := (List.getElem?_eq_some_iff.mp hslot).1
  have hprogram := h.exchange hfit hrank hitem hphase hslot
  have hparties : (⟨item.point, item.members.length, slot⟩ : Seat).parties =
      (g.sessions item.point).meeting.parties := (h.parties item hmem).symm
  have hlt : slot < (g.sessions item.point).meeting.parties := hparties ▸ hmembers
  have hhere := (h.seats item hmem slot rank hslot).here item hitem rfl
  have hnoting : g.phase rank ≠ .noting := by
    rcases hphase with hp | hp <;> rw [hp] <;> decide
  obtain ⟨hcalls, hreturns⟩ := h.calls_called hitem hnoting hslot
  -- the turn in the hall is one of the session, with one of three outcomes
  have hturned := (h.sound item.point).turned hlt (hhere.mayTurn hphase hawake)
  obtain ⟨hhosts, hfound⟩ := h.hosts.turn hparties hmembers (item.call rank s).1.payload
  have hstep := Crew.step?_of_exchange hprogram (by rw [h.hosts _ hparties]; exact hawake)
  rw [← hfound] at hturned
  generalize (c.hall.turn ⟨item.point, item.members.length, slot⟩
    (item.call rank s).1.payload).1 = found at hstep hturned
  have hsound := (h.sound item.point).turn slot (item.call rank s).1.payload
  have hsame := (g.sessions item.point).parties_turn slot (item.call rank s).1.payload
  cases hturned with
  | left parts hstage hminutes =>
    -- it has one more copy, which holds this item's payloads
    have hseats := h.seats_turn hfit hitem hslot rfl
      (by rw [hminutes, Minutes.returns_recordReturn_self, List.length_append, hreturns,
            if_pos rfl, rounds_succ hitem, if_pos rfl]
          rfl)
      (by rw [hminutes]; exact hcalls) (show Phase.noting.Allows _ _ from hstage)
    refine ⟨_, _, .noting, hstep, h.of_turn hrank hitem hsound hsame rfl hhosts ?_ hseats,
      Or.inl rfl⟩
    have hparts : parts = item.payloads s := by
      apply eq_payloads_of_return hitem hsound (hsame.trans (h.parties item hmem)) ?_ hmembers
      · rw [hminutes, Minutes.returns_recordReturn_self, ← hreturns]
        exact List.getElem?_concat_length
      · intro j other hj
        have hseat := (hseats item hmem j other hj).calls
        rwa [Course.sessions_moveTo, Course.sessions_withSession_self] at hseat
    subst hparts
    simp only [remains, hitem]
    rfl
  | barred hstage hminutes hdraining hbefore =>
    -- only a caller before its deposit is kept out
    have hcoming : g.phase rank = .coming := by
      rcases hphase with hp | hp
      · exact hp
      · rw [hp] at hhere
        have hawaits : ((g.sessions item.point).meeting.stage slot).awaitsCopy = true := hhere
        rw [hbefore] at hawaits
        cases hawaits
    have hseats := h.seats_turn hfit hitem hslot rfl (by rw [hminutes]; exact hreturns)
      (by rw [hminutes]; exact hcalls)
      (show Phase.coming.Allows _ _ from Or.inr (Or.inr hstage))
    refine ⟨_, _, .coming, hstep, h.of_turn hrank hitem hsound hsame rfl hhosts ?_ hseats,
      Or.inr (Or.inl ⟨rfl, hcoming, hdraining⟩)⟩
    rw [← Option.some.inj ((h.program rank hrank).symm.trans hprogram), hcoming]
    rfl
  | parked generation hstage hminutes hfilling =>
    -- whichever it was before, it has deposited now
    have hawaits : Phase.waiting.Allows (item.call rank s).1.payload
        (((g.sessions item.point).turn slot (item.call rank s).1.payload).meeting.stage slot) := by
      rw [hstage]
      rfl
    have hseats := h.seats_turn hfit hitem hslot rfl (by rw [hminutes]; exact hreturns)
      (by rw [hminutes]; exact hcalls) hawaits
    refine ⟨_, _, .waiting, hstep, h.of_turn hrank hitem hsound hsame rfl hhosts ?_ hseats,
      Or.inr (Or.inr ⟨rfl, hfilling⟩)⟩
    have hremains : agenda.remains s rank (g.place rank) (g.phase rank) =
        agenda.remains s rank (g.place rank) .waiting := by
      rcases hphase with hp | hp
      · rw [hp, remains_inside]
      · rw [hp]
    rw [← hremains, ← Option.some.inj ((h.program rank hrank).symm.trans hprogram)]
    rfl

/-- **Step lemma**: no move of the crew gets the work out of order. -/
theorem Follows.move (hfit : agenda.Fit s size) (h : agenda.Follows s size c g)
    (m : Crew.Move) : ∃ g', agenda.Follows s size (c.move m) g' := by
  cases m with
  | wake point slot => exact h.wake point slot
  | step rank =>
    by_cases hrank : rank < size
    · cases hitem : agenda[g.place rank]? with
      | none =>
        have hnone := Crew.step?_of_done (h.program_done hrank hitem)
        exact ⟨g, by rw [Crew.move, hnone]; exact h⟩
      | some item =>
        cases hphase : g.phase rank with
        | ready =>
          obtain ⟨c', hstep, h'⟩ := h.call hfit hrank hphase hitem
          exact ⟨_, by rw [Crew.move, hstep]; exact h'⟩
        | noting =>
          obtain ⟨c', hstep, h'⟩ := h.note hfit hrank hphase hitem
          exact ⟨_, by rw [Crew.move, hstep]; exact h'⟩
        | coming | waiting =>
          obtain ⟨slot, hslot, -⟩ := h.seat hrank hitem
          have hinside : g.phase rank = .coming ∨ g.phase rank = .waiting := by simp [hphase]
          cases hasleep : ((g.sessions item.point).meeting.stage slot).isAsleep with
          | false =>
            obtain ⟨c', session, phase, hstep, h', -⟩ :=
              h.turn hfit hrank hitem hinside hslot hasleep
            exact ⟨_, by rw [Crew.move, hstep]; exact h'⟩
          | true =>
            -- somebody asleep has no step
            have hmeeting := h.hosts ⟨item.point, item.members.length, slot⟩
              (h.parties item (List.mem_of_getElem? hitem)).symm
            have hnone := Crew.step?_of_asleep (h.exchange hfit hrank hitem hinside hslot)
              (by rw [hmeeting]; exact hasleep)
            exact ⟨g, by rw [Crew.move, hnone]; exact h⟩
    · -- there is no such participant
      have hnone := Crew.step?_of_le (h.length ▸ Nat.le_of_not_lt hrank)
      exact ⟨g, by rw [Crew.move, hnone]; exact h⟩

end Work

/-! ## §6 There is always a way on -/

/-- How much of an item a phase has behind it. -/
def Phase.weight : Phase → Nat
  | .ready => 0
  | .coming => 1
  | .waiting => 2
  | .noting => 3

namespace Course

/-- What a participant still has to do. -/
def toDo (g : Course) (agenda : Agenda σ ε α) (rank : Nat) : Nat :=
  4 * (agenda.length - g.place rank) - (g.phase rank).weight

/-- **Work** that is left for all participants together. -/
def work (g : Course) (agenda : Agenda σ ε α) (size : Nat) : Nat :=
  ∑ rank ∈ Finset.range size, g.toDo agenda rank

/-- When one participant has less to do, there is less work left. -/
theorem work_moveTo_lt {g : Course} {agenda : Agenda σ ε α} {size rank place : Nat}
    {phase : Phase} (hrank : rank < size)
    (hlt : 4 * (agenda.length - place) - phase.weight < g.toDo agenda rank) :
    (g.moveTo rank place phase).work agenda size < g.work agenda size := by
  have hself : (g.moveTo rank place phase).toDo agenda rank < g.toDo agenda rank := by
    rw [toDo, place_moveTo_self, phase_moveTo_self]
    exact hlt
  apply Finset.sum_lt_sum
  · intro other _
    by_cases hother : other = rank
    · rw [hother]
      exact Nat.le_of_lt hself
    · obtain ⟨hplace, hphase⟩ := g.moveTo_of_ne hother place phase
      rw [toDo, toDo, hplace, hphase]
  · exact ⟨rank, Finset.mem_range.mpr hrank, hself⟩

end Course

/-- **Advance**: a participant can move, and there is less work left afterwards. -/
def Advances (agenda : Agenda σ ε α) (s : σ) (size : Nat)
    (c : Crew (Logbook σ (Except ε α)) Unit) (g : Course) (rank : Nat) : Prop :=
  ∃ c' g', c.step? rank = some c' ∧ agenda.Follows s size c' g' ∧
    g'.work agenda size < g.work agenda size

section Work

variable {agenda : Agenda σ ε α} {s : σ} {size : Nat}
  {c : Crew (Logbook σ (Except ε α)) Unit} {g : Course} {rank : Nat} {item : Item σ ε α}

/-- Outside of meetings, nothing holds a participant up. -/
theorem Follows.advances_outside (hfit : agenda.Fit s size) (h : agenda.Follows s size c g)
    (hrank : rank < size) (hitem : agenda[g.place rank]? = some item)
    (hphase : g.phase rank = .ready ∨ g.phase rank = .noting) :
    agenda.Advances s size c g rank := by
  have hlt : g.place rank < agenda.length := (List.getElem?_eq_some_iff.mp hitem).1
  rcases hphase with hready | hnoting
  · obtain ⟨c', hstep, h'⟩ := h.call hfit hrank hready hitem
    refine ⟨c', _, hstep, h', Course.work_moveTo_lt hrank ?_⟩
    rw [Course.toDo, hready, Phase.weight, Phase.weight]
    omega
  · obtain ⟨c', hstep, h'⟩ := h.note hfit hrank hnoting hitem
    refine ⟨c', _, hstep, h', Course.work_moveTo_lt hrank ?_⟩
    have hle := le_next agenda rank (g.place rank + 1)
    rw [Course.toDo, hnoting, Phase.weight, Phase.weight]
    omega

/-- In a meeting, a participant advances that finds the round as it needs it. -/
theorem Follows.advances_inside (hfit : agenda.Fit s size) (h : agenda.Follows s size c g)
    (hrank : rank < size) (hitem : agenda[g.place rank]? = some item) {slot : Nat}
    (hslot : item.members[slot]? = some rank)
    (hphase : (g.phase rank = .coming ∧
        (g.sessions item.point).meeting.round.published = none) ∨
      (g.phase rank = .waiting ∧ (g.sessions item.point).meeting.round.published.isSome))
    (hawake : ((g.sessions item.point).meeting.stage slot).isAsleep = false) :
    agenda.Advances s size c g rank := by
  have hlt : g.place rank < agenda.length := (List.getElem?_eq_some_iff.mp hitem).1
  have hinside : g.phase rank = .coming ∨ g.phase rank = .waiting :=
    hphase.imp And.left And.left
  obtain ⟨c', session, phase, hstep, h', hthen⟩ := h.turn hfit hrank hitem hinside hslot hawake
  refine ⟨c', _, hstep, h', Course.work_moveTo_lt hrank ?_⟩
  show _ < 4 * (agenda.length - g.place rank) - (g.phase rank).weight
  -- of the three outcomes of a turn, the round's state rules out the one without progress
  rcases hphase with ⟨hcoming, hpub⟩ | ⟨hwaiting, hpub⟩
  · rw [hcoming]
    rcases hthen with rfl | ⟨-, -, hdraining⟩ | ⟨rfl, -⟩
    · simp only [Phase.weight]
      omega
    · rw [hpub] at hdraining
      cases hdraining
    · simp only [Phase.weight]
      omega
  · rw [hwaiting]
    rcases hthen with rfl | ⟨-, hcoming, -⟩ | ⟨-, hnone⟩
    · simp only [Phase.weight]
      omega
    · rw [hwaiting] at hcoming
      cases hcoming
    · rw [hnone] at hpub
      cases hpub

/-- Where nobody of a group is before a place, everybody of it has returned from all earlier
rounds. -/
theorem Follows.rounds_le_returns (h : agenda.Follows s size c g) {place : Nat}
    (hmem : item ∈ agenda) (hfirst : ∀ other ∈ item.members, place ≤ g.place other)
    {j other : Nat} (hj : item.members[j]? = some other) :
    agenda.rounds item.point place ≤
      ((g.sessions item.point).minutes.returns j).length := by
  rw [(h.seats item hmem j other hj).returns]
  apply rounds_mono
  exact Nat.le_trans (hfirst other (List.mem_of_getElem? hj)) (Nat.le_add_right _ _)

/-- At the earliest item, a participant before its deposit advances: everybody has picked up
the previous round. -/
theorem Follows.advances_coming (hfit : agenda.Fit s size) (h : agenda.Follows s size c g)
    (hrank : rank < size) (hitem : agenda[g.place rank]? = some item)
    (hfirst : ∀ other ∈ item.members, g.place rank ≤ g.place other)
    (hcoming : g.phase rank = .coming) : agenda.Advances s size c g rank := by
  have hmem : item ∈ agenda := List.mem_of_getElem? hitem
  obtain ⟨slot, hslot, hseat⟩ := h.seat hrank hitem
  have hparties := h.parties item hmem
  have hlt : slot < (g.sessions item.point).meeting.parties := by
    rw [hparties]
    exact (List.getElem?_eq_some_iff.mp hslot).1
  obtain ⟨hagrees, halert⟩ := h.sound item.point
  have hreturns := hseat.returns
  rw [Course.passed, hcoming, if_neg (by decide), Nat.add_zero] at hreturns
  -- before its deposit, a participant has returned from every round published so far
  have hpublications : (g.sessions item.point).meeting.round.publications =
      agenda.rounds item.point (g.place rank) := by
    have hfits := hagrees.standing slot hlt
    have hhere := hseat.here item hitem rfl
    rw [hcoming] at hhere
    rcases hhere with hstage | hstage | hstage <;> rw [hstage] at hfits
    · rw [← hreturns, hfits.2]
    · rw [← hreturns, hfits.2.1]
    · rw [← hreturns, hfits.2.1]
  have hpub : (g.sessions item.point).meeting.round.published = none := by
    by_contra hsome
    have hsome := Option.isSome_iff_ne_none.mpr hsome
    -- some reader of the published round has not returned from it
    obtain ⟨j, hj, hawaits⟩ := Meeting.exists_awaitsCopy (hagrees.pending hsome).2
    rw [hagrees.stages_length] at hj
    have hother := List.getElem?_eq_getElem (hparties ▸ hj)
    have hle := h.rounds_le_returns hmem hfirst hother
    have hbehind := hagrees.returns_of_awaits hj hawaits
    rw [Round.publications_of_isSome hsome] at hpublications
    omega
  refine h.advances_inside hfit hrank hitem hslot (Or.inl ⟨hcoming, hpub⟩) ?_
  have hhere := hseat.here item hitem rfl
  rw [hcoming] at hhere
  rcases hhere with hstage | hstage | hstage
  · rw [hstage]
    rfl
  · rw [hstage]
    rfl
  · have hsome := halert.barred slot _ hstage
    rw [hpub] at hsome
    cases hsome

/-- While a participant waits at the earliest item for a round that is not published, some
member is at the same place and has not deposited yet. -/
theorem Follows.exists_missing (h : agenda.Follows s size c g)
    (hitem : agenda[g.place rank]? = some item)
    (hfirst : ∀ other ∈ item.members, g.place rank ≤ g.place other) {slot : Nat}
    (hslot : slot < (g.sessions item.point).meeting.parties)
    (hpub : (g.sessions item.point).meeting.round.published = none)
    (hgeneration : agenda.rounds item.point (g.place rank) =
      (g.sessions item.point).meeting.round.generation) :
    ∃ j other, item.members[j]? = some other ∧ g.place other = g.place rank ∧
      ((g.sessions item.point).meeting.stage j).awaitsCopy = false := by
  have hmem : item ∈ agenda := List.mem_of_getElem? hitem
  obtain ⟨hagrees, halert⟩ := h.sound item.point
  have hless : (g.sessions item.point).meeting.awaiting <
      (g.sessions item.point).meeting.stages.length := by
    have harrived : (g.sessions item.point).meeting.round.arrived =
        (g.sessions item.point).meeting.awaiting := by
      simpa [hpub] using hagrees.arrived
    rw [hagrees.stages_length, ← harrived]
    exact halert.arrived_lt (Nat.zero_lt_of_lt hslot) hpub
  obtain ⟨j, hj, hnot⟩ := Meeting.exists_not_awaitsCopy hless
  rw [hagrees.stages_length] at hj
  obtain ⟨other, hother⟩ : ∃ other, item.members[j]? = some other :=
    ⟨_, List.getElem?_eq_getElem (h.parties item hmem ▸ hj)⟩
  refine ⟨j, other, hother, ?_, hnot⟩
  -- it has returned from no later round than the published ones, so it has passed no later item
  have hle := hagrees.returns_le_publications hj
  rw [Round.publications_of_none hpub, ← hgeneration,
    (h.seats item hmem j _ hother).returns] at hle
  have hpassed : g.passed other ≤ g.place rank := by
    by_contra hgt
    have hmore := agenda.rounds_mono item.point (Nat.lt_of_not_le hgt)
    rw [Nat.succ_eq_add_one, rounds_succ hitem, if_pos rfl] at hmore
    omega
  have hplace := hfirst _ (List.mem_of_getElem? hother)
  unfold Course.passed at hpassed
  omega

/-- At the earliest item, if a participant waits in the meeting then somebody advances: the
participant itself once the round is published, and before that a member that has not
deposited yet. -/
theorem Follows.advances_waiting (hfit : agenda.Fit s size) (h : agenda.Follows s size c g)
    (hrank : rank < size) (hitem : agenda[g.place rank]? = some item)
    (hfirst : ∀ other ∈ item.members, g.place rank ≤ g.place other)
    (hwaiting : g.phase rank = .waiting) :
    ∃ other < size, agenda.Advances s size c g other := by
  have hmem : item ∈ agenda := List.mem_of_getElem? hitem
  obtain ⟨slot, hslot, hseat⟩ := h.seat hrank hitem
  have hlt : slot < (g.sessions item.point).meeting.parties := by
    rw [h.parties item hmem]
    exact (List.getElem?_eq_some_iff.mp hslot).1
  obtain ⟨hagrees, halert⟩ := h.sound item.point
  have hawaits : ((g.sessions item.point).meeting.stage slot).awaitsCopy = true := by
    have hhere := hseat.here item hitem rfl
    rw [hwaiting] at hhere
    exact hhere
  have hgeneration := hagrees.returns_of_awaits hlt hawaits
  rw [hseat.returns, Course.passed, hwaiting, if_neg (by decide), Nat.add_zero] at hgeneration
  cases hpub : (g.sessions item.point).meeting.round.published with
  | some parts =>
    -- nobody sleeps through a publication, so the participant is awake
    have hsome : (g.sessions item.point).meeting.round.published.isSome := by
      rw [hpub]
      rfl
    refine ⟨rank, hrank, h.advances_inside hfit hrank hitem hslot (Or.inr ⟨hwaiting, hsome⟩) ?_⟩
    cases hstage : (g.sessions item.point).meeting.stage slot with
    | parked generation =>
      have hnone := halert.parked slot generation hstage
      rw [hpub] at hnone
      cases hnone
    | returning _ => rfl
    | outside | entering _ | barred _ | leaving _ =>
      rw [hstage] at hawaits
      cases hawaits
  | none =>
    obtain ⟨j, other, hother, hsame, hnot⟩ := h.exists_missing hitem hfirst hlt hpub hgeneration
    have hinside := hfit.inside item hmem _ (List.mem_of_getElem? hother)
    have hitem' : agenda[g.place other]? = some item := hsame ▸ hitem
    refine ⟨other, hinside, ?_⟩
    cases hphase : g.phase other with
    | ready => exact h.advances_outside hfit hinside hitem' (Or.inl hphase)
    | noting => exact h.advances_outside hfit hinside hitem' (Or.inr hphase)
    | coming =>
      apply h.advances_coming hfit hinside hitem' ?_ hphase
      exact fun third hthird => hsame ▸ hfirst third hthird
    | waiting =>
      have hhere := (h.seats item hmem j _ hother).here item hitem' rfl
      rw [hphase] at hhere
      have hhere : ((g.sessions item.point).meeting.stage j).awaitsCopy = true := hhere
      rw [hnot] at hhere
      cases hhere

/-- **Progress lemma**: unless everybody has ended, somebody advances, at the earliest item
that is not complete. -/
theorem Follows.advances (hfit : agenda.Fit s size) (h : agenda.Follows s size c g)
    (hended : c.hasEnded = false) : ∃ rank < size, agenda.Advances s size c g rank := by
  have hleft : ∃ rank < size, g.place rank < agenda.length := by
    -- at the end of the agenda, every program has ended
    by_contra hnone
    push Not at hnone
    have hall : c.hasEnded = true := by
      apply List.all_eq_true.mpr
      intro program hprogram
      obtain ⟨rank, hrank⟩ := List.mem_iff_getElem?.mp hprogram
      have hlt : rank < size := h.length ▸ (List.getElem?_eq_some_iff.mp hrank).1
      have hdone := h.program_done hlt (List.getElem?_eq_none (hnone rank hlt))
      rw [hrank] at hdone
      rw [Option.some.inj hdone]
      rfl
    rw [hall] at hended
    cases hended
  obtain ⟨some_rank, hsome, hlt⟩ := hleft
  -- of those that are left, one that is furthest behind decides
  obtain ⟨rank, hrank, hleast⟩ := Finset.exists_min_image (Finset.range size) g.place
    ⟨some_rank, Finset.mem_range.mpr hsome⟩
  have hrank := Finset.mem_range.mp hrank
  obtain ⟨item, hitem⟩ : ∃ item, agenda[g.place rank]? = some item :=
    ⟨_, List.getElem?_eq_getElem
      (Nat.lt_of_le_of_lt (hleast some_rank (Finset.mem_range.mpr hsome)) hlt)⟩
  have hmem := List.mem_of_getElem? hitem
  have hfirst : ∀ other ∈ item.members, g.place rank ≤ g.place other :=
    fun other hother => hleast other (Finset.mem_range.mpr (hfit.inside _ hmem other hother))
  cases hphase : g.phase rank with
  | ready => exact ⟨rank, hrank, h.advances_outside hfit hrank hitem (Or.inl hphase)⟩
  | noting => exact ⟨rank, hrank, h.advances_outside hfit hrank hitem (Or.inr hphase)⟩
  | coming => exact ⟨rank, hrank, h.advances_coming hfit hrank hitem hfirst hphase⟩
  | waiting => exact h.advances_waiting hfit hrank hitem hfirst hphase

end Work

/-! ## §7 Whole schedules -/

section Schedules

variable {agenda : Agenda σ ε α} {s : σ} {size : Nat}

/-- **Run lemma**: under every schedule the work is in order. -/
theorem Follows.follow (hfit : agenda.Fit s size) {c : Crew (Logbook σ (Except ε α)) Unit}
    {g : Course} (h : agenda.Follows s size c g) (schedule : List Crew.Move) :
    ∃ g', agenda.Follows s size (c.follow schedule) g' := by
  induction schedule generalizing c g with
  | nil => exact ⟨g, h⟩
  | cons m rest ih =>
    obtain ⟨g', h'⟩ := h.move hfit m
    exact ih h'

theorem Follows.crew_follow (hfit : agenda.Fit s size) (schedule : List Crew.Move) :
    ∃ g, agenda.Follows s size ((agenda.crew s size).follow schedule) g :=
  (Follows.crew hfit).follow hfit schedule

/-- A participant that has ended is at the end of the agenda. -/
theorem Follows.place_of_ended (hfit : agenda.Fit s size) {c : Crew (Logbook σ (Except ε α)) Unit} {g : Course}
    (h : agenda.Follows s size c g) {rank : Nat} (hrank : rank < size)
    (hended : c.members[rank]? = some (.done ())) : agenda.length ≤ g.place rank := by
  refine Nat.le_of_not_lt fun hlt => ?_
  obtain ⟨item, hitem⟩ : ∃ item, agenda[g.place rank]? = some item :=
    ⟨_, List.getElem?_eq_getElem hlt⟩
  have hprogram := h.program rank hrank
  rw [hended, Option.some.injEq] at hprogram
  cases hphase : g.phase rank with
  | ready =>
    rw [hphase] at hprogram
    simp only [remains, part_of_getElem? hitem (h.mine rank hrank _ hitem)] at hprogram
    cases hprogram
  | noting =>
    rw [hphase] at hprogram
    simp only [remains, hitem] at hprogram
    cases hprogram
  | coming | waiting =>
    obtain ⟨slot, hslot, -⟩ := h.seat hrank hitem
    have hexchange := h.exchange hfit hrank hitem (by simp [hphase]) hslot
    rw [hended] at hexchange
    cases hexchange

/-- **No deadlock**: unless everybody has ended, somebody has a step. -/
theorem exists_step (hfit : agenda.Fit s size) (schedule : List Crew.Move)
    (hended : ((agenda.crew s size).follow schedule).hasEnded = false) :
    ∃ rank < size, (((agenda.crew s size).follow schedule).step? rank).isSome := by
  obtain ⟨g, h⟩ := Follows.crew_follow hfit schedule
  obtain ⟨rank, hrank, c', -, hstep, -⟩ := h.advances hfit hended
  exact ⟨rank, hrank, by rw [hstep]; rfl⟩

/-- **Completion**: every schedule can be continued until everybody has ended. -/
theorem Follows.exists_end (hfit : agenda.Fit s size) (work : Nat)
    {c : Crew (Logbook σ (Except ε α)) Unit} {g : Course} (h : agenda.Follows s size c g)
    (hwork : g.work agenda size = work) :
    ∃ more, (c.follow more).hasEnded = true := by
  -- induction on the work that is left, which every advance makes less
  induction work using Nat.strong_induction_on generalizing c g with
  | _ work ih =>
    cases hended : c.hasEnded with
    | true => exact ⟨[], hended⟩
    | false =>
      obtain ⟨rank, -, c', g', hstep, h', hlt⟩ := h.advances hfit hended
      obtain ⟨more, hmore⟩ := ih _ (hwork ▸ hlt) h' rfl
      refine ⟨.step rank :: more, ?_⟩
      have hmove : c.move (.step rank) = c' := by
        rw [Crew.move, hstep]
        rfl
      rw [Crew.follow, List.foldl_cons, hmove]
      exact hmore

/-- **Serial answers**: whatever the schedule, a participant has noted its serial answers as
far as it has got, and all of them once it has ended; the state is as before. -/
theorem follow_serial (hfit : agenda.Fit s size) (schedule : List Crew.Move) :
    ((agenda.crew s size).follow schedule).shared.state = s ∧
      ∀ rank < size,
        ((agenda.crew s size).follow schedule).shared.notes rank <+: agenda.answers s rank ∧
        (((agenda.crew s size).follow schedule).results[rank]? = some (some ()) →
          ((agenda.crew s size).follow schedule).shared.notes rank = agenda.answers s rank) := by
  obtain ⟨g, h⟩ := Follows.crew_follow hfit schedule
  refine ⟨h.state, fun rank hrank => ⟨?_, fun hended => ?_⟩⟩
  · rw [h.notes rank hrank]
    exact ((List.take_prefix _ agenda).filter _).map _
  · rw [h.notes rank hrank, List.take_of_length_le (h.place_of_ended hfit hrank (Crew.done_of_results hended))]

/-- Every schedule from the beginning can be continued until everybody has ended. -/
theorem can_end (hfit : agenda.Fit s size) (schedule : List Crew.Move) :
    ∃ more, (((agenda.crew s size).follow schedule).follow more).hasEnded = true := by
  obtain ⟨g, h⟩ := Follows.crew_follow hfit schedule
  exact h.exists_end hfit _ rfl

/-- **The note of one item**: after those of the items before, a member of the item notes its
serial answer, and nothing else. -/
theorem follow_item {before after : Agenda σ ε α} {item : Item σ ε α}
    (hfit : Fit (before ++ item :: after) s size) (schedule : List Crew.Move) {rank : Nat}
    (hrank : rank ∈ item.members) :
    let crew := (crew (before ++ item :: after) s size).follow schedule
    let note := (crew.shared.notes rank)[(before.answers s rank).length]?
    (note = none ∨ note = some (item.answer s rank)) ∧
      (crew.results[rank]? = some (some ()) → note = some (item.answer s rank)) := by
  intro crew note
  have hplace : (answers (before ++ item :: after) s rank)[(before.answers s rank).length]? =
      some (item.answer s rank) := by
    rw [answers_append, List.getElem?_append_right (Nat.le_refl _), Nat.sub_self, answers,
      List.filter_cons_of_pos (by simpa using hrank)]
    rfl
  obtain ⟨hbegins, hall⟩ := (follow_serial hfit schedule).2 rank
    (hfit.inside item (List.mem_append_right _ (List.mem_cons_self ..)) rank hrank)
  constructor
  · cases hnote : note with
    | none => exact Or.inl rfl
    | some answer =>
      obtain ⟨hlt, hget⟩ := List.getElem?_eq_some_iff.mp hnote
      have hsame := List.prefix_iff_getElem?.mp hbegins _ hlt
      rw [hplace, hget] at hsame
      exact Or.inr hsame.symm
  · intro hended
    have hnotes : crew.shared.notes rank = _ := hall hended
    rw [← hplace, ← hnotes]

end Schedules

end Agenda

end ClusterView
