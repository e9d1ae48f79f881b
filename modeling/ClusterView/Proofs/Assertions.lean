import ClusterView.Proofs.Session

/-!
# Assertions of a meeting

What a caller does under the lock takes some things for granted: that its slot is empty when
it deposits, that every slot is full when the last caller has arrived, that a published round
is there when it picks up, and that somebody is counted as a reader of it. A guarded critical
section looks before it relies on any of this, and breaks off if it is not so. Under every
schedule the guarded sections never break off (`Session.assertions_hold`), so the defaults of
the plain ones are never taken.

The reason is that a round can be read off the minutes: who has deposited in it and who has
picked it up says which slots are full, how many readers are left, and how many rounds are
over.

## Sections
- §1: Guarded critical sections
- §2: Why no guard breaks off
- §3: Deposits and pick-ups
- §4: What a round counts
- §5: Whole schedules
-/

namespace ClusterView

/-! ## §1 Guarded critical sections -/

namespace Round

/-- **Guarded deposit**: the slot has to be there, and empty. -/
def deposit? (r : Round) (slot : Nat) (payload : Bytes) : Option Round :=
  if r.slots[slot]? = some none then some (r.deposit slot payload) else none

/-- **Guarded publication**: every slot has to hold a payload, none is made up. -/
def publish? (r : Round) (parties : Nat) : Option Round := do
  let parts ← r.slots.mapM id
  return { r.publish parties with published := some parts }

/-- **Guarded pick-up**: somebody has to be left who has not picked up. -/
def pickUp? (r : Round) : Option Round :=
  if 1 ≤ r.pending then some r.pickUp else none

end Round

namespace Meeting

/-- **Guarded leaving**: the copy has to be there. -/
def collect? (m : Meeting) (slot : Nat) : Option Meeting := do
  let parts ← m.round.published
  let round ← m.round.pickUp?
  if round.pending = 0 then
    return ({ m with round := round.close }.wakeAll).place slot (.leaving parts)
  else
    return { m with round }.place slot (.leaving parts)

/-- **Guarded arrival**. -/
def arrive? (m : Meeting) (slot : Nat) (payload : Bytes) : Option Meeting := do
  let round ← m.round.deposit? slot payload
  if round.arrived = m.parties then
    let round ← round.publish? m.parties
    ({ m with round }.wakeAll).collect? slot
  else
    return { m with round }.place slot (.parked round.generation)

/-- **Guarded critical section**. -/
def proceed? (m : Meeting) (slot : Nat) : Option Meeting :=
  match m.stage slot with
  | .entering payload =>
      if m.round.published.isSome then some (m.place slot (.barred payload))
      else m.arrive? slot payload
  | .returning generation =>
      if m.round.published.isSome && m.round.generation == generation then m.collect? slot
      else some (m.place slot (.parked generation))
  | _ => some m

end Meeting

namespace Session

/-- **One guarded move**. Only critical sections have anything to guard. -/
def step? (s : Session) : Move → Option Session
  | .proceed slot => (s.meeting.proceed? slot).map fun meeting => { s with meeting }
  | move => some (s.step move)

/-- **Guarded schedule**: it breaks off with the first guard that does. -/
def run? (s : Session) (moves : List Move) : Option Session := moves.foldlM step? s

end Session

/-! ## §2 Why no guard breaks off -/

namespace Round

theorem publish?_of_full {r : Round} (hfull : ∀ s ∈ r.slots, s.isSome) (parties : Nat) :
    r.publish? parties = some (r.publish parties) := by
  have hparts : r.slots.mapM id = some (r.slots.map fun s => s.getD []) := by
    generalize r.slots = slots at hfull ⊢
    induction slots with
    | nil => rfl
    | cons s rest ih =>
      obtain ⟨hhead, hrest⟩ := List.forall_mem_cons.mp hfull
      obtain ⟨payload, rfl⟩ := Option.isSome_iff_exists.mp hhead
      simp [ih hrest]
  rw [publish?, hparts]
  rfl

end Round

namespace Meeting

variable {m : Meeting} {h : Minutes} {slot : Nat}

/-- Exactly those who wait for a round that fills have filled their slots. -/
theorem Agrees.map_isSome_slots (hm : m.Agrees h) :
    m.round.slots.map Option.isSome =
      m.stages.map fun stage => m.round.published.isNone && stage.awaitsCopy := by
  refine List.ext_getElem? fun j => ?_
  by_cases hj : j < m.parties
  · have hj' : j < m.stages.length := hm.stages_length ▸ hj
    have hstage : m.stages[j]? = some (m.stage j) := by simp [stage, hj']
    rw [List.getElem?_map, List.getElem?_map, hm.filled j hj, hstage]
    cases hpub : m.round.published with
    | some parts => rfl
    | none =>
      cases hawaits : (m.stage j).awaitsCopy with
      | false => simp [hawaits]
      | true =>
        -- whoever waits for a copy has made its call for this round
        have hfits := hm.standing j hj
        have hcalls : (h.calls j).length = m.round.generation + 1 := by
          cases hs : m.stage j <;> simp_all [Minutes.Fits, Stage.awaitsCopy]
        simp [hcalls, hawaits]
  · have hle : m.parties ≤ j := Nat.le_of_not_lt hj
    simp [hm.stages_length, hm.slots_length, hle]

/-- The slot of a caller that is about to deposit is empty. -/
theorem Agrees.deposit? (hm : m.Agrees h) (hslot : slot < m.parties) {payload : Bytes}
    (hstage : m.stage slot = .entering payload) :
    m.round.deposit? slot payload = some (m.round.deposit slot payload) := by
  have hempty : m.round.slots[slot]? = some none := by
    rw [hm.filled slot hslot, hstage]
    simp [Stage.awaitsCopy]
  rw [Round.deposit?, if_pos hempty]

/-- When everybody waits for the same copy, all slots are full. -/
theorem Agrees.publish? (hm : m.Agrees h) (hpub : m.round.published = none)
    (hall : m.awaiting = m.parties) :
    m.round.publish? m.parties = some (m.round.publish m.parties) := by
  refine Round.publish?_of_full (fun s hs => ?_) _
  have hmem : s.isSome ∈ m.round.slots.map Option.isSome := List.mem_map_of_mem hs
  rw [hm.map_isSome_slots, hpub] at hmem
  obtain ⟨stage, hstage, hsame⟩ := List.mem_map.mp hmem
  have hawaits := List.countP_eq_length.mp (hall.trans hm.stages_length.symm) stage hstage
  simpa [hawaits] using hsame.symm

theorem collect?_of_readers (hpub : m.round.published.isSome) (hreaders : 1 ≤ m.round.pending) :
    m.collect? slot = some (m.collect slot) := by
  obtain ⟨parts, hparts⟩ := Option.isSome_iff_exists.mp hpub
  simp only [collect?, collect, Round.pickUp?, Round.copy, hparts, if_pos hreaders, bind,
    Option.bind, pure, Option.getD_some]
  split <;> rfl

-- without a published round the guard breaks off, where a plain caller leaves with nothing
example : (idle 2).collect? 0 = none ∧ ((idle 2).collect 0).stage 0 = .leaving [] := by decide

theorem Agrees.arrive? (hm : m.Agrees h) (hslot : slot < m.parties) {payload : Bytes}
    (hstage : m.stage slot = .entering payload) (hpub : m.round.published = none) :
    m.arrive? slot payload = some (m.arrive slot payload) := by
  obtain ⟨hdeposit, hcount⟩ := hm.deposited hslot hstage hpub
  simp only [Meeting.arrive?, hm.deposit? hslot hstage, bind, Option.bind]
  unfold Meeting.arrive
  by_cases hlast : (m.round.deposit slot payload).arrived = m.parties
  · -- the last one finds every slot full, and publishes for itself among others
    have hfull : (m.round.deposit slot payload).publish? m.parties =
        some ((m.round.deposit slot payload).publish m.parties) :=
      hdeposit.publish? hpub (hcount.trans hlast)
    have hreaders : 1 ≤ m.parties := Nat.zero_lt_of_lt hslot
    simp only [if_pos hlast, hfull]
    exact collect?_of_readers rfl hreaders
  · simp only [if_neg hlast, pure]

/-- **Guarded critical section**: in a meeting that agrees with its minutes no guard breaks
off. -/
theorem Agrees.proceed? (hm : m.Agrees h) (slot : Nat) :
    m.proceed? slot = some (m.proceed slot) := by
  unfold Meeting.proceed? Meeting.proceed
  cases hstage : m.stage slot with
  | outside | barred _ | parked _ | leaving _ => rfl
  | entering payload =>
    have hslot : slot < m.parties := by
      refine Nat.lt_of_not_le fun hle => ?_
      rw [stage_of_le (hm.stages_length ▸ hle)] at hstage
      cases hstage
    dsimp only
    split
    · rfl
    · rename_i hpub
      exact hm.arrive? hslot hstage (by simpa using hpub)
  | returning generation =>
    dsimp only
    split
    · rename_i hready
      have hpub : m.round.published.isSome := by simp_all
      obtain ⟨hpending, hreaders⟩ := hm.pending hpub
      exact collect?_of_readers hpub (hpending ▸ hreaders)
    · rfl

end Meeting

namespace Session

theorem Sound.step? {s : Session} (hs : s.Sound) (move : Move) :
    s.step? move = some (s.step move) := by
  cases move with
  | proceed slot =>
    rw [Session.step?, hs.agrees.proceed? slot]
    rfl
  | call _ _ | wake _ | leave _ => rfl

/-- **Run lemma**: a guarded schedule of a sound session does not break off. -/
theorem Sound.run? {s : Session} (hs : s.Sound) (moves : List Move) :
    s.run? moves = some (s.run moves) := by
  induction moves generalizing s with
  | nil => rfl
  | cons move rest ih =>
    rw [Session.run?, List.foldlM_cons, hs.step? move]
    exact ih (hs.step move)

/-! ## §3 Deposits and pick-ups -/

/-- **Deposits** of a slot's owner: one for each of its calls, unless it is still on the way to
the deposit. -/
def deposits (s : Session) (slot : Nat) : Nat :=
  match s.meeting.stage slot with
  | .entering _ | .barred _ => (s.minutes.calls slot).length - 1
  | _ => (s.minutes.calls slot).length

/-- **Pick-ups** of a slot's owner: one for each of its returns, and one more if it is on the
way out with a copy. -/
def pickUps (s : Session) (slot : Nat) : Nat :=
  match s.meeting.stage slot with
  | .leaving _ => (s.minutes.returns slot).length + 1
  | _ => (s.minutes.returns slot).length

/-- A slot's owner has deposited in the current round and not picked it up. -/
def Reads (s : Session) (slot : Nat) : Prop :=
  s.meeting.round.generation < s.deposits slot ∧ s.pickUps slot ≤ s.meeting.round.generation

instance (s : Session) (slot : Nat) : Decidable (s.Reads slot) :=
  inferInstanceAs (Decidable (_ ∧ _))

section Counting

variable {s : Session} {slot : Nat}

/-- Whoever waits for a copy has deposited once more than it has picked up; anybody else has
done both in every round published so far. -/
theorem Sound.deposits_pickUps (hs : s.Sound) (hslot : slot < s.meeting.parties) :
    (s.deposits slot, s.pickUps slot) =
      if (s.meeting.stage slot).awaitsCopy then
        (s.meeting.round.generation + 1, s.meeting.round.generation)
      else (s.meeting.round.publications, s.meeting.round.publications) := by
  have hfits := hs.agrees.standing slot hslot
  cases hstage : s.meeting.stage slot <;>
    simp_all [deposits, pickUps, Minutes.Fits, Stage.awaitsCopy]

theorem Sound.reads_iff (hs : s.Sound) (hslot : slot < s.meeting.parties) :
    s.Reads slot ↔ (s.meeting.stage slot).awaitsCopy = true := by
  have hpair := hs.deposits_pickUps hslot
  unfold Reads
  cases hawaits : (s.meeting.stage slot).awaitsCopy with
  | true =>
    rw [hawaits, if_pos rfl, Prod.mk.injEq] at hpair
    simp [hpair]
  | false =>
    rw [hawaits, if_neg Bool.false_ne_true, Prod.mk.injEq] at hpair
    simp [hpair]

/-- Everybody has picked up all rounds that are over. -/
theorem Sound.generation_le_pickUps (hs : s.Sound) (hslot : slot < s.meeting.parties) :
    s.meeting.round.generation ≤ s.pickUps slot := by
  have hpair := hs.deposits_pickUps hslot
  have hle : s.meeting.round.generation ≤ s.meeting.round.publications := Nat.le_add_right _ _
  split at hpair <;> simp_all

/-- **Drained rounds**: a round is over exactly if everybody has picked it up. -/
theorem Sound.lt_generation_iff (hs : s.Sound) (hparties : 0 < s.meeting.parties) (number : Nat) :
    number < s.meeting.round.generation ↔
      ∀ slot < s.meeting.parties, number < s.pickUps slot := by
  constructor
  · exact fun hlt slot hslot => Nat.lt_of_lt_of_le hlt (hs.generation_le_pickUps hslot)
  · intro hall
    -- somebody has picked up no more than the rounds that are over
    suffices hlast : ∃ slot < s.meeting.parties, s.pickUps slot = s.meeting.round.generation by
      obtain ⟨slot, hslot, hpickUps⟩ := hlast
      exact hpickUps ▸ hall slot hslot
    by_cases hpub : s.meeting.round.published.isSome
    · obtain ⟨slot, hslot, hawaits⟩ :=
        Meeting.exists_awaitsCopy (hs.agrees.pending hpub).2
      rw [hs.agrees.stages_length] at hslot
      have hpair := hs.deposits_pickUps hslot
      rw [hawaits, if_pos rfl, Prod.mk.injEq] at hpair
      exact ⟨slot, hslot, hpair.2⟩
    · have hpair := hs.deposits_pickUps hparties
      rw [Round.publications_of_none (by simpa using hpub)] at hpair
      refine ⟨0, hparties, ?_⟩
      split at hpair <;> exact (Prod.mk.inj hpair).2

end Counting

end Session

/-! ## §4 What a round counts -/

/-- **Tidy round**: there are no readers of a round that is not published. -/
def Round.Tidy (r : Round) : Prop := r.published = none → r.pending = 0

namespace Meeting

variable {m : Meeting} {slot : Nat}

/-- The last reader closes the round, so nobody is left when it is gone. -/
theorem tidy_collect (hpub : m.round.published.isSome) : (m.collect slot).round.Tidy := by
  rw [round_collect]
  unfold pickedUp
  split
  · rename_i hlast
    exact fun _ => hlast
  · intro hnone
    rw [show m.round.published = none from hnone] at hpub
    cases hpub

theorem tidy_proceed (htidy : m.round.Tidy) (slot : Nat) : (m.proceed slot).round.Tidy := by
  unfold proceed
  cases m.stage slot with
  | outside | barred _ | parked _ | leaving _ => exact htidy
  | entering payload =>
    dsimp only
    split
    · exact htidy
    · rw [arrive_eq]
      split
      · exact tidy_collect rfl
      · exact htidy
  | returning generation =>
    dsimp only
    split
    · rename_i hready
      exact tidy_collect (by simp_all)
    · exact htidy

end Meeting

namespace Session

variable {s : Session}

theorem tidy_step (htidy : s.meeting.round.Tidy) (move : Move) :
    (s.step move).meeting.round.Tidy := by
  cases move with
  | call slot payload =>
    simp only [step, Meeting.call]
    split
    · split <;> exact htidy
    · exact htidy
  | proceed slot => exact Meeting.tidy_proceed htidy slot
  | wake slot => exact htidy
  | leave slot =>
    simp only [step, Meeting.depart?]
    cases s.meeting.stage slot <;> exact htidy

theorem tidy_run (htidy : s.meeting.round.Tidy) (moves : List Move) :
    (s.run moves).meeting.round.Tidy := by
  induction moves generalizing s with
  | nil => exact htidy
  | cons move rest ih => exact ih (tidy_step htidy move)

/-- The arrivals are the slots that are full. -/
theorem Sound.arrived_eq (hs : s.Sound) :
    s.meeting.round.arrived = s.meeting.round.slots.countP Option.isSome := by
  -- counted over the answers, slots and stages give the same
  have hcount := congrArg (List.countP id) hs.agrees.map_isSome_slots
  rw [List.countP_map, List.countP_map] at hcount
  rw [hs.agrees.arrived]
  refine Eq.trans ?_ hcount.symm
  cases s.meeting.round.published with
  | some parts => simp
  | none => rfl

theorem Sound.arrived_lt (hs : s.Sound) (hparties : 0 < s.meeting.parties) :
    s.meeting.round.arrived < s.meeting.parties := by
  cases hpub : s.meeting.round.published with
  | none => exact hs.alert.arrived_lt hparties hpub
  | some parts => simpa [hs.agrees.arrived, hpub] using hparties

/-- A published round counts those who have deposited in it and not picked it up. -/
theorem Sound.pending_eq (hs : s.Sound) (hpub : s.meeting.round.published.isSome) :
    s.meeting.round.pending = (List.range s.meeting.parties).countP fun slot => s.Reads slot := by
  have hstages : s.meeting.stages = (List.range s.meeting.parties).map s.meeting.stage := by
    refine List.ext_getElem (by simp [hs.agrees.stages_length]) fun j hj _ => ?_
    simp [Meeting.stage, hj]
  rw [(hs.agrees.pending hpub).1, Meeting.awaiting, hstages, List.countP_map]
  refine List.countP_congr fun slot hslot => ?_
  rw [decide_eq_true_iff, hs.reads_iff (List.mem_range.mp hslot)]
  rfl

/-! ## §5 Whole schedules -/

/-- **No assertion is ever tripped**: under every schedule the guarded run does not break off,
so every deposit finds its own slot empty, every publication finds all slots full, and every
pick-up finds a published round with a reader left.

Whenever the lock is free, the arrivals are the full slots and fewer than all, a round is
published exactly as long as it has readers, a published round leaves all slots empty and
counts those who have deposited in it and not picked it up, and the rounds below the generation
are those that everybody has picked up. -/
theorem assertions_hold (parties : Nat) (moves : List Move) (hparties : 0 < parties) :
    let s := (idle parties).run moves
    let r := s.meeting.round
    (idle parties).run? moves = some s ∧
      r.slots.length = parties ∧
      r.arrived = r.slots.countP Option.isSome ∧ r.arrived < parties ∧
      (r.published.isSome ↔ 1 ≤ r.pending) ∧
      (r.published.isSome → (∀ slot < parties, r.slots[slot]? = some none) ∧ r.arrived = 0 ∧
        r.pending = (List.range parties).countP fun slot =>
          r.generation < s.deposits slot ∧ s.pickUps slot ≤ r.generation) ∧
      ∀ number, number < r.generation ↔ ∀ slot < parties, number < s.pickUps slot := by
  intro s r
  have hs : s.Sound := (Sound.idle parties).run moves
  have htidy : r.Tidy := tidy_run (fun _ => rfl) moves
  have hlen : s.meeting.parties = parties := parties_run _ _
  have hguarded : (idle parties).run? moves = some s := (Sound.idle parties).run? moves
  clear_value s
  subst hlen
  refine ⟨hguarded, hs.agrees.slots_length, hs.arrived_eq, hs.arrived_lt hparties, ?_, ?_,
    hs.lt_generation_iff hparties⟩
  · constructor
    · intro hpub
      obtain ⟨hpending, hreaders⟩ := hs.agrees.pending hpub
      exact hpending ▸ hreaders
    · intro hpending
      by_contra hnone
      have hzero : r.pending = 0 := htidy (by simpa using hnone)
      omega
  · intro hpub
    refine ⟨fun slot hslot => ?_, hs.agrees.arrived.trans (if_pos hpub),
      hs.pending_eq hpub⟩
    rw [hs.agrees.filled slot hslot, if_neg]
    rintro ⟨hnone, -⟩
    rw [show s.meeting.round.published = none from hnone] at hpub
    cases hpub

/-- A schedule of two that ends while slot 0 has still to pick up the first round, though slot
1 is back for the second one. -/
def draining : List Move :=
  [.call 0 [7], .proceed 0, .call 1 [], .proceed 1, .leave 1, .call 1 [9], .proceed 1]

theorem assertions_hold_draining :
    0 < 2 ∧ (idle 2).run? draining = some ((idle 2).run draining) ∧
      ((idle 2).run draining).meeting.round.pending = 1 ∧
      ((idle 2).run draining).meeting.round.published.isSome ∧
      ((idle 2).run draining).meeting.round.slots[1]? = some none := by
  have hparties : 0 < 2 := by decide
  have hpending : ((idle 2).run draining).meeting.round.pending = 1 := by decide
  obtain ⟨hguarded, -, -, -, hpublished, hwhile, -⟩ := assertions_hold 2 draining hparties
  have hpub := hpublished.mpr (Nat.le_of_eq hpending.symm)
  exact ⟨hparties, hguarded, hpending, hpub, (hwhile hpub).1 1 (by decide)⟩

end Session

end ClusterView
