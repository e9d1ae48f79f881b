import ClusterView.Engine
import ClusterView.Proofs.Hall

/-!
# Routines and their refused calls

A routine is what a participant does of its own accord: it acts on the shared state, makes
collective calls, and goes on with what they answer. A call is refused if it is answered at
once, and accepted if it meets the others. A register beside the shared state notes what
everybody's calls have offered and what the accepted ones have answered.

A refused call leaves no trace but in the register, so it may as well be deleted from the
routine, which then goes on as if the refusal had been given. What a deletion has to be right
about is said once (`Deletion`), and then a crew without the deleted calls can follow every
schedule of the crew with them (`Matches.run`). There are two ways to delete: by what the
register of a run says (`Routine.without`), and beforehand, by the state that the routine will
be in (`Routine.trim`), if nobody else has a hand in it (`Routine.Private`).

## Sections
- §1: Routines
- §2: The register
- §3: Phases of a participant
- §4: Deletions
- §5: Schedules without the deleted calls
- §6: Deleting what a run has refused
- §7: Deleting beforehand
-/

namespace ClusterView

/-! ## §1 Routines -/

/-- **Routine** of a participant, over a shared state `σ`, with calls that answer an error in
`ε` or a result in `α`. -/
inductive Routine (σ ε α : Type) where
  | done
  /-- Change the state, and go on with what the state was before the change. -/
  | act (change : σ → σ) (next : σ → Routine σ ε α)
  /-- Make a collective call, and go on with its answer. -/
  | call (collective : StateM σ (Offer ε α)) (next : Except ε α → Routine σ ε α)

/-- **Deposit** of an accepted call: what it brings to which seat, and what it makes of
everybody's payloads. -/
structure Deposit (ε α : Type) where
  seat : Seat
  payload : Bytes
  conclude : List Bytes → Except ε α

namespace Offer

variable {ε α : Type}

/-- The deposit of a call that is accepted. -/
def deposit? : Offer ε α → Option (Deposit ε α)
  | .answer _ => none
  | .meet seat payload conclude => some ⟨seat, payload, conclude⟩

/-- Is the call accepted? -/
def isAccepted (offer : Offer ε α) : Bool := offer.deposit?.isSome

end Offer

/-! ## §2 The register -/

/-- **Register** beside a shared state: what the calls of each participant have offered, refused
ones included, and what those that met the others have answered, oldest first. -/
structure Register (σ ε α : Type) where
  state : σ
  calls : Nat → List (Offer ε α)
  /-- The answers of the accepted calls. -/
  answers : Nat → List (Except ε α)

variable {σ ε α : Type}

namespace Register

/-- A register in which nothing is noted yet. -/
def blank (state : σ) : Register σ ε α := ⟨state, fun _ => [], fun _ => []⟩

/-- The deposits of a participant's accepted calls. -/
def deposits (s : Register σ ε α) (rank : Nat) : List (Deposit ε α) :=
  (s.calls rank).filterMap Offer.deposit?

def changing (change : σ → σ) (s : Register σ ε α) : Register σ ε α :=
  { s with state := change s.state }

/-- Make a participant's call, and note what it offers. -/
def calling (rank : Nat) (collective : StateM σ (Offer ε α)) :
    StateM (Register σ ε α) (Offer ε α) := fun s =>
  ((collective s.state).1,
    { s with
      state := (collective s.state).2
      calls := Function.update s.calls rank (s.calls rank ++ [(collective s.state).1]) })

theorem calls_calling_self (s : Register σ ε α) (rank : Nat)
    (collective : StateM σ (Offer ε α)) :
    (calling rank collective s).2.calls rank = s.calls rank ++ [(collective s.state).1] :=
  Function.update_self ..

theorem calls_calling_of_ne (s : Register σ ε α) {rank other : Nat} (h : other ≠ rank)
    (collective : StateM σ (Offer ε α)) :
    (calling rank collective s).2.calls other = s.calls other :=
  Function.update_of_ne h ..

/-- Note the answer of a participant's accepted call. -/
def note (rank : Nat) (answer : Except ε α) (s : Register σ ε α) : Register σ ε α :=
  { s with answers := Function.update s.answers rank (s.answers rank ++ [answer]) }

end Register

/-- What a participant does with the answer of a call: note it if the call met the others, and
go on. -/
def Offer.afterwards (rank : Nat) (rest : Except ε α → Program (Register σ ε α) Unit)
    (offer : Offer ε α) (answer : Except ε α) : Program (Register σ ε α) Unit :=
  if offer.isAccepted then .act (Register.note rank answer) fun _ => rest answer else rest answer

/-- **A routine as a program** of a participant. A collective is made in one action, and then
its offer is followed. -/
def Routine.program (rank : Nat) : Routine σ ε α → Program (Register σ ε α) Unit
  | .done => .done ()
  | .act change next => .act (Register.changing change) fun s => (next s.state).program rank
  | .call collective next =>
      (Program.atomically (Register.calling rank collective)).bind fun offer =>
        offer.toProgram.bind (offer.afterwards rank fun answer => (next answer).program rank)

/-- **Crew** of a number of participants with a routine each. -/
def Routine.crew (P : Nat → Routine σ ε α) (state : σ) (hall : Hall) (size : Nat) :
    Crew (Register σ ε α) Unit :=
  ⟨.blank state, hall, (List.range size).map fun rank => (P rank).program rank⟩

/-! ## §3 Phases of a participant -/

/-- **Phase** of a participant: about to do what is left of its routine, inside a call, or
about to note the answer of one. -/
inductive Phase (σ ε α : Type) where
  | ready (P : Routine σ ε α)
  | inside (d : Deposit ε α) (next : Except ε α → Routine σ ε α)
  | noting (answer : Except ε α) (P : Routine σ ε α)

namespace Phase

/-- What is left of the participant's program. -/
def program (rank : Nat) : Phase σ ε α → Program (Register σ ε α) Unit
  | ready P => P.program rank
  | inside d next => .exchange d.seat d.payload fun parts =>
      .act (Register.note rank (d.conclude parts)) fun _ => (next (d.conclude parts)).program rank
  | noting answer P => .act (Register.note rank answer) fun _ => P.program rank

/-- **Step** of a participant from one phase to the next, with what becomes of the register and
the hall. -/
inductive Step (rank : Nat) (s : Register σ ε α) (hall : Hall) :
    Phase σ ε α → Phase σ ε α → Register σ ε α → Hall → Prop where
  | acts (change : σ → σ) (next : σ → Routine σ ε α) :
      Step rank s hall (.ready (.act change next)) (.ready (next s.state)) (s.changing change) hall
  | refused (collective : StateM σ (Offer ε α)) (next : Except ε α → Routine σ ε α)
      (answer : Except ε α) (hoffer : (collective s.state).1 = .answer answer) :
      Step rank s hall (.ready (.call collective next)) (.ready (next answer))
        (Register.calling rank collective s).2 hall
  | accepted (collective : StateM σ (Offer ε α)) (next : Except ε α → Routine σ ε α)
      (d : Deposit ε α) (hoffer : (collective s.state).1 = .meet d.seat d.payload d.conclude) :
      Step rank s hall (.ready (.call collective next)) (.inside d next)
        (Register.calling rank collective s).2 hall
  | waits (d : Deposit ε α) (next : Except ε α → Routine σ ε α)
      (hawake : ((hall.meeting d.seat).stage d.seat.slot).isAsleep = false)
      (hturn : (hall.turn d.seat d.payload).1 = none) :
      Step rank s hall (.inside d next) (.inside d next) s (hall.turn d.seat d.payload).2
  | returns (d : Deposit ε α) (next : Except ε α → Routine σ ε α) (parts : List Bytes)
      (hawake : ((hall.meeting d.seat).stage d.seat.slot).isAsleep = false)
      (hturn : (hall.turn d.seat d.payload).1 = some parts) :
      Step rank s hall (.inside d next) (.noting (d.conclude parts) (next (d.conclude parts))) s
        (hall.turn d.seat d.payload).2
  | notes (answer : Except ε α) (P : Routine σ ε α) :
      Step rank s hall (.noting answer P) (.ready P) (s.note rank answer) hall

end Phase

namespace Crew

variable {c c' : Crew (Register σ ε α) Unit} {size rank : Nat} {φ : Nat → Phase σ ε α}

/-- **By phases**: every participant's program is what its phase says. -/
def InPhases (c : Crew (Register σ ε α) Unit) (size : Nat) (φ : Nat → Phase σ ε α) : Prop :=
  c.members = (List.range size).map fun rank => (φ rank).program rank

theorem InPhases.getElem? (h : c.InPhases size φ) (hrank : rank < size) :
    c.members[rank]? = some ((φ rank).program rank) := by
  rw [h, List.getElem?_map, List.getElem?_range hrank]
  rfl

/-- The members once one of them has moved on. -/
theorem InPhases.set (h : c.InPhases size φ) (φ' : Phase σ ε α) {shared : Register σ ε α}
    {hall : Hall} :
    (⟨shared, hall, c.members.set rank (φ'.program rank)⟩ :
      Crew (Register σ ε α) Unit).InPhases size (Function.update φ rank φ') := by
  rw [InPhases] at h ⊢
  show c.members.set rank _ = _
  rw [h]
  apply List.ext_getElem
  · simp
  · intro i hi hi'
    rw [List.getElem_set]
    -- a list with an entry set, against a function with a value updated
    by_cases heq : rank = i
    · subst heq
      simp
    · simp [heq, Function.update_of_ne (Ne.symm heq)]

/-- **A step of the phases is a step of the crew.** -/
theorem InPhases.step?_eq (h : c.InPhases size φ) (hrank : rank < size) {φ' : Phase σ ε α}
    {shared : Register σ ε α} {hall : Hall}
    (hstep : Phase.Step rank c.shared c.hall (φ rank) φ' shared hall) :
    c.step? rank = some ⟨shared, hall, c.members.set rank (φ'.program rank)⟩ := by
  have hmember := h.getElem? hrank
  generalize φ rank = now at hstep hmember
  cases hstep with
  | acts change next => exact step?_of_act hmember
  | refused collective next answer hoffer =>
    rw [step?_of_act hmember]
    simp only [Register.calling, Program.bind, hoffer]
    rfl
  | accepted collective next d hoffer =>
    rw [step?_of_act hmember]
    simp only [Register.calling, Program.bind, hoffer]
    rfl
  | waits d next hawake hturn =>
    rw [step?_of_exchange hmember hawake, hturn]
    rfl
  | returns d next parts hawake hturn =>
    rw [step?_of_exchange hmember hawake, hturn]
    rfl
  | notes answer P => exact step?_of_act hmember

/-- **What a move of the crew comes to**: nothing, a chance waking, or a step of one
participant. -/
inductive Moved (c : Crew (Register σ ε α) Unit) (size : Nat) (φ : Nat → Phase σ ε α) :
    Move → Crew (Register σ ε α) Unit → (Nat → Phase σ ε α) → Prop where
  | stays (rank : Nat) : Moved c size φ (.step rank) c φ
  | wakes (point : Point) (slot : Nat) :
      Moved c size φ (.wake point slot) { c with hall := c.hall.wake point slot } φ
  | steps {rank : Nat} (hrank : rank < size) {φ' : Phase σ ε α} {shared : Register σ ε α}
      {hall : Hall} (hstep : Phase.Step rank c.shared c.hall (φ rank) φ' shared hall) :
      Moved c size φ (.step rank) ⟨shared, hall, c.members.set rank (φ'.program rank)⟩
        (Function.update φ rank φ')

/-- **Every move is one of these.** -/
theorem InPhases.moved (h : c.InPhases size φ) (m : Move) :
    ∃ φ', Moved c size φ m (c.move m) φ' := by
  have hstays : ∀ rank, c.step? rank = none → ∃ φ', Moved c size φ (.step rank)
      (c.move (.step rank)) φ' := by
    intro rank hnone
    rw [move, hnone]
    exact ⟨φ, .stays rank⟩
  have hsteps : ∀ {rank now φ' shared hall}, rank < size → φ rank = now →
      Phase.Step rank c.shared c.hall now φ' shared hall →
      ∃ φ', Moved c size φ (.step rank) (c.move (.step rank)) φ' := by
    rintro rank _ φ' shared hall hrank rfl hstep
    rw [move, h.step?_eq hrank hstep]
    exact ⟨_, .steps hrank hstep⟩
  cases m with
  | wake point slot => exact ⟨φ, .wakes point slot⟩
  | step rank =>
    by_cases hrank : rank < size
    · -- the cases are those of the phase, and in them what the desk or the hall answers
      have hmember := h.getElem? hrank
      generalize hnow : φ rank = now at hmember
      cases now with
      | ready P =>
        cases P with
        | done => exact hstays rank (step?_of_done hmember)
        | act change next => exact hsteps hrank hnow (.acts change next)
        | call collective next =>
          cases hoffer : (collective c.shared.state).1 with
          | answer answer => exact hsteps hrank hnow (.refused collective next answer hoffer)
          | meet seat payload conclude =>
            exact hsteps hrank hnow (.accepted collective next ⟨seat, payload, conclude⟩ hoffer)
      | inside d next =>
        cases hasleep : ((c.hall.meeting d.seat).stage d.seat.slot).isAsleep with
        | true => exact hstays rank (step?_of_asleep hmember hasleep)
        | false =>
          cases hturn : (c.hall.turn d.seat d.payload).1 with
          | none => exact hsteps hrank hnow (.waits d next hasleep hturn)
          | some parts => exact hsteps hrank hnow (.returns d next parts hasleep hturn)
      | noting answer P => exact hsteps hrank hnow (.notes answer P)
    · apply hstays rank
      apply step?_of_le
      rw [h, List.length_map, List.length_range]
      exact Nat.le_of_not_lt hrank

theorem Moved.inPhases {m : Move} {φ' : Nat → Phase σ ε α} (h : Moved c size φ m c' φ')
    (hφ : c.InPhases size φ) : c'.InPhases size φ' := by
  cases h with
  | stays rank => exact hφ
  | wakes point slot => exact hφ
  | steps hrank hstep => exact hφ.set _

/-- At the beginning, everybody's whole routine is left. -/
theorem inPhases_crew (P : Nat → Routine σ ε α) (state : σ) (hall : Hall) (size : Nat) :
    (Routine.crew P state hall size).InPhases size fun rank => .ready (P rank) := rfl

/-- Calls are added to those before. -/
theorem Moved.calls_mono {m : Move} {φ' : Nat → Phase σ ε α} (h : Moved c size φ m c' φ')
    (rank : Nat) : c.shared.calls rank <+: c'.shared.calls rank := by
  have hcalling : ∀ (other : Nat) (collective : StateM σ (Offer ε α)),
      c.shared.calls rank <+: (Register.calling other collective c.shared).2.calls rank := by
    intro other collective
    by_cases heq : rank = other
    · rw [heq, Register.calls_calling_self]
      exact List.prefix_append _ _
    · exact (Register.calls_calling_of_ne _ heq collective).symm ▸ List.prefix_refl _
  cases h with
  | stays _ | wakes _ _ => exact List.prefix_refl _
  | @steps other _ _ _ _ hstep =>
    generalize φ other = now at hstep
    cases hstep with
    | refused collective _ _ _ | accepted collective _ _ _ => exact hcalling _ collective
    | acts _ _ | waits _ _ _ _ | returns _ _ _ _ _ | notes _ _ => exact List.prefix_refl _

theorem InPhases.calls_mono (h : c.InPhases size φ) (schedule : List Move) (rank : Nat) :
    c.shared.calls rank <+: (c.follow schedule).shared.calls rank := by
  induction schedule generalizing c φ with
  | nil => exact List.prefix_refl _
  | cons m rest ih =>
    obtain ⟨φ', hmoved⟩ := h.moved m
    exact (hmoved.calls_mono rank).trans (ih (hmoved.inPhases h))

theorem InPhases.follow (h : c.InPhases size φ) (schedule : List Move) :
    ∃ φ', (c.follow schedule).InPhases size φ' := by
  induction schedule generalizing c φ with
  | nil => exact ⟨φ, h⟩
  | cons m rest ih =>
    obtain ⟨φ', hmoved⟩ := h.moved m
    exact ih (hmoved.inPhases h)

end Crew

/-! ## §4 Deletions -/

/-- **Deletion**: a relation between a participant's routine and one with calls deleted, at a
register of the full crew. It follows the routine step by step, as long as the registers are
`Right`: an action is in both, an accepted call is in both, and a refused call, which leaves the
state alone, is in the first only. What others do does not matter. -/
structure Deletion (Right : Register σ ε α → Prop)
    (R : Nat → Register σ ε α → Routine σ ε α → Routine σ ε α → Prop) : Prop where
  act : ∀ {rank s change next Q}, R rank s (.act change next) Q → ∃ next',
    Q = .act change next' ∧ R rank (s.changing change) (next s.state) (next' s.state)
  refused : ∀ {rank s} {collective : StateM σ (Offer ε α)} {next Q answer},
    R rank s (.call collective next) Q → (collective s.state).1 = .answer answer →
    Right (Register.calling rank collective s).2 → (collective s.state).2 = s.state ∧
      R rank (Register.calling rank collective s).2 (next answer) Q
  accepted : ∀ {rank s} {collective : StateM σ (Offer ε α)} {next Q seat payload conclude},
    R rank s (.call collective next) Q → (collective s.state).1 = .meet seat payload conclude →
    Right (Register.calling rank collective s).2 → ∃ next', Q = .call collective next' ∧
      ∀ answer, R rank (Register.calling rank collective s).2 (next answer) (next' answer)
  note : ∀ {rank s P Q}, R rank s P Q → ∀ other answer, R rank (s.note other answer) P Q
  /-- Actions and calls of others. -/
  others : ∀ {rank s P Q other P' Q'}, R rank s P Q → R other s P' Q' → rank ≠ other →
    (∀ change next, P' = .act change next → R rank (s.changing change) P Q) ∧
      ∀ collective next, P' = .call collective next →
        R rank (Register.calling other collective s).2 P Q

/-- A phase of the full routine, and the same phase where calls are deleted. -/
inductive Phase.Deletes (R : Nat → Register σ ε α → Routine σ ε α → Routine σ ε α → Prop)
    (rank : Nat) (s : Register σ ε α) : Phase σ ε α → Phase σ ε α → Prop where
  | ready {P Q : Routine σ ε α} (h : R rank s P Q) : Deletes R rank s (.ready P) (.ready Q)
  | inside (d : Deposit ε α) {next next' : Except ε α → Routine σ ε α}
      (h : ∀ answer, R rank s (next answer) (next' answer)) :
      Deletes R rank s (.inside d next) (.inside d next')
  | noting (answer : Except ε α) {P Q : Routine σ ε α} (h : R rank s P Q) :
      Deletes R rank s (.noting answer P) (.noting answer Q)

/-- What the deletions at one register imply at another, they imply for phases. -/
theorem Phase.Deletes.mono {R : Nat → Register σ ε α → Routine σ ε α → Routine σ ε α → Prop}
    {rank : Nat} {s s' : Register σ ε α} {φ ψ : Phase σ ε α}
    (hR : ∀ P Q, R rank s P Q → R rank s' P Q) (h : φ.Deletes R rank s ψ) :
    φ.Deletes R rank s' ψ := by
  cases h with
  | ready h => exact .ready (hR _ _ h)
  | inside d h => exact .inside d fun answer => hR _ _ (h answer)
  | noting answer h => exact .noting answer (hR _ _ h)

/-! ## §5 Schedules without the deleted calls -/

/-- **Same register but for refused calls**. -/
structure Register.Without (s s' : Register σ ε α) : Prop where
  state : s'.state = s.state
  calls : ∀ rank, s'.calls rank = (s.calls rank).filter Offer.isAccepted
  answers : s'.answers = s.answers

namespace Register.Without

variable {s s' : Register σ ε α} {rank : Nat} {collective : StateM σ (Offer ε α)}

theorem changing (h : s.Without s') (change : σ → σ) :
    (s.changing change).Without (s'.changing change) :=
  ⟨congrArg change h.state, h.calls, h.answers⟩

theorem note (h : s.Without s') (rank : Nat) (answer : Except ε α) :
    (s.note rank answer).Without (s'.note rank answer) :=
  ⟨h.state, h.calls, by rw [Register.note, Register.note, h.answers]⟩

/-- A refused call is noted on one side only. -/
theorem refused (h : s.Without s') {answer : Except ε α}
    (hoffer : (collective s.state).1 = .answer answer)
    (hstate : (collective s.state).2 = s.state) :
    (Register.calling rank collective s).2.Without s' := by
  refine ⟨h.state.trans hstate.symm, fun other => ?_, h.answers⟩
  rw [h.calls]
  by_cases heq : other = rank
  · rw [heq, Register.calls_calling_self, hoffer]
    simp [Offer.isAccepted, Offer.deposit?]
  · rw [Register.calls_calling_of_ne _ heq]

theorem accepted (h : s.Without s') {seat : Seat} {payload : Bytes}
    {conclude : List Bytes → Except ε α}
    (hoffer : (collective s.state).1 = .meet seat payload conclude) :
    (Register.calling rank collective s).2.Without (Register.calling rank collective s').2 := by
  refine ⟨by simp only [Register.calling, h.state], fun other => ?_, h.answers⟩
  by_cases heq : other = rank
  · rw [heq, Register.calls_calling_self, Register.calls_calling_self, h.calls, h.state, hoffer,
      List.filter_append]
    rfl
  · rw [Register.calls_calling_of_ne _ heq, Register.calls_calling_of_ne _ heq, h.calls]

end Register.Without

namespace Crew

/-- **Matching crews**: the second is in the same hall, with a register without refused calls,
and every participant is in the same phase with calls deleted. -/
structure Matches (R : Nat → Register σ ε α → Routine σ ε α → Routine σ ε α → Prop)
    (c c' : Crew (Register σ ε α) Unit) (size : Nat) (φ ψ : Nat → Phase σ ε α) : Prop where
  full : c.InPhases size φ
  trimmed : c'.InPhases size ψ
  hall : c'.hall = c.hall
  register : c.shared.Without c'.shared
  phases : ∀ rank, (φ rank).Deletes R rank c.shared (ψ rank)

section Matching

variable {R : Nat → Register σ ε α → Routine σ ε α → Routine σ ε α → Prop}
  {Right : Register σ ε α → Prop} {c c' : Crew (Register σ ε α) Unit} {size : Nat}
  {φ ψ : Nat → Phase σ ε α}

/-- **Frame**: where one participant has moved on, the deletions of the others have to survive
the change of the register only. -/
theorem Matches.of_step (h : c.Matches R c' size φ ψ) {rank : Nat} {φ' ψ' : Phase σ ε α}
    {shared : Register σ ε α} {hall : Hall} {c'' : Crew (Register σ ε α) Unit}
    (htrimmed : c''.InPhases size (Function.update ψ rank ψ')) (hhall : c''.hall = hall)
    (hregister : shared.Without c''.shared) (hphase : φ'.Deletes R rank shared ψ')
    (hothers : ∀ other, other ≠ rank → ∀ P Q, R other c.shared P Q → R other shared P Q) :
    (⟨shared, hall, c.members.set rank (φ'.program rank)⟩ :
      Crew (Register σ ε α) Unit).Matches R c'' size (Function.update φ rank φ')
        (Function.update ψ rank ψ') := by
  refine ⟨h.full.set φ', htrimmed, hhall, hregister, fun other => ?_⟩
  by_cases heq : other = rank
  · subst heq
    rwa [Function.update_self, Function.update_self]
  · rw [Function.update_of_ne heq, Function.update_of_ne heq]
    exact (h.phases other).mono (hothers other heq)

/-- A step of the full crew is matched by one of the other that does the same to the hall. -/
theorem Matches.of_same_step (h : c.Matches R c' size φ ψ) {rank : Nat} (hrank : rank < size)
    {φ' ψ' there : Phase σ ε α} {shared shared' : Register σ ε α} {hall hall' : Hall}
    (hψ : ψ rank = there) (hstep : Phase.Step rank c'.shared c'.hall there ψ' shared' hall')
    (hhall : hall' = hall) (hregister : shared.Without shared')
    (hphase : φ'.Deletes R rank shared ψ')
    (hothers : ∀ other, other ≠ rank → ∀ P Q, R other c.shared P Q → R other shared P Q) :
    ∃ moves ψ', moves.Sublist [Move.step rank] ∧
      (⟨shared, hall, c.members.set rank (φ'.program rank)⟩ :
        Crew (Register σ ε α) Unit).Matches R (c'.follow moves) size
          (Function.update φ rank φ') ψ' := by
  refine ⟨[.step rank], Function.update ψ rank ψ', List.Sublist.refl _, ?_⟩
  have hfollow : c'.follow [.step rank] =
      ⟨shared', hall', c'.members.set rank (ψ'.program rank)⟩ := by
    simp only [follow, List.foldl_cons, List.foldl_nil, move,
      h.trimmed.step?_eq hrank (hψ ▸ hstep), Option.getD_some]
  rw [hfollow]
  exact h.of_step (h.trimmed.set ψ') hhall hregister hphase hothers

/-- **Step lemma**: a step of the full crew is matched by one step of the other, or by none. -/
theorem Matches.step (hR : Deletion Right R) (h : c.Matches R c' size φ ψ) {rank : Nat}
    (hrank : rank < size) {φ' : Phase σ ε α} {shared : Register σ ε α} {hall : Hall}
    (hstep : Phase.Step rank c.shared c.hall (φ rank) φ' shared hall) (hright : Right shared) :
    ∃ moves ψ', moves.Sublist [Move.step rank] ∧
      (⟨shared, hall, c.members.set rank (φ'.program rank)⟩ :
        Crew (Register σ ε α) Unit).Matches R (c'.follow moves) size
          (Function.update φ rank φ') ψ' := by
  have hhall := h.hall
  have hphase := h.phases rank
  generalize φ rank = now at hstep hphase
  generalize hψ : ψ rank = there at hphase
  cases hstep with
  | acts change next =>
    cases hphase with
    | ready hdeletes =>
      obtain ⟨next', rfl, hnext⟩ := hR.act hdeletes
      refine h.of_same_step hrank hψ (.acts change next') hhall (h.register.changing change) ?_
        fun other hne P Q hPQ => (hR.others hPQ hdeletes hne).1 change next rfl
      rw [h.register.state]
      exact .ready hnext
  | refused collective next answer hoffer =>
    cases hphase with
    | @ready _ Q hdeletes =>
      -- the other crew has no such call, and stays where it is
      obtain ⟨hstate, hnext⟩ := hR.refused hdeletes hoffer hright
      refine ⟨[], Function.update ψ rank (.ready Q), List.nil_sublist _, ?_⟩
      refine h.of_step ?_ hhall (h.register.refused hoffer hstate) (.ready hnext)
        fun other hne P Q hPQ => (hR.others hPQ hdeletes hne).2 collective next rfl
      rw [← hψ, Function.update_eq_self]
      exact h.trimmed
  | accepted collective next d hoffer =>
    cases hphase with
    | ready hdeletes =>
      obtain ⟨next', rfl, hnext⟩ := hR.accepted hdeletes hoffer hright
      -- both registers have the same state, so the call is accepted there too
      have hoffer' : (collective c'.shared.state).1 = .meet d.seat d.payload d.conclude := by
        rw [h.register.state, hoffer]
      exact h.of_same_step hrank hψ (.accepted collective next' d hoffer') hhall
        (h.register.accepted hoffer) (.inside d hnext)
        fun other hne P Q hPQ => (hR.others hPQ hdeletes hne).2 collective next rfl
  | waits d next hawake hturn =>
    cases hphase with
    | inside d hnext =>
      rw [← hhall] at hawake hturn
      exact h.of_same_step hrank hψ (.waits d _ hawake hturn) (by rw [hhall]) h.register
        (.inside d hnext) fun _ _ _ _ hPQ => hPQ
  | returns d next parts hawake hturn =>
    cases hphase with
    | inside d hnext =>
      rw [← hhall] at hawake hturn
      exact h.of_same_step hrank hψ (.returns d _ parts hawake hturn) (by rw [hhall]) h.register
        (.noting _ (hnext _)) fun _ _ _ _ hPQ => hPQ
  | notes answer P =>
    cases hphase with
    | noting answer hdeletes =>
      exact h.of_same_step hrank hψ (.notes answer _) hhall (h.register.note rank answer)
        (.ready (hR.note hdeletes rank answer)) fun _ _ _ _ hPQ => hR.note hPQ rank answer

/-- **Move lemma**: a move of the full crew is matched by the same one of the other, or by
none. -/
theorem Matches.moved (hR : Deletion Right R) (h : c.Matches R c' size φ ψ) {m : Move}
    {c₁ : Crew (Register σ ε α) Unit} {φ₁ : Nat → Phase σ ε α} (hmoved : Moved c size φ m c₁ φ₁)
    (hright : Right c₁.shared) :
    ∃ moves ψ₁, moves.Sublist [m] ∧ c₁.Matches R (c'.follow moves) size φ₁ ψ₁ := by
  cases hmoved with
  | stays rank => exact ⟨[], ψ, List.nil_sublist _, h⟩
  | wakes point slot =>
    refine ⟨[.wake point slot], ψ, List.Sublist.refl _, h.full, h.trimmed, ?_, h.register, h.phases⟩
    show c'.hall.wake point slot = _
    rw [h.hall]
  | steps hrank hstep =>
    obtain ⟨moves, ψ₁, hsub, hmatches⟩ := h.step hR hrank hstep hright
    exact ⟨moves, ψ₁, hsub, hmatches⟩

/-- **Run lemma**: what the full crew can do, the other one can do in fewer moves. -/
theorem Matches.run (hR : Deletion Right R) (h : c.Matches R c' size φ ψ) (schedule : List Move)
    (hright : ∀ first rest, schedule = first ++ rest → Right (c.follow first).shared) :
    ∃ schedule' φ' ψ', schedule'.Sublist schedule ∧
      (c.follow schedule).Matches R (c'.follow schedule') size φ' ψ' := by
  induction schedule generalizing c c' φ ψ with
  | nil => exact ⟨[], φ, ψ, List.Sublist.refl _, h⟩
  | cons m rest ih =>
    obtain ⟨φ₁, hmoved⟩ := h.full.moved m
    obtain ⟨moves, ψ₁, hmovesub, h₁⟩ := h.moved hR hmoved (hright [m] rest rfl)
    obtain ⟨schedule', φ', ψ', hsub, hmatches⟩ := ih h₁ fun first more hsplit =>
      hright (m :: first) more (by rw [hsplit]; rfl)
    refine ⟨moves ++ schedule', φ', ψ', hmovesub.append hsub, ?_⟩
    have happend : c'.follow (moves ++ schedule') = (c'.follow moves).follow schedule' :=
      List.foldl_append
    rw [happend]
    exact hmatches

end Matching

end Crew

/-! ## §6 Deleting what a run has refused -/

namespace Routine

/-- **Quiet** routines: their calls leave the shared state as it is. -/
def Quiet : Routine σ ε α → Prop
  | .done => True
  | .act _ next => ∀ s, (next s).Quiet
  | .call collective next => (∀ s, (collective s).2 = s) ∧ ∀ answer, (next answer).Quiet

/-- **The routine without refused calls**, by the offers that its calls have made: it goes on as
if the refusal had been given. -/
def without : Routine σ ε α → List (Offer ε α) → Routine σ ε α
  | .done, _ => .done
  | .act change next, offers => .act change fun s => (next s).without offers
  | .call collective next, [] => .call collective next
  | .call _ next, .answer answer :: offers => (next answer).without offers
  | .call collective next, .meet _ _ _ :: offers =>
      .call collective fun answer => (next answer).without offers

end Routine

/-- The registers on the way to one with these calls. -/
def Register.Before (calls : Nat → List (Offer ε α)) (s : Register σ ε α) : Prop :=
  ∀ rank, s.calls rank <+: calls rank

/-- What is left of a routine, and the same without the calls that will be refused. -/
def Routine.WithoutLater (calls : Nat → List (Offer ε α)) (rank : Nat) (s : Register σ ε α)
    (P Q : Routine σ ε α) : Prop :=
  P.Quiet ∧ Q = P.without ((calls rank).drop (s.calls rank).length)

/-- Once a call is made on the way, it is the next one of the calls. -/
theorem Register.Before.drop {calls : Nat → List (Offer ε α)} {rank : Nat} {s : Register σ ε α}
    {collective : StateM σ (Offer ε α)}
    (h : Register.Before calls (Register.calling rank collective s).2) :
    (calls rank).drop (s.calls rank).length = (collective s.state).1 ::
      (calls rank).drop ((Register.calling rank collective s).2.calls rank).length := by
  obtain ⟨later, hlater⟩ := h rank
  rw [Register.calls_calling_self] at hlater ⊢
  rw [← hlater]
  simp

/-- **Deletion by the calls of a run**. -/
theorem Routine.deletion_without (calls : Nat → List (Offer ε α)) :
    Deletion (Register.Before calls : Register σ ε α → Prop) (Routine.WithoutLater calls) where
  act := by
    rintro rank s change next Q ⟨hquiet, rfl⟩
    exact ⟨_, rfl, hquiet _, rfl⟩
  refused := by
    rintro rank s collective next Q answer ⟨hquiet, rfl⟩ hoffer hbefore
    refine ⟨hquiet.1 _, hquiet.2 _, ?_⟩
    rw [hbefore.drop, hoffer]
    rfl
  accepted := by
    rintro rank s collective next Q seat payload conclude ⟨hquiet, rfl⟩ hoffer hbefore
    rw [hbefore.drop, hoffer]
    exact ⟨_, rfl, fun answer => ⟨hquiet.2 answer, rfl⟩⟩
  note := fun h _ _ => h
  others := by
    rintro rank s P Q other P' Q' ⟨hquiet, rfl⟩ - hne
    refine ⟨fun change next _ => ⟨hquiet, rfl⟩, fun collective next _ => ⟨hquiet, ?_⟩⟩
    rw [Register.calls_calling_of_ne s hne]

/-- **Run without refused calls**: what a crew has done, the crew without the calls that were
refused can do in fewer moves. The hall and the state are the same, and so are the answers of
all other calls. -/
theorem Routine.run_without {P : Nat → Routine σ ε α} (hquiet : ∀ rank, (P rank).Quiet)
    (state : σ) (hall : Hall) (size : Nat) (schedule : List Crew.Move) :
    let c := (crew P state hall size).follow schedule
    let without := crew (fun rank => (P rank).without (c.shared.calls rank)) state hall size
    ∃ schedule', schedule'.Sublist schedule ∧ (without.follow schedule').hall = c.hall ∧
      c.shared.Without (without.follow schedule').shared := by
  intro c without
  have hmatches : (crew P state hall size).Matches (WithoutLater c.shared.calls)
      (crew (fun rank => (P rank).without (c.shared.calls rank)) state hall size) size
      (fun rank => .ready (P rank))
      fun rank => .ready ((P rank).without (c.shared.calls rank)) :=
    ⟨rfl, rfl, rfl, ⟨rfl, fun _ => rfl, rfl⟩, fun rank => .ready ⟨hquiet rank, rfl⟩⟩
  -- the calls of a run's beginning are the first of the calls of the whole run
  have hbefore : ∀ first rest, schedule = first ++ rest →
      Register.Before c.shared.calls ((crew P state hall size).follow first).shared := by
    rintro first rest rfl rank
    obtain ⟨φ, hφ⟩ := (Crew.inPhases_crew P state hall size).follow first
    have happend : c = ((crew P state hall size).follow first).follow rest := List.foldl_append
    rw [happend]
    exact hφ.calls_mono rest rank
  obtain ⟨schedule', _, _, hsub, h⟩ := hmatches.run (deletion_without _) schedule hbefore
  exact ⟨schedule', hsub, h.hall, h.register⟩

/-! ## §7 Deleting beforehand -/

namespace Routine

/-- **Trimmed routine**, from a state on: without the calls that are refused there. -/
def trim : Routine σ ε α → σ → Routine σ ε α
  | .done, _ => .done
  | .act change next, _ => .act change fun s => (next s).trim (change s)
  | .call collective next, s =>
      match (collective s).1 with
      | .answer answer => (next answer).trim s
      | .meet _ _ _ => .call collective fun answer => (next answer).trim s

/-- **Private** routines, by what each participant has of the state for its own: actions leave
what others have as it is, and nothing depends on it. -/
def Private {τ : Type} (own : Nat → σ → τ) (rank : Nat) : Routine σ ε α → Prop
  | .done => True
  | .act change next =>
      (∀ s other, other ≠ rank → own other (change s) = own other s) ∧
        (∀ s s', own rank s = own rank s' →
          own rank (change s) = own rank (change s') ∧ next s = next s') ∧
        ∀ s, (next s).Private own rank
  | .call collective next =>
      (∀ s s', own rank s = own rank s' → (collective s).1 = (collective s').1) ∧
        ∀ answer, (next answer).Private own rank

section Trimming

variable {τ : Type} {own : Nat → σ → τ} {rank : Nat} {P : Routine σ ε α} {s s' : σ}

theorem trim_congr (hprivate : P.Private own rank) (h : own rank s = own rank s') :
    P.trim s = P.trim s' := by
  induction P with
  | done => rfl
  | act change next _ => rfl
  | call collective next ih =>
    have hoffer := hprivate.1 s s' h
    simp only [trim, ← hoffer]
    split
    · exact ih _ (hprivate.2 _)
    · exact congrArg (Routine.call collective) (funext fun answer => ih answer (hprivate.2 answer))

end Trimming

/-- What is left of a private routine, and the same trimmed. -/
def Trimmed {τ : Type} (own : Nat → σ → τ) (rank : Nat) (s : Register σ ε α)
    (P Q : Routine σ ε α) : Prop :=
  P.Private own rank ∧ P.Quiet ∧ Q = P.trim s.state

/-- **Deletion beforehand**. -/
theorem deletion_trim {τ : Type} (own : Nat → σ → τ) :
    Deletion (fun _ : Register σ ε α => True) (Trimmed own) where
  act := by
    rintro rank s change next Q ⟨hprivate, hquiet, rfl⟩
    exact ⟨_, rfl, hprivate.2.2 _, hquiet _, rfl⟩
  refused := by
    rintro rank s collective next Q answer ⟨hprivate, hquiet, rfl⟩ hoffer -
    have hstate : (collective s.state).2 = s.state := hquiet.1 _
    refine ⟨hstate, hprivate.2 _, hquiet.2 _, ?_⟩
    simp only [trim, hoffer, Register.calling, hstate]
  accepted := by
    rintro rank s collective next Q seat payload conclude ⟨hprivate, hquiet, rfl⟩ hoffer -
    have hstate : (collective s.state).2 = s.state := hquiet.1 _
    refine ⟨fun answer => (next answer).trim s.state, ?_, fun answer =>
      ⟨hprivate.2 answer, hquiet.2 answer, ?_⟩⟩
    · simp only [trim, hoffer]
    · simp only [Register.calling, hstate]
  note := fun h _ _ => h
  others := by
    rintro rank s P Q other P' Q' ⟨hprivate, hquiet, rfl⟩ ⟨hprivate', hquiet', -⟩ hne
    constructor
    · -- an action of somebody else changes the state, but nothing that the routine looks at
      rintro change next rfl
      exact ⟨hprivate, hquiet, trim_congr hprivate (hprivate'.1 s.state rank hne).symm⟩
    · rintro collective next rfl
      refine ⟨hprivate, hquiet, ?_⟩
      rw [show (Register.calling other collective s).2.state = s.state from hquiet'.1 _]

/-- **Run of trimmed routines**: what a crew of private routines has done, the crew of the
trimmed routines can do in fewer moves. -/
theorem run_trim {τ : Type} {own : Nat → σ → τ} {P : Nat → Routine σ ε α}
    (hprivate : ∀ rank, (P rank).Private own rank) (hquiet : ∀ rank, (P rank).Quiet)
    (state : σ) (hall : Hall) (size : Nat) (schedule : List Crew.Move) :
    let c := (crew P state hall size).follow schedule
    let trimmed := crew (fun rank => (P rank).trim state) state hall size
    ∃ schedule', schedule'.Sublist schedule ∧ (trimmed.follow schedule').hall = c.hall ∧
      c.shared.Without (trimmed.follow schedule').shared := by
  intro c trimmed
  have hmatches : (crew P state hall size).Matches (Trimmed own)
      (crew (fun rank => (P rank).trim state) state hall size) size
      (fun rank => .ready (P rank)) fun rank => .ready ((P rank).trim state) :=
    ⟨rfl, rfl, rfl, ⟨rfl, fun _ => rfl, rfl⟩, fun rank => .ready ⟨hprivate rank, hquiet rank, rfl⟩⟩
  obtain ⟨schedule', _, _, hsub, h⟩ :=
    hmatches.run (deletion_trim own) schedule fun _ _ _ => trivial
  exact ⟨schedule', hsub, h.hall, h.register⟩

end Routine

end ClusterView
