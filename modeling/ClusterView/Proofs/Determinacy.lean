import ClusterView.Proofs.Pairing

/-!
# Determinacy of private routines

What a participant with a private routine deposits next depends on nothing but the answers
that it has got so far (`Routine.nextDeposit?`), and what it is answered is a conclusion from
the deposits of the members of the group. So two runs never answer a call differently, however
they are scheduled (`Routine.answers_agree`). Since a refused call makes no difference to the
next deposit, it makes none to the answers either.

## Sections
- §1: The next deposit
- §2: Trimmed routines
- §3: What a run has planned
- §4: Two runs
-/

namespace ClusterView

variable {σ ε α : Type}

/-! ## §1 The next deposit -/

namespace Routine

/-- **The next deposit** of a routine from a state on, after the answers to its accepted
calls. -/
def nextDeposit? : Routine σ ε α → σ → List (Except ε α) → Option (Deposit ε α)
  | .done, _, _ => none
  | .act change next, s, answers => (next s).nextDeposit? (change s) answers
  | .call collective next, s, answers =>
      match (collective s).1 with
      | .answer answer => (next answer).nextDeposit? s answers
      | .meet seat payload conclude =>
          match answers with
          | [] => some ⟨seat, payload, conclude⟩
          | answer :: later => (next answer).nextDeposit? s later

section Private

variable {τ : Type} {own : Nat → σ → τ} {rank : Nat} {P : Routine σ ε α} {s s' : σ}

/-- It depends only on what the participant has of the state for its own. -/
theorem nextDeposit?_congr (hprivate : P.Private own rank) (h : own rank s = own rank s')
    (answers : List (Except ε α)) : P.nextDeposit? s answers = P.nextDeposit? s' answers := by
  induction P generalizing s s' answers with
  | done => rfl
  | act change next ih =>
    obtain ⟨hchange, hnext⟩ := hprivate.2.1 s s' h
    simp only [nextDeposit?, hnext]
    exact ih s' (hprivate.2.2 s') hchange answers
  | call collective next ih =>
    have hoffer := hprivate.1 s s' h
    simp only [nextDeposit?, ← hoffer]
    split
    · exact ih _ (hprivate.2 _) h _
    · split
      · rfl
      · exact ih _ (hprivate.2 _) h _

/-! ## §2 Trimmed routines -/

/-- **Trimming leaves the next deposit as it is**. -/
theorem nextDeposit?_trim (P : Routine σ ε α) (s : σ) (answers : List (Except ε α)) :
    (P.trim s).nextDeposit? s answers = P.nextDeposit? s answers := by
  induction P generalizing s answers with
  | done => rfl
  | act change next ih => exact ih s (change s) answers
  | call collective next ih =>
    cases hoffer : (collective s).1 with
    | answer answer =>
      simp only [trim, nextDeposit?, hoffer]
      exact ih answer s answers
    | meet seat payload conclude =>
      simp only [trim, hoffer]
      cases answers with
      | nil => simp only [nextDeposit?, hoffer]
      | cons answer rest =>
        simp only [nextDeposit?, hoffer]
        exact ih answer s rest

theorem Private.trim (h : P.Private own rank) (s : σ) : (P.trim s).Private own rank := by
  induction P generalizing s with
  | done => trivial
  | act change next ih =>
    refine ⟨h.1, fun s s' hown => ?_, fun s => ih s (h.2.2 s) (change s)⟩
    obtain ⟨hchange, hnext⟩ := h.2.1 s s' hown
    exact ⟨hchange, by simp only [hnext, trim_congr (h.2.2 s') hchange]⟩
  | call collective next ih =>
    simp only [Routine.trim]
    split
    · exact ih _ (h.2 _) s
    · exact ⟨h.1, fun answer => ih answer (h.2 answer) s⟩

theorem Quiet.trim (h : P.Quiet) (s : σ) : (P.trim s).Quiet := by
  induction P generalizing s with
  | done => trivial
  | act change next ih => exact fun s => ih s (h s) (change s)
  | call collective next ih =>
    simp only [Routine.trim]
    split
    · exact ih _ (h.2 _) s
    · exact ⟨h.1, fun answer => ih answer (h.2 answer) s⟩

theorem Seated.trim {members : Point → List Nat} (h : P.Seated members rank) (s : σ) :
    (P.trim s).Seated members rank := by
  induction P generalizing s with
  | done => trivial
  | act change next ih => exact fun s => ih s (h s) (change s)
  | call collective next ih =>
    simp only [Routine.trim]
    split
    · exact ih _ (h.2 _) s
    · exact ⟨h.1, fun answer => ih answer (h.2 answer) s⟩

end Private

end Routine

/-! ## §3 What a run has planned -/

/-- **By plan**: the routine that is left in a phase is private, and deposits what was planned
from the answers so far on. -/
def Phase.ByPlan {τ : Type} (own : Nat → σ → τ) (rank : Nat)
    (plan : List (Except ε α) → Option (Deposit ε α)) (s : Register σ ε α) : Phase σ ε α → Prop
  | ready P => (P.Private own rank ∧ P.Quiet) ∧
      ∀ later, plan (s.answers rank ++ later) = P.nextDeposit? s.state later
  | inside _ next => ∀ answer, ((next answer).Private own rank ∧ (next answer).Quiet) ∧
      ∀ later, plan (s.answers rank ++ answer :: later) = (next answer).nextDeposit? s.state later
  | noting answer P => (P.Private own rank ∧ P.Quiet) ∧
      ∀ later, plan (s.answers rank ++ answer :: later) = P.nextDeposit? s.state later

/-- What others do to the state makes no difference to the plan. -/
theorem Phase.ByPlan.mono {τ : Type} {own : Nat → σ → τ} {rank : Nat}
    {plan : List (Except ε α) → Option (Deposit ε α)} {s s' : Register σ ε α} {φ : Phase σ ε α}
    (h : φ.ByPlan own rank plan s) (hown : own rank s'.state = own rank s.state)
    (hanswers : s'.answers rank = s.answers rank) : φ.ByPlan own rank plan s' := by
  cases φ with
  | ready P =>
    refine ⟨h.1, fun later => ?_⟩
    rw [hanswers, h.2, Routine.nextDeposit?_congr h.1.1 hown]
  | inside d next =>
    refine fun answer => ⟨(h answer).1, fun later => ?_⟩
    rw [hanswers, (h answer).2, Routine.nextDeposit?_congr (h answer).1.1 hown]
  | noting answer P =>
    refine ⟨h.1, fun later => ?_⟩
    rw [hanswers, h.2, Routine.nextDeposit?_congr h.1.1 hown]

/-- **The next deposit**, where a call is accepted, is the one planned from the answers so far. -/
theorem Phase.ByPlan.deposit {τ : Type} {own : Nat → σ → τ} {rank : Nat}
    {plan : List (Except ε α) → Option (Deposit ε α)} {s : Register σ ε α}
    {collective : StateM σ (Offer ε α)} {next : Except ε α → Routine σ ε α} {d : Deposit ε α}
    (h : (ready (.call collective next)).ByPlan own rank plan s)
    (hoffer : (collective s.state).1 = .meet d.seat d.payload d.conclude) :
    plan (s.answers rank) = some d := by
  have hnow := h.2 []
  simp only [Routine.nextDeposit?, hoffer, List.append_nil] at hnow
  exact hnow

namespace Register

/-- **Planned** register: every deposit is what was planned after the answers before it. -/
def Planned (plan : Nat → List (Except ε α) → Option (Deposit ε α)) (s : Register σ ε α) : Prop :=
  ∀ rank number d, (s.deposits rank)[number]? = some d →
    plan rank ((s.answers rank).take number) = some d

end Register

namespace Crew

/-- **Planning crew**: everybody goes by its plan. -/
structure Plans {τ : Type} (own : Nat → σ → τ)
    (plan : Nat → List (Except ε α) → Option (Deposit ε α)) (c : Crew (Register σ ε α) Unit)
    (φ : Nat → Phase σ ε α) : Prop where
  phases : ∀ rank, (φ rank).ByPlan own rank (plan rank) c.shared
  deposits : c.shared.Planned plan

section Steps

variable {τ : Type} {own : Nat → σ → τ}
  {plan : Nat → List (Except ε α) → Option (Deposit ε α)} {members : Point → List Nat}
  {c : Crew (Register σ ε α) Unit} {size : Nat} {φ : Nat → Phase σ ε α}
  {sessions : Point → Session} {rank : Nat} {φ' : Phase σ ε α} {shared : Register σ ε α}
  {hall : Hall}

/-- **Frame**: where one participant moves, nobody else's plan changes. -/
theorem Plans.of_step (h : c.Plans own plan φ)
    (hself : φ'.ByPlan own rank (plan rank) shared)
    (hothers : ∀ other, other ≠ rank → own other shared.state = own other c.shared.state ∧
      shared.answers other = c.shared.answers other)
    (hplanned : shared.Planned plan) :
    (⟨shared, hall, c.members.set rank (φ'.program rank)⟩ :
      Crew (Register σ ε α) Unit).Plans own plan (Function.update φ rank φ') := by
  refine ⟨(Function.forall_update_iff φ fun other phase =>
    phase.ByPlan own other (plan other) shared).mpr ⟨hself, fun other hne => ?_⟩, hplanned⟩
  exact (h.phases other).mono (hothers other hne).1 (hothers other hne).2

/-- **Step lemma**: a step of one participant keeps to the plans. -/
theorem Plans.step (h : c.Plans own plan φ) (hpairs : c.Pairs members size φ sessions)
    (hstep : Phase.Step rank c.shared c.hall (φ rank) φ' shared hall) :
    (⟨shared, hall, c.members.set rank (φ'.program rank)⟩ :
      Crew (Register σ ε α) Unit).Plans own plan (Function.update φ rank φ') := by
  have hfits := hpairs.fits rank
  have hself := h.phases rank
  generalize φ rank = now at hstep hfits hself
  cases hstep with
  | acts change next =>
    obtain ⟨⟨hprivate, hquiet⟩, hplan⟩ := hself
    exact h.of_step ⟨⟨hprivate.2.2 _, hquiet _⟩, hplan⟩
      (fun other hne => ⟨hprivate.1 _ other hne, rfl⟩) h.deposits
  | refused collective next answer hoffer =>
    obtain ⟨⟨hprivate, hquiet⟩, hplan⟩ := hself
    have hstate : (Register.calling rank collective c.shared).2.state = c.shared.state :=
      hquiet.1 _
    refine h.of_step ⟨⟨hprivate.2 _, hquiet.2 _⟩, fun later => ?_⟩
      (fun other _ => ⟨by rw [hstate], rfl⟩) ?_
    · refine (hplan later).trans ?_
      rw [hstate]
      simp only [Routine.nextDeposit?, hoffer]
    · intro other number d hd
      rw [Register.deposits_refused rank hoffer] at hd
      exact h.deposits other number d hd
  | accepted collective next d hoffer =>
    have hnow := hself.deposit hoffer
    obtain ⟨⟨hprivate, hquiet⟩, hplan⟩ := hself
    have hstate : (Register.calling rank collective c.shared).2.state = c.shared.state :=
      hquiet.1 _
    refine h.of_step (fun answer => ⟨⟨hprivate.2 _, hquiet.2 _⟩, fun later => ?_⟩)
      (fun other _ => ⟨by rw [hstate], rfl⟩) ?_
    · refine (hplan (answer :: later)).trans ?_
      rw [hstate]
      simp only [Routine.nextDeposit?, hoffer]
    · intro other number d' hd'
      by_cases heq : other = rank
      · subst heq
        rw [Register.deposits_accepted other hoffer] at hd'
        rcases getElem?_concat_cases hd' with hold | ⟨rfl, rfl⟩
        · exact h.deposits other number d' hold
        · -- all calls before are answered, and the plan goes on with this one
          rw [hfits.2]
          exact (congrArg (plan other) List.take_length).trans hnow
      · rw [Register.deposits_calling_of_ne heq] at hd'
        exact h.deposits other number d' hd'
  | waits d next _ _ => exact h.of_step hself (fun _ _ => ⟨rfl, rfl⟩) h.deposits
  | returns d next parts _ _ => exact h.of_step (hself _) (fun _ _ => ⟨rfl, rfl⟩) h.deposits
  | notes answer P =>
    obtain ⟨hkeeps, hplan⟩ := hself
    have hanswers : (c.shared.note rank answer).answers rank = c.shared.answers rank ++ [answer] :=
      Function.update_self ..
    refine h.of_step ⟨hkeeps, fun later => ?_⟩
      (fun other hne => ⟨rfl, Function.update_of_ne hne ..⟩) ?_
    · rw [hanswers, List.append_assoc]
      exact hplan later
    · intro other number d hd
      by_cases heq : other = rank
      · -- the answer comes after all deposits, so no deposit was planned with it
        subst heq
        have hlt : number < (c.shared.deposits other).length :=
          (List.getElem?_eq_some_iff.mp hd).1
        rw [hfits.2.1] at hlt
        rw [hanswers, List.take_append_of_le_length (Nat.le_of_lt_succ hlt)]
        exact h.deposits other number d hd
      · rw [show (c.shared.note rank answer).answers other = c.shared.answers other from
          Function.update_of_ne heq ..]
        exact h.deposits other number d hd

/-- **Move lemma**: so does every move of the crew. -/
theorem Plans.moved (h : c.Plans own plan φ) (hpairs : c.Pairs members size φ sessions)
    {m : Move} {c' : Crew (Register σ ε α) Unit} {φ' : Nat → Phase σ ε α}
    (hmoved : Moved c size φ m c' φ') : c'.Plans own plan φ' := by
  cases hmoved with
  | stays rank => exact h
  | wakes point slot => exact ⟨h.phases, h.deposits⟩
  | steps hrank hstep => exact h.step hpairs hstep

/-- **Run lemma**: so does every schedule, and the crew stays paired. -/
theorem Plans.follow (h : c.Plans own plan φ) (hpairs : c.Pairs members size φ sessions)
    (hdistinct : ∀ point, (members point).Nodup) (schedule : List Move) :
    ∃ φ' sessions', (c.follow schedule).Plans own plan φ' ∧
      (c.follow schedule).Pairs members size φ' sessions' := by
  induction schedule generalizing c φ sessions with
  | nil => exact ⟨φ, sessions, h, hpairs⟩
  | cons m rest ih =>
    obtain ⟨φ', hmoved⟩ := hpairs.phases.moved m
    obtain ⟨sessions', hpairs'⟩ := hpairs.moved hdistinct hmoved
    exact ih (h.moved hpairs hmoved) hpairs'

end Steps

/-- A crew of private routines goes by the plans that they make at the beginning. -/
theorem Plans.crew {τ : Type} {own : Nat → σ → τ} {P : Nat → Routine σ ε α}
    (hprivate : ∀ rank, (P rank).Private own rank) (hquiet : ∀ rank, (P rank).Quiet) (state : σ)
    (hall : Hall) (size : Nat) :
    (Routine.crew P state hall size).Plans own (fun rank => (P rank).nextDeposit? state)
      fun rank => .ready (P rank) :=
  ⟨fun rank => ⟨⟨hprivate rank, hquiet rank⟩, fun _ => rfl⟩, nofun⟩

end Crew

/-! ## §4 Two runs -/

/-- **Compatible** lists: one of them goes on where the other ends. -/
def Compatible {β : Type} (l l' : List β) : Prop := l <+: l' ∨ l' <+: l

namespace Compatible

variable {β : Type} {l l' : List β} {x y : β} {i : Nat}

theorem eq_of_getElem? (h : Compatible l l') (hx : l[i]? = some x) (hy : l'[i]? = some y) :
    x = y := by
  rcases h with hle | hge
  · exact Option.some.inj ((prefix_getElem? hle hx).symm.trans hy)
  · exact Option.some.inj (hx.symm.trans (prefix_getElem? hge hy))

theorem take_eq (h : Compatible l l') (hi : i ≤ l.length) (hi' : i ≤ l'.length) :
    l.take i = l'.take i := by
  rcases h with ⟨more, rfl⟩ | ⟨more, rfl⟩
  · exact (List.take_append_of_le_length hi).symm
  · exact List.take_append_of_le_length hi'

theorem filter (h : Compatible l l') (p : β → Bool) : Compatible (l.filter p) (l'.filter p) :=
  h.imp (·.filter p) (·.filter p)

/-- An entry more, which is the same in the other list if it is there. -/
theorem concat (h : Compatible l l') (hx : ∀ y, l'[l.length]? = some y → y = x) :
    Compatible (l ++ [x]) l' := by
  rcases h with ⟨more, rfl⟩ | hge
  · cases more with
    | nil =>
      rw [List.append_nil]
      exact Or.inr (List.prefix_append _ _)
    | cons y rest =>
      rw [← hx y (by simp)]
      exact Or.inl ⟨rest, by simp⟩
  · exact Or.inr (hge.trans (List.prefix_append _ _))

end Compatible

namespace Register

/-- **Agreement** of two runs' registers: where both have got, they have the same deposits and
the same answers. -/
structure Agrees (s s' : Register σ ε α) : Prop where
  deposits : ∀ rank, Compatible (s.deposits rank) (s'.deposits rank)
  answers : ∀ rank, Compatible (s.answers rank) (s'.answers rank)

/-- **Conclusions agree**, since they are drawn from deposits that do. -/
theorem Concludes.agree {members : Point → List Nat} {s s' : Register σ ε α} {rank number : Nat}
    {answer answer' : Except ε α} (h : s.Concludes members rank number answer)
    (h' : s'.Concludes members rank number answer')
    (hcompatible : ∀ rank, Compatible (s.deposits rank) (s'.deposits rank)) :
    answer = answer' := by
  obtain ⟨d, parts, hdeposit, hround, -⟩ := h
  obtain ⟨d', parts', hdeposit', hround', -⟩ := h'
  have hd : d = d' := (hcompatible rank).eq_of_getElem? hdeposit hdeposit'
  subst hd
  -- the same deposit has the same number at its point in both runs
  have hturn : s'.turnOf rank number d.seat.point = s.turnOf rank number d.seat.point := by
    rw [turnOf, turnOf, (hcompatible rank).take_eq
      (Nat.le_of_lt (List.getElem?_eq_some_iff.mp hdeposit).1)
      (Nat.le_of_lt (List.getElem?_eq_some_iff.mp hdeposit').1)]
  rw [hturn] at hround'
  generalize s.turnOf rank number d.seat.point = turn at hround hround'
  -- both rounds are complete, and the payloads are those of compatible deposits
  have hsame : s.round (members d.seat.point) d.seat.point turn =
      s'.round (members d.seat.point) d.seat.point turn := by
    refine List.map_congr_left fun other hother => ?_
    obtain ⟨found, hfound⟩ := exists_of_round hround hother
    obtain ⟨found', hfound'⟩ := exists_of_round hround' hother
    rw [hfound, hfound', ((hcompatible other).filter _).eq_of_getElem? hfound hfound']
  rw [hround, hround'] at hsame
  rw [(List.map_inj_right fun _ _ => Option.some.inj).mp hsame]

end Register

namespace Crew

section Runs

variable {τ : Type} {own : Nat → σ → τ}
  {plan : Nat → List (Except ε α) → Option (Deposit ε α)} {members : Point → List Nat}
  {c : Crew (Register σ ε α) Unit} {size : Nat} {φ : Nat → Phase σ ε α}
  {sessions : Point → Session} {s : Register σ ε α}

/-- **Step lemma of two runs**: whatever one run does next agrees with what another has done by
the same plans. -/
theorem Plans.agrees_step (h : c.Plans own plan φ) (hpairs : c.Pairs members size φ sessions)
    (hplanned : s.Planned plan) (hpaired : s.Paired members)
    (htally : ∀ rank, (s.deposits rank).length ≤ (s.answers rank).length + 1)
    (hagrees : c.shared.Agrees s) {rank : Nat} {φ' : Phase σ ε α} {shared : Register σ ε α}
    {hall : Hall} (hstep : Phase.Step rank c.shared c.hall (φ rank) φ' shared hall) :
    shared.Agrees s := by
  have hfits := hpairs.fits rank
  have hself := h.phases rank
  generalize φ rank = now at hstep hfits hself
  cases hstep with
  | acts _ _ | waits _ _ _ _ | returns _ _ _ _ _ => exact ⟨hagrees.deposits, hagrees.answers⟩
  | refused collective next answer hoffer =>
    refine ⟨fun other => ?_, hagrees.answers⟩
    rw [Register.deposits_refused rank hoffer]
    exact hagrees.deposits other
  | accepted collective next d hoffer =>
    refine ⟨fun other => ?_, hagrees.answers⟩
    by_cases heq : other = rank
    · subst heq
      rw [Register.deposits_accepted other hoffer]
      refine (hagrees.deposits other).concat fun d' hd' => ?_
      -- the other run has answered all calls before, as this one has, so the plan is the same
      have hle : (c.shared.answers other).length ≤ (s.answers other).length := by
        have hlt := (List.getElem?_eq_some_iff.mp hd').1
        have hone := htally other
        have hall := hfits.2
        omega
      have hthere := hplanned other _ d' hd'
      rw [hfits.2, ← (hagrees.answers other).take_eq (Nat.le_refl _) hle, List.take_length]
        at hthere
      exact Option.some.inj (hthere.symm.trans (hself.deposit hoffer))
    · rw [Register.deposits_calling_of_ne heq]
      exact hagrees.deposits other
  | notes answer P =>
    refine ⟨hagrees.deposits, fun other => ?_⟩
    by_cases heq : other = rank
    · subst heq
      rw [show (c.shared.note other answer).answers other = c.shared.answers other ++ [answer] from
        Function.update_self ..]
      -- what is noted is a conclusion, and so is the other run's answer
      refine (hagrees.answers other).concat fun answer' hanswer' => ?_
      exact (hfits.2.2.agree (hpaired other _ answer' hanswer') hagrees.deposits).symm
    · rw [show (c.shared.note rank answer).answers other = c.shared.answers other from
        Function.update_of_ne heq ..]
      exact hagrees.answers other

/-- **Run lemma of two runs**. -/
theorem Plans.agrees_follow (h : c.Plans own plan φ) (hpairs : c.Pairs members size φ sessions)
    (hdistinct : ∀ point, (members point).Nodup) (hplanned : s.Planned plan)
    (hpaired : s.Paired members)
    (htally : ∀ rank, (s.deposits rank).length ≤ (s.answers rank).length + 1)
    (hagrees : c.shared.Agrees s) (schedule : List Move) :
    (c.follow schedule).shared.Agrees s := by
  -- the other run is over and stands still, so one schedule is enough for the induction
  induction schedule generalizing c φ sessions with
  | nil => exact hagrees
  | cons m rest ih =>
    obtain ⟨φ', hmoved⟩ := hpairs.phases.moved m
    obtain ⟨sessions', hpairs'⟩ := hpairs.moved hdistinct hmoved
    refine ih (h.moved hpairs hmoved) hpairs' ?_
    show (c.move m).shared.Agrees s
    generalize c.move m = c' at hmoved
    cases hmoved with
    | stays _ | wakes _ _ => exact hagrees
    | steps hrank hstep => exact h.agrees_step hpairs hplanned hpaired htally hagrees hstep

end Runs

end Crew

/-- **Determinacy**: two crews of private routines with the same plans never answer a call
differently, whatever their schedules. -/
theorem Routine.answers_agree {τ : Type} {own own' : Nat → σ → τ} {P Q : Nat → Routine σ ε α}
    {members : Point → List Nat} {state : σ} (hdistinct : ∀ point, (members point).Nodup)
    (hseated : ∀ rank, (P rank).Seated members rank)
    (hseated' : ∀ rank, (Q rank).Seated members rank)
    (hprivate : ∀ rank, (P rank).Private own rank)
    (hprivate' : ∀ rank, (Q rank).Private own' rank) (hquiet : ∀ rank, (P rank).Quiet)
    (hquiet' : ∀ rank, (Q rank).Quiet)
    (hplan : ∀ rank answers,
      (Q rank).nextDeposit? state answers = (P rank).nextDeposit? state answers)
    (size : Nat) (schedule schedule' : List Crew.Move) :
    ((crew P state .empty size).follow schedule).shared.Agrees
      ((crew Q state .empty size).follow schedule').shared := by
  have hplans : ∀ rank, (Q rank).nextDeposit? state = (P rank).nextDeposit? state :=
    fun rank => funext (hplan rank)
  have hthere := Crew.Plans.crew hprivate' hquiet' state .empty size
  simp only [hplans] at hthere
  obtain ⟨_, _, hplanned, hpairs⟩ :=
    hthere.follow (Crew.Pairs.crew hseated' state size) hdistinct schedule'
  -- at the beginning, nothing has been deposited or answered
  exact (Crew.Plans.crew hprivate hquiet state .empty size).agrees_follow
    (Crew.Pairs.crew hseated state size) hdistinct hplanned.deposits hpairs.paired
    (fun rank => (hpairs.fits rank).tally)
    ⟨fun _ => Or.inl List.nil_prefix, fun _ => Or.inl List.nil_prefix⟩ schedule

end ClusterView
