import ClusterView.Proofs.Routines

/-!
# Pairing of calls

The members of a group meet in rounds, and what one member brings to its call with a number is
paired with what the others bring to theirs with the same number, at the same meeting point.
Other points do not count, and calls that were refused do not either: only an accepted call
brings a payload, and it brings one.

So under every schedule the answer of an accepted call is what the call makes of everybody's
payloads with its number (`Register.Concludes`), whatever errors others have made of theirs.

## Sections
- §1: Rounds in a register
- §2: Routines with a seat in every meeting
- §3: Where everybody stands
- §4: What one step preserves
- §5: Whole schedules
-/

namespace ClusterView

variable {σ ε α : Type}

/-! ## §1 Rounds in a register -/

theorem prefix_getElem? {β : Type} {l l' : List β} (h : l <+: l') {i : Nat} {x : β}
    (hx : l[i]? = some x) : l'[i]? = some x := by
  obtain ⟨hlt, rfl⟩ := List.getElem?_eq_some_iff.mp hx
  exact List.prefix_iff_getElem?.mp h i hlt

/-- An entry of a list with one more is an entry of the list, or the new one. -/
theorem getElem?_concat_cases {β : Type} {l : List β} {x y : β} {i : Nat}
    (h : (l ++ [x])[i]? = some y) : l[i]? = some y ∨ i = l.length ∧ y = x := by
  rcases Nat.lt_or_ge i l.length with hlt | hge
  · exact Or.inl (by rwa [List.getElem?_append_left hlt] at h)
  · rw [List.getElem?_append_right hge] at h
    obtain ⟨hlt, hget⟩ := List.getElem?_eq_some_iff.mp h
    have hzero : i - l.length = 0 := Nat.lt_one_iff.mp hlt
    exact Or.inr ⟨by omega, by simp [hget.symm]⟩

namespace Register

/-- The deposits of a participant at one meeting point. -/
def depositsAt (s : Register σ ε α) (point : Point) (rank : Nat) : List (Deposit ε α) :=
  (s.deposits rank).filter fun d => d.seat.point = point

/-- **Round** with a number at a point: the payload that each member brings, where it has got
that far. -/
def round (s : Register σ ε α) (members : List Nat) (point : Point) (number : Nat) :
    List (Option Bytes) :=
  members.map fun rank => ((s.depositsAt point rank)[number]?).map Deposit.payload

/-- The number at its own point of a participant's deposit. -/
def turnOf (s : Register σ ε α) (rank number : Nat) (point : Point) : Nat :=
  (((s.deposits rank).take number).filter fun d => d.seat.point = point).length

/-- **Conclusion** of a participant's accepted call with a number: what the call makes of
everybody's payloads, which there are, of the round with its number. Its own is among them, in
its own slot. -/
inductive Concludes (members : Point → List Nat) (s : Register σ ε α) (rank number : Nat) :
    Except ε α → Prop where
  | intro (d : Deposit ε α) (parts : List Bytes) (hdeposit : (s.deposits rank)[number]? = some d)
      (hround : s.round (members d.seat.point) d.seat.point
        (s.turnOf rank number d.seat.point) = parts.map some)
      (hself : parts[d.seat.slot]? = some d.payload) :
      Concludes members s rank number (d.conclude parts)

/-- **Paired** register: every answer of an accepted call is its conclusion. -/
def Paired (members : Point → List Nat) (s : Register σ ε α) : Prop :=
  ∀ rank number answer, (s.answers rank)[number]? = some answer →
    s.Concludes members rank number answer

section Growth

variable {members : Point → List Nat} {s s' : Register σ ε α} {rank : Nat}

theorem depositsAt_mono {point : Point} (h : s.deposits rank <+: s'.deposits rank) :
    s.depositsAt point rank <+: s'.depositsAt point rank :=
  h.filter _

theorem turnOf_mono (h : s.deposits rank <+: s'.deposits rank) {number : Nat}
    (hnumber : number ≤ (s.deposits rank).length) (point : Point) :
    s'.turnOf rank number point = s.turnOf rank number point := by
  obtain ⟨later, hlater⟩ := h
  rw [turnOf, turnOf, ← hlater, List.take_append_of_le_length hnumber]

/-- Everybody has brought something to a round that is complete. -/
theorem exists_of_round {ranks : List Nat} {point : Point} {number : Nat} {parts : List Bytes}
    (hround : s.round ranks point number = parts.map some) (hrank : rank ∈ ranks) :
    ∃ d, (s.depositsAt point rank)[number]? = some d := by
  have hmem : ((s.depositsAt point rank)[number]?).map Deposit.payload ∈ parts.map some := by
    rw [← hround]
    exact List.mem_map_of_mem hrank
  obtain ⟨part, -, hpart⟩ := List.mem_map.mp hmem
  obtain ⟨d, hd, -⟩ := Option.map_eq_some_iff.mp hpart.symm
  exact ⟨d, hd⟩

/-- Such a round stays as it is. -/
theorem round_mono (h : ∀ rank, s.deposits rank <+: s'.deposits rank) {ranks : List Nat}
    {point : Point} {number : Nat} {parts : List Bytes}
    (hround : s.round ranks point number = parts.map some) :
    s'.round ranks point number = parts.map some := by
  rw [← hround]
  refine List.map_congr_left fun rank hrank => ?_
  obtain ⟨d, hd⟩ := exists_of_round hround hrank
  rw [hd, prefix_getElem? (depositsAt_mono (h rank)) hd]

/-- **Conclusions stand** while calls are added. -/
theorem Concludes.mono {number : Nat} {answer : Except ε α}
    (h : s.Concludes members rank number answer)
    (hmore : ∀ rank, s.deposits rank <+: s'.deposits rank) :
    s'.Concludes members rank number answer := by
  obtain ⟨d, parts, hdeposit, hround, hself⟩ := h
  obtain ⟨hlt, -⟩ := List.getElem?_eq_some_iff.mp hdeposit
  refine .intro d parts (prefix_getElem? (hmore rank) hdeposit) ?_ hself
  rw [turnOf_mono (hmore rank) (Nat.le_of_lt hlt)]
  exact round_mono hmore hround

end Growth

section Calls

variable {s : Register σ ε α} {other : Nat} {collective : StateM σ (Offer ε α)} (rank : Nat)

theorem deposits_calling_self :
    (calling rank collective s).2.deposits rank =
      s.deposits rank ++ (collective s.state).1.deposit?.toList := by
  rw [deposits, calls_calling_self, List.filterMap_append, deposits]
  cases h : (collective s.state).1.deposit? <;> simp [h]

variable {rank} in
theorem deposits_calling_of_ne (h : other ≠ rank) :
    (calling rank collective s).2.deposits other = s.deposits other := by
  rw [deposits, calls_calling_of_ne s h, deposits]

/-- A refused call deposits nothing. -/
theorem deposits_refused {answer : Except ε α} (hoffer : (collective s.state).1 = .answer answer) :
    (calling rank collective s).2.deposits = s.deposits := by
  funext other
  by_cases heq : other = rank
  · rw [heq, deposits_calling_self, hoffer]
    exact List.append_nil _
  · exact deposits_calling_of_ne heq

/-- An accepted call deposits one payload. -/
theorem deposits_accepted {d : Deposit ε α}
    (hoffer : (collective s.state).1 = .meet d.seat d.payload d.conclude) :
    (calling rank collective s).2.deposits rank = s.deposits rank ++ [d] := by
  rw [deposits_calling_self, hoffer]
  rfl

theorem depositsAt_accepted {d : Deposit ε α}
    (hoffer : (collective s.state).1 = .meet d.seat d.payload d.conclude) (point : Point) :
    (calling rank collective s).2.depositsAt point rank =
      s.depositsAt point rank ++ if d.seat.point = point then [d] else [] := by
  rw [depositsAt, deposits_accepted rank hoffer, List.filter_append, depositsAt,
    List.filter_singleton]
  simp

end Calls

end Register

/-! ## §2 Routines with a seat in every meeting -/

/-- The deposit is at a seat of the participant's own. -/
def Deposit.IsOwn (members : Point → List Nat) (rank : Nat) (d : Deposit ε α) : Prop :=
  (members d.seat.point)[d.seat.slot]? = some rank ∧
    d.seat.parties = (members d.seat.point).length

/-- **Seated** routines: every call that is accepted is so at a seat of the participant's own. -/
def Routine.Seated (members : Point → List Nat) (rank : Nat) : Routine σ ε α → Prop
  | .done => True
  | .act _ next => ∀ s, (next s).Seated members rank
  | .call collective next =>
      (∀ s (d : Deposit ε α), (collective s).1 = .meet d.seat d.payload d.conclude →
        d.IsOwn members rank) ∧ ∀ answer, (next answer).Seated members rank

/-! ## §3 Where everybody stands -/

namespace Phase

/-- **Fitting** the register: an answer is noted for every accepted call but the one that the
participant is in, and what it is about to note is a conclusion. -/
def Fits (members : Point → List Nat) (s : Register σ ε α) (rank : Nat) : Phase σ ε α → Prop
  | ready P =>
      P.Seated members rank ∧ (s.deposits rank).length = (s.answers rank).length
  | inside d next =>
      (d.IsOwn members rank ∧ ∀ answer, (next answer).Seated members rank) ∧
        ∃ before, s.deposits rank = before ++ [d] ∧ before.length = (s.answers rank).length
  | noting answer P =>
      P.Seated members rank ∧ (s.deposits rank).length = (s.answers rank).length + 1 ∧
        s.Concludes members rank (s.answers rank).length answer

/-- **Standing** in the session at a point, given the payloads that the participant has
deposited there: away, on the way there with the last of them, or there with it. -/
inductive Stands (session : Session) (slot : Nat) (point : Point) (payloads : List Bytes) :
    Phase σ ε α → Prop where
  | away {φ : Phase σ ε α} (hphase : ∀ d next, φ = .inside d next → d.seat.point ≠ point)
      (hstage : session.meeting.stage slot = .outside)
      (hcalls : session.minutes.calls slot = payloads) :
      Stands session slot point payloads φ
  | coming {d : Deposit ε α} (next : Except ε α → Routine σ ε α) (hpoint : d.seat.point = point)
      (hstage : session.meeting.stage slot = .outside)
      (hcalls : session.minutes.calls slot ++ [d.payload] = payloads) :
      Stands session slot point payloads (.inside d next)
  | present {d : Deposit ε α} (next : Except ε α → Routine σ ε α) (hpoint : d.seat.point = point)
      (hstage : session.meeting.stage slot = .entering d.payload ∨
        session.meeting.stage slot = .barred d.payload ∨
          (session.meeting.stage slot).awaitsCopy = true)
      (hcalls : session.minutes.calls slot = payloads) :
      Stands session slot point payloads (.inside d next)

section Standing

variable {members : Point → List Nat} {session session' : Session} {slot rank : Nat}
  {point : Point} {payloads : List Bytes} {φ : Phase σ ε α} {d : Deposit ε α}
  {next : Except ε α → Routine σ ε α} {s s' : Register σ ε α}

theorem Fits.mono (h : φ.Fits members s rank) (hdeposits : s'.deposits rank = s.deposits rank)
    (hanswers : s'.answers rank = s.answers rank)
    (hmore : ∀ rank, s.deposits rank <+: s'.deposits rank) : φ.Fits members s' rank := by
  cases φ with
  | ready P =>
    rw [Fits, hdeposits, hanswers]
    exact h
  | inside d next =>
    rw [Fits, hdeposits, hanswers]
    exact h
  | noting answer P =>
    rw [Fits, hdeposits, hanswers]
    exact ⟨h.1, h.2.1, h.2.2.mono hmore⟩

/-- All accepted calls but the last are answered. -/
theorem Fits.tally (h : φ.Fits members s rank) :
    (s.deposits rank).length ≤ (s.answers rank).length + 1 := by
  cases φ with
  | ready P => exact Nat.le_trans (Nat.le_of_eq h.2) (Nat.le_succ _)
  | inside d next =>
    obtain ⟨-, before, hdeposits, htally⟩ := h
    rw [hdeposits, List.length_append, htally]
    exact Nat.le_refl _
  | noting answer P => exact Nat.le_of_eq h.2.1

/-- Nobody is called but for its deposits. -/
theorem Stands.calls_le (h : φ.Stands session slot point payloads) :
    session.minutes.calls slot <+: payloads := by
  cases h with
  | away _ _ hcalls | present _ _ _ hcalls => exact hcalls ▸ List.prefix_refl _
  | coming _ _ _ hcalls => exact ⟨_, hcalls⟩

/-- What others do in a session makes no difference, but for waking. -/
theorem Stands.of_session (h : φ.Stands session slot point payloads)
    (hcalls : session'.minutes.calls slot = session.minutes.calls slot)
    (hstage : session'.meeting.stage slot = session.meeting.stage slot ∨
      session'.meeting.stage slot = (session.meeting.stage slot).woken) :
    φ.Stands session' slot point payloads := by
  have hout : session.meeting.stage slot = .outside → session'.meeting.stage slot = .outside := by
    intro hout
    rcases hstage with hsame | hwoken
    · rw [hsame, hout]
    · rw [hwoken, hout]
      rfl
  cases h with
  | away hphase hbefore hnoted => exact .away hphase (hout hbefore) (hcalls.trans hnoted)
  | coming next hpoint hbefore hnoted =>
    exact .coming next hpoint (hout hbefore) (hcalls.symm ▸ hnoted)
  | present next hpoint hbefore hnoted =>
    refine .present next hpoint ?_ (hcalls.trans hnoted)
    rcases hstage with hsame | hwoken
    · rwa [hsame]
    · rw [hwoken]
      rcases hbefore with hin | hbarred | hawaits
      · exact Or.inl (by rw [hin]; rfl)
      · exact Or.inl (by rw [hbarred]; rfl)
      · exact Or.inr (Or.inr (by rwa [Stage.awaitsCopy_woken]))

/-- Whoever is awake inside a call may take a turn. -/
theorem Stands.mayTurn (h : (inside d next).Stands session slot d.seat.point payloads)
    (hawake : (session.meeting.stage slot).isAsleep = false) :
    Session.MayTurn d.payload (session.meeting.stage slot) := by
  cases h with
  | away hphase _ _ => exact absurd rfl (hphase d next rfl)
  | coming _ _ hstage _ => exact Or.inl hstage
  | present _ _ hstage _ =>
    rcases hstage with hin | hbarred | hawaits
    · exact Or.inr (Or.inl hin)
    · rw [hbarred] at hawake
      cases hawake
    · cases hstage : session.meeting.stage slot with
      | returning generation => exact Or.inr (Or.inr ⟨generation, rfl⟩)
      | parked _ =>
        rw [hstage] at hawake
        cases hawake
      | outside | entering _ | barred _ | leaving _ =>
        rw [hstage] at hawaits
        cases hawaits

/-- Once it has come, the participant has been called for all of its deposits. -/
theorem Stands.calls_called (h : (inside d next).Stands session slot d.seat.point payloads)
    (hslot : slot < session.meeting.parties) :
    (session.called slot d.payload).calls slot = payloads := by
  cases h with
  | away hphase _ _ => exact absurd rfl (hphase d next rfl)
  | coming _ _ hstage hcalls =>
    -- the turn begins with the call that was still missing
    simp only [Session.called, Session.step, hslot, hstage, and_self, if_true]
    rw [Minutes.calls_recordCall_self, hcalls]
  | present _ _ hstage hcalls =>
    -- whoever is there already is not called again
    have hinside : session.meeting.stage slot ≠ .outside := by
      intro hout
      rw [hout] at hstage
      rcases hstage with hin | hbarred | hawaits
      · cases hin
      · cases hbarred
      · cases hawaits
    simp only [Session.called, Session.step, hinside, and_false, if_false, hcalls]

/-- **Turn without a copy**: the participant stays, asleep. -/
theorem Stands.turn_none (h : (inside d next).Stands session slot d.seat.point payloads)
    (hslot : slot < session.meeting.parties) (hturned : session.Turned slot d.payload none) :
    (inside d next).Stands (session.turn slot d.payload) slot d.seat.point payloads := by
  have hcalls := h.calls_called hslot
  cases hturned with
  | barred hstage hminutes _ _ =>
    exact .present next rfl (Or.inr (Or.inl hstage)) (hminutes ▸ hcalls)
  | parked _ hstage hminutes _ =>
    exact .present next rfl (Or.inr (Or.inr (hstage ▸ rfl))) (hminutes ▸ hcalls)

/-- **Turn with a copy**: the participant is away again. -/
theorem Stands.turn_some (h : (inside d next).Stands session slot d.seat.point payloads)
    (hslot : slot < session.meeting.parties) {parts : List Bytes}
    (hturned : session.Turned slot d.payload (some parts)) (answer : Except ε α)
    (P : Routine σ ε α) :
    (noting answer P).Stands (session.turn slot d.payload) slot d.seat.point payloads := by
  have hcalls := h.calls_called hslot
  cases hturned with
  | left _ hstage hminutes =>
    refine .away (fun _ _ hphase => nomatch hphase) hstage ?_
    rw [hminutes]
    exact hcalls

end Standing

end Phase

/-- **Published rounds**: where everybody has been called for deposits only, the payloads of a
round that was published are those of the deposits with its number. -/
theorem Register.round_eq_payloads {s : Register σ ε α} {session : Session} {ranks : List Nat}
    {point : Point} {number : Nat} (hsound : session.Sound)
    (hparties : session.meeting.parties = ranks.length)
    (hcalls : ∀ slot rank, ranks[slot]? = some rank →
      session.minutes.calls slot <+: (s.depositsAt point rank).map Deposit.payload)
    (hnumber : number < session.meeting.round.publications) :
    s.round ranks point number = (session.minutes.payloads ranks.length number).map some := by
  apply List.ext_getElem?
  intro slot
  rw [round, List.getElem?_map, List.getElem?_map]
  cases hrank : ranks[slot]? with
  | none =>
    have hle : ranks.length ≤ slot := List.getElem?_eq_none_iff.mp hrank
    rw [List.getElem?_eq_none (by rwa [Minutes.length_payloads])]
    rfl
  | some rank =>
    have hslot : slot < ranks.length := (List.getElem?_eq_some_iff.mp hrank).1
    have hlt : number < (session.minutes.calls slot).length :=
      Nat.lt_of_lt_of_le hnumber (hsound.agrees.publications_le_calls (hparties ▸ hslot))
    -- the call with this number was made, for the deposit with this number
    have hcall := prefix_getElem? (hcalls slot rank hrank) (List.getElem?_eq_getElem hlt)
    rw [List.getElem?_map] at hcall
    rw [Minutes.getElem?_payloads _ hslot, List.getD_eq_getElem?_getD,
      List.getElem?_eq_getElem hlt]
    exact congrArg some hcall

/-- **Whoever returns has its conclusion**. -/
theorem Register.concludes_of_return {members : Point → List Nat} {s : Register σ ε α}
    {d : Deposit ε α} {before : List (Deposit ε α)} {rank : Nat} {session : Session}
    {copies : List (List Bytes)} {parts : List Bytes} (hsound : session.Sound)
    (hparties : session.meeting.parties = (members d.seat.point).length)
    (hcalls : ∀ slot rank, (members d.seat.point)[slot]? = some rank →
      session.minutes.calls slot <+: (s.depositsAt d.seat.point rank).map Deposit.payload)
    (hown : d.IsOwn members rank) (hdeposits : s.deposits rank = before ++ [d])
    (hstage : session.meeting.stage d.seat.slot = .outside)
    (hall : session.minutes.calls d.seat.slot =
      (s.depositsAt d.seat.point rank).map Deposit.payload)
    (hreturns : session.minutes.returns d.seat.slot = copies ++ [parts]) :
    s.Concludes members rank before.length (d.conclude parts) := by
  have hslot : d.seat.slot < session.meeting.parties :=
    hparties ▸ (List.getElem?_eq_some_iff.mp hown.1).1
  have hturn : s.turnOf rank before.length d.seat.point =
      (before.filter fun other => other.seat.point = d.seat.point).length := by
    rw [turnOf, hdeposits, List.take_left]
  have hlast : s.depositsAt d.seat.point rank =
      (before.filter fun other => other.seat.point = d.seat.point) ++ [d] := by
    rw [depositsAt, hdeposits, List.filter_append, List.filter_singleton]
    simp
  -- outside, as many returns are noted as calls, so the last one is the one for this deposit
  have hfits := hsound.agrees.standing d.seat.slot hslot
  rw [hstage] at hfits
  obtain ⟨hcalled, hreturned⟩ := hfits
  rw [hall, List.length_map, hlast, List.length_append, List.length_singleton, ← hturn] at hcalled
  rw [hreturns, List.length_append, List.length_singleton] at hreturned
  have hnumber : copies.length = s.turnOf rank before.length d.seat.point := by omega
  have hparts := hsound.agrees.returned d.seat.slot hslot copies.length parts (by
    rw [hreturns, List.getElem?_concat_length])
  refine .intro d parts (by rw [hdeposits, List.getElem?_concat_length]) ?_ ?_
  · rw [← hnumber, round_eq_payloads hsound hparties hcalls (by omega), hparts, hparties]
  · rw [hparts, Minutes.getElem?_payloads _ hslot, hall, hlast, hnumber, hturn]
    simp

/-- **Receiving hall**: what the sessions have noted of every member's calls are the payloads
that it has deposited at the point, or all but one that it is about to come with. -/
def Hall.Receives (members : Point → List Nat) (s : Register σ ε α) (hall : Hall) : Prop :=
  ∃ sessions, hall.Hosts sessions ∧ ∀ point, (sessions point).Sound ∧
    (sessions point).meeting.parties = (members point).length ∧
    ∀ slot rank, (members point)[slot]? = some rank →
      (sessions point).minutes.calls slot = (s.depositsAt point rank).map Deposit.payload ∨
        (sessions point).meeting.stage slot = .outside ∧ ∃ payload,
          (sessions point).minutes.calls slot ++ [payload] =
            (s.depositsAt point rank).map Deposit.payload

/-! ## §4 What one step preserves -/

namespace Crew

/-- **Pairing crew**: everybody's phase fits the register, everybody stands in every session
where its phase says, and nothing was answered but conclusions. -/
structure Pairs (members : Point → List Nat) (c : Crew (Register σ ε α) Unit) (size : Nat)
    (φ : Nat → Phase σ ε α) (sessions : Point → Session) : Prop where
  phases : c.InPhases size φ
  hosts : c.hall.Hosts sessions
  sound : ∀ point, (sessions point).Sound
  parties : ∀ point, (sessions point).meeting.parties = (members point).length
  fits : ∀ rank, (φ rank).Fits members c.shared rank
  stands : ∀ point slot rank, (members point)[slot]? = some rank →
    (φ rank).Stands (sessions point) slot point
      ((c.shared.depositsAt point rank).map Deposit.payload)
  paired : c.shared.Paired members

section Steps

variable {members : Point → List Nat} {c : Crew (Register σ ε α) Unit} {size : Nat}
  {φ : Nat → Phase σ ε α} {sessions : Point → Session} {rank : Nat} {d : Deposit ε α}
  {next : Except ε α → Routine σ ε α} {φ' : Phase σ ε α}

/-- **Frame of the register**: where one participant has written in it, there is nothing to
show about the others. -/
theorem Pairs.of_register (h : c.Pairs members size φ sessions) {shared : Register σ ε α}
    (hothers : ∀ other, other ≠ rank → shared.deposits other = c.shared.deposits other ∧
      shared.answers other = c.shared.answers other)
    (hmore : c.shared.deposits rank <+: shared.deposits rank)
    (hfits : φ'.Fits members shared rank)
    (hstands : ∀ point slot, (members point)[slot]? = some rank →
      φ'.Stands (sessions point) slot point ((shared.depositsAt point rank).map Deposit.payload))
    (hpaired : ∀ number answer, (shared.answers rank)[number]? = some answer →
      shared.Concludes members rank number answer) :
    (⟨shared, c.hall, c.members.set rank (φ'.program rank)⟩ :
      Crew (Register σ ε α) Unit).Pairs members size (Function.update φ rank φ') sessions := by
  -- conclusions that were drawn stay drawn, as deposits are only added
  have hgrows : ∀ other, c.shared.deposits other <+: shared.deposits other := by
    intro other
    by_cases heq : other = rank
    · exact heq ▸ hmore
    · exact (hothers other heq).1 ▸ List.prefix_refl _
  constructor
  case phases => exact h.phases.set φ'
  case hosts => exact h.hosts
  case sound => exact h.sound
  case parties => exact h.parties
  case fits =>
    refine (Function.forall_update_iff φ fun other phase => phase.Fits members shared other).mpr
      ⟨hfits, fun other hne => ?_⟩
    exact (h.fits other).mono (hothers other hne).1 (hothers other hne).2 hgrows
  case stands =>
    intro point slot other hslot
    by_cases heq : other = rank
    · subst heq
      rw [Function.update_self]
      exact hstands point slot hslot
    · rw [Function.update_of_ne heq, Register.depositsAt, (hothers other heq).1]
      exact h.stands point slot other hslot
  case paired =>
    intro other number answer hanswer
    by_cases heq : other = rank
    · subst heq
      exact hpaired number answer hanswer
    · rw [show shared.answers other = c.shared.answers other from (hothers other heq).2] at hanswer
      exact (h.paired other number answer hanswer).mono hgrows

/-- Whoever is inside a call is at a seat of its own, and the session there has room for it. -/
theorem Pairs.seat (h : c.Pairs members size φ sessions) (hφ : φ rank = .inside d next) :
    d.IsOwn members rank ∧ d.seat.parties = (sessions d.seat.point).meeting.parties ∧
      d.seat.slot < (sessions d.seat.point).meeting.parties := by
  have hinside := h.fits rank
  rw [hφ] at hinside
  have hown : d.IsOwn members rank := hinside.1.1
  rw [h.parties]
  exact ⟨hown, hown.2, (List.getElem?_eq_some_iff.mp hown.1).1⟩

/-- **Frame of a turn**: where one participant has taken a turn at its seat, it has nothing to
show but where it stands there now. -/
theorem Pairs.of_turn (h : c.Pairs members size φ sessions)
    (hdistinct : ∀ point, (members point).Nodup) (hφ : φ rank = .inside d next)
    (hphase : ∀ d' next', φ' = .inside d' next' → d'.seat.point = d.seat.point)
    (hfits : φ'.Fits members c.shared rank)
    (hstands : φ'.Stands ((sessions d.seat.point).turn d.seat.slot d.payload) d.seat.slot
      d.seat.point ((c.shared.depositsAt d.seat.point rank).map Deposit.payload)) :
    (⟨c.shared, (c.hall.turn d.seat d.payload).2, c.members.set rank (φ'.program rank)⟩ :
      Crew (Register σ ε α) Unit).Pairs members size (Function.update φ rank φ')
        (Function.update sessions d.seat.point
          ((sessions d.seat.point).turn d.seat.slot d.payload)) := by
  obtain ⟨⟨hslot, -⟩, hparties, hlt⟩ := h.seat hφ
  constructor
  case phases => exact h.phases.set φ'
  case hosts => exact (h.hosts.turn hparties (hparties ▸ hlt) d.payload).1
  case sound =>
    exact (Function.forall_update_iff sessions fun _ session => session.Sound).mpr
      ⟨(h.sound _).turn _ _, fun point _ => h.sound point⟩
  case parties =>
    refine (Function.forall_update_iff sessions fun point session =>
      session.meeting.parties = (members point).length).mpr ⟨?_, fun point _ => h.parties point⟩
    rw [Session.parties_turn, h.parties]
  case fits =>
    exact (Function.forall_update_iff φ fun other phase => phase.Fits members c.shared other).mpr
      ⟨hfits, fun other _ => h.fits other⟩
  case stands =>
    intro point slot other hother
    by_cases hpoint : point = d.seat.point
    · subst hpoint
      rw [Function.update_self]
      by_cases heq : other = rank
      · -- the members are distinct, so this is the seat where the turn was taken
        subst heq
        have hsame : slot = d.seat.slot :=
          (List.getElem?_inj (List.getElem?_eq_some_iff.mp hother).1 (hdistinct _)).mp
            (hother.trans hslot.symm)
        rw [Function.update_self, hsame]
        exact hstands
      · have hne : slot ≠ d.seat.slot := by
          rintro rfl
          exact heq (Option.some.inj (hother.symm.trans hslot))
        rw [Function.update_of_ne heq]
        exact (h.stands _ slot other hother).of_session
          ((sessions _).minutes_turn_of_ne hne d.payload).1
          (Session.stage_turn_of_ne hlt hne d.payload)
    · rw [Function.update_of_ne hpoint]
      have hbefore := h.stands point slot other hother
      by_cases heq : other = rank
      · -- whoever is inside at one point is away at any other
        subst heq
        rw [hφ] at hbefore
        rw [Function.update_self]
        cases hbefore with
        | away _ hstage hcalls =>
          exact .away (fun d' next' hin heq => hpoint (heq.symm.trans (hphase d' next' hin))) hstage
            hcalls
        | coming _ hat _ _ | present _ hat _ _ => exact absurd hat.symm hpoint
      · rwa [Function.update_of_ne heq]
  case paired => exact h.paired

/-- Whoever is in no call is away from every point. -/
theorem Pairs.away (h : c.Pairs members size φ sessions)
    (hφ : ∀ d next, φ rank ≠ .inside d next) (hφ' : ∀ d next, φ' = .inside d next → False)
    {point : Point} {slot : Nat} (hslot : (members point)[slot]? = some rank) :
    φ'.Stands (sessions point) slot point
      ((c.shared.depositsAt point rank).map Deposit.payload) := by
  have hbefore := h.stands point slot rank hslot
  generalize φ rank = now at hφ hbefore
  cases hbefore with
  | away _ hstage hcalls => exact .away (fun d next hin => (hφ' d next hin).elim) hstage hcalls
  | coming next _ _ _ | present next _ _ _ => exact absurd rfl (hφ _ next)

/-- **Accepted call**: the participant is on its way, with a deposit more. -/
theorem Pairs.accepted (h : c.Pairs members size φ sessions) {collective : StateM σ (Offer ε α)}
    (hφ : φ rank = .ready (.call collective next))
    (hoffer : (collective c.shared.state).1 = .meet d.seat d.payload d.conclude) :
    (⟨(Register.calling rank collective c.shared).2, c.hall,
        c.members.set rank ((Phase.inside d next).program rank)⟩ :
      Crew (Register σ ε α) Unit).Pairs members size (Function.update φ rank (.inside d next))
        sessions := by
  have hready := h.fits rank
  rw [hφ] at hready
  obtain ⟨hseated, htally⟩ := hready
  have hdeposits := Register.deposits_accepted rank hoffer
  have hgrows : ∀ other, c.shared.deposits other <+:
      (Register.calling rank collective c.shared).2.deposits other := by
    intro other
    by_cases heq : other = rank
    · rw [heq, hdeposits]
      exact List.prefix_append _ _
    · exact (Register.deposits_calling_of_ne heq).symm ▸ List.prefix_refl _
  apply h.of_register
  case hothers => exact fun other hne => ⟨Register.deposits_calling_of_ne hne, rfl⟩
  case hmore => exact hgrows rank
  case hfits => exact ⟨⟨hseated.1 _ d hoffer, hseated.2⟩, _, hdeposits, htally⟩
  case hpaired =>
    intro number answer hanswer
    exact (h.paired rank number answer hanswer).mono hgrows
  case hstands =>
    intro point slot hslot
    have hbefore := h.stands point slot rank hslot
    rw [hφ] at hbefore
    rw [Register.depositsAt_accepted rank hoffer, List.map_append]
    by_cases hpoint : d.seat.point = point
    · cases hbefore with
      | away _ hstage hcalls =>
        rw [if_pos hpoint]
        exact .coming next hpoint hstage (hcalls ▸ rfl)
    · rw [if_neg hpoint, List.map_nil, List.append_nil]
      cases hbefore with
      | away _ hstage hcalls =>
        refine .away (fun d' next' hin => ?_) hstage hcalls
        injection hin with hd _
        exact hd ▸ hpoint

/-- **Turn of a participant** inside a call: with a copy it goes on with its conclusion, and
without one it stays. -/
theorem Pairs.turn (h : c.Pairs members size φ sessions)
    (hdistinct : ∀ point, (members point).Nodup) (hφ : φ rank = .inside d next)
    (hawake : ((c.hall.meeting d.seat).stage d.seat.slot).isAsleep = false)
    (hφ' : φ' = match (c.hall.turn d.seat d.payload).1 with
      | some parts => .noting (d.conclude parts) (next (d.conclude parts))
      | none => .inside d next) :
    (⟨c.shared, (c.hall.turn d.seat d.payload).2, c.members.set rank (φ'.program rank)⟩ :
      Crew (Register σ ε α) Unit).Pairs members size (Function.update φ rank φ')
        (Function.update sessions d.seat.point
          ((sessions d.seat.point).turn d.seat.slot d.payload)) := by
  obtain ⟨hown, hparties, hlt⟩ := h.seat hφ
  have hinside := h.fits rank
  rw [hφ] at hinside
  obtain ⟨⟨-, hnext⟩, before, hdeposits, htally⟩ := hinside
  have hstands := h.stands d.seat.point d.seat.slot rank hown.1
  rw [hφ] at hstands
  rw [h.hosts _ hparties] at hawake
  -- the hall's turn is the session's, and what a session's turn comes to is known
  have hturned := (h.sound d.seat.point).turned hlt (hstands.mayTurn hawake)
  rw [← (h.hosts.turn hparties (hparties ▸ hlt) d.payload).2] at hturned
  generalize (c.hall.turn d.seat d.payload).1 = found at hφ' hturned
  cases found with
  | none =>
    subst hφ'
    apply h.of_turn hdistinct hφ
    case hphase =>
      intro d' next' hin
      injection hin with hd _
      rw [hd]
    case hfits => exact ⟨⟨hown, hnext⟩, before, hdeposits, htally⟩
    case hstands => exact hstands.turn_none hlt hturned
  | some parts =>
    have hφ' : φ' = .noting (d.conclude parts) (next (d.conclude parts)) := hφ'
    subst hφ'
    have hafter := hstands.turn_some hlt hturned (d.conclude parts) (next (d.conclude parts))
    refine h.of_turn hdistinct hφ ?_ ?_ hafter
    · exact fun _ _ hin => nomatch hin
    refine ⟨hnext _, by rw [hdeposits, List.length_append, htally]; rfl, ?_⟩
    rw [← htally]
    cases hturned with
    | left _ hstage hminutes =>
      refine Register.concludes_of_return ((h.sound _).turn d.seat.slot d.payload)
        (by rw [Session.parties_turn, h.parties]) ?_ hown hdeposits hstage ?_
        (by rw [hminutes, Minutes.returns_recordReturn_self])
      · -- the others have been called as before, and the participant for all of its deposits
        intro slot other hother
        by_cases heq : slot = d.seat.slot
        · subst heq
          rw [hown.1, Option.some.injEq] at hother
          exact hother ▸ hafter.calls_le
        · rw [((sessions _).minutes_turn_of_ne heq d.payload).1]
          exact (h.stands _ slot other hother).calls_le
      · rw [hminutes]
        exact hstands.calls_called hlt

/-- **Step lemma**: a step of one participant keeps the crew paired. -/
theorem Pairs.step (h : c.Pairs members size φ sessions)
    (hdistinct : ∀ point, (members point).Nodup) {shared : Register σ ε α} {hall : Hall}
    (hstep : Phase.Step rank c.shared c.hall (φ rank) φ' shared hall) :
    ∃ sessions', (⟨shared, hall, c.members.set rank (φ'.program rank)⟩ :
      Crew (Register σ ε α) Unit).Pairs members size (Function.update φ rank φ') sessions' := by
  have hfits := h.fits rank
  generalize hφ : φ rank = now at hstep hfits
  have hout : ∀ {φ' : Phase σ ε α}, (∀ d next, now ≠ .inside d next) →
      (∀ d next, φ' = .inside d next → False) → ∀ point slot,
      (members point)[slot]? = some rank → φ'.Stands (sessions point) slot point
        ((c.shared.depositsAt point rank).map Deposit.payload) :=
    fun hnow hφ' point slot hslot => h.away (hφ ▸ hnow) hφ' hslot
  cases hstep with
  | acts change next =>
    exact ⟨sessions, h.of_register (fun _ _ => ⟨rfl, rfl⟩) (List.prefix_refl _)
      ⟨hfits.1 _, hfits.2⟩ (hout nofun nofun) fun number answer hanswer =>
        (h.paired rank number answer hanswer).mono fun _ => List.prefix_refl _⟩
  | refused collective next answer hoffer =>
    -- nothing was deposited, so nobody stands anywhere else
    have hdeposits := Register.deposits_refused rank hoffer
    refine ⟨sessions, h.of_register (fun other _ => ⟨congrFun hdeposits other, rfl⟩) ?_ ?_ ?_ ?_⟩
    · exact hdeposits.symm ▸ List.prefix_refl _
    · exact ⟨hfits.1.2 _, by rw [hdeposits]; exact hfits.2⟩
    · intro point slot hslot
      rw [Register.depositsAt, hdeposits]
      refine hout nofun ?_ point slot hslot
      exact nofun
    · intro number answer hanswer
      exact (h.paired rank number answer hanswer).mono fun other =>
        congrFun hdeposits other ▸ List.prefix_refl _
  | accepted collective next d hoffer => exact ⟨sessions, h.accepted hφ hoffer⟩
  | waits d next hawake hturn => exact ⟨_, h.turn hdistinct hφ hawake (by rw [hturn])⟩
  | returns d next parts hawake hturn => exact ⟨_, h.turn hdistinct hφ hawake (by rw [hturn])⟩
  | notes answer P =>
    obtain ⟨hseated, htally, hconcludes⟩ := hfits
    have hself : (c.shared.note rank answer).answers rank = c.shared.answers rank ++ [answer] :=
      Function.update_self ..
    have hkept : ∀ {number other}, c.shared.Concludes members rank number other →
        (c.shared.note rank answer).Concludes members rank number other :=
      fun hconcludes => hconcludes.mono fun _ => List.prefix_refl _
    refine ⟨sessions, h.of_register (fun other hne => ⟨rfl, Function.update_of_ne hne ..⟩)
      (List.prefix_refl _) ⟨hseated, ?_⟩ (hout nofun nofun) ?_⟩
    · rw [hself, List.length_append]
      exact htally
    · intro number other hother
      rw [hself] at hother
      -- it is an answer from before, or the one that is noted now
      rcases getElem?_concat_cases hother with hold | ⟨rfl, rfl⟩
      · exact hkept (h.paired rank number other hold)
      · exact hkept hconcludes

/-- **Move lemma**: so does every move of the crew. -/
theorem Pairs.moved (h : c.Pairs members size φ sessions)
    (hdistinct : ∀ point, (members point).Nodup) {m : Move} {c' : Crew (Register σ ε α) Unit}
    {φ' : Nat → Phase σ ε α} (hmoved : Moved c size φ m c' φ') :
    ∃ sessions', c'.Pairs members size φ' sessions' := by
  cases hmoved with
  | stays rank => exact ⟨sessions, h⟩
  | steps hrank hstep => exact h.step hdistinct hstep
  | wakes point slot =>
    -- a chance waking is a step of the one session, and leaves the others as they are
    have hwoken : ∀ other, Function.update sessions point ((sessions point).step (.wake slot)) other
        = sessions other ∨
        Function.update sessions point ((sessions point).step (.wake slot)) other =
          (sessions other).step (.wake slot) := by
      intro other
      by_cases heq : other = point
      · exact Or.inr (by rw [heq, Function.update_self])
      · exact Or.inl (Function.update_of_ne heq ..)
    refine ⟨_, h.phases, h.hosts.wake point slot, fun other => ?_, fun other => ?_, h.fits,
      fun other j rank hj => ?_, h.paired⟩
    · rcases hwoken other with hsame | hstep
      · rw [hsame]
        exact h.sound other
      · rw [hstep]
        exact (h.sound other).step _
    · rcases hwoken other with hsame | hstep
      · rw [hsame, h.parties]
      · rw [hstep, Session.parties_step, h.parties]
    · rcases hwoken other with hsame | hstep
      · rw [hsame]
        exact h.stands other j rank hj
      · rw [hstep]
        exact (h.stands other j rank hj).of_session rfl (Meeting.stage_wake _ slot j)

end Steps

/-! ## §5 Whole schedules -/

section Schedules

variable {members : Point → List Nat} {c : Crew (Register σ ε α) Unit} {size : Nat}
  {φ : Nat → Phase σ ε α} {sessions : Point → Session}

/-- **Run lemma**: every schedule keeps the crew paired. -/
theorem Pairs.follow (h : c.Pairs members size φ sessions)
    (hdistinct : ∀ point, (members point).Nodup) (schedule : List Move) :
    ∃ φ' sessions', (c.follow schedule).Pairs members size φ' sessions' := by
  induction schedule generalizing c φ sessions with
  | nil => exact ⟨φ, sessions, h⟩
  | cons m rest ih =>
    obtain ⟨φ', hmoved⟩ := h.phases.moved m
    obtain ⟨sessions', h'⟩ := h.moved hdistinct hmoved
    exact ih h'

/-- **The hall has received** from every member, at every point, the payloads of its accepted
calls there, one each: all of them, or all but the last with which it is on its way. -/
theorem Pairs.receives (h : c.Pairs members size φ sessions) :
    c.hall.Receives members c.shared := by
  refine ⟨sessions, h.hosts, fun point =>
    ⟨h.sound point, h.parties point, fun slot rank hslot => ?_⟩⟩
  have hstands := h.stands point slot rank hslot
  generalize φ rank = now at hstands
  cases hstands with
  | away _ _ hcalls | present _ _ _ hcalls => exact Or.inl hcalls
  | coming _ _ hstage hcalls => exact Or.inr ⟨hstage, _, hcalls⟩

/-- A crew of seated routines is paired at the beginning. -/
theorem Pairs.crew {P : Nat → Routine σ ε α} (hseated : ∀ rank, (P rank).Seated members rank)
    (state : σ) (size : Nat) :
    (Routine.crew P state .empty size).Pairs members size (fun rank => .ready (P rank))
      fun point => Session.idle (members point).length := by
  refine ⟨rfl, Hall.Hosts.empty fun point => (members point).length,
    fun point => Session.Sound.idle _, fun _ => rfl, fun rank => ⟨hseated rank, rfl⟩,
    fun point slot rank _ => .away nofun (Meeting.stage_idle _ slot) rfl, nofun⟩

end Schedules

end Crew

end ClusterView
