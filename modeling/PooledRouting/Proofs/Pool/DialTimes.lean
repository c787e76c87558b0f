import PooledRouting.Proofs.Pool.DialTurns

/-!
# When dials come back

A dial that is under way was started in some turn, and comes back as its course
says: so many milliseconds after that turn, or when it is resolved.  `Act`
leaves the time open.  So the operations are followed here once more, up to the
one place where a dial starts (`newDials_perform`); on the way there and
afterwards no act adds a dial (`Acts.dials_eq`).

In the turn of a call only that call dials, and only if it had not been let in
before.
-/

namespace PooledRouting.Pool

variable {p q r : Pool} {h k : Hand} {get? : Option Nat}

/-! ## Acts that start no dial -/

/-- Within a turn nobody closes the pool, and dials go as they did. -/
theorem Act.setting_eq (ha : Act p h q k) (hh : h.isStart = false) :
    q.closed = p.closed ∧ q.dialer = p.dialer := by
  cases ha with
  | shutDown _ | cancel _ | resolve _ _ | setDialer _ | take _ => cases hh
  | closeConnection _ _ | shutNext _ | retire _ | adoptLate _ | adoptIdleLate _ =>
    rw [closeConnection_frame]
    exact ⟨rfl, rfl⟩
  | dialFailed _ | topUpFailed =>
    unfold lowerSize
    rw [noteDialFailure_frame]
    exact ⟨rfl, rfl⟩
  | dialFailedLate _ =>
    rw [noteDialFailure_frame]
    exact ⟨rfl, rfl⟩
  | finish | fail | checkIn =>
    rw [freeSlot_frame]
    exact ⟨rfl, rfl⟩
  | strike _ _ =>
    rw [strike_eq]
    exact ⟨rfl, rfl⟩
  | _ => exact ⟨rfl, rfl⟩

/-- Within a turn dials are added where one is about to start. -/
theorem Act.dials_cases (ha : Act p h q k) (hh : h.isStart = false) :
    q.dials = p.dials ∨ ∃ caller, h = .calling caller := by
  cases ha with
  | shutDown _ | cancel _ | resolve _ _ | fire _ => cases hh
  | underWay _ _ => exact .inr ⟨_, rfl⟩
  | closeConnection _ _ | shutNext _ | retire _ | adoptLate _ | adoptIdleLate _ =>
    rw [closeConnection_frame]
    exact .inl rfl
  | dialFailed _ | topUpFailed =>
    unfold lowerSize
    rw [noteDialFailure_frame]
    exact .inl rfl
  | dialFailedLate _ =>
    rw [noteDialFailure_frame]
    exact .inl rfl
  | finish | fail | checkIn =>
    rw [freeSlot_frame]
    exact .inl rfl
  | strike _ _ =>
    rw [strike_eq]
    exact .inl rfl
  | _ => exact .inl rfl

/-- No dial is to start any more in the turn. -/
def DialStage.isOver : DialStage → Bool
  | .back _ _ | .past => true
  | _ => false

theorem Hand.isStart_of_isOver {h : Hand} (hover : h.dialStage.isOver = true) :
    h.isStart = false := by
  induction h with
  | start => cases hover
  | retiring _ next ih | looking next ih => exact ih hover
  | _ => rfl

/-- With its dial dealt with a turn leaves the others alone. -/
theorem Acts.dials_eq (hs : Acts p h q k) (hh : h.dialStage.isOver = true) : q.dials = p.dials := by
  have hend := hs.invariant (I := fun r l => l.dialStage.isOver = true ∧ r.dials = p.dials)
    ⟨hh, rfl⟩
    fun ⟨hover, hsame⟩ ha => by
      have hdials := (ha.dials_cases (Hand.isStart_of_isOver hover)).resolve_right (by
        rintro ⟨caller, rfl⟩
        cases hover)
      refine ⟨?_, hdials.trans hsame⟩
      cases ha.dialStep (by rintro hnone; rw [hnone] at hover; cases hover) with
      | keep _ stage =>
        rcases stage with hrest | ⟨hpast, -⟩
        · rwa [hrest]
        · rw [hpast]
          rfl
      | letThrough _ before _ _ | start before _ _ _ _ =>
        rw [before] at hover
        cases hover
      | fail _ after _ _ _ | reach _ after _ _ _ =>
        rw [after]
        rfl
  exact hend.2

/-! ## The dial of a turn -/

/-- When a dial that starts now comes back, and with what. -/
def Course.due? (course : Course) (now : Nat) : Option (Nat × Option String) :=
  match course with
  | .answer ms fault => some (now + ms, fault)
  | .held => none

/-- The dials that are new are on behalf of the call, and come back as their
courses say, which is not at once. -/
def NewDials (get? : Option Nat) (p q : Pool) : Prop :=
  ∀ d ∈ q.dials, d ∈ p.dials ∨ d.caller.call? = get? ∧ d.due = (p.dialer d.attempt).due? p.now ∧
    ∀ fault, p.dialer d.attempt ≠ .answer 0 fault

theorem newDials_of_eq (hdials : q.dials = p.dials) : NewDials get? p q :=
  fun _ hd => .inl (hdials ▸ hd)

theorem NewDials.congr (hnew : NewDials get? r q)
    (hsame : r.now = p.now ∧ r.dialer = p.dialer ∧ r.dials = p.dials) : NewDials get? p q := by
  obtain ⟨hnow, hdialer, hdials⟩ := hsame
  unfold NewDials at hnew ⊢
  rwa [hnow, hdialer, hdials] at hnew

theorem setting_remove (p : Pool) (id : ConnectionId) :
    (p.remove id).2.now = p.now ∧ (p.remove id).2.dialer = p.dialer ∧
      (p.remove id).2.dials = p.dials := by
  have hsetting : Persists fun p q => (q.now, q.dialer, q.dials) = (p.now, p.dialer, p.dials) :=
    persists_of_frame (by intros; rfl)
  simpa only [Prod.mk.injEq] using hsetting.remove p id

theorem startDial_course (p : Pool) (caller : Caller) :
    (∃ fault, p.dialer (p.attemptCount + 1) = .answer 0 fault ∧ p.startDial caller =
      (.answered (p.attemptCount + 1) fault, { p with attemptCount := p.attemptCount + 1 })) ∨
    (p.startDial caller).1 = .underWay ∧ NewDials caller.call? p (p.startDial caller).2 := by
  have hnew : ∀ due, due = (p.dialer (p.attemptCount + 1)).due? p.now →
      (∀ fault, p.dialer (p.attemptCount + 1) ≠ .answer 0 fault) →
        NewDials caller.call? p { p with
          attemptCount := p.attemptCount + 1
          dials := p.dials ++ [⟨p.attemptCount + 1, caller, due⟩] } := by
    intro due hdue hlater d hd
    rcases List.mem_append.1 hd with hold | hin
    · exact .inl hold
    · obtain rfl := List.mem_singleton.1 hin
      exact .inr ⟨rfl, hdue, hlater⟩
  unfold startDial
  dsimp only
  split
  · rename_i fault hcourse
    exact .inl ⟨fault, hcourse, rfl⟩
  · rename_i ms fault hcourse
    refine .inr ⟨rfl, hnew _ (by rw [hcourse]; rfl) fun other hnow => ?_⟩
    cases hcourse.symm.trans hnow
  · rename_i hcourse
    refine .inr ⟨rfl, hnew _ (by rw [hcourse]; rfl) fun other hnow => ?_⟩
    cases hcourse.symm.trans hnow

/-- A dial that starts is the only new one, whatever its answer does. -/
theorem newDials_start (caller : Caller) (f : Nat → Option String → Pool → Pool)
    (hf : ∀ fault, (f (p.attemptCount + 1) fault
      { p with attemptCount := p.attemptCount + 1 }).dials = p.dials) :
    NewDials caller.call? p (match p.startDial caller with
      | (.answered attempt fault, q) => f attempt fault q
      | (.underWay, q) => q) := by
  rcases p.startDial_course caller with ⟨fault, -, hs⟩ | ⟨hlater, hnew⟩
  · rw [hs]
    exact newDials_of_eq (hf fault)
  · cases hs : p.startDial caller with
    | mk start q =>
      rw [hs] at hlater hnew
      obtain rfl : start = .underWay := hlater
      exact hnew

theorem dials_leave (p : Pool) (get : Nat) (fault : Fault) :
    (p.freeSlot.fail get fault).dials = p.dials := by
  show p.freeSlot.dials = _
  rw [freeSlot_frame]

theorem newDials_dialFor (hk : p.HooksKept) (get : Nat) :
    NewDials (some get) p (p.dialFor get) := by
  unfold dialFor
  split
  · exact newDials_of_eq (dials_leave p get _)
  split
  · exact newDials_of_eq (dials_leave p get _)
  split
  · exact newDials_of_eq (dials_leave p get _)
  · refine newDials_start (p := { p with size := p.size + 1 }) (.get get)
      (fun attempt fault q => q.endGetDial get attempt fault) fun fault => ?_
    exact (endGetDial_acts (by exact hk) get _ fault).dials_eq rfl

theorem newDials_serve (hk : p.HooksKept) (get : Nat) : NewDials (some get) p (p.serve get) := by
  fun_induction serve p get with
  | case1 p hclosed => exact newDials_of_eq (dials_leave p get _)
  | case2 p hopen hnext =>
    exact newDials_dialFor (p := p.count Counters.miss) (by exact hk) get
  | case3 p hopen id rest hnext q hvalid =>
    exact newDials_of_eq
      ((checkOut_acts (p := q.count Counters.hit) (by exact hk) get id).dials_eq rfl)
  | case4 p hopen id rest hnext q hinvalid ih =>
    have hdiscard : Acts q (.picked get id) (q.discardInvalid id) (.admitted get) :=
      discardInvalid_acts (Bool.eq_false_iff.2 hinvalid)
    have hlater := ih (hk.later (p := q) hdiscard.later)
    exact hlater.congr (setting_remove (q.count Counters.retireInvalid) id)

theorem newDials_startTopUp (p : Pool) : NewDials none p p.startTopUp := by
  have hfree : ∀ r : Pool, r.freeSlot.dials = r.dials := fun r => by rw [freeSlot_frame]
  unfold startTopUp
  split
  · exact newDials_of_eq (hfree p)
  split
  · exact newDials_of_eq (hfree p.lowerSize.lowerIdleCount)
  · refine newDials_start .topUp (fun attempt fault q => q.endTopUp attempt fault) fun fault => ?_
    exact (endTopUp_acts _ _ fault).dials_eq rfl

theorem newDials_startProbeTry (p : Pool) (tries : UInt32) :
    NewDials none p (p.startProbeTry tries) := by
  unfold startProbeTry
  split
  · exact newDials_of_eq rfl
  rename_i hopen
  refine newDials_start (.probe (Backoff.countTry tries))
    (fun attempt fault q => q.endProbeTry (Backoff.countTry tries) attempt fault) fun fault => ?_
  exact (endProbeTry_acts (by simpa using hopen) _ _ fault).dials_eq rfl

/-- In its turn a call dials only if it had not been let in before. -/
theorem newDials_perform (hk : p.HooksKept) (w : Work) : NewDials w.outside? p (p.perform w) := by
  cases w with
  | arrive get =>
    show NewDials (some get) p (p.arrive get)
    unfold arrive
    split
    · exact newDials_of_eq rfl
    split
    · exact newDials_of_eq rfl
    split
    · exact newDials_serve (p := { p with slots := p.slots - 1 }.record (.admitted get))
        (by exact hk) get
    split
    · exact newDials_of_eq rfl
    · exact newDials_of_eq rfl
  | admitted get =>
    show NewDials (some get) p (p.resume get)
    unfold resume
    split
    · exact newDials_of_eq (dials_leave p get _)
    split
    · exact newDials_of_eq (dials_leave p get _)
    · exact newDials_serve (p := p.record (.admitted get)) (by exact hk) get
  | refused get => exact newDials_of_eq rfl
  | recheck get => exact newDials_of_eq ((recheck_acts p get).dials_eq rfl)
  | topUp => exact newDials_startTopUp p
  | probe tries => exact newDials_startProbeTry p tries
  | dialed caller attempt fault =>
    exact newDials_of_eq ((comeBack_acts hk caller attempt fault).dials_eq rfl)

theorem newDials_step (hk : p.HooksKept) {w : Work} {rest : List Work}
    (hready : p.ready = w :: rest) :
    NewDials w.outside? p p.step := by
  rw [step_of_ready hready]
  exact newDials_perform (p := { p with ready := rest }) hk w

/-- After its turn a pool is open if it was, and dials go as they did. -/
theorem setting_step (hk : p.HooksKept) :
    p.step.closed = p.closed ∧ p.step.dialer = p.dialer := by
  cases hready : p.ready with
  | nil =>
    rw [step_of_settled hready]
    exact ⟨rfl, rfl⟩
  | cons w rest =>
    have hall := (turn_acts hk hready).invariant
      (I := fun r h => h.isStart = false ∧ r.closed = p.closed ∧ r.dialer = p.dialer)
      ⟨rfl, rfl, rfl⟩ fun ⟨hh, hclosed, hdialer⟩ ha =>
        ⟨(ha.goesOn hh).1, (ha.setting_eq hh).1.trans hclosed, (ha.setting_eq hh).2.trans hdialer⟩
    exact hall.2

end PooledRouting.Pool
