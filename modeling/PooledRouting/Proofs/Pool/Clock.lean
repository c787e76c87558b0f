import PooledRouting.Proofs.Pool.Step

/-!
# Settling and the clock

A move is calm if it starts no call and gives nothing back.  Letting a pool
settle and moving its clock are calm moves in a row (`drifts_settle`,
`Occurs.drifts_advance`), so whatever calm moves keep they keep as well.

No time passes in a turn (`Occurs.still_step`).  So the clock goes from
deadline to deadline and ends at its target (`Occurs.advanceTo_invariant`, by
induction on the deadlines that are left).

The last group says how to read the history: a call has ended as its event
says (`Called.ending?_eq_some_iff`).
-/

namespace PooledRouting.Pool

variable {o : Options} {p q r : Pool} {h k : Hand} {id : ConnectionId} {n : Nat} {m : Move}

/-! ## Calm moves -/

/-- The move starts no call and gives nothing back. -/
def Move.isCalm : Move → Bool
  | .get _ | .release _ => false
  | _ => true

/-- Time passes in no turn. -/
theorem Act.now_cases (ha : Act p h q k) : q.now = p.now ∨ h = .start := by
  cases ha with
  | fire _ | wait _ _ => exact .inr rfl
  | cancel get =>
    rw [cancel_frame]
    exact .inl rfl
  | resolve attempt fault =>
    rw [resolve_frame]
    exact .inl rfl
  | closeConnection _ id | shutNext _ | retire _ | adoptLate _ | adoptIdleLate _ =>
    rw [closeConnection_frame]
    exact .inl rfl
  | dialFailed _ | topUpFailed =>
    unfold lowerSize
    rw [noteDialFailure_frame]
    exact .inl rfl
  | dialFailedLate _ =>
    rw [noteDialFailure_frame]
    exact .inl rfl
  | finish | fail | checkIn =>
    rw [freeSlot_frame]
    exact .inl rfl
  | strike _ _ =>
    rw [strike_eq]
    exact .inl rfl
  | _ => exact .inl rfl

/-- Once a turn has begun, no time passes and no call starts. -/
theorem Acts.still (hp : Occurs o p h) (hs : Acts p h q k) (hh : h.isStart = false) :
    q.now = p.now ∧ q.getCount = p.getCount := by
  have hall := hs.invariant
    (I := fun r h => Occurs o r h ∧ h.isStart = false ∧ r.now = p.now ∧ r.getCount = p.getCount)
    ⟨hp, hh, rfl, rfl⟩ fun ⟨hp, hh, hnow, hcount⟩ ha => by
      refine ⟨hp.act ha, (ha.goesOn hh).1, ?_, ?_⟩
      · rcases ha.now_cases with hsame | rfl
        · exact hsame.trans hnow
        · cases hh
      · rcases ha.calls_eq hp.called hp.attempts with ⟨_, rfl, -⟩ | ⟨hsame, -⟩
        · cases hh
        · exact hsame.trans hcount
  exact hall.2.2

theorem Occurs.still_step (hp : Occurs o p .start) :
    p.step.now = p.now ∧ p.step.getCount = p.getCount := by
  cases hready : p.ready with
  | nil =>
    rw [step_of_settled hready]
    exact ⟨rfl, rfl⟩
  | cons t rest =>
    have htaken : Occurs o { p with ready := rest } (.work t) := hp.act (.take hready)
    have hstill := (turn_acts hp.hooksKept hready).still htaken rfl
    exact hstill

theorem Occurs.still_run (hp : Occurs o p .start) (turns : Nat) :
    (Pool.run turns p).now = p.now ∧ (Pool.run turns p).getCount = p.getCount := by
  induction turns generalizing p with
  | zero => exact ⟨rfl, rfl⟩
  | succ turns ih =>
    unfold Pool.run
    split
    · exact ⟨rfl, rfl⟩
    · obtain ⟨hnow, hcount⟩ := ih (hp.apply .turn)
      exact ⟨hnow.trans hp.still_step.1, hcount.trans hp.still_step.2⟩

/-- Only a call that starts is counted. -/
theorem Occurs.getCount_apply (hp : Occurs o p .start) (hm : ∀ cancelled, m ≠ .get cancelled) :
    (p.apply m).getCount = p.getCount := by
  cases m with
  | get cancelled => exact absurd rfl (hm cancelled)
  | release id =>
    show (p.release id).getCount = _
    cases hheld : p.isInUse id with
    | true => exact ((release_acts hheld).still (hp.giveBack hheld) rfl).2
    | false =>
      unfold release
      rw [if_neg (by simp [hheld])]
  | cancel get =>
    show (p.cancel get).getCount = _
    rw [cancel_frame]
  | resolve attempt fault =>
    show (p.resolve attempt fault).2.getCount = _
    rw [resolve_frame]
  | closeConnection id =>
    show (p.closeConnection id).2.getCount = _
    rw [closeConnection_frame]
  | remove id =>
    have hcount : Persists fun p q => q.getCount = p.getCount :=
      persists_of_frame (F := Pool.getCount) (by intros; rfl)
    exact hcount.remove p id
  | close =>
    show p.close.2.getCount = _
    unfold close
    split
    · rfl
    · rename_i hopen
      have hshut : Occurs o p.shutDown (.closing p.tracked) :=
        hp.act (.shutDown (Bool.eq_false_iff.2 hopen))
      exact ((closeAll_acts p.shutDown p.tracked).still hshut rfl).2
  | turn => exact hp.still_step.2
  | turnAnswered =>
    show p.stepAnswered.getCount = _
    unfold stepAnswered
    split <;> rfl
  | wait ms =>
    show (if _ then _ else _ : Pool).getCount = _
    split <;> rfl
  | touch _ | setDialer _ | setPauses _ | setCloseFaults _ | addForeign _ | fire _ => rfl

/-- What has happened stays. -/
theorem mem_history_lasting (e : Event) : Lasting o fun p _ => e ∈ p.history :=
  ⟨fun _ he ha => ha.mem_history he, fun he => he, fun _ _ he => he⟩

/-! ## Drifting -/

/-- Calm moves lead from the one pool to the other. -/
def Drifts (p q : Pool) : Prop :=
  ∃ moves : List Move, (∀ m ∈ moves, m.isCalm = true) ∧ q = p.after moves

namespace Drifts

theorem refl (p : Pool) : p.Drifts p :=
  ⟨[], nofun, rfl⟩

theorem move (p : Pool) (hm : m.isCalm = true) : p.Drifts (p.apply m) :=
  ⟨[m], by simpa using hm, rfl⟩

theorem trans (hpq : p.Drifts q) (hqr : q.Drifts r) : p.Drifts r := by
  obtain ⟨moves, hmoves, rfl⟩ := hpq
  obtain ⟨later, hlater, rfl⟩ := hqr
  refine ⟨moves ++ later, fun m hm => ?_, List.foldl_append.symm⟩
  exact (List.mem_append.1 hm).elim (hmoves m) (hlater m)

/-- What holds at the start and is kept by each calm move holds at the end. -/
theorem invariant {I : Pool → Prop} (hd : p.Drifts q) (hp : I p)
    (hmove : ∀ {p : Pool} {m : Move}, I p → m.isCalm = true → I (p.apply m)) : I q := by
  obtain ⟨moves, hmoves, rfl⟩ := hd
  induction moves generalizing p with
  | nil => exact hp
  | cons m moves ih =>
    obtain ⟨hm, hrest⟩ := List.forall_mem_cons.1 hmoves
    exact ih (hmove hp hm) hrest

theorem occurs (hd : p.Drifts q) (hp : Occurs o p .start) : Occurs o q .start :=
  hd.invariant (I := fun r => Occurs o r .start) hp fun hr _ => hr.apply _

theorem getCount_eq (hd : p.Drifts q) (hp : Occurs o p .start) : q.getCount = p.getCount := by
  have hboth := hd.invariant (I := fun r => Occurs o r .start ∧ r.getCount = p.getCount) ⟨hp, rfl⟩
    fun {r m} ⟨hr, hcount⟩ hm => by
      refine ⟨hr.apply m, (hr.getCount_apply ?_).trans hcount⟩
      rintro cancelled rfl
      cases hm
  exact hboth.2

theorem mem_history (hd : p.Drifts q) (hp : Occurs o p .start) {e : Event} (he : e ∈ p.history) :
    e ∈ q.history := by
  obtain ⟨moves, -, rfl⟩ := hd
  exact (mem_history_lasting e).after hp he moves

/-- Calm moves keep the leases. -/
theorem session (hd : p.Drifts q) {finished : List Nat}
    (hs : Session.Reachable o ⟨p, finished⟩) : Session.Reachable o ⟨q, finished⟩ := by
  refine hd.invariant (I := fun r => Session.Reachable o ⟨r, finished⟩) hs fun {r m} hr hm => ?_
  refine hr.next (.move m fun get id hrelease => ?_)
  rw [hrelease] at hm
  cases hm

end Drifts

/-! ## Settling and moving the clock -/

theorem drifts_run (turns : Nat) (p : Pool) : p.Drifts (run turns p) := by
  induction turns generalizing p with
  | zero => exact .refl p
  | succ turns ih =>
    unfold run
    split
    · exact .refl p
    · exact (Drifts.move (m := .turn) p rfl).trans (ih p.step)

theorem drifts_settle (p : Pool) : p.Drifts p.settle :=
  drifts_run turnLimit p

theorem nextDeadline?_lt {limit time : Nat} (h : p.nextDeadline? limit = some time) :
    p.now < time ∧ time ≤ limit := by
  have hmem := List.mem_filter.1 (List.min?_mem h)
  simpa using hmem.2

theorem apply_fire {time : Nat} (hle : p.now ≤ time) :
    p.apply (.fire (time - p.now)) = p.fire time := by
  show p.fire (p.now + (time - p.now)) = _
  rw [Nat.add_sub_of_le hle]

theorem apply_wait {time : Nat} (hle : p.now ≤ time) (hnext : p.nextDeadline? time = none) :
    p.apply (.wait (time - p.now)) = { p with now := time } := by
  show (if p.nextDeadline? (p.now + (time - p.now)) = none then
    { p with now := p.now + (time - p.now) } else p) = _
  rw [Nat.add_sub_of_le hle, if_pos hnext]

/-- The clock moves to the target in steps, each to the next deadline.  So what
firing keeps, with the turns that follow, and what a move of the clock keeps on which
nothing falls due, is so at the end. -/
theorem Occurs.advanceTo_invariant {I : Pool → Prop} {target : Nat}
    (hfire : ∀ {q : Pool} {time : Nat}, Occurs o q .start → I q → q.now < time →
      I (q.fire time).settle)
    (hwait : ∀ {q : Pool} {time : Nat}, Occurs o q .start → I q → q.now ≤ time →
      q.nextDeadline? time = none → I { q with now := time })
    (deadlines : Nat) (hp : Occurs o p .start) (hi : I p) (hle : p.now ≤ target)
    (hfew : target ≤ p.now + deadlines) :
    I (Pool.advanceTo target deadlines p) ∧ (Pool.advanceTo target deadlines p).now = target := by
  induction deadlines generalizing p with
  | zero =>
    obtain rfl : target = p.now := by omega
    exact ⟨hi, rfl⟩
  | succ deadlines ih =>
    unfold Pool.advanceTo
    cases hnext : p.nextDeadline? target with
    | none => exact ⟨hwait hp hi hle hnext, rfl⟩
    | some time =>
      obtain ⟨hlater, hlimit⟩ := nextDeadline?_lt hnext
      have hfired : Occurs o (p.fire time) .start :=
        apply_fire (Nat.le_of_lt hlater) ▸ hp.apply _
      have hnow : (p.fire time).settle.now = time := (hfired.still_run turnLimit).1
      exact ih ((drifts_settle _).occurs hfired) (hfire hp hi hlater) (by omega) (by omega)

theorem Occurs.now_advance (hp : Occurs o p .start) (ms : Nat) : (p.advance ms).now = p.now + ms :=
  (hp.advanceTo_invariant (I := fun _ => True) (fun _ _ _ => trivial) (fun _ _ _ _ => trivial) ms
    trivial (Nat.le_add_right _ _) (Nat.le_refl _)).2

theorem Occurs.advance_invariant {I : Pool → Prop} (hp : Occurs o p .start) (hi : I p)
    (hfire : ∀ {q : Pool} {time : Nat}, Occurs o q .start → I q → q.now < time →
      I (q.fire time).settle)
    (hwait : ∀ {q : Pool} {time : Nat}, Occurs o q .start → I q → q.now ≤ time →
      q.nextDeadline? time = none → I { q with now := time }) (ms : Nat) : I (p.advance ms) :=
  (hp.advanceTo_invariant hfire hwait ms hi (Nat.le_add_right _ _) (Nat.le_refl _)).1

theorem Occurs.drifts_advance (hp : Occurs o p .start) (ms : Nat) : p.Drifts (p.advance ms) := by
  refine hp.advance_invariant (I := fun q => p.Drifts q) (.refl p) (fun {q time} _ hd hlater => ?_)
    (fun {q time} _ hd hle hnext => ?_) ms
  · have hfired : q.Drifts (q.fire time) := apply_fire (Nat.le_of_lt hlater) ▸ .move q rfl
    exact (hd.trans hfired).trans (drifts_settle _)
  · have hwaited : q.Drifts { q with now := time } := apply_wait hle hnext ▸ .move q rfl
    exact hd.trans hwaited

/-! ## How calls end -/

/-- The event with which a call ends so. -/
def Event.ending (get : Nat) : Except Fault ConnectionId → Event
  | .ok id => .served get id
  | .error fault => .failed get fault

theorem Event.isEnding_ending (get : Nat) (result : Except Fault ConnectionId) :
    (Event.ending get result).isEnding get = true := by
  cases result with
  | _ => exact beq_self_eq_true get

theorem Event.ending_inj {result other : Except Fault ConnectionId}
    (h : Event.ending n result = Event.ending n other) : result = other := by
  cases result with
  | ok id =>
    cases other with
    | ok _ => exact congrArg Except.ok (Event.served.inj h).2
    | error _ => cases h
  | error fault =>
    cases other with
    | ok _ => cases h
    | error _ => exact congrArg Except.error (Event.failed.inj h).2

theorem mem_history_of_ending? {result : Except Fault ConnectionId}
    (h : p.ending? n = some result) : Event.ending n result ∈ p.history := by
  obtain ⟨e, he, hend⟩ := List.exists_of_findSome?_eq_some h
  cases e with
  | served get id | failed get fault =>
    obtain ⟨rfl, hsome⟩ := Option.ite_none_right_eq_some.1 hend
    cases hsome
    exact he
  | _ => cases hend

theorem ending?_isSome_iff : (p.ending? n).isSome = true ↔ 0 < p.endings n := by
  unfold ending? endings
  rw [List.findSome?_isSome_iff, List.countP_pos_iff]
  refine exists_congr fun e => and_congr_right fun _ => ?_
  cases e with
  | served get id | failed get fault =>
    show (if get = n then some _ else none).isSome = true ↔ (get == n) = true
    split <;> simp [*]
  | _ => exact iff_of_false nofun nofun

/-- A call has ended as its event says. -/
theorem Called.ending?_eq_some_iff (hc : Called p h) {result : Except Fault ConnectionId} :
    p.ending? n = some result ↔ Event.ending n result ∈ p.history := by
  refine ⟨mem_history_of_ending?, fun hin => ?_⟩
  have hends : 0 < p.endings n := endings_pos hin (Event.isEnding_ending n result)
  obtain ⟨other, hother⟩ := Option.isSome_iff_exists.1 (ending?_isSome_iff.2 hends)
  have hsame := hc.ending_eq n hin (mem_history_of_ending? hother) (Event.isEnding_ending n result)
    (Event.isEnding_ending n other)
  rw [hother, Event.ending_inj hsame]

theorem Called.lease?_eq_some_iff (hc : Called p h) :
    p.lease? n = some id ↔ .served n id ∈ p.history := by
  unfold lease?
  rw [Option.bind_eq_some_iff]
  constructor
  · rintro ⟨result, hend, hid⟩
    cases result with
    | error fault => cases hid
    | ok other =>
      cases hid
      exact mem_history_of_ending? hend
  · exact fun hin => ⟨.ok id, hc.ending?_eq_some_iff.2 hin, rfl⟩

end PooledRouting.Pool
