import PooledRouting.Proofs.Pool.Caps
import PooledRouting.Proofs.Pool.DialTurns
import PooledRouting.Proofs.Pool.Outage

/-!
# A dead backend is not hammered

The circuit opens when the failures reach the threshold, which is the
number of slots.  The dials that are out by then still fail and are still
counted, so the count goes beyond the threshold, but not far: each of them
has a slot.

What carries the bound is the sum of the failures counted and the ordinary
dials that are out.  A dial that fails moves from the one to the other.
The sum grows only when a dial starts, and then the circuit is closed; and
after a success there is nothing but the dials that are out
(`Act.dialTotal_cases`).

`dial_failures_bounded` says what this means for a run: for the counter,
for the attempts that fail between two successes, and for an open circuit.
-/

namespace PooledRouting.Pool

variable {o : Options} {p q : Pool} {h k : Hand}

/-! ## Failures and dials that are out -/

/-- The failures that are counted and the ordinary dials that may still
fail. -/
def dialTotal (p : Pool) (h : Hand) : Nat :=
  p.dialFailures + p.ordinaryDials + h.ordinaryDials

theorem dialThreshold_pos (o : Options) : 0 < o.dialThreshold := by
  unfold Options.dialThreshold
  omega

theorem ordinaryDials_dial (p : Pool) (d : Dial) :
    { p with dials := p.dials ++ [d] }.ordinaryDials =
      p.ordinaryDials + (Hand.calling d.caller).ordinaryDials := by
  have hd : (Hand.calling d.caller).ordinaryDials = if d.work.isOrdinaryDial then 1 else 0 := by
    unfold Dial.work
    cases d.caller <;> rfl
  unfold ordinaryDials
  rw [countP_tasks_dial, hd]

/-- The total grows only while the count of failures is below the
threshold. -/
theorem Act.dialTotal_cases (hn : Attempts p h) (ha : Act p h q k) :
    q.dialTotal k ≤ p.dialTotal h ∨ q.dialFailures < q.options.dialThreshold := by
  have hsame : q.dialFailures = p.dialFailures → q.ordinaryDials = p.ordinaryDials →
      k.ordinaryDials = h.ordinaryDials → q.dialTotal k ≤ p.dialTotal h :=
    fun hfailures hdials hhand => by
      unfold dialTotal
      omega
  have hfail : q.dialFailures = p.dialFailures + 1 → q.ordinaryDials = p.ordinaryDials →
      h.ordinaryDials = k.ordinaryDials + 1 → q.dialTotal k ≤ p.dialTotal h :=
    fun hfailures hdials hhand => by
      unfold dialTotal
      omega
  have hnoted := countP_tasks_noteDialFailure steady_isOrdinaryDial p
  have hshut : p.circuitOpen = false → p.dialFailures < p.options.dialThreshold :=
    fun hcircuit => Nat.lt_of_not_le (of_decide_eq_false hcircuit)
  cases ha with
  | get cancelled => exact .inl (hsame rfl (ordinaryDials_enqueue _ rfl) rfl)
  | cancel get =>
    exact .inl (hsame (by rw [cancel_frame]) (countP_tasks_cancel steady_isOrdinaryDial p get) rfl)
  | resolve attempt fault =>
    have hcount := countP_tasks_resolve steady_isOrdinaryDial p attempt fault (hn.dials_le attempt)
    exact .inl (hsame (by rw [resolve_frame]) hcount rfl)
  | fire ms => exact .inl (hsame rfl (countP_tasks_fire steady_isOrdinaryDial p _) rfl)
  | shutDown _ => exact .inl (hsame rfl (ordinaryDials_shutDown p) rfl)
  | closeConnection _ _ | shutNext _ | retire _ =>
    exact .inl (hsame (by rw [closeConnection_frame]) (by rw [closeConnection_frame]; rfl) rfl)
  | take hready =>
    have htake := ordinaryDials_take hready
    refine .inl (Nat.le_of_eq ?_)
    show p.dialFailures + _ + _ = p.dialFailures + p.ordinaryDials + 0
    omega
  | look => exact .inl (hsame rfl (ordinaryDials_topUp p) rfl)
  | finish => exact .inl (hsame (by rw [freeSlot_frame]) (ordinaryDials_freeSlot p) rfl)
  | fail => exact .inl (hsame (by rw [freeSlot_frame]; rfl) (ordinaryDials_freeSlot p) rfl)
  | checkIn =>
    exact .inl (hsame (by rw [freeSlot_frame]; rfl) (ordinaryDials_freeSlot (p.count _)) rfl)
  | strike hr _ =>
    exact .inl (hsame (by rw [strike_eq]; rfl) (by rw [strike_eq]; rfl) hr.ordinaryDials_eq)
  | pass hr _ | refuseRemoval hr _ => exact .inl (hsame rfl rfl hr.ordinaryDials_eq)
  -- A dial starts through a closed circuit.
  | reserve _ _ hcircuit | callTopUp _ hcircuit => exact .inr (hshut hcircuit)
  | answered _ =>
    rename_i caller fault _
    cases caller <;> exact .inl (hsame rfl rfl rfl)
  | underWay _ _ =>
    rename_i caller due _ _
    have hdial := ordinaryDials_dial p ⟨p.attemptCount + 1, caller, due⟩
    refine .inl (Nat.le_of_eq ?_)
    exact congrArg (p.dialFailures + ·) hdial |>.trans (Nat.add_assoc _ _ _).symm
  -- A success leaves no failures.
  | adopt _ | adoptIdle _ => exact .inr (dialThreshold_pos _)
  | probeReached => exact .inr (dialThreshold_pos _)
  | adoptLate _ | adoptIdleLate _ =>
    rw [closeConnection_frame]
    exact .inr (dialThreshold_pos _)
  -- A failed dial is out no more, and counted instead.
  | dialFailed _ => exact .inl (hfail (by unfold lowerSize; rw [noteDialFailure_frame]) (hnoted _) rfl)
  | dialFailedLate _ => exact .inl (hfail (by rw [noteDialFailure_frame]) (hnoted _) rfl)
  | topUpFailed =>
    exact .inl (hfail (by unfold lowerIdleCount lowerSize; rw [noteDialFailure_frame]) (hnoted _) rfl)
  | probeAgain _ _ => exact .inl (hsame rfl (ordinaryDials_enqueue _ rfl) rfl)
  | _ => exact .inl (hsame rfl rfl rfl)

/-! ## The bound -/

/-- An ordinary dial in hand has its slot. -/
theorem Hand.ordinaryDials_le_slots (h : Hand) : h.ordinaryDials ≤ h.slots := by
  induction h with
  | work w =>
    cases w with
    | dialed caller _ _ =>
      cases caller with
      | probe _ => exact Nat.zero_le _
      | _ => exact Nat.le_refl _
    | _ => exact Nat.zero_le _
  | calling caller =>
    cases caller with
    | probe _ => exact Nat.zero_le _
    | _ => exact Nat.le_refl _
  | retiring _ _ ih | looking _ ih => exact ih
  | _ => exact Nat.zero_le _

/-- So have all that are out. -/
theorem Slotted.ordinaryDials_le (hs : Slotted p h) :
    p.ordinaryDials + h.ordinaryDials ≤ p.options.poolSize := by
  have hslots := hs.conserved
  have hreserved := ordinaryDials_le_reserved p
  have hgets := getDials_le_admittedGets p
  have hhand := h.ordinaryDials_le_slots
  unfold busySlots at hslots
  unfold reserved at hreserved
  omega

theorem dialThreshold_of_pos (hsize : 1 ≤ o.poolSize) : o.dialThreshold = o.poolSize := by
  unfold Options.dialThreshold
  omega

theorem Occurs.dialTotal_lt (hp : Occurs o p h) (ho : o.Unmarking) (hsize : 1 ≤ o.poolSize) :
    p.dialTotal h < 2 * o.poolSize := by
  induction hp with
  | create dialer now background =>
    have hdials := (slotted_create o dialer now background).ordinaryDials_le
    have hnone : (Pool.create o dialer now background).dialFailures = 0 := by cases background <;> rfl
    have hoptions : (Pool.create o dialer now background).options = o := by cases background <;> rfl
    rw [hoptions] at hdials
    unfold dialTotal
    omega
  | act hp ha ih =>
    rcases ha.dialTotal_cases hp.attempts with hle | hlow
    · exact Nat.lt_of_le_of_lt hle ih
    · have hq := hp.act ha
      have hdials := (hq.slotted ho).ordinaryDials_le
      rw [hq.options_eq] at hlow hdials
      rw [dialThreshold_of_pos hsize] at hlow
      unfold dialTotal
      omega
  | next _ ih => exact ih
  | giveBack _ _ ih => exact ih

/-! ## Runs -/

/-- Up to the next success the count grows by every ordinary dial that
fails. -/
theorem Reachable.dialFailures_after (hp : Reachable o p) (moves : List Move) :
    (p.after moves).resets = p.resets ∧
        (p.after moves).dialFailures = p.dialFailures + p.failuresIn moves ∨
      p.resets < (p.after moves).resets := by
  induction moves generalizing p with
  | nil => exact .inl ⟨rfl, rfl⟩
  | cons m moves ih =>
    have hrest : _ ∨ (p.apply m).resets < (p.after (m :: moves)).resets := ih (hp.move m)
    rcases dialFailures_apply hp.occurs.hooksKept m with ⟨hresets, hfailures⟩ | ⟨hreset, -⟩
    · rw [hresets] at hrest
      rcases hrest with ⟨hsame, hcount⟩ | hlater
      · refine .inl ⟨hsame, hcount.trans ?_⟩
        rw [hfailures, Nat.add_assoc]
        rfl
      · exact .inr hlater
    · rcases hrest with ⟨hsame, -⟩ | hlater
      · exact .inr (Nat.lt_of_lt_of_eq hreset hsame.symm)
      · exact .inr (Nat.lt_trans hreset hlater)

/-- In every reachable state of a pool with `poolSize` slots the count of
failures and the dials of `get`s and top-ups that are out are together less
than twice `poolSize`.  So at most that many of these dials fail from any
state on until some dial succeeds, however many are out at a time.  While
the count is not below `poolSize` only the turns of the probe start a
dial. -/
theorem dial_failures_bounded (ho : o.Unmarking) (hsize : 1 ≤ o.poolSize) (hp : Reachable o p) :
    p.dialFailures + p.ordinaryDials ≤ 2 * o.poolSize - 1 ∧
      (∀ moves, (p.after moves).resets = p.resets →
        p.failuresIn moves ≤ 2 * o.poolSize - 1) ∧
      (o.poolSize ≤ p.dialFailures → ∀ m, (p.apply m).attemptCount = p.attemptCount ∨
        m = .turn ∧ ∃ tries rest, p.ready = .probe tries :: rest) := by
  have hbound : ∀ {q}, Reachable o q → q.dialFailures + q.ordinaryDials ≤ 2 * o.poolSize - 1 :=
    fun hq => by
      have htotal : _ + 0 < 2 * o.poolSize := hq.occurs.dialTotal_lt ho hsize
      omega
  refine ⟨hbound hp, fun moves hresets => ?_, fun hopen m => ?_⟩
  · rcases hp.dialFailures_after moves with ⟨-, hcount⟩ | hreset
    · have hend := hbound (hp.after moves)
      omega
    · omega
  · refine attemptCount_apply hp.occurs.hooksKept ?_ m
    unfold circuitOpen
    rw [hp.occurs.options_eq, dialThreshold_of_pos hsize]
    exact decide_eq_true hopen

/-- With two slots, a dial is out when another fails.  One more starts, and
then both fail: three failures, and the circuit is open. -/
theorem dial_failures_bounded_two_slots :
    let o : Options := { poolSize := 2, minIdle := 0 }
    let p := create o (fun n => if n = 2 then .answer 0 (some "refused") else .held) 0 true
    let moves : List Move := [.get false, .turn, .get false, .turn, .get false, .turn,
      .resolve 1 (some "refused"), .resolve 3 (some "refused"), .turn, .turn]
    let q := p.after moves
    1 ≤ o.poolSize ∧ q.resets = p.resets ∧ p.failuresIn moves = 3 ∧ o.poolSize ≤ q.dialFailures ∧
      q.dialFailures + q.ordinaryDials ≤ 3 ∧
      (∀ moves, (q.after moves).resets = q.resets → q.failuresIn moves ≤ 3) ∧
      (2 ≤ q.dialFailures → ∀ m, (q.apply m).attemptCount = q.attemptCount ∨
        m = .turn ∧ ∃ tries rest, q.ready = .probe tries :: rest) :=
  ⟨by decide, by decide +kernel, by decide +kernel, by decide +kernel,
    dial_failures_bounded (Options.unmarking_of_nil rfl) (by decide)
      ((Reachable.create _ _ _).after _)⟩

end PooledRouting.Pool
