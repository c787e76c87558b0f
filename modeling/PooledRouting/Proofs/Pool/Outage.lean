import PooledRouting.Proofs.Pool.Circuit

/-!
# The outage after a probe that gave up

With limited retries the probe may end while the backend is still down.
The circuit stays open then, and only a success would close it, but no
dial is let through an open circuit and no failure is counted that would
send out another probe: the pool never dials again, not even when the
backend is back (`probe_gave_up`).

`Stalled` is the invariant, with the dial in hand counted in: no ordinary
dial and no probe is out, and what has been noted of dials stays.  Each
act that could end it needs a closed circuit or a dial in hand.
`outage_lasts` follows by induction over the moves.
-/

namespace PooledRouting.Pool

/-- The backend refuses the dial of the only `get` and those of the probe
until its retries are used up: the circuit is open, and nothing is out that
could close it. -/
theorem probe_gave_up :
    let o : Options := { poolSize := 1, minIdle := 0, dialRetry := Backoff.standard }
    let p := (create o (fun _ => .answer 0 (some "refused")) 0 true).after
      [.get false, .turn, .turn, .fire 100, .turn, .fire 200, .turn, .fire 400, .turn]
    o.dialRetry.maxRetries < Backoff.unboundedRetries ∧ p.Settled ∧ p.closed = false ∧
      max o.poolSize 1 ≤ p.dialFailures ∧ p.probes = 0 ∧ p.ordinaryDials = 0 := by
  decide +kernel

variable {p q r : Pool} {h k : Hand} {id : ConnectionId}

/-! ## Ordinary dials, counted -/

/-- The ordinary dial in hand: about to start, or just come back. -/
def Hand.ordinaryDials : Hand → Nat
  | .work w => if w.isOrdinaryDial then 1 else 0
  | .calling (.get _) | .calling .topUp => 1
  | .retiring _ next | .looking next => next.ordinaryDials
  | _ => 0

theorem steady_isOrdinaryDial : Steady Work.isOrdinaryDial :=
  ⟨fun c _ _ => by cases c <;> rfl, fun _ => rfl, fun _ => rfl⟩

theorem ordinaryDials_enqueue (p : Pool) {w : Work} (hw : w.isOrdinaryDial = false) :
    (p.enqueue w).ordinaryDials = p.ordinaryDials := by
  unfold ordinaryDials
  rw [countP_tasks_enqueue, hw]
  rfl

theorem ordinaryDials_take {w : Work} {rest : List Work} (hready : p.ready = w :: rest) :
    p.ordinaryDials = { p with ready := rest }.ordinaryDials + (Hand.work w).ordinaryDials :=
  countP_tasks_take hready

theorem ordinaryDials_topUp (p : Pool) : p.topUp.ordinaryDials = p.ordinaryDials :=
  countP_tasks_topUp p

theorem ordinaryDials_freeSlot (p : Pool) : p.freeSlot.ordinaryDials = p.ordinaryDials := by
  rcases freeSlot_cases p with ⟨-, hfree⟩ | ⟨w, rest, -, hfree⟩
  · rw [hfree]
    rfl
  · rw [hfree, ordinaryDials_enqueue _ rfl]
    rfl

/-- A shutdown ends dials of the probe only. -/
theorem ordinaryDials_shutDown (p : Pool) : p.shutDown.ordinaryDials = p.ordinaryDials := by
  have htasks := countP_tasks_shutDown steady_isOrdinaryDial p
  have hline : p.line.countP (fun w => (Work.refused w.get).isOrdinaryDial) = 0 :=
    List.countP_eq_zero.2 fun _ _ => Bool.false_ne_true
  have hlost := countP_probeDials (P := Work.isOrdinaryDial) (fun _ _ => rfl) p.dials
  unfold ordinaryDials
  omega

theorem Retires.ordinaryDials_eq {f : Counters → Counters} (hr : Retires p id h f k) :
    k.ordinaryDials = h.ordinaryDials := by
  cases hr with
  | _ => rfl

/-! ## A pool that never dials again -/

/-- Since the pool was `r`, no dial has started or come back, and none is
out. -/
structure Stalled (r p : Pool) (h : Hand) : Prop where
  quiet : p.ordinaryDials + h.ordinaryDials = 0
  probing : p.probing = false
  attempts : p.attemptCount = r.attemptCount
  failures : p.dialFailures = r.dialFailures
  fault : p.lastDialFault = r.lastDialFault

/-- Nothing that is noted of dials changes with an act that leaves these
fields alone. -/
theorem Stalled.congr (hs : Stalled r p h) (hquiet : q.ordinaryDials = p.ordinaryDials)
    (hhand : k.ordinaryDials = h.ordinaryDials) (hprobing : q.probing = p.probing)
    (hattempts : q.attemptCount = p.attemptCount) (hfailures : q.dialFailures = p.dialFailures)
    (hfault : q.lastDialFault = p.lastDialFault) : Stalled r q k where
  quiet := by
    rw [hquiet, hhand]
    exact hs.quiet
  probing := hprobing.trans hs.probing
  attempts := hattempts.trans hs.attempts
  failures := hfailures.trans hs.failures
  fault := hfault.trans hs.fault

theorem Stalled.act (hs : Stalled r p h) (hopen : r.options.dialThreshold ≤ r.dialFailures)
    (hoptions : p.options = r.options) (hw : Watched p h) (hn : Attempts p h)
    (ha : Act p h q k) : Stalled r q k := by
  have hcircuit : p.circuitOpen = true := by
    unfold circuitOpen
    rw [hs.failures, hoptions]
    exact decide_eq_true hopen
  -- Neither an ordinary dial nor the probe is in hand.
  have hquiet : h.ordinaryDials = 0 := by
    have hsum := hs.quiet
    omega
  have hunprobed : h.probes = 0 := by
    have hsum : p.probes + h.probes = p.probing.toNat := hw
    rw [hs.probing] at hsum
    exact (Nat.add_eq_zero_iff.1 hsum).2
  have hcalls : ∀ caller, h ≠ .calling caller := by
    rintro caller rfl
    cases caller with
    | get number => cases hquiet
    | topUp => cases hquiet
    | probe tries => cases hunprobed
  cases ha with
  | get cancelled => exact hs.congr (ordinaryDials_enqueue _ rfl) rfl rfl rfl rfl rfl
  | cancel get =>
    have hcount := countP_tasks_cancel steady_isOrdinaryDial p get
    rw [cancel_frame] at hcount ⊢
    exact hs.congr hcount rfl rfl rfl rfl rfl
  | resolve attempt fault =>
    have hcount := countP_tasks_resolve steady_isOrdinaryDial p attempt fault (hn.dials_le attempt)
    rw [resolve_frame] at hcount ⊢
    exact hs.congr hcount rfl rfl rfl rfl rfl
  | fire ms =>
    exact hs.congr (countP_tasks_fire steady_isOrdinaryDial p _) rfl rfl rfl rfl rfl
  | shutDown _ => exact hs.congr (ordinaryDials_shutDown p) rfl rfl rfl rfl rfl
  | closeConnection _ _ | shutNext _ | retire _ =>
    rw [closeConnection_frame]
    exact hs.congr rfl rfl rfl rfl rfl rfl
  | take hready =>
    have htake := ordinaryDials_take hready
    have hsum : p.ordinaryDials + 0 = 0 := hs.quiet
    exact ⟨htake.symm.trans hsum, hs.probing, hs.attempts, hs.failures, hs.fault⟩
  | look => exact hs.congr (ordinaryDials_topUp p) rfl rfl rfl rfl rfl
  | finish =>
    have hcount := ordinaryDials_freeSlot p
    rw [freeSlot_frame] at hcount ⊢
    exact hs.congr hcount rfl rfl rfl rfl rfl
  | fail =>
    have hcount := ordinaryDials_freeSlot p
    rw [freeSlot_frame] at hcount ⊢
    exact hs.congr hcount rfl rfl rfl rfl rfl
  | checkIn =>
    have hcount := ordinaryDials_freeSlot (p.count Counters.checkIn)
    rw [freeSlot_frame] at hcount ⊢
    exact hs.congr hcount rfl rfl rfl rfl rfl
  | strike hr _ =>
    rw [strike_eq]
    exact hs.congr rfl hr.ordinaryDials_eq rfl rfl rfl rfl
  | pass hr _ | refuseRemoval hr _ => exact hs.congr rfl hr.ordinaryDials_eq rfl rfl rfl rfl
  -- An open circuit lets no dial through.
  | reserve _ _ hshut => cases hshut.symm.trans hcircuit
  | callTopUp _ hshut => cases hshut.symm.trans hcircuit
  -- Every other act on a dial has it in hand, as the probe's acts have the probe.
  | answered _ | underWay _ _ => exact absurd rfl (hcalls _)
  | adopt _ | adoptIdle _ | adoptLate _ | adoptIdleLate _ => cases hquiet
  | dialFailed _ | dialFailedLate _ | topUpFailed => cases hquiet
  | callProbe _ | probeOff _ | probeDropped _ | probeReached => cases hunprobed
  | probeGaveUp _ | probeAgain _ _ | probeNap _ _ _ => cases hunprobed
  | _ => exact hs.congr rfl rfl rfl rfl rfl rfl

variable {o : Options}

theorem stalled_lasting (hopen : max o.poolSize 1 ≤ r.dialFailures) (hr : r.options = o) :
    Lasting o (Stalled r) where
  act hp hs ha := hs.act (hr ▸ hopen) (hp.options_eq.trans hr.symm) hp.arises.watched hp.attempts ha
  next hs := hs.congr rfl rfl rfl rfl rfl rfl
  giveBack _ _ hs := hs.congr rfl rfl rfl rfl rfl rfl

/-- While the circuit is open a `get` that would dial ends with the failure
that stands for a dial. -/
theorem dialFor_of_circuitOpen (hopen : p.closed = false)
    (hroom : ¬(p.options.maxActive > 0 ∧ p.options.maxActive ≤ p.size))
    (hcircuit : p.circuitOpen = true) (get : Nat) :
    p.dialFor get = p.freeSlot.fail get p.circuitFault := by
  unfold dialFor
  rw [if_neg (Bool.eq_false_iff.1 hopen), if_neg hroom, if_pos hcircuit]

/-- If the circuit is open and neither a probe nor an ordinary dial is out,
then that stays so whatever moves follow, and no dial is attempted any more.
While the pool is open and not full, every `get` that finds no idle
connection ends with the last failure from before. -/
theorem outage_lasts (hp : Reachable o p) (hopen : max o.poolSize 1 ≤ p.dialFailures)
    (hprobes : p.probes = 0) (hdials : p.ordinaryDials = 0) (moves : List Move) :
    let q := p.after moves
    q.attemptCount = p.attemptCount ∧ q.dialFailures = p.dialFailures ∧ q.probes = 0 ∧
      q.ordinaryDials = 0 ∧
      (q.closed = false → (0 < o.maxActive → q.size < o.maxActive) →
        ∀ get, q.dialFor get = q.freeSlot.fail get p.circuitFault) := by
  intro q
  have hprobing : p.probing = false := by
    have hwatched : p.probes + 0 = p.probing.toNat := hp.occurs.arises.watched
    rw [hprobes] at hwatched
    exact Bool.toNat_eq_zero.1 hwatched.symm
  have hq : Occurs o q .start := (hp.after moves).occurs
  have hstalled : Stalled p q .start :=
    (stalled_lasting hopen hp.occurs.options_eq).after hp.occurs
      ⟨hdials, hprobing, rfl, rfl, rfl⟩ moves
  have hout : q.probes + 0 = q.probing.toNat := hq.arises.watched
  rw [hstalled.probing] at hout
  refine ⟨hstalled.attempts, hstalled.failures, hout, hstalled.quiet, fun hlive hroom get => ?_⟩
  have hcircuit : q.circuitOpen = true := by
    unfold circuitOpen
    rw [hstalled.failures, hq.options_eq]
    exact decide_eq_true hopen
  have hfault : q.circuitFault = p.circuitFault := congrArg (Option.getD · _) hstalled.fault
  have hnotFull : ¬(q.options.maxActive > 0 ∧ q.options.maxActive ≤ q.size) := by
    rw [hq.options_eq]
    rintro ⟨hpos, hfull⟩
    have hless := hroom hpos
    omega
  rw [← hfault]
  exact dialFor_of_circuitOpen hlive hnotFull hcircuit get

/-- The pool of `probe_gave_up`, after the backend has come back and two
more `get`s. -/
theorem outage_lasts_past_recovery :
    let o : Options := { poolSize := 1, minIdle := 0, dialRetry := Backoff.standard }
    let p := (create o (fun _ => .answer 0 (some "refused")) 0 true).after
      [.get false, .turn, .turn, .fire 100, .turn, .fire 200, .turn, .fire 400, .turn]
    let q := p.after
      [.setDialer fun _ => .answer 0 none, .get false, .turn, .fire 60000, .get false, .turn]
    max o.poolSize 1 ≤ p.dialFailures ∧ p.probes = 0 ∧ p.ordinaryDials = 0 ∧ q.closed = false ∧
      q.size < o.maxActive ∧ q.attemptCount = p.attemptCount ∧ q.dialFailures = p.dialFailures ∧
      q.probes = 0 ∧ q.ordinaryDials = 0 ∧
      (q.closed = false → (0 < o.maxActive → q.size < o.maxActive) →
        ∀ get, q.dialFor get = q.freeSlot.fail get p.circuitFault) :=
  ⟨by decide +kernel, by decide +kernel, by decide +kernel, by decide +kernel, by decide +kernel,
    outage_lasts ((Reachable.create _ _ _).after _) (by decide +kernel) (by decide +kernel)
      (by decide +kernel) _⟩

end PooledRouting.Pool
