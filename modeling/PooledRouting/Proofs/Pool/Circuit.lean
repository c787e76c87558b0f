import PooledRouting.Proofs.Pool.Attempts

/-!
# The dial circuit and its probe

When enough dials have failed the circuit of a pool is open, and a probe
is out that redials the backend.  There are two laws.

* A pool has at most one probe, and its mark `probing` is set just while
  the probe is out (`Watched`).  Nothing but the end of the probe takes
  the mark off, and a failed dial sends a probe out only when the mark is
  not set.
* With retries without limit an open pool whose circuit is open has a probe
  out (`Guarded`).  A probe whose retries are limited may end with the
  circuit still open, which is what `Proofs.Pool.Outage` is about.

`one_probe` puts the two together for the states between two turns.
-/

namespace PooledRouting.Pool

/-! ## Probes, counted -/

namespace Work

/-- The task is the probe, and about to dial. -/
def isProbeTurn : Work → Bool
  | .probe _ => true
  | _ => false

/-- The task is the probe, and dials. -/
def isProbeDial : Work → Bool
  | .dialed (.probe _) _ _ => true
  | _ => false

/-- The task is the probe. -/
def isProbe (w : Work) : Bool :=
  w.isProbeTurn || w.isProbeDial

end Work

/-- The probes that are out: they can go on, dial or pause. -/
def probes (p : Pool) : Nat :=
  p.tasks.countP Work.isProbe + p.naps.length

/-- The probe in hand. -/
def Hand.probes : Hand → Nat
  | .work w => if w.isProbe then 1 else 0
  | .calling (.probe _) => 1
  | .retiring _ next | .looking next => next.probes
  | _ => 0

/-- There is one probe if the mark is set, and none otherwise. -/
def Watched (p : Pool) (h : Hand) : Prop :=
  p.probes + h.probes = p.probing.toNat

variable {p q : Pool} {h k : Hand} {id : ConnectionId}

theorem steady_isProbeDial : Steady Work.isProbeDial :=
  ⟨fun c _ _ => by cases c <;> rfl, fun _ => rfl, fun _ => rfl⟩

/-- The turns of the probe are not steady, since the clock and a shutdown
bring them on; the rest of the count is. -/
theorem probes_eq (p : Pool) : p.probes =
    p.ready.countP Work.isProbeTurn + p.tasks.countP Work.isProbeDial + p.naps.length := by
  have hsum : ∀ ws : List Work, ws.countP Work.isProbe =
      ws.countP Work.isProbeTurn + ws.countP Work.isProbeDial := by
    intro ws
    induction ws with
    | nil => rfl
    | cons w ws ih =>
      have hw : (if w.isProbe then 1 else 0) =
          (if w.isProbeTurn then 1 else 0) + if w.isProbeDial then 1 else 0 := by
        cases w with
        | dialed caller attempt fault => cases caller <;> rfl
        | _ => rfl
      simp only [List.countP_cons]
      omega
  have hdials : (p.dials.map Dial.work).countP Work.isProbeTurn = 0 := by
    rw [List.countP_eq_zero]
    intro w hw
    obtain ⟨d, -, rfl⟩ := List.mem_map.1 hw
    simp [Dial.work, Work.isProbeTurn]
  unfold probes tasks
  simp only [List.countP_append, hsum, hdials]
  omega

theorem probes_congr (hready : q.ready.countP Work.isProbeTurn = p.ready.countP Work.isProbeTurn)
    (htasks : q.tasks.countP Work.isProbeDial = p.tasks.countP Work.isProbeDial)
    (hnaps : q.naps = p.naps) : q.probes = p.probes := by
  rw [probes_eq, probes_eq, hready, htasks, hnaps]

/-! ## How the count changes -/

theorem probes_enqueue (p : Pool) (w : Work) :
    (p.enqueue w).probes = p.probes + (Hand.work w).probes := by
  have htasks : (p.enqueue w).tasks.countP Work.isProbe =
      p.tasks.countP Work.isProbe + (Hand.work w).probes := countP_tasks_enqueue p w
  show (p.enqueue w).tasks.countP Work.isProbe + p.naps.length = _
  unfold probes
  omega

theorem probes_take {w : Work} {rest : List Work} (hready : p.ready = w :: rest) :
    p.probes = { p with ready := rest }.probes + (Hand.work w).probes := by
  have htasks : p.tasks.countP Work.isProbe =
      { p with ready := rest }.tasks.countP Work.isProbe + (Hand.work w).probes :=
    countP_tasks_take hready
  show _ = { p with ready := rest }.tasks.countP Work.isProbe + p.naps.length + _
  unfold probes
  omega

theorem probes_dial (p : Pool) (d : Dial) :
    { p with dials := p.dials ++ [d] }.probes = p.probes + (Hand.calling d.caller).probes := by
  have hd : (Hand.calling d.caller).probes = if d.work.isProbe then 1 else 0 := by
    unfold Dial.work
    cases d.caller <;> rfl
  have htasks := countP_tasks_dial (P := Work.isProbe) p d
  show { p with dials := p.dials ++ [d] }.tasks.countP Work.isProbe + p.naps.length = _
  unfold probes
  omega

theorem probes_topUp (p : Pool) : p.topUp.probes = p.probes := by
  have htasks : p.topUp.tasks.countP Work.isProbe = p.tasks.countP Work.isProbe :=
    countP_tasks_topUp p
  exact congrArg (· + p.naps.length) htasks

theorem probes_freeSlot (p : Pool) : p.freeSlot.probes = p.probes := by
  rcases freeSlot_cases p with ⟨-, hfree⟩ | ⟨w, rest, -, hfree⟩
  · rw [hfree]
    rfl
  · rw [hfree, probes_enqueue]
    rfl

theorem probes_cancel (p : Pool) (get : Nat) : (p.cancel get).probes = p.probes := by
  refine probes_congr ?_ (countP_tasks_cancel steady_isProbeDial p get) ?_
  · unfold cancel
    split
    · rfl
    · dsimp only
      split
      · simp [enqueue, Work.isProbeTurn]
      · rfl
  · rw [cancel_frame]

theorem probes_resolve {attempt : Nat}
    (hone : p.dials.countP (fun d => d.attempt == attempt) ≤ 1) (fault : Option String) :
    (p.resolve attempt fault).2.probes = p.probes := by
  refine probes_congr ?_ (countP_tasks_resolve steady_isProbeDial p attempt fault hone) ?_
  · unfold resolve
    split
    · rfl
    · simp [enqueue, Work.isProbeTurn]
  · rw [resolve_frame]

private theorem countP_isProbeTurn_naps (ns : List Nap) :
    (ns.map fun n => Work.probe n.tries).countP Work.isProbeTurn = ns.length := by
  rw [List.countP_map, List.countP_eq_length]
  intro n _
  rfl

private theorem countP_isProbeTurn_dueWork (time : Nat) (ds : List Dial) :
    (ds.filterMap fun d => d.dueWork? time).countP Work.isProbeTurn = 0 := by
  rw [List.countP_eq_zero]
  intro w hw
  obtain ⟨d, -, hd⟩ := List.mem_filterMap.1 hw
  obtain ⟨fault, rfl⟩ := Dial.eq_dialed_of_dueWork? hd
  exact Bool.false_ne_true

/-- A pause that is over becomes a turn. -/
theorem probes_fire (p : Pool) (time : Nat) : (p.fire time).probes = p.probes := by
  have htasks := countP_tasks_fire steady_isProbeDial p time
  have hline : ((p.line.filter fun w => w.deadline ≤ time).map
      fun w => Work.recheck w.get).countP Work.isProbeTurn = 0 := by
    simp [Work.isProbeTurn]
  have hwoken := countP_isProbeTurn_naps (p.naps.filter fun n => n.wake ≤ time)
  have hnaps : (p.naps.filter fun n => n.wake ≤ time).length +
      (p.naps.filter fun n => time < n.wake).length = p.naps.length := by
    induction p.naps with
    | nil => rfl
    | cons n ns ih =>
      by_cases hn : n.wake ≤ time
      · have hlt : ¬time < n.wake := by omega
        simp only [List.filter_cons, hn, hlt, decide_true, decide_false, if_true,
          Bool.false_eq_true, if_false, List.length_cons]
        omega
      · have hlt : time < n.wake := by omega
        simp only [List.filter_cons, hn, hlt, decide_true, decide_false, if_true,
          Bool.false_eq_true, if_false, List.length_cons]
        omega
  have hdue := countP_isProbeTurn_dueWork time p.dials
  rw [probes_eq, probes_eq, htasks]
  simp only [fire, List.countP_append, hline, hwoken, hdue]
  omega

/-- A shutdown gives the probe its last turn. -/
theorem probes_shutDown (p : Pool) : p.shutDown.probes = p.probes := by
  have htasks := countP_tasks_shutDown steady_isProbeDial p
  have hline : p.line.countP (fun w => (Work.refused w.get).isProbeDial) = 0 :=
    List.countP_eq_zero.2 fun _ _ => by simp [Work.isProbeDial]
  have hrefused : (p.line.map fun w => Work.refused w.get).countP Work.isProbeTurn = 0 := by
    simp [Work.isProbeTurn]
  have hturns : p.probeTurns.countP Work.isProbeTurn =
      p.naps.length + (p.dials.filter Dial.isProbe).countP (Work.isProbeDial ∘ Dial.work) := by
    unfold probeTurns
    rw [List.countP_append, countP_isProbeTurn_naps]
    congr 1
    induction p.dials with
    | nil => rfl
    | cons d ds ih =>
      cases hc : d.caller with
      | probe tries =>
        simp [hc, Dial.isProbe, Dial.work, Work.isProbeTurn, Work.isProbeDial,
          List.countP_cons] at ih ⊢
        omega
      | _ => simpa [hc, Dial.isProbe] using ih
  rw [probes_eq, probes_eq]
  simp only [shutDown, List.countP_append, hturns, hrefused, List.length_nil] at htasks ⊢
  omega

theorem probes_noteDialFailure (p : Pool) (reason : String) :
    (p.noteDialFailure reason).probes + p.probing.toNat =
      p.probes + (p.noteDialFailure reason).probing.toNat := by
  rcases noteDialFailure_cases p reason with h | ⟨-, hout, h⟩
  · rw [h]
    rfl
  · have hnew := probes_enqueue { p with
      lastDialFault := some (.dial reason), dialFailures := p.dialFailures + 1, probing := true }
      (.probe 0)
    rw [h, hout]
    exact hnew

/-! ## One probe at most -/

theorem Retires.probes_eq {f : Counters → Counters} (hr : Retires p id h f k) :
    k.probes = h.probes := by
  cases hr with
  | _ => rfl

/-- The end of the probe takes its mark off. -/
theorem Watched.endProbe {w : Work} (hw : Watched p (.work w)) (hprobe : w.isProbe = true) :
    Watched p.endProbe .done := by
  have hone : (Hand.work w).probes = 1 := if_pos hprobe
  have hout : p.probing.toNat ≤ 1 := Bool.toNat_le p.probing
  unfold Watched at hw
  show p.probes + 0 = 0
  omega

theorem Watched.act (hw : Watched p h) (hn : Attempts p h) (ha : Act p h q k) :
    Watched q k := by
  have hsame : q.probes = p.probes → k.probes = h.probes → q.probing = p.probing →
      Watched q k := by
    intro hprobes hhand hmark
    unfold Watched
    rw [hprobes, hhand, hmark]
    exact hw
  -- A failed dial sends a probe out together with its mark.
  have hnoted : ∀ reason : String, p.probes + 0 = p.probing.toNat →
      (p.noteDialFailure reason).probes + 0 = (p.noteDialFailure reason).probing.toNat := by
    intro reason hnone
    have hnote := probes_noteDialFailure p reason
    omega
  cases ha with
  | get cancelled => exact hsame (probes_enqueue _ (.arrive _)) rfl rfl
  | cancel get => exact hsame (probes_cancel p get) rfl (by rw [cancel_frame])
  | resolve attempt fault =>
    exact hsame (probes_resolve (hn.dials_le attempt) fault) rfl (by rw [resolve_frame])
  | fire ms => exact hsame (probes_fire p _) rfl rfl
  | closeConnection _ _ | shutNext _ | retire _ | adoptLate _ | adoptIdleLate _ =>
    rw [closeConnection_frame]
    exact hw
  | shutDown _ => exact hsame (probes_shutDown p) rfl rfl
  | take hready =>
    rename_i w rest
    have htake := probes_take hready
    have hstart : p.probes + 0 = p.probing.toNat := hw
    show { p with ready := rest }.probes + (Hand.work w).probes = p.probing.toNat
    omega
  | answered _ =>
    rename_i caller fault _
    cases caller <;> exact hw
  | underWay _ _ =>
    rename_i caller due _ _
    have hdial := probes_dial p ⟨p.attemptCount + 1, caller, due⟩
    have hcalling : p.probes + (Hand.calling caller).probes = p.probing.toNat := hw
    show { p with dials := p.dials ++ [Dial.mk (p.attemptCount + 1) caller due] }.probes + 0 =
      p.probing.toNat
    rw [hdial]
    exact hcalling
  | dialFailed _ | dialFailedLate _ =>
    rename_i reason _
    exact hnoted reason hw
  | topUpFailed =>
    rename_i reason
    exact hnoted reason hw
  | finish => exact hsame (probes_freeSlot p) rfl (by rw [freeSlot_frame])
  | fail => exact hsame (probes_freeSlot p) rfl (by rw [freeSlot_frame]; rfl)
  | checkIn => exact hsame (probes_freeSlot _) rfl (by rw [freeSlot_frame]; rfl)
  | probeOff _ => exact hw.endProbe rfl
  | probeDropped _ => exact hw.endProbe rfl
  | probeReached => exact hw.endProbe rfl
  | probeGaveUp _ => exact hw.endProbe rfl
  | probeAgain _ _ =>
    rename_i tries attempt reason _ _
    have hnew := probes_enqueue { p with lastDialFault := some (.dial reason) } (.probe tries)
    exact hnew.trans hw
  | probeNap _ _ _ =>
    have hone : p.tasks.countP Work.isProbe + p.naps.length + 1 = p.probing.toNat := hw
    show p.tasks.countP Work.isProbe + (p.naps ++ [_]).length + 0 = p.probing.toNat
    rw [List.length_append, List.length_singleton]
    omega
  | strike hr _ =>
    refine hsame ?_ hr.probes_eq ?_
    · rw [strike_eq]
      rfl
    · rw [strike_eq]
      rfl
  | pass hr _ | refuseRemoval hr _ => exact hsame rfl hr.probes_eq rfl
  | look => exact hsame (probes_topUp p) rfl rfl
  | _ => exact hw

variable {o : Options}

theorem Arises.watched (hp : Arises o p h) : Watched p h := by
  induction hp with
  | create dialer now background =>
    cases background with
    | false => rfl
    | true => exact probes_topUp (Pool.create o dialer now false)
  | act hp ha ih => exact ih.act hp.attempts ha
  | next _ ih | mark _ _ _ ih | release _ _ ih => exact ih

/-! ## A probe while the circuit is open -/

/-- With retries without limit an open pool has a probe out while its
circuit is open. -/
def Guarded (p : Pool) : Prop :=
  p.closed = false → p.options.dialRetry.maxRetries = Backoff.unboundedRetries →
    p.circuitOpen = true → p.probing = true

theorem circuitOpen_of_dialFailures (h : p.dialFailures = 0) : p.circuitOpen = false := by
  unfold circuitOpen Options.dialThreshold
  rw [h]
  simp

/-- The failure that opens the circuit finds a probe out or sends one. -/
theorem probing_noteDialFailure {reason : String}
    (h : (p.noteDialFailure reason).circuitOpen = true) :
    (p.noteDialFailure reason).probing = true := by
  unfold noteDialFailure at h ⊢
  dsimp only at h ⊢
  split
  · rfl
  · rename_i hno
    rw [if_neg hno] at h
    cases hout : p.probing with
    | true => rfl
    | false => exact absurd ⟨h, hout⟩ hno

/-- Retries without limit are never used up. -/
theorem not_gaveUp {tries : UInt32} {attempt : Nat} (hopen : p.closed = false)
    (hretry : p.options.dialRetry.maxRetries = Backoff.unboundedRetries) :
    ¬(p.closed = true ∨ p.pauseAfter? tries attempt = none) := by
  rintro (hclosed | hnone)
  · cases hopen.symm.trans hclosed
  · have hsome := Backoff.pauseAfter?_unbounded hretry tries (p.pauses.drawn attempt)
    rw [Option.map_eq_none_iff.1 hnone] at hsome
    cases hsome

theorem Guarded.act (hg : Guarded p) (ha : Act p h q k) : Guarded q := by
  -- A dial that succeeds closes the circuit.
  have hreset : q.dialFailures = 0 → Guarded q := by
    intro hzero _ _ hcircuit
    rw [circuitOpen_of_dialFailures hzero] at hcircuit
    cases hcircuit
  cases ha with
  | cancel get =>
    rw [cancel_frame]
    exact hg
  | resolve attempt fault =>
    rw [resolve_frame]
    exact hg
  | closeConnection _ _ | shutNext _ | retire _ =>
    rw [closeConnection_frame]
    exact hg
  | shutDown _ => exact nofun
  | adopt _ | adoptIdle _ | probeReached => exact hreset rfl
  | adoptLate _ | adoptIdleLate _ =>
    rw [closeConnection_frame] at hreset ⊢
    exact hreset rfl
  | dialFailed _ | dialFailedLate _ | topUpFailed => exact fun _ _ => probing_noteDialFailure
  | finish | fail | checkIn =>
    rw [freeSlot_frame]
    exact hg
  | probeOff hclosed | probeDropped hclosed =>
    intro hopen
    cases hclosed.symm.trans hopen
  | probeGaveUp hend => exact fun hopen hretry _ => absurd hend (not_gaveUp hopen hretry)
  | strike _ _ =>
    rw [strike_eq]
    exact hg
  | _ => exact hg

theorem Arises.guarded (hp : Arises o p h) : Guarded p := by
  induction hp with
  | create dialer now background =>
    intro _ _ hcircuit
    rw [circuitOpen_of_dialFailures (by cases background <;> rfl)] at hcircuit
    cases hcircuit
  | act _ ha ih => exact ih.act ha
  | next _ ih | mark _ _ _ ih | release _ _ ih => exact ih

/-- Whatever callers and hooks do, at most one probe is out, and the mark is set
just while one is.  With retries without limit a probe is out in every
open pool in which as many dials have failed as open the circuit. -/
theorem one_probe (hp : Attained o p) :
    p.probes ≤ 1 ∧ (p.probing = true ↔ p.probes = 1) ∧
      (o.dialRetry.maxRetries = Backoff.unboundedRetries → p.closed = false →
        max o.poolSize 1 ≤ p.dialFailures → p.probes = 1) := by
  have hwatched : p.probes + 0 = p.probing.toNat := hp.arises.watched
  have hguarded := hp.arises.guarded
  have hoptions := hp.arises.options_eq
  refine ⟨?_, ?_, fun hretry hopen hfailures => ?_⟩
  · have hle := Bool.toNat_le p.probing
    omega
  · cases hmark : p.probing with
    | true =>
      rw [hmark] at hwatched
      exact ⟨fun _ => hwatched, fun _ => rfl⟩
    | false =>
      rw [hmark] at hwatched
      refine ⟨nofun, fun hone => ?_⟩
      cases hwatched.symm.trans hone
  · have hcircuit : p.circuitOpen = true := by
      unfold circuitOpen Options.dialThreshold
      rw [hoptions]
      exact decide_eq_true hfailures
    have hmark := hguarded hopen (by rw [hoptions]; exact hretry) hcircuit
    rw [hmark] at hwatched
    exact hwatched

/-- A dial in flight succeeds while the probe is out, and the circuit opens
again with the same probe. -/
theorem one_probe_reopened :
    let p := (create { poolSize := 2, minIdle := 0 } (fun _ => .held) 0 true).undergoAll
      (List.map Deed.move
        [.get false, .turn, .get false, .turn, .resolve 1 (some "refused"), .turn,
          .get false, .turn, .resolve 2 (some "refused"), .turn, .turn, .resolve 3 none, .turn,
          .get false, .turn, .resolve 5 (some "refused"), .turn,
          .get false, .turn, .resolve 6 (some "refused"), .turn])
    p.dialFailures = 2 ∧ p.closed = false ∧
      p.probes ≤ 1 ∧ (p.probing = true ↔ p.probes = 1) ∧
      (Backoff.dialProbe.maxRetries = Backoff.unboundedRetries → p.closed = false →
        max 2 1 ≤ p.dialFailures → p.probes = 1) :=
  ⟨by decide +kernel, by decide +kernel, one_probe ((Attained.create _ _ _).undergoAll _)⟩

end PooledRouting.Pool
