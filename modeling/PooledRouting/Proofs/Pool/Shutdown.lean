import PooledRouting.Proofs.Pool.Circuit
import PooledRouting.Proofs.Pool.Closing
import PooledRouting.Proofs.Pool.Leases
import PooledRouting.Proofs.Pool.Stages
import PooledRouting.Proofs.Pool.Step

/-!
# Shutting a pool down

What is under way when a pool is closed goes on only to end.  A closed pool
starts no dial, hands nothing out, and has nobody wait (`ShutDown`); each
`get` that waited has a turn in which it ends (`Refused`); and the turns
that are left run out (`Winding.settles`).

`shut_down` puts these together, with what closing the connections comes
to, for every run that goes on after a pool was closed.  Three things are not
so: `shut_down_past_some` has a `get` that ends otherwise than with `closed`,
one that still waits for its dial, and a connection that is not closed.
-/

namespace PooledRouting.Pool

variable {o : Options} {p q r : Pool} {h k : Hand} {id : ConnectionId} {get : Nat}

/-! ## What a closed pool does no more -/

/-- A dial is about to start. -/
def Hand.isCalling : Hand → Bool
  | .calling _ => true
  | .retiring _ next | .looking next => next.isCalling
  | _ => false

/-- The pool is closed.  Nobody waits, no probe dials or sleeps, and since
the pool was `r` no dial has started, nothing was handed out, and no
connection was counted as stale or invalid. -/
structure ShutDown (r p : Pool) (h : Hand) : Prop where
  closed : p.closed = true
  line : p.line = []
  naps : p.naps = []
  dials : ∀ d ∈ p.dials, d.isProbe = false
  calling : h.isCalling = false
  attempts : p.attemptCount = r.attemptCount
  served : ∀ get id, p.handOuts get id = r.handOuts get id
  stale : p.counters.stale = r.counters.stale
  invalid : p.counters.invalid = r.counters.invalid

/-- Most acts leave all of that alone. -/
theorem ShutDown.congr (hs : ShutDown r p h) (hclosed : q.closed = p.closed)
    (hline : q.line = p.line) (hnaps : q.naps = p.naps) (hdials : q.dials = p.dials)
    (hcalling : k.isCalling = h.isCalling) (hattempts : q.attemptCount = p.attemptCount)
    (hserved : ∀ get id, q.handOuts get id = p.handOuts get id)
    (hstale : q.counters.stale = p.counters.stale)
    (hinvalid : q.counters.invalid = p.counters.invalid) : ShutDown r q k where
  closed := hclosed.trans hs.closed
  line := hline.trans hs.line
  naps := hnaps.trans hs.naps
  dials := hdials ▸ hs.dials
  calling := hcalling.trans hs.calling
  attempts := hattempts.trans hs.attempts
  served get id := (hserved get id).trans (hs.served get id)
  stale := hstale.trans hs.stale
  invalid := hinvalid.trans hs.invalid

theorem Retires.isCalling {f : Counters → Counters} (hr : Retires p id h f k) :
    k.isCalling = h.isCalling := by
  cases hr with
  | _ => rfl

/-- In a closed pool nothing is counted with a connection that goes. -/
theorem Retires.counters_eq {f : Counters → Counters} (hr : Retires p id h f k)
    (hclosed : p.closed = true) (hf : h.Fits p) (c : Counters) :
    (f c).stale = c.stale ∧ (f c).invalid = c.invalid := by
  have hopen : p.closed ≠ false := by simp [hclosed]
  cases hr with
  | removed _ | late _ _ => exact ⟨rfl, rfl⟩
  | expired _ => exact absurd hf.1 hopen
  | stale h _ _ _ _ => exact absurd h hopen
  | invalid _ _ h =>
    rename_i get? _ _ _
    cases get? with
    | none => exact absurd (h rfl) hopen
    | some get => exact absurd (hf.1 rfl) hopen

theorem dials_resolve (p : Pool) (attempt : Nat) (fault : Option String) :
    (p.resolve attempt fault).2.dials ⊆ p.dials := by
  unfold Pool.resolve
  split
  · exact List.Subset.refl _
  · exact List.filter_sublist.subset

theorem ShutDown.act (hs : ShutDown r p h) (hf : h.Fits p) (ha : Act p h q k) :
    ShutDown r q k := by
  have hopen : p.closed ≠ false := by simp [hs.closed]
  have hserved : ∀ get id, q.handOuts get id = p.handOuts get id := by
    refine ha.handOuts_cases.resolve_left ?_
    rintro ⟨get, id, hserves⟩
    cases hserves
    exact hopen (hf.1 rfl)
  -- Nobody joins the line of a closed pool, and nobody is in it.
  have hline : q.line = [] := by
    cases ha.lines with
    | still hline => exact hline.trans hs.line
    | joined _ h _ _ _ _ => exact absurd h hopen
    | handed v hline _ => cases hs.line.symm.trans hline
    | left _ hline _ _ =>
      rw [hline, hs.line]
      rfl
    | shut hq => exact hq ▸ rfl
  have hsame : q.closed = p.closed → q.naps = p.naps → q.dials = p.dials →
      k.isCalling = h.isCalling → q.attemptCount = p.attemptCount →
      q.counters.stale = p.counters.stale → q.counters.invalid = p.counters.invalid →
      ShutDown r q k := fun hclosed hnaps hdials hcalling hattempts hstale hinvalid =>
    hs.congr hclosed (hline.trans hs.line.symm) hnaps hdials hcalling hattempts hserved hstale
      hinvalid
  cases ha with
  | shutDown h | tooLate h _ _ _ | join h _ _ _ | claim h _ _ | accept h _ => exact absurd h hopen
  | pick h _ | miss h _ | reserve h _ _ | callTopUp h _ | callProbe h => exact absurd h hopen
  | adopt h | adoptIdle h | dialFailed h | topUpDenied h _ => exact absurd h hopen
  | probeAgain h _ | probeNap h _ _ | keep h _ _ _ _ => exact absurd h hopen
  | answered _ | underWay _ _ => cases hs.calling
  | timeOut hin =>
    obtain ⟨w, hw, -⟩ := hin
    rw [hs.line] at hw
    cases hw
  | cancel get =>
    rw [cancel_frame] at hsame ⊢
    exact hsame rfl rfl rfl rfl rfl rfl rfl
  | resolve attempt fault =>
    have hdials := dials_resolve p attempt fault
    have hframe := resolve_frame p attempt fault
    rw [hframe] at hserved hline hdials ⊢
    exact { hs with
      line := hline
      dials := fun d hd => hs.dials d (hdials hd)
      served := fun get id => (hserved get id).trans (hs.served get id) }
  | fire ms =>
    exact { hs with
      line := hline
      naps := by
        show p.naps.filter _ = []
        rw [hs.naps]
        rfl
      dials := fun d hd => hs.dials d (List.mem_of_mem_filter hd) }
  | closeConnection _ id | shutNext _ | retire _ | adoptLate _ | adoptIdleLate _ =>
    rw [closeConnection_frame] at hsame ⊢
    exact hsame rfl rfl rfl rfl rfl rfl rfl
  | dialFailedLate _ | topUpFailed =>
    rw [noteDialFailure_frame] at hsame ⊢
    exact hsame rfl rfl rfl rfl rfl rfl rfl
  | finish | fail | checkIn =>
    rw [freeSlot_frame] at hsame ⊢
    exact hsame rfl rfl rfl rfl rfl rfl rfl
  | strike hr _ =>
    have hcount := hr.counters_eq hs.closed hf p.counters
    rw [strike_eq] at hsame ⊢
    exact hsame rfl rfl rfl hr.isCalling rfl hcount.1 hcount.2
  | pass hr _ =>
    have hcount := hr.counters_eq hs.closed hf p.counters
    exact hsame rfl rfl rfl hr.isCalling rfl hcount.1 hcount.2
  | refuseRemoval hr _ =>
    have hcount := hr.counters_eq hs.closed hf p.counters
    exact hsame rfl rfl rfl hr.isCalling rfl hcount.1 hcount.2
  | hit _ => exact absurd hf.1 hopen
  | _ => exact hsame rfl rfl rfl rfl rfl rfl rfl

/-! ## What a closed pool still does -/

theorem shutDown_lasting (ho : o.Unmarking) : Lasting o (ShutDown r) where
  act hp hs ha := hs.act (hp.fits ho) ha
  next hs := { hs with }
  giveBack _ _ hs := { hs with }

/-- All that is so from the moment on at which the pool is closed. -/
theorem shutDown_shutDown (p : Pool) : ShutDown p p.shutDown (.closing p.tracked) where
  closed := rfl
  line := rfl
  naps := rfl
  dials d hd := by
    have hkept := (List.mem_filter.1 hd).2
    simpa using hkept
  calling := rfl
  attempts := rfl
  served _ _ := rfl
  stale := rfl
  invalid := rfl

theorem close_of_open (hopen : p.closed = false) : p.close = p.shutDown.closeAll p.tracked := by
  unfold close
  rw [if_neg (Bool.eq_false_iff.1 hopen)]

/-- And so it is after any moves that come after. -/
theorem Occurs.shutDown (hp : Occurs o p .start) (ho : o.Unmarking) (hopen : p.closed = false)
    (moves : List Move) : ShutDown p (p.close.2.after moves) .start := by
  have hshut := hp.act (.shutDown hopen)
  have hclose := closeAll_acts p.shutDown p.tracked
  have hlasting : Lasting o (ShutDown p) := shutDown_lasting ho
  rw [close_of_open hopen]
  exact hlasting.after (hshut.acts hclose).next
    (hlasting.next (hlasting.acts hshut (shutDown_shutDown p) hclose)) moves

/-- When nothing can move, no probe is out. -/
theorem ShutDown.probes_eq_zero (hs : ShutDown r p h) (hsettled : p.Settled) : p.probes = 0 := by
  have hready : p.ready = [] := hsettled
  have hdials : (p.dials.map Dial.work).countP Work.isProbe = 0 := by
    refine List.countP_eq_zero.2 fun w hw => ?_
    obtain ⟨d, hd, rfl⟩ := List.mem_map.1 hw
    have hprobe := hs.dials d hd
    unfold Dial.isProbe at hprobe
    unfold Dial.work
    cases hcaller : d.caller with
    | get n => exact Bool.false_ne_true
    | topUp => exact Bool.false_ne_true
    | probe tries =>
      rw [hcaller] at hprobe
      cases hprobe
  unfold probes tasks
  rw [hready, List.nil_append, hdials, hs.naps]
  rfl

/-- The `get` has a turn in which it ends, or it has ended: with `closed`,
or with `cancelled` if its token has fired. -/
def Refused (get : Nat) (p : Pool) (h : Hand) : Prop :=
  (.refused get ∈ p.ready ∨ h = .work (.refused get)) ∨
    .failed get .closed ∈ p.history ∨ get ∈ p.fired ∧ .failed get .cancelled ∈ p.history

theorem Refused.act (hr : Refused get p h) (ha : Act p h q k) : Refused get q k := by
  rcases hr with (hready | rfl) | hended | ⟨hfired, hended⟩
  · exact .inl (ha.mem_ready hready)
  · cases ha with
    | refuse =>
      right
      split
      · rename_i hfired
        exact .inr ⟨hfired, List.mem_cons_self⟩
      · exact .inl List.mem_cons_self
    | touch _ _ => exact .inl (.inr rfl)
    | closeConnection _ _ => exact .inl (.inr rfl)
    | strike hr _ | pass hr _ | refuseRemoval hr _ => nomatch hr
  · exact .inr (.inl (ha.mem_history hended))
  · exact .inr (.inr ⟨ha.fired_subset hfired, ha.mem_history hended⟩)

/-- When nothing can move, it has ended. -/
theorem Refused.of_settled (hr : Refused get p .start) (hsettled : p.Settled) :
    .failed get .closed ∈ p.history ∨ get ∈ p.fired ∧ .failed get .cancelled ∈ p.history := by
  refine hr.resolve_left ?_
  rintro (hready | hwork)
  · rw [show p.ready = [] from hsettled] at hready
    cases hready
  · cases hwork

theorem refused_lasting (get : Nat) : Lasting o (Refused get) where
  act _ hr ha := hr.act ha
  next hr := hr.imp_left (Or.imp_right nofun)
  giveBack _ _ hr := hr.imp_left (Or.imp_right nofun)

/-- So it is with every `get` in the line of a pool that is closed. -/
theorem Occurs.refused (hp : Occurs o p .start) (hopen : p.closed = false) {w : Waiting}
    (hw : w ∈ p.line) (moves : List Move) : Refused w.get (p.close.2.after moves) .start := by
  have hshut := hp.act (.shutDown hopen)
  have hclose := closeAll_acts p.shutDown p.tracked
  have hlasting : Lasting o (Refused w.get) := refused_lasting w.get
  have hrefused : Refused w.get p.shutDown (.closing p.tracked) :=
    .inl (.inl (List.mem_append_right _ (List.mem_map_of_mem hw)))
  rw [close_of_open hopen]
  exact hlasting.after (hshut.acts hclose).next
    (hlasting.next (hlasting.acts hshut hrefused hclose)) moves

/-! ## The turns that are left -/

/-- The turns that a task may still take when its pool is closed: a dial
that fails may send out the probe once more. -/
def Work.turnsLeft : Work → Nat
  | .dialed (.get _) _ _ | .dialed .topUp _ _ => 2
  | _ => 1

theorem Work.turnsLeft_pos (w : Work) : 1 ≤ w.turnsLeft := by
  unfold turnsLeft
  split <;> omega

theorem Work.turnsLeft_eq (w : Work) :
    w.turnsLeft = 1 + if w.isOrdinaryDial then 1 else 0 := by
  cases w with
  | dialed caller attempt fault => cases caller <;> rfl
  | _ => rfl

/-- One for each task, and one more for each dial that may fail. -/
def turnsLeft (p : Pool) : Nat :=
  p.ready.length + p.ready.countP Work.isOrdinaryDial

theorem turnsLeft_of_ready {w : Work} {rest : List Work} (hready : p.ready = w :: rest) :
    p.turnsLeft = w.turnsLeft + { p with ready := rest }.turnsLeft := by
  unfold turnsLeft
  rw [hready, List.length_cons, List.countP_cons, w.turnsLeft_eq]
  dsimp only
  omega

/-- Nobody waits in a closed pool, and so many turns are left. -/
structure Winding (p : Pool) (turns : Nat) : Prop where
  closed : p.closed = true
  line : p.line = []
  left : p.turnsLeft ≤ turns

namespace Winding

variable {m turns : Nat}

theorem mono (hw : Winding p m) (hle : m ≤ turns) : Winding p turns :=
  { hw with left := Nat.le_trans hw.left hle }

theorem fail (hw : Winding p turns) (get : Nat) (fault : Fault) : Winding (p.fail get fault) turns :=
  { hw with }

theorem connect (hw : Winding p turns) (caller : Caller) (attempt : Nat) :
    Winding (p.connect caller attempt) turns :=
  { hw with }

theorem freeSlot (hw : Winding p turns) : Winding p.freeSlot turns := by
  unfold Pool.freeSlot
  rw [hw.line]
  exact { hw with line := rfl }

theorem leave (hw : Winding p turns) (get : Nat) (fault : Fault) :
    Winding (p.freeSlot.fail get fault) turns :=
  hw.freeSlot.fail get fault

theorem closeConnection (hw : Winding p turns) (id : ConnectionId) :
    Winding (p.closeConnection id).2 turns := by
  rw [closeConnection_frame]
  exact { hw with }

theorem noteDialFailure (hw : Winding p turns) (reason : String) :
    Winding (p.noteDialFailure reason) (turns + 1) := by
  have hleft := hw.left
  rcases noteDialFailure_cases p reason with hnoted | ⟨-, -, hnoted⟩
  · rw [hnoted]
    exact ⟨hw.closed, hw.line, Nat.le_succ_of_le hleft⟩
  · rw [hnoted]
    refine ⟨hw.closed, hw.line, ?_⟩
    have hprobe : (p.ready ++ [Work.probe 0]).countP Work.isOrdinaryDial =
        p.ready.countP Work.isOrdinaryDial := by
      rw [List.countP_append]
      rfl
    show (p.ready ++ [Work.probe 0]).length + _ ≤ turns + 1
    unfold turnsLeft at hleft
    rw [hprobe, List.length_append, List.length_singleton]
    omega

theorem endGetDial (hw : Winding p turns) (get attempt : Nat) (fault : Option String) :
    Winding (p.endGetDial get attempt fault) (turns + 1) := by
  unfold Pool.endGetDial
  cases fault with
  | none =>
    have hconnect := (hw.connect (.get get) attempt).mono (Nat.le_succ turns)
    dsimp only
    rw [if_pos hconnect.closed]
    exact (hconnect.closeConnection (.dialed attempt)).leave get .closed
  | some reason =>
    have hnoted := hw.noteDialFailure reason
    dsimp only
    rw [if_pos hnoted.closed]
    exact hnoted.leave get (.dial reason)

theorem endTopUp (hw : Winding p turns) (attempt : Nat) (fault : Option String) :
    Winding (p.endTopUp attempt fault) (turns + 1) := by
  unfold Pool.endTopUp
  cases fault with
  | none =>
    have hconnect := (hw.connect .topUp attempt).mono (Nat.le_succ turns)
    dsimp only
    rw [if_pos hconnect.closed]
    exact (hconnect.closeConnection (.dialed attempt)).freeSlot
  | some reason =>
    have hnoted := hw.noteDialFailure reason
    exact freeSlot { hnoted with }

/-- A turn in a closed pool leaves fewer turns. -/
theorem perform {w : Work} (hw : Winding p turns) :
    Winding (p.perform w) (turns + w.turnsLeft - 1) := by
  have hstay : Winding p (turns + w.turnsLeft - 1) :=
    hw.mono (Nat.le_sub_of_add_le (Nat.add_le_add_left w.turnsLeft_pos turns))
  have hclosed := hw.closed
  cases w with
  | arrive get =>
    show Winding (p.arrive get) _
    unfold arrive
    rw [if_pos hclosed]
    exact hstay.fail get .closed
  | admitted get =>
    show Winding (p.resume get) _
    unfold resume
    rw [if_pos hclosed]
    split
    · exact hstay.leave get .cancelled
    · exact hstay.leave get .closed
  | refused get => exact hstay.fail get _
  | recheck get =>
    show Winding (p.recheck get) _
    unfold recheck
    rw [hw.line]
    exact hstay
  | topUp =>
    show Winding p.startTopUp _
    unfold startTopUp
    rw [if_pos hclosed]
    exact hstay.freeSlot
  | probe tries =>
    show Winding (p.startProbeTry tries) _
    unfold startProbeTry
    rw [if_pos hclosed]
    exact { hstay with }
  | dialed caller attempt fault =>
    cases caller with
    | get number => exact hw.endGetDial number attempt fault
    | topUp => exact hw.endTopUp attempt fault
    | probe tries =>
      show Winding (if p.closed then p.endProbe else p.endProbeTry tries attempt fault) _
      rw [if_pos hclosed]
      exact { hstay with }

theorem step (hw : Winding p (turns + 1)) : Winding p.step turns := by
  cases hready : p.ready with
  | nil =>
    rw [step_of_settled hready]
    refine ⟨hw.closed, hw.line, ?_⟩
    unfold turnsLeft
    rw [hready]
    exact Nat.zero_le _
  | cons w rest =>
    have hleft := hw.left
    rw [turnsLeft_of_ready hready] at hleft
    have hrest : Winding { p with ready := rest } (turns + 1 - w.turnsLeft) :=
      ⟨hw.closed, hw.line, by omega⟩
    rw [step_of_ready hready]
    exact hrest.perform.mono (by omega)

/-- The turns of a closed pool come to an end. -/
theorem settles (hw : Winding p turns) : (run turns p).Settled := by
  induction turns generalizing p with
  | zero =>
    cases hready : p.ready with
    | nil => exact hready
    | cons w rest =>
      have hleft := hw.left
      have hpos := w.turnsLeft_pos
      rw [turnsLeft_of_ready hready] at hleft
      omega
  | succ turns ih =>
    unfold run
    split
    · rename_i hempty
      exact List.isEmpty_iff.1 hempty
    · exact ih hw.step

end Winding

/-! ## Giving back to a closed pool -/

/-- A connection that is given back to a closed pool is closed. -/
theorem release_of_closed (hclosed : p.closed = true) (htracked : p.tracked = [])
    (hidle : p.idle = []) (hheld : p.isInUse id = true) :
    ∃ c, (p.release id).connection? id = some c ∧ c.inUse = false ∧ c.closed = true := by
  have hmark : ∀ c : Connection, c.id = id → (c.mark p.now false).id = id :=
    fun c hc => (Connection.mark_id c p.now false).trans hc
  obtain ⟨c, hc, -⟩ := isInUse_eq_true_iff.1 hheld
  have hfree : (p.mark id false).isInUse id = false := by
    rw [isInUse_mark_false]
    simp
  have hput : (p.mark id false).connection? id = some (c.mark p.now false) := by
    unfold mark
    rw [connection?_modify_self hmark, hc]
    rfl
  have hundone : ((p.mark id false).closeTransport id).2.Undone id := by
    refine undone_closeTransport hput hfree ?_ ?_
    · rw [show (p.mark id false).tracked = [] from htracked]
      exact List.not_mem_nil
    · rw [show (p.mark id false).idle = [] from hidle]
      exact List.not_mem_nil
  have hrecycle : (p.mark id false).recycle id = ((p.mark id false).closeTransport id).2 := by
    have hnot : id ∉ (p.mark id false).tracked := by
      rw [show (p.mark id false).tracked = [] from htracked]
      exact List.not_mem_nil
    unfold recycle remove untrack
    simp [show (p.mark id false).closed = true from hclosed, hfree, hnot]
  have hrelease : (p.release id).connection? id =
      ((p.mark id false).closeTransport id).2.connection? id := by
    unfold release
    rw [if_pos hheld]
    show (((p.mark id false).recycle id).count Counters.checkIn).freeSlot.connection? id = _
    rw [freeSlot_frame, hrecycle]
    rfl
  obtain ⟨d, hd, hunmarked, ⟨-, hin, -⟩ | ⟨hshut, -, -⟩⟩ := hundone
  · rw [closeTransport_frame, show (p.mark id false).tracked = [] from htracked] at hin
    cases hin
  · exact ⟨d, hrelease.trans hd, hunmarked, hshut⟩

/-- Closing a pool fires no token. -/
theorem fired_close (hopen : p.closed = false) : p.close.2.fired = p.fired := by
  obtain ⟨connections, history, hframe⟩ := closeAll_frame p.shutDown p.tracked
  rw [close_of_open hopen, hframe]
  rfl

/-- What comes of closing the pool `p`: `r` is the pool right after that, and
`q` after any moves that follow. -/
structure ClosesDown (p r q : Pool) : Prop where
  /-- The first failure is reported. -/
  result : p.close.1 = outcome (p.tracked.filterMap p.closeFailure?).head?
  /-- The tracked connections that are not held, nor closed already, are closed
  in the order of tracking. -/
  closings : r.history = ((p.tracked.filter p.closes).map Event.transportClosed).reverse ++ p.history
  /-- Nothing else happens to the connections. -/
  connections : ∀ id, r.connection? id = (p.connection? id).map fun c =>
    if id ∈ p.tracked ∧ c.inUse = false then { c with closed := true } else c
  /-- The turns that are left come to an end. -/
  settles : ∃ turns, (run turns q).Settled
  idle_tasks : q.Settled → q.line = [] ∧ q.probes = 0
  /-- Whoever waited for a slot has ended with `closed`, unless its own token
  has fired. -/
  turned_away : q.Settled → ∀ w ∈ p.line, .failed w.get .closed ∈ q.history ∨
    w.get ∈ q.fired ∧ .failed w.get .cancelled ∈ q.history
  /-- So no `get` is excepted that waited when nothing could move. -/
  all_turned_away : p.Settled → ∀ turns, (run turns r).Settled → ∀ w ∈ p.line,
    .failed w.get .closed ∈ (run turns r).history
  tracked : q.tracked = []
  idle : q.idle = []
  attempts : q.attemptCount = p.attemptCount
  handOuts : ∀ get id, q.handOuts get id = p.handOuts get id
  stale : q.counters.stale = p.counters.stale
  invalid : q.counters.invalid = p.counters.invalid
  released : ∀ id, q.isInUse id = true →
    ∃ c, (q.release id).connection? id = some c ∧ c.inUse = false ∧ c.closed = true
  again : q.close = (.error .closed, q)

/-- Closing a pool goes through the tracked connections in the order of
tracking.  It closes those that are not held, leaves the others alone, and
reports the first failure.  Then, whatever moves follow:

* the turns that are left come to an end, and when they have, nobody waits
  for a slot and no probe is out.  Every `get` that waited when the settled pool
  was closed has then ended with `closed`; at any other time there may be some
  whose own token has fired, and these have ended with `cancelled`;
* the lists stay empty, no dial starts, no `get` ends with a connection,
  nothing is counted as stale or invalid, a connection that is given back
  is closed, and closing the pool again does nothing. -/
theorem shut_down (ho : o.Unmarking) (hp : Reachable o p) (hopen : p.closed = false)
    (moves : List Move) : ClosesDown p p.close.2 (p.close.2.after moves) := by
  set r := p.close.2 with hr
  set q := r.after moves
  have hocc := hp.occurs
  have hroster := hocc.roster ho
  have hunique : p.shutDown.Unique := hocc.unique
  have hq : Occurs o q .start := ((hp.move .close).after moves).occurs
  have hshut : ShutDown p q .start := hocc.shutDown ho hopen moves
  have hclose : p.close = p.shutDown.closeAll p.tracked := close_of_open hopen
  have htracked : q.tracked = [] := (hq.roster ho).closed_empty hshut.closed
  have hidle : q.idle = [] := by
    refine List.eq_nil_iff_forall_not_mem.2 fun id hin => ?_
    have hlisted := (hq.roster ho).idle_tracked id hin
    rw [htracked] at hlisted
    cases hlisted
  constructor
  case result =>
    rw [hclose]
    exact closeAll_result hunique hroster.tracked_nodup
  case closings =>
    rw [hr, hclose]
    exact closeAll_history hunique hroster.tracked_nodup
  case connections =>
    intro id
    rw [hr, hclose]
    exact closeAll_connection? hunique hroster.tracked_nodup id
  case settles =>
    exact ⟨q.turnsLeft, Winding.settles ⟨hshut.closed, hshut.line, Nat.le_refl _⟩⟩
  case idle_tasks => exact fun hsettled => ⟨hshut.line, hshut.probes_eq_zero hsettled⟩
  case turned_away =>
    exact fun hsettled w hw => (hocc.refused hopen hw moves).of_settled hsettled
  case all_turned_away =>
    intro hbefore turns hsettled w hw
    -- No token fires in the turns that are left.
    have hfired : (run turns r).fired = p.fired :=
      ((hp.move .close).fired_run turns).trans (fired_close hopen)
    obtain ⟨made, hrun⟩ := run_eq_after turns r
    have hended : Refused w.get (run turns r) .start := by
      rw [hrun]
      exact hocc.refused hopen hw made
    refine (hended.of_settled hsettled).resolve_right fun hcancelled => ?_
    rw [hfired] at hcancelled
    exact (hocc.arises.asleep hbefore hw).2 hcancelled.1
  case tracked => exact htracked
  case idle => exact hidle
  case attempts => exact hshut.attempts
  case handOuts => exact hshut.served
  case stale => exact hshut.stale
  case invalid => exact hshut.invalid
  case released =>
    exact fun id hheld => release_of_closed hshut.closed htracked hidle hheld
  case again =>
    unfold close
    rw [if_pos hshut.closed]

/-- One `get` has the connection and another waits when the pool is
closed; the first gives back later. -/
theorem shut_down_held :
    let o : Options := { poolSize := 1, minIdle := 0 }
    let p := (create o (fun _ => .answer 0 none) 0 true).after
      [.get false, .turn, .get false, .turn]
    let q := p.close.2.after [.get false, .turn, .turn]
    (o.Unmarking ∧ p.closed = false ∧ p.line.map Waiting.get = [2] ∧ p.close.1 = .error .inUse ∧
      q.isInUse (.dialed 1) = true ∧ q.Settled) ∧
      ClosesDown p p.close.2 q :=
  ⟨⟨Options.unmarking_of_nil rfl, by decide +kernel, by decide +kernel, by decide +kernel,
      by decide +kernel, by decide +kernel⟩,
    shut_down (Options.unmarking_of_nil rfl) ((Reachable.create _ _ _).after _)
      (by decide +kernel) _⟩

/-- The token of a `get` that waits fires just before the pool is closed, and
when nothing can move any more the `get` has ended with `cancelled`.  A `get`
whose dial is under way waits on when nothing else moves.  And a connection
that nobody holds is not closed with the pool if it was closed before. -/
theorem shut_down_past_some :
    (let p := (create { poolSize := 1, minIdle := 0 } (fun _ => .answer 0 none) 0 true).after
        [.get false, .turn, .get false, .turn, .cancel 2]
      let q := p.close.2.after [.turn, .turn]
      p.closed = false ∧ p.line.map Waiting.get = [2] ∧ q.Settled ∧
        .failed 2 .cancelled ∈ q.history ∧ .failed 2 .closed ∉ q.history) ∧
      (let p := (create { poolSize := 1, minIdle := 0 } (fun _ => .held) 0 true).after
        [.get false, .turn]
      let q := p.close.2
      p.closed = false ∧ q.Settled ∧ q.dials.map Dial.caller = [.get 1] ∧
        ∀ fault, .failed 1 fault ∉ q.history) ∧
      let p := (create { poolSize := 1, minIdle := 0 } (fun _ => .answer 0 none) 0 true).after
        [.get false, .turn, .release (.dialed 1), .closeConnection (.dialed 1)]
      p.closed = false ∧ p.tracked = [.dialed 1] ∧ p.isInUse (.dialed 1) = false ∧
        p.close.1 = .ok () ∧ p.close.2.history = p.history := by
  refine ⟨by decide +kernel, ⟨by decide +kernel, by decide +kernel, by decide +kernel, ?_⟩,
    by decide +kernel⟩
  intro fault hfailed
  have hnone : ∀ e ∈ ((create { poolSize := 1, minIdle := 0 } (fun _ => .held) 0 true).after
      [.get false, .turn]).close.2.history, e.isEnding 1 = false := by decide +kernel
  exact Bool.false_ne_true ((hnone _ hfailed).symm.trans rfl)

end PooledRouting.Pool
