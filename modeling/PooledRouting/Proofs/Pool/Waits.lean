import PooledRouting.Proofs.Pool.Checkouts
import PooledRouting.Proofs.Pool.Order
import PooledRouting.Proofs.Pool.Stages
import PooledRouting.Proofs.Pool.Step

/-!
# Waiting for a slot

A `get` that has to wait is given a slot in its turn, or leaves without
one.  The order of the line and the ways to leave it are in `Order` and
`Stages`.  Here are the two facts that are left:

* each wait that ends with `timedOut` is counted, and nothing else is
  (`Timed`);
* a `get` that ends its wait because it was cancelled or its time is up
  changes nothing but the line, and a slot that it was handed goes on to
  the next (`Arises.withdraws`).

`waits_in_turn` puts everything together.
-/

namespace PooledRouting.Pool

variable {o : Options} {p q r : Pool} {h k : Hand} {w : Waiting} {n : Nat} {fault : Fault}
  {id : ConnectionId}

/-! ## Timeouts are counted -/

def Event.isTimeOut : Event → Bool
  | .failed _ .timedOut => true
  | _ => false

/-- The fault with which the `get` in hand is about to end. -/
def Hand.fault? : Hand → Option Fault
  | .leaving (some _) fault => some fault
  | .retiring _ next | .looking next => next.fault?
  | _ => none

/-- The counter shows how many calls have ended with `timedOut`.  None ends
so that has a slot. -/
structure Timed (p : Pool) (h : Hand) : Prop where
  counter : p.counters.timeouts = UInt32.ofNat (p.history.countP Event.isTimeOut)
  hand : h.fault? ≠ some .timedOut

theorem Timed.congr (ht : Timed p h) (hcounter : q.counters.timeouts = p.counters.timeouts)
    (hhistory : q.history.countP Event.isTimeOut = p.history.countP Event.isTimeOut)
    (hhand : k.fault? ≠ some .timedOut) : Timed q k :=
  ⟨by rw [hcounter, hhistory, ht.counter], hhand⟩

theorem Plain.timeOuts (hpq : Plain p q) :
    q.history.countP Event.isTimeOut = p.history.countP Event.isTimeOut := by
  obtain ⟨new, hq, hnew⟩ := hpq
  have hnone : new.countP Event.isTimeOut = 0 := by
    refine List.countP_eq_zero.2 fun e he htimeOut => ?_
    cases e with
    | failed _ _ => cases hnew _ he
    | _ => cases htimeOut
  rw [hq, List.countP_append, hnone, Nat.zero_add]

theorem Fault.ne_timedOut_of_ends {get? : Option Nat} (hfault : fault.Ends get?) :
    Hand.fault? (.leaving get? fault) ≠ some .timedOut := by
  cases get? with
  | none => nofun
  | some get =>
    intro heq
    cases heq
    cases hfault rfl

theorem Retires.timed {f : Counters → Counters} (hr : Retires p id h f k) :
    k.fault? ≠ some .timedOut ∧ ∀ c, (f c).timeouts = c.timeouts := by
  cases hr with
  | removed _ | expired _ => exact ⟨nofun, fun _ => rfl⟩
  | invalid _ hfault _ | stale _ _ _ _ hfault | late _ hfault =>
    exact ⟨Fault.ne_timedOut_of_ends hfault, fun _ => rfl⟩

/-- Another event that is no timeout. -/
theorem countP_isTimeOut_cons {e : Event} (he : e.isTimeOut = false) :
    (e :: p.history).countP Event.isTimeOut = p.history.countP Event.isTimeOut :=
  List.countP_cons_of_neg (by simp [he])

theorem isTimeOut_failed {get : Nat} (hfault : fault ≠ .timedOut) :
    (Event.failed get fault).isTimeOut = false := by
  cases fault <;> first | rfl | exact absurd rfl hfault

/-- One more is counted and noted. -/
theorem Timed.timeOut (ht : Timed p h) {get : Nat}
    (hcounter : q.counters.timeouts = p.counters.timeouts + 1)
    (hhistory : q.history = .failed get .timedOut :: p.history) (hhand : k.fault? = none) :
    Timed q k := by
  have hcount : q.history.countP Event.isTimeOut = p.history.countP Event.isTimeOut + 1 := by
    rw [hhistory]
    exact List.countP_cons_of_pos rfl
  refine ⟨?_, by simp [hhand]⟩
  rw [hcounter, hcount, ht.counter, UInt32.ofNat_add]
  rfl

theorem Timed.act (hp : Arises o p h) (ht : Timed p h) (ha : Act p h q k) : Timed q k := by
  have hhand := ht.hand
  cases ha with
  | tooLate _ _ _ _ => exact ht.timeOut rfl rfl rfl
  | timeOut _ => exact ht.timeOut rfl rfl rfl
  | turnAway hwhy =>
    refine ht.congr rfl (countP_isTimeOut_cons (isTimeOut_failed ?_)) nofun
    rcases hwhy with ⟨-, rfl⟩ | ⟨-, rfl⟩ <;> nofun
  | refuse =>
    refine ht.congr rfl (countP_isTimeOut_cons (isTimeOut_failed ?_)) nofun
    split <;> nofun
  | giveUp _ _ => exact ht.congr rfl (countP_isTimeOut_cons rfl) nofun
  | fail =>
    have hne : _ ≠ Fault.timedOut := fun heq => hhand (congrArg some heq)
    refine ht.congr ?_ ?_ nofun
    · show (freeSlot p).counters.timeouts = _
      rw [freeSlot_frame]
    · show (_ :: (freeSlot p).history).countP _ = _
      rw [freeSlot_frame]
      exact countP_isTimeOut_cons (isTimeOut_failed hne)
  | decline hwhy =>
    refine ht.congr rfl rfl ?_
    rcases hwhy with ⟨-, rfl⟩ | ⟨-, rfl⟩ <;> nofun
  | noDial hwhy =>
    refine ht.congr rfl rfl ?_
    rcases hwhy with ⟨-, rfl⟩ | ⟨-, rfl⟩ | ⟨-, rfl⟩
    · nofun
    · nofun
    · obtain ⟨reason, hdial⟩ := hp.circuitFault_eq
      rw [hdial]
      nofun
  | keep _ _ _ _ hfault => exact ht.congr rfl rfl (Fault.ne_timedOut_of_ends hfault)
  | claim _ _ _ | accept _ _ | serve _ _ _ => exact ht.congr rfl (countP_isTimeOut_cons rfl) nofun
  | cancel get =>
    rw [cancel_frame]
    exact ht.congr rfl rfl nofun
  | resolve attempt fault =>
    rw [resolve_frame]
    exact ht.congr rfl rfl nofun
  | closeConnection _ id | shutNext _ | retire _ =>
    refine ht.congr ?_ (plain_closeConnection p _).timeOuts hhand
    rw [closeConnection_frame]
  | adoptLate _ | adoptIdleLate _ =>
    refine ht.congr ?_ ((plain_connect p _ _).trans (plain_closeConnection _ _)).timeOuts nofun
    rw [closeConnection_frame]
    rfl
  | dialFailed _ =>
    refine ht.congr ?_ ((plain_noteDialFailure p _).trans (plain_lowerSize _)).timeOuts nofun
    exact congrArg (fun p => p.counters.timeouts) (noteDialFailure_frame p _)
  | dialFailedLate _ =>
    refine ht.congr ?_ (plain_noteDialFailure p _).timeOuts nofun
    rw [noteDialFailure_frame]
  | topUpFailed =>
    refine ht.congr ?_ ((plain_noteDialFailure p _).trans
      ((plain_lowerSize _).trans (plain_lowerIdleCount _))).timeOuts nofun
    exact congrArg (fun p => p.counters.timeouts) (noteDialFailure_frame p _)
  | topUpDenied _ _ =>
    exact ht.congr rfl ((plain_lowerSize p).trans (plain_lowerIdleCount _)).timeOuts nofun
  | pick _ _ => exact ht.congr rfl (plain_lowerIdleCount { p with idle := _ }).timeOuts nofun
  | adopt _ | adoptIdle _ =>
    exact ht.congr rfl ((plain_connect p _ _).trans (plain_of_cons rfl rfl)).timeOuts nofun
  | probeReached =>
    refine ht.congr rfl ?_ nofun
    exact (countP_isTimeOut_cons (p := p.record (.connected _ _)) rfl).trans
      (countP_isTimeOut_cons rfl)
  | finish | checkIn =>
    rw [freeSlot_frame]
    exact ht.congr rfl rfl nofun
  | strike hr _ =>
    refine ht.congr ?_ (plain_strike (p.count _) _).timeOuts hr.timed.1
    rw [strike_eq]
    exact hr.timed.2 _
  | pass hr _ | refuseRemoval hr _ => exact ht.congr (hr.timed.2 _) rfl hr.timed.1
  | touch _ _ | mark _ | countHooks _ | putBack _ _ | look | spare _ =>
    exact ht.congr rfl rfl hhand
  | _ => exact ht.congr rfl rfl nofun

theorem Arises.timed (hp : Arises o p h) : Timed p h := by
  induction hp with
  | create dialer now background =>
    cases background <;> exact ⟨rfl, nofun⟩
  | act hp ha ih => exact ih.act hp ha
  | next _ ih | mark _ _ _ ih | release _ _ ih => exact ⟨ih.counter, nofun⟩

/-! ## Leaving without a slot -/

/-- A `get` that waits ends in a turn in which it looks again or goes on. -/
theorem Arises.own_turn (hp : Arises o p .start) (hw : p.Awaits w) {t : Work} {rest : List Work}
    (hready : p.ready = t :: rest) (hfailed : .failed w.get fault ∈ p.step.history) :
    t = .recheck w.get ∨ t = .admitted w.get ∨ t = .refused w.get := by
  rcases step_event hp.hooksKept hready hfailed rfl with hold | hcall | hrecheck
  · exact absurd hold (hp.called.not_failed hw)
  · have hin : t ∈ p.ready := hready ▸ List.mem_cons_self
    rcases hw with hwaits | hturn | hturn
    · exact absurd rfl (hp.called.not_in_line hin hcall w hwaits)
    · exact .inr (.inl (hp.called.turn_eq hin hturn hcall rfl))
    · exact .inr (.inr (hp.called.turn_eq hin hturn hcall rfl))
  · exact .inl hrecheck

/-- The turn goes on with a slot that a waiting `get` was handed. -/
def Work.isHanded : Work → Bool
  | .admitted _ => true
  | _ => false

/-- The slots that nobody has taken up: those that are free, and those that
were handed to a `get` that has not had its turn since. -/
def offered (p : Pool) : Nat :=
  p.slots + p.ready.countP Work.isHanded

/-- The pool without a `get` that waited.  A slot that it was handed goes on
to the next. -/
def withdraw (p : Pool) (get : Nat) (handed : Bool) : Pool :=
  let q := { p with line := p.line.filter fun v => v.get != get }
  if handed then q.freeSlot else q

/-- How it is counted that a `get` ends with the fault. -/
def Fault.tally : Fault → Counters → Counters
  | .timedOut => Counters.timeOut
  | _ => fun c => c

theorem offered_freeSlot (p : Pool) : p.freeSlot.offered = p.offered + 1 := by
  unfold offered
  rcases freeSlot_cases p with ⟨-, hfree⟩ | ⟨v, rest, -, hfree⟩
  · rw [hfree]
    exact Nat.add_right_comm _ _ _
  · rw [hfree]
    show p.slots + (p.ready ++ [Work.admitted v.get]).countP Work.isHanded = _
    rw [List.countP_append]
    rfl

/-- A slot that the `get` had is offered again. -/
theorem offered_withdraw {t : Work} {rest : List Work} (hready : p.ready = t :: rest) (get : Nat) :
    ({ p with ready := rest }.withdraw get t.isHanded).offered = p.offered := by
  have hbefore : p.offered = { p with ready := rest }.offered + if t.isHanded then 1 else 0 := by
    unfold offered
    rw [hready, List.countP_cons, Nat.add_assoc]
  rw [hbefore]
  unfold withdraw
  cases t.isHanded with
  | false => rfl
  | true => exact offered_freeSlot { p with ready := rest, line := _ }

/-- Who is not in the line cannot leave it. -/
theorem withdraw_of_not_mem {get : Nat} (hnone : ∀ v ∈ p.line, v.get ≠ get) (handed : Bool) :
    p.withdraw get handed = if handed then p.freeSlot else p := by
  have hline : (p.line.filter fun v => v.get != get) = p.line :=
    List.filter_eq_self.2 fun v hv => by simpa using hnone v hv
  unfold withdraw
  rw [hline]

/-- A new event that ends the call. -/
theorem eq_of_mem_fail {other : Fault} (hnot : .failed n fault ∉ p.history)
    (hin : .failed n fault ∈ (p.fail n other).history) : fault = other := by
  rcases List.mem_cons.1 hin with heq | hold
  · cases heq
    rfl
  · exact absurd hold hnot

theorem recheck_withdraws {get : Nat} (hold : .failed get fault ∉ p.history)
    (hfailed : .failed get fault ∈ (p.recheck get).history) :
    p.recheck get = ((p.withdraw get false).count fault.tally).fail get fault := by
  unfold recheck at hfailed ⊢
  split at hfailed
  · exact absurd hfailed hold
  dsimp only at hfailed ⊢
  split at hfailed
  · rename_i hfired
    rw [if_pos hfired]
    obtain rfl := eq_of_mem_fail (p := { p with line := _ }) hold hfailed
    rfl
  rename_i hlive
  rw [if_neg hlive]
  split at hfailed
  · rename_i hcome
    rw [if_pos hcome]
    obtain rfl := eq_of_mem_fail (p := { p with line := _ }.count _) hold hfailed
    rfl
  · exact absurd hfailed hold

theorem resume_withdraws (hk : p.HooksKept) {get : Nat} (hline : ∀ v ∈ p.line, v.get ≠ get)
    (hold : .failed get fault ∉ p.history) (hfault : fault = .cancelled ∨ fault = .timedOut)
    (hnot : .admitted get ∉ (p.resume get).history)
    (hfailed : .failed get fault ∈ (p.resume get).history) :
    p.resume get = ((p.withdraw get true).count fault.tally).fail get fault := by
  have hfree : .failed get fault ∉ p.freeSlot.history := by
    rw [freeSlot_frame]
    exact hold
  rw [withdraw_of_not_mem hline]
  unfold resume at hnot hfailed ⊢
  split at hfailed
  · rename_i hfired
    rw [if_pos hfired]
    obtain rfl := eq_of_mem_fail hfree hfailed
    rfl
  rename_i hlive
  rw [if_neg hlive] at hnot ⊢
  split at hfailed
  · obtain rfl := eq_of_mem_fail hfree hfailed
    rcases hfault with heq | heq <;> cases heq
  · -- It has its slot.
    rename_i hopen
    rw [if_neg hopen] at hnot
    have hin := (enter_acts hk get).invariant (I := fun p _ => .admitted get ∈ p.history)
      List.mem_cons_self fun hin ha => ha.mem_history hin
    exact absurd hin hnot

theorem refuse_withdraws {get : Nat} (hline : ∀ v ∈ p.line, v.get ≠ get)
    (hold : .failed get fault ∉ p.history) (hfault : fault = .cancelled ∨ fault = .timedOut)
    (hfailed : .failed get fault ∈ (p.refuse get).history) :
    p.refuse get = ((p.withdraw get false).count fault.tally).fail get fault := by
  rw [withdraw_of_not_mem hline]
  unfold refuse at hfailed ⊢
  have heq := eq_of_mem_fail hold hfailed
  rw [← heq]
  rcases hfault with rfl | rfl
  · rfl
  · split at heq <;> cases heq

/-- A `get` whose wait ends because it was cancelled or its time is up has
its turn, and nothing else happens in it. -/
theorem Arises.withdraws (hp : Arises o p .start) (hw : p.Awaits w) {m : Move}
    (hl : LeftBy w (p.apply m) (.without fault)) (hfault : fault = .cancelled ∨ fault = .timedOut) :
    ∃ t rest, p.ready = t :: rest ∧ p.apply m =
      (({ p with ready := rest }.withdraw w.get t.isHanded).count fault.tally).fail w.get fault := by
  obtain ⟨hnot, hfailed, -⟩ := hl
  have hold : .failed w.get fault ∉ p.history := hp.called.not_failed hw
  by_cases hm : m = .turn
  swap
  · exact absurd ((plain_apply p hm).mem_history hfailed rfl) hold
  subst hm
  cases hready : p.ready with
  | nil =>
    have hstay : p.apply .turn = p := step_of_settled hready
    rw [hstay] at hfailed
    exact absurd hfailed hold
  | cons t rest =>
    refine ⟨t, rest, rfl, ?_⟩
    have hown := hp.own_turn hw hready hfailed
    have hin : t ∈ p.ready := hready ▸ List.mem_cons_self
    have hstep : p.apply .turn = { p with ready := rest }.perform t := step_of_ready hready
    rw [hstep] at hnot hfailed ⊢
    rcases hown with rfl | rfl | rfl
    · exact recheck_withdraws (p := { p with ready := rest }) hold hfailed
    · have hline := hp.called.not_in_line hin rfl
      exact resume_withdraws (p := { p with ready := rest }) hp.hooksKept hline hold hfault hnot
        hfailed
    · have hline := hp.called.not_in_line hin rfl
      exact refuse_withdraws (p := { p with ready := rest }) hline hold hfault hfailed

/-! ## Every run -/

/-- A `get` that finds no free slot joins the line at its end. -/
theorem Arises.joins (hp : Arises o p .start) {get : Nat}
    (hready : p.ready.head? = some (.arrive get)) (hopen : p.closed = false) (hlive : get ∉ p.fired)
    (hfull : p.slots = 0) (htimeout : 0 < o.poolTimeout) :
    p.step.line = p.line ++ [⟨get, p.now + o.poolTimeout⟩] := by
  have hlimit : p.options.poolTimeout = o.poolTimeout := congrArg _ hp.options_eq
  obtain ⟨rest, hready⟩ := List.head?_eq_some_iff.1 hready
  rw [step_of_ready hready]
  show (arrive { p with ready := rest } get).line = _
  unfold arrive
  simp [hopen, hlive, hfull, hlimit, Nat.ne_of_gt htimeout]

/-- A `get` that finds no free slot joins the line, with its deadline.
Whatever callers and hooks do then, in `q` and later in `r`:

* it still waits, or its wait has ended, in exactly one way: with a slot,
  or without one after it was cancelled, after its deadline had come, or
  after the pool was closed;
* while it is in the line no slot is free, and slots go to those that were
  ahead of it, never to a later `get` or a new top-up;
* if it leaves because it was cancelled or its time is up, it has its turn,
  in which nothing happens but that it leaves, that a timeout is counted,
  and that a slot which it was handed goes on to the next;
* when nothing can move, whoever waits has time left and was not cancelled;
* the counter of timeouts shows how many calls ended so. -/
theorem waits_in_turn (hp : Attained o p) {get : Nat}
    (hready : p.ready.head? = some (.arrive get)) (hopen : p.closed = false) (hlive : get ∉ p.fired)
    (hfull : p.slots = 0) (htimeout : 0 < o.poolTimeout) (deeds later : List Deed) :
    let w : Waiting := ⟨get, p.now + o.poolTimeout⟩
    let q := p.step.undergoAll deeds
    let r := q.undergoAll later
    p.step.line = p.line ++ [w] ∧
      (q.Awaits w ∧ (∀ exit, ¬LeftBy w q exit) ∨ ¬q.Awaits w ∧ ∃! exit, LeftBy w q exit) ∧
      (∀ ahead behind, q.line = ahead ++ w :: behind → w ∈ r.line →
        q.slots = 0 ∧ r.slots = 0 ∧ InTurn q ahead w r .start) ∧
      (∀ m fault, q.Awaits w → LeftBy w (q.apply m) (.without fault) →
        fault = .cancelled ∨ fault = .timedOut →
        (q.apply m).offered = q.offered ∧ ∃ t rest, q.ready = t :: rest ∧ q.apply m =
          (({ q with ready := rest }.withdraw get t.isHanded).count fault.tally).fail get fault) ∧
      (q.Settled → ∀ v, q.Awaits v → v ∈ q.line ∧ q.now < v.deadline ∧ v.get ∉ q.fired) ∧
      q.counters.timeouts = UInt32.ofNat (q.history.countP Event.isTimeOut) := by
  intro w q r
  have hjoin : p.step.line = p.line ++ [w] :=
    hp.arises.joins hready hopen hlive hfull htimeout
  have hstep : Arises o p.step .start := hp.arises.apply .turn
  have hq : Arises o q .start := hstep.undergoAll deeds
  have hr : Arises o r .start := hq.undergoAll later
  have hin : w ∈ p.step.line := hjoin ▸ List.mem_append_right _ List.mem_cons_self
  have hstage : Stage w q .start := (stage_enduring w).undergoAll hstep (.waiting hin) deeds
  refine ⟨hjoin, ?_, fun ahead behind hline hstays => ?_, fun m fault hw hl hfault => ?_,
    fun hsettled v hv => ⟨hv.mem_line hsettled, hq.asleep hsettled (hv.mem_line hsettled)⟩,
    hq.timed.counter⟩
  · by_cases hw : q.Awaits w
    · exact .inl ⟨hw, hq.not_leftBy hw⟩
    · obtain ⟨exit, hexit⟩ := hstage.awaits_or.resolve_left hw
      exact .inr ⟨hw, exit, hexit, fun other hother => hother.eq hq.called hexit⟩
  · have hwq : w ∈ q.line := hline ▸ List.mem_append_right _ List.mem_cons_self
    exact ⟨hq.slots_eq_zero hwq, hr.slots_eq_zero hstays, hq.inTurn hline later hstays⟩
  · obtain ⟨t, rest, ht, heq⟩ := hq.withdraws hw hl hfault
    refine ⟨?_, t, rest, ht, heq⟩
    rw [heq]
    exact offered_withdraw ht get

/-- The first `get` has the only slot, two more wait, and the time of both
is up: the second has left, and the third has its turn to come. -/
theorem waits_in_turn_timed_out :
    let o : Options := { poolSize := 1, minIdle := 0, poolTimeout := 100 }
    let p := (create o (fun _ => .answer 0 none) 0 true).undergoAll
      [.move (.get false), .move .turn, .move (.get false)]
    let w : Waiting := ⟨2, p.now + o.poolTimeout⟩
    let q := p.step.undergoAll
      [.move (.get false), .mark (.dialed 1) false, .move .turn, .move (.fire 100), .move .turn]
    let r := q.undergoAll [.move .turn]
    (p.ready.head? = some (.arrive 2) ∧ q.line.map Waiting.get = [3] ∧ ¬q.Awaits w ∧ r.line = [] ∧
      r.counters.timeouts = 2) ∧
      p.step.line = p.line ++ [w] ∧
      (q.Awaits w ∧ (∀ exit, ¬LeftBy w q exit) ∨ ¬q.Awaits w ∧ ∃! exit, LeftBy w q exit) ∧
      (∀ ahead behind, q.line = ahead ++ w :: behind → w ∈ r.line →
        q.slots = 0 ∧ r.slots = 0 ∧ InTurn q ahead w r .start) ∧
      (∀ m fault, q.Awaits w → LeftBy w (q.apply m) (.without fault) →
        fault = .cancelled ∨ fault = .timedOut →
        (q.apply m).offered = q.offered ∧ ∃ t rest, q.ready = t :: rest ∧ q.apply m =
          (({ q with ready := rest }.withdraw 2 t.isHanded).count fault.tally).fail 2 fault) ∧
      (q.Settled → ∀ v, q.Awaits v → v ∈ q.line ∧ q.now < v.deadline ∧ v.get ∉ q.fired) ∧
      q.counters.timeouts = UInt32.ofNat (q.history.countP Event.isTimeOut) :=
  ⟨⟨by decide +kernel, by decide +kernel, by unfold Awaits; decide +kernel, by decide +kernel,
      by decide +kernel⟩,
    waits_in_turn ((Attained.create _ _ _).undergoAll _) (by decide +kernel)
      (by decide +kernel) (by decide +kernel) (by decide +kernel) (by decide) _ _⟩

end PooledRouting.Pool
