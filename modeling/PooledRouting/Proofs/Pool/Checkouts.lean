import PooledRouting.Proofs.Pool.Attempts
import PooledRouting.Proofs.Pool.Events

/-!
# Where a checkout is rejected

A `get` ends with `hook` or `badConnection` in one place: in `checkOut`,
with a valid connection in hand.  `apply_checksOut` says so of every move
of a run, and `ChecksOut.after` carries it along a chain of acts.

Everything else that a pool does is `Quiet`: it ends no `get` in this way.
-/

namespace PooledRouting.Pool

variable {o : Options} {p q r : Pool} {h k : Hand} {get : Nat} {id : ConnectionId}

/-! ## Rejections in a history -/

/-- From one pool to the other no `get` ends with a rejected checkout. -/
def Quiet (p q : Pool) : Prop :=
  ∀ get fault, Fault.isRejection fault = true → .failed get fault ∈ q.history →
    .failed get fault ∈ p.history

theorem Quiet.trans (h₁ : Quiet p q) (h₂ : Quiet q r) : Quiet p r :=
  fun get fault hfault hin => h₁ get fault hfault (h₂ get fault hfault hin)

/-- Nothing happens to any call. -/
theorem Plain.quiet (hpq : Plain p q) : Quiet p q :=
  fun _ _ _ hin => hpq.mem_history hin rfl

/-- One event more, which is no rejection. -/
theorem quiet_of_cons {e : Event} (h : q.history = e :: p.history)
    (he : ∀ get fault, e = .failed get fault → Fault.isRejection fault = false) :
    Quiet p q := by
  intro get fault hfault hin
  rw [h] at hin
  rcases List.mem_cons.1 hin with heq | hold
  · cases hfault.symm.trans (he get fault heq.symm)
  · exact hold

/-- A `get` ends for another reason. -/
theorem quiet_fail (p : Pool) (get : Nat) {fault : Fault} (hfault : fault.isRejection = false) :
    Quiet p (p.fail get fault) :=
  quiet_of_cons rfl fun _ _ heq => by
    cases heq
    exact hfault

theorem quiet_leave (p : Pool) (get : Nat) {fault : Fault} (hfault : fault.isRejection = false) :
    Quiet p (p.freeSlot.fail get fault) :=
  (plain_freeSlot p).quiet.trans (quiet_fail _ get hfault)

theorem quiet_takeIdle (p : Pool) (rest : List ConnectionId) : Quiet p (p.takeIdle rest) :=
  (plain_lowerIdleCount { p with idle := rest }).quiet

theorem quiet_recheck (p : Pool) (get : Nat) : Quiet p (p.recheck get) := by
  unfold recheck
  split
  · exact (plain_of_eq rfl).quiet
  dsimp only
  split
  · exact quiet_of_cons rfl fun _ _ heq => by
      cases heq
      rfl
  split
  · exact quiet_of_cons rfl fun _ _ heq => by
      cases heq
      rfl
  · exact (plain_of_eq rfl).quiet

/-! ## Checkouts -/

/-- The failure that stands for a dial is one of a dial. -/
theorem Arises.circuitFault_eq (hp : Arises o p h) : ∃ reason, p.circuitFault = .dial reason := by
  suffices hlast : ∀ fault ∈ p.lastDialFault, ∃ reason, fault = .dial reason by
    unfold circuitFault
    cases hfault : p.lastDialFault with
    | none => exact ⟨_, rfl⟩
    | some fault => exact hlast fault hfault
  have hdial : ∀ reason, ∀ fault ∈ some (Fault.dial reason), ∃ reason, fault = .dial reason := by
    rintro reason fault hfault
    cases hfault
    exact ⟨reason, rfl⟩
  induction hp with
  | create dialer now background =>
    have hnone : (Pool.create o dialer now background).lastDialFault = none := by
      cases background <;> rfl
    rw [hnone]
    nofun
  | act _ ha ih =>
    cases ha with
    | cancel get =>
      rw [cancel_frame]
      exact ih
    | resolve attempt fault =>
      rw [resolve_frame]
      exact ih
    | closeConnection _ id | shutNext _ | retire _ | adoptLate _ | adoptIdleLate _ =>
      rw [closeConnection_frame]
      exact ih
    | dialFailed _ | dialFailedLate _ | topUpFailed =>
      have hnoted : ∀ (r : Pool) reason,
          (r.noteDialFailure reason).lastDialFault = some (.dial reason) := fun r reason => by
        rw [noteDialFailure_frame]
      exact hnoted _ _ ▸ hdial _
    | probeGaveUp _ | probeAgain _ _ | probeNap _ _ _ => exact hdial _
    | finish | fail | checkIn =>
      rw [freeSlot_frame]
      exact ih
    | strike _ _ =>
      rw [strike_eq]
      exact ih
    | _ => exact ih
  | next _ ih | mark _ _ _ ih | release _ _ ih => exact ih

theorem Occurs.circuitFault_eq (hp : Occurs o p h) : ∃ reason, p.circuitFault = .dial reason :=
  hp.arises.circuitFault_eq

/-- No checkout was rejected, or the pool comes from the checkout of a
valid connection, to which the acts lead. -/
def ChecksOut (p : Pool) (h : Hand) (q : Pool) : Prop :=
  Quiet p q ∨ ∃ r get id, Acts p h r (.holding (some get) id) ∧ Quiet p r ∧
    r.isValid id = true ∧ q = r.checkOut get id

theorem ChecksOut.after (hs : Acts p h r k) (hquiet : Quiet p r) (hc : ChecksOut r k q) :
    ChecksOut p h q := by
  rcases hc with hq | ⟨s, get, id, hacts, hr, hvalid, rfl⟩
  · exact .inl (hquiet.trans hq)
  · exact .inr ⟨s, get, id, hs.trans hacts, hquiet.trans hr, hvalid, rfl⟩

/-- A connection that was dialed just now is valid. -/
theorem isValid_adopt {caller : Caller} {attempt : Nat}
    (hnew : p.idCount (.dialed attempt) = 0) :
    ((p.connect caller attempt).track (.dialed attempt)).isValid (.dialed attempt) = true := by
  have hnone : p.connection? (.dialed attempt) = none := by
    cases hc : p.connection? (.dialed attempt) with
    | none => rfl
    | some c =>
      have hpos := idCount_pos hc
      omega
  have hconnection : ((p.connect caller attempt).track (.dialed attempt)).connection?
      (.dialed attempt) = some (.openedAt p.now (.dialed attempt) p.options.maxLifetime
        p.options.maxIdleTime) := by
    unfold connection? at hnone ⊢
    show List.find? _ (p.connections ++ [_]) = _
    rw [List.find?_append, hnone, List.find?_singleton, Option.none_or]
    exact if_pos (beq_self_eq_true _)
  unfold isValid
  rw [hconnection]
  simp [Connection.isValid, Connection.openedAt, connect, track, openConnection, record,
    resetCircuit]

theorem endGetDial_checksOut {attempt : Nat} {fault : Option String}
    (hp : Occurs o p (.work (.dialed (.get get) attempt fault))) :
    ChecksOut p (.work (.dialed (.get get) attempt fault)) (p.endGetDial get attempt fault) := by
  unfold endGetDial
  cases fault with
  | none =>
    dsimp only
    split
    · exact .inl (((plain_connect p _ attempt).trans (plain_closeConnection _ _)).quiet.trans
        (quiet_leave _ get rfl))
    · rename_i hopen
      have hadopt : Act p (.work (.dialed (.get get) attempt none))
          ((p.connect (.get get) attempt).track (.dialed attempt))
          (.holding (some get) (.dialed attempt)) :=
        .adopt (Bool.eq_false_iff.2 hopen)
      exact .inr ⟨_, get, _, .single hadopt,
        ((plain_connect p _ attempt).trans (plain_of_cons rfl rfl)).quiet,
        isValid_adopt hp.attempts.new, rfl⟩
  | some reason =>
    refine .inl ((plain_noteDialFailure p reason).quiet.trans ?_)
    dsimp only
    split
    · exact quiet_leave _ get rfl
    · exact (plain_lowerSize _).quiet.trans (quiet_leave _ get rfl)

theorem dialFor_checksOut (hp : Occurs o p (.missed get)) :
    ChecksOut p (.missed get) (p.dialFor get) := by
  unfold dialFor
  split
  · exact .inl (quiet_leave p get rfl)
  rename_i hopen
  split
  · exact .inl (quiet_leave p get rfl)
  rename_i hroom
  split
  · obtain ⟨reason, hfault⟩ := hp.circuitFault_eq
    rw [hfault]
    exact .inl (quiet_leave p get rfl)
  rename_i hcircuit
  have hreserve : Act p (.missed get) { p with size := p.size + 1 } (.calling (.get get)) :=
    .reserve (by simpa using hopen) hroom (by simpa using hcircuit)
  dsimp only
  rcases startDial_cases { p with size := p.size + 1 } (.get get) with
    ⟨fault, hnow, hs⟩ | ⟨due, -, -, hs⟩
  · have hacts : Acts p (.missed get) _ (.work (.dialed (.get get) _ fault)) :=
      .cons hreserve (.single (.answered hnow))
    rw [hs]
    exact .after hacts (plain_of_eq rfl).quiet (endGetDial_checksOut (hp.acts hacts))
  · rw [hs]
    exact .inl (plain_of_eq rfl).quiet

theorem serve_checksOut (hp : Occurs o p (.admitted get)) :
    ChecksOut p (.admitted get) (p.serve get) := by
  fun_induction serve p get with
  | case1 p hclosed => exact .inl (quiet_leave p get rfl)
  | case2 p hopen hnext =>
    have hmiss : Acts p (.admitted get) (p.count Counters.miss) (.missed get) :=
      .single (.miss (Bool.eq_false_iff.2 hopen) hnext)
    exact .after hmiss (plain_of_eq rfl).quiet (dialFor_checksOut (hp.acts hmiss))
  | case3 p hopen id rest hnext q hvalid =>
    have htake : Acts p (.admitted get) q (.picked get id) :=
      takeIdle_acts (Bool.eq_false_iff.2 hopen) hnext
    exact .inr ⟨_, get, id, htake.trans (.single (.hit hvalid)), quiet_takeIdle p rest, hvalid, rfl⟩
  | case4 p hopen id rest hnext q hinvalid ih =>
    have hround : Acts p (.admitted get) (q.discardInvalid id) (.admitted get) :=
      (takeIdle_acts (Bool.eq_false_iff.2 hopen) hnext).trans
        (discardInvalid_acts (Bool.eq_false_iff.2 hinvalid))
    have hquiet : Quiet p (q.discardInvalid id) :=
      (quiet_takeIdle p rest).trans (plain_persists.remove _ id).quiet
    exact .after hround hquiet (ih (hp.acts hround))

theorem arrive_checksOut (hp : Occurs o p (.work (.arrive get))) :
    ChecksOut p (.work (.arrive get)) (p.arrive get) := by
  unfold arrive
  split
  · exact .inl (quiet_fail p get rfl)
  rename_i hopen
  split
  · exact .inl (quiet_fail p get rfl)
  rename_i hlive
  split
  · rename_i hfree
    have hclaim : Acts p (.work (.arrive get))
        ({ p with slots := p.slots - 1 }.record (.admitted get)) (.admitted get) :=
      .single (.claim (by simpa using hopen) hlive hfree)
    exact .after hclaim (quiet_of_cons rfl nofun) (serve_checksOut (hp.acts hclaim))
  split
  · exact .inl (quiet_fail (p.count Counters.timeOut) get rfl)
  · exact .inl (plain_of_eq rfl).quiet

theorem resume_checksOut (hp : Occurs o p (.work (.admitted get))) :
    ChecksOut p (.work (.admitted get)) (p.resume get) := by
  unfold resume
  split
  · exact .inl (quiet_leave p get rfl)
  rename_i hlive
  split
  · exact .inl (quiet_leave p get rfl)
  · rename_i hopen
    have haccept : Acts p (.work (.admitted get)) (p.record (.admitted get)) (.admitted get) :=
      .single (.accept (by simpa using hopen) hlive)
    exact .after haccept (quiet_of_cons rfl nofun) (serve_checksOut (hp.acts haccept))

theorem perform_checksOut {w : Work} (hp : Occurs o p (.work w)) :
    ChecksOut p (.work w) (p.perform w) := by
  cases w with
  | arrive get => exact arrive_checksOut hp
  | admitted get => exact resume_checksOut hp
  | refused get =>
    refine .inl (quiet_fail p get ?_)
    split <;> rfl
  | recheck get => exact .inl (quiet_recheck p get)
  | topUp => exact .inl (plain_startTopUp p).quiet
  | probe tries => exact .inl (plain_startProbeTry p tries).quiet
  | dialed caller attempt fault =>
    cases caller with
    | get number => exact endGetDial_checksOut hp
    | topUp => exact .inl (plain_endTopUp p attempt fault).quiet
    | probe tries =>
      refine .inl ?_
      show Quiet p (if p.closed then p.endProbe else p.endProbeTry tries attempt fault)
      split
      · exact (plain_of_eq rfl).quiet
      · exact (plain_endProbeTry p tries attempt fault).quiet

/-- A checkout is rejected in the turn of a task, and at no other move. -/
theorem apply_checksOut (hp : Occurs o p .start) (m : Move) :
    ChecksOut p .start (p.apply m) := by
  by_cases hm : m = .turn
  · subst hm
    show ChecksOut p .start p.step
    unfold step
    split
    · exact .inl (plain_of_eq rfl).quiet
    · rename_i w rest hready
      have htake : Acts p .start { p with ready := rest } (.work w) := .single (.take hready)
      exact .after htake (plain_of_eq rfl).quiet (perform_checksOut (hp.acts htake))
  · exact .inl (plain_apply p hm).quiet

end PooledRouting.Pool
