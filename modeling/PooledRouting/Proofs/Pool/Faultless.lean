import PooledRouting.Proofs.Pool.Admissions
import PooledRouting.Proofs.Pool.Caps
import PooledRouting.Proofs.Pool.InTime
import PooledRouting.Proofs.Pool.Rejections

/-!
# No call fails while no dial does

A lone call that is let in fails only with its dial, at the cap on connections or in
its checkout.  If no dial fails the circuit stays closed.  At the cap it cannot be:
when it finds no idle connection the pool has no connection at all
(`Lone.size_eq_zero`).  And without hooks the checkout of a valid connection is not
rejected (`Occurs.quiet_apply`).

Within a turn (`Spared`) only the first two are seen, since an act may take the
connection from any call; the third is a matter of whole moves.  `Faultless` puts
them together between two moves.
-/

namespace PooledRouting.Pool

variable {o : Options} {p q : Pool} {h k : Hand} {id : ConnectionId} {finished : List Nat}
  {m n delay limit : Nat} {fault : Fault}

/-! ## Checkouts without hooks -/

theorem quiet_checkOut (hr : p.Ready id) (hhooks : p.hooks = []) (get : Nat) :
    Quiet p (p.checkOut get id) := by
  have hrun : p.runHooks id = (none, { p with hooks := [] }) := by
    unfold runHooks
    rw [hhooks]
    rfl
  unfold checkOut
  rw [hrun]
  dsimp only
  rcases takeOut_cases { p with hooks := [] } id with ⟨-, hinvalid⟩ | ⟨c, hc, -, htake⟩
  · cases hinvalid.symm.trans hr.valid
  · have hvalid : c.isValid p.now = true := by
      have hvalid : (p.connection? id).any (fun c => c.isValid p.now) = true := hr.valid
      rwa [show p.connection? id = some c from hc] at hvalid
    have hid : c.id = id := connection?_id (p := p) hc
    have hput := isValid_put (p := { p with hooks := [] })
      (d := { c with inUse := true, usedAt := p.now }) hc hid
    have hgood := Connection.isValid_of_used (d := { c with inUse := true, usedAt := p.now })
      hvalid rfl rfl rfl rfl
    rw [htake]
    dsimp only at hput ⊢
    rw [Bool.true_and, hput, if_pos hgood]
    exact quiet_of_cons rfl nofun

/-- Without hooks no checkout is rejected. -/
theorem Occurs.quiet_apply (hp : Occurs o p .start) (hhooks : o.hooks = []) (move : Move) :
    Quiet p (p.apply move) := by
  rcases apply_checksOut hp move with hquiet | ⟨r, get, id, hacts, hquiet, hvalid, hcheck⟩
  · exact hquiet
  · have hr := hp.acts hacts
    have hnone : r.hooks = [] :=
      List.map_eq_nil_iff.1
        (hr.hooksKept.trans ((congrArg Options.hooks hr.options_eq).trans hhooks))
    rw [hcheck]
    exact hquiet.trans
      (quiet_checkOut (hr.ready (Options.unmarking_of_nil hhooks) hvalid) hnone get)

/-! ## How a lone call fails -/

/-- A lone call that found nothing idle finds no connection at all. -/
theorem Lone.size_eq_zero (hl : Lone o finished n p (.missed m)) (ho : o.Bare) : p.size = 0 := by
  have hone : (Hand.missed m).calls m = 1 := calls_eq_one rfl
  obtain rfl := hl.call_eq (m := m) (by omega)
  have hplaces := hl.occurs.called.places_le m
  have hinUse := hl.inUseCount_eq_zero (by omega)
  have hadmitted := hl.admittedGets_eq_zero (h := .missed m) rfl
  have hdials := getDials_le_admittedGets p
  have htopUps := hl.occurs.topUps_eq_zero ho
  have htracked := (hl.occurs.placed ho.unmarking).length_le (hl.occurs.roster ho.unmarking)
    hl.occurs.unique hl.pool_open
  have hsize : p.size = p.tracked.length + (p.getDials + p.topUps) + 0 :=
    hl.occurs.booked.size hl.pool_open
  omega

theorem Hand.calls_of_work? {w : Work} (hw : h.work? = some w) (hcall : w.call? = some m) :
    h.calls m = 1 := by
  refine calls_eq_one ?_
  induction h with
  | work v =>
    cases hw
    exact hcall
  | retiring _ next ih | looking next ih => exact ih hw
  | _ => cases hw

/-- Who fails gives back its slot: all calls are let in. -/
theorem Lone.failed_act (hl : Lone o finished n p h) (ho : o.Bare) (ha : Act p h q k)
    (hh : h.isStart = false) (hin : .failed m fault ∈ q.history) :
    .failed m fault ∈ p.history ∨ h.fault? = some fault := by
  cases ha.happens with
  | nothing hplain => exact .inl (hplain.mem_history hin rfl)
  | admitted hq _ _ | served hq _ =>
    rw [hq] at hin
    exact .inl ((List.mem_cons.1 hin).resolve_left nofun)
  | left hq hleft =>
    rw [hq] at hin
    refine (List.mem_cons.1 hin).symm.imp_right fun heq => ?_
    cases heq
    rw [hleft]
    rfl
  | @refused get without hq _ hwho =>
    -- It had not been let in before the act, and has been after it.
    exfalso
    have hout : Outside p h get := by
      rcases hwho with rfl | rfl | ⟨rfl, v, hv, hget⟩
      · exact .inr (.inr ⟨_, rfl, .inr rfl⟩)
      · exact .inr (.inr ⟨_, rfl, .inr rfl⟩)
      · exact .inr (.inl ⟨v, hv, hget⟩)
    have hq' := hl.act ho ha hh
    have hended : 0 < q.endings get :=
      endings_pos (e := .failed get without) (hq ▸ List.mem_cons_self) (beq_self_eq_true get)
    have hplaces := hq'.occurs.called.places_le get
    obtain ⟨hpos, hle⟩ : 0 < get ∧ get ≤ q.getCount := hq'.occurs.called.made (by omega)
    rcases hq'.letIn get hpos hle with hadmitted | hready | hhand
    · rw [hq] at hadmitted
      exact hl.occurs.arises.not_admitted hout ((List.mem_cons.1 hadmitted).resolve_left nofun)
    · have hturn : 0 < q.turns get := turns_pos hready rfl
      omega
    · have hone : k.calls get = 1 := Hand.calls_of_work? hhand rfl
      omega

/-! ## Within a turn -/

/-- The failure with which the dial comes back. -/
def Course.fault? : Course → Option String
  | .answer _ fault => fault
  | .held => none

/-- No dial has failed so far, and a call that is to end is one whose connection was taken
from it. -/
structure Spared (p : Pool) (h : Hand) : Prop where
  dialer : ∀ attempt, (p.dialer attempt).fault? = none
  failures : p.dialFailures = 0
  back : ∀ caller attempt fault, h.work? = some (.dialed caller attempt fault) → fault = none
  leaving : ∀ fault, h.fault? = some fault → fault.isRejection = true

/-- A turn that has come to the failure of a dial has it in hand. -/
theorem Hand.work?_of_failed {ordinary : Bool} (hstage : h.dialStage = .back ordinary true) :
    ∃ caller attempt reason, h.work? = some (.dialed caller attempt (some reason)) := by
  induction h with
  | work w =>
    cases w with
    | dialed caller attempt fault =>
      cases fault with
      | some reason => exact ⟨caller, attempt, reason, rfl⟩
      | none => cases hstage
    | _ => cases hstage
  | retiring _ next ih | looking next ih => exact ih hstage
  | _ => cases hstage

theorem Hand.dialStage_ne_none (hh : h.isStart = false) : h.dialStage ≠ .none := by
  induction h with
  | start => cases hh
  | retiring _ next ih | looking next ih => exact ih hh
  | work w => cases w <;> nofun
  | _ => nofun

theorem Spared.failures_act (hs : Spared p h) (ha : Act p h q k) (hh : h.isStart = false) :
    q.dialFailures = 0 := by
  cases ha.dialStep (Hand.dialStage_ne_none hh) with
  | keep same _ | letThrough same _ _ _ => exact same.failures.trans hs.failures
  | start _ _ _ failures _ => exact failures.trans hs.failures
  | fail before _ _ _ _ =>
    obtain ⟨caller, attempt, reason, hwork⟩ := Hand.work?_of_failed before
    cases hs.back _ _ _ hwork
  | reach _ _ _ failures _ => exact failures

/-- A connection that is lost leaves a rejection, if a call has it. -/
theorem Retires.isRejection {f : Counters → Counters} (hr : Retires p id h f k)
    (hhand : k.fault? = some fault) : fault.isRejection = true := by
  cases hr with
  | removed _ | expired _ => cases hhand
  | @invalid get? _ _ hends _ | @stale get? _ _ _ _ _ hends | @late get? _ _ hends =>
    cases get? with
    | none => cases hhand
    | some get =>
      cases hhand
      exact hends rfl

theorem Spared.act (hs : Spared p h) (hl : Lone o finished n p h) (ho : o.Bare)
    (ha : Act p h q k) (hh : h.isStart = false) : Spared q k := by
  have hshut : p.closed ≠ true := fun hclosed => nomatch hclosed.symm.trans hl.pool_open
  have hlive : ∀ get, get ∉ p.fired := fun get hin => by
    rw [hl.fired] at hin
    cases hin
  have hback : ∀ {caller attempt} {reason : String},
      h ≠ .work (.dialed caller attempt (some reason)) := by
    rintro caller attempt reason rfl
    cases hs.back _ _ _ rfl
  suffices hhand : (∀ caller attempt fault, k.work? = some (.dialed caller attempt fault) →
      fault = none) ∧ ∀ fault, k.fault? = some fault → fault.isRejection = true by
    refine ⟨fun attempt => ?_, hs.failures_act ha hh, hhand.1, hhand.2⟩
    rw [(ha.setting_eq hh).2]
    exact hs.dialer attempt
  cases ha with
  | take _ => cases hh
  | touch _ _ | closeConnection _ _ | look | retire _ | spare _ => exact ⟨hs.back, hs.leaving⟩
  | answered hcourse =>
    refine ⟨fun _ _ _ hw => ?_, nofun⟩
    cases hw
    have hnone := hs.dialer (p.attemptCount + 1)
    rwa [hcourse] at hnone
  | decline hwhy =>
    rcases hwhy with ⟨hclosed, -⟩ | ⟨hfired, -⟩
    · exact absurd hclosed hshut
    · exact absurd hfired (hlive _)
  | shut hclosed | adoptLate hclosed => exact absurd hclosed hshut
  | noDial hwhy =>
    rcases hwhy with ⟨hclosed, -⟩ | ⟨⟨hcap, hfull⟩, -⟩ | ⟨hcircuit, -⟩
    · exact absurd hclosed hshut
    · have hsize := hl.size_eq_zero ho
      omega
    · cases (circuitOpen_of_dialFailures hs.failures).symm.trans hcircuit
  | dialFailed _ | dialFailedLate _ => exact absurd rfl hback
  | @keep get? _ _ _ _ _ _ hends =>
    refine ⟨nofun, fun fault hhand => ?_⟩
    cases get? with
    | none => cases hhand
    | some get =>
      cases hhand
      exact hends rfl
  | strike hr _ | pass hr _ | refuseRemoval hr _ =>
    exact ⟨fun _ _ _ hw => (nomatch hr.work?_eq.symm.trans hw), fun _ hhand => hr.isRejection hhand⟩
  | _ => exact ⟨nofun, nofun⟩

/-- In a turn that begins so calls fail with rejections only. -/
theorem Spared.failed_acts (hs : Spared p h) (hl : Lone o finished n p h) (ho : o.Bare)
    (hacts : Acts p h q k) (hh : h.isStart = false) :
    q.dialFailures = 0 ∧ ∀ m fault, .failed m fault ∈ q.history →
      .failed m fault ∈ p.history ∨ fault.isRejection = true := by
  have hall := hacts.invariant
    (I := fun r l => l.isStart = false ∧ Lone o finished n r l ∧ Spared r l ∧
      ∀ m fault, .failed m fault ∈ r.history →
        .failed m fault ∈ p.history ∨ fault.isRejection = true)
    ⟨hh, hl, hs, fun _ _ hin => .inl hin⟩ fun ⟨hh, hl, hs, hold⟩ ha =>
      ⟨(ha.goesOn hh).1, hl.act ho ha hh, hs.act hl ho ha hh, fun m fault hin =>
        (hl.failed_act ho ha hh hin).elim (hold m fault) fun hhand => .inr (hs.leaving fault hhand)⟩
  exact ⟨hall.2.2.1.failures, hall.2.2.2⟩

/-! ## Between moves -/

/-- No dial fails, and no call has. -/
structure Faultless (p : Pool) : Prop where
  dialer : ∀ attempt, (p.dialer attempt).fault? = none
  dials : ∀ d ∈ p.dials, ∀ time fault, d.due = some (time, fault) → fault = none
  ready : ∀ caller attempt fault, .dialed caller attempt fault ∈ p.ready → fault = none
  failures : p.dialFailures = 0
  history : ∀ m fault, .failed m fault ∉ p.history

theorem Faultless.step (hf : p.Faultless) (hl : Lone o finished n p .start) (ho : o.Bare) :
    p.step.Faultless := by
  cases hready : p.ready with
  | nil =>
    rw [step_of_settled hready]
    exact hf
  | cons w rest =>
    have hk := hl.occurs.hooksKept
    have hspared : Spared { p with ready := rest } (.work w) := by
      refine ⟨hf.dialer, hf.failures, fun caller attempt fault hw => ?_, nofun⟩
      cases hw
      exact hf.ready caller attempt fault (hready ▸ List.mem_cons_self)
    obtain ⟨hfailures, hfailed⟩ := hspared.failed_acts (hl.take hready) ho (turn_acts hk hready) rfl
    obtain ⟨new, hnew, hback⟩ := hl.ready_step ho hready
    refine ⟨fun attempt => ?_, fun d hd time fault hdue => ?_, fun caller attempt fault hin => ?_,
      hfailures, fun m fault hin => ?_⟩
    · rw [(setting_step hk).2]
      exact hf.dialer attempt
    · rcases newDials_step hk hready d hd with hold | ⟨-, hcourse, -⟩
      · exact hf.dials d hold time fault hdue
      · have hnone := hf.dialer d.attempt
        unfold Course.due? at hcourse
        cases hway : p.dialer d.attempt with
        | answer ms fault' =>
          rw [hway] at hnone hcourse
          cases hcourse.symm.trans hdue
          exact hnone
        | held =>
          rw [hway] at hcourse
          cases hcourse.symm.trans hdue
    · rw [hnew] at hin
      rcases List.mem_append.1 hin with hold | hadded
      · exact hf.ready caller attempt fault (hready ▸ List.mem_cons_of_mem _ hold)
      · cases hback _ hadded
    · rcases hfailed m fault hin with hold | hrejection
      · exact hf.history m fault hold
      · exact hf.history m fault (hl.occurs.quiet_apply ho.hooks .turn m fault hrejection hin)

theorem Faultless.run (hf : p.Faultless) (hl : Lone o finished n p .start) (ho : o.Bare)
    (turns : Nat) : (Pool.run turns p).Faultless := by
  induction turns generalizing p with
  | zero => exact hf
  | succ turns ih =>
    unfold Pool.run
    split
    · exact hf
    · exact ih (hf.step hl ho) (hl.step ho)

theorem Faultless.settle (hf : p.Faultless) (hl : Lone o finished n p .start) (ho : o.Bare) :
    p.settle.Faultless :=
  hf.run hl ho turnLimit

theorem Faultless.fire (hf : p.Faultless) (time : Nat) : (p.fire time).Faultless := by
  refine ⟨hf.dialer, fun d hd => hf.dials d (List.mem_of_mem_filter hd),
    fun caller attempt fault hin => ?_,
    hf.failures, hf.history⟩
  rcases List.mem_append.1 hin with hin | hdial
  · rcases List.mem_append.1 hin with hin | hnap
    · rcases List.mem_append.1 hin with hold | hwait
      · exact hf.ready caller attempt fault hold
      · obtain ⟨v, -, hv⟩ := List.mem_map.1 hwait
        cases hv
    · obtain ⟨nap, -, hnap⟩ := List.mem_map.1 hnap
      cases hnap
  · obtain ⟨d, hd, hwork⟩ := List.mem_filterMap.1 hdial
    unfold Dial.dueWork? at hwork
    split at hwork
    · rename_i due answer hdue
      obtain ⟨-, heq⟩ := Option.ite_none_right_eq_some.1 hwork
      cases heq
      exact hf.dials d hd due _ hdue
    · cases hwork

theorem Faultless.advance (hf : p.Faultless) (hl : Lone o finished n p .start)
    (ht : Timely delay limit n p) (hrest : p.CallsRest) (ho : o.Bare) (ms : Nat) :
    (p.advance ms).Faultless := by
  have hall := hl.occurs.advance_invariant
    (I := fun q =>
      (Lone o finished n q .start ∧ Timely delay limit n q ∧ q.CallsRest) ∧ q.Faultless)
    ⟨⟨hl, ht, hrest⟩, hf⟩ (fun _ ⟨⟨hl, ht, hrest⟩, hf⟩ hlater => ?_)
    (fun _ ⟨⟨hl, ht, hrest⟩, hf⟩ hle hnext => ?_) ms
  · exact hall.2
  · obtain ⟨hl, ht⟩ := hl.fire ho ht hrest hlater
    exact ⟨hl.settle ht ho, (hf.fire _).settle hl ho⟩
  · obtain ⟨hl, ht⟩ := hl.wait ho ht hrest hle hnext
    exact ⟨⟨hl, ht, hrest⟩, hf.dialer, hf.dials, hf.ready, hf.failures, hf.history⟩

theorem Faultless.get (hf : p.Faultless) : (p.get false).Faultless := by
  refine ⟨hf.dialer, hf.dials, fun caller attempt fault hin => ?_, hf.failures, hf.history⟩
  rcases List.mem_append.1 hin with hold | hnew
  · exact hf.ready caller attempt fault hold
  · cases List.mem_singleton.1 hnew

theorem Faultless.release (hf : p.Faultless) (hl : Lone o finished n p .start) (ho : o.Bare)
    (hholds : Session.Holds ⟨p, finished⟩ m id) : (p.release id).Faultless := by
  obtain ⟨-, hdials, new, hnew, hback⟩ := hl.release_frame ho hholds
  have hsame := sameDials_release p id
  refine ⟨fun attempt => ?_, fun d hd => hf.dials d (hdials ▸ hd),
    fun caller attempt fault hin => ?_,
    hsame.failures.trans hf.failures,
    fun m fault hin => hf.history m fault ((plain_release p id).mem_history hin rfl)⟩
  · rw [hsame.dialer]
    exact hf.dialer attempt
  · rw [hnew] at hin
    rcases List.mem_append.1 hin with hold | hadded
    · exact hf.ready caller attempt fault hold
    · cases hback _ hadded

end PooledRouting.Pool
