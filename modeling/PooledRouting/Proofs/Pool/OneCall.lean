import PooledRouting.Proofs.Pool.Bookkeeping
import PooledRouting.Proofs.Pool.Circuit
import PooledRouting.Proofs.Pool.Clock
import PooledRouting.Proofs.Pool.DialTimes
import PooledRouting.Proofs.Pool.Leases

/-!
# One call at a time

While no more than one call is under way, and nobody is cancelled, no call has
to wait: all slots are free when it comes (`Lone.slots_eq`).  So every call is let in,
and the line stays empty.
-/

namespace PooledRouting.Pool

variable {o : Options} {p q : Pool} {h k : Hand} {id : ConnectionId} {finished : List Nat}
  {m n : Nat}

/-! ## Pools without top-ups -/

/-- No hook looks at a connection, none is kept ready, and there is a slot. -/
structure Options.Bare (o : Options) : Prop where
  hooks : o.hooks = []
  minIdle : o.minIdle = 0
  poolSize : 0 < o.poolSize

theorem Options.Bare.unmarking (ho : o.Bare) : o.Unmarking :=
  unmarking_of_nil ho.hooks

/-- Nothing is topped up without an idle minimum. -/
theorem Occurs.topUps_eq_zero (hp : Occurs o p h) (ho : o.Bare) :
    p.topUps + h.idlePlaces = 0 := by
  have hroom : ∀ r : Pool, r.options = o → r.topUpRoom = 0 := fun r hr => by
    unfold topUpRoom
    rw [hr, if_pos (.inl ho.minIdle)]
  have htop : ∀ r : Pool, r.options = o → r.topUp.topUps = r.topUps := fun r hr => by
    unfold topUps
    rw [countP_tasks_topUp, hroom r hr, ite_self, Nat.add_zero]
  induction hp with
  | create dialer now background =>
    cases background with
    | false => rfl
    | true => exact htop (Pool.create o dialer now false) rfl
  | act hp ha ih =>
    rcases ha.topUps_cases hp.attempts with hle | ⟨rfl, rfl⟩
    · omega
    · rw [htop _ hp.options_eq]
      exact ih
  | next _ ih => exact ih
  | giveBack _ _ ih => exact ih

/-! ## Calls that are over -/

/-- The call has ended, and holds nothing any more. -/
def IsOver (p : Pool) (finished : List Nat) (n : Nat) : Prop :=
  n ∈ finished ∨ ∃ fault, .failed n fault ∈ p.history

theorem IsOver.endings_pos (hover : p.IsOver finished n) (hl : Leased ⟨p, finished⟩) :
    0 < p.endings n := by
  rcases hover with hin | ⟨fault, hfailed⟩
  · obtain ⟨id, hserved⟩ := hl.ended n hin
    exact Pool.endings_pos hserved (beq_self_eq_true _)
  · exact Pool.endings_pos hfailed (beq_self_eq_true _)

theorem IsOver.mono (hover : p.IsOver finished n) (hhistory : ∀ e ∈ p.history, e ∈ q.history) :
    q.IsOver finished n :=
  hover.imp_right fun ⟨fault, hin⟩ => ⟨fault, hhistory _ hin⟩

/-- All calls but one are over, nobody waits or is cancelled, and who comes is let
in. -/
structure Lone (o : Options) (finished : List Nat) (n : Nat) (p : Pool) (h : Hand) : Prop where
  occurs : Occurs o p h
  leased : Leased ⟨p, finished⟩
  others : ∀ m, 0 < m → m ≤ p.getCount → m ≠ n → p.IsOver finished m
  pool_open : p.closed = false
  fired : p.fired = []
  line : p.line = []
  letIn : ∀ m, 0 < m → m ≤ p.getCount →
    .admitted m ∈ p.history ∨ .arrive m ∈ p.ready ∨ h.work? = some (.arrive m)

/-- Who is on its way is the one call. -/
theorem Lone.call_eq (hl : Lone o finished n p h) (hplace : 0 < p.turns m + h.calls m) : m = n := by
  obtain ⟨hpos, hle⟩ : 0 < m ∧ m ≤ p.getCount := hl.occurs.called.made (by omega)
  by_contra hne
  have hended := (hl.others m hpos hle hne).endings_pos hl.leased
  have hplaces := hl.occurs.called.places_le m
  omega

/-- Until the one call is served nothing is checked out. -/
theorem Lone.inUseCount_eq_zero (hl : Lone o finished n p h) (hend : p.endings n = 0) :
    p.inUseCount = 0 := by
  have hc := hl.occurs.called
  have hnone : p.held = [] := by
    refine List.eq_nil_iff_forall_not_mem.2 fun id hin => ?_
    obtain ⟨m, hserved, hnot⟩ :=
      (hl.leased.held id).1 ((mem_held_iff hl.occurs.unique).1 hin)
    have hended : 0 < p.endings m := endings_pos hserved (beq_self_eq_true _)
    obtain ⟨hpos, hle⟩ : 0 < m ∧ m ≤ p.getCount := hc.made (by omega)
    rcases hl.others m hpos hle (by rintro rfl; omega) with hin | ⟨fault, hfailed⟩
    · exact hnot hin
    · cases hc.ending_eq m hserved hfailed (beq_self_eq_true _) (beq_self_eq_true _)
  rw [inUseCount_eq, hnone]
  rfl

/-- A call in hand has no other task that was let in beside it. -/
theorem Lone.admittedGets_eq_zero (hl : Lone o finished n p h) (hcall : h.call? = some m) :
    p.admittedGets = 0 := by
  have hone : h.calls m = 1 := calls_eq_one hcall
  refine List.countP_eq_zero.2 fun w hw hadmitted => ?_
  obtain ⟨l, hl'⟩ : ∃ l, w.call? = some l := by
    cases w with
    | admitted l => exact ⟨l, rfl⟩
    | dialed caller attempt fault =>
      cases caller with
      | get l => exact ⟨l, rfl⟩
      | _ => cases hadmitted
    | _ => cases hadmitted
  have hturn : 0 < p.turns l := List.countP_pos_iff.2 ⟨w, hw, beq_iff_eq.2 hl'⟩
  obtain rfl := hl.call_eq (m := l) (by omega)
  obtain rfl := hl.call_eq (m := m) (by omega)
  have hplaces := hl.occurs.called.places_le m
  omega

/-- All slots are free, but for the one of the call in hand. -/
theorem Lone.slots_eq (hl : Lone o finished n p h) (ho : o.Bare) (hcall : h.call? = some m) :
    p.slots + h.slots = o.poolSize := by
  have hone : h.calls m = 1 := calls_eq_one hcall
  obtain rfl := hl.call_eq (m := m) (by omega)
  have hplaces := hl.occurs.called.places_le m
  have hinUse := hl.inUseCount_eq_zero (by omega)
  have hadmitted := hl.admittedGets_eq_zero hcall
  have htopUps := hl.occurs.topUps_eq_zero ho
  have hslots := (hl.occurs.slotted ho.unmarking).conserved
  unfold busySlots at hslots
  rw [hl.occurs.options_eq] at hslots
  omega

/-! ## Acts of a turn -/

/-- The turn with which a call begins lets it in, unless there is a reason not to. -/
theorem Act.arrive_cases (ha : Act p h q k) (hw : h.work? = some (.arrive n)) :
    k.work? = some (.arrive n) ∨ .admitted n ∈ q.history ∨
      p.closed = true ∨ n ∈ p.fired ∨ h = .work (.arrive n) ∧ p.slots = 0 := by
  cases ha with
  | touch _ _ | closeConnection _ _ | look | retire _ | spare _ => exact .inl hw
  | turnAway hwhy =>
    cases hw
    rcases hwhy with ⟨hclosed, -⟩ | ⟨hfired, -⟩
    · exact .inr (.inr (.inl hclosed))
    · exact .inr (.inr (.inr (.inl hfired)))
  | tooLate _ _ hfull _ | join _ _ hfull _ =>
    cases hw
    exact .inr (.inr (.inr (.inr ⟨rfl, hfull⟩)))
  | claim _ _ _ =>
    cases hw
    exact .inr (.inl List.mem_cons_self)
  | strike hr _ | pass hr _ | refuseRemoval hr _ =>
    cases hr with
    | _ => cases hw
  | _ => cases hw

/-- The task is not one of a call. -/
def Work.isBackground : Work → Bool
  | .topUp | .probe _ => true
  | _ => false

/-- Turns are put at the end: of the head of the line, or in the background. -/
def Queues (p q : Pool) : Prop :=
  ∃ new, q.ready = p.ready ++ new ∧
    ∀ w ∈ new, (∃ v ∈ p.line, w = .admitted v.get) ∨ w.isBackground = true

theorem queues_of_eq (hready : q.ready = p.ready) : Queues p q :=
  ⟨[], by rw [hready, List.append_nil], nofun⟩

theorem queues_freeSlot (p : Pool) : Queues p p.freeSlot := by
  rcases freeSlot_cases p with ⟨-, hfree⟩ | ⟨v, rest, hhead, hfree⟩
  · rw [hfree]
    exact queues_of_eq rfl
  · rw [hfree]
    exact ⟨_, rfl, fun w hw => .inl ⟨v, hhead ▸ List.mem_cons_self, List.mem_singleton.1 hw⟩⟩

theorem queues_noteDialFailure (p : Pool) (reason : String) :
    Queues p (p.noteDialFailure reason) := by
  rcases noteDialFailure_cases p reason with hnone | ⟨-, -, hprobe⟩
  · rw [hnone]
    exact queues_of_eq rfl
  · rw [hprobe]
    exact ⟨_, rfl, fun w hw => .inr (List.mem_singleton.1 hw ▸ rfl)⟩

/-- Once a turn has begun, only such turns are added. -/
theorem Act.queues (ha : Act p h q k) (hh : h.isStart = false) : Queues p q := by
  cases ha with
  | shutDown _ | cancel _ | resolve _ _ | fire _ | get _ | take _ => cases hh
  | look => exact ⟨_, rfl, fun w hw => .inr (List.eq_of_mem_replicate hw ▸ rfl)⟩
  | finish | fail => exact queues_freeSlot p
  | checkIn => exact queues_freeSlot (p.count Counters.checkIn)
  | dialFailed _ | dialFailedLate _ | topUpFailed => exact queues_noteDialFailure p _
  | probeAgain _ _ => exact ⟨_, rfl, fun w hw => .inr (List.mem_singleton.1 hw ▸ rfl)⟩
  | closeConnection _ _ | shutNext _ | retire _ | adoptLate _ | adoptIdleLate _ =>
    rw [closeConnection_frame]
    exact queues_of_eq rfl
  | strike _ _ =>
    rw [strike_eq]
    exact queues_of_eq rfl
  | _ => exact queues_of_eq rfl

theorem Lone.leased_act (hl : Lone o finished n p h) (ho : o.Bare) (ha : Act p h q k) :
    Leased ⟨q, finished⟩ :=
  hl.leased.act (hl.occurs.fits ho.unmarking) (hl.occurs.options_eq ▸ ho.unmarking)
    hl.occurs.called ha

theorem Lone.act (hl : Lone o finished n p h) (ho : o.Bare) (ha : Act p h q k)
    (hh : h.isStart = false) : Lone o finished n q k := by
  have hcount := ((Acts.single ha).still hl.occurs hh).2
  have hopen := (ha.setting_eq hh).1.trans hl.pool_open
  -- Who comes finds a free slot.
  have hfree : ∀ get, h = .work (.arrive get) → p.slots ≠ 0 := by
    rintro get rfl hfull
    have hslots := hl.slots_eq ho (m := get) rfl
    have hsize := ho.poolSize
    have hnone : Hand.slots (.work (.arrive get)) = 0 := rfl
    omega
  refine ⟨hl.occurs.act ha, ?_, fun m hpos hle hne => ?_, hopen, ?_, ?_, fun m hpos hle => ?_⟩
  · exact hl.leased_act ho ha
  · exact (hl.others m hpos (hcount ▸ hle) hne).mono fun _ hin => ha.mem_history hin
  · rcases ha.fired_cases with hsame | ⟨rfl, -⟩
    · exact hsame.trans hl.fired
    · cases hh
  · cases ha.lines with
    | still hline => exact hline.trans hl.line
    | joined hcomes _ _ hfull _ _ => exact absurd hfull (hfree _ hcomes)
    | handed v hline _ => cases hl.line.symm.trans hline
    | left _ hline _ _ =>
      rw [hline, hl.line]
      rfl
    | shut hq =>
      rw [hq] at hopen
      cases hopen
  · rcases hl.letIn m hpos (hcount ▸ hle) with hin | hready | hhand
    · exact .inl (ha.mem_history hin)
    · rcases ha.mem_ready hready with hstill | rfl
      · exact .inr (.inl hstill)
      · exact .inr (.inr rfl)
    · rcases ha.arrive_cases hhand with hstill | hin | hclosed | hfired | ⟨hcomes, hfull⟩
      · exact .inr (.inr hstill)
      · exact .inl hin
      · cases hclosed.symm.trans hl.pool_open
      · rw [hl.fired] at hfired
        cases hfired
      · exact absurd hfull (hfree _ hcomes)

/-! ## Moves -/

theorem Lone.acts (hl : Lone o finished n p h) (ho : o.Bare) (hs : Acts p h q k)
    (hh : h.isStart = false) : Lone o finished n q k := by
  have hall := hs.invariant (I := fun r l => l.isStart = false ∧ Lone o finished n r l) ⟨hh, hl⟩
    fun ⟨hh, hl⟩ ha => ⟨(ha.goesOn hh).1, hl.act ho ha hh⟩
  exact hall.2

theorem Lone.next (hl : Lone o finished n p .done) : Lone o finished n p .start :=
  { hl with occurs := hl.occurs.next, letIn := hl.letIn }

/-- A move at which no call starts and the pool stays as it is for callers. -/
theorem Lone.still (hl : Lone o finished n p .start) (ho : o.Bare) (ha : Act p .start q .done)
    (hcount : q.getCount = p.getCount) (hopen : q.closed = p.closed) (hfired : q.fired = p.fired)
    (hline : q.line = p.line) : Lone o finished n q .start := by
  refine Lone.next ⟨hl.occurs.act ha, ?_, fun m hpos hle hne => ?_, hopen.trans hl.pool_open,
    hfired.trans hl.fired, hline.trans hl.line, fun m hpos hle => ?_⟩
  · exact hl.leased_act ho ha
  · exact (hl.others m hpos (hcount ▸ hle) hne).mono fun _ hin => ha.mem_history hin
  · rcases hl.letIn m hpos (hcount ▸ hle) with hin | hready | hhand
    · exact .inl (ha.mem_history hin)
    · exact .inr (.inl ((ha.mem_ready hready).resolve_right nofun))
    · cases hhand

theorem Lone.take (hl : Lone o finished n p .start) {w : Work} {rest : List Work}
    (hready : p.ready = w :: rest) : Lone o finished n { p with ready := rest } (.work w) := by
  refine { hl with occurs := hl.occurs.act (.take hready), leased := ?_, others := ?_, letIn := ?_ }
  · exact hl.leased.congr (fun _ => rfl) fun _ _ => .rfl
  · exact hl.others
  · intro m hpos hle
    rcases hl.letIn m hpos hle with hin | hcomes | hhand
    · exact .inl hin
    · rw [hready] at hcomes
      rcases List.mem_cons.1 hcomes with rfl | hrest
      · exact .inr (.inr rfl)
      · exact .inr (.inl hrest)
    · cases hhand

/-- A turn takes the task at the front, and adds none of a call. -/
theorem Lone.step (hl : Lone o finished n p .start) (ho : o.Bare) :
    Lone o finished n p.step .start := by
  cases hready : p.ready with
  | nil =>
    rw [step_of_settled hready]
    exact hl
  | cons w rest =>
    exact ((hl.take hready).acts ho (turn_acts hl.occurs.hooksKept hready) rfl).next

/-- Once a turn has begun, none of a call is added. -/
theorem Lone.ready_acts (hl : Lone o finished n p h) (ho : o.Bare) (hs : Acts p h q k)
    (hh : h.isStart = false) :
    ∃ new, q.ready = p.ready ++ new ∧ ∀ u ∈ new, u.isBackground = true := by
  have hall := hs.invariant
    (I := fun r l => l.isStart = false ∧ Lone o finished n r l ∧
      ∃ new, r.ready = p.ready ++ new ∧ ∀ u ∈ new, u.isBackground = true)
    ⟨hh, hl, [], (List.append_nil _).symm, nofun⟩
    fun ⟨hh, hl, new, hnew, hback⟩ ha => by
      refine ⟨(ha.goesOn hh).1, hl.act ho ha hh, ?_⟩
      obtain ⟨more, hmore, hwho⟩ := ha.queues hh
      refine ⟨new ++ more, by rw [hmore, hnew, List.append_assoc], fun u hu => ?_⟩
      rcases List.mem_append.1 hu with hold | hin
      · exact hback u hold
      · refine (hwho u hin).resolve_left ?_
        rintro ⟨v, hv, -⟩
        rw [hl.line] at hv
        cases hv
  exact hall.2.2

theorem Lone.ready_step (hl : Lone o finished n p .start) (ho : o.Bare) {w : Work}
    {rest : List Work} (hready : p.ready = w :: rest) :
    ∃ new, p.step.ready = rest ++ new ∧ ∀ u ∈ new, u.isBackground = true :=
  (hl.take hready).ready_acts ho (turn_acts hl.occurs.hooksKept hready) rfl

/-- The next call is the one call, if all are over. -/
theorem Lone.get (hl : Lone o finished n p .start) (ho : o.Bare)
    (hover : 0 < n → n ≤ p.getCount → p.IsOver finished n) :
    Lone o finished (p.getCount + 1) (p.get false) .start := by
  have ha : Act p .start (p.get false) .done := .get false
  refine Lone.next ⟨hl.occurs.act ha, ?_, fun m hpos hle hne => ?_, hl.pool_open, hl.fired, hl.line,
    fun m hpos hle => ?_⟩
  · exact hl.leased_act ho ha
  · have hold : m ≤ p.getCount := by
      have hcount : (p.get false).getCount = p.getCount + 1 := rfl
      omega
    by_cases hm : m = n
    · subst hm
      exact hover hpos hold
    · exact hl.others m hpos hold hm
  · by_cases hm : m = p.getCount + 1
    · subst hm
      exact .inr (.inl (List.mem_append_right _ List.mem_cons_self))
    · have hold : m ≤ p.getCount := by
        have hcount : (p.get false).getCount = p.getCount + 1 := rfl
        omega
      rcases hl.letIn m hpos hold with hin | hready | hhand
      · exact .inl hin
      · exact .inr (.inl (List.mem_append_left _ hready))
      · cases hhand

/-- With its mark taken off, a connection that a call holds is on its way back. -/
theorem Lone.giveBack (hl : Lone o finished n p .start)
    (hholds : Session.Holds ⟨p, finished⟩ m id) :
    Lone o (m :: finished) n (p.mark id false) (.holding none id) := by
  have hheld := (hl.leased.held id).2 ⟨m, hholds⟩
  refine { hl with occurs := hl.occurs.giveBack hheld, leased := ?_, others := ?_, letIn := ?_ }
  · exact hl.leased.giveBack hl.occurs.called hholds
  · intro l hpos hle hne
    exact (hl.others l hpos hle hne).imp_left (List.mem_cons_of_mem _)
  · intro l hpos hle
    exact (hl.letIn l hpos hle).imp_right fun hrest => .inl (hrest.resolve_right nofun)

/-- The one call gives its connection back. -/
theorem Lone.release (hl : Lone o finished n p .start) (ho : o.Bare)
    (hholds : Session.Holds ⟨p, finished⟩ m id) : Lone o (m :: finished) n (p.release id) .start :=
  have hheld := (hl.leased.held id).2 ⟨m, hholds⟩
  ((hl.giveBack hholds).acts ho (release_acts hheld) rfl).next

/-- No time passes then, no dial starts, and no call has a turn more. -/
theorem Lone.release_frame (hl : Lone o finished n p .start) (ho : o.Bare)
    (hholds : Session.Holds ⟨p, finished⟩ m id) :
    (p.release id).now = p.now ∧ (p.release id).dials = p.dials ∧
      ∃ new, (p.release id).ready = p.ready ++ new ∧ ∀ u ∈ new, u.isBackground = true := by
  have hheld := (hl.leased.held id).2 ⟨m, hholds⟩
  have hmarked := hl.giveBack hholds
  have hacts := release_acts hheld
  exact ⟨(hacts.still hmarked.occurs rfl).1, hacts.dials_eq rfl, hmarked.ready_acts ho hacts rfl⟩

end PooledRouting.Pool
