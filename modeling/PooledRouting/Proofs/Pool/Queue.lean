import PooledRouting.Proofs.Pool.Calls
import PooledRouting.Proofs.Pool.Events
import PooledRouting.Proofs.Pool.Slots

/-!
# The line, the turns and the calls

What an act does to the history, to the turns that tasks have coming, and
to the line of waiting `get`s.

* At most one thing happens to a call in an act, and it is the call in hand
  or one in the line that looks again (`Act.happens`).
* A turn that was coming is still coming, or is in hand (`Act.mem_ready`).
  Turns are put at the end, and few of them let a `get` in (`Appends`).
* The line changes in four ways (`Lines`): a `get` joins at the end, the
  head is handed a slot, one that looks again leaves, or the line is closed.

With `Called` these follow one `get` through a run: it stays `Outside`
until it is admitted (`Arises.not_admitted`), and it is in the line once.
-/

namespace PooledRouting.Pool

variable {o : Options} {p q : Pool} {h k : Hand} {id : ConnectionId} {n : Nat} {e : Event}

/-! ## The history -/

/-- With this fault a `get` may end that has no slot. -/
def Fault.isWithout : Fault → Bool
  | .cancelled | .timedOut | .closed => true
  | _ => false

/-- What an act does to a call. -/
inductive Happens (p : Pool) (h : Hand) (q : Pool) (k : Hand) : Prop where
  | nothing (hplain : Plain p q)
  /-- It is let in: it found a free slot, or was handed one. -/
  | admitted {get : Nat} (hq : q.history = .admitted get :: p.history) (hk : k = .admitted get)
      (hh : h = .work (.arrive get) ∧ 0 < p.slots ∨ h = .work (.admitted get))
  /-- It ends with a connection. -/
  | served {get : Nat} {id : ConnectionId} (hq : q.history = .served get id :: p.history)
      (hh : h = .holding (some get) id)
  /-- It ends without one, and gives back a slot. -/
  | left {get : Nat} {fault : Fault} (hq : q.history = .failed get fault :: p.history)
      (hh : h = .leaving (some get) fault)
  /-- It ends without a slot. -/
  | refused {get : Nat} {fault : Fault} (hq : q.history = .failed get fault :: p.history)
      (hfault : fault.isWithout = true)
      (hh : h = .work (.arrive get) ∨ h = .work (.refused get) ∨
        h = .work (.recheck get) ∧ ∃ v ∈ p.line, v.get = get)

theorem Act.happens (ha : Act p h q k) : Happens p h q k := by
  cases ha with
  | cancel get =>
    rw [cancel_frame]
    exact .nothing (plain_of_eq rfl)
  | resolve attempt fault =>
    rw [resolve_frame]
    exact .nothing (plain_of_eq rfl)
  | closeConnection _ id | shutNext _ | retire _ => exact .nothing (plain_closeConnection p _)
  | claim _ _ hfree => exact .admitted rfl rfl (.inl ⟨rfl, hfree⟩)
  | accept _ _ => exact .admitted rfl rfl (.inr rfl)
  | turnAway hwhy =>
    refine .refused rfl ?_ (.inl rfl)
    rcases hwhy with ⟨-, rfl⟩ | ⟨-, rfl⟩ <;> rfl
  | tooLate _ _ _ _ => exact .refused rfl rfl (.inl rfl)
  | refuse =>
    refine .refused rfl ?_ (.inr (.inl rfl))
    split <;> rfl
  | giveUp hin _ => exact .refused rfl rfl (.inr (.inr ⟨rfl, hin⟩))
  | timeOut hin =>
    obtain ⟨v, hv, hget, -⟩ := hin
    exact .refused rfl rfl (.inr (.inr ⟨rfl, v, hv, hget⟩))
  | serve _ _ _ => exact .served rfl rfl
  | fail =>
    rw [freeSlot_frame]
    exact .left rfl rfl
  | pick _ _ => exact .nothing (plain_lowerIdleCount { p with idle := _ })
  | adopt _ | adoptIdle _ =>
    exact .nothing ((plain_connect p _ _).trans (plain_of_cons rfl rfl))
  | probeReached =>
    rename_i tries attempt
    have hreach : Plain p (p.record (.connected (.probe tries) attempt)) :=
      plain_of_cons (e := .connected (.probe tries) attempt) rfl rfl
    exact .nothing (hreach.trans (plain_of_cons (e := .transportClosed (.dialed attempt)) rfl rfl))
  | adoptLate _ | adoptIdleLate _ =>
    exact .nothing ((plain_connect p _ _).trans (plain_closeConnection _ _))
  | dialFailed _ => exact .nothing ((plain_noteDialFailure p _).trans (plain_lowerSize _))
  | dialFailedLate _ => exact .nothing (plain_noteDialFailure p _)
  | topUpFailed =>
    exact .nothing ((plain_noteDialFailure p _).trans
      ((plain_lowerSize _).trans (plain_lowerIdleCount _)))
  | topUpDenied _ _ => exact .nothing ((plain_lowerSize p).trans (plain_lowerIdleCount _))
  | finish | checkIn =>
    rw [freeSlot_frame]
    exact .nothing (plain_of_eq rfl)
  | strike _ _ => exact .nothing (plain_strike (p.count _) _)
  | _ => exact .nothing (plain_of_eq rfl)

/-- At most one thing happens to a call, and only to the one in hand or to
one in the line that looks again. -/
theorem Act.history_cases (ha : Act p h q k) :
    Plain p q ∨ ∃ e get, q.history = e :: p.history ∧ e.call? = some get ∧
      (h.call? = some get ∨ h = .work (.recheck get)) := by
  cases ha.happens with
  | nothing hplain => exact .inl hplain
  | admitted hq _ hh =>
    refine .inr ⟨_, _, hq, rfl, .inl ?_⟩
    rcases hh with ⟨rfl, -⟩ | rfl <;> rfl
  | served hq hh | left hq hh =>
    subst hh
    exact .inr ⟨_, _, hq, rfl, .inl rfl⟩
  | refused hq _ hh =>
    refine .inr ⟨_, _, hq, rfl, ?_⟩
    rcases hh with rfl | rfl | ⟨rfl, -⟩
    · exact .inl rfl
    · exact .inl rfl
    · exact .inr rfl

/-- What has happened stays. -/
theorem Act.mem_history (ha : Act p h q k) (he : e ∈ p.history) : e ∈ q.history := by
  rcases ha.history_cases with ⟨new, hq, -⟩ | ⟨e', get, hq, -⟩
  · rw [hq]
    exact List.mem_append_right _ he
  · rw [hq]
    exact List.mem_cons_of_mem _ he

/-- A `get` is admitted when it finds a free slot, or by the slot that it
was handed. -/
theorem Act.admitted_cases (ha : Act p h q k) (hin : .admitted n ∈ q.history) :
    .admitted n ∈ p.history ∨ k = .admitted n ∧
      (h = .work (.arrive n) ∧ 0 < p.slots ∨ h = .work (.admitted n)) := by
  cases ha.happens with
  | nothing hplain => exact .inl (hplain.mem_history hin rfl)
  | admitted hq hk hh =>
    rw [hq] at hin
    rcases List.mem_cons.1 hin with heq | hold
    · cases heq
      exact .inr ⟨hk, hh⟩
    · exact .inl hold
  | served hq _ | left hq _ | refused hq _ _ =>
    rw [hq] at hin
    rcases List.mem_cons.1 hin with heq | hold
    · cases heq
    · exact .inl hold

/-- A token fires when its `get` starts or is cancelled, and at no other
act. -/
theorem Act.fired_cases (ha : Act p h q k) :
    q.fired = p.fired ∨ h = .start ∧ p.fired ⊆ q.fired := by
  cases ha with
  | get cancelled =>
    refine .inr ⟨rfl, ?_⟩
    show p.fired ⊆ if cancelled then (p.getCount + 1) :: p.fired else p.fired
    split
    · exact List.subset_cons_self _ _
    · exact List.Subset.refl _
  | cancel get =>
    refine .inr ⟨rfl, ?_⟩
    unfold Pool.cancel
    split
    · exact List.Subset.refl _
    · dsimp only
      split <;> exact List.subset_cons_self _ _
  | resolve attempt fault =>
    rw [resolve_frame]
    exact .inl rfl
  | closeConnection _ id | shutNext _ | retire _ | adoptLate _ | adoptIdleLate _ =>
    rw [closeConnection_frame]
    exact .inl rfl
  | dialFailed _ | topUpFailed =>
    unfold lowerSize
    rw [noteDialFailure_frame]
    exact .inl rfl
  | dialFailedLate _ =>
    rw [noteDialFailure_frame]
    exact .inl rfl
  | finish | fail | checkIn =>
    rw [freeSlot_frame]
    exact .inl rfl
  | strike _ _ =>
    rw [strike_eq]
    exact .inl rfl
  | _ => exact .inl rfl

/-- A token that has fired has fired. -/
theorem Act.fired_subset (ha : Act p h q k) : p.fired ⊆ q.fired := by
  rcases ha.fired_cases with hsame | ⟨-, hmore⟩
  · rw [hsame]
    exact List.Subset.refl _
  · exact hmore

/-! ## The turns that are coming -/

/-- The call that the turn begins, or with which it goes on after a wait. -/
def Work.outside? : Work → Option Nat
  | .arrive get | .admitted get | .refused get => some get
  | _ => none

/-- Turns are put at the end.  Those of calls that have not been let in are
of three kinds: a new call begins, the head of the line was handed a slot,
or the line was closed. -/
def Appends (p q : Pool) : Prop :=
  ∃ new, q.ready = p.ready ++ new ∧ ∀ w ∈ new, w.outside? = none ∨
    w = .arrive (p.getCount + 1) ∨ (∃ v, p.line = v :: q.line ∧ w = .admitted v.get) ∨
      ∃ v ∈ p.line, w = .refused v.get

theorem appends_of_eq (hready : q.ready = p.ready) : Appends p q :=
  ⟨[], by rw [hready, List.append_nil], nofun⟩

theorem appends_of_append {new : List Work} (hready : q.ready = p.ready ++ new)
    (hnew : ∀ w ∈ new, w.outside? = none) : Appends p q :=
  ⟨new, hready, fun w hw => .inl (hnew w hw)⟩

theorem appends_enqueue (p : Pool) {w : Work} (hw : w.outside? = none) :
    Appends p (p.enqueue w) :=
  appends_of_append rfl fun _ hin => List.mem_singleton.1 hin ▸ hw

theorem appends_cancel (p : Pool) (get : Nat) : Appends p (p.cancel get) := by
  unfold Pool.cancel
  split
  · exact appends_of_eq rfl
  · dsimp only
    split
    · exact appends_enqueue { p with fired := get :: p.fired } rfl
    · exact appends_of_eq rfl

theorem appends_resolve (p : Pool) (attempt : Nat) (fault : Option String) :
    Appends p (p.resolve attempt fault).2 := by
  unfold Pool.resolve
  split
  · exact appends_of_eq rfl
  · exact appends_enqueue { p with dials := _ } rfl

theorem appends_fire (p : Pool) (time : Nat) : Appends p (p.fire time) := by
  obtain ⟨due, hready, hdue⟩ := ready_fire p time
  refine appends_of_append hready fun w hw => ?_
  rcases hdue w hw with ⟨v, -, rfl⟩ | ⟨tries, rfl⟩ | ⟨caller, attempt, fault, rfl⟩ <;> rfl

theorem appends_shutDown (p : Pool) : Appends p p.shutDown := by
  refine ⟨_, List.append_assoc .., fun w hw => ?_⟩
  rcases List.mem_append.1 hw with hprobe | hline
  · obtain ⟨tries, rfl⟩ := eq_probe_of_mem_probeTurns hprobe
    exact .inl rfl
  · obtain ⟨v, hv, rfl⟩ := List.mem_map.1 hline
    exact .inr (.inr (.inr ⟨v, hv, rfl⟩))

theorem appends_topUp (p : Pool) : Appends p p.topUp :=
  appends_of_append rfl fun _ hw => by
    rw [List.eq_of_mem_replicate hw]
    rfl

theorem appends_noteDialFailure (p : Pool) (reason : String) :
    Appends p (p.noteDialFailure reason) := by
  rcases noteDialFailure_cases p reason with hnoted | ⟨-, -, hnoted⟩
  · rw [hnoted]
    exact appends_of_eq rfl
  · rw [hnoted]
    exact appends_of_append rfl fun w hw => by
      rw [List.mem_singleton.1 hw]
      rfl

/-- A freed slot lets in the head of the line. -/
theorem appends_freeSlot (p : Pool) : Appends p p.freeSlot := by
  rcases freeSlot_cases p with ⟨-, hfree⟩ | ⟨v, rest, hline, hfree⟩
  · rw [hfree]
    exact appends_of_eq rfl
  · rw [hfree]
    exact ⟨[.admitted v.get], rfl, fun w hw =>
      .inr (.inr (.inl ⟨v, hline, List.mem_singleton.1 hw⟩))⟩

/-- An act takes the first turn in hand, or puts turns at the end. -/
theorem Act.ready_cases (ha : Act p h q k) :
    (∃ w rest, p.ready = w :: rest ∧ h = .start ∧ k = .work w ∧ q = { p with ready := rest }) ∨
      Appends p q := by
  cases ha with
  | take hready => exact .inl ⟨_, _, hready, rfl, rfl, rfl⟩
  | get cancelled =>
    exact .inr ⟨[.arrive (p.getCount + 1)], rfl, fun w hw => .inr (.inl (List.mem_singleton.1 hw))⟩
  | cancel get => exact .inr (appends_cancel p get)
  | resolve attempt fault => exact .inr (appends_resolve p attempt fault)
  | fire ms => exact .inr (appends_fire p _)
  | shutDown _ => exact .inr (appends_shutDown p)
  | look => exact .inr (appends_topUp p)
  | closeConnection _ id | shutNext _ | retire _ | adoptLate _ | adoptIdleLate _ =>
    rw [closeConnection_frame]
    exact .inr (appends_of_eq rfl)
  | dialFailed _ | dialFailedLate _ | topUpFailed => exact .inr (appends_noteDialFailure p _)
  | finish | fail => exact .inr (appends_freeSlot p)
  | checkIn => exact .inr (appends_freeSlot (p.count Counters.checkIn))
  | probeAgain _ _ =>
    exact .inr (appends_enqueue { p with lastDialFault := _ } rfl)
  | strike _ _ =>
    rw [strike_eq]
    exact .inr (appends_of_eq rfl)
  | _ => exact .inr (appends_of_eq rfl)

/-- A turn that was coming is still coming, or it is in hand. -/
theorem Act.mem_ready (ha : Act p h q k) {w : Work} (hw : w ∈ p.ready) :
    w ∈ q.ready ∨ k = .work w := by
  rcases ha.ready_cases with ⟨v, rest, hready, -, hk, rfl⟩ | ⟨new, hready, -⟩
  · rw [hready] at hw
    rcases List.mem_cons.1 hw with rfl | hrest
    · exact .inr hk
    · exact .inl hrest
  · rw [hready]
    exact .inl (List.mem_append_left _ hw)

/-- The turn of a call that has not been let in is an old one, begins the
next call, goes to the head of the line, or comes with the end of the
line. -/
theorem Act.mem_ready_cases (ha : Act p h q k) {w : Work} (hw : w ∈ q.ready)
    (hout : w.outside? = some n) :
    w ∈ p.ready ∨ w = .arrive (p.getCount + 1) ∨
      (∃ v, p.line = v :: q.line ∧ w = .admitted v.get) ∨ ∃ v ∈ p.line, w = .refused v.get := by
  rcases ha.ready_cases with ⟨v, rest, hready, -, -, rfl⟩ | ⟨new, hready, hnew⟩
  · exact .inl (hready ▸ List.mem_cons_of_mem _ hw)
  · rw [hready] at hw
    rcases List.mem_append.1 hw with hold | hin
    · exact .inl hold
    · exact .inr ((hnew w hin).resolve_left fun hnone => by
        cases hnone.symm.trans hout)

/-- The turn that is in hand. -/
def Hand.work? : Hand → Option Work
  | .work w => some w
  | .retiring _ next | .looking next => next.work?
  | _ => none

theorem Retires.work?_eq {f : Counters → Counters} (hr : Retires p id h f k) :
    k.work? = none := by
  cases hr with
  | _ => rfl

/-- A turn in hand was in hand before, or at the front, unless it goes on
with a dial. -/
theorem Act.work?_cases (ha : Act p h q k) {w : Work} (hw : k.work? = some w)
    (hout : w.outside? = some n) : h.work? = some w ∨ w ∈ p.ready := by
  cases ha with
  | take hready =>
    cases hw
    rw [hready]
    exact .inr List.mem_cons_self
  | answered _ =>
    cases hw
    cases hout
  | touch _ _ | closeConnection _ _ | look | retire _ | spare _ => exact .inl hw
  | strike hr _ | pass hr _ | refuseRemoval hr _ => cases hr.work?_eq.symm.trans hw
  | _ => cases hw

/-! ## The line -/

/-- What an act does to the line. -/
inductive Lines (p : Pool) (h : Hand) (q : Pool) : Prop where
  | still (hline : q.line = p.line)
  /-- A `get` that found no free slot joins at the end. -/
  | joined {get : Nat} (hh : h = .work (.arrive get)) (hopen : p.closed = false)
      (hlive : get ∉ p.fired) (hfull : p.slots = 0) (htimeout : p.options.poolTimeout ≠ 0)
      (hq : q = { p with line := p.line ++ [⟨get, p.now + p.options.poolTimeout⟩] })
  /-- The head is handed a slot. -/
  | handed (v : Waiting) (hline : p.line = v :: q.line)
      (hready : q.ready = p.ready ++ [.admitted v.get])
  /-- A `get` leaves that was cancelled or has waited too long. -/
  | left {get : Nat} {fault : Fault} (hh : h = .work (.recheck get))
      (hline : q.line = p.line.filter fun w => w.get != get)
      (hhistory : q.history = .failed get fault :: p.history)
      (hwhy : fault = .cancelled ∧ get ∈ p.fired ∨
        fault = .timedOut ∧ ∃ v ∈ p.line, v.get = get ∧ v.deadline ≤ p.now)
  /-- The line is closed. -/
  | shut (hq : q = p.shutDown)

theorem lines_freeSlot {r : Pool} (hline : r.line = p.line) (hready : r.ready = p.ready)
    (hqline : q.line = r.freeSlot.line) (hqready : q.ready = r.freeSlot.ready) : Lines p h q := by
  rcases freeSlot_cases r with ⟨-, hfree⟩ | ⟨v, rest, hhead, hfree⟩
  · rw [hfree] at hqline
    exact .still (hqline.trans hline)
  · rw [hfree] at hqline hqready
    refine .handed v ?_ (hqready.trans (hready ▸ rfl))
    rw [← hline, hhead, hqline]
    rfl

theorem Act.lines (ha : Act p h q k) : Lines p h q := by
  cases ha with
  | join hopen hlive hfull htimeout => exact .joined rfl hopen hlive hfull htimeout rfl
  | giveUp _ hfired => exact .left rfl rfl rfl (.inl ⟨rfl, hfired⟩)
  | timeOut hin => exact .left rfl rfl rfl (.inr ⟨rfl, hin⟩)
  | shutDown _ => exact .shut rfl
  | finish | fail => exact lines_freeSlot (r := p) rfl rfl rfl rfl
  | checkIn => exact lines_freeSlot (r := p.count Counters.checkIn) rfl rfl rfl rfl
  | cancel get =>
    rw [cancel_frame]
    exact .still rfl
  | resolve attempt fault =>
    rw [resolve_frame]
    exact .still rfl
  | closeConnection _ id | shutNext _ | retire _ | adoptLate _ | adoptIdleLate _ =>
    rw [closeConnection_frame]
    exact .still rfl
  | dialFailed _ | dialFailedLate _ | topUpFailed =>
    have hnoted := fun reason => congrArg Pool.line (noteDialFailure_frame p reason)
    exact .still (hnoted _)
  | strike _ _ =>
    rw [strike_eq]
    exact .still rfl
  | _ => exact .still rfl

/-! ## One call -/

/-- Nobody is in the line twice. -/
theorem Called.line_nodup (hi : Called p h) : (p.line.map Waiting.get).Nodup := by
  rw [List.nodup_iff_count_le_one]
  intro get
  have hwaits : (p.line.map Waiting.get).count get = p.waits get := by
    unfold waits List.count
    rw [List.countP_map]
    rfl
  have hplaces := hi.places_le get
  omega

theorem Called.waiting_eq (hi : Called p h) {v w : Waiting} (hv : v ∈ p.line) (hw : w ∈ p.line)
    (heq : v.get = w.get) : v = w :=
  List.inj_on_of_nodup_map hi.line_nodup hv hw heq

/-- A call has one turn coming. -/
theorem Called.turn_eq (hi : Called p h) {t u : Work} (ht : t ∈ p.ready) (hu : u ∈ p.ready)
    (hcall : t.call? = some n) (hcall' : u.call? = some n) : t = u := by
  have hone : p.turns n ≤ 1 := by
    have hplaces := hi.places_le n
    omega
  exact eq_of_countP_le_one hone (List.mem_append_left _ ht) (List.mem_append_left _ hu)
    (by simp [hcall]) (by simp [hcall'])

/-- Who has a turn coming is not in the line. -/
theorem Called.not_in_line (hi : Called p h) {t : Work} (ht : t ∈ p.ready)
    (hcall : t.call? = some n) : ∀ v ∈ p.line, v.get ≠ n := by
  rintro v hv rfl
  have hwaits := waits_pos hv
  have hturns := turns_pos ht hcall
  have hplaces := hi.places_le v.get
  omega

/-- The call has not been let in: it has not begun, it waits, or it has a
turn coming in which it begins or goes on after a wait. -/
def Outside (p : Pool) (h : Hand) (n : Nat) : Prop :=
  p.getCount < n ∨ (∃ v ∈ p.line, v.get = n) ∨
    ∃ w : Work, w.outside? = some n ∧ (w ∈ p.ready ∨ h.work? = some w)

theorem Work.call?_of_outside? {w : Work} (hw : w.outside? = some n) : w.call? = some n := by
  cases w with
  | arrive _ | admitted _ | refused _ => exact hw
  | recheck _ | topUp | probe _ | dialed _ _ _ => cases hw

/-- A call that has not been let in had not been let in before. -/
theorem Act.outside (ha : Act p h q k) (hout : Outside q k n) : Outside p h n := by
  rcases hout with hlater | ⟨v, hv, rfl⟩ | ⟨w, hw, hready | hhand⟩
  · exact .inl (Nat.lt_of_le_of_lt ha.later.gets hlater)
  · -- Who is in the line was in it, or joins it in its first turn.
    cases ha.lines with
    | still hline => exact .inr (.inl ⟨v, hline ▸ hv, rfl⟩)
    | joined hh _ _ _ _ hq =>
      rw [hq] at hv
      rcases List.mem_append.1 hv with hold | hnew
      · exact .inr (.inl ⟨v, hold, rfl⟩)
      · rw [List.mem_singleton.1 hnew, hh]
        exact .inr (.inr ⟨_, rfl, .inr rfl⟩)
    | handed head hline _ => exact .inr (.inl ⟨v, hline ▸ List.mem_cons_of_mem _ hv, rfl⟩)
    | left _ hline _ _ =>
      rw [hline] at hv
      exact .inr (.inl ⟨v, List.mem_of_mem_filter hv, rfl⟩)
    | shut hq =>
      rw [hq] at hv
      cases hv
  · rcases ha.mem_ready_cases hready hw with hold | rfl | ⟨v, hline, rfl⟩ | ⟨v, hv, rfl⟩
    · exact .inr (.inr ⟨w, hw, .inl hold⟩)
    · cases hw
      exact .inl (Nat.lt_succ_self _)
    · cases hw
      exact .inr (.inl ⟨v, hline ▸ List.mem_cons_self, rfl⟩)
    · cases hw
      exact .inr (.inl ⟨v, hv, rfl⟩)
  · rcases ha.work?_cases hhand hw with hold | hready
    · exact .inr (.inr ⟨w, hw, .inr hold⟩)
    · exact .inr (.inr ⟨w, hw, .inl hready⟩)

/-- With no turn in hand it does not matter what is. -/
theorem Outside.rest (hout : Outside p h n) (hh : h.work? = none) : Outside p k n := by
  refine hout.imp_right (Or.imp_right ?_)
  rintro ⟨w, hw, hready | hhand⟩
  · exact ⟨w, hw, .inl hready⟩
  · cases hh.symm.trans hhand

/-- A call that has been let in just now is not outside. -/
theorem Called.not_outside (hi : Called p (.admitted n)) : ¬Outside p (.admitted n) n := by
  have hcall : (Hand.admitted n).calls n = 1 := calls_eq_one rfl
  have hplaces := hi.places_le n
  have hmade : n ≤ p.getCount := hi.le_getCount (by omega)
  rintro (hlater | ⟨v, hv, rfl⟩ | ⟨w, hw, hready | hhand⟩)
  · omega
  · have hpos := waits_pos hv
    omega
  · have hpos := turns_pos hready (Work.call?_of_outside? hw)
    omega
  · cases hhand

/-- A call that has not been let in has not been admitted. -/
theorem Arises.not_admitted (hp : Arises o p h) (hout : Outside p h n) :
    .admitted n ∉ p.history := by
  induction hp with
  | create dialer now background =>
    have hempty : (Pool.create o dialer now background).history = [] := by
      cases background <;> rfl
    rw [hempty]
    exact List.not_mem_nil
  | act hp ha ih =>
    intro hin
    rcases ha.admitted_cases hin with hold | ⟨rfl, -⟩
    · exact ih (ha.outside hout) hold
    · exact (hp.act ha).called.not_outside hout
  | next _ ih | release _ _ ih => exact ih (hout.rest rfl)
  | mark _ _ _ ih => exact ih hout

/-- The call has had its first turn. -/
def Begun (p : Pool) (h : Hand) (n : Nat) : Prop :=
  n ≤ p.getCount ∧ .arrive n ∉ p.ready ∧ h.work? ≠ some (.arrive n)

theorem Begun.act (hb : Begun p h n) (ha : Act p h q k) : Begun q k n := by
  obtain ⟨hcount, hready, hhand⟩ := hb
  refine ⟨Nat.le_trans hcount ha.later.gets, fun hin => ?_, fun hin => ?_⟩
  · rcases ha.mem_ready_cases hin rfl with hold | heq | ⟨v, -, heq⟩ | ⟨v, -, heq⟩
    · exact hready hold
    · cases heq
      omega
    · cases heq
    · cases heq
  · exact (ha.work?_cases hin rfl).elim hhand hready

/-- Who waits has had its first turn. -/
theorem Called.begun (hi : Called p .start) {w : Waiting} (hw : w ∈ p.line) : Begun p .start w.get := by
  have hwaits := waits_pos hw
  refine ⟨hi.le_getCount (by omega), fun hready => ?_, nofun⟩
  exact hi.not_in_line hready rfl w hw rfl

/-- Nobody joins the line who has had its first turn. -/
theorem Begun.mem_line {w : Waiting} (hb : Begun p h w.get) (ha : Act p h q k)
    (hw : w ∈ q.line) : w ∈ p.line := by
  cases ha.lines with
  | still hline => exact hline ▸ hw
  | joined hh _ _ _ _ hq =>
    rw [hq] at hw
    rcases List.mem_append.1 hw with hold | hnew
    · exact hold
    · rw [hh, List.mem_singleton.1 hnew] at hb
      exact absurd rfl hb.2.2
  | handed v hline _ => exact hline ▸ List.mem_cons_of_mem v hw
  | left _ hline _ _ => exact List.mem_of_mem_filter (hline ▸ hw)
  | shut hq =>
    rw [hq] at hw
    cases hw

/-- Nobody waits for a slot that is free. -/
theorem Arises.line_eq_nil (hp : Arises o p h) : 0 < p.slots → p.line = [] := by
  induction hp with
  | create dialer now background =>
    intro _
    cases background <;> rfl
  | act _ ha ih => exact ha.line_eq_nil ih
  | next _ ih | mark _ _ _ ih | release _ _ ih => exact ih

theorem Arises.slots_eq_zero (hp : Arises o p h) {w : Waiting} (hw : w ∈ p.line) : p.slots = 0 :=
  Nat.eq_zero_of_not_pos fun hpos => by
    rw [hp.line_eq_nil hpos] at hw
    cases hw

end PooledRouting.Pool
