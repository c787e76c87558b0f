import PooledRouting.Proofs.Pool.Attempts

/-!
# Calls of `get`

A call of `get` is in one place from its start to its end and for ever
after: with a task that has it as its work, in the line, among the events
as served or failed, or in hand.  `traces` counts these places, and
`Called` says that there is exactly one for each call that was made.

So no call is lost, and none is in two places (`Called.places_le`).  In
particular none ends twice, which is what a lease needs.
-/

namespace PooledRouting.Pool

/-! ## The places of a call -/

/-- The call in hand. -/
def Hand.call? : Hand → Option Nat
  | .work w => w.call?
  | .admitted get | .picked get _ | .missed get | .calling (.get get) => some get
  | .holding get? _ | .leaving get? _ => get?
  | .retiring _ next | .looking next => next.call?
  | _ => none

/-- Whether the call is in hand, as a count. -/
def Hand.calls (get : Nat) (h : Hand) : Nat :=
  if h.call? == some get then 1 else 0

/-- The call has ended. -/
def Event.isEnding (get : Nat) : Event → Bool
  | .served n _ | .failed n _ => n == get
  | _ => false

/-- The tasks that have the call as their work. -/
def turns (p : Pool) (get : Nat) : Nat :=
  p.tasks.countP fun w => w.call? == some get

/-- The places in the line that the call has. -/
def waits (p : Pool) (get : Nat) : Nat :=
  p.line.countP fun w => w.get == get

/-- The times that the call has ended. -/
def endings (p : Pool) (get : Nat) : Nat :=
  p.history.countP (Event.isEnding get)

/-- The places of the call, but for the hand. -/
def traces (p : Pool) (get : Nat) : Nat :=
  p.turns get + p.waits get + p.endings get

/-- Every call that was made is in one place. -/
def Called (p : Pool) (h : Hand) : Prop :=
  ∀ get, p.traces get + h.calls get = if 0 < get ∧ get ≤ p.getCount then 1 else 0

variable {p q : Pool} {h k : Hand} {id : ConnectionId}

/-! ## One place -/

/-- A call is in no two places. -/
theorem Called.places_le (hi : Called p h) (get : Nat) :
    p.turns get + p.waits get + p.endings get + h.calls get ≤ 1 := by
  have hone := hi get
  unfold traces at hone
  split at hone <;> omega

/-- A call that is in some place was made. -/
theorem Called.made (hi : Called p h) {get : Nat}
    (hpos : 0 < p.turns get + p.waits get + p.endings get + h.calls get) :
    0 < get ∧ get ≤ p.getCount := by
  have hone := hi get
  unfold traces at hone
  split at hone <;> omega

theorem Called.le_getCount (hi : Called p h) {get : Nat}
    (hpos : 0 < p.turns get + p.waits get + p.endings get + h.calls get) : get ≤ p.getCount :=
  (hi.made hpos).2

theorem calls_eq_one {get : Nat} (hcall : h.call? = some get) : h.calls get = 1 := by
  simp [Hand.calls, hcall]

theorem turns_pos {w : Work} {get : Nat} (hw : w ∈ p.ready) (hcall : w.call? = some get) :
    0 < p.turns get :=
  List.countP_pos_iff.2 ⟨w, List.mem_append_left _ hw, by simp [hcall]⟩

/-- A call has a turn coming, or waits for a dial. -/
theorem turns_pos_iff {get : Nat} : 0 < p.turns get ↔
    (∃ w ∈ p.ready, w.call? = some get) ∨ ∃ d ∈ p.dials, d.caller.call? = some get := by
  unfold turns tasks
  rw [List.countP_append, List.countP_map, Nat.add_pos_iff_pos_or_pos, List.countP_pos_iff,
    List.countP_pos_iff]
  simp only [Function.comp, beq_iff_eq, Dial.call?_work]

theorem waits_pos {w : Waiting} (hw : w ∈ p.line) : 0 < p.waits w.get :=
  List.countP_pos_iff.2 ⟨w, hw, beq_self_eq_true _⟩

theorem endings_pos {e : Event} {get : Nat} (he : e ∈ p.history) (hend : e.isEnding get = true) :
    0 < p.endings get :=
  List.countP_pos_iff.2 ⟨e, he, hend⟩

/-- Among those that are counted there is one at most. -/
theorem eq_of_countP_le_one {α : Type} {P : α → Bool} {l : List α} (hone : l.countP P ≤ 1)
    {a b : α} (ha : a ∈ l) (hb : b ∈ l) (hPa : P a = true) (hPb : P b = true) : a = b := by
  have hmem : a ∈ l.filter P := List.mem_filter.2 ⟨ha, hPa⟩
  have hmem' : b ∈ l.filter P := List.mem_filter.2 ⟨hb, hPb⟩
  rw [List.countP_eq_length_filter] at hone
  generalize l.filter P = counted at hone hmem hmem'
  rcases counted with _ | ⟨_, _ | ⟨_, _⟩⟩
  · cases hmem
  · rw [List.mem_singleton] at hmem hmem'
    exact hmem.trans hmem'.symm
  · simp at hone

/-- A call ends in one event. -/
theorem Called.ending_eq (hi : Called p h) (get : Nat) {e e' : Event} (he : e ∈ p.history)
    (he' : e' ∈ p.history) (hend : e.isEnding get = true) (hend' : e'.isEnding get = true) :
    e = e' := by
  have hone : p.endings get ≤ 1 := by
    have hplaces := hi.places_le get
    omega
  exact eq_of_countP_le_one hone he he' hend hend'

/-- So it ends with one connection. -/
theorem Called.served_eq (hi : Called p h) {get : Nat} {other : ConnectionId}
    (hid : .served get id ∈ p.history) (hother : .served get other ∈ p.history) :
    id = other := by
  cases hi.ending_eq get hid hother (beq_self_eq_true _) (beq_self_eq_true _)
  rfl

/-! ## The places after a change -/

theorem traces_congr {get : Nat} (hturns : q.turns get = p.turns get)
    (hwaits : q.waits get = p.waits get) (hendings : q.endings get = p.endings get) :
    q.traces get = p.traces get := by
  unfold traces
  rw [hturns, hwaits, hendings]

theorem traces_enqueue (p : Pool) (w : Work) (get : Nat) :
    (p.enqueue w).traces get = p.traces get + (Hand.work w).calls get := by
  have hturns : (p.enqueue w).turns get = p.turns get + (Hand.work w).calls get := by
    unfold turns
    exact countP_tasks_enqueue p w
  have hwaits : (p.enqueue w).waits get = p.waits get := rfl
  have hendings : (p.enqueue w).endings get = p.endings get := rfl
  unfold traces
  omega

theorem traces_take {w : Work} {rest : List Work} (hready : p.ready = w :: rest) (get : Nat) :
    p.traces get = { p with ready := rest }.traces get + (Hand.work w).calls get := by
  have hturns : p.turns get = { p with ready := rest }.turns get + (Hand.work w).calls get := by
    unfold turns
    exact countP_tasks_take hready
  have hwaits : { p with ready := rest }.waits get = p.waits get := rfl
  have hendings : { p with ready := rest }.endings get = p.endings get := rfl
  unfold traces
  omega

theorem traces_dial (p : Pool) (d : Dial) (get : Nat) :
    { p with dials := p.dials ++ [d] }.traces get =
      p.traces get + (Hand.calling d.caller).calls get := by
  have hd : (Hand.calling d.caller).calls get = (Hand.work d.work).calls get := by
    unfold Dial.work
    cases d.caller with
    | _ => rfl
  have hturns : { p with dials := p.dials ++ [d] }.turns get =
      p.turns get + (Hand.calling d.caller).calls get := by
    unfold turns
    rw [hd]
    exact countP_tasks_dial p d
  have hwaits : { p with dials := p.dials ++ [d] }.waits get = p.waits get := rfl
  have hendings : { p with dials := p.dials ++ [d] }.endings get = p.endings get := rfl
  unfold traces
  omega

/-- A steady count of the tasks keeps the places. -/
theorem traces_steady (hline : q.line = p.line) (hhistory : q.history = p.history)
    (htasks : ∀ P : Work → Bool, Steady P → q.tasks.countP P = p.tasks.countP P) (get : Nat) :
    q.traces get = p.traces get := by
  refine traces_congr (htasks _ (steady_call get)) ?_ ?_
  · unfold waits
    rw [hline]
  · unfold endings
    rw [hhistory]

theorem traces_topUp (p : Pool) (get : Nat) : p.topUp.traces get = p.traces get :=
  traces_congr (p := p) (countP_tasks_topUp p) rfl rfl

/-- The `get` at the head of the line goes on with the slot. -/
theorem traces_freeSlot (p : Pool) (get : Nat) : p.freeSlot.traces get = p.traces get := by
  rcases freeSlot_cases p with ⟨-, hfree⟩ | ⟨w, rest, hline, hfree⟩
  · rw [hfree]
    rfl
  · have hwaits : p.waits get = { p with line := rest }.waits get + if w.get = get then 1 else 0 := by
      unfold waits
      rw [hline, List.countP_cons]
      simp
    have hcalls : (Hand.work (.admitted w.get)).calls get = if w.get = get then 1 else 0 := by
      simp [Hand.calls, Hand.call?, Work.call?]
    have hturns : { p with line := rest }.turns get = p.turns get := rfl
    have hendings : { p with line := rest }.endings get = p.endings get := rfl
    rw [hfree, traces_enqueue, hcalls]
    unfold traces
    omega

/-- The `get`s in the line go on when the line is closed. -/
theorem traces_shutDown (p : Pool) (get : Nat) : p.shutDown.traces get = p.traces get := by
  have hshut := countP_tasks_shutDown (steady_call get) p
  have hprobe := countP_probeDials (P := fun w => w.call? == some get) (fun _ _ => rfl) p.dials
  have hline : p.line.countP (fun w => (Work.refused w.get).call? == some get) = p.waits get := by
    unfold waits
    congr 1
  have hwaits : p.shutDown.waits get = 0 := rfl
  have hendings : p.shutDown.endings get = p.endings get := rfl
  unfold traces turns
  omega

/-- A `get` leaves the line, and nobody else does. -/
theorem traces_leave (p : Pool) (n get : Nat) :
    { p with line := p.line.filter fun w => w.get != n }.traces get +
      (if n = get then p.waits get else 0) = p.traces get := by
  have hwaits : { p with line := p.line.filter fun w => w.get != n }.waits get +
      (if n = get then p.waits get else 0) = p.waits get := by
    unfold waits
    rw [List.countP_filter]
    by_cases hn : n = get
    · have hnone : p.line.countP (fun w => w.get == get && w.get != n) = 0 := by
        refine List.countP_eq_zero.2 fun w _ => ?_
        simp [hn]
      rw [hnone, if_pos hn]
      omega
    · rw [if_neg hn]
      refine List.countP_congr fun w _ => ?_
      simp only [Bool.and_eq_true, beq_iff_eq, bne_iff_ne]
      constructor
      · exact fun h => h.1
      · exact fun h => ⟨h, fun hw => hn (hw.symm.trans h)⟩
  have hturns : { p with line := p.line.filter fun w => w.get != n }.turns get = p.turns get := rfl
  have hendings : { p with line := p.line.filter fun w => w.get != n }.endings get =
    p.endings get := rfl
  unfold traces
  omega

theorem traces_closeConnection (p : Pool) (id : ConnectionId) (get : Nat) :
    (p.closeConnection id).2.traces get = p.traces get := by
  have hframe := closeConnection_frame p id
  exact traces_congr (by rw [hframe]; rfl) (by rw [hframe]; rfl)
    (countP_history_closeConnection (fun _ => rfl) p id)

theorem traces_noteDialFailure (p : Pool) (reason : String) (get : Nat) :
    (p.noteDialFailure reason).traces get = p.traces get := by
  have hframe := noteDialFailure_frame p reason
  exact traces_steady (by rw [hframe]) (by rw [hframe])
    (fun P hP => countP_tasks_noteDialFailure hP p reason) get

theorem traces_lowerSize (p : Pool) (get : Nat) : p.lowerSize.traces get = p.traces get :=
  traces_congr (p := p) rfl rfl (countP_history_lowerSize (Q := Event.isEnding get) rfl p)

theorem traces_lowerIdleCount (p : Pool) (get : Nat) :
    p.lowerIdleCount.traces get = p.traces get :=
  traces_congr (p := p) rfl rfl (countP_history_lowerIdleCount (Q := Event.isEnding get) rfl p)

theorem traces_strike (p : Pool) (id : ConnectionId) (get : Nat) :
    (p.strike id).traces get = p.traces get := by
  have hframe := strike_eq p id
  exact traces_congr (by rw [hframe]; rfl) (by rw [hframe]; rfl)
    (countP_history_strike (Q := Event.isEnding get) rfl p id)

/-- A `get` joins the line. -/
theorem traces_join (p : Pool) (w : Waiting) (get : Nat) :
    { p with line := p.line ++ [w] }.traces get =
      p.traces get + (Hand.work (.arrive w.get)).calls get := by
  have hwaits : { p with line := p.line ++ [w] }.waits get =
      p.waits get + (Hand.work (.arrive w.get)).calls get := by
    unfold waits
    rw [List.countP_append, List.countP_singleton]
    rfl
  have hturns : { p with line := p.line ++ [w] }.turns get = p.turns get := rfl
  have hendings : { p with line := p.line ++ [w] }.endings get = p.endings get := rfl
  unfold traces
  omega

/-- A `get` ends without a connection. -/
theorem traces_fail (p : Pool) (n get : Nat) (fault : Fault) :
    (p.fail n fault).traces get = p.traces get + (Hand.leaving (some n) fault).calls get := by
  have hendings : (p.fail n fault).endings get =
      p.endings get + (Hand.leaving (some n) fault).calls get := List.countP_cons
  have hturns : (p.fail n fault).turns get = p.turns get := rfl
  have hwaits : (p.fail n fault).waits get = p.waits get := rfl
  unfold traces
  omega

/-- A `get` ends with a connection. -/
theorem traces_serve (p : Pool) (id : ConnectionId) (f : Connection → Connection)
    (n get : Nat) :
    (((p.modify id f).count Counters.checkOut).record (.served n id)).traces get +
      Hand.calls get .done = p.traces get + (Hand.holding (some n) id).calls get := by
  have hendings : (((p.modify id f).count Counters.checkOut).record (.served n id)).endings get =
      p.endings get + (Hand.holding (some n) id).calls get := List.countP_cons
  have hturns : (((p.modify id f).count Counters.checkOut).record (.served n id)).turns get =
      p.turns get := rfl
  have hwaits : (((p.modify id f).count Counters.checkOut).record (.served n id)).waits get =
      p.waits get := rfl
  have hdone : Hand.calls get .done = 0 := rfl
  unfold traces
  omega

/-! ## Each act -/

/-- A retirement takes the call along. -/
theorem Retires.calls_eq {f : Counters → Counters} (hr : Retires p id h f k) (get : Nat) :
    k.calls get = h.calls get := by
  cases hr with
  | _ => rfl

/-- The `get` that leaves the line was in it once. -/
theorem Called.waits_eq_one (hi : Called p h) {n : Nat} (hin : ∃ w ∈ p.line, w.get = n) :
    p.waits n = 1 := by
  obtain ⟨w, hw, rfl⟩ := hin
  have hpos := waits_pos hw
  have hplaces := hi.places_le w.get
  omega

/-- It is in the line no more, and has ended. -/
theorem traces_giveUp (hi : Called p h) {n : Nat} (hin : ∃ w ∈ p.line, w.get = n) (get : Nat)
    (fault : Fault) :
    ({ p with line := p.line.filter fun w => w.get != n }.fail n fault).traces get =
      p.traces get := by
  have hleave := traces_leave p n get
  have hone := hi.waits_eq_one hin
  rw [traces_fail]
  by_cases hn : n = get
  · have hcall : (Hand.leaving (some n) fault).calls get = 1 := by
      simp [Hand.calls, Hand.call?, hn]
    rw [if_pos hn, ← hn, hone] at hleave
    rw [hcall, ← hn]
    exact hleave
  · have hcall : (Hand.leaving (some n) fault).calls get = 0 := by
      simp [Hand.calls, Hand.call?, hn]
    rw [if_neg hn] at hleave
    rw [hcall]
    exact hleave

/-- Apart from the start of a call, no act adds or loses a place of one. -/
theorem Act.calls_eq (hi : Called p h) (hn : Attempts p h) (ha : Act p h q k) :
    (∃ cancelled, h = .start ∧ k = .done ∧ q = p.get cancelled) ∨
      q.getCount = p.getCount ∧
        ∀ get, q.traces get + k.calls get = p.traces get + h.calls get := by
  have hsame : q.getCount = p.getCount → (∀ get, q.traces get = p.traces get) →
      (∀ get, k.calls get = h.calls get) → (∃ cancelled, h = .start ∧ k = .done ∧
        q = p.get cancelled) ∨ q.getCount = p.getCount ∧
          ∀ get, q.traces get + k.calls get = p.traces get + h.calls get :=
    fun hcount htraces hcalls => .inr ⟨hcount, fun get => by rw [htraces, hcalls]⟩
  cases ha with
  | get cancelled => exact .inl ⟨cancelled, rfl, rfl, rfl⟩
  | cancel get =>
    have hframe := cancel_frame p get
    exact hsame (by rw [hframe]) (traces_steady (by rw [hframe]) (by rw [hframe])
      fun P hP => countP_tasks_cancel hP p get) fun _ => rfl
  | resolve attempt fault =>
    have hframe := resolve_frame p attempt fault
    exact hsame (by rw [hframe]) (traces_steady (by rw [hframe]) (by rw [hframe])
      fun P hP => countP_tasks_resolve hP p attempt fault (hn.dials_le attempt)) fun _ => rfl
  | fire ms =>
    exact hsame rfl (traces_steady rfl rfl fun P hP => countP_tasks_fire hP p _) fun _ => rfl
  | look => exact hsame rfl (traces_topUp p) fun _ => rfl
  | closeConnection _ id | shutNext _ | retire _ =>
    refine hsame ?_ (traces_closeConnection p _) fun _ => rfl
    rw [closeConnection_frame]
  | shutDown _ => exact hsame rfl (traces_shutDown p) fun _ => rfl
  | take hready =>
    rename_i w rest
    refine .inr ⟨rfl, fun get => ?_⟩
    have htake := traces_take hready get
    have hstart : Hand.calls get .start = 0 := rfl
    omega
  | turnAway _ => exact .inr ⟨rfl, fun get => traces_fail p _ get _⟩
  | tooLate _ _ _ _ => exact .inr ⟨rfl, fun get => traces_fail _ _ get _⟩
  | join _ _ _ _ =>
    refine .inr ⟨rfl, fun get => ?_⟩
    exact traces_join p _ get
  | refuse => exact .inr ⟨rfl, fun get => traces_fail p _ get _⟩
  | giveUp hin _ => exact .inr ⟨rfl, fun get => traces_giveUp hi hin get _⟩
  | timeOut hin =>
    obtain ⟨w, hw, hget, -⟩ := hin
    exact .inr ⟨rfl, fun get => traces_giveUp hi ⟨w, hw, hget⟩ get _⟩
  | pick _ _ => exact hsame rfl (traces_lowerIdleCount _) fun _ => rfl
  | answered _ =>
    rename_i caller fault _
    cases caller <;> exact .inr ⟨rfl, fun _ => rfl⟩
  | underWay _ _ =>
    rename_i caller due _ _
    exact .inr ⟨rfl, traces_dial p ⟨p.attemptCount + 1, caller, due⟩⟩
  | adoptLate _ | adoptIdleLate _ =>
    refine hsame ?_ (traces_closeConnection _ _) fun _ => rfl
    rw [closeConnection_frame]
    rfl
  | dialFailed _ =>
    refine hsame ?_ (fun get => ?_) fun _ => rfl
    · show (p.noteDialFailure _).getCount = _
      rw [noteDialFailure_frame]
    · rw [traces_lowerSize, traces_noteDialFailure]
  | dialFailedLate _ =>
    refine hsame ?_ (traces_noteDialFailure p _) fun _ => rfl
    rw [noteDialFailure_frame]
  | topUpFailed =>
    refine hsame ?_ (fun get => ?_) fun _ => rfl
    · show (p.noteDialFailure _).getCount = _
      rw [noteDialFailure_frame]
    · rw [traces_lowerIdleCount, traces_lowerSize, traces_noteDialFailure]
  | topUpDenied _ _ =>
    exact hsame rfl (fun get => (traces_lowerIdleCount _ get).trans (traces_lowerSize p get))
      fun _ => rfl
  | finish =>
    refine hsame ?_ (traces_freeSlot p) fun _ => rfl
    rw [freeSlot_frame]
  | fail =>
    refine .inr ⟨?_, fun get => ?_⟩
    · show p.freeSlot.getCount = _
      rw [freeSlot_frame]
    · rw [traces_fail, traces_freeSlot]
      rfl
  | checkIn =>
    refine hsame ?_ (traces_freeSlot _) fun _ => rfl
    rw [freeSlot_frame]
    rfl
  | adopt _ | adoptIdle _ =>
    rw [adopt_frame]
    exact .inr ⟨rfl, fun _ => rfl⟩
  | probeReached =>
    rw [reach_frame]
    exact .inr ⟨rfl, fun _ => rfl⟩
  | probeAgain _ _ => exact .inr ⟨rfl, traces_enqueue _ (.probe _)⟩
  | serve _ _ _ => exact .inr ⟨rfl, fun get => traces_serve p _ _ _ get⟩
  | strike hr _ =>
    refine hsame ?_ (traces_strike _ _) hr.calls_eq
    rw [strike_eq]
    rfl
  | pass hr _ => exact hsame rfl (fun _ => rfl) hr.calls_eq
  | refuseRemoval hr _ => exact hsame rfl (fun _ => rfl) hr.calls_eq
  | _ => exact .inr ⟨rfl, fun _ => rfl⟩

/-- Every act keeps each call in one place. -/
theorem Called.act (hi : Called p h) (hn : Attempts p h) (ha : Act p h q k) : Called q k := by
  intro get
  have hone := hi get
  rcases ha.calls_eq hi hn with ⟨cancelled, rfl, rfl, rfl⟩ | ⟨hcount, htraces⟩
  · -- The call that starts has the next number.
    have hstart : Hand.calls get .start = 0 := rfl
    have hdone : Hand.calls get .done = 0 := rfl
    have harrive : (p.get cancelled).traces get =
        p.traces get + (Hand.work (.arrive (p.getCount + 1))).calls get :=
      traces_enqueue _ (.arrive _) get
    have hcount : (p.get cancelled).getCount = p.getCount + 1 := rfl
    have hcall : (Hand.work (.arrive (p.getCount + 1))).calls get =
        if p.getCount + 1 = get then 1 else 0 := by
      simp [Hand.calls, Hand.call?, Work.call?]
    rw [hstart] at hone
    rw [harrive, hdone, hcount, hcall]
    split at hone <;> split <;> split <;> omega
  · rw [htraces, hcount]
    exact hone

/-! ## Every state -/

theorem called_create (o : Options) (dialer : Nat → Course) (now : Nat) (background : Bool) :
    Called (create o dialer now background) .start := by
  have hempty : Called (create o dialer now false) .start := by
    intro get
    have hplaces : (create o dialer now false).traces get + Hand.calls get .start = 0 := rfl
    have hcount : (create o dialer now false).getCount = 0 := rfl
    rw [hplaces, hcount, if_neg (by omega)]
  cases background with
  | false => exact hempty
  | true =>
    intro get
    have htop := traces_topUp (create o dialer now false) get
    exact (congrArg (· + Hand.calls get .start) htop).trans (hempty get)

variable {o : Options}

theorem Arises.called (hp : Arises o p h) : Called p h := by
  induction hp with
  | create dialer now background => exact called_create o dialer now background
  | act hp ha ih => exact ih.act hp.attempts ha
  | next _ ih | mark _ _ _ ih | release _ _ ih => exact ih

theorem Occurs.called (hp : Occurs o p h) : Called p h :=
  hp.arises.called

end PooledRouting.Pool
