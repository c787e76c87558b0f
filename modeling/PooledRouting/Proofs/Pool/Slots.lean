import PooledRouting.Proofs.Pool.Roster

/-!
# Slots are conserved

Every slot of a pool is free, with a connection that somebody holds, with
an admitted `get` that has not ended, or with a top-up that has not ended.
`Slotted` adds the slot that a task may have in hand, and is kept by every
act: no way for a `get`, a checkout or a top-up to end loses its slot or
gives it back twice.

The gauge of checked-out connections goes with the marks.  It lags by one
while a checkout ends, which is the only time it could fall too low.

`slots_conserved` is the law for the states between two turns.
-/

namespace PooledRouting.Pool

/-! ## What is in hand -/

/-- The slot that a task holds. -/
def Work.slots (w : Work) : Nat :=
  if w.isAdmitted || w.isTopUp then 1 else 0

/-- The slot of a task that dials. -/
def Caller.slots : Caller → Nat
  | .get _ | .topUp => 1
  | .probe _ => 0

/-- The slot in hand. -/
def Hand.slots : Hand → Nat
  | .start | .done | .closing _ => 0
  | .work w => w.slots
  | .calling caller => caller.slots
  | .retiring _ next | .looking next => next.slots
  | .admitted _ | .picked _ _ | .missed _ | .holding _ _ | .leaving _ _ | .finishing => 1

/-- Whether a checkout is ending, as a count. -/
def Hand.checkIns : Hand → Nat
  | .holding get? _ | .leaving get? _ => if get?.isNone then 1 else 0
  | .retiring _ next | .looking next => next.checkIns
  | _ => 0

/-- The slots that tasks hold. -/
def busySlots (p : Pool) : Nat :=
  p.admittedGets + p.topUps

/-- All slots are accounted for, and so are the marks. -/
structure Slotted (p : Pool) (h : Hand) : Prop where
  conserved : p.slots + p.inUseCount + p.busySlots + h.slots = p.options.poolSize
  gauge : p.counters.inUse = p.inUseCount + h.checkIns
  line : 0 < p.slots → p.line = []

variable {p q : Pool} {h k : Hand} {id : ConnectionId}

/-! ## Slots of tasks -/

theorem work_slots_eq (w : Work) :
    w.slots = (if w.isAdmitted then 1 else 0) + if w.isTopUp then 1 else 0 := by
  cases w with
  | dialed caller attempt fault => cases caller <;> rfl
  | _ => rfl

/-- A task never has two slots in hand. -/
theorem Hand.slots_le_one (h : Hand) : h.slots ≤ 1 := by
  induction h with
  | retiring id next ih => exact ih
  | looking next ih => exact ih
  | work w =>
    unfold Hand.slots Work.slots
    split <;> omega
  | calling caller => cases caller <;> simp [Hand.slots, Caller.slots]
  | _ => simp [Hand.slots]

theorem busySlots_enqueue (p : Pool) (w : Work) :
    (p.enqueue w).busySlots = p.busySlots + w.slots := by
  unfold busySlots admittedGets topUps
  rw [countP_tasks_enqueue, countP_tasks_enqueue, work_slots_eq]
  omega

theorem busySlots_take {w : Work} {rest : List Work} (hready : p.ready = w :: rest) :
    p.busySlots = { p with ready := rest }.busySlots + w.slots := by
  unfold busySlots admittedGets topUps
  rw [countP_tasks_take hready, countP_tasks_take hready, work_slots_eq]
  omega

theorem busySlots_dial (p : Pool) (d : Dial) :
    { p with dials := p.dials ++ [d] }.busySlots = p.busySlots + d.caller.slots := by
  have hd : d.caller.slots = d.work.slots := by
    unfold Dial.work
    cases d.caller <;> rfl
  unfold busySlots admittedGets topUps
  rw [countP_tasks_dial, countP_tasks_dial, hd, work_slots_eq]
  omega

/-- A steady count of both kinds of tasks stays. -/
theorem busySlots_of_countP
    (hcount : ∀ P : Work → Bool, Steady P → q.tasks.countP P = p.tasks.countP P) :
    q.busySlots = p.busySlots := by
  unfold busySlots admittedGets topUps
  rw [hcount _ steady_isAdmitted, hcount _ steady_isTopUp]

theorem busySlots_noteDialFailure (p : Pool) (reason : String) :
    (p.noteDialFailure reason).busySlots = p.busySlots :=
  busySlots_of_countP fun _ hP => countP_tasks_noteDialFailure hP p reason

theorem busySlots_shutDown (p : Pool) : p.shutDown.busySlots = p.busySlots := by
  have hadmitted := countP_tasks_shutDown steady_isAdmitted p
  have htopUps := countP_tasks_shutDown steady_isTopUp p
  -- The dials that are lost are the probe's, which holds no slot.
  have h₁ := countP_probeDials (P := Work.isAdmitted) (fun _ _ => rfl) p.dials
  have h₂ := countP_probeDials (P := Work.isTopUp) (fun _ _ => rfl) p.dials
  have h₃ : p.line.countP (fun w => (Work.refused w.get).isAdmitted) = 0 :=
    List.countP_eq_zero.2 fun _ _ => by simp [Work.isAdmitted]
  have h₄ : p.line.countP (fun w => (Work.refused w.get).isTopUp) = 0 :=
    List.countP_eq_zero.2 fun _ _ => by simp [Work.isTopUp]
  unfold busySlots admittedGets topUps
  omega

theorem topUpRoom_le_slots (p : Pool) : p.topUpRoom ≤ p.slots := by
  unfold topUpRoom
  split
  · exact Nat.zero_le _
  · exact Nat.min_le_left _ _

theorem busySlots_topUp (p : Pool) : p.topUp.slots + p.topUp.busySlots = p.slots + p.busySlots := by
  have hroom := topUpRoom_le_slots p
  have hadmitted : p.topUp.admittedGets = p.admittedGets := countP_tasks_topUp p
  have htopUps : p.topUp.topUps = p.topUps + p.topUpRoom := countP_tasks_topUp p
  have hslots : p.topUp.slots = p.slots - p.topUpRoom := rfl
  unfold busySlots
  omega

/-- A freed slot is free or goes on to the next `get`. -/
theorem busySlots_freeSlot (p : Pool) :
    p.freeSlot.slots + p.freeSlot.busySlots = p.slots + p.busySlots + 1 := by
  rcases freeSlot_cases p with ⟨-, hfree⟩ | ⟨w, rest, -, hfree⟩
  · rw [hfree]
    have hbusy : { p with slots := p.slots + 1 }.busySlots = p.busySlots := rfl
    have hslots : { p with slots := p.slots + 1 }.slots = p.slots + 1 := rfl
    omega
  · rw [hfree, busySlots_enqueue]
    have hbusy : { p with line := rest }.busySlots = p.busySlots := rfl
    have hslots : ({ p with line := rest }.enqueue (.admitted w.get)).slots = p.slots := rfl
    have hone : (Work.admitted w.get).slots = 1 := rfl
    omega

/-! ## Marks -/

/-- The connections that somebody holds, by id. -/
def held (p : Pool) : List ConnectionId :=
  (p.connections.filter Connection.inUse).map Connection.id

theorem inUseCount_eq (p : Pool) : p.inUseCount = p.held.length := by
  unfold inUseCount held
  rw [List.length_map, List.countP_eq_length_filter]

theorem held_nodup (hu : p.Unique) : p.held.Nodup :=
  hu.sublist (List.filter_sublist.map _)

theorem mem_held_iff (hu : p.Unique) : id ∈ p.held ↔ p.isInUse id = true := by
  unfold held
  rw [isInUse_eq_true_iff, List.mem_map]
  constructor
  · rintro ⟨c, hc, rfl⟩
    obtain ⟨hmem, hheld⟩ := List.mem_filter.1 hc
    exact ⟨c, connection?_of_mem hu hmem, hheld⟩
  · rintro ⟨c, hc, hheld⟩
    exact ⟨c, List.mem_filter.2 ⟨connection?_mem hc, hheld⟩, connection?_id hc⟩

/-- The same marks are as many. -/
theorem inUseCount_congr (hp : p.Unique) (hq : q.Unique)
    (hmarks : ∀ id, q.isInUse id = p.isInUse id) : q.inUseCount = p.inUseCount := by
  have hperm : q.held.Perm p.held := by
    rw [List.perm_ext_iff_of_nodup (held_nodup hq) (held_nodup hp)]
    intro id
    rw [mem_held_iff hq, mem_held_iff hp, hmarks]
  rw [inUseCount_eq, inUseCount_eq, hperm.length_eq]

/-- One mark more counts one more. -/
theorem inUseCount_succ (hp : p.Unique) (hq : q.Unique) (hfree : p.isInUse id = false)
    (hheld : q.isInUse id = true)
    (hother : ∀ other, other ≠ id → q.isInUse other = p.isInUse other) :
    q.inUseCount = p.inUseCount + 1 := by
  have hnew : id ∉ p.held := by
    rw [mem_held_iff hp, hfree]
    exact Bool.false_ne_true
  have hperm : q.held.Perm (id :: p.held) := by
    rw [List.perm_ext_iff_of_nodup (held_nodup hq) (List.nodup_cons.2 ⟨hnew, held_nodup hp⟩)]
    intro other
    rw [mem_held_iff hq, List.mem_cons, mem_held_iff hp]
    by_cases hne : other = id
    · simp [hne, hheld]
    · simp [hne, hother other hne]
  rw [inUseCount_eq, inUseCount_eq, hperm.length_eq, List.length_cons]

/-! ## Each act -/

/-- A retirement takes the slot along, and moves no gauge. -/
theorem Retires.slots_eq {f : Counters → Counters} (hr : Retires p id h f k) :
    k.slots = h.slots ∧ k.checkIns = h.checkIns ∧ ∀ c, (f c).inUse = c.inUse := by
  cases hr with
  | _ => exact ⟨rfl, rfl, fun _ => rfl⟩

/-- No act loses a slot or makes one; only a `get` that ends with a
connection leaves its slot with that. -/
theorem Act.slots_eq (hn : Attempts p h) (hserve : ¬∃ get id, Serves p get id h q k)
    (ha : Act p h q k) :
    q.slots + q.busySlots + k.slots = p.slots + p.busySlots + h.slots := by
  have hsame : q.slots = p.slots → q.busySlots = p.busySlots → k.slots = h.slots →
      q.slots + q.busySlots + k.slots = p.slots + p.busySlots + h.slots := fun h₁ h₂ h₃ => by
    rw [h₁, h₂, h₃]
  cases ha with
  | serve hc hclosed hvalid => exact absurd ⟨_, _, .serve hc hclosed hvalid⟩ hserve
  | get cancelled => exact hsame rfl (busySlots_enqueue _ (.arrive _)) rfl
  | cancel get =>
    have hframe := cancel_frame p get
    exact hsame (by rw [hframe])
      (busySlots_of_countP fun P hP => countP_tasks_cancel hP p get) rfl
  | resolve attempt fault =>
    have hframe := resolve_frame p attempt fault
    have hone := hn.dials_le attempt
    exact hsame (by rw [hframe])
      (busySlots_of_countP fun P hP => countP_tasks_resolve hP p attempt fault hone) rfl
  | fire ms => exact hsame rfl (busySlots_of_countP fun P hP => countP_tasks_fire hP p _) rfl
  | look => exact congrArg (· + k.slots) (busySlots_topUp p)
  | closeConnection _ id | shutNext _ | retire _ | adoptLate _ | adoptIdleLate _ =>
    rw [closeConnection_frame]
    rfl
  | shutDown _ => exact hsame rfl (busySlots_shutDown p) rfl
  | take hready =>
    rename_i w rest
    have htake := busySlots_take hready
    show p.slots + { p with ready := rest }.busySlots + w.slots = p.slots + p.busySlots + 0
    omega
  | claim _ _ hfree =>
    show p.slots - 1 + p.busySlots + 1 = p.slots + p.busySlots + 0
    omega
  | answered _ =>
    rename_i caller fault _
    cases caller <;> rfl
  | underWay _ _ =>
    rename_i caller due _ _
    have hdial := busySlots_dial p ⟨p.attemptCount + 1, caller, due⟩
    show p.slots + { p with dials := p.dials ++ [Dial.mk (p.attemptCount + 1) caller due] }.busySlots
      + 0 = p.slots + p.busySlots + caller.slots
    rw [hdial]
    dsimp only
    omega
  | dialFailed _ | topUpFailed =>
    refine hsame ?_ (busySlots_noteDialFailure p _) rfl
    show (p.noteDialFailure _).slots = _
    rw [noteDialFailure_frame]
  | dialFailedLate _ =>
    refine hsame ?_ (busySlots_noteDialFailure p _) rfl
    rw [noteDialFailure_frame]
  | finish | fail => exact busySlots_freeSlot p
  | checkIn => exact busySlots_freeSlot (p.count Counters.checkIn)
  | probeAgain _ _ => exact hsame rfl (busySlots_enqueue _ (.probe _)) rfl
  | strike hr _ =>
    refine hsame ?_ ?_ hr.slots_eq.1
    · rw [strike_eq]
      rfl
    · rw [strike_eq]
      rfl
  | pass hr _ => exact hsame rfl rfl hr.slots_eq.1
  | refuseRemoval hr _ => exact hsame rfl rfl hr.slots_eq.1
  | _ => rfl

/-- Neither does the gauge move, until a checkout is over. -/
theorem Act.gauge_eq (hserve : ¬∃ get id, Serves p get id h q k) {n : Nat}
    (hg : p.counters.inUse = n + h.checkIns) (ha : Act p h q k) :
    q.counters.inUse = n + k.checkIns := by
  have hsame : q.counters.inUse = p.counters.inUse → k.checkIns = h.checkIns →
      q.counters.inUse = n + k.checkIns := fun h₁ h₂ => by
    rw [h₁, h₂]
    exact hg
  cases ha with
  | serve hc hclosed hvalid => exact absurd ⟨_, _, .serve hc hclosed hvalid⟩ hserve
  | cancel get =>
    rw [cancel_frame]
    exact hg
  | resolve attempt fault =>
    rw [resolve_frame]
    exact hg
  | closeConnection _ id | shutNext _ | retire _ | adoptLate _ | adoptIdleLate _ =>
    rw [closeConnection_frame]
    exact hg
  | dialFailed _ | topUpFailed =>
    unfold lowerSize
    rw [noteDialFailure_frame]
    exact hg
  | dialFailedLate _ =>
    rw [noteDialFailure_frame]
    exact hg
  | finish | fail =>
    rw [freeSlot_frame]
    exact hg
  | checkIn =>
    rw [freeSlot_frame]
    show p.counters.inUse - 1 = n + 0
    have hone : p.counters.inUse = n + 1 := hg
    omega
  | strike hr _ =>
    refine hsame ?_ hr.slots_eq.2.1
    rw [strike_eq]
    exact hr.slots_eq.2.2 _
  | pass hr _ => exact hsame (hr.slots_eq.2.2 _) hr.slots_eq.2.1
  | refuseRemoval hr _ => exact hsame (hr.slots_eq.2.2 _) hr.slots_eq.2.1
  | _ => exact hg

theorem line_freeSlot (p : Pool) (hl : 0 < p.slots → p.line = []) :
    0 < p.freeSlot.slots → p.freeSlot.line = [] := by
  rcases freeSlot_cases p with ⟨hempty, hfree⟩ | ⟨w, rest, hline, hfree⟩
  · rw [hfree]
    exact fun _ => hempty
  · rw [hfree]
    intro hpos
    cases hline.symm.trans (hl hpos)

/-- Nobody waits for a slot that is free. -/
theorem Act.line_eq_nil (hl : 0 < p.slots → p.line = []) (ha : Act p h q k) :
    0 < q.slots → q.line = [] := by
  cases ha with
  | cancel get =>
    rw [cancel_frame]
    exact hl
  | resolve attempt fault =>
    rw [resolve_frame]
    exact hl
  | look =>
    intro hpos
    have hroom : p.topUp.slots = p.slots - p.topUpRoom := rfl
    exact hl (by omega)
  | closeConnection _ id | shutNext _ | retire _ =>
    rw [closeConnection_frame]
    exact hl
  | adoptLate _ | adoptIdleLate _ =>
    rw [closeConnection_frame]
    exact hl
  | shutDown _ => exact fun _ => rfl
  | join _ _ hnone _ =>
    intro hpos
    exact absurd hpos (by simp [hnone])
  | claim _ _ _ => exact fun hpos => hl (Nat.lt_of_lt_of_le hpos (Nat.sub_le _ _))
  | giveUp _ _ =>
    intro hpos
    show p.line.filter _ = []
    rw [hl hpos]
    rfl
  | timeOut _ =>
    intro hpos
    show p.line.filter _ = []
    rw [hl hpos]
    rfl
  | dialFailed _ | topUpFailed =>
    unfold lowerSize
    rw [noteDialFailure_frame]
    exact hl
  | dialFailedLate _ =>
    rw [noteDialFailure_frame]
    exact hl
  | finish | fail => exact line_freeSlot p hl
  | checkIn => exact line_freeSlot _ hl
  | strike _ _ =>
    rw [strike_eq]
    exact hl
  | _ => exact hl

/-- A connection that is handed out takes the slot, and the gauge goes
up. -/
theorem Slotted.serve {get : Nat} (hslot : Slotted p h) (hs : Serves p get id h q k)
    (hcount : q.inUseCount = p.inUseCount + 1) : Slotted q k := by
  have hsum := hslot.conserved
  have hgauge := hslot.gauge
  cases hs with
  | serve _ _ _ =>
    have hslots : (Hand.holding (some get) id).slots = 1 := rfl
    have hcheckIns : (Hand.holding (some get) id).checkIns = 0 := rfl
    rw [hslots] at hsum
    rw [hcheckIns] at hgauge
    refine ⟨?_, ?_, hslot.line⟩
    · show p.slots + _ + p.busySlots + 0 = p.options.poolSize
      omega
    · show p.counters.inUse + 1 = _ + 0
      omega

theorem Slotted.act (hslot : Slotted p h) (hn : Attempts p h) (hf : h.Fits p)
    (ho : p.options.Unmarking) (ha : Act p h q k) : Slotted q k := by
  have hnew := (hn.act ha).unique
  by_cases hserve : ∃ get id, Serves p get id h q k
  · obtain ⟨get, id, hs⟩ := hserve
    exact hslot.serve hs (inUseCount_succ hn.unique hnew (hs.isInUse_before hf) hs.isInUse
      fun _ hne => hs.isInUse_of_ne hne)
  · have hmarks := (ha.isInUse_cases hf ho).resolve_left hserve
    have hcount := inUseCount_congr hn.unique hnew hmarks
    have hslots := ha.slots_eq hn hserve
    have hsum := hslot.conserved
    refine ⟨?_, ?_, ha.line_eq_nil hslot.line⟩
    · rw [ha.later.options]
      omega
    · rw [hcount]
      exact ha.gauge_eq hserve hslot.gauge

/-! ## Every state -/

theorem slotted_create (o : Options) (dialer : Nat → Course) (now : Nat)
    (background : Bool) : Slotted (create o dialer now background) .start := by
  have hnew : Slotted (create o dialer now false) .start :=
    ⟨by simp [create, inUseCount, busySlots, admittedGets, topUps, tasks, Hand.slots], rfl,
      fun _ => rfl⟩
  cases background with
  | false => exact hnew
  | true =>
    have htopUp := busySlots_topUp (create o dialer now false)
    have hsum := hnew.conserved
    refine ⟨?_, rfl, fun _ => rfl⟩
    show (create o dialer now false).topUp.slots + (create o dialer now false).inUseCount +
      (create o dialer now false).topUp.busySlots + 0 = o.poolSize
    have hstart : Hand.slots .start = 0 := rfl
    have hsize : (create o dialer now false).options.poolSize = o.poolSize := rfl
    omega

/-- A checkout that ends has its slot in hand. -/
theorem Slotted.giveBack (hs : Slotted p .start) (hp : p.Unique) (hq : (p.mark id false).Unique)
    (hheld : p.isInUse id = true) : Slotted (p.mark id false) (.holding none id) := by
  have hmarks := isInUse_mark_false p id
  have hless : p.inUseCount = (p.mark id false).inUseCount + 1 :=
    inUseCount_succ hq hp (by simp [hmarks]) hheld fun other hne => by simp [hmarks, hne]
  have hsum := hs.conserved
  have hgauge := hs.gauge
  have hstart : Hand.slots .start = 0 := rfl
  have hquiet : Hand.checkIns .start = 0 := rfl
  refine ⟨?_, ?_, hs.line⟩
  · show p.slots + (p.mark id false).inUseCount + p.busySlots + 1 = p.options.poolSize
    omega
  · show p.counters.inUse = (p.mark id false).inUseCount + 1
    omega

variable {o : Options}

theorem Occurs.slotted (hp : Occurs o p h) (ho : o.Unmarking) : Slotted p h := by
  induction hp with
  | create dialer now background => exact slotted_create o dialer now background
  | act hp ha ih => exact ih.act hp.attempts (hp.fits ho) (hp.options_eq ▸ ho) ha
  | next _ ih => exact ⟨ih.conserved, ih.gauge, ih.line⟩
  | giveBack hp hheld ih => exact ih.giveBack hp.unique (hp.giveBack hheld).unique hheld

/-- In every reachable state each slot is free, with a held connection,
with an admitted `get` or with a top-up; the gauge shows the held
connections; and nobody waits while a slot is free. -/
theorem slots_conserved (ho : o.Unmarking) (hp : Reachable o p) :
    p.slots + p.inUseCount + p.admittedGets + p.topUps = o.poolSize ∧
      p.stats.inUseConns = p.inUseCount ∧ (0 < p.slots → p.line = []) := by
  have hs := hp.occurs.slotted ho
  have hsum := hs.conserved
  rw [hp.occurs.options_eq] at hsum
  refine ⟨?_, hs.gauge, hs.line⟩
  have hstart : Hand.slots .start = 0 := rfl
  unfold busySlots at hsum
  omega

theorem slots_conserved_served :
    let p := (create { poolSize := 2, minIdle := 1 } (fun _ => .answer 0 none) 0 true).after
      [.get false, .turn, .turn, .get false]
    p.inUseCount = 1 ∧ p.slots + p.inUseCount + p.admittedGets + p.topUps = 2 ∧
      p.stats.inUseConns = p.inUseCount ∧ (0 < p.slots → p.line = []) :=
  ⟨by decide +kernel, slots_conserved (Options.unmarking_of_nil rfl) ((Reachable.create _ _ _).after _)⟩

end PooledRouting.Pool
