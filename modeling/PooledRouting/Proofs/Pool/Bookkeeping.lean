import PooledRouting.Proofs.Pool.Roster

/-!
# The counts of an open pool

`size` and `idleCount` run ahead of the lists `tracked` and `idle`: a
`get` that dials has its place in `size` already, and a top-up has one in
both.  `Booked` says by how much, with the place that a task may have in
hand counted in, and that no count was ever to fall below zero.

`counts_match` is the law for the states between two turns.  It also says
how the lists go with the marks, which `Roster` has from the acts.
-/

namespace PooledRouting.Pool

/-! ## What is in hand -/

/-- The place in `size` that is in hand, for a connection to come. -/
def Hand.places : Hand → Nat
  | .work w => if w.isGetDial || w.isTopUp then 1 else 0
  | .calling (.get _) | .calling .topUp => 1
  | .retiring _ next | .looking next => next.places
  | _ => 0

/-- The place in `idleCount` that is in hand. -/
def Hand.idlePlaces : Hand → Nat
  | .work w => if w.isTopUp then 1 else 0
  | .calling .topUp => 1
  | .retiring _ next | .looking next => next.idlePlaces
  | _ => 0

/-- A count was to fall below zero. -/
def Event.isClamped : Event → Bool
  | .clamped => true
  | _ => false

/-- The times that a count of the open pool was to fall below zero. -/
def clampings (p : Pool) : Nat :=
  p.history.countP Event.isClamped

/-- The places that are kept for connections to come. -/
def reserved (p : Pool) : Nat :=
  p.getDials + p.topUps

/-- While a pool is open its counts are those of its lists and of the
dials that they run ahead by, with so many places in hand. -/
structure Booked (p : Pool) (places idlePlaces : Nat) : Prop where
  size : p.closed = false → p.size = p.tracked.length + p.reserved + places
  idle : p.closed = false → p.idleCount = p.idle.length + p.topUps + idlePlaces
  unclamped : p.clampings = 0

variable {p q : Pool} {h k : Hand} {id : ConnectionId} {n m : Nat}

/-! ## Places of tasks -/

theorem work_places_eq (w : Work) : (Hand.work w).places =
    (if w.isGetDial then 1 else 0) + if w.isTopUp then 1 else 0 := by
  cases w with
  | dialed caller attempt fault => cases caller <;> rfl
  | _ => rfl

theorem reserved_enqueue (p : Pool) (w : Work) :
    (p.enqueue w).reserved = p.reserved + (Hand.work w).places := by
  unfold reserved getDials topUps
  rw [countP_tasks_enqueue, countP_tasks_enqueue, work_places_eq]
  omega

theorem topUps_enqueue (p : Pool) (w : Work) :
    (p.enqueue w).topUps = p.topUps + (Hand.work w).idlePlaces :=
  countP_tasks_enqueue p w

theorem topUps_take {w : Work} {rest : List Work} (hready : p.ready = w :: rest) :
    p.topUps = { p with ready := rest }.topUps + (Hand.work w).idlePlaces :=
  countP_tasks_take hready

theorem reserved_take {w : Work} {rest : List Work} (hready : p.ready = w :: rest) :
    p.reserved = { p with ready := rest }.reserved + (Hand.work w).places := by
  unfold reserved getDials topUps
  rw [countP_tasks_take hready, countP_tasks_take hready, work_places_eq]
  omega

theorem reserved_dial (p : Pool) (d : Dial) :
    { p with dials := p.dials ++ [d] }.reserved = p.reserved + (Hand.calling d.caller).places := by
  have hd : (Hand.calling d.caller).places = (Hand.work d.work).places := by
    unfold Dial.work
    cases d.caller <;> rfl
  unfold reserved getDials topUps
  rw [countP_tasks_dial, countP_tasks_dial, hd, work_places_eq]
  omega

theorem topUps_dial (p : Pool) (d : Dial) :
    { p with dials := p.dials ++ [d] }.topUps = p.topUps + (Hand.calling d.caller).idlePlaces := by
  have hd : (Hand.calling d.caller).idlePlaces = if d.work.isTopUp then 1 else 0 := by
    unfold Dial.work
    cases d.caller <;> rfl
  unfold topUps
  rw [countP_tasks_dial, hd]

/-! ## Changes that keep the books -/

/-- A closed pool keeps no books. -/
theorem booked_of_closed (hclosed : p.closed = true) (hclamped : p.clampings = 0) :
    Booked p n m :=
  ⟨fun hopen => (nomatch hclosed.symm.trans hopen),
    fun hopen => (nomatch hclosed.symm.trans hopen), hclamped⟩

/-- The books stay right if neither the lists nor the counts change, and
the tasks keep their places. -/
theorem Booked.congr (hb : Booked p n m) (hclosed : q.closed = p.closed)
    (htracked : q.tracked = p.tracked) (hidle : q.idle = p.idle) (hsize : q.size = p.size)
    (hcount : q.idleCount = p.idleCount) (hreserved : q.reserved = p.reserved)
    (htopUps : q.topUps = p.topUps) (hhistory : q.clampings = p.clampings) : Booked q n m := by
  refine ⟨?_, ?_, ?_⟩
  · rw [hclosed, htracked, hsize, hreserved]
    exact hb.size
  · rw [hclosed, hidle, hcount, htopUps]
    exact hb.idle
  · rw [hhistory]
    exact hb.unclamped

/-- So they do if every steady count of the tasks stays. -/
theorem Booked.steady (hb : Booked p n m) (hclosed : q.closed = p.closed)
    (htracked : q.tracked = p.tracked) (hidle : q.idle = p.idle) (hsize : q.size = p.size)
    (hcount : q.idleCount = p.idleCount) (hhistory : q.clampings = p.clampings)
    (htasks : ∀ P : Work → Bool, Steady P → q.tasks.countP P = p.tasks.countP P) :
    Booked q n m := by
  refine hb.congr hclosed htracked hidle hsize hcount ?_ (htasks _ steady_isTopUp) hhistory
  unfold reserved getDials topUps
  rw [htasks _ steady_isGetDial, htasks _ steady_isTopUp]

theorem Booked.cancel (hb : Booked p n m) (get : Nat) : Booked (p.cancel get) n m := by
  have hframe := cancel_frame p get
  exact hb.steady (by rw [hframe]) (by rw [hframe]) (by rw [hframe]) (by rw [hframe])
    (by rw [hframe]) (by rw [hframe]; rfl) fun P hP => countP_tasks_cancel hP p get

theorem Booked.resolve (hb : Booked p n m) {attempt : Nat}
    (hone : p.dials.countP (fun d => d.attempt == attempt) ≤ 1) (fault : Option String) :
    Booked (p.resolve attempt fault).2 n m := by
  have hframe := resolve_frame p attempt fault
  exact hb.steady (by rw [hframe]) (by rw [hframe]) (by rw [hframe]) (by rw [hframe])
    (by rw [hframe]) (by rw [hframe]; rfl)
    fun P hP => countP_tasks_resolve hP p attempt fault hone

theorem Booked.noteDialFailure (hb : Booked p n m) (reason : String) :
    Booked (p.noteDialFailure reason) n m := by
  have hframe := noteDialFailure_frame p reason
  exact hb.steady (by rw [hframe]) (by rw [hframe]) (by rw [hframe]) (by rw [hframe])
    (by rw [hframe]) (by rw [hframe]; rfl)
    fun P hP => countP_tasks_noteDialFailure hP p reason

theorem clampings_closeConnection (p : Pool) (id : ConnectionId) :
    (p.closeConnection id).2.clampings = p.clampings :=
  countP_history_closeConnection (fun _ => rfl) p id

theorem Booked.closeConnection (hb : Booked p n m) (id : ConnectionId) :
    Booked (p.closeConnection id).2 n m := by
  have hframe := closeConnection_frame p id
  exact hb.congr (by rw [hframe]) (by rw [hframe]) (by rw [hframe]) (by rw [hframe])
    (by rw [hframe]) (by rw [hframe]; rfl) (by rw [hframe]; rfl) (clampings_closeConnection p id)

theorem Booked.freeSlot (hb : Booked p n m) : Booked p.freeSlot n m := by
  rcases freeSlot_cases p with ⟨-, hfree⟩ | ⟨w, rest, -, hfree⟩
  · rw [hfree]
    exact ⟨hb.size, hb.idle, hb.unclamped⟩
  · rw [hfree]
    exact hb.congr rfl rfl rfl rfl rfl (reserved_enqueue { p with line := rest } _)
      (topUps_enqueue { p with line := rest } _) rfl

/-- A top-up takes a place in either count. -/
theorem Booked.topUp (hb : Booked p n m) : Booked p.topUp n m := by
  have hgets : p.topUp.getDials = p.getDials := countP_tasks_topUp p
  have htopUps : p.topUp.topUps = p.topUps + p.topUpRoom := countP_tasks_topUp p
  refine ⟨fun hopen => ?_, fun hopen => ?_, hb.unclamped⟩
  · have hsize := hb.size hopen
    show p.size + p.topUpRoom = p.tracked.length + p.topUp.reserved + n
    unfold reserved at hsize ⊢
    omega
  · have hidle := hb.idle hopen
    show p.idleCount + p.topUpRoom = p.idle.length + p.topUp.topUps + m
    omega

/-! ## Lowered counts -/

/-- A place that is given up was counted before. -/
theorem Booked.lowerSize (hb : Booked p (n + 1) m) : Booked p.lowerSize n m := by
  refine ⟨fun hopen => ?_, hb.idle, ?_⟩
  · have hsize := hb.size hopen
    show p.size - 1 = p.tracked.length + p.reserved + n
    omega
  · have hpos : ¬(p.size = 0 ∧ p.closed = false) := fun h => by
      have hsize := hb.size h.2
      omega
    unfold Pool.lowerSize clampings
    dsimp only
    rw [if_neg hpos]
    exact hb.unclamped

theorem Booked.lowerIdleCount (hb : Booked p n (m + 1)) : Booked p.lowerIdleCount n m := by
  refine ⟨hb.size, fun hopen => ?_, ?_⟩
  · have hidle := hb.idle hopen
    show p.idleCount - 1 = p.idle.length + p.topUps + m
    omega
  · have hpos : ¬(p.idleCount = 0 ∧ p.closed = false) := fun h => by
      have hidle := hb.idle h.2
      omega
    unfold Pool.lowerIdleCount clampings
    dsimp only
    rw [if_neg hpos]
    exact hb.unclamped

/-- A connection that leaves the lists leaves the counts. -/
theorem Booked.strike (hb : Booked p n m) (hid : id ∈ p.tracked) : Booked (p.strike id) n m := by
  have htracked : (p.tracked.erase id).length + 1 = p.tracked.length :=
    List.length_erase_add_one hid
  have hsize : Booked { p with tracked := p.tracked.erase id } (n + 1) m :=
    ⟨fun hopen => by
      have := hb.size hopen
      show p.size = (p.tracked.erase id).length + p.reserved + (n + 1)
      omega, hb.idle, hb.unclamped⟩
  by_cases hidle : id ∈ p.idle
  · rw [strike_of_mem hidle]
    have hlength : (p.idle.erase id).length + 1 = p.idle.length :=
      List.length_erase_add_one hidle
    refine Booked.lowerIdleCount ⟨hsize.lowerSize.size, fun hopen => ?_, hsize.lowerSize.unclamped⟩
    have := hb.idle hopen
    show p.idleCount = (p.idle.erase id).length + p.topUps + (m + 1)
    omega
  · rw [strike_of_not_mem hidle]
    exact hsize.lowerSize

/-! ## Each act -/

/-- What a retirement leaves in hand takes no place. -/
theorem Retires.places_eq {f : Counters → Counters} (hr : Retires p id h f k) :
    k.places = h.places ∧ k.idlePlaces = h.idlePlaces := by
  cases hr with
  | _ => exact ⟨rfl, rfl⟩

/-- Every act keeps the books. -/
theorem Booked.act (hb : Booked p h.places h.idlePlaces) (hn : Attempts p h)
    (ha : Act p h q k) : Booked q k.places k.idlePlaces := by
  have hsize := hb.size
  have hidle := hb.idle
  cases ha with
  | get cancelled =>
    exact hb.congr rfl rfl rfl rfl rfl (reserved_enqueue _ (.arrive _))
      (topUps_enqueue _ (.arrive _)) rfl
  | cancel get => exact hb.cancel get
  | resolve attempt fault => exact hb.resolve (hn.dials_le attempt) fault
  | fire ms => exact hb.steady rfl rfl rfl rfl rfl rfl fun P hP => countP_tasks_fire hP p _
  | look => exact hb.topUp
  | closeConnection _ id | shutNext _ | retire _ => exact hb.closeConnection _
  | shutDown _ => exact ⟨nofun, nofun, hb.unclamped⟩
  | take hready =>
    rename_i w rest
    have htake := reserved_take hready
    have htakeTopUps := topUps_take hready
    refine ⟨fun hopen => ?_, fun hopen => ?_, hb.unclamped⟩
    · have := hsize hopen
      show p.size = p.tracked.length + { p with ready := rest }.reserved + (Hand.work w).places
      have hstart : Hand.places .start = 0 := rfl
      omega
    · have := hidle hopen
      show p.idleCount = p.idle.length + { p with ready := rest }.topUps +
        (Hand.work w).idlePlaces
      have hstart : Hand.idlePlaces .start = 0 := rfl
      omega
  | pick hopen hnext =>
    rename_i get id rest
    have hlength : p.idle.length = rest.length + 1 := (nextIdle?_perm hnext).length_eq
    refine Booked.lowerIdleCount ⟨hb.size, fun hopen => ?_, hb.unclamped⟩
    have := hidle hopen
    show p.idleCount = rest.length + p.topUps + (0 + 1)
    have hnone : Hand.idlePlaces (.admitted get) = 0 := rfl
    omega
  | reserve hopen _ _ =>
    refine ⟨fun hopen => ?_, hb.idle, hb.unclamped⟩
    exact congrArg (· + 1) (hsize hopen)
  | answered _ =>
    rename_i caller fault _
    cases caller <;> exact ⟨hb.size, hb.idle, hb.unclamped⟩
  | underWay _ _ =>
    rename_i caller due _ _
    have hdial := reserved_dial p ⟨p.attemptCount + 1, caller, due⟩
    have hdialTopUps := topUps_dial p ⟨p.attemptCount + 1, caller, due⟩
    refine ⟨fun hopen => ?_, fun hopen => ?_, hb.unclamped⟩
    · show p.size = p.tracked.length +
        { p with dials := p.dials ++ [Dial.mk (p.attemptCount + 1) caller due] }.reserved + 0
      rw [hdial, hsize hopen]
      dsimp only
      omega
    · show p.idleCount = p.idle.length +
        { p with dials := p.dials ++ [Dial.mk (p.attemptCount + 1) caller due] }.topUps + 0
      rw [hdialTopUps, hidle hopen]
      dsimp only
      omega
  | adopt hopen =>
    rename_i get attempt
    rw [adopt_frame]
    refine ⟨fun _ => ?_, hb.idle, hb.unclamped⟩
    have hone : p.size = p.tracked.length + p.reserved + 1 := hsize hopen
    show p.size = (p.tracked ++ [ConnectionId.dialed attempt]).length + p.reserved + 0
    rw [List.length_append, List.length_singleton]
    omega
  | adoptIdle hopen =>
    rename_i attempt
    rw [adopt_frame]
    refine ⟨fun _ => ?_, fun _ => ?_, hb.unclamped⟩
    · have hone : p.size = p.tracked.length + p.reserved + 1 := hsize hopen
      show p.size = (p.tracked ++ [ConnectionId.dialed attempt]).length + p.reserved + 0
      rw [List.length_append, List.length_singleton]
      omega
    · have hone : p.idleCount = p.idle.length + p.topUps + 1 := hidle hopen
      show p.idleCount = (p.idle ++ [ConnectionId.dialed attempt]).length + p.topUps + 0
      rw [List.length_append, List.length_singleton]
      omega
  | adoptLate hclosed | adoptIdleLate hclosed =>
    refine booked_of_closed ?_ ((clampings_closeConnection _ _).trans hb.unclamped)
    rw [closeConnection_frame]
    exact hclosed
  | dialFailed _ => exact (hb.noteDialFailure _).lowerSize
  | dialFailedLate hclosed =>
    refine booked_of_closed ?_ (hb.noteDialFailure _).unclamped
    rw [noteDialFailure_frame]
    exact hclosed
  | topUpFailed => exact (hb.noteDialFailure _).lowerSize.lowerIdleCount
  | topUpDenied _ _ => exact hb.lowerSize.lowerIdleCount
  | topUpOff hclosed => exact booked_of_closed hclosed hb.unclamped
  | finish => exact hb.freeSlot
  | fail =>
    have hfree := hb.freeSlot
    exact ⟨hfree.size, hfree.idle, hfree.unclamped⟩
  | checkIn =>
    have hcount : Booked (p.count Counters.checkIn) 0 0 := ⟨hb.size, hb.idle, hb.unclamped⟩
    exact hcount.freeSlot
  | probeReached =>
    rw [reach_frame]
    exact ⟨hb.size, hb.idle, hb.unclamped⟩
  | probeAgain _ _ =>
    exact hb.congr rfl rfl rfl rfl rfl (reserved_enqueue _ (.probe _))
      (topUps_enqueue _ (.probe _)) rfl
  | keep hopen _ _ _ =>
    refine ⟨hb.size, fun _ => ?_, hb.unclamped⟩
    have hnone : p.idleCount = p.idle.length + p.topUps + 0 := hidle hopen
    show p.idleCount + 1 = (p.idle ++ [_]).length + p.topUps + 0
    rw [List.length_append, List.length_singleton]
    omega
  | strike hr hid =>
    rename_i id k f
    have hstrike := Booked.strike (p := p.count f) (n := h.places) (m := h.idlePlaces)
      ⟨hb.size, hb.idle, hb.unclamped⟩ hid
    rw [← hr.places_eq.1, ← hr.places_eq.2] at hstrike
    exact hstrike
  | pass hr _ =>
    rw [← hr.places_eq.1, ← hr.places_eq.2] at hb
    exact ⟨hb.size, hb.idle, hb.unclamped⟩
  | refuseRemoval hr _ =>
    rw [← hr.places_eq.1, ← hr.places_eq.2] at hb
    exact ⟨hb.size, hb.idle, hb.unclamped⟩
  | _ => exact ⟨hb.size, hb.idle, hb.unclamped⟩

/-! ## Top-ups -/

theorem topUps_freeSlot (p : Pool) : p.freeSlot.topUps = p.topUps := by
  rcases freeSlot_cases p with ⟨-, hfree⟩ | ⟨v, rest, -, hfree⟩
  · rw [hfree]
    rfl
  · rw [hfree]
    exact topUps_enqueue { p with line := rest } (.admitted v.get)

theorem topUps_shutDown (p : Pool) : p.shutDown.topUps ≤ p.topUps := by
  have hshut := countP_tasks_shutDown steady_isTopUp p
  have hline : p.line.countP (fun v => (Work.refused v.get).isTopUp) = 0 :=
    List.countP_eq_zero.2 fun _ _ => Bool.false_ne_true
  unfold topUps
  omega

/-- Top-ups start in a look, and at no other act. -/
theorem Act.topUps_cases (hn : Attempts p h) (ha : Act p h q k) :
    q.topUps + k.idlePlaces ≤ p.topUps + h.idlePlaces ∨ h = .looking k ∧ q = p.topUp := by
  have hsame : q.topUps = p.topUps → k.idlePlaces = h.idlePlaces →
      q.topUps + k.idlePlaces ≤ p.topUps + h.idlePlaces ∨ h = .looking k ∧ q = p.topUp :=
    fun h₁ h₂ => .inl (Nat.le_of_eq (by rw [h₁, h₂]))
  cases ha with
  | get cancelled => exact hsame (topUps_enqueue _ (.arrive _)) rfl
  | cancel get => exact hsame (countP_tasks_cancel steady_isTopUp p get) rfl
  | resolve attempt fault =>
    exact hsame (countP_tasks_resolve steady_isTopUp p attempt fault (hn.dials_le attempt)) rfl
  | fire ms => exact hsame (countP_tasks_fire steady_isTopUp p _) rfl
  | look => exact .inr ⟨rfl, rfl⟩
  | closeConnection _ id | shutNext _ | retire _ | adoptLate _ =>
    rw [closeConnection_frame]
    exact .inl (Nat.le_refl _)
  | adoptIdleLate _ =>
    rw [closeConnection_frame]
    exact .inl (Nat.le_add_right _ _)
  | shutDown _ => exact .inl (Nat.add_le_add_right (topUps_shutDown p) 0)
  | take hready => exact .inl (Nat.le_of_eq (topUps_take hready).symm)
  | answered _ =>
    rename_i caller fault _
    cases caller <;> exact .inl (Nat.le_refl _)
  | underWay _ _ =>
    rename_i caller due _ _
    exact .inl (Nat.le_of_eq (topUps_dial p ⟨p.attemptCount + 1, caller, due⟩))
  | dialFailed _ | dialFailedLate _ =>
    exact hsame (countP_tasks_noteDialFailure steady_isTopUp p _) rfl
  | topUpFailed =>
    have hnoted := countP_tasks_noteDialFailure steady_isTopUp p
    exact .inl (Nat.add_le_add (Nat.le_of_eq (hnoted _)) (Nat.zero_le _))
  | finish | fail => exact hsame (topUps_freeSlot p) rfl
  | checkIn => exact hsame (topUps_freeSlot (p.count Counters.checkIn)) rfl
  | probeAgain _ _ => exact hsame (topUps_enqueue _ (.probe _)) rfl
  | strike hr _ =>
    refine hsame ?_ hr.places_eq.2
    rw [strike_eq]
    rfl
  | pass hr _ | refuseRemoval hr _ => exact hsame rfl hr.places_eq.2
  | adoptIdle _ | topUpDenied _ _ | topUpOff _ => exact .inl (Nat.le_add_right _ _)
  | _ => exact .inl (Nat.le_refl _)

/-! ## Every state -/

variable {o : Options}

theorem booked_create (o : Options) (dialer : Nat → Course) (now : Nat)
    (background : Bool) : Booked (create o dialer now background) 0 0 := by
  have hnew : Booked (create o dialer now false) 0 0 := ⟨fun _ => rfl, fun _ => rfl, rfl⟩
  cases background with
  | false => exact hnew
  | true => exact hnew.topUp

theorem Occurs.booked (hp : Occurs o p h) : Booked p h.places h.idlePlaces := by
  induction hp with
  | create dialer now background => exact booked_create o dialer now background
  | act hp ha ih => exact ih.act hp.attempts ha
  | next _ ih => exact ih
  | giveBack _ _ ih => exact ⟨ih.size, ih.idle, ih.unclamped⟩

/-- In every reachable state of an open pool the counts are those of the
lists, plus the dials that they run ahead by; the lists hold no connection
twice, every idle connection is tracked and none is held, and every held
one is tracked.  No count was ever to fall below zero. -/
theorem counts_match (ho : o.Unmarking) (hp : Reachable o p) (hopen : p.closed = false) :
    p.size = p.tracked.length + p.getDials + p.topUps ∧
      p.idleCount = p.idle.length + p.topUps ∧
      (p.tracked.Nodup ∧ p.idle.Nodup ∧ ∀ id ∈ p.idle, id ∈ p.tracked) ∧
      (∀ id ∈ p.idle, p.isInUse id = false) ∧ (∀ id, p.isInUse id = true → id ∈ p.tracked) ∧
      .clamped ∉ p.history := by
  have hb := hp.occurs.booked
  have hr := hp.occurs.roster ho
  have hsize := hb.size hopen
  refine ⟨?_, hb.idle hopen, ⟨hr.tracked_nodup, hr.idle_nodup, hr.idle_tracked⟩, hr.idle_free,
    hr.inUse_tracked hopen, fun hclamped => ?_⟩
  · have hstart : Hand.places .start = 0 := rfl
    unfold reserved at hsize
    omega
  · exact absurd rfl (List.countP_eq_zero.1 hb.unclamped _ hclamped)

theorem counts_match_topped_up :
    let p := (create { poolSize := 3, minIdle := 2 } (fun _ => .answer 0 none) 0 true).after
      [.get false, .turn, .turn]
    p.closed = false ∧ p.size = 2 ∧ p.idleCount = 2 ∧
      p.size = p.tracked.length + p.getDials + p.topUps ∧
      p.idleCount = p.idle.length + p.topUps ∧
      (p.tracked.Nodup ∧ p.idle.Nodup ∧ ∀ id ∈ p.idle, id ∈ p.tracked) ∧
      (∀ id ∈ p.idle, p.isInUse id = false) ∧ (∀ id, p.isInUse id = true → id ∈ p.tracked) ∧
      .clamped ∉ p.history :=
  ⟨by decide +kernel, by decide +kernel, by decide +kernel,
    counts_match (Options.unmarking_of_nil rfl) ((Reachable.create _ _ _).after _)
      (by decide +kernel)⟩

end PooledRouting.Pool
