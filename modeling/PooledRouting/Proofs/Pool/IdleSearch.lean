import PooledRouting.Proofs.Pool.Caps
import PooledRouting.Proofs.Pool.Rejections
import PooledRouting.Proofs.Pool.Step

/-!
# How a `get` searches the idle connections

A `get` with its slot takes connections off one end of the idle list until it
has a valid one.  `idleOrder` is the list read from that end, so the search is
a walk along it: what is not valid is discarded (`Discards`), and the first
valid connection is taken (`Takes`) and checked out.

The walk is one induction (`Occurs.serve_eq`), over the recursion of the
search, which ends since every round leaves a shorter list.  Each round may
reserve top-ups.  These only wait in `ready`, and the connections that are
left, with whether they are valid, stay as they were (`Discards.spared`); so
what a round decides is what could be seen before the first one.
-/

namespace PooledRouting.Pool

variable {o : Options} {p q r s : Pool} {get : Nat} {id : ConnectionId}
  {rest gone more : List ConnectionId}

/-! ## The order of the search -/

/-- The idle connections in the order in which a `get` looks at them. -/
def idleOrder (p : Pool) : List ConnectionId :=
  if p.options.fifo then p.idle else p.idle.reverse

theorem idleOrder_eq_nil_iff : p.idleOrder = [] ↔ p.idle = [] := by
  unfold idleOrder
  split <;> simp

theorem nodup_idleOrder (h : p.idle.Nodup) : p.idleOrder.Nodup := by
  unfold idleOrder
  split
  · exact h
  · exact List.nodup_reverse.2 h

/-- The next idle connection is the first of the order, and the others follow. -/
theorem idleOrder_of_nextIdle? (h : p.nextIdle? = some (id, rest)) :
    p.idleOrder = id :: { p with idle := rest }.idleOrder := by
  unfold nextIdle? at h
  unfold idleOrder
  by_cases hfifo : p.options.fifo = true
  · rw [if_pos hfifo] at h
    simp only [hfifo, if_true]
    cases hidle : p.idle with
    | nil => simp [hidle] at h
    | cons next others =>
      rw [hidle] at h
      cases h
      rfl
  · rw [if_neg hfifo] at h
    simp only [if_neg hfifo]
    obtain ⟨last, hlast, hpair⟩ := Option.map_eq_some_iff.1 h
    cases hpair
    have hsplit := List.dropLast_append_getLast? id hlast
    rw [← hsplit, List.reverse_append, List.dropLast_concat]
    rfl

/-! ## Counts that stay above zero -/

theorem lowerSize_of_pos (h : 0 < p.size) : p.lowerSize = { p with size := p.size - 1 } := by
  unfold lowerSize
  rw [if_neg (by omega)]

theorem lowerIdleCount_of_pos (h : 0 < p.idleCount) :
    p.lowerIdleCount = { p with idleCount := p.idleCount - 1 } := by
  unfold lowerIdleCount
  rw [if_neg (by omega)]

/-! ## Discarding -/

/-- The pool without what a search of the idle connections changes. -/
def backdrop (p : Pool) : Pool :=
  { p with
    connections := [], tracked := [], idle := [], size := 0, idleCount := 0, slots := 0
    ready := [], counters := {}, history := [] }

/-- From the first pool to the second these connections, which were next in
order, were discarded: each is closed, not tracked any more, and counted once
as invalid.  Besides that, slots were reserved for top-ups, which are ready to
start. -/
structure Discards (p : Pool) (gone : List ConnectionId) (q : Pool) : Prop where
  frame : q.backdrop = p.backdrop
  order : p.idleOrder = gone ++ q.idleOrder
  closed : ∀ id ∈ gone, ∃ c, q.connection? id = some c ∧ c.closed = true
  untracked : q.tracked = p.tracked.filter fun id => id ∉ gone
  counted : q.counters =
    { p.counters with invalid := p.counters.invalid + UInt32.ofNat gone.length }
  spared : ∀ id ∉ gone, q.connection? id = p.connection? id
  topUps : ∃ n, q.ready = p.ready ++ List.replicate n .topUp ∧ q.slots + n = p.slots ∧
    q.size + gone.length = p.size + n ∧ q.idleCount + gone.length = p.idleCount + n
  noted : ∃ new, q.history = new ++ p.history ∧ ∀ e ∈ new, ∃ id ∈ gone, e = .transportClosed id

namespace Discards

theorem refl (p : Pool) : Discards p [] p where
  frame := rfl
  order := rfl
  closed := nofun
  untracked := by simp
  counted := by simp
  spared _ _ := rfl
  topUps := ⟨0, by simp, rfl, rfl, rfl⟩
  noted := ⟨[], rfl, nofun⟩

theorem trans (h₁ : Discards p gone q) (h₂ : Discards q more r) :
    Discards p (gone ++ more) r where
  frame := h₂.frame.trans h₁.frame
  order := by
    rw [h₁.order, h₂.order, List.append_assoc]
  closed id hid := by
    by_cases hmore : id ∈ more
    · exact h₂.closed id hmore
    · rw [h₂.spared id hmore]
      exact h₁.closed id ((List.mem_append.1 hid).resolve_right hmore)
  untracked := by
    rw [h₂.untracked, h₁.untracked, List.filter_filter]
    refine List.filter_congr fun id _ => ?_
    simp [Bool.and_comm]
  counted := by
    rw [h₂.counted, h₁.counted, List.length_append, UInt32.ofNat_add]
    simp [UInt32.add_assoc]
  spared id hid := by
    obtain ⟨hgone, hmore⟩ := not_or.1 (mt List.mem_append.2 hid)
    rw [h₂.spared id hmore, h₁.spared id hgone]
  topUps := by
    obtain ⟨n, hready, hslots, hsize, hidle⟩ := h₁.topUps
    obtain ⟨m, hready', hslots', hsize', hidle'⟩ := h₂.topUps
    refine ⟨n + m, ?_, by omega, ?_, ?_⟩
    · rw [hready', hready, List.append_assoc, List.replicate_append_replicate]
    · rw [List.length_append]
      omega
    · rw [List.length_append]
      omega
  noted := by
    obtain ⟨new, hq, hnew⟩ := h₁.noted
    obtain ⟨newer, hr, hnewer⟩ := h₂.noted
    refine ⟨newer ++ new, by rw [hr, hq, List.append_assoc], fun e he => ?_⟩
    rcases List.mem_append.1 he with he | he
    · obtain ⟨id, hid, heq⟩ := hnewer e he
      exact ⟨id, List.mem_append_right _ hid, heq⟩
    · obtain ⟨id, hid, heq⟩ := hnew e he
      exact ⟨id, List.mem_append_left _ hid, heq⟩

/-- A connection that was not discarded is as valid as before. -/
theorem isValid_eq (h : Discards p gone q) (hid : id ∉ gone) : q.isValid id = p.isValid id := by
  have hnow : q.backdrop.now = p.backdrop.now := congrArg Pool.now h.frame
  unfold isValid
  rw [h.spared id hid, show q.now = p.now from hnow]

end Discards

/-! ## One round -/

/-- From the first pool to the second this connection, which was next in order,
was taken off the list.  Slots were reserved for top-ups. -/
structure Takes (p : Pool) (id : ConnectionId) (q : Pool) : Prop where
  frame : q = { p with
    idle := q.idle, size := q.size, idleCount := q.idleCount, slots := q.slots, ready := q.ready }
  order : p.idleOrder = id :: q.idleOrder
  topUps : ∃ n, q.ready = p.ready ++ List.replicate n .topUp ∧ q.slots + n = p.slots ∧
    q.size = p.size + n ∧ q.idleCount + 1 = p.idleCount + n

theorem takes_takeIdle (hnext : p.nextIdle? = some (id, rest)) (hcount : 0 < p.idleCount) :
    Takes p id (p.takeIdle rest) := by
  have hlower := lowerIdleCount_of_pos (p := { p with idle := rest }) hcount
  have hroom := topUpRoom_le_slots { p with idle := rest, idleCount := p.idleCount - 1 }
  unfold takeIdle
  rw [hlower]
  refine ⟨rfl, idleOrder_of_nextIdle? hnext, _, rfl, Nat.sub_add_cancel hroom, rfl, ?_⟩
  show p.idleCount - 1 + _ + 1 = _
  omega

theorem connection?_closeConnection_of_ne {other : ConnectionId} (hne : other ≠ id) :
    (p.closeConnection id).2.connection? other = p.connection? other := by
  cases hc : p.connection? id with
  | none => rw [closeConnection_of_none hc]
  | some c =>
    rw [closeConnection_of_some hc]
    exact connection?_modify_of_ne (p := p) (fun _ _ => id_close hc _) hne

theorem closed_closeConnection {c : Connection} (hc : p.connection? id = some c) :
    ∃ d, (p.closeConnection id).2.connection? id = some d ∧ d.closed = true := by
  refine ⟨_, ?_, c.close_closed (p.closeFault id)⟩
  rw [closeConnection_of_some hc]
  exact connection?_put hc (id_close hc _)

theorem history_closeConnection (p : Pool) (id : ConnectionId) :
    ∃ new, (p.closeConnection id).2.history = new ++ p.history ∧
      ∀ e ∈ new, e = .transportClosed id := by
  unfold closeConnection
  cases p.connection? id with
  | none => exact ⟨[], rfl, nofun⟩
  | some c =>
    dsimp only
    split
    · exact ⟨[.transportClosed id], rfl, fun e he => List.mem_singleton.1 he⟩
    · exact ⟨[], rfl, nofun⟩

theorem untrack_of_tracked (hid : id ∈ p.tracked) (hidle : id ∉ p.idle) (hsize : 0 < p.size) :
    p.untrack id = { p with tracked := p.tracked.erase id, size := p.size - 1 }.topUp := by
  have hlower := lowerSize_of_pos (p := { p with tracked := p.tracked.erase id }) hsize
  unfold untrack
  rw [if_pos hid, strike_of_not_mem hidle, hlower]

theorem remove_of_free (hfree : p.isInUse id = false) :
    (p.remove id).2 = ((p.untrack id).closeConnection id).2 := by
  have hfree' : (p.untrack id).isInUse id = false := ((isInUse_persists id).untrack p id).trans hfree
  unfold remove closeTransport
  rw [if_neg (Bool.eq_false_iff.1 hfree), if_neg (Bool.eq_false_iff.1 hfree')]

/-- A connection that was taken and turns out to be invalid is discarded. -/
theorem Takes.discards (h : Takes p id q) (htracked : id ∈ q.tracked) (hnodup : q.tracked.Nodup)
    (hidle : id ∉ q.idle) (hfree : q.isInUse id = false) (hsize : 0 < q.size) {c : Connection}
    (hc : q.connection? id = some c) : Discards p [id] (q.discardInvalid id) := by
  obtain ⟨n, hready, hslots, hsizes, hcounts⟩ := h.topUps
  -- The connection off the lists, and the top-ups that its place makes room for.
  let t : Pool := { q.count Counters.retireInvalid with
    tracked := q.tracked.erase id, size := q.size - 1 }
  have hroom := topUpRoom_le_slots t
  have huntrack : (q.count Counters.retireInvalid).untrack id = t.topUp :=
    untrack_of_tracked (p := q.count Counters.retireInvalid) htracked hidle hsize
  have hdiscard : q.discardInvalid id = (t.topUp.closeConnection id).2 := by
    unfold discardInvalid
    rw [remove_of_free (p := q.count Counters.retireInvalid) hfree, huntrack]
  have hframe := closeConnection_frame t.topUp id
  have hconnections : q.connections = p.connections := (congrArg Pool.connections h.frame).trans rfl
  have hhistory : q.history = p.history := (congrArg Pool.history h.frame).trans rfl
  have hcounters : q.counters = p.counters := (congrArg Pool.counters h.frame).trans rfl
  have hlists : q.tracked = p.tracked := (congrArg Pool.tracked h.frame).trans rfl
  rw [hdiscard]
  constructor
  case frame =>
    have hq : q.backdrop = p.backdrop := (congrArg backdrop h.frame).trans rfl
    exact (congrArg backdrop hframe).trans hq
  case order =>
    rw [hframe, h.order]
    rfl
  case closed =>
    rintro other hother
    obtain rfl := List.mem_singleton.1 hother
    exact closed_closeConnection (p := t.topUp) hc
  case untracked =>
    rw [hframe]
    show q.tracked.erase id = _
    rw [hnodup.erase_eq_filter, hlists]
    exact List.filter_congr fun other _ => by simp [bne, beq_eq_decide]
  case counted =>
    rw [hframe]
    show q.counters.retireInvalid = _
    rw [hcounters]
    rfl
  case spared =>
    intro other hother
    rw [connection?_closeConnection_of_ne fun heq => hother (List.mem_singleton.2 heq)]
    show q.connections.find? _ = _
    rw [hconnections]
    rfl
  case topUps =>
    rw [hframe]
    refine ⟨n + t.topUpRoom, ?_, ?_, ?_, ?_⟩
    · show q.ready ++ List.replicate t.topUpRoom .topUp = _
      rw [hready, List.append_assoc, List.replicate_append_replicate]
    · show q.slots - t.topUpRoom + _ = _
      have hsame : t.slots = q.slots := rfl
      omega
    · show q.size - 1 + t.topUpRoom + 1 = _
      omega
    · show q.idleCount + t.topUpRoom + 1 = _
      omega
  case noted =>
    obtain ⟨new, hnew, hclosed⟩ := history_closeConnection t.topUp id
    refine ⟨new, ?_, fun e he => ⟨id, List.mem_singleton_self id, hclosed e he⟩⟩
    rw [hnew]
    show new ++ q.history = _
    rw [hhistory]

/-! ## The search -/

/-- One round of the search of a `get` with its slot: the next connection is
taken, and it can be discarded. -/
theorem Occurs.round (hp : Occurs o p (.admitted get)) (ho : o.Unmarking)
    (hopen : p.closed = false) (hnext : p.nextIdle? = some (id, rest)) :
    Takes p id (p.takeIdle rest) ∧ Discards p [id] ((p.takeIdle rest).discardInvalid id) := by
  have hr := hp.roster ho
  obtain ⟨htracked, hfree, hrest, -⟩ := hr.pick hnext
  have hplace : 0 < p.tracked.length := List.length_pos_of_mem htracked
  have hcounted : p.idleCount = p.idle.length + p.topUps + 0 := hp.booked.idle hopen
  have hsized : p.size = p.tracked.length + p.reserved + 0 := hp.booked.size hopen
  have hshorter := nextIdle?_length hnext
  have htakes := takes_takeIdle hnext (by omega)
  obtain ⟨n, -, -, hsize, -⟩ := htakes.topUps
  obtain ⟨c, hc⟩ := connection?_of_idCount_pos (hr.known id htracked)
  exact ⟨htakes, htakes.discards htracked hr.tracked_nodup hrest hfree (by omega) hc⟩

/-- A `get` with its slot discards connections that are not valid, until there
are none left and it dials, or it has taken a valid one and checks that out. -/
theorem Occurs.serve_eq (hp : Occurs o p (.admitted get)) (ho : o.Unmarking)
    (hopen : p.closed = false) :
    ∃ gone r, Discards p gone r ∧ (∀ id ∈ gone, p.isValid id = false) ∧
      (r.idleOrder = [] ∧ Acts p (.admitted get) (r.count Counters.miss) (.missed get) ∧
          p.serve get = (r.count Counters.miss).dialFor get ∨
        ∃ id s, Takes r id s ∧ p.isValid id = true ∧
          Acts p (.admitted get) (s.count Counters.hit) (.holding (some get) id) ∧
          p.serve get = (s.count Counters.hit).checkOut get id) := by
  fun_induction serve p get with
  | case1 p hclosed => cases hopen.symm.trans hclosed
  | case2 p _ hnext =>
    have hnone : p.idleOrder = [] := idleOrder_eq_nil_iff.2 (nextIdle?_eq_none_iff.1 hnext)
    exact ⟨[], p, .refl p, List.forall_mem_nil _,
      .inl ⟨hnone, .single (.miss hopen hnext), rfl⟩⟩
  | case3 p _ id rest hnext q hvalid =>
    have htakes : Takes p id q := (hp.round ho hopen hnext).1
    have hhit : Acts p (.admitted get) (q.count Counters.hit) (.holding (some get) id) :=
      (takeIdle_acts hopen hnext).trans (.single (.hit hvalid))
    exact ⟨[], p, .refl p, List.forall_mem_nil _, .inr ⟨id, q, htakes, hvalid, hhit, rfl⟩⟩
  | case4 p _ id rest hnext q hinvalid ih =>
    have hinvalid : p.isValid id = false := Bool.eq_false_iff.2 hinvalid
    have hdiscards : Discards p [id] (q.discardInvalid id) := (hp.round ho hopen hnext).2
    have hround : Acts p (.admitted get) (q.discardInvalid id) (.admitted get) :=
      (takeIdle_acts hopen hnext).trans (discardInvalid_acts hinvalid)
    obtain ⟨gone, r, hgone, hothers, hend⟩ :=
      ih (hp.acts hround) ((closed_persists.remove _ id).trans hopen)
    -- The connection does not come up again, so the others are as valid as before.
    have hnew : ∀ other ∈ gone ++ r.idleOrder, other ∉ [id] := by
      have hnodup := nodup_idleOrder (hp.roster ho).idle_nodup
      rw [hdiscards.order, hgone.order] at hnodup
      intro other hother hsame
      obtain rfl := List.mem_singleton.1 hsame
      exact (List.nodup_cons.1 hnodup).1 hother
    refine ⟨id :: gone, r, hdiscards.trans hgone, ?_, ?_⟩
    · rw [List.forall_mem_cons]
      refine ⟨hinvalid, fun other hother => ?_⟩
      rw [← hdiscards.isValid_eq (hnew other (List.mem_append_left _ hother))]
      exact hothers other hother
    · rcases hend with ⟨hnone, hmiss, heq⟩ | ⟨other, s, htaken, hgood, hhit, heq⟩
      · exact .inl ⟨hnone, hround.trans hmiss, heq⟩
      · have hin : other ∈ r.idleOrder := by
          rw [htaken.order]
          exact List.mem_cons_self
        rw [hdiscards.isValid_eq (hnew other (List.mem_append_right _ hin))] at hgood
        exact .inr ⟨other, s, htaken, hgood, hround.trans hhit, heq⟩

/-! ## What a checkout leaves alone -/

/-- The dials, and the counts of hits and misses. -/
def dialsAndHits (p : Pool) : Nat × List Dial × UInt32 × UInt32 :=
  (p.attemptCount, p.dials, p.counters.hits, p.counters.misses)

theorem dialsAndHits_closeConnection (p : Pool) (id : ConnectionId) :
    (p.closeConnection id).2.dialsAndHits = p.dialsAndHits :=
  (congrArg dialsAndHits (closeConnection_frame p id)).trans rfl

theorem dialsAndHits_persists : Persists fun p q => q.dialsAndHits = p.dialsAndHits where
  refl _ := rfl
  trans h₁ h₂ := h₂.trans h₁
  invalid _ := rfl
  stale _ := rfl
  strike p id := (congrArg dialsAndHits (strike_eq p id)).trans rfl
  topUp _ := rfl
  closeConnection := dialsAndHits_closeConnection
  keep _ _ := rfl

theorem dialsAndHits_leave (p : Pool) (get : Nat) (fault : Fault) :
    (p.freeSlot.fail get fault).dialsAndHits = p.dialsAndHits :=
  (congrArg dialsAndHits (freeSlot_frame p)).trans rfl

theorem dialsAndHits_checkOut (p : Pool) (get : Nat) (id : ConnectionId) :
    (p.checkOut get id).dialsAndHits = p.dialsAndHits := by
  have hhooks : (p.runHooks id).2.dialsAndHits = p.dialsAndHits :=
    (congrArg dialsAndHits (hooked_runHooks p id).frame).trans rfl
  unfold checkOut
  split
  · rename_i reason q hq
    rw [hq] at hhooks
    exact (dialsAndHits_leave _ get _).trans ((dialsAndHits_persists.recycle q id).trans hhooks)
  · rename_i q hq
    rw [hq] at hhooks
    refine Eq.trans ?_ hhooks
    rcases takeOut_cases q id with ⟨htake, -⟩ | ⟨c, -, -, htake⟩
    · rw [htake]
      exact (dialsAndHits_leave _ get _).trans (dialsAndHits_persists.remove _ id)
    · rw [htake]
      dsimp only
      split
      · rfl
      · exact (dialsAndHits_leave _ get _).trans (dialsAndHits_persists.remove _ id)

theorem dialsAndHits_endGetDial (p : Pool) (get attempt : Nat) (fault : Option String) :
    (p.endGetDial get attempt fault).dialsAndHits = p.dialsAndHits := by
  unfold endGetDial
  cases fault with
  | none =>
    dsimp only
    split
    · exact (dialsAndHits_leave _ get _).trans (dialsAndHits_closeConnection _ _)
    · exact dialsAndHits_checkOut _ get _
  | some reason =>
    have hnoted : (p.noteDialFailure reason).dialsAndHits = p.dialsAndHits :=
      (congrArg dialsAndHits (noteDialFailure_frame p reason)).trans rfl
    refine (dialsAndHits_leave _ get _).trans (Eq.trans ?_ hnoted)
    split
    · rfl
    · rfl

/-! ## Nothing found -/

/-- No connection may be added to the pool. -/
def IsFull (p : Pool) : Prop :=
  p.options.maxActive > 0 ∧ p.options.maxActive ≤ p.size

/-- A dial has failed since the last success, and so there is a failure that was
noted last. -/
theorem Occurs.exists_lastDialFault {h : Hand} (hp : Occurs o p h) :
    0 < p.dialFailures → ∃ fault, p.lastDialFault = some fault := by
  induction hp with
  | create dialer now background => cases background <;> nofun
  | act _ ha ih =>
    cases ha with
    | cancel get =>
      rw [cancel_frame]
      exact ih
    | resolve attempt fault =>
      rw [resolve_frame]
      exact ih
    | closeConnection _ id | shutNext _ | retire _ =>
      rw [closeConnection_frame]
      exact ih
    | adoptLate _ | adoptIdleLate _ =>
      rw [closeConnection_frame]
      nofun
    | dialFailed _ | dialFailedLate _ | topUpFailed =>
      have hnoted : ∀ (r : Pool) reason, ∃ fault, (r.noteDialFailure reason).lastDialFault =
          some fault := fun r reason => by
        rw [noteDialFailure_frame]
        exact ⟨_, rfl⟩
      exact fun _ => hnoted _ _
    | probeGaveUp _ | probeAgain _ _ | probeNap _ _ _ => exact fun _ => ⟨_, rfl⟩
    | finish | fail | checkIn =>
      rw [freeSlot_frame]
      exact ih
    | strike _ _ =>
      rw [strike_eq]
      exact ih
    | adopt _ | adoptIdle _ | probeReached => nofun
    | _ => exact ih
  | next _ ih | giveBack _ _ ih => exact ih

theorem dialFor_cases (hopen : p.closed = false) (get : Nat) :
    p.IsFull ∧ p.dialFor get = p.freeSlot.fail get .exhausted ∨
      ¬p.IsFull ∧ p.circuitOpen = true ∧ p.dialFor get = p.freeSlot.fail get p.circuitFault ∨
      ¬p.IsFull ∧ p.circuitOpen = false ∧
        ((∃ fault, p.dialer (p.attemptCount + 1) = .answer 0 fault ∧
          p.dialFor get = { p with
            size := p.size + 1, attemptCount := p.attemptCount + 1 }.endGetDial get
              (p.attemptCount + 1) fault) ∨
        ∃ due, p.dialFor get = { p with
          size := p.size + 1, attemptCount := p.attemptCount + 1
          dials := p.dials ++ [⟨p.attemptCount + 1, .get get, due⟩] }) := by
  unfold dialFor
  rw [if_neg (Bool.eq_false_iff.1 hopen)]
  by_cases hfull : p.options.maxActive > 0 ∧ p.options.maxActive ≤ p.size
  · rw [if_pos hfull]
    exact .inl ⟨hfull, rfl⟩
  rw [if_neg hfull]
  cases hcircuit : p.circuitOpen with
  | true =>
    rw [if_pos rfl]
    exact .inr (.inl ⟨hfull, rfl, rfl⟩)
  | false =>
    rw [if_neg Bool.false_ne_true]
    refine .inr (.inr ⟨hfull, rfl, ?_⟩)
    dsimp only
    rcases startDial_cases { p with size := p.size + 1 } (.get get) with
      ⟨fault, hnow, hs⟩ | ⟨due, -, -, hs⟩
    · rw [hs]
      exact .inl ⟨fault, hnow, rfl⟩
    · rw [hs]
      exact .inr ⟨due, rfl⟩

/-! ## The turn of an admitted `get` -/

/-- The task at the front is a `get` that is admitted in this turn, with the
slot in hand in the second pool. -/
inductive Admits (p : Pool) (get : Nat) : Pool → Prop where
  /-- It comes when a slot is free. -/
  | free {rest : List Work} (hready : p.ready = .arrive get :: rest) (hopen : p.closed = false)
      (hlive : get ∉ p.fired) (hfree : p.slots > 0) :
      Admits p get ({ p with ready := rest, slots := p.slots - 1 }.record (.admitted get))
  /-- It was handed a slot while it waited. -/
  | handed {rest : List Work} (hready : p.ready = .admitted get :: rest) (hopen : p.closed = false)
      (hlive : get ∉ p.fired) :
      Admits p get ({ p with ready := rest }.record (.admitted get))

namespace Admits

theorem isOpen (h : p.Admits get q) : q.closed = false := by
  cases h with
  | free _ hopen _ _ | handed _ hopen _ => exact hopen

/-- What a search looks at is as it was before the turn. -/
theorem same (h : p.Admits get q) : q.idleOrder = p.idleOrder ∧ q.isValid = p.isValid := by
  cases h with
  | free _ _ _ _ | handed _ _ _ => exact ⟨rfl, rfl⟩

theorem acts (h : p.Admits get q) : Acts p .start q (.admitted get) := by
  cases h with
  | free hready hopen hlive hfree => exact .cons (.take hready) (.single (.claim hopen hlive hfree))
  | handed hready hopen hlive => exact .cons (.take hready) (.single (.accept hopen hlive))

/-- The turn is the search. -/
theorem step_eq (h : p.Admits get q) : p.step = q.serve get := by
  cases h with
  | free hready hopen hlive hfree =>
    rw [step_of_ready hready]
    show Pool.arrive _ get = _
    unfold arrive
    rw [if_neg (Bool.eq_false_iff.1 hopen), if_neg hlive, if_pos hfree]
    rfl
  | handed hready hopen hlive =>
    rw [step_of_ready hready]
    show Pool.resume _ get = _
    unfold resume
    rw [if_neg hlive, if_neg (Bool.eq_false_iff.1 hopen)]
    rfl

end Admits

/-- The search has found the connection: it is taken off the list, which leaves
the others in order, and is checked out.  That is a hit, and no dial is
started for it. -/
structure Found (r : Pool) (get : Nat) (id : ConnectionId) (others : List ConnectionId)
    (q : Pool) : Prop where
  checkedOut : ∃ s, Takes r id s ∧ s.idleOrder = others ∧
    q = (s.count Counters.hit).checkOut get id
  dials : q.attemptCount = r.attemptCount ∧ q.dials = r.dials
  counts : q.counters.hits = r.counters.hits + 1 ∧ q.counters.misses = r.counters.misses

/-- The search has found none.  That is a miss.  If the pool is full the `get`
is turned away; if the circuit is open it ends with the failure that was noted
last; and otherwise it dials. -/
structure NoneFound (r : Pool) (get : Nat) (q : Pool) : Prop where
  idle : r.idle = []
  counts : q.counters.misses = r.counters.misses + 1 ∧ q.counters.hits = r.counters.hits
  full : r.IsFull → q = (r.count Counters.miss).freeSlot.fail get .exhausted
  broken : ¬r.IsFull → r.circuitOpen = true →
    ∃ fault, r.lastDialFault = some fault ∧ q = (r.count Counters.miss).freeSlot.fail get fault
  dials : ¬r.IsFull → r.circuitOpen = false →
    (∃ fault, r.dialer (r.attemptCount + 1) = .answer 0 fault ∧
      q = { r.count Counters.miss with
        size := r.size + 1, attemptCount := r.attemptCount + 1 }.endGetDial get
          (r.attemptCount + 1) fault) ∨
    ∃ due, q = { r.count Counters.miss with
      size := r.size + 1, attemptCount := r.attemptCount + 1
      dials := r.dials ++ [⟨r.attemptCount + 1, .get get, due⟩] }

/-- What a turn makes of the idle connections, from the second pool on, where
the `get` has its slot.  It discards those at the front of the order that are
not valid, and then goes on with the next, if there is one. -/
def Retrieves (p : Pool) (get : Nat) (q : Pool) : Prop :=
  let stale := fun id => !p.isValid id
  ∃ r, Discards q (p.idleOrder.takeWhile stale) r ∧
    match p.idleOrder.dropWhile stale with
    | id :: others => Found r get id others p.step
    | [] => NoneFound r get p.step

theorem Retrieves.found {others : List ConnectionId} (hr : p.Retrieves get q)
    (hgone : p.idleOrder.takeWhile (fun id => !p.isValid id) = gone)
    (hothers : p.idleOrder.dropWhile (fun id => !p.isValid id) = id :: others) :
    ∃ r, Discards q gone r ∧ Found r get id others p.step := by
  obtain ⟨r, hdiscards, hfound⟩ := hr
  rw [hothers] at hfound
  exact ⟨r, hgone ▸ hdiscards, hfound⟩

theorem found_of_takes (htakes : Takes r id s)
    (hq : q = (s.count Counters.hit).checkOut get id) : Found r get id s.idleOrder q := by
  have hstill : q.dialsAndHits = (s.count Counters.hit).dialsAndHits := by
    rw [hq]
    exact dialsAndHits_checkOut _ get id
  have hattempts : s.attemptCount = r.attemptCount :=
    (congrArg Pool.attemptCount htakes.frame).trans rfl
  have hdials : s.dials = r.dials := (congrArg Pool.dials htakes.frame).trans rfl
  have hcounters : s.counters = r.counters := (congrArg Pool.counters htakes.frame).trans rfl
  obtain ⟨hsame, hsame', hhits, hmisses⟩ : q.attemptCount = s.attemptCount ∧ q.dials = s.dials ∧
      q.counters.hits = s.counters.hits + 1 ∧ q.counters.misses = s.counters.misses := by
    simpa [dialsAndHits, count, Counters.hit] using hstill
  rw [hcounters] at hhits hmisses
  exact ⟨⟨s, htakes, rfl, hq⟩, ⟨hsame.trans hattempts, hsame'.trans hdials⟩, hhits, hmisses⟩

theorem noneFound_of_dialFor (hr : Occurs o (r.count Counters.miss) (.missed get))
    (hopen : r.closed = false) (hidle : r.idle = [])
    (hq : q = (r.count Counters.miss).dialFor get) : NoneFound r get q := by
  have hcases := dialFor_cases (p := r.count Counters.miss) hopen get
  rw [← hq] at hcases
  have hcounts : ∀ t : Pool, t.counters = (r.count Counters.miss).counters →
      q.dialsAndHits = t.dialsAndHits →
      q.counters.misses = r.counters.misses + 1 ∧ q.counters.hits = r.counters.hits := by
    intro t ht hsame
    obtain ⟨-, -, hhits, hmisses⟩ : q.attemptCount = t.attemptCount ∧ q.dials = t.dials ∧
        q.counters.hits = t.counters.hits ∧ q.counters.misses = t.counters.misses := by
      simpa [dialsAndHits] using hsame
    rw [ht] at hhits hmisses
    exact ⟨hmisses, hhits⟩
  rcases hcases with ⟨hfull, hend⟩ | ⟨hroom, hcircuit, hend⟩ | ⟨hroom, hcircuit, hend⟩
  · refine ⟨hidle, hcounts _ rfl ?_, fun _ => hend, fun hroom => absurd hfull hroom,
      fun hroom => absurd hfull hroom⟩
    rw [hend]
    exact dialsAndHits_leave _ get _
  · have hfailed : r.options.dialThreshold ≤ r.dialFailures := of_decide_eq_true hcircuit
    have hthreshold : 0 < r.options.dialThreshold :=
      Nat.lt_of_lt_of_le Nat.one_pos (Nat.le_max_right _ 1)
    obtain ⟨fault, hfault⟩ :=
      hr.exists_lastDialFault (Nat.lt_of_lt_of_le hthreshold hfailed)
    have hlast : (r.count Counters.miss).circuitFault = fault := by
      unfold circuitFault
      rw [hfault]
      rfl
    refine ⟨hidle, hcounts _ rfl ?_, fun hfull => absurd hfull hroom,
      fun _ _ => ⟨fault, hfault, hlast ▸ hend⟩, fun _ hclosed => ?_⟩
    · rw [hend]
      exact dialsAndHits_leave _ get _
    · cases hclosed.symm.trans hcircuit
  · have hcounted : q.counters.misses = r.counters.misses + 1 ∧
        q.counters.hits = r.counters.hits := by
      rcases hend with ⟨fault, -, hend⟩ | ⟨due, hend⟩
      · refine hcounts { r.count Counters.miss with
          size := r.size + 1, attemptCount := r.attemptCount + 1 } rfl ?_
        rw [hend]
        exact dialsAndHits_endGetDial _ get _ fault
      · rw [hend]
        exact ⟨rfl, rfl⟩
    refine ⟨hidle, hcounted, fun hfull => absurd hfull hroom, fun _ hbroken => ?_,
      fun _ _ => hend⟩
    cases hbroken.symm.trans hcircuit

/-- The turn of a `get` that is admitted is a walk along the order. -/
theorem Admits.retrieves (h : p.Admits get q) (ho : o.Unmarking) (hp : Reachable o p) :
    p.Retrieves get q := by
  unfold Retrieves
  intro stale
  obtain ⟨horder, hvalid⟩ := h.same
  have hq := hp.occurs.acts h.acts
  obtain ⟨gone, r, hgone, hinvalid, hend⟩ := hq.serve_eq ho h.isOpen
  have hsplit : p.idleOrder = gone ++ r.idleOrder := horder.symm.trans hgone.order
  have hstale : ∀ id ∈ gone, stale id = true := by
    intro id hid
    show (!p.isValid id) = true
    rw [← hvalid, hinvalid id hid]
    rfl
  rw [hsplit, List.takeWhile_append_of_pos hstale, List.dropWhile_append_of_pos hstale]
  rcases hend with ⟨hnone, hmiss, hserve⟩ | ⟨id, s, htakes, hgood, -, hserve⟩
  · rw [hnone, List.takeWhile_nil, List.dropWhile_nil, List.append_nil]
    have hopen : r.closed = false := (congrArg Pool.closed hgone.frame).trans h.isOpen
    exact ⟨r, hgone, noneFound_of_dialFor (hq.acts hmiss) hopen (idleOrder_eq_nil_iff.1 hnone)
      (h.step_eq.trans hserve)⟩
  · have hstop : ¬stale id = true := by
      show ¬(!p.isValid id) = true
      rw [← hvalid, hgood]
      exact Bool.false_ne_true
    rw [htakes.order, List.takeWhile_cons_of_neg hstop, List.dropWhile_cons_of_neg hstop,
      List.append_nil]
    exact ⟨r, hgone, found_of_takes htakes (h.step_eq.trans hserve)⟩

end PooledRouting.Pool
