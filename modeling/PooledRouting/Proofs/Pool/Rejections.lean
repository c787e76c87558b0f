import PooledRouting.Proofs.Pool.Bookkeeping
import PooledRouting.Proofs.Pool.Calls
import PooledRouting.Proofs.Pool.Checkouts
import PooledRouting.Proofs.Pool.Releases
import PooledRouting.Proofs.Pool.Slots

/-!
# Checkouts that are rejected

The last step to a connection may fail: a hook rejects the checkout, or
closes the connection.  The `get` then ends without it, and the connection
is to be as if it had never left the pool, or to be gone from it
(`Undone`).

It is, just if the hooks have left no mark on the connection
(`checkOut_undone_iff`): whatever takes a connection back asks the mark
first.  A hook that marks the connection it rejects leaves a pool whose
idle list has a connection that counts as held, and one that marks and
closes it leaves a closed connection that the pool tracks for good
(`marked_rejection_stays`).

The steps of a hook are arbitrary here; `Hooked` is what all of them
keep.
-/

namespace PooledRouting

theorem Connection.closed_of_isValid {c : Connection} {now : Nat} (hvalid : c.isValid now = true) :
    c.closed = false := by
  unfold isValid at hvalid
  simp only [Bool.and_eq_true, Bool.not_eq_true'] at hvalid
  exact hvalid.1.1

/-- A connection that is used now is as good as before. -/
theorem Connection.isValid_of_used {c d : Connection} {now : Nat} (hvalid : c.isValid now = true)
    (hclosed : d.closed = c.closed) (hborn : d.createdAt = c.createdAt)
    (hage : d.maxLifetime = c.maxLifetime) (hused : d.usedAt = now) : d.isValid now = true := by
  unfold isValid at hvalid ⊢
  simp only [Bool.and_eq_true] at hvalid
  rw [hclosed, hborn, hage, hused, hvalid.1.1, hvalid.1.2]
  simp

namespace Pool

variable {o : Options} {p q r : Pool} {h k : Hand} {get : Nat} {id : ConnectionId}

/-! ## What hooks do -/

/-- The connection is closed, or it may be handed out. -/
def Sound (p : Pool) (id : ConnectionId) : Prop :=
  ∃ c, p.connection? id = some c ∧ (c.closed = true ∨ c.isValid p.now = true)

/-- Whatever hooks do, they do to the one connection, and they do not make
it invalid but by closing it. -/
structure Hooked (id : ConnectionId) (p q : Pool) : Prop where
  frame : q = { p with
    connections := q.connections, hooks := q.hooks, history := q.history }
  unique : p.Unique → q.Unique
  sound : p.Sound id → q.Sound id
  quiet : Quiet p q

theorem Hooked.refl (id : ConnectionId) (p : Pool) : Hooked id p p :=
  ⟨rfl, fun hu => hu, fun hs => hs, (plain_of_eq rfl).quiet⟩

theorem Hooked.trans (h₁ : Hooked id p q) (h₂ : Hooked id q r) : Hooked id p r where
  frame := by
    rw [h₂.frame, h₁.frame]
  unique hu := h₂.unique (h₁.unique hu)
  sound hs := h₂.sound (h₁.sound hs)
  quiet := h₁.quiet.trans h₂.quiet

/-- A use of a connection, which may be marked with it. -/
theorem hooked_modify {f : Connection → Connection} (hid : ∀ c, (f c).id = c.id)
    (hf : ∀ c, c.closed = true ∨ c.isValid p.now = true →
      (f c).closed = true ∨ (f c).isValid p.now = true) : Hooked id p (p.modify id f) where
  frame := rfl
  unique hu := by
    unfold Unique
    rw [map_id_modify fun c hc => (hid c).trans hc]
    exact hu
  sound := by
    rintro ⟨c, hc, hsound⟩
    refine ⟨f c, ?_, hf c hsound⟩
    rw [connection?_modify_self fun c hc => (hid c).trans hc, hc]
    rfl
  quiet := (plain_of_eq rfl).quiet

theorem hooked_touch (p : Pool) (id : ConnectionId) : Hooked id p (p.touch id) := by
  refine hooked_modify (fun c => c.touch_id p.now) fun c hsound => ?_
  rcases hsound with hclosed | hvalid
  · exact .inl ((c.touch_closed p.now).trans hclosed)
  · have hopen : ¬c.closed = true := Bool.eq_false_iff.1 (Connection.closed_of_isValid hvalid)
    refine .inr (Connection.isValid_of_used hvalid (c.touch_closed p.now) ?_
      (c.touch_maxLifetime p.now) ?_)
    · unfold Connection.touch
      rw [if_neg hopen]
    · unfold Connection.touch
      rw [if_neg hopen]

theorem hooked_mark (p : Pool) (id : ConnectionId) : Hooked id p (p.mark id true) := by
  refine hooked_modify (fun c => c.mark_id p.now true) fun c hsound => ?_
  rcases hsound with hclosed | hvalid
  · exact .inl ((c.mark_closed p.now true).trans hclosed)
  · have hopen : ¬c.closed = true := Bool.eq_false_iff.1 (Connection.closed_of_isValid hvalid)
    have hmark : c.mark p.now true = { c with inUse := true, usedAt := p.now } := by
      unfold Connection.mark
      rw [if_pos rfl, if_neg hopen]
    rw [hmark]
    exact .inr (Connection.isValid_of_used hvalid rfl rfl rfl rfl)

theorem hooked_closeConnection (p : Pool) (id : ConnectionId) :
    Hooked id p (p.closeConnection id).2 where
  frame := by
    have hhooks : (p.closeConnection id).2.hooks = p.hooks := by
      rw [closeConnection_frame]
    rw [hhooks]
    exact closeConnection_frame p id
  unique hu := by
    refine List.nodup_iff_count_le_one.2 fun other => ?_
    have hcount := idCount_closeConnection p id other
    unfold idCount at hcount
    rw [hcount]
    exact List.nodup_iff_count_le_one.1 hu other
  sound := by
    rintro ⟨c, hc, hsound⟩
    have hid : (c.close (p.closeFault id)).connection.id = id := by
      rw [Connection.close_id, connection?_id hc]
    refine ⟨(c.close (p.closeFault id)).connection, ?_, .inl (c.close_closed _)⟩
    unfold closeConnection
    rw [hc]
    dsimp only
    split
    · exact connection?_put hc hid
    · exact connection?_put hc hid
  quiet := (plain_closeConnection p id).quiet

theorem hooked_takeSteps (p : Pool) (id : ConnectionId) (steps : List HookStep) :
    Hooked id p (p.takeSteps id steps).2 := by
  induction steps generalizing p with
  | nil => exact .refl id p
  | cons step steps ih =>
    cases step with
    | touch => exact (hooked_touch p id).trans (ih _)
    | mark => exact (hooked_mark p id).trans (ih _)
    | fail reason => exact .refl id p
    | close strict =>
      have hclose := hooked_closeConnection p id
      unfold takeSteps
      split
      · rename_i reason q hq
        rw [hq] at hclose
        cases strict with
        | true => exact hclose
        | false => exact hclose.trans (ih q)
      · rename_i q hq
        rw [hq] at hclose
        exact hclose.trans (ih q)

theorem hooked_callHooks (p : Pool) (id : ConnectionId) (hooks : List HookState) :
    Hooked id p (p.callHooks id hooks).2.2 := by
  induction hooks generalizing p with
  | nil => exact .refl id p
  | cons h hooks ih =>
    have hsteps := hooked_takeSteps p id (h.hook (h.calls + 1))
    unfold callHooks
    dsimp only
    split
    · rename_i reason q hq
      rw [hq] at hsteps
      exact hsteps
    · rename_i q hq
      rw [hq] at hsteps
      exact hsteps.trans (ih q)

theorem hooked_runHooks (p : Pool) (id : ConnectionId) : Hooked id p (p.runHooks id).2 := by
  have hcalls := hooked_callHooks p id p.hooks
  exact hcalls.trans ⟨rfl, fun hu => hu, fun hs => hs, (plain_of_eq rfl).quiet⟩

/-! ## What becomes of the connection -/

/-- Nobody has the connection, and either it is open and waits to be used
again, or it is closed and the pool does not know it any more. -/
def Undone (p : Pool) (id : ConnectionId) : Prop :=
  ∃ c, p.connection? id = some c ∧ c.inUse = false ∧
    (c.closed = false ∧ id ∈ p.tracked ∧ id ∈ p.idle ∨
      c.closed = true ∧ id ∉ p.tracked ∧ id ∉ p.idle)

theorem Undone.isInUse (hu : p.Undone id) : p.isInUse id = false := by
  obtain ⟨c, hc, hfree, -⟩ := hu
  exact (isInUse_of_connection? hc).trans hfree

/-- The `get` that had it ends and gives its slot back. -/
theorem undone_leave_iff (fault : Fault) : (p.freeSlot.fail get fault).Undone id ↔ p.Undone id := by
  rw [freeSlot_frame]
  exact Iff.rfl

/-- A connection that is off the lists is closed. -/
theorem undone_closeTransport {c : Connection} (hc : p.connection? id = some c)
    (hfree : p.isInUse id = false) (htracked : id ∉ p.tracked) (hidle : id ∉ p.idle) :
    (p.closeTransport id).2.Undone id := by
  have hid : (c.close (p.closeFault id)).connection.id = id := by
    rw [Connection.close_id, connection?_id hc]
  have hput := connection?_put hc hid
  have hmark : (c.close (p.closeFault id)).connection.inUse = false := by
    rw [Connection.close_inUse, ← isInUse_of_connection? hc]
    exact hfree
  unfold closeTransport
  rw [if_neg (Bool.eq_false_iff.1 hfree)]
  unfold closeConnection
  rw [hc]
  dsimp only
  split
  · exact ⟨_, hput, hmark, .inr ⟨c.close_closed _, htracked, hidle⟩⟩
  · exact ⟨_, hput, hmark, .inr ⟨c.close_closed _, htracked, hidle⟩⟩

/-- A connection that is not idle leaves the lists with its place among the
tracked ones. -/
theorem not_mem_untrack (hnodup : p.tracked.Nodup) (hidle : id ∉ p.idle) :
    id ∉ (p.untrack id).tracked ∧ id ∉ (p.untrack id).idle := by
  unfold untrack
  split
  · rw [strike_of_not_mem hidle]
    exact ⟨fun hin => (hnodup.mem_erase_iff.1 hin).1 rfl, hidle⟩
  · rename_i htracked
    exact ⟨htracked, hidle⟩

theorem connection?_untrack (p : Pool) (id other : ConnectionId) :
    (p.untrack id).connection? other = p.connection? other := by
  unfold untrack
  split
  · rw [strike_eq]
    rfl
  · rfl

theorem undone_retire {c : Connection} (hc : p.connection? id = some c)
    (hfree : p.isInUse id = false) (hnodup : p.tracked.Nodup) (hidle : id ∉ p.idle)
    (f : Counters → Counters) : ((((p.untrack id).count f).closeTransport id).2).Undone id := by
  obtain ⟨hgone, hout⟩ := not_mem_untrack hnodup hidle
  exact undone_closeTransport (p := (p.untrack id).count f)
    ((connection?_untrack p id id).trans hc) (((isInUse_persists id).untrack p id).trans hfree) hgone hout

theorem undone_remove {c : Connection} (hc : p.connection? id = some c)
    (hfree : p.isInUse id = false) (hnodup : p.tracked.Nodup) (hidle : id ∉ p.idle) :
    (p.remove id).2.Undone id := by
  unfold remove
  rw [if_neg (Bool.eq_false_iff.1 hfree)]
  exact undone_retire hc hfree hnodup hidle fun c => c

/-- A connection that is not marked is taken back or retired. -/
theorem undone_recycle {c : Connection} (hc : p.connection? id = some c)
    (hfree : p.isInUse id = false) (hopen : p.closed = false) (htracked : id ∈ p.tracked)
    (hnodup : p.tracked.Nodup) (hidle : id ∉ p.idle) : (p.recycle id).Undone id := by
  unfold recycle
  split
  · simp only [hopen, Bool.false_eq_true, if_false]
    exact undone_remove (p := p.count Counters.retireInvalid) hc hfree hnodup hidle
  rename_i hvalid
  split
  · -- It is valid, and so it is open.
    have hlive : c.closed = false := by
      unfold isValid at hvalid
      simp only [hc, hopen, Option.any_some, Bool.false_or, Bool.not_eq_true',
        Bool.not_eq_false] at hvalid
      exact Connection.closed_of_isValid hvalid
    refine ⟨c, hc, (isInUse_of_connection? hc).symm.trans hfree, .inl ⟨hlive, htracked, ?_⟩⟩
    exact List.mem_append_right _ (List.mem_singleton_self _)
  · exact undone_retire hc hfree hnodup hidle Counters.retireStale

/-! ## The pool stays open -/

theorem closed_persists : Persists fun p q => q.closed = p.closed :=
  persists_of_frame (F := Pool.closed) (by intros; rfl)

/-! ## A checkout that is rejected -/

/-- What a `get` has in hand of an open pool before the hooks look at
it. -/
structure Ready (p : Pool) (id : ConnectionId) : Prop where
  unique : p.Unique
  pool_open : p.closed = false
  tracked : id ∈ p.tracked
  nodup : p.tracked.Nodup
  not_idle : id ∉ p.idle
  valid : p.isValid id = true

theorem Ready.sound (hr : p.Ready id) : p.Sound id := by
  have hvalid := hr.valid
  unfold isValid at hvalid
  obtain ⟨c, hc, hgood⟩ := (Option.any_eq_true _ _).1 hvalid
  exact ⟨c, hc, .inr hgood⟩

/-- The hooks leave the connection in hand, but maybe closed or marked. -/
theorem Ready.runHooks (hr : p.Ready id) :
    let q := (p.runHooks id).2
    q.closed = false ∧ id ∈ q.tracked ∧ q.tracked.Nodup ∧ id ∉ q.idle ∧ q.Sound id := by
  have hhooked := hooked_runHooks p id
  have hframe := hhooked.frame
  intro q
  have hclosed : q.closed = p.closed := (congrArg Pool.closed hframe).trans rfl
  have htracked : q.tracked = p.tracked := (congrArg Pool.tracked hframe).trans rfl
  have hidle : q.idle = p.idle := (congrArg Pool.idle hframe).trans rfl
  rw [hclosed, htracked, hidle]
  exact ⟨hr.pool_open, hr.tracked, hr.nodup, hr.not_idle, hhooked.sound hr.sound⟩

/-- A connection that is taken out of the hooks open is handed out. -/
theorem checkOut_cases (hr : p.Ready id) (get : Nat) :
    let q := (p.runHooks id).2
    Quiet p (p.checkOut get id) ∨
      ∃ fault s, Fault.isRejection fault = true ∧ p.checkOut get id = s.freeSlot.fail get fault ∧
        s.closed = false ∧ Quiet p s ∧ s.isInUse id = q.isInUse id ∧
          (q.isInUse id = false → s.Undone id) := by
  obtain ⟨hopen, htracked, hnodup, hidle, c, hc, hsound⟩ := hr.runHooks
  have hquiet := (hooked_runHooks p id).quiet
  intro q
  unfold checkOut
  cases hrun : p.runHooks id with
  | mk rejection s =>
    have hq : q = s := congrArg Prod.snd hrun
    rw [hrun] at hopen htracked hnodup hidle hc hsound hquiet
    dsimp only at hopen htracked hnodup hidle hc hsound hquiet
    rw [hq]
    cases rejection with
    | some reason =>
      exact .inr ⟨.hook reason, s.recycle id, rfl, rfl, (closed_persists.recycle s id).trans hopen,
        hquiet.trans (plain_persists.recycle s id).quiet, (isInUse_persists id).recycle s id,
        fun hfree => undone_recycle hc hfree hopen htracked hnodup hidle⟩
    | none =>
      dsimp only
      rcases takeOut_cases s id with ⟨htake, -⟩ | ⟨d, hd, hlive, htake⟩
      · rw [htake]
        refine .inr ⟨.badConnection, ((s.count Counters.retireInvalid).remove id).2, rfl, rfl,
          (closed_persists.remove _ id).trans hopen, hquiet.trans (plain_persists.remove _ id).quiet,
          (isInUse_persists id).remove _ id, fun hfree => ?_⟩
        exact undone_remove (p := s.count Counters.retireInvalid) hc hfree hnodup hidle
      · cases hc.symm.trans hd
        have hid := connection?_id hc
        have hvalid : c.isValid s.now = true := hsound.resolve_left (by simp [hlive])
        have hput := isValid_put (d := { c with inUse := true, usedAt := s.now }) hc hid
        have hgood := Connection.isValid_of_used (d := { c with inUse := true, usedAt := s.now })
          hvalid rfl rfl rfl rfl
        rw [htake]
        dsimp only
        rw [Bool.true_and, hput, if_pos hgood]
        exact .inl (hquiet.trans (quiet_of_cons rfl nofun))

/-- A rejected checkout is undone just if the hooks have left no mark on
the connection. -/
theorem checkOut_undone_iff (hr : p.Ready id) {n : Nat} {fault : Fault}
    (hfault : fault.isRejection = true) (hold : .failed n fault ∉ p.history)
    (hnew : .failed n fault ∈ (p.checkOut get id).history) :
    n = get ∧ (p.checkOut get id).closed = false ∧
      ((p.checkOut get id).Undone id ↔ (p.runHooks id).2.isInUse id = false) := by
  rcases checkOut_cases hr get with hquiet | ⟨other, s, hother, hq, hopen, hquiet, hmark, hundone⟩
  · exact absurd (hquiet n fault hfault hnew) hold
  rw [hq] at hnew ⊢
  refine ⟨?_, ?_, ?_⟩
  · rcases List.mem_cons.1 hnew with heq | hin
    · cases heq
      rfl
    · exact absurd ((hquiet.trans (plain_freeSlot s).quiet) n fault hfault hin) hold
  · rw [freeSlot_frame]
    exact hopen
  · rw [undone_leave_iff]
    exact ⟨fun hu => hmark.symm.trans hu.isInUse, hundone⟩

/-- What is in hand when the hooks are called, in a run in which no hook
marks. -/
theorem Occurs.ready (hp : Occurs o p (.holding (some get) id)) (ho : o.Unmarking)
    (hvalid : p.isValid id = true) : p.Ready id := by
  obtain ⟨hopen, htracked, hidle, -⟩ := hp.fits ho
  have hopen := hopen rfl
  exact ⟨hp.unique, hopen, htracked hopen, (hp.roster ho).tracked_nodup, hidle, hvalid⟩

/-- A call in hand has not ended. -/
theorem Occurs.not_failed (hp : Occurs o p (.holding (some get) id)) (fault : Fault) :
    .failed get fault ∉ p.history := by
  intro hin
  have hpos : 0 < p.endings get := endings_pos hin (beq_self_eq_true _)
  have hcall : (Hand.holding (some get) id).calls get = 1 := calls_eq_one rfl
  have hplaces := hp.called.places_le get
  omega

/-- If a `get` of an open pool ends with `hook` or `badConnection`, its
connection is not marked, and either it is idle and tracked, or it is
closed and on neither list; its slot is given back, and the counts are
those of the lists.  That is so whatever the hooks do in this checkout, as
long as they leave no mark on the connection, and only then. -/
theorem rejected_checkout_undone (ho : o.Unmarking) (hp : Reachable o p) (m : Move)
    {fault : Fault} (hfault : fault.isRejection = true) (hold : .failed get fault ∉ p.history)
    (hnew : .failed get fault ∈ (p.apply m).history) :
    let q := p.apply m
    (∃ r id, Acts p .start r (.holding (some get) id) ∧ q = r.checkOut get id ∧ q.Undone id ∧
      ∀ hooks fault, Fault.isRejection fault = true →
        .failed get fault ∈ ({ r with hooks := hooks }.checkOut get id).history →
          (({ r with hooks := hooks }.checkOut get id).Undone id ↔
            ({ r with hooks := hooks }.runHooks id).2.isInUse id = false)) ∧
      q.slots + q.inUseCount + q.admittedGets + q.topUps = o.poolSize ∧
      q.size = q.tracked.length + q.getDials + q.topUps ∧
      q.idleCount = q.idle.length + q.topUps := by
  intro q
  have hq : Occurs o q .start := hp.occurs.apply m
  rcases apply_checksOut hp.occurs m with hquiet | ⟨r, n, id, hacts, hquiet, hvalid, hcheck⟩
  · exact absurd (hquiet get fault hfault hnew) hold
  have hr := hp.occurs.acts hacts
  have hready := hr.ready ho hvalid
  have hbefore : .failed get fault ∉ r.history := fun hin => hold (hquiet get fault hfault hin)
  rw [hcheck] at hnew
  obtain ⟨rfl, hopen, hiff⟩ := checkOut_undone_iff hready hfault hbefore hnew
  have hhooks := (hr.acts (runHooks_acts hr.hooksKept (some get) id)).fits ho
  have hundone : (r.checkOut get id).Undone id := hiff.2 hhooks.2.2.2
  rw [← hcheck] at hopen hundone
  refine ⟨⟨r, id, hacts, hcheck, hundone, fun hooks other hother hin => ?_⟩, ?_, ?_, ?_⟩
  · have hready : { r with hooks := hooks }.Ready id := { hready with }
    exact (checkOut_undone_iff hready hother (hr.not_failed other) hin).2.2
  · have hslots : q.slots + q.inUseCount + (q.admittedGets + q.topUps) + 0 = q.options.poolSize :=
      (hq.slotted ho).conserved
    rw [hq.options_eq] at hslots
    omega
  · have hsize : q.size = q.tracked.length + (q.getDials + q.topUps) + 0 := hq.booked.size hopen
    omega
  · exact hq.booked.idle hopen

/-- The hook rejects the first checkout after it has closed the
connection; a failure to close it is passed over. -/
theorem rejected_checkout_undone_closed :
    let hook := Hook.onCalls [1] [.touch, .close false, .fail "busy"]
    let o : Options := { poolSize := 2, minIdle := 0, hooks := [hook] }
    let p := (create o (fun _ => .answer 0 none) 0 true).after [.get false]
    let q := p.apply .turn
    q.ending? 1 = some (.error (.hook "busy")) ∧
      (∃ r id, Acts p .start r (.holding (some 1) id) ∧ q = r.checkOut 1 id ∧ q.Undone id ∧
        ∀ hooks fault, Fault.isRejection fault = true →
          .failed 1 fault ∈ ({ r with hooks := hooks }.checkOut 1 id).history →
            (({ r with hooks := hooks }.checkOut 1 id).Undone id ↔
              ({ r with hooks := hooks }.runHooks id).2.isInUse id = false)) ∧
      q.slots + q.inUseCount + q.admittedGets + q.topUps = 2 ∧
      q.size = q.tracked.length + q.getDials + q.topUps ∧
      q.idleCount = q.idle.length + q.topUps := by
  intro hook o p q
  have hhook : ∀ call, HookStep.mark ∉ hook call := fun call => by
    show HookStep.mark ∉ if [1].contains call then _ else _
    split <;> decide
  have ho : o.Unmarking := fun other hother => by
    cases List.mem_singleton.1 hother
    exact hhook
  have hrejected : (Fault.hook "busy").isRejection = true := rfl
  exact ⟨by decide +kernel, rejected_checkout_undone ho ((Reachable.create _ _ _).after _) .turn
    hrejected (by decide +kernel) (by decide +kernel)⟩

/-- A hook marks the connection and another closes it: the closed
connection stays tracked, and nobody can have it removed.  A hook marks the
connection and rejects it: the idle list has a connection that counts as
held. -/
theorem marked_rejection_stays :
    (let hooks := [Hook.onCalls [1] [.mark], Hook.onCalls [1] [.close false]]
      let p := (create { poolSize := 1, minIdle := 0, hooks := hooks }
        (fun _ => .answer 0 none) 0 true).after [.get false, .turn]
      p.closed = false ∧ p.ending? 1 = some (.error .badConnection) ∧
        p.tracked = [.dialed 1] ∧ p.idle = [] ∧ p.size = 1 ∧
        ((p.connection? (.dialed 1)).map fun c => (c.inUse, c.closed)) = some (true, true) ∧
        (p.apply (.remove (.dialed 1))).tracked = [.dialed 1]) ∧
      (let hooks := [Hook.onCalls [1] [.mark, .fail "busy"]]
      let p := (create { poolSize := 1, minIdle := 0, hooks := hooks }
        (fun _ => .answer 0 none) 0 true).after [.get false, .turn]
      p.closed = false ∧ p.ending? 1 = some (.error (.hook "busy")) ∧
        p.tracked = [.dialed 1] ∧ p.idle = [.dialed 1] ∧
        ((p.connection? (.dialed 1)).map fun c => (c.inUse, c.closed)) = some (true, false)) := by
  decide +kernel

end Pool

end PooledRouting
