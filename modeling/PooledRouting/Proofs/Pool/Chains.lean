import PooledRouting.Proofs.Pool.Acts

/-!
# Every operation is a chain of acts

Each function of a pool that a turn or a call goes through is taken apart
here, once: `serve_acts` for a `get` with its slot, `checkOut_acts` for
the way from a connection in hand to the caller, `recycle_acts` and
`remove_acts` for the ways back, and so on up to `apply_acts` for a whole
move.  `Reachable.occurs` puts them together: a reachable pool is a state
that occurs with nothing in hand.  `Lasting.after` is the induction for
what holds from some state of a run on, and `Enduring.undergoAll` the one for
runs in which callers may mark connections as well.

A chain of hook calls needs to know which hooks a pool has: those of its
options, whatever their counts of calls (`HooksKept`).
-/

namespace PooledRouting.Pool

/-! ## What goes one way -/

variable {p q : Pool} {h k : Hand} {id : ConnectionId}

/-- What an act never takes back. -/
structure Later (p q : Pool) : Prop where
  options : q.options = p.options
  hooks : q.hooks.map HookState.hook = p.hooks.map HookState.hook
  closed : p.closed = true → q.closed = true
  now : p.now ≤ q.now
  gets : p.getCount ≤ q.getCount
  attempts : p.attemptCount ≤ q.attemptCount
  foreign : p.foreignCount ≤ q.foreignCount

theorem Later.refl (p : Pool) : Later p p :=
  ⟨rfl, rfl, fun h => h, Nat.le_refl _, Nat.le_refl _, Nat.le_refl _, Nat.le_refl _⟩

theorem Later.trans {r : Pool} (h₁ : Later p q) (h₂ : Later q r) : Later p r where
  options := h₂.options.trans h₁.options
  hooks := h₂.hooks.trans h₁.hooks
  closed h := h₂.closed (h₁.closed h)
  now := Nat.le_trans h₁.now h₂.now
  gets := Nat.le_trans h₁.gets h₂.gets
  attempts := Nat.le_trans h₁.attempts h₂.attempts
  foreign := Nat.le_trans h₁.foreign h₂.foreign

theorem Act.later (ha : Act p h q k) : Later p q := by
  -- Most acts touch none of these fields, some one of them.
  have hstill := Later.refl p
  cases ha with
  | get cancelled => exact { hstill with gets := Nat.le_succ _ }
  | addForeign maxLifetime => exact { hstill with foreign := Nat.le_succ _ }
  | fire ms => exact { hstill with now := Nat.le_add_right _ _ }
  | wait ms _ => exact { hstill with now := Nat.le_add_right _ _ }
  | shutDown _ => exact { hstill with closed := fun _ => rfl }
  | answered _ | underWay _ _ => exact { hstill with attempts := Nat.le_succ _ }
  | countHooks hs => exact { hstill with hooks := hs }
  | cancel get =>
    rw [cancel_frame]
    exact { hstill with }
  | resolve attempt fault =>
    rw [resolve_frame]
    exact { hstill with }
  | closeConnection _ id | shutNext _ | retire _ | adoptLate _ | adoptIdleLate _ =>
    rw [closeConnection_frame]
    exact { hstill with }
  | dialFailed _ | topUpFailed =>
    unfold lowerSize
    rw [noteDialFailure_frame]
    exact { hstill with }
  | dialFailedLate _ =>
    rw [noteDialFailure_frame]
    exact { hstill with }
  | finish | fail | checkIn =>
    rw [freeSlot_frame]
    exact { hstill with }
  | strike _ _ =>
    rw [strike_eq]
    exact { hstill with }
  | _ => exact { hstill with }

theorem Acts.later (hs : Acts p h q k) : Later p q :=
  hs.invariant (I := fun r _ => Later p r) (Later.refl p) fun hr ha => hr.trans ha.later

/-- The hooks of the pool are those of its options. -/
def HooksKept (p : Pool) : Prop :=
  p.hooks.map HookState.hook = p.options.hooks

theorem hooksKept_create (o : Options) (dialer : Nat → Course) (now : Nat)
    (background : Bool) : (create o dialer now background).HooksKept := by
  have hmap : (o.hooks.map fun h => ({ hook := h } : HookState)).map HookState.hook =
      o.hooks := by
    rw [List.map_map]
    exact List.map_id _
  cases background <;> exact hmap

theorem HooksKept.later (hk : p.HooksKept) (hl : Later p q) : q.HooksKept :=
  hl.hooks.trans (hk.trans (congrArg Options.hooks hl.options).symm)

/-! ## Retiring a connection -/

theorem isInUse_strike (p : Pool) (id other : ConnectionId) :
    (p.strike id).isInUse other = p.isInUse other := by
  rw [strike_eq]
  rfl

theorem strike_count (p : Pool) (id : ConnectionId) (f : Counters → Counters) :
    (p.count f).strike id = (p.strike id).count f := by
  by_cases hid : id ∈ p.idle
  · rw [strike_of_mem hid, strike_of_mem (show id ∈ (p.count f).idle from hid)]
    rfl
  · rw [strike_of_not_mem hid, strike_of_not_mem (show id ∉ (p.count f).idle from hid)]
    rfl

/-- Off the lists, and closed unless somebody holds it. -/
theorem retiring_acts (p : Pool) (id : ConnectionId) (k : Hand) :
    Acts p (.retiring id k) (p.closeTransport id).2 k := by
  unfold closeTransport
  cases hu : p.isInUse id with
  | true => exact .single (.spare hu)
  | false => exact .single (.retire hu)

theorem untrack_acts {f : Counters → Counters} (hr : Retires p id h f k) :
    Acts p h ((p.untrack id).count f) (.retiring id k) := by
  unfold untrack
  by_cases hid : id ∈ p.tracked
  · rw [if_pos hid]
    refine .cons (.strike hr hid) ?_
    rw [strike_count]
    exact .single .look
  · rw [if_neg hid]
    exact .single (.pass hr hid)

theorem remove_acts {f : Counters → Counters} (hr : Retires p id h f k) :
    Acts p h ((p.count f).remove id).2 k := by
  unfold remove
  have hcount : (p.count f).untrack id = (p.untrack id).count f := by
    unfold untrack
    rw [strike_count]
    by_cases hid : id ∈ p.tracked
    · rw [if_pos hid, if_pos (show id ∈ (p.count f).tracked from hid)]
      rfl
    · rw [if_neg hid, if_neg (show id ∉ (p.count f).tracked from hid)]
  cases hu : p.isInUse id with
  | true =>
    rw [if_pos (show (p.count f).isInUse id = true from hu)]
    exact .single (.refuseRemoval hr hu)
  | false =>
    rw [if_neg (by simp [show (p.count f).isInUse id = false from hu]), hcount]
    exact (untrack_acts hr).trans (retiring_acts _ _ _)

theorem recycle_acts (p : Pool) {get? : Option Nat} (id : ConnectionId) {fault : Fault}
    (hfault : fault.Ends get?) :
    Acts p (.holding get? id) (p.recycle id) (.leaving get? fault) := by
  unfold recycle
  by_cases hclosed : p.closed = true
  · simp only [hclosed, Bool.true_or, if_true]
    exact remove_acts (f := fun c => c) (.late (.inl hclosed) hfault)
  have hopen : p.closed = false := by simpa using hclosed
  by_cases hvalid : p.isValid id = true
  · rw [if_neg (by simp [hopen, hvalid])]
    by_cases hid : id ∈ p.tracked
    · rw [if_neg (not_not_intro hid)]
      split
      · rename_i hroom
        exact .single (.keep hopen hvalid hid hroom hfault)
      · rename_i hroom
        have hfull : p.options.maxIdle ≠ 0 ∧ p.options.maxIdle ≤ p.idleCount := by omega
        exact (untrack_acts (.stale hopen hid hfull.1 hfull.2 hfault)).trans (retiring_acts _ _ _)
    · rw [if_pos hid]
      exact .cons (.pass (.late (.inr hid) hfault) hid) (retiring_acts _ _ _)
  · have hinvalid : p.isValid id = false := by simpa using hvalid
    simp only [hopen, hinvalid, Bool.false_or, Bool.not_false, if_true, Bool.false_eq_true,
      if_false]
    exact remove_acts (.invalid hinvalid hfault fun _ => hopen)

/-! ## Handing out -/

/-- A hook does to the connection what anybody may do, unless it is one
that marks. -/
theorem takeSteps_acts (p : Pool) (get? : Option Nat) (id : ConnectionId)
    (steps : List HookStep) (hmark : HookStep.mark ∈ steps → ¬p.options.Unmarking) :
    Acts p (.holding get? id) (p.takeSteps id steps).2 (.holding get? id) := by
  induction steps generalizing p with
  | nil => exact .refl
  | cons step steps ih =>
    have hrest := fun h => hmark (List.mem_cons_of_mem _ h)
    cases step with
    | touch => exact .cons (.touch (by nofun) id) (ih (p.touch id) hrest)
    | mark => exact .cons (.mark (hmark List.mem_cons_self)) (ih (p.mark id true) hrest)
    | fail reason => exact .refl
    | close strict =>
      have hclose : Act p (.holding get? id) (p.closeConnection id).2 (.holding get? id) :=
        .closeConnection (by nofun) id
      have hgo : Acts p (.holding get? id) ((p.closeConnection id).2.takeSteps id steps).2
          (.holding get? id) :=
        .cons hclose (ih _ (by rwa [hclose.later.options]))
      unfold takeSteps
      split
      · rename_i reason q hq
        rw [hq] at hclose hgo
        cases strict with
        | true => exact .single hclose
        | false => exact hgo
      · rename_i q hq
        rw [hq] at hgo
        exact hgo

theorem callHooks_acts (p : Pool) (get? : Option Nat) (id : ConnectionId)
    (hooks : List HookState) (hin : ∀ h ∈ hooks, h.hook ∈ p.options.hooks) :
    Acts p (.holding get? id) (p.callHooks id hooks).2.2 (.holding get? id) := by
  induction hooks generalizing p with
  | nil => exact .refl
  | cons h hooks ih =>
    have hsteps := takeSteps_acts p get? id (h.hook (h.calls + 1))
      fun hm hu => hu h.hook (hin h List.mem_cons_self) _ hm
    unfold callHooks
    dsimp only
    split
    · rename_i reason q hq
      rw [hq] at hsteps
      exact hsteps
    · rename_i q hq
      rw [hq] at hsteps
      refine hsteps.trans (ih q fun h hh => ?_)
      rw [hsteps.later.options]
      exact hin h (List.mem_cons_of_mem _ hh)

theorem callHooks_hooks (p : Pool) (id : ConnectionId) (hooks : List HookState) :
    (p.callHooks id hooks).2.1.map HookState.hook = hooks.map HookState.hook := by
  induction hooks generalizing p with
  | nil => rfl
  | cons h hooks ih =>
    unfold callHooks
    dsimp only
    split
    · rfl
    · rename_i q _
      exact congrArg (h.hook :: ·) (ih q)

theorem runHooks_acts (hk : p.HooksKept) (get? : Option Nat) (id : ConnectionId) :
    Acts p (.holding get? id) (p.runHooks id).2 (.holding get? id) := by
  have hcalls := callHooks_acts p get? id p.hooks fun h hh => by
    rw [← hk]
    exact List.mem_map_of_mem hh
  have hhooks := callHooks_hooks p id p.hooks
  refine hcalls.trans (.single (.countHooks ?_))
  rw [hhooks, hk, ← hcalls.later.options, hk.later hcalls.later]

/-- A connection that cannot be handed out after all is discarded. -/
theorem discard_acts (p : Pool) (get : Nat) (id : ConnectionId) (h : p.isValid id = false) :
    Acts p (.holding (some get) id)
      ((((p.count Counters.retireInvalid).remove id).2.freeSlot).fail get .badConnection)
      .done := by
  have hretires : Retires p id (.holding (some get) id) Counters.retireInvalid
      (.leaving (some get) .badConnection) := .invalid h (fun _ => rfl) nofun
  exact (remove_acts hretires).trans (.single .fail)

/-- Only a connection that is not closed is taken out. -/
theorem takeOut_cases (p : Pool) (id : ConnectionId) :
    p.takeOut id = (false, p) ∧ p.isValid id = false ∨
      ∃ c, p.connection? id = some c ∧ c.closed = false ∧
        p.takeOut id = (true, p.modify id fun _ => { c with inUse := true, usedAt := p.now }) := by
  unfold takeOut isValid
  cases hc : p.connection? id with
  | none => simp
  | some c =>
    by_cases hclosed : c.closed = true
    · simp [Connection.takeOut?, Connection.isValid, hclosed]
    · simp [Connection.takeOut?, Connection.isValid, hclosed]

theorem checkOut_acts (hk : p.HooksKept) (get : Nat) (id : ConnectionId) :
    Acts p (.holding (some get) id) (p.checkOut get id) .done := by
  have hrun := runHooks_acts hk (some get) id
  unfold checkOut
  split
  · rename_i reason q hq
    rw [hq] at hrun
    exact hrun.trans ((recycle_acts q id fun _ => rfl).trans (.single .fail))
  · rename_i q hq
    rw [hq] at hrun
    refine hrun.trans ?_
    rcases takeOut_cases q id with ⟨htake, hinvalid⟩ | ⟨c, hc, hclosed, htake⟩
    · rw [htake]
      exact discard_acts q get id hinvalid
    · rw [htake]
      have hid := connection?_id hc
      have hput := isValid_put (d := { c with inUse := true, usedAt := q.now }) hc hid
      dsimp only
      split
      · rename_i hvalid
        rw [Bool.true_and, hput] at hvalid
        exact .single (.serve hc hclosed hvalid)
      · rename_i hvalid
        rw [Bool.true_and, hput, Bool.not_eq_true] at hvalid
        rw [if_pos rfl, modify_modify (f := fun _ => { c with inUse := true, usedAt := q.now })
          fun _ _ => hid]
        refine .cons (.putBack hc hclosed) (discard_acts _ get id ?_)
        rw [isValid_put (d := { c with inUse := false, usedAt := q.now }) hc hid]
        exact hvalid

/-! ## Dials -/

/-- An attempt comes back at once, or it is under way: its course says
which. -/
theorem startDial_cases (p : Pool) (caller : Caller) :
    (∃ fault, p.dialer (p.attemptCount + 1) = .answer 0 fault ∧
        p.startDial caller =
          (.answered (p.attemptCount + 1) fault, { p with attemptCount := p.attemptCount + 1 })) ∨
      ∃ due : Option (Nat × Option String), (∀ d ∈ due, p.now < d.1) ∧
        (∀ fault, p.dialer (p.attemptCount + 1) ≠ .answer 0 fault) ∧
        p.startDial caller =
          (.underWay,
            { p with
              attemptCount := p.attemptCount + 1
              dials := p.dials ++ [⟨p.attemptCount + 1, caller, due⟩] }) := by
  unfold startDial
  dsimp only
  split
  · rename_i fault hcourse
    exact Or.inl ⟨fault, hcourse, rfl⟩
  · rename_i ms fault hcourse
    refine Or.inr ⟨some (p.now + (ms + 1), fault), ?_, fun _ hnow => ?_, rfl⟩
    · simp
    · cases hcourse.symm.trans hnow
  · rename_i hcourse
    refine Or.inr ⟨none, by simp, fun _ hnow => ?_, rfl⟩
    cases hcourse.symm.trans hnow

theorem endGetDial_acts (hk : p.HooksKept) (get attempt : Nat) (fault : Option String) :
    Acts p (.work (.dialed (.get get) attempt fault)) (p.endGetDial get attempt fault)
      .done := by
  unfold endGetDial
  cases fault with
  | none =>
    dsimp only
    split
    · rename_i hclosed
      exact .cons (.adoptLate hclosed) (.single .fail)
    · rename_i hopen
      have hadopt : Act p (.work (.dialed (.get get) attempt none))
          ((p.connect (.get get) attempt).track (.dialed attempt))
          (.holding (some get) (.dialed attempt)) :=
        .adopt (Bool.eq_false_iff.2 hopen)
      exact .cons hadopt (checkOut_acts (hk.later hadopt.later) get _)
  | some reason =>
    have hclosed : (p.noteDialFailure reason).closed = p.closed := by
      rw [noteDialFailure_frame]
    dsimp only
    rw [hclosed]
    split
    · rename_i hclosed
      exact .cons (.dialFailedLate hclosed) (.single .fail)
    · rename_i hopen
      exact .cons (.dialFailed (by simpa using hopen)) (.single .fail)

theorem dialFor_acts (hk : p.HooksKept) (get : Nat) :
    Acts p (.missed get) (p.dialFor get) .done := by
  unfold dialFor
  split
  · rename_i hclosed
    exact .cons (.noDial (.inl ⟨hclosed, rfl⟩)) (.single .fail)
  rename_i hopen
  split
  · rename_i hfull
    exact .cons (.noDial (.inr (.inl ⟨hfull, rfl⟩))) (.single .fail)
  rename_i hroom
  split
  · rename_i hcircuit
    exact .cons (.noDial (.inr (.inr ⟨hcircuit, rfl⟩))) (.single .fail)
  rename_i hcircuit
  refine .cons (.reserve (by simpa using hopen) hroom (by simpa using hcircuit)) ?_
  dsimp only
  rcases startDial_cases { p with size := p.size + 1 } (.get get) with
    ⟨fault, hnow, hs⟩ | ⟨due, hdue, hlater, hs⟩
  · rw [hs]
    exact .cons (.answered hnow) (endGetDial_acts (by exact hk) get _ fault)
  · rw [hs]
    exact .single (.underWay hdue hlater)

theorem endTopUp_acts (p : Pool) (attempt : Nat) (fault : Option String) :
    Acts p (.work (.dialed .topUp attempt fault)) (p.endTopUp attempt fault) .done := by
  unfold endTopUp
  cases fault with
  | none =>
    dsimp only
    split
    · rename_i hclosed
      exact .cons (.adoptIdleLate hclosed) (.single .finish)
    · rename_i hopen
      exact .cons (.adoptIdle (Bool.eq_false_iff.2 hopen)) (.single .finish)
  | some reason => exact .cons .topUpFailed (.single .finish)

theorem startTopUp_acts (p : Pool) : Acts p (.work .topUp) p.startTopUp .done := by
  unfold startTopUp
  split
  · rename_i hclosed
    exact .cons (.topUpOff hclosed) (.single .finish)
  rename_i hopen
  have hopen : p.closed = false := by simpa using hopen
  split
  · rename_i hcircuit
    exact .cons (.topUpDenied hopen hcircuit) (.single .finish)
  rename_i hcircuit
  refine .cons (.callTopUp hopen (by simpa using hcircuit)) ?_
  rcases startDial_cases p .topUp with ⟨fault, hnow, hs⟩ | ⟨due, hdue, hlater, hs⟩
  · rw [hs]
    exact .cons (.answered hnow) (endTopUp_acts _ _ fault)
  · rw [hs]
    exact .single (.underWay hdue hlater)

theorem endProbeTry_acts (hopen : p.closed = false) (tries : UInt32) (attempt : Nat)
    (fault : Option String) :
    Acts p (.work (.dialed (.probe tries) attempt fault)) (p.endProbeTry tries attempt fault)
      .done := by
  unfold endProbeTry
  cases fault with
  | none => exact .single .probeReached
  | some reason =>
    dsimp only
    split
    · rename_i hp
      exact .single (.probeGaveUp (.inr hp))
    · rename_i hp
      exact .single (.probeAgain hopen hp)
    · rename_i ms hms hp
      exact .single (.probeNap hopen hp hms)

theorem startProbeTry_acts (p : Pool) (tries : UInt32) :
    Acts p (.work (.probe tries)) (p.startProbeTry tries) .done := by
  unfold startProbeTry
  split
  · rename_i hclosed
    exact .single (.probeOff hclosed)
  rename_i hopen
  have hopen : p.closed = false := by simpa using hopen
  refine .cons (.callProbe hopen) ?_
  dsimp only
  rcases startDial_cases p (.probe (Backoff.countTry tries)) with
    ⟨fault, hnow, hs⟩ | ⟨due, hdue, hlater, hs⟩
  · rw [hs]
    exact .cons (.answered hnow) (endProbeTry_acts (by exact hopen) _ _ fault)
  · rw [hs]
    exact .single (.underWay hdue hlater)

/-! ## Serving a `get` -/

/-- The next idle connection is taken off its list. -/
theorem takeIdle_acts {get : Nat} {rest : List ConnectionId} (hopen : p.closed = false)
    (hnext : p.nextIdle? = some (id, rest)) :
    Acts p (.admitted get) (p.takeIdle rest) (.picked get id) :=
  .cons (.pick hopen hnext) (.single .look)

/-- It is not valid any more, and the search goes on. -/
theorem discardInvalid_acts {get : Nat} (hinvalid : p.isValid id = false) :
    Acts p (.picked get id) (p.discardInvalid id) (.admitted get) :=
  remove_acts (.expired hinvalid)

theorem serve_acts (hk : p.HooksKept) (get : Nat) :
    Acts p (.admitted get) (p.serve get) .done := by
  fun_induction serve p get with
  | case1 p hclosed => exact .cons (.shut hclosed) (.single .fail)
  | case2 p hopen hnext =>
    exact .cons (.miss (Bool.eq_false_iff.2 hopen) hnext) (dialFor_acts (by exact hk) get)
  | case3 p hopen id rest hnext q hvalid =>
    have htake : Acts p (.admitted get) q (.picked get id) :=
      takeIdle_acts (Bool.eq_false_iff.2 hopen) hnext
    exact htake.trans (.cons (.hit hvalid) (checkOut_acts (by exact hk) get id))
  | case4 p hopen id rest hnext q hinvalid ih =>
    have hround : Acts p (.admitted get) (q.discardInvalid id) (.admitted get) :=
      (takeIdle_acts (Bool.eq_false_iff.2 hopen) hnext).trans
        (discardInvalid_acts (Bool.eq_false_iff.2 hinvalid))
    exact hround.trans (ih (hk.later hround.later))

theorem enter_acts (hk : p.HooksKept) (get : Nat) :
    Acts (p.record (.admitted get)) (.admitted get) (p.enter get) .done :=
  serve_acts (by exact hk) get

theorem arrive_acts (hk : p.HooksKept) (get : Nat) :
    Acts p (.work (.arrive get)) (p.arrive get) .done := by
  unfold arrive
  split
  · rename_i hclosed
    exact .single (.turnAway (.inl ⟨hclosed, rfl⟩))
  rename_i hopen
  have hopen : p.closed = false := by simpa using hopen
  split
  · rename_i hfired
    exact .single (.turnAway (.inr ⟨hfired, rfl⟩))
  rename_i hlive
  split
  · rename_i hfree
    exact .cons (.claim hopen hlive hfree) (enter_acts (by exact hk) get)
  rename_i hfree
  have hnone : p.slots = 0 := by omega
  split
  · rename_i htimeout
    exact .single (.tooLate hopen hlive hnone htimeout)
  · rename_i htimeout
    exact .single (.join hopen hlive hnone htimeout)

theorem resume_acts (hk : p.HooksKept) (get : Nat) :
    Acts p (.work (.admitted get)) (p.resume get) .done := by
  unfold resume
  split
  · rename_i hfired
    exact .cons (.decline (.inr ⟨hfired, rfl⟩)) (.single .fail)
  rename_i hlive
  split
  · rename_i hclosed
    exact .cons (.decline (.inl ⟨hclosed, rfl⟩)) (.single .fail)
  · rename_i hopen
    exact .cons (.accept (by simpa using hopen) hlive) (enter_acts hk get)

theorem recheck_acts (p : Pool) (get : Nat) :
    Acts p (.work (.recheck get)) (p.recheck get) .done := by
  unfold recheck
  split
  · rename_i hnone
    exact .single (.lookAway fun w hw => nomatch hnone.symm.trans hw)
  rename_i w hw
  have hin : w ∈ p.line := List.mem_of_find?_eq_some hw
  have hget : w.get = get := by simpa using List.find?_some hw
  dsimp only
  split
  · rename_i hfired
    exact .single (.giveUp ⟨w, hin, hget⟩ hfired)
  rename_i hlive
  split
  · rename_i hdue
    exact .single (.timeOut ⟨w, hin, hget, hdue⟩)
  · rename_i hearly
    refine .single (.lookAway fun v hv => ?_)
    cases hw.symm.trans hv
    exact ⟨hlive, Nat.lt_of_not_le hearly⟩

/-! ## Turns -/

theorem comeBack_acts (hk : p.HooksKept) (caller : Caller) (attempt : Nat)
    (fault : Option String) :
    Acts p (.work (.dialed caller attempt fault)) (p.comeBack caller attempt fault) .done := by
  unfold comeBack
  cases caller with
  | get number => exact endGetDial_acts hk number attempt fault
  | topUp => exact endTopUp_acts p attempt fault
  | probe tries =>
    dsimp only
    split
    · rename_i hclosed
      exact .single (.probeDropped hclosed)
    · rename_i hopen
      exact endProbeTry_acts (by simpa using hopen) tries attempt fault

theorem perform_acts (hk : p.HooksKept) (w : Work) : Acts p (.work w) (p.perform w) .done := by
  cases w with
  | arrive get => exact arrive_acts hk get
  | admitted get => exact resume_acts hk get
  | refused get => exact .single .refuse
  | recheck get => exact recheck_acts p get
  | topUp => exact startTopUp_acts p
  | probe tries => exact startProbeTry_acts p tries
  | dialed caller attempt fault => exact comeBack_acts hk caller attempt fault

theorem step_acts (hk : p.HooksKept) : Acts p .start p.step .done := by
  unfold step
  split
  · exact .single .stay
  · rename_i w rest hready
    exact .cons (.take hready) (perform_acts (by exact hk) w)

theorem stepAnswered_acts (p : Pool) : Acts p .start p.stepAnswered .done := by
  unfold stepAnswered
  split
  · rename_i hready _
    exact .cons (.take hready) (.single .probeReached)
  · rename_i hready hclosed
    exact .cons (.take hready) (.single (.probeGaveUp (.inl hclosed)))
  · exact .single .stay

/-! ## Calls -/

theorem closeAll_acts (p : Pool) (ids : List ConnectionId) :
    Acts p (.closing ids) (p.closeAll ids).2 .done := by
  induction ids generalizing p with
  | nil => exact .single .shutLast
  | cons id ids ih =>
    refine .cons ?_ (ih (p.closeTransport id).2)
    unfold closeTransport
    cases hu : p.isInUse id with
    | true => exact .shutSkip hu
    | false => exact .shutNext hu

theorem close_acts (p : Pool) : Acts p .start p.close.2 .done := by
  unfold close
  split
  · exact .single .stay
  · rename_i hopen
    exact .cons (.shutDown (by simpa using hopen)) (closeAll_acts p.shutDown p.tracked)

theorem release_acts (hu : p.isInUse id = true) :
    Acts (p.mark id false) (.holding none id) (p.release id) .done := by
  have hends : Fault.closed.Ends none := nofun
  unfold release
  rw [if_pos hu]
  exact (recycle_acts (p.mark id false) id hends).trans (.single .checkIn)

/-- A move is a chain of acts, but for a release that ends a checkout. -/
theorem apply_acts (hk : p.HooksKept) (m : Move)
    (hm : ∀ id, m = .release id → p.isInUse id = false) : Acts p .start (p.apply m) .done := by
  cases m with
  | get cancelled => exact .single (.get cancelled)
  | cancel get => exact .single (.cancel get)
  | release id =>
    have hr : p.release id = p := by
      unfold release
      rw [if_neg (by simp [hm id rfl])]
    show Acts p .start (p.release id) .done
    rw [hr]
    exact .single .stay
  | remove id =>
    show Acts p .start (p.remove id).2 .done
    cases hu : p.isInUse id with
    | true =>
      unfold remove
      rw [if_pos hu]
      exact .single .stay
    | false => exact remove_acts (f := fun c => c) (.removed hu)
  | touch id => exact .cons (.touch (by nofun) id) (.single .stay)
  | closeConnection id => exact .cons (.closeConnection (by nofun) id) (.single .stay)
  | close => exact close_acts p
  | resolve attempt fault => exact .single (.resolve attempt fault)
  | setDialer dialer => exact .single (.setDialer dialer)
  | setPauses pauses => exact .single (.setPauses pauses)
  | setCloseFaults faults => exact .single (.setCloseFaults faults)
  | addForeign maxLifetime => exact .single (.addForeign maxLifetime)
  | turn => exact step_acts hk
  | turnAnswered => exact stepAnswered_acts p
  | fire ms => exact .single (.fire ms)
  | wait ms =>
    by_cases hnone : p.nextDeadline? (p.now + ms) = none
    · have hwait : p.apply (.wait ms) = { p with now := p.now + ms } := if_pos hnone
      rw [hwait]
      exact .single (.wait ms hnone)
    · have hstay : p.apply (.wait ms) = p := if_neg hnone
      rw [hstay]
      exact .single .stay

/-! ## Reachable pools occur -/

variable {o : Options}

theorem Arises.options_eq (hp : Arises o p h) : p.options = o := by
  induction hp with
  | create dialer now background => cases background <;> rfl
  | act _ ha ih => exact ha.later.options.trans ih
  | next _ ih | mark _ _ _ ih | release _ _ ih => exact ih

theorem Occurs.options_eq (hp : Occurs o p h) : p.options = o :=
  hp.arises.options_eq

theorem Arises.hooksKept (hp : Arises o p h) : p.HooksKept := by
  induction hp with
  | create dialer now background => exact hooksKept_create o dialer now background
  | act _ ha ih => exact ih.later ha.later
  | next _ ih | mark _ _ _ ih | release _ _ ih => exact ih

theorem Occurs.hooksKept (hp : Occurs o p h) : p.HooksKept :=
  hp.arises.hooksKept

/-- A move is a chain of acts that begins with nothing in hand, or with the
connection of a checkout that ends. -/
theorem apply_chain (hk : p.HooksKept) (m : Move) :
    Acts p .start (p.apply m) .done ∨
      ∃ id, p.isInUse id = true ∧ Acts (p.mark id false) (.holding none id) (p.apply m) .done := by
  by_cases hm : ∃ id, m = .release id ∧ p.isInUse id = true
  · obtain ⟨id, rfl, hheld⟩ := hm
    exact .inr ⟨id, hheld, release_acts hheld⟩
  · refine .inl (apply_acts hk m fun id hid => ?_)
    exact Bool.eq_false_iff.2 fun hheld => hm ⟨id, hid, hheld⟩

theorem Arises.apply (hp : Arises o p .start) (m : Move) : Arises o (p.apply m) .start := by
  rcases apply_chain hp.hooksKept m with hs | ⟨id, -, hs⟩
  · exact (hp.acts hs).next
  · exact (((hp.mark id false).release id).acts hs).next

theorem Occurs.apply (hp : Occurs o p .start) (m : Move) : Occurs o (p.apply m) .start := by
  rcases apply_chain hp.hooksKept m with hs | ⟨id, hheld, hs⟩
  · exact (hp.acts hs).next
  · exact ((hp.giveBack hheld).acts hs).next

theorem Reachable.occurs (hp : Reachable o p) : Occurs o p .start := by
  induction hp with
  | create dialer now background => exact .create dialer now background
  | move m _ ih => exact ih.apply m

theorem Arises.undergo (hp : Arises o p .start) (d : Deed) : Arises o (p.undergo d) .start := by
  cases d with
  | move m => exact hp.apply m
  | mark id inUse => exact hp.mark id inUse

theorem Arises.undergoAll (hp : Arises o p .start) (deeds : List Deed) :
    Arises o (p.undergoAll deeds) .start := by
  induction deeds generalizing p with
  | nil => exact hp
  | cons d deeds ih => exact ih (hp.undergo d)

theorem Attained.arises (hp : Attained o p) : Arises o p .start := by
  induction hp with
  | create dialer now background => exact .create dialer now background
  | deed d _ ih => exact ih.undergo d

/-! ## What a run keeps from some state on -/

/-- What a run keeps once it is so: over an act, from one chain to the next,
and when a checkout ends. -/
structure Lasting (o : Options) (I : Pool → Hand → Prop) : Prop where
  act : ∀ {p q : Pool} {h k : Hand}, Occurs o p h → I p h → Act p h q k → I q k
  next : ∀ {p : Pool}, I p .done → I p .start
  giveBack : ∀ {p : Pool} {id : ConnectionId}, Occurs o p .start → p.isInUse id = true →
    I p .start → I (p.mark id false) (.holding none id)

namespace Lasting

variable {I : Pool → Hand → Prop}

theorem acts (hI : Lasting o I) (hp : Occurs o p h) (hi : I p h) (hs : Acts p h q k) : I q k := by
  induction hs with
  | refl => exact hi
  | cons ha _ ih => exact ih (hp.act ha) (hI.act hp hi ha)

theorem apply (hI : Lasting o I) (hp : Occurs o p .start) (hi : I p .start) (m : Move) :
    I (p.apply m) .start := by
  rcases apply_chain hp.hooksKept m with hs | ⟨id, hheld, hs⟩
  · exact hI.next (hI.acts hp hi hs)
  · exact hI.next (hI.acts (hp.giveBack hheld) (hI.giveBack hp hheld hi) hs)

/-- What is so in a state is so after any moves. -/
theorem after (hI : Lasting o I) (hp : Occurs o p .start) (hi : I p .start) (moves : List Move) :
    I (p.after moves) .start := by
  induction moves generalizing p with
  | nil => exact hi
  | cons m moves ih => exact ih (hp.apply m) (hI.apply hp hi m)

end Lasting

/-- What a run keeps once it is so, also if callers mark connections: over an
act, from one chain to the next, and however the marks change. -/
structure Enduring (o : Options) (I : Pool → Hand → Prop) : Prop where
  act : ∀ {p q : Pool} {h k : Hand}, Arises o p h → I p h → Act p h q k → I q k
  next : ∀ {p : Pool}, I p .done → I p .start
  mark : ∀ {p : Pool} (id : ConnectionId) (inUse : Bool), I p .start → I (p.mark id inUse) .start
  release : ∀ {p : Pool} (id : ConnectionId), I p .start → I p (.holding none id)

namespace Enduring

variable {I : Pool → Hand → Prop}

theorem acts (hI : Enduring o I) (hp : Arises o p h) (hi : I p h) (hs : Acts p h q k) : I q k := by
  induction hs with
  | refl => exact hi
  | cons ha _ ih => exact ih (hp.act ha) (hI.act hp hi ha)

theorem undergo (hI : Enduring o I) (hp : Arises o p .start) (hi : I p .start) (d : Deed) :
    I (p.undergo d) .start := by
  cases d with
  | mark id inUse => exact hI.mark id inUse hi
  | move m =>
    rcases apply_chain hp.hooksKept m with hs | ⟨id, -, hs⟩
    · exact hI.next (hI.acts hp hi hs)
    · have hmarked := hp.mark id false
      exact hI.next (hI.acts (hmarked.release id) (hI.release id (hI.mark id false hi)) hs)

/-- What is so in a state is so after any deeds. -/
theorem undergoAll (hI : Enduring o I) (hp : Arises o p .start) (hi : I p .start)
    (deeds : List Deed) : I (p.undergoAll deeds) .start := by
  induction deeds generalizing p with
  | nil => exact hi
  | cons d deeds ih => exact ih (hp.undergo d) (hI.undergo hp hi d)

end Enduring

end PooledRouting.Pool
