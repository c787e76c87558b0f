import PooledRouting.Proofs.Pool.Chains

/-!
# What happens to calls

The history of a pool notes what happens to calls of `get` beside what
happens to connections.  A change is `Plain` if it only adds events of the
second kind: the changes of the lists and of connections are plain, and so
are the turns of top-ups and of the probe.

Whatever happens to a call happens in a turn.  Every other move is plain
(`plain_apply`).
-/

namespace PooledRouting.Pool

variable {p q r : Pool} {e : Event}

/-- The call of `get` that the event is about. -/
def Event.call? : Event → Option Nat
  | .admitted get | .served get _ | .failed get _ => some get
  | _ => none

/-- From one pool to the other nothing has happened to any call. -/
def Plain (p q : Pool) : Prop :=
  ∃ new, q.history = new ++ p.history ∧ ∀ e ∈ new, Event.call? e = none

theorem Plain.trans (h₁ : Plain p q) (h₂ : Plain q r) : Plain p r := by
  obtain ⟨new, hq, hnew⟩ := h₁
  obtain ⟨newer, hr, hnewer⟩ := h₂
  refine ⟨newer ++ new, by rw [hr, hq, List.append_assoc], fun e he => ?_⟩
  exact (List.mem_append.1 he).elim (hnewer e) (hnew e)

/-- An event about a call is an old one. -/
theorem Plain.mem_history (hpq : Plain p q) (hin : e ∈ q.history) {get : Nat}
    (he : e.call? = some get) : e ∈ p.history := by
  obtain ⟨new, hq, hnew⟩ := hpq
  rw [hq] at hin
  rcases List.mem_append.1 hin with hadded | hold
  · cases (hnew e hadded).symm.trans he
  · exact hold

theorem plain_of_eq (hhistory : q.history = p.history) : Plain p q :=
  ⟨[], hhistory, nofun⟩

theorem plain_of_cons (hhistory : q.history = e :: p.history) (he : e.call? = none) : Plain p q :=
  ⟨[e], hhistory, fun _ hin => List.mem_singleton.1 hin ▸ he⟩

/-! ## Lists and connections -/

theorem plain_lowerSize (p : Pool) : Plain p p.lowerSize := by
  unfold lowerSize
  by_cases hzero : p.size = 0 ∧ p.closed = false
  · rw [if_pos hzero]
    exact plain_of_cons rfl rfl
  · rw [if_neg hzero]
    exact plain_of_eq rfl

theorem plain_lowerIdleCount (p : Pool) : Plain p p.lowerIdleCount := by
  unfold lowerIdleCount
  by_cases hzero : p.idleCount = 0 ∧ p.closed = false
  · rw [if_pos hzero]
    exact plain_of_cons rfl rfl
  · rw [if_neg hzero]
    exact plain_of_eq rfl

theorem plain_freeSlot (p : Pool) : Plain p p.freeSlot :=
  plain_of_eq (by rw [freeSlot_frame])

theorem plain_noteDialFailure (p : Pool) (reason : String) : Plain p (p.noteDialFailure reason) :=
  plain_of_eq (by rw [noteDialFailure_frame])

theorem plain_connect (p : Pool) (caller : Caller) (attempt : Nat) :
    Plain p (p.connect caller attempt) :=
  plain_of_cons (e := .connected caller attempt) rfl rfl

theorem plain_strike (p : Pool) (id : ConnectionId) : Plain p (p.strike id) := by
  by_cases hid : id ∈ p.idle
  · rw [strike_of_mem hid]
    exact (plain_lowerSize { p with tracked := p.tracked.erase id }).trans (plain_lowerIdleCount _)
  · rw [strike_of_not_mem hid]
    exact plain_lowerSize { p with tracked := p.tracked.erase id }

theorem plain_closeConnection (p : Pool) (id : ConnectionId) :
    Plain p (p.closeConnection id).2 := by
  unfold closeConnection
  split
  · exact plain_of_eq rfl
  · dsimp only
    split
    · exact plain_of_cons rfl rfl
    · exact plain_of_eq rfl

/-- Nothing happens to a call while a connection is taken back or out. -/
theorem plain_persists : Persists Plain where
  refl _ := plain_of_eq rfl
  trans := Plain.trans
  invalid _ := plain_of_eq rfl
  stale _ := plain_of_eq rfl
  strike := plain_strike
  topUp _ := plain_of_eq rfl
  closeConnection := plain_closeConnection
  keep _ _ := plain_of_eq rfl

theorem plain_release (p : Pool) (id : ConnectionId) : Plain p (p.release id) := by
  unfold release
  split
  · exact (plain_persists.recycle (p.mark id false) id).trans (plain_freeSlot _)
  · exact plain_of_eq rfl

theorem plain_close (p : Pool) : Plain p p.close.2 := by
  unfold close
  split
  · exact plain_of_eq rfl
  · exact plain_persists.closeAll p.shutDown p.tracked

/-! ## Turns in the background -/

theorem plain_startDial (p : Pool) (caller : Caller) : Plain p (p.startDial caller).2 := by
  rcases startDial_cases p caller with ⟨fault, -, hs⟩ | ⟨due, -, -, hs⟩
  · rw [hs]
    exact plain_of_eq rfl
  · rw [hs]
    exact plain_of_eq rfl

theorem plain_endTopUp (p : Pool) (attempt : Nat) (fault : Option String) :
    Plain p (p.endTopUp attempt fault) := by
  unfold endTopUp
  cases fault with
  | none =>
    dsimp only
    split
    · exact (plain_connect p .topUp attempt).trans
        ((plain_closeConnection _ _).trans (plain_freeSlot _))
    · have htrack : Plain p { (p.connect .topUp attempt).track (.dialed attempt) with
          idle := p.idle ++ [.dialed attempt] } :=
        (plain_connect p .topUp attempt).trans (plain_of_cons rfl rfl)
      exact htrack.trans (plain_freeSlot _)
  | some reason =>
    exact (plain_noteDialFailure p reason).trans
      ((plain_lowerSize _).trans ((plain_lowerIdleCount _).trans (plain_freeSlot _)))

theorem plain_startTopUp (p : Pool) : Plain p p.startTopUp := by
  have hdial := plain_startDial p .topUp
  unfold startTopUp
  split
  · exact plain_freeSlot p
  split
  · exact (plain_lowerSize p).trans ((plain_lowerIdleCount _).trans (plain_freeSlot _))
  split
  · rename_i attempt fault q hq
    rw [hq] at hdial
    exact hdial.trans (plain_endTopUp q attempt fault)
  · rename_i q hq
    rw [hq] at hdial
    exact hdial

theorem plain_endProbeTry (p : Pool) (tries : UInt32) (attempt : Nat) (fault : Option String) :
    Plain p (p.endProbeTry tries attempt fault) := by
  unfold endProbeTry
  cases fault with
  | none =>
    have hreach : Plain p (p.resetCircuit.record (.connected (.probe tries) attempt)) :=
      plain_of_cons (e := .connected (.probe tries) attempt) rfl rfl
    exact hreach.trans (plain_of_cons rfl rfl)
  | some reason =>
    dsimp only
    split <;> exact plain_of_eq rfl

theorem plain_startProbeTry (p : Pool) (tries : UInt32) : Plain p (p.startProbeTry tries) := by
  have hdial := plain_startDial p (.probe (Backoff.countTry tries))
  unfold startProbeTry
  split
  · exact plain_of_eq rfl
  dsimp only
  split
  · rename_i attempt fault q hq
    rw [hq] at hdial
    exact hdial.trans (plain_endProbeTry q _ attempt fault)
  · rename_i q hq
    rw [hq] at hdial
    exact hdial

theorem plain_stepAnswered (p : Pool) : Plain p p.stepAnswered := by
  unfold stepAnswered
  split
  · exact plain_endProbeTry { p with ready := _ } _ _ none
  · exact plain_of_eq rfl
  · exact plain_of_eq rfl

/-! ## Moves -/

/-- Something happens to a call in a turn, and at no other move. -/
theorem plain_apply (p : Pool) {m : Move} (hm : m ≠ .turn) : Plain p (p.apply m) := by
  cases m with
  | turn => exact absurd rfl hm
  | cancel get => exact plain_of_eq (by rw [apply, cancel_frame])
  | release id => exact plain_release p id
  | remove id => exact plain_persists.remove p id
  | closeConnection id => exact plain_closeConnection p id
  | close => exact plain_close p
  | resolve attempt fault => exact plain_of_eq (by rw [apply, resolve_frame])
  | turnAnswered => exact plain_stepAnswered p
  | wait ms =>
    refine plain_of_eq ?_
    dsimp only [apply]
    split <;> rfl
  | _ => exact plain_of_eq rfl

end PooledRouting.Pool
