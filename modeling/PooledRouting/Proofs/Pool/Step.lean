import PooledRouting.Proofs.Pool.Queue

/-!
# One turn

Once a turn has begun, the call in hand stays the same, and no other turn
is taken until it is over (`Act.goesOn`).  So a turn minds its own call:
nothing happens to another (`step_event`), and no token fires
(`fired_step`).
-/

namespace PooledRouting.Pool

variable {o : Options} {p q r : Pool} {h k : Hand} {id : ConnectionId} {n : Nat}

/-! ## Acts of a turn -/

/-- No turn is in hand, and none was taken. -/
def Hand.isStart : Hand → Bool
  | .start => true
  | .retiring _ next | .looking next => next.isStart
  | _ => false

theorem Retires.goesOn {f : Counters → Counters} (hr : Retires p id h f k) :
    k.isStart = false ∧ k.call? = h.call? := by
  cases hr with
  | _ => exact ⟨rfl, rfl⟩

/-- Once a turn has begun, the call in hand stays the same, and no other
turn is taken. -/
theorem Act.goesOn (ha : Act p h q k) (hh : h.isStart = false) :
    k.isStart = false ∧ (k.call? = h.call? ∨ k.call? = none) ∧
      ∀ get, k.work? = some (.recheck get) → h.work? = some (.recheck get) := by
  cases ha with
  | take _ | shutDown _ => cases hh
  | touch _ _ | closeConnection _ _ | look | retire _ | spare _ => exact ⟨hh, .inl rfl, fun _ h => h⟩
  | answered _ =>
    rename_i caller fault _
    cases caller <;> exact ⟨rfl, .inl rfl, nofun⟩
  | strike hr _ | pass hr _ =>
    exact ⟨hr.goesOn.1, .inl hr.goesOn.2, fun _ hw => nomatch hr.work?_eq.symm.trans hw⟩
  | refuseRemoval hr _ =>
    exact ⟨hr.goesOn.1, .inl hr.goesOn.2, fun _ hw => nomatch hr.work?_eq.symm.trans hw⟩
  | stay | get _ | cancel _ | resolve _ _ | setDialer _ | setPauses _ | setCloseFaults _ | addForeign _
  | fire _ | wait _ _ | shutNext _ | shutSkip _ | shutLast | turnAway _ | tooLate _ _ _ _
  | join _ _ _ _ | refuse | giveUp _ _ | timeOut _ | lookAway _ | underWay _ _ | finish | probeOff _
  | probeDropped _ | probeReached | probeGaveUp _ | probeAgain _ _ | probeNap _ _ _ | serve _ _ _
  | fail | checkIn => exact ⟨rfl, .inr rfl, nofun⟩
  | _ => exact ⟨rfl, .inl rfl, nofun⟩

/-- Since the turn of `t` began in `r`, nothing has happened to the call,
unless the turn is its own. -/
structure Minds (t : Work) (n : Nat) (r p : Pool) (h : Hand) : Prop where
  begun : h.isStart = false
  call : h.call? = some n → t.call? = some n
  recheck : h.work? = some (.recheck n) → t = .recheck n
  history : ∀ e ∈ p.history, Event.call? e = some n →
    e ∈ r.history ∨ t.call? = some n ∨ t = .recheck n

theorem Minds.act {t : Work} (hm : Minds t n r p h) (ha : Act p h q k) : Minds t n r q k := by
  obtain ⟨hstart, hcall, hrecheck⟩ := ha.goesOn hm.begun
  refine ⟨hstart, fun hk => ?_, fun hk => hm.recheck (hrecheck n hk), fun e he hen => ?_⟩
  · rcases hcall with hsame | hnone
    · exact hm.call (hsame.symm.trans hk)
    · cases hnone.symm.trans hk
  · rcases ha.history_cases with hplain | ⟨e', get, hq, hget, hwho⟩
    · exact hm.history e (hplain.mem_history he hen) hen
    · rw [hq] at he
      rcases List.mem_cons.1 he with rfl | hold
      · cases hget.symm.trans hen
        rcases hwho with hmine | rfl
        · exact .inr (.inl (hm.call hmine))
        · exact .inr (.inr (hm.recheck rfl))
      · exact hm.history e hold hen

/-! ## One turn -/

theorem step_of_ready {t : Work} {rest : List Work} (hready : p.ready = t :: rest) :
    p.step = { p with ready := rest }.perform t := by
  unfold step
  rw [hready]

theorem step_of_settled (hready : p.ready = []) : p.step = p := by
  unfold step
  rw [hready]

theorem turn_acts (hk : p.HooksKept) {t : Work} {rest : List Work} (hready : p.ready = t :: rest) :
    Acts { p with ready := rest } (.work t) p.step .done := by
  rw [step_of_ready hready]
  exact perform_acts (p := { p with ready := rest }) hk t

/-- What happens to a call happens in its own turn. -/
theorem step_event (hk : p.HooksKept) {t : Work} {rest : List Work} (hready : p.ready = t :: rest)
    {e : Event} (he : e ∈ p.step.history) (hcall : e.call? = some n) :
    e ∈ p.history ∨ t.call? = some n ∨ t = .recheck n := by
  have hbegin : Minds t n p { p with ready := rest } (.work t) :=
    ⟨rfl, fun hc => hc, fun hw => Option.some.inj hw, fun _ hin _ => .inl hin⟩
  have hend := (turn_acts hk hready).invariant (I := Minds t n p) hbegin fun hm ha => hm.act ha
  exact hend.history e he hcall

/-- No token fires in a turn. -/
theorem fired_step (hk : p.HooksKept) : p.step.fired = p.fired := by
  cases hready : p.ready with
  | nil => rw [step_of_settled hready]
  | cons t rest =>
    have hend := (turn_acts hk hready).invariant
      (I := fun q h => h.isStart = false ∧ q.fired = p.fired) ⟨rfl, rfl⟩ fun hi ha => by
        refine ⟨(ha.goesOn hi.1).1, ?_⟩
        rcases ha.fired_cases with hsame | ⟨rfl, -⟩
        · exact hsame.trans hi.2
        · cases hi.1
    exact hend.2

/-! ## Turns in a row -/

theorem run_eq_after (turns : Nat) (p : Pool) : ∃ moves, run turns p = p.after moves := by
  induction turns generalizing p with
  | zero => exact ⟨[], rfl⟩
  | succ turns ih =>
    unfold run
    split
    · exact ⟨[], rfl⟩
    · obtain ⟨moves, hmoves⟩ := ih p.step
      exact ⟨.turn :: moves, hmoves⟩

theorem Reachable.fired_run (hp : Reachable o p) (turns : Nat) :
    (Pool.run turns p).fired = p.fired := by
  induction turns generalizing p with
  | zero => rfl
  | succ turns ih =>
    unfold Pool.run
    split
    · rfl
    · exact (ih (hp.move .turn)).trans (fired_step hp.occurs.hooksKept)

end PooledRouting.Pool
