import PooledRouting.Proofs.Pool.Bookkeeping

/-!
# The cap on idle connections

With valid settings a pool never has more idle connections than its idle
cap, unless that is zero.  The cap is looked at when a connection comes
back.  A top-up does not look at it: neither when it starts, which the
idle minimum alone decides, nor when its dial comes back, however many
connections have become idle meanwhile.

Nothing goes wrong because a top-up has its place in `idleCount` from its
start on, so that the connections which come back make room for it.
`idleTotal` counts it in.  The total grows in two ways
(`Act.idleTotal_cases`): by a look, which fills it up to the idle minimum,
and by a connection that is kept below the cap.  Valid settings have the
minimum below the cap, so either way the total stays below it.

`idle_capped` is the law for the states between two turns.
-/

namespace PooledRouting.Pool

variable {o : Options} {p q : Pool} {h k : Hand}

/-- The idle connections, those included that top-ups are still to bring. -/
def idleTotal (p : Pool) (h : Hand) : Nat :=
  p.idle.length + p.topUps + h.idlePlaces

/-- The total of idle connections grows by a look, or by a connection that
comes back to an open pool below its idle cap. -/
theorem Act.idleTotal_cases (hn : Attempts p h) (ha : Act p h q k) :
    q.idleTotal k ≤ p.idleTotal h ∨ h = .looking k ∧ q = p.topUp ∨
      p.closed = false ∧ (p.options.maxIdle = 0 ∨ p.idleCount < p.options.maxIdle) ∧
        q.idleTotal k = p.idleTotal h + 1 := by
  rcases ha.topUps_cases hn with htopUps | hlook
  · have hfewer : q.idle.length ≤ p.idle.length → q.idleTotal k ≤ p.idleTotal h := by
      unfold idleTotal
      omega
    have hsame : q.idle = p.idle → q.idleTotal k ≤ p.idleTotal h := fun hidle =>
      hfewer (Nat.le_of_eq (congrArg List.length hidle))
    have hnoted : ∀ reason, (p.noteDialFailure reason).idle = p.idle := fun reason => by
      rw [noteDialFailure_frame]
    have hfreed : ∀ r : Pool, r.freeSlot.idle = r.idle := fun r => by
      rw [freeSlot_frame]
    cases ha with
    | keep hopen _ _ hroom _ =>
      refine .inr (.inr ⟨hopen, hroom, ?_⟩)
      show (p.idle ++ [_]).length + p.topUps + 0 = p.idle.length + p.topUps + 0 + 1
      rw [List.length_append, List.length_singleton]
      omega
    | adoptIdle _ =>
      -- The place that the top-up had becomes the connection's.
      refine .inl ?_
      show (p.idle ++ [_]).length + p.topUps + 0 ≤ p.idle.length + p.topUps + 1
      rw [List.length_append, List.length_singleton]
      omega
    | pick _ hnext => exact .inl (hfewer (Nat.le_of_lt (nextIdle?_length hnext)))
    | strike _ _ => exact .inl (hfewer (strike_idle_sublist _ _).length_le)
    | shutDown _ => exact .inl (hfewer (Nat.zero_le _))
    | cancel get => exact .inl (hsame (by rw [cancel_frame]))
    | resolve attempt fault => exact .inl (hsame (by rw [resolve_frame]))
    | closeConnection _ _ | shutNext _ | retire _ | adoptLate _ | adoptIdleLate _ =>
      exact .inl (hsame (closeConnection_idle _ _))
    | dialFailed _ | dialFailedLate _ | topUpFailed => exact .inl (hsame (hnoted _))
    | finish | fail | checkIn => exact .inl (hsame (hfreed _))
    | _ => exact .inl (hsame rfl)
  · exact .inr (.inl hlook)

/-- A look starts no more top-ups than there are idle connections missing,
and none in a closed pool. -/
theorem topUpRoom_le_missing (p : Pool) :
    p.topUpRoom ≤ p.options.minIdle - p.idleCount ∧ (p.closed = true → p.topUpRoom = 0) := by
  unfold topUpRoom
  split
  · exact ⟨Nat.zero_le _, fun _ => rfl⟩
  · rename_i hstarts
    refine ⟨by omega, fun hclosed => ?_⟩
    exact absurd (.inr hclosed) hstarts

/-- The total of idle connections is within the idle cap, unless that is
zero. -/
def IdleCapped (p : Pool) (h : Hand) : Prop :=
  0 < p.options.maxIdle → p.idleTotal h ≤ p.options.maxIdle

/-- A look keeps the cap if the idle minimum does not lie above it. -/
theorem IdleCapped.topUp (hc : IdleCapped p (.looking h)) (hb : Booked p h.places h.idlePlaces)
    (hmin : 0 < p.options.maxIdle → p.options.minIdle ≤ p.options.maxIdle) :
    IdleCapped p.topUp h := by
  intro hpos
  have htotal : p.idleTotal h ≤ p.options.maxIdle := hc hpos
  have hless : p.options.minIdle ≤ p.options.maxIdle := hmin hpos
  have hroom := p.topUpRoom_le_missing
  have htopUps : p.topUp.topUps = p.topUps + p.topUpRoom := countP_tasks_topUp p
  show p.idle.length + p.topUp.topUps + h.idlePlaces ≤ p.options.maxIdle
  unfold idleTotal at htotal
  cases hclosed : p.closed with
  | true =>
    have hnone := hroom.2 hclosed
    omega
  | false =>
    have hcount := hb.idle hclosed
    omega

theorem IdleCapped.act (hc : IdleCapped p h) (hb : Booked p h.places h.idlePlaces)
    (hn : Attempts p h) (hmin : 0 < p.options.maxIdle → p.options.minIdle ≤ p.options.maxIdle)
    (ha : Act p h q k) : IdleCapped q k := by
  rcases ha.idleTotal_cases hn with hle | ⟨rfl, rfl⟩ | ⟨hopen, hroom, hone⟩
  · intro hpos
    rw [ha.later.options] at hpos ⊢
    exact Nat.le_trans hle (hc hpos)
  · exact hc.topUp hb hmin
  · intro hpos
    rw [ha.later.options] at hpos ⊢
    -- The count that the pool looks at is the total.
    have hcount : p.idleCount = p.idleTotal h := hb.idle hopen
    omega

theorem idleCapped_create (hmin : 0 < o.maxIdle → o.minIdle ≤ o.maxIdle)
    (dialer : Nat → Course) (now : Nat) (background : Bool) :
    IdleCapped (create o dialer now background) .start := by
  have hnew : IdleCapped (create o dialer now false) .start := fun _ => Nat.zero_le _
  cases background with
  | false => exact hnew
  | true => exact IdleCapped.topUp (h := .start) hnew (booked_create o dialer now false) hmin

theorem Occurs.idleCapped (hp : Occurs o p h) (hmin : 0 < o.maxIdle → o.minIdle ≤ o.maxIdle) :
    IdleCapped p h := by
  induction hp with
  | create dialer now background => exact idleCapped_create hmin dialer now background
  | act hp ha ih => exact ih.act hp.booked hp.attempts (hp.options_eq ▸ hmin) ha
  | next _ ih => exact ih
  | giveBack _ _ ih => exact ih

/-- Under valid settings with an idle cap, the idle connections and the
top-ups that are out are together within the cap in every reachable state,
whatever the hooks do and however the probe paces its tries. -/
theorem idle_capped {s : Settings} (hs : s.validate = .ok ()) (hcap : 0 < s.maxIdleConns)
    (hooks : List Hook) (retry : Backoff)
    (hp : Reachable { s.poolOptions with hooks := hooks, dialRetry := retry } p) :
    p.idle.length + p.topUps ≤ s.maxIdleConns.toNat := by
  have hmin : s.minIdleConns.toNat ≤ s.maxIdleConns.toNat := by
    obtain ⟨-, -, hvalid, -⟩ := s.validate_eq_ok_iff.1 hs
    exact Nat.le_of_not_lt fun hlt => hvalid ⟨hcap, UInt64.lt_iff_toNat_lt.2 hlt⟩
  have hcapped := hp.occurs.idleCapped fun _ => hmin
  unfold IdleCapped at hcapped
  rw [hp.occurs.options_eq] at hcapped
  exact hcapped (UInt64.lt_iff_toNat_lt.1 hcap)

/-- The dial of a top-up is slow.  Meanwhile a `get` has dialed for itself
and given its connection back, which is closed: the place is the top-up's. -/
theorem idle_capped_slow_top_up :
    let s : Settings := { Settings.standard with
      poolSize := 2, minIdleConns := 1, maxIdleConns := 1, maxActiveConns := 0 }
    let p := (create { s.poolOptions with hooks := [Hook.touching], dialRetry := Backoff.standard }
      (fun _ => .held) 0 true).after [.turn, .get false, .turn, .resolve 2 none, .turn,
        .release (.dialed 2), .resolve 1 none, .turn]
    s.validate = .ok () ∧ 0 < s.maxIdleConns ∧ p.idle = [.dialed 1] ∧
      p.idle.length + p.topUps ≤ s.maxIdleConns.toNat :=
  ⟨by decide, by decide, by decide +kernel,
    idle_capped (by decide) (by decide) _ _ ((Reachable.create _ _ _).after _)⟩

end PooledRouting.Pool
