import PooledRouting.Proofs.Simulation.Requests

/-!
# One request after another

With room for one request in flight a simulation goes on by stages: no request is in
flight, or the call of the one in flight is under way, or that request works (`Stage`).
`Underway` adds what is counted so far.

A stage knows the ticks that its request still takes at most.  When the clock moves, it
moves to a later time, though not beyond the one at which the stage ends; so each tick
leaves fewer of them (`Underway.tick`), and after the ticks of the simulation every
request has come to its end (`Underway.fly`), unless the choice of an endpoint has
overflowed.
-/

namespace PooledRouting.Simulation

open Cluster

variable {s : Simulation} {c d : Cluster} {p : Progress} {i n number limit left due : Nat}
  {id : ConnectionId}

/-- No second request starts while one is in flight. -/
def OneInFlight (s : Simulation) : Prop :=
  s.concurrency ≤ 1 ∨ s.requests ≤ 1

/-! ## The request in flight -/

/-- A request is in flight, with its call at an endpoint.  The call ends by the limit. -/
structure Calls (s : Simulation) (i n number limit : Nat) (c : Cluster) : Prop where
  endpoint : i < s.endpoints
  going : s.Going (some ⟨i, n⟩) limit [⟨i, some number⟩] c
  call : c.call? number = some ⟨i, n⟩
  held : number ∉ c.finished

namespace Calls

theorem advance (hc : s.Calls i n number limit c) (ho : s.options.Bare) (ms : Nat) :
    s.Calls i n number limit (c.advance ms) where
  endpoint := hc.endpoint
  going := hc.going.advance ho ms
  call := (call?_congr rfl).symm ▸ hc.call
  held := hc.held

/-- The request has failed, and releases the endpoint. -/
theorem fail (hc : s.Calls i n number limit c) {fault : Pool.Fault}
    (hend : c.ending? number = some (.error fault)) : s.Going none 0 [] (c.releaseActive i) :=
  hc.going.release hc.call (.inr ⟨fault, hend⟩)

/-- Without failing dials no call fails. -/
theorem served (hc : s.Calls i n number limit c) (hsure : s.Reliable) (fault : Pool.Fault) :
    c.ending? number ≠ some (.error fault) := fun hend => by
  obtain ⟨e, he⟩ := hc.going.endpoint hc.endpoint
  rw [Going.ending?_eq hc.call he] at hend
  exact ((hc.going.pools i e he).faultless hsure).history _ fault (Pool.mem_history_of_ending? hend)

/-- The request that was served gives its connection back and releases the endpoint. -/
theorem leave (hc : s.Calls i n number limit c) (ho : s.options.Bare)
    (hserved : c.ending? number = some (.ok id)) :
    s.Going none 0 [] ((c.drop number).2.settle.releaseActive i) ∧
      (c.drop number).2.settle.calls = c.calls ∧
      (c.drop number).2.settle.balancer = c.balancer := by
  obtain ⟨e, he⟩ := hc.going.endpoint hc.endpoint
  rw [Going.ending?_eq hc.call he] at hserved
  have hlease : c.lease? number = some ⟨i, id⟩ :=
    lease?_eq_some_iff.2 ⟨hc.held, n, e, hc.call, he,
      (hc.going.pools i e he).lone.occurs.called.lease?_eq_some_iff.2
        (Pool.mem_history_of_ending? hserved)⟩
  obtain ⟨hdropped, hfinished, hcalls⟩ := hc.going.drop ho hlease
  have hbalancer : (c.drop number).2.settle.balancer = c.balancer := by
    unfold Cluster.drop
    rw [hlease]
    rfl
  exact ⟨hdropped.release ((call?_congr hcalls).symm ▸ hc.call) (.inl hfinished), hcalls,
    hbalancer⟩

end Calls

/-- Who was given an endpoint calls there. -/
theorem Going.calls (hg : s.Going none limit [⟨i, none⟩] c) (ho : s.options.Bare)
    (hi : i < s.endpoints) : (c.get i false).settle.balancer = c.balancer ∧
      (c.get i false).settle.calls.size = c.calls.size + 1 ∧
      ∃ n, s.Calls i n (c.calls.size + 1) ((c.get i false).settle.now + s.dialLatency)
        (c.get i false).settle := by
  obtain ⟨e, he⟩ := hg.endpoint hi
  have hgot := hg.get ho he
  rw [get_eq he] at hgot ⊢
  refine ⟨rfl, Array.size_push _, e.pool.getCount + 1, hi, hgot, ?_, fun hin => ?_⟩
  · rw [call?_push (c := c) rfl, if_pos rfl]
  · obtain ⟨call, hmade⟩ := hg.attended.wired.finished _ hin
    have hle : c.calls.size + 1 ≤ c.calls.size := le_size_of_call? hmade
    omega

/-! ## Stages -/

/-- The request in flight, if there is one, and the ticks until it has come to its end. -/
inductive Stage (s : Simulation) (c : Cluster) : List Flight → Nat → Prop where
  | idle (hg : s.Going none 0 [] c) : Stage s c [] 0
  | calling {i n number limit : Nat} (hc : s.Calls i n number limit c) :
      Stage s c [⟨⟨i, addr i⟩, number, none⟩] (limit - c.now + s.work + 2)
  | working {i n number limit : Nat} {id : ConnectionId} (due : Nat)
      (hc : s.Calls i n number limit c) (hserved : c.ending? number = some (.ok id)) :
      Stage s c [⟨⟨i, addr i⟩, number, some due⟩] (due - c.now + 1)

/-- What has come of a simulation so far, and the ticks for the request in flight. -/
structure Underway (s : Simulation) (left : Nat) (p : Progress) : Prop where
  stage : s.Stage p.cluster p.flights left
  routes : s.Routes p.started p.cluster.balancer
  started : p.started ≤ s.requests
  calls : p.cluster.calls.size = p.started
  ended : p.outcomes.length + p.flights.length = p.started
  served : ∀ a, .ok a ∈ p.outcomes → ∃ i < s.endpoints, a = addr i
  failed : s.Reliable → ∀ text, .error text ∉ p.outcomes

/-- All requests have come to their end, and what they left is in order. -/
structure Done (s : Simulation) (p : Progress) : Prop where
  going : s.Going none 0 [] p.cluster
  routes : s.Routes s.requests p.cluster.balancer
  calls : p.cluster.calls.size = s.requests
  outcomes : p.outcomes.length = s.requests
  served : ∀ a, .ok a ∈ p.outcomes → ∃ i < s.endpoints, a = addr i
  failed : s.Reliable → ∀ text, .error text ∉ p.outcomes

/-- The ticks that are left at most. -/
def remaining (s : Simulation) (left : Nat) (p : Progress) : Nat :=
  (s.requests - p.started) * (s.dialLatency + s.work + 3) + left

/-! ## The clock -/

theorem now_advance_to {time : Nat} (h : c.now < time) : (c.advance (time - c.now)).now = time :=
  Nat.add_sub_of_le (Nat.le_of_lt h)

/-- The clock moves to the next deadline while nobody works. -/
theorem wait_of_calling {f : Flight} {time : Nat} (hflights : p.flights = [f])
    (hdue : f.due = none) (hnext : p.cluster.nextDeadline? = some time) :
    p.wait = p.onCluster fun c => c.advance (time - c.now) := by
  have htime : p.nextTime? = some time := by
    unfold Progress.nextTime?
    rw [hflights, List.filterMap_cons_none hdue, hnext]
    rfl
  unfold Progress.wait
  rw [htime]

/-- It moves no further than to the end of the work. -/
theorem wait_of_working {f : Flight} (hflights : p.flights = [f]) (hdue : f.due = some due)
    (hahead : p.cluster.now < due) :
    ∃ time, p.cluster.now < time ∧ time ≤ due ∧
      p.wait = p.onCluster fun c => c.advance (time - c.now) := by
  have htimes : p.flights.filterMap Flight.due = [due] := by
    rw [hflights, List.filterMap_cons_some hdue]
    rfl
  obtain ⟨time, htime⟩ : ∃ time, p.nextTime? = some time := by
    refine Option.isSome_iff_exists.1 ?_
    unfold Progress.nextTime?
    rw [List.isSome_min?_iff, htimes]
    exact List.cons_ne_nil _ _
  have hwait : p.wait = p.onCluster fun c => c.advance (time - c.now) := by
    unfold Progress.wait
    rw [htime]
  unfold Progress.nextTime? at htime
  rw [htimes] at htime
  obtain ⟨hmem, hleast⟩ := List.min?_eq_some_iff.1 htime
  refine ⟨time, ?_, hleast due List.mem_cons_self, hwait⟩
  rcases List.mem_cons.1 hmem with rfl | hdeadline
  · exact hahead
  · exact Going.lt_of_nextDeadline? (Option.mem_toList.1 hdeadline)

/-! ## What a tick does -/

namespace Underway

/-- The clock has moved. -/
theorem advance (hu : s.Underway left p) {ms later : Nat}
    (hstage : s.Stage (p.cluster.advance ms) p.flights later) :
    s.Underway later (p.onCluster fun c => c.advance ms) where
  stage := hstage
  routes := hu.routes
  started := hu.started
  calls := hu.calls
  ended := hu.ended
  served := hu.served
  failed := hu.failed

/-- The one request in flight has come to its end. -/
theorem finish (hu : s.Underway left p) {f : Flight} (hflights : p.flights = [f])
    {f' : Cluster → Cluster} {outcome : Outcome}
    (hg : s.Going none 0 [] ((f' p.cluster).releaseActive f.member.id))
    (hcalls : (f' p.cluster).calls = p.cluster.calls)
    (hbalancer : (f' p.cluster).balancer = p.cluster.balancer)
    (hserved : ∀ a, outcome = .ok a → ∃ i < s.endpoints, a = addr i)
    (hfailed : s.Reliable → ∀ text, outcome ≠ .error text) :
    s.Underway 0 ((p.onCluster f').finish f outcome) := by
  have hnone : p.flights.filter (fun g => g.call != f.call) = [] := by
    simp [hflights]
  have hended := hu.ended
  rw [hflights] at hended
  refine ⟨?_, hbalancer.symm ▸ hu.routes, hu.started, ?_, ?_, fun a ha => ?_,
    fun hsure text ht => ?_⟩
  · show s.Stage ((f' p.cluster).releaseActive f.member.id)
      (p.flights.filter fun g => g.call != f.call) 0
    rw [hnone]
    exact .idle hg
  · exact (congrArg Array.size hcalls).trans hu.calls
  · show p.outcomes.length + 1 + (p.flights.filter fun g => g.call != f.call).length = p.started
    rw [hnone]
    exact hended
  · exact (List.mem_cons.1 ha).elim (fun hnew => hserved a hnew.symm) (hu.served a)
  · exact (List.mem_cons.1 ht).elim (fun hnew => hfailed hsure text hnew.symm)
      (hu.failed hsure text)

/-- The next request starts. -/
theorem launch (hu : s.Underway left p) (ho : s.options.Bare) (hsome : 0 < s.endpoints)
    (hflights : p.flights = []) (hmore : p.started < s.requests) :
    (s.launch? p = none ∧ s.Overflows s.requests) ∨
      ∃ p' left', s.launch? p = some p' ∧ s.Underway left' p' ∧
        s.remaining left' p' < s.remaining left p := by
  obtain ⟨hg, rfl⟩ : s.Going none 0 [] p.cluster ∧ left = 0 := by
    have hstage := hu.stage
    rw [hflights] at hstage
    cases hstage with
    | idle hg => exact ⟨hg, rfl⟩
  unfold launch?
  rcases hg.select hu.routes hsome (s.key p.started) with
    ⟨hnone, hover⟩ | ⟨i, hi, d, hd, hcalls, hroutes, hchosen⟩
  · rw [hnone]
    exact .inl ⟨rfl, hover.mono hmore⟩
  · right
    obtain ⟨hbalancer, hsize, n, hcalling⟩ := hchosen.calls ho hi
    have hended := hu.ended
    rw [hflights] at hended
    rw [hd, hflights]
    refine ⟨_, s.dialLatency + s.work + 2, rfl, ⟨?_, hbalancer.symm ▸ hroutes, hmore, ?_,
      congrArg (· + 1) hended, hu.served, hu.failed⟩, ?_⟩
    · have hstage := Stage.calling hcalling
      rw [Nat.add_sub_cancel_left, ← hsize] at hstage
      exact hstage
    · exact hsize.trans (congrArg (· + 1) (hcalls ▸ hu.calls))
    · obtain ⟨rest, hrest⟩ : ∃ rest, s.requests - p.started = rest + 1 :=
        ⟨s.requests - p.started - 1, by omega⟩
      show (s.requests - (p.started + 1)) * _ + _ < (s.requests - p.started) * _ + 0
      rw [show s.requests - (p.started + 1) = rest by omega, hrest, Nat.succ_mul]
      omega

/-- The call has ended, or the clock moves. -/
theorem goOn_calling (hu : s.Underway left p) (ho : s.options.Bare)
    (hc : s.Calls i n number limit p.cluster)
    (hflights : p.flights = [⟨⟨i, addr i⟩, number, none⟩]) :
    ∃ p' left', (p.flights.findSome? (s.goOn? p)).getD p.wait = p' ∧ s.Underway left' p' ∧
      left' < limit - p.cluster.now + s.work + 2 ∧ p'.started = p.started := by
  have hone : p.flights.findSome? (s.goOn? p) = s.goOn? p ⟨⟨i, addr i⟩, number, none⟩ := by
    rw [hflights, List.findSome?_singleton]
  rw [hone]
  cases hend : p.cluster.ending? number with
  | none =>
    have hnot : s.goOn? p ⟨⟨i, addr i⟩, number, none⟩ = none := by
      unfold goOn?
      simp only [hend]
    obtain ⟨hahead, time, hnext, hlater⟩ := hc.going.deadline hc.call (by rw [hend]; rfl)
    rw [hnot, Option.getD_none, wait_of_calling hflights rfl hnext]
    refine ⟨_, limit - time + s.work + 2, rfl, hu.advance ?_, by omega, rfl⟩
    have hstage := Stage.calling (hc.advance ho (time - p.cluster.now))
    rw [now_advance_to hlater] at hstage
    rw [hflights]
    exact hstage
  | some result =>
    cases result with
    | ok id =>
      have hon : s.goOn? p ⟨⟨i, addr i⟩, number, none⟩ =
          some (p.work ⟨⟨i, addr i⟩, number, none⟩ (p.cluster.now + s.work)) := by
        unfold goOn?
        simp only [hend]
      have hworks : (p.work ⟨⟨i, addr i⟩, number, none⟩ (p.cluster.now + s.work)).flights =
          [⟨⟨i, addr i⟩, number, some (p.cluster.now + s.work)⟩] := by
        simp [Progress.work, hflights]
      have hended := hu.ended
      rw [hflights] at hended
      rw [hon, Option.getD_some]
      refine ⟨_, s.work + 1, rfl, ⟨?_, hu.routes, hu.started, hu.calls, ?_, hu.served, hu.failed⟩,
        by omega, rfl⟩
      · have hstage := Stage.working (p.cluster.now + s.work) hc hend
        rw [Nat.add_sub_cancel_left] at hstage
        rw [hworks]
        exact hstage
      · rw [hworks]
        exact hended
    | error fault =>
      have hon : s.goOn? p ⟨⟨i, addr i⟩, number, none⟩ =
          some ((p.onCluster fun c => c).finish ⟨⟨i, addr i⟩, number, none⟩
            (.error fault.message)) := by
        unfold goOn?
        simp only [hend]
        rfl
      rw [hon, Option.getD_some]
      refine ⟨_, 0, rfl, hu.finish hflights (hc.fail hend) rfl rfl nofun fun hsure => ?_, by omega,
        rfl⟩
      exact absurd hend (hc.served hsure fault)

/-- The work is done, or the clock moves. -/
theorem goOn_working (hu : s.Underway left p) (ho : s.options.Bare)
    (hc : s.Calls i n number limit p.cluster) (hserved : p.cluster.ending? number = some (.ok id))
    (hflights : p.flights = [⟨⟨i, addr i⟩, number, some due⟩]) :
    ∃ p' left', (p.flights.findSome? (s.goOn? p)).getD p.wait = p' ∧ s.Underway left' p' ∧
      left' < due - p.cluster.now + 1 ∧ p'.started = p.started := by
  have hone : p.flights.findSome? (s.goOn? p) = s.goOn? p ⟨⟨i, addr i⟩, number, some due⟩ := by
    rw [hflights, List.findSome?_singleton]
  rw [hone]
  unfold goOn?
  dsimp only
  by_cases hdue : due ≤ p.cluster.now
  · obtain ⟨hg, hcalls, hbalancer⟩ := hc.leave ho hserved
    rw [if_pos hdue, Option.getD_some]
    refine ⟨_, 0, rfl, hu.finish hflights hg hcalls hbalancer (fun a ha => ?_) (fun _ _ => nofun),
      by omega, rfl⟩
    cases ha
    exact ⟨i, hc.endpoint, rfl⟩
  · obtain ⟨time, hlater, hle, hwait⟩ := wait_of_working hflights rfl (Nat.lt_of_not_le hdue)
    rw [if_neg hdue, Option.getD_none, hwait]
    refine ⟨_, due - time + 1, rfl, hu.advance ?_, by omega, rfl⟩
    have hcalm := hc.going.attended.wired.calm_advance (time - p.cluster.now)
    have hstage := Stage.working due (hc.advance ho (time - p.cluster.now))
      (hcalm.ending?_eq hc.going.attended.wired hserved)
    rw [now_advance_to hlater] at hstage
    rw [hflights]
    exact hstage

/-- The request in flight goes on, or the clock moves. -/
theorem goOn (hu : s.Underway left p) (ho : s.options.Bare) (hflights : p.flights ≠ []) :
    ∃ p' left', (p.flights.findSome? (s.goOn? p)).getD p.wait = p' ∧ s.Underway left' p' ∧
      left' < left ∧ p'.started = p.started := by
  obtain ⟨cluster, started, flights, outcomes⟩ := p
  cases hu.stage with
  | idle hg => exact absurd rfl hflights
  | calling hc => exact hu.goOn_calling ho hc rfl
  | working due hc hserved => exact hu.goOn_working ho hc hserved rfl

/-- Before the end a tick leaves fewer ticks. -/
theorem tick (hu : s.Underway left p) (ho : s.options.Bare) (hsome : 0 < s.endpoints)
    (hone : s.OneInFlight) (hnot : s.isOver p = false) :
    (s.tick? p = none ∧ s.Overflows s.requests) ∨
      ∃ p' left', s.tick? p = some p' ∧ s.Underway left' p' ∧
        s.remaining left' p' < s.remaining left p := by
  unfold tick?
  by_cases hroom : p.started < s.requests ∧ p.flights.length < max s.concurrency 1
  · -- With room for one request there is none in flight.
    have hflights : p.flights = [] := by
      refine List.length_eq_zero_iff.1 ?_
      have hended := hu.ended
      unfold OneInFlight at hone
      omega
    rw [if_pos hroom]
    exact hu.launch ho hsome hflights hroom.1
  · right
    have hflights : p.flights ≠ [] := fun hnil => by
      rw [hnil] at hroom
      unfold isOver at hnot
      rw [hnil] at hnot
      simp only [List.isEmpty_nil, Bool.true_and, decide_eq_false_iff_not] at hnot
      exact hroom ⟨by omega, Nat.lt_of_lt_of_le Nat.zero_lt_one (Nat.le_max_right _ _)⟩
    obtain ⟨p', left', hp', hu', hless, hstarted⟩ := hu.goOn ho hflights
    rw [if_neg hroom, hp']
    refine ⟨p', left', rfl, hu', ?_⟩
    unfold remaining
    rw [hstarted]
    exact Nat.add_lt_add_left hless _

/-- When every request has come to its end nothing is left. -/
theorem done (hu : s.Underway left p) (hover : s.isOver p = true) : s.Done p := by
  unfold isOver at hover
  obtain ⟨hempty, hall⟩ := Bool.and_eq_true_iff.1 hover
  have hflights := List.isEmpty_iff.1 hempty
  have hstarted : p.started = s.requests := Nat.le_antisymm hu.started (of_decide_eq_true hall)
  have hended := hu.ended
  have hstage := hu.stage
  rw [hflights] at hended hstage
  cases hstage with
  | idle hg =>
    exact ⟨hg, hstarted ▸ hu.routes, hu.calls.trans hstarted, hended.trans hstarted, hu.served,
      hu.failed⟩

/-- Without ticks left it is the end. -/
theorem isOver_of_remaining (hu : s.Underway left p) (hnone : s.remaining left p = 0) :
    s.isOver p = true := by
  obtain ⟨hrequests, rfl⟩ := Nat.add_eq_zero_iff.1 hnone
  have hall : s.requests - p.started = 0 :=
    (Nat.mul_eq_zero.1 hrequests).resolve_right (Nat.succ_ne_zero _)
  have hempty : p.flights = [] := by
    obtain ⟨cluster, started, flights, outcomes⟩ := p
    cases hu.stage with
    | idle hg => rfl
  unfold isOver
  rw [hempty, decide_eq_true (Nat.sub_eq_zero_iff_le.1 hall)]
  rfl

/-- After as many ticks as are left at most every request has come to its end. -/
theorem fly (hu : s.Underway left p) (ho : s.options.Bare) (hsome : 0 < s.endpoints)
    (hone : s.OneInFlight) (ticks : Nat) (hticks : s.remaining left p ≤ ticks) :
    (s.fly? ticks p = none ∧ s.Overflows s.requests) ∨
      ∃ p', s.fly? ticks p = some p' ∧ s.Done p' := by
  induction ticks generalizing left p with
  | zero =>
    exact .inr ⟨p, rfl, hu.done (hu.isOver_of_remaining (Nat.le_zero.1 hticks))⟩
  | succ ticks ih =>
    unfold fly?
    by_cases hover : s.isOver p = true
    · rw [if_pos hover]
      exact .inr ⟨p, rfl, hu.done hover⟩
    · rw [if_neg hover]
      rcases hu.tick ho hsome hone (Bool.eq_false_iff.2 hover) with
        ⟨hnone, hover'⟩ | ⟨p', left', hp', hu', hless⟩
      · rw [hnone]
        exact .inl ⟨rfl, hover'⟩
      · rw [hp']
        exact ih hu' (by omega)

end Underway

end PooledRouting.Simulation
