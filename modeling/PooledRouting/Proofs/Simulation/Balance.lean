import Mathlib.Algebra.BigOperators.Group.Finset.Basic
import Mathlib.Algebra.Order.BigOperators.Group.List
import PooledRouting.Proofs.Simulation.Flights
import PooledRouting.Proofs.Simulation.Start
import PooledRouting.Simulation.Report

/-!
# The report of a simulation balances

Each request of a simulation ends one way, and makes one call on one endpoint; so the
figures of a report are sums over the same requests, taken apart by how they ended, by
address, by wording and by endpoint (`Report.Balances`).  What makes the sums come out
is that no request is counted under two heads and each under one: addresses and wordings
are listed once (`sum_count_eq_length`), and an endpoint has just the calls that its pool
has counted (`Wired.sum_getCount`).

`run_balances` is the result, for one request at a time and pools that keep no idle
connections ready.  There is a report unless the choice of an endpoint overflows.
-/

namespace PooledRouting

namespace Simulation

/-! ## Counting by heads -/

/-- What is counted under heads that are all different is counted once. -/
theorem sum_count_eq_length {α : Type} [DecidableEq α] {heads xs : List α} (hheads : heads.Nodup)
    (hall : ∀ x ∈ xs, x ∈ heads) : (heads.map fun x => xs.count x).sum = xs.length := by
  rw [← List.sum_toFinset _ hheads, ← List.sum_toFinset_count_eq_length xs]
  refine (Finset.sum_subset (fun x hx => ?_) fun x _ hx => ?_).symm
  · exact List.mem_toFinset.2 (hall x (List.mem_toFinset.1 hx))
  · exact List.count_eq_zero.2 (mt List.mem_toFinset.2 hx)

theorem nodup_eraseDups {α : Type} [DecidableEq α] (xs : List α) : xs.eraseDups.Nodup := by
  match xs with
  | [] => exact List.nodup_nil
  | x :: xs =>
    rw [List.eraseDups_cons]
    refine List.nodup_cons.2 ⟨?_, nodup_eraseDups _⟩
    simp [List.mem_eraseDups]
termination_by xs.length
decreasing_by
  exact Nat.lt_succ_of_le (List.length_filter_le _ _)

theorem sum_tally (texts : List String) : ((tally texts).map Prod.snd).sum = texts.length := by
  unfold tally
  rw [List.map_map]
  exact sum_count_eq_length (nodup_eraseDups texts) fun _ => List.mem_eraseDups.2

/-- A request was served or has failed. -/
theorem length_served_add_length_failures (outcomes : List Outcome) :
    (outcomes.filterMap Outcome.served?).length + (outcomes.filterMap Outcome.failure?).length =
      outcomes.length := by
  induction outcomes with
  | nil => rfl
  | cons outcome outcomes ih =>
    cases outcome with
    | ok addr =>
      rw [List.filterMap_cons_some (f := Outcome.served?) rfl, List.filterMap_cons_none rfl]
      simp only [List.length_cons]
      omega
    | error text =>
      rw [List.filterMap_cons_none rfl, List.filterMap_cons_some (f := Outcome.failure?) rfl]
      simp only [List.length_cons]
      omega

end Simulation

/-! ## The calls of all endpoints -/

namespace Cluster

variable {strategy : Strategy} {c : Cluster} {i : Nat}

/-- The calls at an endpoint are those that its pool has counted. -/
theorem Wired.count_calls (hw : c.Wired strategy) {e : PooledEndpoint} (he : c.fleet[i]? = some e) :
    (c.calls.toList.map Call.endpoint).count i = e.pool.getCount := by
  have hperm : (c.calls.toList.filter fun call => call.endpoint == i).Perm
      ((List.range' 1 e.pool.getCount).map (Call.mk i)) := by
    refine (List.perm_ext_iff_of_nodup (hw.calls.filter _) ?_).2 fun ⟨j, n⟩ => ?_
    · exact List.Nodup.map (fun m n h => (Call.mk.inj h).2) List.nodup_range'
    · rw [List.mem_filter, Array.mem_toList_iff, hw.mem_calls_iff]
      simp only [beq_iff_eq, List.mem_map, List.mem_range'_1, Call.mk.injEq]
      constructor
      · rintro ⟨⟨e', he', hpos, hle⟩, rfl⟩
        cases he.symm.trans he'
        exact ⟨n, by omega, rfl, rfl⟩
      · rintro ⟨m, hm, rfl, rfl⟩
        exact ⟨⟨e, he, by omega, by omega⟩, rfl⟩
  rw [List.count_eq_countP, List.countP_map, List.countP_eq_length_filter]
  refine hperm.length_eq.trans ?_
  rw [List.length_map, List.length_range']

/-- Each call is a call at one endpoint. -/
theorem Wired.sum_getCount (hw : c.Wired strategy) :
    (c.fleet.toList.map fun e => e.pool.getCount).sum = c.calls.size := by
  have hcounts : (c.fleet.toList.map fun e => e.pool.getCount) =
      (List.range c.fleet.size).map fun i => (c.calls.toList.map Call.endpoint).count i := by
    refine List.ext_getElem (by simp) fun i hi hi' => ?_
    have hsize : i < c.fleet.size := by simpa using hi
    simp only [List.getElem_map, List.getElem_range, Array.getElem_toList]
    exact (hw.count_calls (Array.getElem?_eq_getElem hsize)).symm
  rw [hcounts, Simulation.sum_count_eq_length List.nodup_range]
  · simp
  · intro j hj
    obtain ⟨call, hcall, rfl⟩ := List.mem_map.1 hj
    obtain ⟨e, he, -⟩ := (hw.mem_calls_iff call).1 (Array.mem_toList_iff.1 hcall)
    exact List.mem_range.2 (Array.getElem?_eq_some_iff.1 he).1

end Cluster

namespace Simulation

open Cluster

variable {s : Simulation} {c : Cluster} {draws : Draws}

/-! ## The report -/

/-- The figures of the report agree with each other. -/
structure Report.Balances (r : Report) : Prop where
  requests : r.succeeded + r.failed = r.requests
  selected : (r.endpoints.map EndpointReport.selected).sum = r.succeeded
  errors : (r.errors.map Prod.snd).sum = r.failed
  lookups : (r.endpoints.map fun e => e.pool.hits.toNat + e.pool.misses.toNat).sum = r.requests
  timeouts : ∀ e ∈ r.endpoints, e.pool.timeouts = 0
  inUse : ∀ e ∈ r.endpoints, e.pool.inUseConns = 0
  active : ∀ e ∈ r.endpoints, e.active = 0

theorem Going.map_addr (hg : s.Going none 0 [] c) :
    c.fleet.toList.map PooledEndpoint.addr = s.addresses := by
  refine List.ext_getElem (by simp [addresses, hg.size]) fun i hi hi' => ?_
  have hsize : i < c.fleet.size := by simpa using hi
  simpa [addresses] using hg.addrs i _ (Array.getElem?_eq_getElem hsize)

/-- The pool of an endpoint has not served more calls than there were. -/
theorem Going.getCount_le (hg : s.Going none 0 [] c) {e : PooledEndpoint}
    (he : e ∈ c.fleet.toList) : e.pool.getCount ≤ c.calls.size := by
  rw [← hg.attended.wired.sum_getCount]
  exact List.single_le_sum (fun _ _ => Nat.zero_le _) _ (List.mem_map_of_mem he)

/-- The report on requests that have all come to their end balances. -/
theorem Done.balances {p : Progress} (hd : s.Done p) (hfew : s.requests < UInt32.size) :
    (s.reportOn p).Balances := by
  have hendpoint : ∀ e ∈ p.cluster.fleet.toList,
      e.pool.stats.hits.toNat + e.pool.stats.misses.toNat = e.pool.getCount ∧
        e.pool.stats.timeouts = 0 ∧ e.active = 0 ∧ e.pool.stats.inUseConns = 0 := by
    intro e he
    obtain ⟨i, hi⟩ := List.mem_iff_getElem?.1 he
    rw [Array.getElem?_toList] at hi
    have hle := hd.going.getCount_le he
    rw [hd.calls] at hle
    obtain ⟨hlookups, htimeouts⟩ := (hd.going.pools i e hi).lookups (Nat.lt_of_le_of_lt hle hfew)
    exact ⟨hlookups, htimeouts, hd.going.attended.idle rfl hi⟩
  refine ⟨?_, ?_, sum_tally _, ?_, ?_, ?_, ?_⟩
  · show (p.outcomes.reverse.filterMap _).length + (p.outcomes.reverse.filterMap _).length = _
    rw [length_served_add_length_failures, List.length_reverse, hd.outcomes]
    rfl
  · show ((p.cluster.fleet.toList.map _).map _).sum = _
    rw [List.map_map]
    show (p.cluster.fleet.toList.map ((p.outcomes.reverse.filterMap Outcome.served?).count ∘
      PooledEndpoint.addr)).sum = _
    rw [← List.map_map, hd.going.map_addr]
    refine sum_count_eq_length s.nodup_addresses fun a ha => ?_
    obtain ⟨outcome, hin, hserved⟩ := List.mem_filterMap.1 ha
    cases outcome with
    | ok b =>
      cases hserved
      obtain ⟨i, hi, rfl⟩ := hd.served a (List.mem_reverse.1 hin)
      exact List.mem_map_of_mem (List.mem_range.2 hi)
    | error text => cases hserved
  · show ((p.cluster.fleet.toList.map _).map _).sum = _
    rw [List.map_map]
    refine Eq.trans (congrArg List.sum (List.map_congr_left fun e he => (hendpoint e he).1)) ?_
    rw [hd.going.attended.wired.sum_getCount, hd.calls]
    rfl
  all_goals
    intro r hr
    obtain ⟨e, he, rfl⟩ := List.mem_map.1 hr
    obtain ⟨-, htimeouts, hactive, hinUse⟩ := hendpoint e he
    assumption

/-- If no dial fails then no request does. -/
theorem Done.succeeds {p : Progress} (hd : s.Done p) (hsure : s.Reliable) :
    (s.reportOn p).failed = 0 ∧ (s.reportOn p).errors = [] := by
  have hnone : p.outcomes.reverse.filterMap Outcome.failure? = [] := by
    refine List.filterMap_eq_nil_iff.2 fun outcome hin => ?_
    cases outcome with
    | ok a => rfl
    | error text => exact absurd (List.mem_reverse.1 hin) (hd.failed hsure text)
  unfold reportOn
  rw [hnone]
  exact ⟨rfl, rfl⟩

/-- A simulation comes to a report, which balances, unless the choice of an endpoint
overflows. -/
theorem run_balances (ho : s.options.Bare) (hsome : 0 < s.endpoints)
    (hendpoints : s.endpoints < UInt32.size) (hrequests : s.requests < UInt32.size)
    (hone : s.OneInFlight) (draws : Draws) :
    (s.run draws = .error .overflow ∧ s.Overflows s.requests) ∨
      ∃ r, s.run draws = .ok r ∧ ¬s.Overflows s.requests ∧ r.requests = s.requests ∧ r.Balances ∧
        (s.Reliable → r.failed = 0 ∧ r.errors = []) := by
  obtain ⟨c, hc, hg, hroutes, hcalls⟩ := exists_cluster ho hendpoints draws
  have hstart : s.Underway 0 { cluster := c } :=
    ⟨.idle hg, hroutes, Nat.zero_le _, congrArg Array.size hcalls, rfl, nofun, fun _ _ => nofun⟩
  have hticks : s.remaining 0 { cluster := c } ≤ s.ticks :=
    Nat.mul_le_mul_left s.requests (by omega)
  unfold run
  rw [hc]
  dsimp only
  rcases hstart.fly ho hsome hone s.ticks hticks with ⟨hnone, hover⟩ | ⟨p, hp, hd⟩
  · rw [hnone]
    exact .inl ⟨rfl, hover⟩
  · rw [hp]
    exact .inr ⟨s.reportOn p, rfl, hd.routes.not_overflows, rfl, hd.balances hrequests, hd.succeeds⟩

end Simulation

end PooledRouting
