import Std.Data.String.ToNat
import PooledRouting.Proofs.Simulation.Requests

/-!
# The start of a simulation

The endpoints of a simulation have addresses of their own and a weight, as long as
they are fewer than the weights that there are.  So the balancer can be built over
all of them (`routes_build`), and the new cluster, with no call and no caller, is
`Going`.  Since the weights count up from one, it takes millions of endpoints for a
smooth rotation to overflow (`Overflows.le`).
-/

namespace PooledRouting.Simulation

open Balancer Cluster

variable {s : Simulation} {draws : Draws} {b : Balancer} {i j : Nat}

/-! ## Addresses and weights -/

theorem addr_inj (h : addr i = addr j) : i = j := by
  have hlists := congrArg String.toList h
  simp only [addr, Nat.toString_eq_repr, String.toList_append, List.append_cancel_left_eq,
    List.append_cancel_right_eq, String.toList_inj, Nat.repr_inj] at hlists
  omega

/-- The addresses of the endpoints. -/
def addresses (s : Simulation) : List String :=
  (List.range s.endpoints).map addr

theorem nodup_addresses (s : Simulation) : s.addresses.Nodup :=
  List.Nodup.map (fun _ _ => addr_inj) List.nodup_range

/-! ## The first cluster -/

/-- The endpoints before the first request. -/
def firstFleet (s : Simulation) (draws : Draws) : Balancer.Fleet PooledEndpoint :=
  (((List.range s.endpoints).map (s.endpointPlan draws)).map fun plan => plan.endpoint 0).toArray

theorem size_firstFleet (s : Simulation) (draws : Draws) :
    (s.firstFleet draws).size = s.endpoints := by
  simp [firstFleet]

theorem getElem?_firstFleet (hi : i < s.endpoints) :
    (s.firstFleet draws)[i]? = some ((s.endpointPlan draws i).endpoint 0) := by
  simp [firstFleet, hi]

theorem membersOf_firstFleet (s : Simulation) (draws : Draws) :
    Balancer.membersOf (s.firstFleet draws) =
      (List.range s.endpoints).map fun i => ⟨i, addr i⟩ := by
  refine List.ext_getElem (by simp [Balancer.membersOf, firstFleet]) fun i hi hi' => ?_
  simp [Balancer.membersOf, firstFleet, endpointPlan, EndpointPlan.endpoint, Balancer.Endpoint.addr]

theorem weight_firstFleet (s : Simulation) (draws : Draws) (i : Nat) :
    Fleet.weight (s.firstFleet draws) i = s.weightOf i := by
  unfold Fleet.weight weightOf
  split
  · rename_i hi
    rw [getElem?_firstFleet hi]
    rfl
  · rename_i hi
    rw [Array.getElem?_eq_none (s.size_firstFleet draws ▸ Nat.le_of_not_lt hi)]
    rfl

/-- The weights count up from one. -/
theorem weights_eq (s : Simulation) : s.weights = SmoothWeights.rising s.endpoints := by
  refine List.map_congr_left fun i hi => ?_
  exact if_pos (List.mem_range.1 hi)

/-- An overflow takes millions of endpoints. -/
theorem Overflows.le {count : Nat} (h : s.Overflows count) (hsome : 0 < s.endpoints)
    (hfew : s.endpoints < UInt32.size) : 2 ^ 64 ≤ s.endpoints * (s.endpoints + 1) ^ 2 := by
  have hpos := SmoothWeights.rising_pos hfew
  have hsum := SmoothWeights.two_mul_weightSum_rising hfew
  have hlength := SmoothWeights.length_rising s.endpoints
  have hturns := h.2
  rw [weights_eq] at hturns
  set weights := SmoothWeights.rising s.endpoints
  have hbound : 2 ^ 63 ≤ (s.endpoints + 1) * weightSum weights := by
    refine Nat.le_of_not_lt fun hsmall => ?_
    obtain ⟨w, hw, -⟩ := SmoothWeights.exists_afterTurns (SmoothWeights.length_fresh weights) hpos
      (List.ne_nil_of_length_pos (hlength.symm ▸ hsome))
      (by rwa [SmoothWeights.overdraft_fresh hpos, hlength]) count
    cases hturns.symm.trans hw
  calc 2 ^ 64 ≤ 2 * ((s.endpoints + 1) * weightSum weights) := Nat.mul_le_mul_left 2 hbound
    _ = (s.endpoints + 1) * (2 * weightSum weights) := by ring
    _ = s.endpoints * (s.endpoints + 1) ^ 2 := by rw [hsum]; ring

/-- Billions of endpoints are enough for the second turn to overflow. -/
theorem overflows_of_many (hsmooth : s.strategy = .weightedRoundRobin)
    (hfew : s.endpoints < UInt32.size) (hmany : 2 ^ 63 ≤ (s.endpoints - 1) * s.endpoints)
    {count : Nat} (hcount : 2 ≤ count) : s.Overflows count := by
  refine Overflows.mono ⟨hsmooth, ?_⟩ hcount
  rw [weights_eq]
  exact SmoothWeights.second_turn_overflows hfew hmany

/-- A new balancer is over all endpoints, and has made no choice. -/
theorem routes_build (hfew : s.endpoints < UInt32.size)
    (h : build s.strategy s.virtualNodes (s.firstFleet draws) = .ok b)
    (hopen : b.closed = false) : s.Routes 0 b := by
  obtain ⟨-, -, -, hmembers⟩ := build_ok h
  refine ⟨hopen, hmembers.trans (s.membersOf_firstFleet draws), fun hsmooth => ⟨_, ?_, rfl⟩⟩
  have hweights : (s.firstFleet draws).toList.map Endpoint.weight = s.weights := by
    rw [← weights_membersOf, membersOf_firstFleet, List.map_map]
    exact List.map_congr_left fun i _ => s.weight_firstFleet draws i
  have haddrs : ((s.firstFleet draws).toList.map Endpoint.addr).Nodup := by
    rw [← addrs_membersOf, membersOf_firstFleet, List.map_map]
    exact s.nodup_addresses
  have hsame := build_smooth s.virtualNodes (s.firstFleet draws) haddrs
    (hweights.symm ▸ s.weights_eq.symm ▸ SmoothWeights.rising_pos hfew)
  rw [← hsmooth, h, hweights] at hsame
  rw [Except.ok.inj hsame]

/-- The simulation can start, without callers and without calls. -/
theorem exists_cluster (ho : s.options.Bare) (hfew : s.endpoints < UInt32.size) (draws : Draws) :
    ∃ c, s.cluster draws = .ok c ∧ s.Going none 0 [] c ∧ s.Routes 0 c.balancer ∧
      c.calls = #[] := by
  obtain ⟨b, hb, hopen⟩ :
      ∃ b, Balancer.build s.strategy s.virtualNodes (s.firstFleet draws) = .ok b ∧
        b.closed = false := by
    refine Balancer.exists_build _ _ ?_ ?_
    · rw [membersOf_firstFleet]
      intro m hm hzero
      obtain ⟨i, hi, rfl⟩ := List.mem_map.1 hm
      have hpos : 0 < s.weightOf i :=
        SmoothWeights.rising_pos hfew _ (s.weights_eq ▸ List.mem_map_of_mem hi)
      rw [s.weight_firstFleet draws] at hzero
      exact absurd (hzero ▸ hpos) (by decide)
    · rw [membersOf_firstFleet, List.map_map]
      exact s.nodup_addresses
  let c : Cluster := ⟨b, s.firstFleet draws, 0, #[], []⟩
  have hbuild : Cluster.build s.strategy s.virtualNodes
      ((List.range s.endpoints).map (s.endpointPlan draws)) = .ok c := build_of_balancer hb
  have hcluster : s.cluster draws = .ok c.settle := by
    unfold cluster
    rw [hbuild]
    rfl
  have hcalm := calm_settle c
  have hattended := Traffic.attended_build (fun plan hplan => by
    obtain ⟨i, -, rfl⟩ := List.mem_map.1 hplan
    exact ho.unmarking) hbuild
  -- Each endpoint is the planned one, and its pool has settled.
  have hnew : ∀ (i : Nat) (e : PooledEndpoint), c.settle.fleet[i]? = some e →
      e = ((s.endpointPlan draws i).endpoint 0).mapPool Pool.settle := fun i e he => by
    have hi : i < s.endpoints := by
      have hlt := (Array.getElem?_eq_some_iff.1 he).1
      rw [hcalm.fleet.size] at hlt
      exact s.size_firstFleet draws ▸ hlt
    rw [Going.getElem?_settle, show c.fleet[i]? = _ from getElem?_firstFleet hi] at he
    exact (Option.some.inj he).symm
  refine ⟨c.settle, hcluster, ⟨hattended.still hcalm, ?_, fun i => ?_, ?_, ?_, ?_⟩,
    routes_build hfew hb hopen, rfl⟩
  · exact hcalm.fleet.size.trans (s.size_firstFleet draws)
  · exact (hcalm.fleet.weight i).trans (s.weight_firstFleet draws i)
  · intro i e he
    rw [hnew i e he]
    rfl
  · intro i e he
    rw [hnew i e he]
    have hruns : s.Runs [] 0 0 ((s.endpointPlan draws i).endpoint 0).pool := .create ho draws i
    exact (hruns.lone.occurs.still_run _).1
  · intro i e he
    rw [hnew i e he]
    exact (Runs.create ho draws i).settle ho

end PooledRouting.Simulation
