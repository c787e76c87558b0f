import PooledRouting.Balancer.PlainEndpoint
import PooledRouting.Proofs.Balancer.Selections

/-!
# Shares of a smooth rotation

A smooth rotation that has kept the members it was built over gives every
one its share: after `t` selections out of weights that sum to `W`, a member
of weight `w` has been chosen `t * w / W` times, to less than one above and
to less than as many as there are members below.  So the shares are exact
whenever `t` is a multiple of `W`, and then the current weights are those of
the beginning.

All of this is read off the current weight, which is a ledger: it is
`(t + 1) * w - W * n` for a member chosen `n` times (`Turns.current_eq`), and
it stays within the floor and the ceiling of `SmoothTurns`, because a fresh
rotation has no overdraft (`overdraft_fresh`).  `shares_proportional` is the
result for balancers.
-/

namespace PooledRouting.Balancer

open Finset

variable {ε : Type} [Endpoint ε] {weights : List UInt32} {places : List Nat} {i : Nat}

namespace SmoothWeights

variable {w w' : SmoothWeights}

/-! ## Fresh rotations -/

/-- The rotation before its first turn: every current weight is the static
one. -/
def fresh (weights : List UInt32) : SmoothWeights :=
  ⟨weights.map fun x => (x.toNat : Int)⟩

theorem length_fresh (weights : List UInt32) :
    (fresh weights).currents.length = weights.length :=
  List.length_map _

theorem current_fresh (hi : i < weights.length) :
    (fresh weights).current i = weightAt weights i := by
  simp [current, fresh, weightAt, hi]

theorem total_fresh (weights : List UInt32) : (fresh weights).total = weightSum weights := by
  rw [SmoothWeights.total_eq, length_fresh, weightSum_eq]
  exact Finset.sum_congr rfl fun i hi => current_fresh (Finset.mem_range.1 hi)

/-- A fresh rotation owes nothing. -/
theorem overdraft_fresh (hpos : ∀ x ∈ weights, 0 < x) : (fresh weights).overdraft weights = 0 := by
  have hdebts : ∀ i ∈ range weights.length, (fresh weights).debt weights i = 0 := by
    intro i hi
    have hi := Finset.mem_range.1 hi
    have hweight := weightAt_pos hpos hi
    have hsum := weightAt_le_sum hi
    unfold debt floorAt
    rw [current_fresh hi]
    omega
  have hexcess : (fresh weights).excess weights = 0 := by
    unfold excess
    rw [total_fresh]
    omega
  rw [overdraft, Finset.sum_eq_zero hdebts, hexcess]

namespace Turns

/-- What the number of turns of a place comes to after as many turns in
all. -/
theorem share (h : (fresh weights).Turns weights places w') (hpos : ∀ x ∈ weights, 0 < x)
    (hi : i < weights.length) :
    w'.current i =
        (places.length + 1) * weightAt weights i - weightSum weights * places.count i ∧
      (weightSum weights * places.count i : Int) <
        places.length * weightAt weights i + weightSum weights ∧
      places.length * weightAt weights i ≤
        (weightSum weights * places.count i + (weights.length - 1) * weightSum weights : Int) := by
  have hcurrent : w'.current i =
      (places.length + 1) * weightAt weights i - weightSum weights * places.count i := by
    rw [h.current_eq (total_fresh weights) hi, current_fresh hi]
    ring
  have howed : w'.overdraft weights = 0 := by
    have hle := h.overdraft_le
    rw [overdraft_fresh hpos] at hle
    omega
  have hsplit := overdraft_eq w' hi
  have hfloor := floorAt_le w' weights i
  have hceiling := current_le (h.length_currents (length_fresh weights)) hi
  have hlength : (1 : Int) ≤ weights.length := by omega
  unfold floorAt at hfloor hceiling
  refine ⟨hcurrent, ?_, ?_⟩
  · linarith [show (w'.debt weights i : Int) = 0 by omega]
  · linarith [show (w'.burden weights i : Int) = 0 by omega]

/-- After as many turns as the weights sum to, or a multiple of that, every
place has had its exact share. -/
theorem exact_share (h : (fresh weights).Turns weights places w') (hpos : ∀ x ∈ weights, 0 < x)
    (hi : i < weights.length) {k : Nat} (hk : places.length = k * weightSum weights) :
    (places.count i : Int) = k * weightAt weights i ∧ w'.current i = weightAt weights i := by
  have hlength := h.length_currents (length_fresh weights)
  have hcurrent : ∀ j < weights.length, w'.current j =
      weightAt weights j + weightSum weights * (k * weightAt weights j - places.count j) := by
    intro j hj
    rw [(h.share hpos hj).1, hk]
    push_cast
    ring
  have hsum : 0 < (weightSum weights : Int) := by
    have := weightAt_pos hpos hi
    have := weightAt_le_sum hi
    omega
  -- Nobody is below the static weight, and nobody can be above it.
  have hnotBelow : ∀ j ∈ range weights.length, weightAt weights j ≤ w'.current j := by
    intro j hj
    have hj := Finset.mem_range.1 hj
    have habove := (h.share hpos hj).2.1
    rw [hk] at habove
    push_cast at habove
    have hfew : (places.count j : Int) < k * weightAt weights j + 1 :=
      lt_of_mul_lt_mul_left (by linarith) hsum.le
    rw [hcurrent j hj]
    have := mul_nonneg hsum.le (show 0 ≤ k * weightAt weights j - places.count j by omega)
    omega
  have hsums : ∑ j ∈ range weights.length, weightAt weights j =
      ∑ j ∈ range weights.length, w'.current j := by
    rw [← weightSum_eq, ← h.total_eq (total_fresh weights), SmoothWeights.total_eq, hlength]
  have hsame := (Finset.sum_eq_sum_iff_of_le hnotBelow).1 hsums i (Finset.mem_range.2 hi)
  refine ⟨?_, hsame.symm⟩
  have hzero : weightSum weights * (k * weightAt weights i - places.count i) = 0 := by
    have := hcurrent i hi
    omega
  rcases mul_eq_zero.1 hzero with h0 | h0 <;> omega

end Turns

end SmoothWeights

/-! ## Balancers over a fleet -/

variable {b : Balancer} {w : SmoothWeights}

theorem addAll_smooth (hstate : b.state = .smooth w) (hopen : b.closed = false) (fleet : Fleet ε)
    {ms : List Member} (hms : (b.addrs ++ ms.map Member.addr).Nodup)
    (hpos : ∀ m ∈ ms, 0 < fleet.weight m.id) :
    addAll fleet b ms = .ok { b with
      members := b.members ++ ms
      state := .smooth ⟨w.currents ++ ms.map fun m => ((fleet.weight m.id).toNat : Int)⟩ } := by
  induction ms generalizing b w with
  | nil =>
    unfold addAll
    rw [List.append_nil, List.map_nil, List.append_nil, ← hstate]
  | cons m ms ih =>
    obtain ⟨hm, hrest⟩ := List.forall_mem_cons.1 hpos
    have hfree : m.addr ∉ b.addrs := fun htaken =>
      (List.nodup_append.1 hms).2.2 _ htaken _ List.mem_cons_self rfl
    unfold addAll
    rcases add_cases b fleet m with ⟨⟨-, hzero⟩ | hclosed | htaken, -⟩ | ⟨-, -, -, hok⟩
    · rw [hzero] at hm
      exact absurd hm (by decide)
    · cases hopen.symm.trans hclosed
    · exact absurd htaken hfree
    · have hnext : ((b.members ++ [m]).map Member.addr ++ ms.map Member.addr).Nodup := by
        rw [List.map_append, List.append_assoc]
        exact hms
      rw [hok, hstate]
      dsimp only [Policy.join]
      rw [ih (b := { b with
        members := b.members ++ [m]
        state := .smooth (w.push (fleet.weight m.id)) }) rfl hopen hnext hrest]
      simp only [SmoothWeights.push, List.append_assoc, List.singleton_append, List.map_cons]

theorem addrs_membersOf (fleet : Fleet ε) :
    (membersOf fleet).map Member.addr = fleet.toList.map Endpoint.addr := by
  unfold membersOf
  exact List.ext_getElem (by simp) fun i _ _ => by simp

theorem weights_membersOf (fleet : Fleet ε) :
    (membersOf fleet).map (fun m => fleet.weight m.id) = fleet.toList.map Endpoint.weight := by
  unfold membersOf
  refine List.ext_getElem (by simp) fun i hi _ => ?_
  have hlt : i < fleet.size := by simpa using hi
  simp [Fleet.weight, hlt]

theorem build_smooth (virtualNodes : Nat) (fleet : Fleet ε)
    (haddrs : (fleet.toList.map Endpoint.addr).Nodup)
    (hpos : ∀ x ∈ fleet.toList.map Endpoint.weight, 0 < x) :
    build .weightedRoundRobin virtualNodes fleet = .ok
      { members := membersOf fleet
        state := .smooth (.fresh (fleet.toList.map Endpoint.weight)) } := by
  have hstate : (create .weightedRoundRobin virtualNodes).state = .smooth {} := rfl
  have hms : ((create .weightedRoundRobin virtualNodes).addrs ++
      (membersOf fleet).map Member.addr).Nodup := by
    rw [addrs_membersOf]
    exact haddrs
  have hweights : ∀ m ∈ membersOf fleet, 0 < fleet.weight m.id := by
    intro m hm
    refine hpos _ ?_
    rw [← weights_membersOf]
    exact List.mem_map_of_mem hm
  rw [build, addAll_smooth hstate rfl fleet hms hweights, SmoothWeights.fresh,
    ← weights_membersOf, List.map_map]
  rfl

theorem currentWeight?_eq (hstate : b.state = .smooth w) (hb : b.addrs.Nodup) {m : Member}
    (hm : b.members[i]? = some m) (hi : i < w.currents.length) :
    b.currentWeight? m.addr = some (w.current i) := by
  unfold currentWeight?
  rw [hstate]
  dsimp only
  rw [position?_of_getElem? hb hm, Option.bind_some, List.getElem?_eq_getElem hi]
  simp [SmoothWeights.current, hi]

/-- What is built over a fleet takes its first turn at the static weights. -/
theorem rotates_build (fleet : Fleet ε) (hsize : 0 < fleet.size)
    (hpos : ∀ x ∈ fleet.toList.map Endpoint.weight, 0 < x) :
    Rotates
      { members := membersOf fleet
        state := .smooth (.fresh (fleet.toList.map Endpoint.weight)) }
      (.fresh (fleet.toList.map Endpoint.weight)) (fleet.toList.map Endpoint.weight) where
  state := rfl
  isOpen := rfl
  occupied := by
    rw [← List.length_pos_iff]
    simpa [membersOf] using hsize
  length_currents := SmoothWeights.length_fresh _
  length_weights := by simp [membersOf]
  positive := hpos

/-- A smooth rotation built over a fleet of positive weights with distinct
addresses answers `t` requests, whatever they are, as long as the weights
stay the same.  A member of weight `w` is then chosen `n` times with
`W * n < t * w + W` and `t * w - W * n ≤ (size - 1) * W`, where `W` is the
sum of the weights, and its current weight is `(t + 1) * w - W * n`.  If `t`
is a multiple of `W`, this is `n = t * w / W` and the current weight of the
beginning.  Nothing overflows if `(size + 1) * W` fits in a word. -/
theorem shares_proportional (virtualNodes : Nat) (fleet : Fleet ε) (hsize : 0 < fleet.size)
    (haddrs : (fleet.toList.map Endpoint.addr).Nodup)
    (hpos : ∀ x ∈ fleet.toList.map Endpoint.weight, 0 < x)
    (hsmall : (fleet.size + 1) * weightSum (fleet.toList.map Endpoint.weight) < 2 ^ 63) :
    let total := weightSum (fleet.toList.map Endpoint.weight)
    ∃ b, build .weightedRoundRobin virtualNodes fleet = .ok b ∧ b.members = membersOf fleet ∧
      ∀ requests : List (Request ε), (∀ r ∈ requests, ∀ id, r.fleet.weight id = fleet.weight id) →
        ∃ picks b', b.selectAll requests = .ok (picks, b') ∧ b.RunsInWords requests ∧
          ∀ m ∈ membersOf fleet,
            let t := requests.length
            let n := picks.count m
            let weight := (fleet.weight m.id).toNat
            total * n < t * weight + total ∧
              (t * weight - total * n : Int) ≤ (fleet.size - 1) * total ∧
              b'.currentWeight? m.addr = some ((t + 1) * weight - total * n : Int) ∧
              ∀ k, t = k * total → n = k * weight ∧ b'.currentWeight? m.addr = some ↑weight := by
  intro total
  have hbuild := build_smooth virtualNodes fleet haddrs hpos
  have hrotates := rotates_build fleet hsize hpos
  have hsizes : (fleet.toList.map Endpoint.weight).length = fleet.size := by simp
  refine ⟨_, hbuild, rfl, fun requests hsame => ?_⟩
  have hasked : ∀ r ∈ requests, ((membersOf fleet).map Member.id).map r.fleet.weight =
      fleet.toList.map Endpoint.weight := by
    intro r hr
    rw [← weights_membersOf, List.map_map]
    exact List.map_congr_left fun m _ => hsame r hr m.id
  obtain ⟨picks, places, w', hrun, hlength, hplaces, hturns⟩ :=
    hrotates.selectAll_eq requests hasked
  have hwords := hrotates.runsInWords (by
    rw [SmoothWeights.overdraft_fresh hpos, hsizes]
    exact hsmall) requests hasked
  refine ⟨picks, _, hrun, hwords, ?_⟩
  intro m hm t n weight
  obtain ⟨i, hi, hget⟩ := List.getElem_of_mem hm
  have hget : (membersOf fleet)[i]? = some m := by
    rw [List.getElem?_eq_getElem hi, hget]
  have hi : i < (fleet.toList.map Endpoint.weight).length := by
    simpa [membersOf] using hi
  have hnodup : ((membersOf fleet).map Member.addr).Nodup := by
    rw [addrs_membersOf]
    exact haddrs
  have hcount : n = places.count i := count_of_places (hnodup.of_map _) hplaces hget
  have hweight : weightAt (fleet.toList.map Endpoint.weight) i = weight := by
    rw [weightAt, ← weights_membersOf, List.getElem?_map, hget]
    rfl
  obtain ⟨hcurrent, habove, hbelow⟩ := hturns.share hpos hi
  have hshown := currentWeight?_eq
    (b := { members := membersOf fleet, state := .smooth w' }) rfl hnodup hget
    (by rwa [hturns.length_currents (SmoothWeights.length_fresh _)])
  rw [hweight, hlength, ← hcount] at hcurrent habove hbelow
  rw [hsizes] at hbelow
  refine ⟨by exact_mod_cast habove, by linarith, hshown.trans (congrArg some hcurrent), ?_⟩
  intro k hk
  obtain ⟨hexact, hback⟩ := hturns.exact_share hpos hi (hlength.trans hk)
  rw [hweight, ← hcount] at hexact
  exact ⟨by exact_mod_cast hexact, by rw [hshown, hback, hweight]⟩

/-- Members of weights 4, 2 and 1 after two rounds of seven turns. -/
theorem shares_proportional_two_rounds :
    let fleet : Fleet PlainEndpoint :=
      #[{ addr := "a", weight := 4 }, { addr := "b", weight := 2 }, { addr := "c" }]
    let requests : List (Request PlainEndpoint) := List.replicate 14 ⟨fleet, none⟩
    ∃ b, build .weightedRoundRobin 1 fleet = .ok b ∧ ∃ picks b',
      b.selectAll requests = .ok (picks, b') ∧ b.RunsInWords requests ∧
        picks.count ⟨0, "a"⟩ = 8 ∧ b'.currentWeight? "a" = some 4 := by
  intro fleet requests
  have hpos : ∀ x ∈ fleet.toList.map Endpoint.weight, 0 < x := by
    simp [fleet, Endpoint.weight]
  obtain ⟨b, hbuild, -, hruns⟩ := shares_proportional 1 fleet (by decide) (by decide +kernel) hpos
    (by decide)
  have hsame : ∀ r ∈ requests, ∀ id, r.fleet.weight id = fleet.weight id := by
    intro r hr id
    rw [List.eq_of_mem_replicate hr]
  obtain ⟨picks, b', hrun, hwords, hshares⟩ := hruns requests hsame
  obtain ⟨-, -, -, hround⟩ := hshares ⟨0, "a"⟩ (by decide +kernel)
  obtain ⟨hcount, hcurrent⟩ := hround 2 (by decide)
  exact ⟨b, hbuild, picks, b', hrun, hwords, hcount, hcurrent⟩

end PooledRouting.Balancer
