import Std.Data.String.ToNat
import PooledRouting.Balancer.PlainEndpoint
import PooledRouting.Proofs.Balancer.Choosing
import PooledRouting.Proofs.Balancer.Overflow

/-!
# Nobody starves in a smooth rotation

A smooth rotation in which endpoints come and go keeps an account of what it
owes: the overdraft.  A new member adds nothing to it
(`overdraft_push_le`), and turns only lower it.  A member that leaves takes
its current weight along, which the others have paid for or been paid by, so
the overdraft grows, by at most a round of every member
(`overdraft_erase_le`).

While nobody comes or goes any more and nothing overflows, everybody has a
turn within a round of every member and the overdraft (`nobody_starves`).
Neither is to be left out: after another one has left a member may wait longer
than the rounds, and among billions of members, none of which has left, the
second selection overflows (`starved_after_remove`).
-/

namespace PooledRouting.Balancer

open Finset

variable {ε : Type} [Endpoint ε]

namespace SmoothWeights

variable {w : SmoothWeights} {weights : List UInt32} {place : Nat}

/-! ## A new place -/

theorem weightSum_append (weights : List UInt32) (x : UInt32) :
    weightSum (weights ++ [x]) = weightSum weights + x.toNat := by
  simp [weightSum]

/-- A place at its static weight is nobody's debtor. -/
theorem overdraft_push_le (hlength : w.currents.length = weights.length) {x : UInt32}
    (hx : 0 < x) : (w.push x).overdraft (weights ++ [x]) ≤ w.overdraft weights := by
  have hx : 0 < x.toNat := UInt32.lt_iff_toNat_lt.1 hx
  have hsum := weightSum_append weights x
  have hold : ∀ i ∈ range weights.length,
      (w.push x).debt (weights ++ [x]) i ≤ w.debt weights i := by
    intro i hi
    have hi := Finset.mem_range.1 hi
    have hweight : weightAt (weights ++ [x]) i = weightAt weights i := by
      simp [weightAt, List.getElem?_append_left hi]
    have hcurrent : (w.push x).current i = w.current i := by
      simp [current, push, List.getElem?_append_left (hlength.symm ▸ hi)]
    unfold debt floorAt
    rw [hweight, hcurrent]
    omega
  have hnew : (w.push x).debt (weights ++ [x]) weights.length = 0 := by
    have hweight : weightAt (weights ++ [x]) weights.length = x.toNat := by
      simp [weightAt]
    have hcurrent : (w.push x).current weights.length = x.toNat := by
      simp [current, push, ← hlength]
    unfold debt floorAt
    rw [hweight, hcurrent]
    omega
  have htotal : (w.push x).total = w.total + x.toNat := by
    show ((w.push x).currents).sum = w.currents.sum + _
    simp [push]
  have hexcess : (w.push x).excess (weights ++ [x]) = w.excess weights := by
    unfold excess
    rw [htotal]
    omega
  have hdebts := Finset.sum_le_sum hold
  unfold overdraft
  rw [List.length_append, List.length_singleton, Finset.sum_range_succ, hnew, hexcess]
  omega

/-! ## A place that is given up -/

/-- The place among all places of one that stays when `gone` is given up. -/
def before (gone i : Nat) : Nat :=
  if i < gone then i else i + 1

theorem sum_before {M : Type} [AddCommMonoid M] (f : Nat → M) {n gone : Nat} (hgone : gone < n) :
    ∑ i ∈ range (n - 1), f (before gone i) + f gone = ∑ i ∈ range n, f i := by
  obtain ⟨k, rfl⟩ : ∃ k, n = gone + 1 + k := ⟨n - (gone + 1), by omega⟩
  have hfirst : ∑ i ∈ range gone, f (before gone i) = ∑ i ∈ range gone, f i := by
    refine Finset.sum_congr rfl fun i hi => ?_
    rw [before, if_pos (Finset.mem_range.1 hi)]
  have hlast : ∑ i ∈ range k, f (before gone (gone + i)) = ∑ i ∈ range k, f (gone + 1 + i) := by
    refine Finset.sum_congr rfl fun i _ => ?_
    rw [before, if_neg (by omega), add_right_comm]
  rw [show gone + 1 + k - 1 = gone + k by omega, Finset.sum_range_add, hfirst, hlast,
    Finset.sum_range_add, Finset.sum_range_succ]
  exact add_right_comm _ _ _

theorem weightAt_eraseIdx (weights : List UInt32) (gone i : Nat) :
    weightAt (weights.eraseIdx gone) i = weightAt weights (before gone i) := by
  unfold weightAt before
  rw [List.getElem?_eraseIdx]
  split <;> rfl

theorem current_erase (w : SmoothWeights) (gone i : Nat) :
    (w.erase gone).current i = w.current (before gone i) := by
  unfold current before erase
  rw [List.getElem?_eraseIdx]
  split <;> rfl

theorem weightSum_eraseIdx {gone : Nat} (hgone : gone < weights.length) :
    (weightSum (weights.eraseIdx gone) : Int) = weightSum weights - weightAt weights gone := by
  have hsplit := sum_before (weightAt weights) hgone
  rw [weightSum_eq, weightSum_eq, List.length_eraseIdx_of_lt hgone, ← hsplit]
  simp only [weightAt_eraseIdx]
  omega

theorem total_erase {gone : Nat} (hgone : gone < w.currents.length) :
    (w.erase gone).total = w.total - w.current gone := by
  have hsplit := sum_before w.current hgone
  rw [total_eq, total_eq, erase, List.length_eraseIdx_of_lt hgone, ← hsplit]
  have hcurrents := current_erase w gone
  unfold erase at hcurrents
  simp only [hcurrents]
  omega

/-- What the others owe more when a place is given up, and what the next
winner pays for it, is less than a round of every place. -/
theorem overdraft_erase_le (hlength : w.currents.length = weights.length) {gone : Nat}
    (hgone : gone < weights.length) :
    (w.erase gone).overdraft (weights.eraseIdx gone) ≤
      w.overdraft weights + weights.length * weightSum weights := by
  have hsum := weightSum_eraseIdx hgone
  have hweight := weightAt_le_sum hgone
  have hdebts : ∑ i ∈ range (weights.length - 1), (w.erase gone).debt (weights.eraseIdx gone) i ≤
      ∑ i ∈ range (weights.length - 1), (w.debt weights (before gone i) + weightSum weights) := by
    refine Finset.sum_le_sum fun i _ => ?_
    unfold debt floorAt
    rw [weightAt_eraseIdx, current_erase]
    omega
  have hexcess : (w.erase gone).excess (weights.eraseIdx gone) ≤
      w.excess weights + w.debt weights gone + weightSum weights := by
    have hfloor := floorAt_le w weights gone
    unfold excess
    rw [total_erase (hlength.symm ▸ hgone)]
    unfold floorAt at hfloor
    omega
  have hsplit := sum_before (w.debt weights) hgone
  have hround : weights.length * weightSum weights =
      (weights.length - 1) * weightSum weights + weightSum weights := by
    rw [← Nat.succ_mul, Nat.succ_eq_add_one, Nat.sub_add_cancel (by omega)]
  rw [Finset.sum_add_distrib, Finset.sum_const, Finset.card_range, smul_eq_mul] at hdebts
  unfold overdraft
  rw [List.length_eraseIdx_of_lt hgone]
  omega

end SmoothWeights

/-! ## Members that come and go -/

/-- The endpoints of the move have these weights. -/
def Move.Weighs (weight : Nat → UInt32) : Move ε → Prop
  | .add fleet _ => ∀ id, fleet.weight id = weight id
  | .select fleet _ => ∀ id, fleet.weight id = weight id
  | .remove _ => True
  | .close _ => True

/-- The static weights of the members. -/
def staticWeights (b : Balancer) (weight : Nat → UInt32) : List UInt32 :=
  b.members.map fun m => weight m.id

/-- What the move may add to the overdraft: a member that leaves costs a
round of every member. -/
def toll (weight : Nat → UInt32) (b : Balancer) : Move ε → Nat
  | .remove addr =>
    if addr ∈ b.addrs then b.members.length * weightSum (b.staticWeights weight) else 0
  | _ => 0

/-- What the moves may add to the overdraft together. -/
def tolls (weight : Nat → UInt32) (b : Balancer) : List (Move ε) → Nat
  | [] => 0
  | move :: moves => b.toll weight move + tolls weight (b.apply move) moves

/-- A smooth rotation at these current weights, one for each member.  No
member weighs nothing. -/
structure Weighed (weight : Nat → UInt32) (b : Balancer) (w : SmoothWeights) : Prop where
  state : b.state = .smooth w
  length : w.currents.length = b.members.length
  positive : ∀ m ∈ b.members, 0 < weight m.id
  nodup : b.addrs.Nodup

variable {weight : Nat → UInt32} {b : Balancer} {w : SmoothWeights}

@[simp]
theorem length_staticWeights (b : Balancer) (weight : Nat → UInt32) :
    (b.staticWeights weight).length = b.members.length :=
  List.length_map _

theorem map_ids (b : Balancer) (weight : Nat → UInt32) :
    b.ids.map weight = b.staticWeights weight :=
  List.map_map

namespace Weighed

theorem positive_weights (h : b.Weighed weight w) : ∀ x ∈ b.staticWeights weight, 0 < x := by
  intro x hx
  obtain ⟨m, hm, rfl⟩ := List.mem_map.1 hx
  exact h.positive m hm

theorem length_weights (h : b.Weighed weight w) :
    w.currents.length = (b.staticWeights weight).length :=
  h.length.trans (length_staticWeights b weight).symm

theorem apply_add (h : b.Weighed weight w) {fleet : Fleet ε}
    (hweights : ∀ id, fleet.weight id = weight id) (m : Member) :
    ∃ w', (b.apply (.add fleet m)).Weighed weight w' ∧
      w'.overdraft ((b.apply (.add fleet m)).staticWeights weight) ≤
        w.overdraft (b.staticWeights weight) := by
  have hnodup := nodup_addrs_apply h.nodup (.add fleet m)
  rcases add_cases b fleet m with ⟨-, fault, hfault⟩ | ⟨hvalid, -, -, hok⟩
  · have hsame : b.apply (.add fleet m) = b := by
      rw [Balancer.apply_add, hfault]
      rfl
    rw [hsame]
    exact ⟨w, h, le_rfl⟩
  · have hnext : b.apply (.add fleet m) = { b with
        members := b.members ++ [m]
        state := .smooth (w.push (weight m.id)) } := by
      rw [Balancer.apply_add, hok, h.state, hweights]
      rfl
    have hpos : 0 < weight m.id := by
      have hweighted : b.strategy.isWeighted = true := by
        unfold strategy
        rw [h.state]
        rfl
      rw [hweights] at hvalid
      exact UInt32.pos_iff_ne_zero.2 fun hzero => hvalid ⟨hweighted, hzero⟩
    have hstatic : (b.members ++ [m]).map (fun m => weight m.id) =
        b.staticWeights weight ++ [weight m.id] :=
      List.map_append
    rw [hnext] at hnodup ⊢
    refine ⟨_, ⟨rfl, by simp [h.length], ?_, hnodup⟩, ?_⟩
    · intro m' hm'
      rcases List.mem_append.1 hm' with hm' | hm'
      · exact h.positive m' hm'
      · rwa [List.mem_singleton.1 hm']
    · show _ ≤ w.overdraft (b.staticWeights weight)
      rw [staticWeights, hstatic]
      exact SmoothWeights.overdraft_push_le h.length_weights hpos

theorem apply_remove (h : b.Weighed weight w) (addr : String) :
    ∃ w', (b.apply (.remove addr : Move ε)).Weighed weight w' ∧
      w'.overdraft ((b.apply (.remove addr : Move ε)).staticWeights weight) ≤
        w.overdraft (b.staticWeights weight) + b.toll weight (.remove addr : Move ε) := by
  have hnodup := nodup_addrs_apply h.nodup (.remove addr : Move ε)
  rcases remove?_cases h.nodup addr with ⟨-, hnone⟩ | ⟨i, m, hm, rfl, hsome⟩
  · have hsame : b.apply (.remove addr : Move ε) = b := by
      rw [Balancer.apply_remove, hnone]
      rfl
    rw [hsame]
    exact ⟨w, h, by omega⟩
  · have hothers : b.others m.addr = b.members.eraseIdx i :=
      (eraseIdx_eq_filter h.nodup (position?_of_getElem? h.nodup hm)).symm
    have hnext : b.apply (.remove m.addr : Move ε) = { b with
        members := b.members.eraseIdx i
        state := .smooth (w.erase i) } := by
      rw [Balancer.apply_remove, hsome, hothers, h.state]
      rfl
    have htoll : b.toll weight (.remove m.addr : Move ε) =
        b.members.length * weightSum (b.staticWeights weight) :=
      if_pos (List.mem_map_of_mem (List.mem_of_getElem? hm))
    have hi : i < (b.staticWeights weight).length := by
      rw [length_staticWeights]
      exact (List.getElem?_eq_some_iff.1 hm).1
    have hstatic : (b.members.eraseIdx i).map (fun m => weight m.id) =
        (b.staticWeights weight).eraseIdx i :=
      (List.eraseIdx_map ..).symm
    have hcost := SmoothWeights.overdraft_erase_le h.length_weights hi
    rw [length_staticWeights] at hcost
    rw [hnext] at hnodup ⊢
    refine ⟨_, ⟨rfl, ?_, ?_, hnodup⟩, ?_⟩
    · simp [SmoothWeights.erase, List.length_eraseIdx, h.length]
    · exact fun m' hm' => h.positive m' (List.mem_of_mem_eraseIdx hm')
    · rw [htoll, staticWeights, hstatic]
      exact hcost

theorem apply_select (h : b.Weighed weight w) {fleet : Fleet ε}
    (hweights : ∀ id, fleet.weight id = weight id) (key : Option String) :
    ∃ w', (b.apply (.select fleet key)).Weighed weight w' ∧
      w'.overdraft ((b.apply (.select fleet key)).staticWeights weight) ≤
        w.overdraft (b.staticWeights weight) := by
  rcases select_cases b fleet key with ⟨fault, hfault⟩ | ⟨x, hx, hok⟩
  · have hsame : b.apply (.select fleet key) = b := by
      rw [Balancer.apply_select, hfault]
      rfl
    rw [hsame]
    exact ⟨w, h, le_rfl⟩
  · unfold choose? at hx
    rw [h.state] at hx
    obtain ⟨place, hplace, hx⟩ := Option.bind_eq_some_iff.1 hx
    obtain ⟨m, -, hx⟩ := Option.bind_eq_some_iff.1 hx
    have hwins := SmoothWeights.wins_of_place? h.length_weights h.positive_weights hplace
    have hnext : b.apply (.select fleet key) = { b with
        state := .smooth (w.turn place (b.staticWeights weight)) } := by
      rw [Balancer.apply_select, hok, ← Option.some.inj hx, ← map_ids, ← funext hweights]
      rfl
    rw [hnext]
    refine ⟨_, ⟨rfl, ?_, h.positive, h.nodup⟩, hwins.overdraft_turn_le⟩
    rw [hwins.length_turn, length_staticWeights]

/-- One move. -/
theorem apply (h : b.Weighed weight w) {move : Move ε} (hmove : move.Weighs weight) :
    ∃ w', (b.apply move).Weighed weight w' ∧
      w'.overdraft ((b.apply move).staticWeights weight) ≤
        w.overdraft (b.staticWeights weight) + b.toll weight move := by
  cases move with
  | add fleet m => exact h.apply_add hmove m
  | remove addr => exact h.apply_remove addr
  | select fleet key => exact h.apply_select hmove key
  | close fleet =>
    rw [apply_close]
    exact ⟨w, ⟨h.state, h.length, h.positive, h.nodup⟩, Nat.le_add_right _ _⟩

/-- A whole run. -/
theorem after (h : b.Weighed weight w) {moves : List (Move ε)}
    (hmoves : ∀ move ∈ moves, move.Weighs weight) :
    ∃ w', (b.after moves).Weighed weight w' ∧
      w'.overdraft ((b.after moves).staticWeights weight) ≤
        w.overdraft (b.staticWeights weight) + b.tolls weight moves := by
  induction moves generalizing b w with
  | nil => exact ⟨w, h, Nat.le_add_right _ _⟩
  | cons move moves ih =>
    obtain ⟨hmove, hrest⟩ := List.forall_mem_cons.1 hmoves
    obtain ⟨w₁, h₁, hmore⟩ := h.apply hmove
    obtain ⟨w₂, h₂, hmost⟩ := ih h₁ hrest
    refine ⟨w₂, h₂, ?_⟩
    rw [tolls]
    show w₂.overdraft (((b.apply move).after moves).staticWeights weight) ≤ _
    omega

end Weighed

theorem tolls_eq_zero (weight : Nat → UInt32) (b : Balancer) {moves : List (Move ε)}
    (hmoves : ∀ addr, .remove addr ∉ moves) : b.tolls weight moves = 0 := by
  induction moves generalizing b with
  | nil => rfl
  | cons move moves ih =>
    have hrest : ∀ addr, .remove addr ∉ moves := fun addr hmem =>
      hmoves addr (List.mem_cons_of_mem _ hmem)
    rw [tolls, ih (b.apply move) hrest]
    cases move with
    | remove addr => exact absurd List.mem_cons_self (hmoves addr)
    | add _ _ | select _ _ | close _ => rfl

theorem weighed_create (weight : Nat → UInt32) (virtualNodes : Nat) :
    (create .weightedRoundRobin virtualNodes).Weighed weight {} where
  state := rfl
  length := rfl
  positive _ hm := nomatch hm
  nodup := List.nodup_nil

/-! ## Everybody has a turn -/

theorem Weighed.rotates (h : b.Weighed weight w) (hopen : b.closed = false)
    (hmembers : b.members ≠ []) : b.Rotates w (b.staticWeights weight) where
  state := h.state
  isOpen := hopen
  occupied := hmembers
  length_currents := h.length_weights
  length_weights := length_staticWeights b weight
  positive := h.positive_weights

/-- In every run of a smooth rotation that does not overflow: while nobody
comes or goes any more, an open rotation answers everybody, and every member
is among the answers to as many requests as a round of every member and the
overdraft come to.  The overdraft is what the current weights say; all that
ever adds to it is a member that leaves, and such a one adds at most a round
of every member.

The answers are those in words, as far as they come.  They come to the end
while the weights and the overdraft are small. -/
theorem nobody_starves {weight : Nat → UInt32} {virtualNodes : Nat} {moves : List (Move ε)}
    (hmoves : ∀ move ∈ moves, move.Weighs weight)
    (hrun : (create .weightedRoundRobin virtualNodes).afterInWords? moves = some b) :
    let weights := b.staticWeights weight
    let round := weightSum weights
    ∃ w, b.state = .smooth w ∧
      w.overdraft weights ≤ (create .weightedRoundRobin virtualNodes).tolls weight moves ∧
      ((∀ addr, .remove addr ∉ moves) → w.overdraft weights = 0) ∧
      (b.closed = false → b.members ≠ [] → ∀ requests : List (Request ε),
        (∀ r ∈ requests, ∀ id, r.fleet.weight id = weight id) →
          ((weights.length + 1) * round + w.overdraft weights < 2 ^ 63 →
            (b.selectAllInWords? requests).isSome = true) ∧
          ∀ result, b.selectAllInWords? requests = some result →
            ∃ picks b', result = .ok (picks, b') ∧
              (weights.length * round + w.overdraft weights ≤ requests.length →
                ∀ m ∈ b.members, m ∈ picks)) := by
  intro weights round
  obtain rfl := after_of_inWords hrun
  set b := (create .weightedRoundRobin virtualNodes).after moves
  obtain ⟨w, hw, hoverdraft⟩ := (weighed_create weight virtualNodes).after hmoves
  have hbounded : w.overdraft weights ≤
      (create .weightedRoundRobin virtualNodes).tolls weight moves := by
    have hnone : ({} : SmoothWeights).overdraft
        ((create .weightedRoundRobin virtualNodes).staticWeights weight) = 0 := rfl
    rwa [hnone, Nat.zero_add] at hoverdraft
  refine ⟨w, hw.state, hbounded, fun hkept => ?_, ?_⟩
  · rw [tolls_eq_zero weight _ hkept] at hbounded
    exact Nat.le_zero.1 hbounded
  intro hopen hmembers requests hsame
  have hasked : ∀ r ∈ requests, b.ids.map r.fleet.weight = weights := by
    intro r hr
    rw [funext (hsame r hr), map_ids]
  have hrotates := hw.rotates hopen hmembers
  refine ⟨fun hsmall => ?_, fun result hresult => ?_⟩
  · rw [(hrotates.runsInWords hsmall requests hasked).selectAllInWords?_eq]
    rfl
  obtain ⟨picks, places, w', hall, hlength, hplaces, hturns⟩ :=
    hrotates.selectAll_eq requests hasked
  refine ⟨picks, _, (selectAll_of_inWords hresult).trans hall, fun hlong m hm => ?_⟩
  obtain ⟨i, hi, hget⟩ := List.getElem_of_mem hm
  have hget : b.members[i]? = some m := by
    rw [List.getElem?_eq_getElem hi, hget]
  have hi : i < weights.length := by
    rw [length_staticWeights]
    exact hi
  refine mem_of_places hplaces hget (by_contra fun hnone => ?_)
  have hshort := hturns.length_lt_of_notMem hrotates.length_currents hrotates.positive hi hnone
  rw [hlength] at hshort
  exact absurd hlong (Nat.not_le.2 hshort)

/-- Two light endpoints and a heavy one. -/
def heavyLast : Fleet PlainEndpoint :=
  #[{ addr := "a" }, { addr := "b" }, { addr := "c", weight := 4 }]

/-- The heavy endpoint leaves after it has had the first turn and `a` the
second. -/
def heavyLeaves : List (Move PlainEndpoint) :=
  [.add heavyLast ⟨0, "a"⟩, .add heavyLast ⟨1, "b"⟩, .add heavyLast ⟨2, "c"⟩,
    .select heavyLast none, .select heavyLast none, .remove "c"]

/-- Nothing overflows on the way. -/
theorem afterInWords?_heavyLeaves : (create .weightedRoundRobin 1).afterInWords? heavyLeaves =
    some ((create .weightedRoundRobin 1).after heavyLeaves) := by
  obtain ⟨b, hb⟩ := Option.isSome_iff_exists.1 (show
    ((create .weightedRoundRobin 1).afterInWords? heavyLeaves).isSome = true by decide +kernel)
  rw [hb, after_of_inWords hb]

/-- Endpoints whose weights count up from one. -/
def countingUp (n : Nat) : Fleet PlainEndpoint :=
  ((List.range n).map fun i => { addr := toString i, weight := UInt32.ofNat (i + 1) }).toArray

theorem afterInWords?_add (b : Balancer) (fleet : Fleet ε) (ms : List Member) :
    b.afterInWords? (ms.map (Move.add fleet)) = some (b.after (ms.map (Move.add fleet))) := by
  induction ms generalizing b with
  | nil => rfl
  | cons m ms ih => exact ih (b.apply (.add fleet m))

/-- Of so many endpoints the second one that is chosen overflows, though none has left. -/
theorem countingUp_overflows {n : Nat} (hfew : n < UInt32.size) (hmany : 2 ^ 63 ≤ (n - 1) * n) :
    ∃ b, (create .weightedRoundRobin 1).afterInWords?
        ((membersOf (countingUp n)).map (Move.add (countingUp n))) = some b ∧
      b.closed = false ∧ b.members = membersOf (countingUp n) ∧
      b.selectAllInWords? (List.replicate 2 ⟨countingUp n, none⟩) = none := by
  have haddrs : ((countingUp n).toList.map Endpoint.addr).Nodup := by
    rw [countingUp, List.map_map]
    exact List.Nodup.map (fun _ _ h => Nat.repr_inj.1 h) List.nodup_range
  have hweights : (countingUp n).toList.map Endpoint.weight = SmoothWeights.rising n := by
    rw [countingUp, List.map_map]
    rfl
  have hpos : ∀ x ∈ (countingUp n).toList.map Endpoint.weight, 0 < x :=
    hweights ▸ SmoothWeights.rising_pos hfew
  have hmembers : 0 < (countingUp n).size := by
    rw [countingUp, List.size_toArray, List.length_map, List.length_range]
    refine Nat.pos_of_ne_zero fun hzero => ?_
    subst hzero
    exact absurd hmany (by decide)
  obtain ⟨hbuilt, -⟩ := addAll_ok (build_smooth 1 (countingUp n) haddrs hpos)
  refine ⟨_, (afterInWords?_add _ _ _).trans (congrArg some hbuilt.symm), rfl, rfl, ?_⟩
  refine ((rotates_build (countingUp n) hmembers hpos).selectAllInWords?_eq_none_iff _
    fun r hr => ?_).2 ?_
  · rw [List.eq_of_mem_replicate hr]
    exact List.map_map.trans (weights_membersOf (countingUp n))
  · rw [hweights, List.length_replicate]
    exact SmoothWeights.second_turn_overflows hfew hmany

/-- What `a` has paid leaves with the heavy endpoint.  `b` now has four turns
in a row, which are two rounds of two members of weight one, and `a` has
none.  And among `2 ^ 32 - 1` members, none of which has left, the second
selection overflows. -/
theorem starved_after_remove :
    (∃ b, (create .weightedRoundRobin 1).afterInWords? heavyLeaves = some b ∧
      b.closed = false ∧ b.members = [⟨0, "a"⟩, ⟨1, "b"⟩] ∧
      b.staticWeights heavyLast.weight = [1, 1] ∧
      (b.selectAllInWords? (List.replicate (2 * weightSum [1, 1]) ⟨heavyLast, none⟩)).map
        (·.map Prod.fst) = some (.ok [⟨1, "b"⟩, ⟨1, "b"⟩, ⟨1, "b"⟩, ⟨1, "b"⟩])) ∧
    ∃ b, (create .weightedRoundRobin 1).afterInWords?
        ((membersOf (countingUp 4294967295)).map (Move.add (countingUp 4294967295))) = some b ∧
      b.closed = false ∧ b.members = membersOf (countingUp 4294967295) ∧
      b.selectAllInWords? (List.replicate 2 ⟨countingUp 4294967295, none⟩) = none :=
  ⟨⟨_, afterInWords?_heavyLeaves, by decide +kernel⟩, countingUp_overflows (by decide) (by decide)⟩

/-- Of the rounds that the heavy endpoint may have cost, 18 turns, `a` has
one. -/
theorem nobody_starves_after_remove :
    ∃ b picks b', (create .weightedRoundRobin 1).afterInWords? heavyLeaves = some b ∧
      b.selectAllInWords? (List.replicate 22 ⟨heavyLast, none⟩) = some (.ok (picks, b')) ∧
      ⟨0, "a"⟩ ∈ picks := by
  have hmoves : ∀ move ∈ heavyLeaves, move.Weighs heavyLast.weight := by
    simp [heavyLeaves, Move.Weighs]
  obtain ⟨w, -, hoverdraft, -, hruns⟩ := nobody_starves hmoves afterInWords?_heavyLeaves
  set b := (create .weightedRoundRobin 1).after heavyLeaves
  have htolls : (create .weightedRoundRobin 1).tolls heavyLast.weight heavyLeaves = 18 := by
    decide +kernel
  have hweights : b.staticWeights heavyLast.weight = [1, 1] := by decide +kernel
  have hround : weightSum [1, 1] = 2 := rfl
  rw [htolls, hweights] at hoverdraft
  rw [hweights, hround] at hruns
  have hsame : ∀ r ∈ List.replicate 22 (⟨heavyLast, none⟩ : Request PlainEndpoint),
      ∀ id, r.fleet.weight id = heavyLast.weight id := by
    intro r hr id
    rw [List.eq_of_mem_replicate hr]
  obtain ⟨hsome, hall⟩ := hruns (by decide +kernel) (by decide +kernel) _ hsame
  have hsmall : ([1, 1] : List UInt32).length = 2 := rfl
  obtain ⟨result, hresult⟩ := Option.isSome_iff_exists.1 (hsome (by omega))
  obtain ⟨picks, b', rfl, hpicks⟩ := hall result hresult
  have hlong : ([1, 1] : List UInt32).length * 2 + w.overdraft [1, 1] ≤
      (List.replicate 22 (⟨heavyLast, none⟩ : Request PlainEndpoint)).length := by
    rw [List.length_replicate]
    omega
  exact ⟨b, picks, b', afterInWords?_heavyLeaves, hresult, hpicks hlong _ (by decide +kernel)⟩

end PooledRouting.Balancer
