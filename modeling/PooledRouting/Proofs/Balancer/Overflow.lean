import Mathlib.Algebra.BigOperators.Intervals
import PooledRouting.Proofs.Balancer.Shares

/-!
# When a smooth rotation overflows

The turns of a smooth rotation depend on the weights alone.  So it is settled
from the start in which turn the current weights are beyond a word, if in any
(`afterTurns?`).

Small weights never overflow (`exists_afterTurns`).  Many weights that count
up from one overflow in the second turn (`second_turn_overflows`): the first
one goes to the last place, and the others, who come before it in the sum,
have all earned.
-/

namespace PooledRouting.Balancer

namespace SmoothWeights

open Finset

variable {w : SmoothWeights} {weights : List UInt32}

/-! ## Turns in words -/

/-- The current weights after the next turn, in words. -/
def next? (w : SmoothWeights) (weights : List UInt32) : Option SmoothWeights := do
  let place ← w.place?
  w.turnInWords? place weights

/-- The current weights after so many turns in words. -/
def afterTurns? (w : SmoothWeights) (weights : List UInt32) : Nat → Option SmoothWeights
  | 0 => some w
  | count + 1 => (w.afterTurns? weights count).bind fun w' => w'.next? weights

theorem afterTurns?_succ (w : SmoothWeights) (weights : List UInt32) (count : Nat) :
    w.afterTurns? weights (count + 1) =
      (w.next? weights).bind fun w' => w'.afterTurns? weights count := by
  induction count with
  | zero => simp [afterTurns?]
  | succ count ih =>
    rw [afterTurns?, ih, Option.bind_assoc]
    rfl

/-- The next turn is a turn of the place that wins. -/
theorem exists_wins_of_next? (hlength : w.currents.length = weights.length)
    (hpos : ∀ x ∈ weights, 0 < x) {w' : SmoothWeights} (h : w.next? weights = some w') :
    ∃ place, w.place? = some place ∧ w.Wins weights place ∧ w' = w.turn place weights := by
  obtain ⟨place, hplace, hturn⟩ := Option.bind_eq_some_iff.1 h
  exact ⟨place, hplace, wins_of_place? hlength hpos hplace, turn_of_inWords hturn⟩

/-- After a turn that overflows there is none. -/
theorem afterTurns?_eq_none {count : Nat} (h : w.afterTurns? weights count = none) {more : Nat}
    (hmore : count ≤ more) : w.afterTurns? weights more = none := by
  induction hmore with
  | refl => exact h
  | step _ ih =>
    rw [afterTurns?, ih]
    rfl

/-- While a round of every place, one more, and the overdraft fit in a word, no turn
overflows. -/
theorem exists_afterTurns (hlength : w.currents.length = weights.length)
    (hpos : ∀ x ∈ weights, 0 < x) (hne : weights ≠ [])
    (hsmall : (weights.length + 1) * weightSum weights + w.overdraft weights < 2 ^ 63)
    (count : Nat) : ∃ w', w.afterTurns? weights count = some w' ∧
      w'.currents.length = weights.length ∧ w'.overdraft weights ≤ w.overdraft weights := by
  induction count with
  | zero => exact ⟨w, rfl, hlength, le_rfl⟩
  | succ count ih =>
    obtain ⟨w', hw', hlength', hless⟩ := ih
    have hcurrents : w'.currents ≠ [] := by
      rwa [← List.length_pos_iff, hlength', List.length_pos_iff]
    obtain ⟨place, hplace⟩ := place?_isSome hcurrents
    have hwins := wins_of_place? hlength' hpos hplace
    have hturn := hwins.turnInWords?_eq (by omega)
    refine ⟨w'.turn place weights, ?_, hwins.length_turn, hwins.overdraft_turn_le.trans hless⟩
    rw [afterTurns?, hw', Option.bind_some, next?, hplace]
    exact hturn

/-! ## Weights that count up -/

/-- So many weights that count up from one. -/
def rising (n : Nat) : List UInt32 :=
  (List.range n).map fun i => UInt32.ofNat (i + 1)

variable {n i : Nat}

@[simp]
theorem length_rising (n : Nat) : (rising n).length = n := by simp [rising]

theorem weightAt_rising (hfew : n < UInt32.size) (hi : i < n) : weightAt (rising n) i = i + 1 := by
  have hget : (rising n)[i]? = some (UInt32.ofNat (i + 1)) := by simp [rising, hi]
  have hweight : (UInt32.ofNat (i + 1)).toNat = i + 1 := UInt32.toNat_ofNat_of_lt' (by omega)
  rw [weightAt, hget]
  exact_mod_cast hweight

theorem rising_pos (hfew : n < UInt32.size) : ∀ x ∈ rising n, 0 < x := by
  intro x hx
  obtain ⟨i, hi, rfl⟩ := List.mem_map.1 hx
  have hi := List.mem_range.1 hi
  have hweight : (UInt32.ofNat (i + 1)).toNat = i + 1 := UInt32.toNat_ofNat_of_lt' (by omega)
  exact UInt32.lt_iff_toNat_lt.2 (show 0 < (UInt32.ofNat (i + 1)).toNat by omega)

theorem sum_range_two_mul_succ (m : Nat) : ∑ i ∈ range m, (2 * (i + 1) : Int) = m * (m + 1) := by
  have hsum : (∑ i ∈ range m, (i + 1)) * 2 = m * (m + 1) := by
    rw [← add_zero (∑ i ∈ range m, (i + 1)), ← Finset.sum_range_succ' (fun i => i) m,
      Finset.sum_range_id_mul_two, Nat.add_sub_cancel, Nat.mul_comm]
  rw [← Finset.mul_sum, Int.mul_comm]
  exact_mod_cast hsum

theorem two_mul_weightSum_rising (hfew : n < UInt32.size) :
    2 * weightSum (rising n) = n * (n + 1) := by
  have hsum : (2 * weightSum (rising n) : Int) = n * (n + 1) := by
    rw [weightSum_eq, length_rising, Finset.mul_sum, ← sum_range_two_mul_succ]
    refine Finset.sum_congr rfl fun i hi => ?_
    rw [weightAt_rising hfew (Finset.mem_range.1 hi)]
  exact_mod_cast hsum

/-- The first turn of weights that count up from one goes to the last place, and every other
place then has twice its weight. -/
theorem current_first_turn (hfew : n < UInt32.size) {place : Nat}
    (hwins : (fresh (rising n)).Wins (rising n) place) (hi : i + 1 < n) :
    ((fresh (rising n)).turn place (rising n)).current i = 2 * (i + 1) := by
  have hlength := length_rising n
  have hlast := hwins.greatest (n - 1) (by omega)
  have hplace := hwins.lt
  rw [current_fresh (by omega), current_fresh hplace, weightAt_rising hfew (by omega),
    weightAt_rising hfew (by omega)] at hlast
  rw [hwins.current_turn (by omega), current_fresh (by omega), weightAt_rising hfew (by omega),
    if_neg (by omega)]
  ring

/-- If there are so many weights, counting up from one, that twice those before the last are
beyond a word in sum, then the second turn overflows. -/
theorem second_turn_overflows (hfew : n < UInt32.size) (hmany : 2 ^ 63 ≤ (n - 1) * n) :
    (fresh (rising n)).afterTurns? (rising n) 2 = none := by
  refine Option.eq_none_iff_forall_ne_some.2 fun w₂ hw₂ => ?_
  obtain ⟨m, rfl⟩ : ∃ m, n = m + 2 := by
    have htwo : n - 1 ≠ 0 := fun hone => by
      rw [hone, Nat.zero_mul] at hmany
      exact absurd hmany (by decide)
    exact ⟨n - 2, by omega⟩
  obtain ⟨w₁, hw₁, hsecond⟩ := Option.bind_eq_some_iff.1 hw₂
  have hw₁ : (fresh (rising (m + 2))).next? (rising (m + 2)) = some w₁ := hw₁
  obtain ⟨place, -, hwins, rfl⟩ := exists_wins_of_next? (length_fresh _) (rising_pos hfew) hw₁
  obtain ⟨place', -, hturn⟩ := Option.bind_eq_some_iff.1 hsecond
  obtain ⟨sum, hsum, -⟩ := Option.bind_eq_some_iff.1 hturn
  have hlength := hwins.length_turn.trans (length_rising _)
  have hfits := fitsWord_of_foldlM hsum (k := m) (by omega)
  have hothers : ∑ i ∈ range (m + 1),
      ((fresh (rising (m + 2))).turn place (rising (m + 2))).current i =
      ((m + 1 : Nat) : Int) * ((m + 1 : Nat) + 1) := by
    rw [← sum_range_two_mul_succ]
    refine Finset.sum_congr rfl fun i hi => current_first_turn hfew hwins ?_
    have hi := Finset.mem_range.1 hi
    omega
  rw [sum_take_eq _ (by omega), zero_add, hothers] at hfits
  have hcast : (2 ^ 63 : Int) ≤ ((m + 1 : Nat) : Int) * ((m + 1 : Nat) + 1) := by
    exact_mod_cast hmany
  exact absurd hfits.2 (not_lt.2 hcast)

end SmoothWeights

/-! ## Selections -/

variable {ε : Type} [Endpoint ε] {b : Balancer} {w : SmoothWeights} {weights : List UInt32}
  {fleet : Fleet ε}

/-- A selection of a smooth rotation has an answer in words if the turn has a result. -/
theorem selectInWords?_smooth {key : Option String} {x : Selection ε} (hstate : b.state = .smooth w)
    (hx : b.select fleet key = .ok x) : b.selectInWords? fleet key =
      (w.next? (b.ids.map fleet.weight)).map fun w' =>
        .ok { x with balancer := { x.balancer with state := .smooth w' } } := by
  unfold selectInWords? chosenInWords?
  rw [hx, hstate]
  dsimp only [SmoothWeights.next?]
  cases w.place? with
  | none => rfl
  | some place =>
    cases hturn : w.turnInWords? place (b.ids.map fleet.weight) with
    | none => simp only [Option.bind_eq_bind, Option.bind_some, hturn]; rfl
    | some w' => simp only [Option.bind_eq_bind, Option.bind_some, hturn]; rfl

/-- Requests to a smooth rotation overflow exactly if as many turns do. -/
theorem Rotates.selectAllInWords?_eq_none_iff (h : b.Rotates w weights)
    (requests : List (Request ε))
    (hweights : ∀ r ∈ requests, b.ids.map r.fleet.weight = weights) :
    b.selectAllInWords? requests = none ↔ w.afterTurns? weights requests.length = none := by
  induction requests generalizing b w with
  | nil => simp [selectAllInWords?, SmoothWeights.afterTurns?]
  | cons r requests ih =>
    obtain ⟨hr, hrest⟩ := List.forall_mem_cons.1 hweights
    obtain ⟨place, m, hm, hwins, hselect⟩ := h.select_eq r hr
    have hwords := selectInWords?_smooth h.state hselect
    rw [hr] at hwords
    rw [selectAllInWords?, hwords, List.length_cons, SmoothWeights.afterTurns?_succ]
    cases hturn : w.next? weights with
    | none => simp
    | some w' =>
      -- The turn in words is the turn of the selection.
      rw [hturn] at hwords
      have hsame := Except.ok.inj ((select_of_inWords hwords).trans hselect)
      obtain rfl : w' = w.turn place weights :=
        Policy.smooth.inj (congrArg (fun x => x.balancer.state) hsame)
      rw [Option.map_some, Option.bind_some, ← ih (h.turn hwins) hrest]
      cases hlater :
        selectAllInWords? { b with state := .smooth (w.turn place weights) } requests with
      | none => simp [hlater]
      | some result => cases result <;> simp [hlater]

end PooledRouting.Balancer
