import Mathlib.Algebra.BigOperators.Fin
import Mathlib.Algebra.Order.BigOperators.Group.Finset
import Mathlib.Tactic.Linarith
import Mathlib.Tactic.Ring
import PooledRouting.Balancer.SmoothWeights

/-!
# Turns of a smooth rotation

The current weights of a smooth rotation are an account.  The winner of a turn
pays the sum of all current weights, and then everybody earns the static
weight.  Whatever the sum was before, after the turn it is that of the static
weights (`Wins.total_turn`).

A place that is left alone never falls below a floor, since it wins only above
zero and pays no more than the static weights sum to.  The first current
weights need not be like that, and how far they are from it is the overdraft.
No turn adds to it (`Wins.overdraft_turn_le`), so in a run of turns

* a current weight is bounded from below by the floor (`floorAt_le`), and from
  above by what the floors leave of the sum (`current_le`);
* a place that waits earns its static weight in every turn, and so it reaches
  that bound: it does not wait for long (`Turns.length_lt_of_notMem`);
* the bounds keep the arithmetic within words (`Wins.turnInWords?_eq`).

`Turns` is the run, and the inductions are over it.
-/

namespace PooledRouting.Balancer

open Finset

/-! ## Static weights -/

/-- The static weight of the place. -/
def weightAt (weights : List UInt32) (i : Nat) : Int :=
  ((weights[i]?.getD 0).toNat : Int)

/-- The sum of the static weights. -/
def weightSum (weights : List UInt32) : Nat :=
  (weights.map UInt32.toNat).sum

/-- The least current weight that a place comes to by itself: it has one
above zero when it wins, and then pays the sum of the static weights. -/
def floorAt (weights : List UInt32) (i : Nat) : Int :=
  weightAt weights i - weightSum weights + 1

variable {weights : List UInt32} {i place : Nat}

theorem sum_eq_sum_range (xs : List Int) : xs.sum = ∑ i ∈ range xs.length, xs[i]?.getD 0 := by
  rw [Finset.sum_range, ← Fin.sum_univ_getElem]
  simp

theorem weightSum_eq (weights : List UInt32) :
    (weightSum weights : Int) = ∑ i ∈ range weights.length, weightAt weights i := by
  have hsum := sum_eq_sum_range (weights.map fun x => (x.toNat : Int))
  have hcast : ((weights.map UInt32.toNat).sum : Int) =
      (weights.map fun x => (x.toNat : Int)).sum := by
    rw [Nat.cast_list_sum, List.map_map]
    rfl
  rw [weightSum, hcast, hsum, List.length_map]
  refine Finset.sum_congr rfl fun i hi => ?_
  have hlt : i < weights.length := Finset.mem_range.1 hi
  simp [weightAt, hlt]

theorem weightAt_nonneg (weights : List UInt32) (i : Nat) : 0 ≤ weightAt weights i :=
  Int.natCast_nonneg _

theorem weightAt_pos (hpos : ∀ x ∈ weights, 0 < x) (hi : i < weights.length) :
    0 < weightAt weights i := by
  have hx := hpos weights[i] (List.getElem_mem hi)
  simp only [weightAt, List.getElem?_eq_getElem hi, Option.getD_some]
  have := UInt32.lt_iff_toNat_lt.1 hx
  simpa using this

theorem weightAt_le_sum (hi : i < weights.length) : weightAt weights i ≤ weightSum weights := by
  rw [weightSum_eq]
  exact Finset.single_le_sum (fun j _ => weightAt_nonneg weights j) (Finset.mem_range.2 hi)

namespace SmoothWeights

variable {w : SmoothWeights}

theorem total_eq (w : SmoothWeights) : w.total = ∑ i ∈ range w.currents.length, w.current i :=
  sum_eq_sum_range w.currents

theorem total_eq_of_length (hlength : w.currents.length = weights.length) :
    w.total = ∑ i ∈ range weights.length, w.current i := by
  rw [total_eq, hlength]

/-! ## Winners -/

/-- No current weight is greater than the one that is chosen. -/
theorem le_of_firstBest? {xs : List Int} {i : Nat} {y : Int}
    (h : firstBest? (fun x y => decide (y < x)) xs = some (i, y)) : ∀ x ∈ xs, x ≤ y := by
  induction xs generalizing i y with
  | nil => cases h
  | cons x xs ih =>
    rw [firstBest?] at h
    rw [List.forall_mem_cons]
    cases hrest : firstBest? (fun x y => decide (y < x)) xs with
    | none =>
      rw [hrest] at h
      cases h
      have hnil := (firstBest?_eq_none_iff _ xs).1 hrest
      simp [hnil]
    | some best =>
      obtain ⟨j, z⟩ := best
      have hle : ∀ v ∈ xs, v ≤ z := ih hrest
      rw [hrest] at h
      dsimp only at h
      by_cases hlt : x < z
      · rw [if_pos (decide_eq_true hlt)] at h
        cases h
        exact ⟨hlt.le, hle⟩
      · rw [if_neg (by simpa using hlt)] at h
        cases h
        exact ⟨le_rfl, fun v hv => (hle v hv).trans (not_lt.1 hlt)⟩

theorem place?_lt (h : w.place? = some place) : place < w.currents.length := by
  obtain ⟨⟨j, y⟩, hbest, rfl⟩ := Option.map_eq_some_iff.1 h
  exact (List.getElem?_eq_some_iff.1 (getElem?_of_firstBest? hbest)).1

/-! ## A turn -/

/-- The winner pays the sum of all current weights, and everybody earns the
static weight. -/
theorem current_turn (hlength : w.currents.length = weights.length) (place : Nat)
    (hi : i < weights.length) :
    (w.turn place weights).current i =
      w.current i + weightAt weights i - if i = place then w.total else 0 := by
  have hi' : i < w.currents.length := hlength.symm ▸ hi
  by_cases h : i = place
  · subst h
    simp [current, turn, weightAt, hi, hi']
    omega
  · have h' : place ≠ i := fun heq => h heq.symm
    simp [current, turn, weightAt, hi, hi', h, h']

theorem length_turn_of_length (hlength : w.currents.length = weights.length) (place : Nat) :
    (w.turn place weights).currents.length = weights.length := by
  rw [SmoothWeights.length_turn, hlength, Nat.min_self]

/-- After a turn the current weights sum to the static ones, whatever they
summed to before. -/
theorem total_turn (hlength : w.currents.length = weights.length) (hlt : place < weights.length) :
    (w.turn place weights).total = weightSum weights := by
  have hbefore := total_eq_of_length hlength
  rw [total_eq_of_length (length_turn_of_length hlength place), weightSum_eq,
    Finset.sum_congr rfl fun i hi => current_turn hlength place (Finset.mem_range.1 hi),
    Finset.sum_sub_distrib, Finset.sum_add_distrib, Finset.sum_ite_eq' _ place,
    if_pos (Finset.mem_range.2 hlt), ← hbefore]
  omega

/-! ## Turns of winners -/

/-- The place has its turn, among places of these static weights. -/
structure Wins (w : SmoothWeights) (weights : List UInt32) (place : Nat) : Prop where
  length : w.currents.length = weights.length
  positive : ∀ x ∈ weights, 0 < x
  lt : place < weights.length
  greatest : ∀ i < weights.length, w.current i ≤ w.current place

theorem wins_of_place? (hlength : w.currents.length = weights.length)
    (hpos : ∀ x ∈ weights, 0 < x) (hplace : w.place? = some place) :
    w.Wins weights place := by
  have hlt := place?_lt hplace
  obtain ⟨⟨j, y⟩, hbest, rfl⟩ := Option.map_eq_some_iff.1 hplace
  refine ⟨hlength, hpos, hlength ▸ hlt, fun i hi => ?_⟩
  have hget := getElem?_of_firstBest? hbest
  have hi : i < w.currents.length := hlength.symm ▸ hi
  simp only [current, hget, List.getElem?_eq_getElem hi, Option.getD_some]
  exact le_of_firstBest? hbest _ (List.getElem_mem hi)

theorem place?_isSome (h : w.currents ≠ []) : ∃ place, w.place? = some place := by
  cases hbest : firstBest? (fun x y => decide (y < x)) w.currents with
  | none => exact absurd ((firstBest?_eq_none_iff _ _).1 hbest) h
  | some x => exact ⟨x.1, by simp [place?, hbest]⟩

namespace Wins

theorem sum_pos (hw : w.Wins weights place) : 0 < weightSum weights := by
  have := weightAt_pos hw.positive hw.lt
  have := weightAt_le_sum hw.lt
  omega

theorem current_turn (hw : w.Wins weights place) (hi : i < weights.length) :
    (w.turn place weights).current i =
      w.current i + weightAt weights i - if i = place then w.total else 0 :=
  SmoothWeights.current_turn hw.length place hi

theorem length_turn (hw : w.Wins weights place) :
    (w.turn place weights).currents.length = weights.length :=
  length_turn_of_length hw.length place

theorem total_turn (hw : w.Wins weights place) :
    (w.turn place weights).total = weightSum weights :=
  SmoothWeights.total_turn hw.length hw.lt

end Wins

/-! ## Debts -/

/-- What the place is short of the least that it comes to by itself. -/
def debt (w : SmoothWeights) (weights : List UInt32) (i : Nat) : Nat :=
  (floorAt weights i - w.current i).toNat

/-- What the next winner pays beyond the sum of the static weights. -/
def excess (w : SmoothWeights) (weights : List UInt32) : Nat :=
  (w.total - weightSum weights).toNat

/-- How far the current weights are from those of a rotation that has lost
no place. -/
def overdraft (w : SmoothWeights) (weights : List UInt32) : Nat :=
  ∑ i ∈ range weights.length, w.debt weights i + w.excess weights

/-- The part of the overdraft that is not the debt of the place. -/
def burden (w : SmoothWeights) (weights : List UInt32) (i : Nat) : Nat :=
  ∑ j ∈ (range weights.length).erase i, w.debt weights j + w.excess weights

theorem overdraft_eq (w : SmoothWeights) (hi : i < weights.length) :
    w.overdraft weights = w.debt weights i + w.burden weights i := by
  have hsplit := Finset.add_sum_erase (range weights.length) (w.debt weights)
    (Finset.mem_range.2 hi)
  unfold overdraft burden
  omega

theorem floorAt_le (w : SmoothWeights) (weights : List UInt32) (i : Nat) :
    floorAt weights i - w.debt weights i ≤ w.current i := by
  unfold debt
  omega

theorem sum_floorAt (weights : List UInt32) : ∑ i ∈ range weights.length, floorAt weights i =
    weightSum weights - weights.length * (weightSum weights - 1 : Int) := by
  unfold floorAt
  rw [Finset.sum_add_distrib, Finset.sum_sub_distrib, ← weightSum_eq]
  simp only [Finset.sum_const, Finset.card_range, nsmul_eq_mul]
  ring

/-- A current weight is only as great as the others let it be. -/
theorem current_le (hlength : w.currents.length = weights.length) (hi : i < weights.length) :
    w.current i ≤
      floorAt weights i + weights.length * (weightSum weights - 1 : Int) + w.burden weights i := by
  have hi := Finset.mem_range.2 hi
  have htotal := total_eq_of_length hlength
  have hcurrents := Finset.add_sum_erase (range weights.length) w.current hi
  have hfloors := Finset.add_sum_erase (range weights.length) (floorAt weights) hi
  have hothers : ∑ j ∈ (range weights.length).erase i, (floorAt weights j - w.debt weights j) ≤
      ∑ j ∈ (range weights.length).erase i, w.current j :=
    Finset.sum_le_sum fun j _ => floorAt_le w weights j
  have hexcess : w.total ≤ weightSum weights + w.excess weights := by
    unfold excess
    omega
  rw [Finset.sum_sub_distrib] at hothers
  rw [sum_floorAt] at hfloors
  unfold burden
  push_cast
  linarith

namespace Wins

/-- A place that wins without a credit sees the sum of the current weights
below its own. -/
theorem total_le (hw : w.Wins weights place) (hnone : w.current place ≤ 0) :
    w.total ≤ w.current place := by
  have htotal := total_eq_of_length hw.length
  have hsplit := Finset.add_sum_erase (range weights.length) w.current
    (Finset.mem_range.2 hw.lt)
  have hothers : ∑ j ∈ (range weights.length).erase place, w.current j ≤ 0 := by
    refine Finset.sum_nonpos fun j hj => ?_
    have hj := Finset.mem_range.1 (Finset.mem_of_mem_erase hj)
    have := hw.greatest j hj
    omega
  omega

/-- No debt grows, but for the winner's if it pays too much. -/
theorem debt_turn_le (hw : w.Wins weights place) (hi : i < weights.length) :
    (w.turn place weights).debt weights i ≤
      w.debt weights i + if i = place then w.excess weights else 0 := by
  have hturn := hw.current_turn hi
  have hnonneg := weightAt_nonneg weights i
  unfold debt excess
  split
  · rename_i h
    subst h
    rw [if_pos rfl] at hturn
    have hsum := hw.sum_pos
    have hpaid := hw.total_le
    unfold floorAt
    omega
  · rename_i h
    rw [if_neg h] at hturn
    omega

theorem excess_turn (hw : w.Wins weights place) : (w.turn place weights).excess weights = 0 := by
  unfold excess
  rw [hw.total_turn]
  omega

/-- What some places owe and the next winner pays too much is no more after a
turn: only a winner that pays too much owes more, and the next one pays the
sum of the static weights. -/
theorem sum_debt_turn_le (hw : w.Wins weights place) {s : Finset Nat}
    (hs : s ⊆ range weights.length) :
    ∑ j ∈ s, (w.turn place weights).debt weights j + (w.turn place weights).excess weights ≤
      ∑ j ∈ s, w.debt weights j + w.excess weights := by
  have hdebts : ∑ j ∈ s, (w.turn place weights).debt weights j ≤
      ∑ j ∈ s, (w.debt weights j + if j = place then w.excess weights else 0) :=
    Finset.sum_le_sum fun j hj => hw.debt_turn_le (Finset.mem_range.1 (hs hj))
  rw [Finset.sum_add_distrib, Finset.sum_ite_eq' _ place] at hdebts
  have hpaid : (if place ∈ s then w.excess weights else 0) ≤ w.excess weights := by
    split <;> omega
  have hlevel := hw.excess_turn
  omega

/-- A turn adds nothing to what weighs against a place. -/
theorem burden_turn_le (hw : w.Wins weights place) (i : Nat) :
    (w.turn place weights).burden weights i ≤ w.burden weights i :=
  hw.sum_debt_turn_le (Finset.erase_subset i _)

theorem overdraft_turn_le (hw : w.Wins weights place) :
    (w.turn place weights).overdraft weights ≤ w.overdraft weights :=
  hw.sum_debt_turn_le (Finset.Subset.refl _)

end Wins

/-! ## Runs -/

/-- Turns one after the other, each of the place that it goes to. -/
inductive Turns (weights : List UInt32) : SmoothWeights → List Nat → SmoothWeights → Prop
  | nil (w : SmoothWeights) : Turns weights w [] w
  | cons {w w' : SmoothWeights} {place : Nat} {places : List Nat} (hw : w.Wins weights place)
      (hrest : Turns weights (w.turn place weights) places w') :
      Turns weights w (place :: places) w'

namespace Turns

variable {w' : SmoothWeights} {places : List Nat}

theorem length_currents (h : Turns weights w places w')
    (hlength : w.currents.length = weights.length) : w'.currents.length = weights.length := by
  induction h with
  | nil => exact hlength
  | cons hw _ ih => exact ih hw.length_turn

/-- From static weights in sum on, a place has earned its static weight in
every turn and has paid for every turn of its own. -/
theorem current_eq (h : Turns weights w places w') (htotal : w.total = weightSum weights)
    (hi : i < weights.length) :
    w'.current i =
      w.current i + places.length * weightAt weights i - weightSum weights * places.count i := by
  induction h with
  | nil => simp
  | @cons w w' place places hw _ ih =>
    have hturn := hw.current_turn hi
    rw [ih hw.total_turn, hturn, htotal, List.length_cons, List.count_cons]
    by_cases h : place = i
    · subst h
      simp only [if_pos, BEq.rfl]
      push_cast
      ring
    · have h' : i ≠ place := fun heq => h heq.symm
      simp only [if_neg h', beq_eq_false_iff_ne.2 h]
      push_cast
      ring

theorem total_eq (h : Turns weights w places w') (htotal : w.total = weightSum weights) :
    w'.total = weightSum weights := by
  induction h with
  | nil => exact htotal
  | cons hw _ ih => exact ih hw.total_turn

/-- A place that has no turn earns its static weight all the time. -/
theorem current_of_notMem (h : Turns weights w places w') (hi : i < weights.length)
    (hnone : i ∉ places) :
    w'.current i = w.current i + places.length * weightAt weights i := by
  induction h with
  | nil => simp
  | cons hw _ ih =>
    rw [List.mem_cons, not_or] at hnone
    obtain ⟨hne, hnone⟩ := hnone
    have hturn := hw.current_turn hi
    rw [if_neg hne] at hturn
    rw [ih hnone, hturn, List.length_cons]
    push_cast
    ring

theorem burden_le (h : Turns weights w places w') (i : Nat) :
    w'.burden weights i ≤ w.burden weights i := by
  induction h with
  | nil => exact le_rfl
  | cons hw _ ih => exact ih.trans (hw.burden_turn_le i)

theorem overdraft_le (h : Turns weights w places w') :
    w'.overdraft weights ≤ w.overdraft weights := by
  induction h with
  | nil => exact le_rfl
  | cons hw _ ih => exact ih.trans hw.overdraft_turn_le

/-- A place that has no turn has not waited for a round of every place and
the overdraft. -/
theorem length_lt_of_notMem (h : Turns weights w places w')
    (hlength : w.currents.length = weights.length) (hpos : ∀ x ∈ weights, 0 < x)
    (hi : i < weights.length) (hnone : i ∉ places) :
    places.length < weights.length * weightSum weights + w.overdraft weights := by
  have hearned := h.current_of_notMem hi hnone
  have hceiling := current_le (h.length_currents hlength) hi
  have hburden := h.burden_le i
  have hfloor := floorAt_le w weights i
  have hsplit := overdraft_eq w hi
  have hweight := weightAt_pos hpos hi
  have hturns : (places.length : Int) ≤ places.length * weightAt weights i :=
    le_mul_of_one_le_right (by omega) (by omega)
  have hround : (weights.length : Int) * (weightSum weights - 1) =
      (weights.length * weightSum weights : Nat) - weights.length := by
    push_cast
    ring
  omega

end Turns

/-! ## Turns in words -/

theorem word?_eq_some {x : Int} (hx : FitsWord x) : word? x = some x :=
  if_pos hx

theorem foldlM_word? (xs : List Int) (start : Int)
    (h : ∀ k ≤ xs.length, FitsWord (start + (xs.take k).sum)) :
    xs.foldlM (fun sum x => word? (sum + x)) start = some (start + xs.sum) := by
  induction xs generalizing start with
  | nil => simp
  | cons x xs ih =>
    have hfirst : FitsWord (start + x) := by simpa using h 1 (by simp)
    have hnext := ih (start + x) fun k hk => by
      simpa [add_assoc] using h (k + 1) (by simpa using hk)
    rw [List.foldlM_cons, word?_eq_some hfirst]
    simpa [add_assoc] using hnext

theorem mapM_word? {α : Type} (f : α → Int) (xs : List α) (h : ∀ x ∈ xs, FitsWord (f x)) :
    (xs.mapM fun x => word? (f x)) = some (xs.map f) := by
  induction xs with
  | nil => rfl
  | cons x xs ih =>
    obtain ⟨hx, hxs⟩ := List.forall_mem_cons.1 h
    rw [List.mapM_cons, word?_eq_some hx, ih hxs]
    rfl

theorem sum_take_eq (w : SmoothWeights) {k : Nat} (hk : k ≤ w.currents.length) :
    (w.currents.take k).sum = ∑ i ∈ range k, w.current i := by
  rw [sum_eq_sum_range, List.length_take, Nat.min_eq_left hk]
  refine Finset.sum_congr rfl fun i hi => ?_
  simp [current, Finset.mem_range.1 hi]

theorem round_eq (weights : List UInt32) :
    ((weights.length + 1) * weightSum weights : Nat) =
      weights.length * (weightSum weights - 1 : Int) + weights.length + weightSum weights := by
  push_cast
  ring

/-- Some current weights together are not less than all debts together. -/
theorem neg_le_sum (w : SmoothWeights) {s : Finset Nat} (hs : s ⊆ range weights.length)
    (hpos : 0 < weightSum weights) :
    -(weights.length * (weightSum weights - 1 : Int) +
        ∑ i ∈ range weights.length, (w.debt weights i : Int)) ≤ ∑ i ∈ s, w.current i := by
  have hterms : ∑ i ∈ s, -((weightSum weights - 1 : Int) + w.debt weights i) ≤
      ∑ i ∈ s, w.current i := by
    refine Finset.sum_le_sum fun i _ => ?_
    have := floorAt_le w weights i
    have := weightAt_nonneg weights i
    unfold floorAt at *
    omega
  have hmore : ∑ i ∈ s, ((weightSum weights - 1 : Int) + w.debt weights i) ≤
      ∑ i ∈ range weights.length, ((weightSum weights - 1 : Int) + w.debt weights i) := by
    refine Finset.sum_le_sum_of_subset_of_nonneg hs fun i _ _ => ?_
    omega
  have hall : ∑ i ∈ range weights.length, ((weightSum weights - 1 : Int) + w.debt weights i) =
      weights.length * (weightSum weights - 1 : Int) +
        ∑ i ∈ range weights.length, (w.debt weights i : Int) := by
    rw [Finset.sum_add_distrib, Finset.sum_const, Finset.card_range, nsmul_eq_mul]
  rw [Finset.sum_neg_distrib] at hterms
  omega

namespace Wins

/-- The sums of the first current weights fit in words. -/
theorem fitsWord_sum_take (hw : w.Wins weights place)
    (hsmall : (weights.length + 1) * weightSum weights + w.overdraft weights < 2 ^ 63) {k : Nat}
    (hk : k ≤ w.currents.length) : FitsWord (w.currents.take k).sum := by
  have hpos := hw.sum_pos
  have hk' : range k ⊆ range weights.length := Finset.range_subset_range.2 (hw.length ▸ hk)
  have hlow := w.neg_le_sum hk' hpos
  have hlow' := w.neg_le_sum (Finset.sdiff_subset (s := range weights.length) (t := range k)) hpos
  have hsplit := Finset.sum_sdiff (f := w.current) hk'
  have htotal := total_eq_of_length hw.length
  have hround := round_eq weights
  rw [w.sum_take_eq hk]
  unfold FitsWord
  unfold overdraft excess at hsmall
  rw [← Nat.cast_sum] at hlow hlow'
  omega

/-- The new current weights fit in words, also before the static weights are
added. -/
theorem fitsWord_current (hw : w.Wins weights place)
    (hsmall : (weights.length + 1) * weightSum weights + w.overdraft weights < 2 ^ 63)
    (hi : i < weights.length) :
    FitsWord ((w.turn place weights).current i - weightAt weights i) ∧
      FitsWord ((w.turn place weights).current i) := by
  have hpos := hw.sum_pos
  have hfloor := floorAt_le (w.turn place weights) weights i
  have hceiling := current_le hw.length_turn hi
  have hsplit := overdraft_eq (w.turn place weights) hi
  have hshrunk := hw.overdraft_turn_le
  have hweight := weightAt_le_sum hi
  have hnonneg := weightAt_nonneg weights i
  have hround := round_eq weights
  have hrounds : 0 ≤ weights.length * (weightSum weights - 1 : Int) :=
    mul_nonneg (by omega) (by omega)
  unfold FitsWord
  unfold floorAt at hfloor hceiling
  omega

/-- A turn in words is the turn, unless weights and overdraft are beyond
them. -/
theorem turnInWords?_eq (hw : w.Wins weights place)
    (hsmall : (weights.length + 1) * weightSum weights + w.overdraft weights < 2 ^ 63) :
    w.turnInWords? place weights = some (w.turn place weights) := by
  have hplace : place < w.currents.length := hw.length.symm ▸ hw.lt
  have htotal : w.currents.foldlM (fun sum x => word? (sum + x)) 0 = some w.total := by
    rw [foldlM_word? w.currents 0 fun k hk => by
      simpa using hw.fitsWord_sum_take hsmall hk]
    simp [total, List.sum]
  have hrest : FitsWord (w.current place - w.total) := by
    have hturn := hw.current_turn hw.lt
    have hfits := (hw.fitsWord_current hsmall hw.lt).1
    rw [if_pos rfl] at hturn
    rwa [hturn, add_sub_right_comm, add_sub_cancel_right] at hfits
  have hpaid : w.currents.set place (w.current place - w.total) =
      w.currents.modify place (· - w.total) := by
    rw [List.modify_eq_set_getElem?, List.getElem?_eq_getElem hplace]
    simp [current, hplace]
  have hturn : (((w.currents.modify place (· - w.total)).zip weights).map
      fun x => x.1 + (x.2.toNat : Int)) = (w.turn place weights).currents := by
    rw [turn, ← List.map_uncurry_zip_eq_zipWith]
    rfl
  have hearned : (((w.currents.modify place (· - w.total)).zip weights).mapM
      fun x => word? (x.1 + x.2.toNat)) = some (w.turn place weights).currents := by
    rw [mapM_word? (fun x : Int × UInt32 => x.1 + (x.2.toNat : Int)), hturn]
    intro x hx
    have hmem := List.mem_map_of_mem hx (f := fun x : Int × UInt32 => x.1 + (x.2.toNat : Int))
    rw [hturn] at hmem
    obtain ⟨i, hi, heq⟩ := List.getElem_of_mem hmem
    have hfits := (hw.fitsWord_current hsmall (hw.length_turn ▸ hi)).2
    rw [current, List.getElem?_eq_getElem hi, Option.getD_some, heq] at hfits
    exact hfits
  unfold turnInWords?
  rw [htotal]
  simp only [Option.bind_eq_bind, Option.bind_some, word?_eq_some hrest, hpaid, hearned]
  rfl

end Wins

end SmoothWeights
end PooledRouting.Balancer
