import PooledRouting.Simulation.Basic

/-!
# Chance in a simulation

A dial fails if its draw falls below the failure rate.  At a rate of zero or below, and
at one that is not a number, no draw does (`happens_eq_false`), whatever the
generator: the rate is compared in units of `2 ^ -64`, and is none of them.

Powers of two are kept as they stand.  To write one out, as the kernel does when it
is asked to compare two of them, takes longer than the proof.
-/

namespace PooledRouting

namespace Binary64

theorem toWord_negative (m : Nat) (e : Int) : (finite true m e).toWord = 0 := by
  unfold toWord
  exact if_pos rfl

/-- What is rounded keeps its sign. -/
theorem round_cases (negative : Bool) (num den : Nat) :
    round negative num den = infinite negative ∨
      ∃ m e, round negative num den = finite negative m e := by
  unfold round
  split
  · exact .inr ⟨_, _, rfl⟩
  extract_lets k
  -- The power of two is not to be written out.
  generalize inUnits num den k = x, Nat.pow 2 53 = bound
  obtain ⟨a, b⟩ := x
  dsimp only
  split
  · split
    · exact .inl rfl
    · exact .inr ⟨_, _, rfl⟩
  split
  · exact .inl rfl
  · exact .inr ⟨_, _, rfl⟩

theorem toWord_round_negative (num den : Nat) : (round true num den).toWord = 0 := by
  rcases round_cases true num den with h | ⟨m, e, h⟩
  · rw [h]
    rfl
  · rw [h]
    exact toWord_negative m e

theorem inUnits_zero (den : Nat) (k : Int) : (inUnits 0 den k).1 = 0 := by
  unfold inUnits
  split
  · exact Nat.zero_mul _
  · rfl

theorem toWord_round_zero (negative : Bool) (den : Nat) : (round negative 0 den).toWord = 0 := by
  unfold round toWord
  rw [if_pos rfl]
  dsimp only
  split
  · rfl
  · rw [inUnits_zero, Nat.zero_div, Nat.zero_min]

theorem eq_zero_of_units_le {m : Nat} {e : Int} (hlow : units false m e ≤ 0) : m = 0 := by
  have hpos : 0 < Nat.pow 2 (e - minExponent).toNat := Nat.pow_pos (by decide)
  have hle : m * Nat.pow 2 (e - minExponent).toNat ≤ 0 := Int.ofNat_le.1 hlow
  exact (Nat.mul_eq_zero.1 (Nat.le_zero.1 hle)).resolve_right (Nat.ne_of_gt hpos)

end Binary64

namespace Simulation

/-- The failure rate is zero or below, or is not a number. -/
def Reliable (s : Simulation) : Prop :=
  Binary64.below Binary64.zero s.failureRate = false

theorem happens_eq_false {rate : Binary64} (hrate : Binary64.below Binary64.zero rate = false)
    (draw : UInt64) : happens rate draw = false := by
  have hone : Binary64.ofNat 1 = .finite false (Nat.pow 2 52) (-52) := by decide +kernel
  have hscale : Binary64.ofNat UInt64.size = .finite false (Nat.pow 2 52) 12 := by decide +kernel
  have hunit : (0 : Int) < Binary64.units false (Nat.pow 2 52) (-52) := by decide +kernel
  have hnever : (rate.mul (Binary64.ofNat UInt64.size)).toWord = 0 →
      Binary64.below rate (.ofNat 1) = true → happens rate draw = false := fun hword hbelow => by
    unfold happens
    rw [hword]
    simp [hbelow]
  cases rate with
  | nan negative payload => rfl
  | infinite negative =>
    cases negative with
    | true =>
      rw [hscale, hone] at hnever
      exact hnever rfl rfl
    | false => cases hrate
  | finite negative m e =>
    rw [hscale, hone] at hnever
    have hzero : Binary64.units false 0 Binary64.minExponent = 0 := by
      unfold Binary64.units
      rw [Nat.zero_mul]
      rfl
    have hlow : Binary64.units negative m e ≤ 0 := by
      have hnot : ¬Binary64.units false 0 Binary64.minExponent < Binary64.units negative m e :=
        of_decide_eq_false hrate
      omega
    refine hnever ?_ (decide_eq_true (Int.lt_of_le_of_lt hlow hunit))
    cases negative with
    | true => exact Binary64.toWord_round_negative _ _
    | false =>
      obtain rfl : m = 0 := Binary64.eq_zero_of_units_le hlow
      have hproduct : ((Binary64.finite false 0 e).mul (.finite false (Nat.pow 2 52) 12)) =
          Binary64.round false (Binary64.inUnits (0 * Nat.pow 2 52) 1 (-(e + 12))).1
            (Binary64.inUnits (0 * Nat.pow 2 52) 1 (-(e + 12))).2 := rfl
      rw [hproduct, Nat.zero_mul, Binary64.inUnits_zero]
      exact Binary64.toWord_round_zero _ _

end Simulation

end PooledRouting
