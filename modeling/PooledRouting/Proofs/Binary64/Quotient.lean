import Mathlib.Algebra.Order.Field.Basic
import Mathlib.Algebra.Order.Field.Power
import Mathlib.Algebra.Order.Ring.Rat
import Mathlib.Tactic.FieldSimp
import Mathlib.Tactic.Linarith
import PooledRouting.Proofs.Binary64.Whole

/-!
# Quotients in binary64

A finite number stands for a rational number, its `value`.  Rounding takes a
quotient to the number of the format whose value is nearest (`round_rounds`),
as long as the quotient is below the greatest power of two of the format.

The exponent that is chosen puts the mantissa between `2 ^ 52` and `2 ^ 53`,
unless it is the least exponent (`exponentOf_bounds`).  So a number with a
smaller exponent is no nearer than the mantissa `2 ^ 52`, and one with a
greater exponent has a whole mantissa in the same units; of the whole
mantissas the nearest one is taken.

Rounding therefore does not pass over a number of the format: what is on one
side of it stays there (`Rounds.value_le`, `Rounds.le_value`).  A quotient of
words of 32 bits is in the range (`rounds_ratio`).
-/

namespace PooledRouting.Binary64

variable {num den m : Nat} {e k : Int} {q : ℚ} {x y : Binary64}

/-! ## Values -/

/-- The rational number that a finite number stands for. -/
def value : Binary64 → ℚ
  | finite negative m e => (if negative then -1 else 1) * m * 2 ^ e
  | _ => 0

/-- A finite number whose mantissa and exponent are in the format. -/
def IsNumber : Binary64 → Prop
  | finite _ m e => m < 2 ^ 53 ∧ minExponent ≤ e ∧ e ≤ maxExponent
  | _ => False

theorem two_zpow_pos (k : Int) : (0 : ℚ) < 2 ^ k :=
  zpow_pos (by norm_num) k

theorem value_finite (m : Nat) (e : Int) : (finite false m e).value = m * 2 ^ e := by
  simp [value]

theorem isNumber_zero : zero.IsNumber := by
  simp [zero, IsNumber, minExponent, maxExponent]

theorem value_zero : zero.value = 0 := by
  simp [zero, value]

/-- No number of the format is nearer to the quotient. -/
structure Rounds (x : Binary64) (q : ℚ) : Prop where
  number : x.IsNumber
  nearest : ∀ y : Binary64, y.IsNumber → |x.value - q| ≤ |y.value - q|

theorem rounds_zero : zero.Rounds 0 :=
  ⟨isNumber_zero, fun y _ => by simp [value_zero]⟩

/-- A quotient that does not exceed a number is not rounded past it. -/
theorem Rounds.value_le (h : x.Rounds q) (hy : y.IsNumber) (hq : q ≤ y.value) :
    x.value ≤ y.value := by
  by_contra hpast
  have hnearest := h.nearest y hy
  rw [abs_of_nonneg (by linarith), abs_of_nonneg (by linarith)] at hnearest
  linarith

theorem Rounds.le_value (h : x.Rounds q) (hy : y.IsNumber) (hq : y.value ≤ q) :
    y.value ≤ x.value := by
  by_contra hpast
  have hnearest := h.nearest y hy
  rw [abs_of_nonpos (by linarith), abs_of_nonpos (by linarith)] at hnearest
  linarith

theorem isNumber_two_zpow (hleast : minExponent ≤ k) (hgreatest : k ≤ maxExponent) :
    (finite false 1 k).IsNumber :=
  ⟨by norm_num, hleast, hgreatest⟩

theorem value_two_zpow (k : Int) : (finite false 1 k).value = 2 ^ k := by
  rw [value_finite, Nat.cast_one, one_mul]

theorem Rounds.nonneg (h : x.Rounds q) (hq : 0 ≤ q) : 0 ≤ x.value := by
  have hlow := h.le_value isNumber_zero
  rw [value_zero] at hlow
  exact hlow hq

theorem Rounds.le_one (h : x.Rounds q) (hq : q ≤ 1) : x.value ≤ 1 := by
  have hhigh := h.value_le (isNumber_two_zpow (k := 0) (by decide) (by decide))
  rw [value_two_zpow, zpow_zero] at hhigh
  exact hhigh hq

/-- What is not below the least number of the format is not rounded to zero. -/
theorem Rounds.pos (h : x.Rounds q) (hleast : minExponent ≤ k) (hgreatest : k ≤ maxExponent)
    (hq : 2 ^ k ≤ q) : 0 < x.value := by
  have hlow := h.le_value (isNumber_two_zpow hleast hgreatest)
  rw [value_two_zpow] at hlow
  exact (two_zpow_pos k).trans_le (hlow hq)

/-! ## The nearest whole number -/

theorem abs_nearest_sub_le_half (num : Nat) (hden : 0 < den) :
    |(nearest num den : ℚ) - num / den| ≤ 1 / 2 := by
  have hpos : (0 : ℚ) < den := Nat.cast_pos.2 hden
  have hsplit := Nat.div_add_mod num den
  have hrest := Nat.mod_lt num hden
  have hbounds : 2 * (nearest num den * den) ≤ 2 * num + den ∧
      2 * num ≤ 2 * (nearest num den * den) + den := by
    have hnext : (num / den + 1) * den = den * (num / den) + den := by ring
    unfold nearest
    dsimp only
    split
    · rw [Nat.mul_comm (num / den)]
      omega
    split
    · omega
    split
    · rw [Nat.mul_comm (num / den)]
      omega
    · omega
  obtain ⟨hupper, hlower⟩ := hbounds
  have hupper' : 2 * ((nearest num den : ℚ) * den) ≤ 2 * num + den := by exact_mod_cast hupper
  have hlower' : 2 * (num : ℚ) ≤ 2 * ((nearest num den : ℚ) * den) + den := by
    exact_mod_cast hlower
  rw [abs_le]
  constructor
  · rw [le_sub_iff_add_le, ← le_sub_iff_add_le', div_le_iff₀ hpos]
    linarith
  · rw [sub_le_iff_le_add, ← sub_le_iff_le_add', le_div_iff₀ hpos]
    linarith

/-- No whole number is nearer to the quotient. -/
theorem abs_nearest_sub_le (num : Nat) (hden : 0 < den) (j : ℤ) :
    |(nearest num den : ℚ) - num / den| ≤ |(j : ℚ) - num / den| := by
  by_cases hsame : j = nearest num den
  · rw [hsame, Int.cast_natCast]
  have hhalf := abs_nearest_sub_le_half num hden
  have hapart : (1 : ℚ) ≤ |(j : ℚ) - nearest num den| := by
    exact_mod_cast Int.one_le_abs (sub_ne_zero.2 hsame)
  have htriangle := abs_sub_le (j : ℚ) (num / den) (nearest num den)
  rw [abs_sub_comm ((num : ℚ) / den)] at htriangle
  linarith

/-! ## The exponent -/

theorem two_zpow_eq (k : Int) : (2 : ℚ) ^ k = 2 ^ k.toNat / 2 ^ (-k).toNat := by
  rcases Int.le_total 0 k with hk | hk
  · obtain ⟨n, rfl⟩ := Int.eq_ofNat_of_zero_le hk
    simp
  · obtain ⟨n, hn⟩ := Int.eq_ofNat_of_zero_le (Int.neg_nonneg_of_nonpos hk)
    obtain rfl : k = -(n : Int) := by omega
    simp

theorem inUnits_div (num den : Nat) (k : Int) :
    ((inUnits num den k).1 : ℚ) / (inUnits num den k).2 = num / den / 2 ^ k := by
  rw [inUnits_eq, two_zpow_eq]
  push_cast
  field_simp

theorem inUnits_pos (num : Nat) (hden : den ≠ 0) (k : Int) : 0 < (inUnits num den k).2 := by
  rw [inUnits_eq]
  exact Nat.mul_pos (Nat.pos_of_ne_zero hden) (Nat.two_pow_pos _)

/-- A quotient by the number of bits of its two parts. -/
theorem log2_bounds (hnum : num ≠ 0) (hden : den ≠ 0) :
    (2 : ℚ) ^ ((num.log2 : Int) - den.log2 - 1) < num / den ∧
      (num : ℚ) / den < 2 ^ ((num.log2 : Int) - den.log2 + 1) := by
  have hpos : (0 : ℚ) < den := Nat.cast_pos.2 (Nat.pos_of_ne_zero hden)
  have htwo : (2 : ℚ) ≠ 0 := by norm_num
  have hnumLow : (2 : ℚ) ^ (num.log2 : Int) ≤ num := by
    exact_mod_cast Nat.log2_self_le hnum
  have hnumHigh : (num : ℚ) < 2 ^ ((num.log2 : Int) + 1) := by
    exact_mod_cast Nat.lt_log2_self
  have hdenLow : (2 : ℚ) ^ (den.log2 : Int) ≤ den := by
    exact_mod_cast Nat.log2_self_le hden
  have hdenHigh : (den : ℚ) < 2 ^ ((den.log2 : Int) + 1) := by
    exact_mod_cast Nat.lt_log2_self
  constructor
  · rw [lt_div_iff₀ hpos]
    calc (2 : ℚ) ^ ((num.log2 : Int) - den.log2 - 1) * den
        < 2 ^ ((num.log2 : Int) - den.log2 - 1) * 2 ^ ((den.log2 : Int) + 1) :=
          mul_lt_mul_of_pos_left hdenHigh (two_zpow_pos _)
      _ = 2 ^ (num.log2 : Int) := by
          rw [← zpow_add₀ htwo]
          congr 1
          omega
      _ ≤ num := hnumLow
  · rw [div_lt_iff₀ hpos]
    calc (num : ℚ) < 2 ^ ((num.log2 : Int) + 1) := hnumHigh
      _ = 2 ^ ((num.log2 : Int) - den.log2 + 1) * 2 ^ (den.log2 : Int) := by
          rw [← zpow_add₀ htwo]
          congr 1
          omega
      _ ≤ 2 ^ ((num.log2 : Int) - den.log2 + 1) * den :=
          mul_le_mul_of_nonneg_left hdenLow (two_zpow_pos _).le

/-- With the exponent that is chosen the mantissa has at most 53 bits, and no
fewer unless the exponent is the least one. -/
theorem exponentOf_bounds (hnum : num ≠ 0) (hden : den ≠ 0) :
    minExponent ≤ exponentOf num den ∧ (num : ℚ) / den < 2 ^ (exponentOf num den + 53) ∧
      (exponentOf num den = minExponent ∨ (2 : ℚ) ^ (exponentOf num den + 52) ≤ num / den) := by
  have htwo : (1 : ℚ) ≤ 2 := by norm_num
  obtain ⟨hlow, hhigh⟩ := log2_bounds hnum hden
  obtain ⟨d, hd⟩ : ∃ d, d = (num.log2 : Int) - den.log2 := ⟨_, rfl⟩
  rw [← hd] at hlow hhigh
  have hguess : ((inUnits num den (d - 52)).1 < (inUnits num den (d - 52)).2 * Nat.pow 2 52) ↔
      (num : ℚ) / den < 2 ^ d := by
    have hpos : (0 : ℚ) < (inUnits num den (d - 52)).2 := Nat.cast_pos.2 (inUnits_pos num hden _)
    rw [← Nat.cast_lt (α := ℚ), Nat.cast_mul, ← div_lt_iff₀' hpos, inUnits_div,
      div_lt_iff₀ (two_zpow_pos _), Nat.pow_eq, Nat.cast_pow, Nat.cast_two, ← zpow_natCast,
      ← zpow_add₀ (by norm_num)]
    norm_num
  have hchosen : exponentOf num den =
      max (if (num : ℚ) / den < 2 ^ d then d - 53 else d - 52) minExponent := by
    unfold exponentOf
    dsimp only
    rw [← hd]
    simp only [hguess]
    congr 2
    omega
  obtain ⟨c, hc⟩ : ∃ c, c = if (num : ℚ) / den < 2 ^ d then d - 53 else d - 52 := ⟨_, rfl⟩
  have hbits : (num : ℚ) / den < 2 ^ (c + 53) ∧ (2 : ℚ) ^ (c + 52) ≤ num / den := by
    rw [hc]
    split
    · rename_i hless
      rw [show d - 53 + 53 = d by omega, show d - 53 + 52 = d - 1 by omega]
      exact ⟨hless, hlow.le⟩
    · rename_i hmore
      rw [show d - 52 + 53 = d + 1 by omega, show d - 52 + 52 = d by omega]
      exact ⟨hhigh, not_lt.1 hmore⟩
  rw [hchosen, ← hc]
  refine ⟨le_max_right _ _, hbits.1.trans_le ?_, ?_⟩
  · exact zpow_le_zpow_right₀ htwo (by omega)
  · rcases le_total minExponent c with hle | hle
    · rw [max_eq_left hle]
      exact .inr hbits.2
    · exact .inl (max_eq_right hle)

/-! ## Rounding -/

theorem round_zero (den : Nat) : round false 0 den = zero :=
  if_pos rfl

/-- The mantissa that is taken with the exponent that is chosen. -/
def mantissaOf (num den : Nat) : Nat :=
  nearest (inUnits num den (exponentOf num den)).1 (inUnits num den (exponentOf num den)).2

theorem abs_mantissaOf_sub_le (num : Nat) (hden : den ≠ 0) (j : ℤ) :
    |(mantissaOf num den : ℚ) * 2 ^ exponentOf num den - num / den| ≤
      |(j : ℚ) * 2 ^ exponentOf num den - num / den| := by
  have hpos := two_zpow_pos (exponentOf num den)
  have hscale : ∀ t : ℚ, |t * 2 ^ exponentOf num den - num / den| =
      |t - num / den / 2 ^ exponentOf num den| * 2 ^ exponentOf num den := by
    intro t
    rw [← abs_of_pos hpos, ← abs_mul, abs_of_pos hpos, sub_mul, div_mul_cancel₀ _ hpos.ne']
  rw [hscale, hscale, ← inUnits_div]
  exact mul_le_mul_of_nonneg_right (abs_nearest_sub_le _ (inUnits_pos num hden _) j) hpos.le

theorem mantissaOf_le (hnum : num ≠ 0) (hden : den ≠ 0) : mantissaOf num den ≤ 2 ^ 53 := by
  obtain ⟨-, hbits, -⟩ := exponentOf_bounds hnum hden
  have hhalf := abs_nearest_sub_le_half (inUnits num den (exponentOf num den)).1
    (inUnits_pos num hden (exponentOf num den))
  have hquotient : (num : ℚ) / den / 2 ^ exponentOf num den < 2 ^ 53 := by
    rw [div_lt_iff₀ (two_zpow_pos _), ← zpow_natCast, ← zpow_add₀ (by norm_num), add_comm]
    exact hbits
  rw [inUnits_div, abs_le] at hhalf
  have hlt : (mantissaOf num den : ℚ) < 2 ^ 53 + 1 := by
    unfold mantissaOf
    linarith
  exact Nat.lt_succ_iff.1 (by exact_mod_cast hlt)

/-- Below the greatest power of two of the format a quotient is rounded to a
number of the format. -/
theorem round_number (hnum : num ≠ 0) (hden : den ≠ 0)
    (hsmall : (num : ℚ) / den < 2 ^ (maxExponent + 52)) :
    (round false num den).IsNumber ∧
      (round false num den).value = mantissaOf num den * 2 ^ exponentOf num den := by
  obtain ⟨hleast, -, hbits⟩ := exponentOf_bounds hnum hden
  have hroom : exponentOf num den < maxExponent := by
    rcases hbits with hmin | hbits
    · rw [hmin]
      decide
    · have hlt := (zpow_lt_zpow_iff_right₀ (by norm_num : (1 : ℚ) < 2)).1 (hbits.trans_lt hsmall)
      omega
  have hround : round false num den =
      if mantissaOf num den = 2 ^ 53 then finite false (2 ^ 52) (exponentOf num den + 1)
      else finite false (mantissaOf num den) (exponentOf num den) := by
    unfold round mantissaOf
    rw [if_neg hnum]
    -- The exponent and the units are not to be unfolded, nor the powers of two in them.
    generalize exponentOf num den = k at hroom ⊢
    extract_lets k'
    generalize inUnits num den k' = units
    obtain ⟨a, b⟩ := units
    dsimp only
    rw [if_neg (show ¬k + 1 > maxExponent by omega), if_neg (show ¬k > maxExponent by omega),
      Nat.pow_eq, Nat.pow_eq]
  rw [hround]
  split
  · rename_i hfull
    refine ⟨⟨by norm_num, by omega, by omega⟩, ?_⟩
    rw [value_finite, hfull, zpow_add_one₀ (by norm_num)]
    push_cast
    ring
  · rename_i hfits
    have hle := mantissaOf_le hnum hden
    exact ⟨⟨by omega, hleast, by omega⟩, value_finite _ _⟩

/-- A number of the format is whole in units of a smaller power of two. -/
theorem exists_units (negative : Bool) (hk : k ≤ e) :
    ∃ j : ℤ, (finite negative m e).value = j * 2 ^ k := by
  obtain ⟨n, hn⟩ := Int.eq_ofNat_of_zero_le (Int.sub_nonneg_of_le hk)
  obtain rfl : e = n + k := by omega
  refine ⟨(if negative then -1 else 1) * m * 2 ^ n, ?_⟩
  rw [value, zpow_add₀ (by norm_num), zpow_natCast]
  push_cast
  split <;> ring

theorem value_le_two_zpow (negative : Bool) (hm : m < 2 ^ 53) :
    (finite negative m e).value ≤ 2 ^ (e + 53) := by
  have hpos := two_zpow_pos e
  have hsize : (m : ℚ) * 2 ^ e ≤ 2 ^ (e + 53) := by
    have hmantissa : (m : ℚ) ≤ 2 ^ 53 := by exact_mod_cast hm.le
    rw [add_comm, zpow_add₀ (by norm_num)]
    exact mul_le_mul_of_nonneg_right hmantissa hpos.le
  cases negative with
  | false => rwa [value_finite]
  | true =>
    have hnonneg : (0 : ℚ) ≤ m * 2 ^ e := by positivity
    have hvalue : (finite true m e).value = -(m * 2 ^ e) := by simp [value]
    rw [hvalue]
    linarith

/-- A quotient is rounded to the nearest number of the format. -/
theorem round_rounds (hden : den ≠ 0) (hsmall : (num : ℚ) / den < 2 ^ (maxExponent + 52)) :
    (round false num den).Rounds (num / den) := by
  by_cases hnum : num = 0
  · subst hnum
    rw [round_zero, Nat.cast_zero, zero_div]
    exact rounds_zero
  obtain ⟨hnumber, hvalue⟩ := round_number hnum hden hsmall
  refine ⟨hnumber, fun y hy => ?_⟩
  rw [hvalue]
  match y, hy with
  | finite negative m e, ⟨hm, he, _⟩ =>
    rcases le_or_gt (exponentOf num den) e with hgreater | hsmaller
    · obtain ⟨j, hj⟩ := exists_units (m := m) negative hgreater
      rw [hj]
      exact abs_mantissaOf_sub_le num hden j
    · -- The other number is below `2 ^ 52` units, which the quotient is not.
      obtain ⟨-, -, hbits⟩ := exponentOf_bounds hnum hden
      have hfull := hbits.resolve_left (by omega)
      have hbelow : (finite negative m e).value ≤ 2 ^ (exponentOf num den + 52) :=
        (value_le_two_zpow negative hm).trans (zpow_le_zpow_right₀ (by norm_num) (by omega))
      have hunits : (((2 ^ 52 : ℤ) : ℚ)) * 2 ^ exponentOf num den =
          2 ^ (exponentOf num den + 52) := by
        rw [add_comm, zpow_add₀ (by norm_num)]
        norm_num
      have hnearest := abs_mantissaOf_sub_le num hden (2 ^ 52)
      rw [hunits, abs_of_nonpos (sub_nonpos.2 hfull)] at hnearest
      refine hnearest.trans ?_
      rw [abs_of_nonpos (sub_nonpos.2 (hbelow.trans hfull))]
      linarith

/-! ## Quotients of words -/

/-- A quotient of words is in the range of the format. -/
theorem rounds_ratio (hnum : num < UInt32.size) (hden : den ≠ 0) :
    (ratio num den).Rounds (num / den) := by
  refine round_rounds hden ?_
  have hone : (1 : ℚ) ≤ den := Nat.one_le_cast.2 (Nat.pos_of_ne_zero hden)
  have hword : (num : ℚ) < 2 ^ (32 : Int) := by exact_mod_cast hnum
  calc (num : ℚ) / den ≤ num := div_le_self (Nat.cast_nonneg num) hone
    _ < 2 ^ (32 : Int) := hword
    _ ≤ 2 ^ (maxExponent + 52) := zpow_le_zpow_right₀ (by norm_num) (by decide)

end PooledRouting.Binary64
