import PooledRouting.Backoff.Basic
import PooledRouting.Proofs.Binary64.Whole

/-!
# Pauses that double

With a multiplier of two, and an initial and a greatest pause that are in the
format exactly, every figure on the way to a pause is a whole number with at
most 53 bits followed by zeros.  So nothing is ever rounded, and the pause
before retry `n` is the initial one doubled `n` times, up to the greatest
(`delay_eq`).  A power that has outgrown the format is infinite, and then the
greatest pause is the lesser.

This needs an initial pause to be doubled.  Without one the product with an
infinite power is not a number, the minimum passes that over, and from retry
1024 on the greatest pause takes the place of none (`zero_delay_jumps`).

`doubling_delays` is the result.
-/

namespace PooledRouting.Backoff

variable {b : Backoff} {n : UInt32}

/-- The cap on the exponent does not show: the pause is the greatest one long
before. -/
theorem min_doubled_capped {a m k : Nat} (hm : m < 2 ^ 53) :
    min (a * 2 ^ min k exponentCap) m = min (a * 2 ^ k) m := by
  have hcap : 53 ≤ exponentCap := by decide
  rcases Nat.eq_zero_or_pos a with rfl | ha
  · simp
  rcases Nat.le_total k exponentCap with hk | hk
  · rw [Nat.min_eq_left hk]
  · have hcapped : m ≤ a * 2 ^ exponentCap :=
      calc m ≤ 2 ^ 53 := Nat.le_of_lt hm
        _ ≤ 2 ^ exponentCap := Nat.pow_le_pow_right (by decide) hcap
        _ ≤ a * 2 ^ exponentCap := Nat.le_mul_of_pos_left _ ha
    have hfull : m ≤ a * 2 ^ k :=
      Nat.le_trans hcapped (Nat.mul_le_mul_left a (Nat.pow_le_pow_right (by decide) hk))
    rw [Nat.min_eq_right hk, Nat.min_eq_right hcapped, Nat.min_eq_right hfull]

/-- The pause before retry `n` is the initial one doubled `n` times, but no
longer than the greatest.  If there is no initial pause this holds up to retry
1023, and from then on the pause is the greatest. -/
theorem delay_eq (hdouble : b.multiplier = Binary64.two) (hinitial : b.initialDelay < 2 ^ 53)
    (hmax : b.maxDelay < 2 ^ 53) (n : UInt32) :
    b.delay n =
      if b.initialDelay = 0 ∧ 1024 ≤ n.toNat then b.maxDelay
      else min (b.initialDelay * 2 ^ n.toNat) b.maxDelay := by
  have hstart := Binary64.denotes_ofNat (Binary64.short_of_lt hinitial)
  have hgreatest := Binary64.denotes_ofNat (Binary64.short_of_lt hmax)
  have hroom := Binary64.hasRoom_of_lt hmax
  have hpower := Binary64.denotes_power_two (min n.toNat exponentCap)
  have hcap : 1024 ≤ exponentCap := by decide
  have hsize : UInt64.size = 2 ^ 64 := rfl
  unfold delay grownDelay
  dsimp only
  rw [hdouble]
  split
  · rename_i hjump
    obtain ⟨hzero, hlate⟩ := hjump
    have hover : ¬Binary64.HasRoom (2 ^ min n.toNat exponentCap) := by
      rw [Binary64.hasRoom_two_pow_iff]
      omega
    rw [hzero] at hstart
    rw [hzero, (Binary64.denotes_of_not_room hover).1 hpower, hstart.mul_infinite_of_zero,
      hgreatest.least_undefined hroom, hgreatest.toWord_eq hroom]
    omega
  · rename_i hdoubled
    have hgrown : Binary64.Denotes
        ((Binary64.ofNat b.initialDelay).mul (Binary64.two.power (min n.toNat exponentCap)))
        (b.initialDelay * 2 ^ min n.toNat exponentCap) := by
      refine hstart.mul hpower (Binary64.short_shift hinitial _) (fun hzero => ?_) (fun hzero => ?_)
      · rw [Binary64.hasRoom_two_pow_iff]
        omega
      · exact absurd hzero (Nat.two_pow_pos _).ne'
    have hleast := hgrown.least hgreatest hroom
    have hsmall := hroom.mono (Nat.min_le_right (b.initialDelay * 2 ^ min n.toNat exponentCap) _)
    rw [hleast.toWord_eq hsmall, min_doubled_capped hmax]
    omega

theorem min_doubled_mono (a m : Nat) {i j : Nat} (hij : i ≤ j) :
    min (a * 2 ^ i) m ≤ min (a * 2 ^ j) m := by
  have hle : a * 2 ^ i ≤ a * 2 ^ j :=
    Nat.mul_le_mul_left a (Nat.pow_le_pow_right (by decide) hij)
  omega

/-- Without jitter, with a multiplier of two and with pauses that are in the
format exactly, the pause before retry `n` is the initial one doubled `n` times,
or the greatest one if that is less.  The pauses do not decrease and none is
longer than the greatest.  One case is apart: if there is no initial pause, the
retries up to number 1023 have none either, and all later ones have the
greatest. -/
theorem doubling_delays (b : Backoff) (hjitter : b.jitter = false)
    (hdouble : b.multiplier = Binary64.two) (hinitial : b.initialDelay < 2 ^ 53)
    (hmax : b.maxDelay < 2 ^ 53) :
    (∀ n ms, b.Admits n ms ↔ ms = b.delay n) ∧
      (∀ n, 0 < b.initialDelay ∨ n.toNat < 1024 →
        b.delay n = min (b.initialDelay * 2 ^ n.toNat) b.maxDelay) ∧
      (∀ n, b.initialDelay = 0 ∧ 1024 ≤ n.toNat → b.delay n = b.maxDelay) ∧
      (∀ i j, i ≤ j → b.delay i ≤ b.delay j) ∧ ∀ n, b.delay n ≤ b.maxDelay := by
  have hdelay := delay_eq hdouble hinitial hmax
  refine ⟨fun n ms => ?_, fun n hn => ?_, fun n hn => ?_, fun i j hij => ?_, fun n => ?_⟩
  · have hone : b.choices n = 1 := by simp [choices, hjitter]
    rw [admits_iff]
    simp only [drawnDelay, hone, Nat.mod_one, Nat.add_zero, exists_const]
    exact eq_comm
  · rw [hdelay, if_neg (by omega)]
  · rw [hdelay, if_pos hn]
  · have hle : i.toNat ≤ j.toNat := UInt32.le_iff_toNat_le.1 hij
    have hmono := min_doubled_mono b.initialDelay b.maxDelay hle
    rw [hdelay, hdelay]
    split
    · rw [if_pos (by omega)]
    · split <;> omega
  · rw [hdelay]
    split <;> omega

/-- The pauses of a schedule that starts at 100 milliseconds, up to the last
retry that can be counted. -/
theorem doubling_delays_up_to_half_a_second :
    let b : Backoff := { jitter := false, maxDelay := 500 }
    b.delay 2 = 400 ∧ b.delay 3 = 500 ∧ b.delay 0xFFFFFFFF = 500 := by
  intro b
  obtain ⟨-, hdoubled, -, hmono, hgreatest⟩ :=
    doubling_delays b rfl rfl (by decide) (by decide)
  have htwo : b.delay 2 = 400 := (hdoubled 2 (by decide)).trans (by decide)
  have hthree : b.delay 3 = 500 := (hdoubled 3 (by decide)).trans (by decide)
  have hlast : 500 ≤ b.delay 0xFFFFFFFF := by
    rw [← hthree]
    exact hmono 3 _ (by decide)
  exact ⟨htwo, hthree, Nat.le_antisymm (hgreatest _) hlast⟩

/-- Retry 1024 of a schedule without an initial pause waits for the greatest
pause, and not for none. -/
theorem zero_delay_jumps :
    let b : Backoff := { jitter := false, initialDelay := 0, maxDelay := 500 }
    b.multiplier = Binary64.two ∧ b.delay 1023 = 0 ∧ b.delay 1024 = 500 ∧
      b.delay 1024 ≠ min (b.initialDelay * 2 ^ (1024 : UInt32).toNat) b.maxDelay := by
  intro b
  have hnone : b.initialDelay = 0 := rfl
  have hearly : b.delay 1023 = 0 := by
    rw [delay_eq rfl (by decide) (by decide), if_neg (by decide), hnone, Nat.zero_mul,
      Nat.zero_min]
  have hlate : b.delay 1024 = 500 := by
    rw [delay_eq rfl (by decide) (by decide), if_pos (by decide)]
  refine ⟨rfl, hearly, hlate, ?_⟩
  rw [hlate, hnone, Nat.zero_mul, Nat.zero_min]
  decide

end PooledRouting.Backoff
