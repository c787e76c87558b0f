import Mathlib.Data.Nat.Log
import Mathlib.Tactic.Ring
import PooledRouting.Binary64.Arithmetic

/-!
# Whole numbers in binary64

A whole number that is *short*, which is to say one of at most 53 bits
followed by zeros, is in the format exactly, as long as it has no more than
1024 bits (`HasRoom`); a longer one turns into infinity.  `Denotes` says that a
number of the format stands for a whole number in this sense.

There are three groups.

* What a mantissa and an exponent stand for (`Stands`), free of division and
  of negative powers: one of the two powers of two is always one.
* Rounding a short number is exact (`denotes_round`).  It is one lemma for
  every operation, since each of them rounds one exact quotient.
* The operations: a product of two numbers stands for the product, and so
  for powers of two, minima and words.  Zero times a number without room is
  the one product that is not covered, and `mul_infinite_of_zero` says what
  it is.

The room is counted in bits, since a power of two of that size is not to be
written out.
-/

namespace PooledRouting.Binary64

/-! ## Mantissas and exponents -/

/-- `m * 2 ^ e` is the whole number `v`. -/
def Stands (m : Nat) (e : Int) (v : Nat) : Prop :=
  m * 2 ^ e.toNat = v * 2 ^ (-e).toNat

variable {m n u v : Nat} {e f : Int} {x y : Binary64}

theorem Stands.eq_zero_iff (h : Stands m e v) : m = 0 ↔ v = 0 := by
  unfold Stands at h
  have hleft : 0 < 2 ^ e.toNat := Nat.two_pow_pos _
  have hright : 0 < 2 ^ (-e).toNat := Nat.two_pow_pos _
  constructor
  · rintro rfl
    rw [Nat.zero_mul] at h
    simpa using h.symm
  · rintro rfl
    rw [Nat.zero_mul] at h
    simpa using h

theorem inUnits_eq (num den : Nat) (k : Int) :
    inUnits num den k = (num * 2 ^ (-k).toNat, den * 2 ^ k.toNat) := by
  unfold inUnits
  split
  · rename_i hneg
    have hbits : k.natAbs = (-k).toNat := by omega
    have hnone : k.toNat = 0 := by omega
    simp [hbits, hnone]
  · rename_i hneg
    have hbits : k.natAbs = k.toNat := by omega
    have hnone : (-k).toNat = 0 := by omega
    simp [hbits, hnone]

/-- A product in units, as a quotient by a power of two. -/
theorem Stands.mul (hm : Stands m e u) (hn : Stands n f v) :
    m * n * 2 ^ (e + f).toNat = u * v * 2 ^ (-(e + f)).toNat := by
  unfold Stands at hm hn
  -- The two sides differ by powers that the factors and the product split differently.
  have hsplit : (e + f).toNat + ((-e).toNat + (-f).toNat) =
      (-(e + f)).toNat + (e.toNat + f.toNat) := by omega
  have hpos : 0 < 2 ^ ((-e).toNat + (-f).toNat) := Nat.two_pow_pos _
  refine Nat.eq_of_mul_eq_mul_right hpos ?_
  calc m * n * 2 ^ (e + f).toNat * 2 ^ ((-e).toNat + (-f).toNat)
      = m * n * 2 ^ ((e + f).toNat + ((-e).toNat + (-f).toNat)) := by
        rw [Nat.mul_assoc, ← Nat.pow_add]
    _ = m * n * 2 ^ ((-(e + f)).toNat + (e.toNat + f.toNat)) := by rw [hsplit]
    _ = (m * 2 ^ e.toNat) * (n * 2 ^ f.toNat) * 2 ^ (-(e + f)).toNat := by
        rw [Nat.pow_add, Nat.pow_add]
        ring
    _ = (u * 2 ^ (-e).toNat) * (v * 2 ^ (-f).toNat) * 2 ^ (-(e + f)).toNat := by rw [hm, hn]
    _ = u * v * 2 ^ (-(e + f)).toNat * 2 ^ ((-e).toNat + (-f).toNat) := by
        rw [Nat.pow_add]
        ring

/-- Counted in the least unit of the format, numbers are in the ratio of what
they stand for. -/
theorem Stands.units_eq (h : Stands m e v) (hleast : minExponent ≤ e) :
    units false m e = ((v * 2 ^ minExponent.natAbs : Nat) : Int) := by
  unfold Stands at h
  have hmin : minExponent = -1074 := rfl
  obtain ⟨least, hleast⟩ : ∃ least, least = minExponent.natAbs := ⟨_, rfl⟩
  have hbits : (e - minExponent).toNat = e.toNat + (least - (-e).toNat) := by omega
  have hwhole : (-e).toNat + (least - (-e).toNat) = least := by omega
  have heq : m * 2 ^ (e - minExponent).toNat = v * 2 ^ least :=
    calc m * 2 ^ (e - minExponent).toNat
        = m * 2 ^ e.toNat * 2 ^ (least - (-e).toNat) := by
          rw [hbits, Nat.pow_add, Nat.mul_assoc]
      _ = v * (2 ^ (-e).toNat * 2 ^ (least - (-e).toNat)) := by rw [h, Nat.mul_assoc]
      _ = v * 2 ^ least := by rw [← Nat.pow_add, hwhole]
  unfold units
  simp only [Bool.false_eq_true, if_false, Nat.pow_eq, heq, ← hleast]

/-! ## Short numbers -/

theorem log2_mul_two_pow (hpos : v ≠ 0) (s : Nat) : (v * 2 ^ s).log2 = v.log2 + s := by
  refine (Nat.log2_eq_iff (Nat.mul_ne_zero hpos (Nat.two_pow_pos s).ne')).2 ⟨?_, ?_⟩
  · rw [Nat.pow_add]
    exact Nat.mul_le_mul_right _ (Nat.log2_self_le hpos)
  · rw [Nat.add_right_comm, Nat.pow_add]
    exact Nat.mul_lt_mul_of_pos_right Nat.lt_log2_self (Nat.two_pow_pos _)

/-- The number has at most 53 bits, and then zeros. -/
def Short (v : Nat) : Prop :=
  ∃ c t, c < 2 ^ 53 ∧ v = c * 2 ^ t

theorem short_of_lt (h : v < 2 ^ 53) : Short v :=
  ⟨v, 0, h, by simp⟩

theorem short_shift (h : v < 2 ^ 53) (t : Nat) : Short (v * 2 ^ t) :=
  ⟨v, t, h, rfl⟩

theorem short_two_pow (t : Nat) : Short (2 ^ t) :=
  ⟨1, t, by decide, by simp⟩

/-- All but the first 53 bits of a short number are zero. -/
theorem Short.dvd (h : Short v) (hpos : v ≠ 0) : 2 ^ (v.log2 - 52) ∣ v := by
  obtain ⟨c, t, hc, rfl⟩ := h
  have hne : c ≠ 0 := by
    rintro rfl
    simp at hpos
  have hbits : c.log2 < 53 := (Nat.log2_lt hne).2 hc
  have hlog := log2_mul_two_pow hne t
  exact Dvd.dvd.mul_left (Nat.pow_dvd_pow 2 (by omega)) c

/-- The number has at most 1024 bits. -/
def HasRoom (v : Nat) : Prop :=
  v.log2 < 1024

instance (v : Nat) : Decidable (HasRoom v) :=
  inferInstanceAs (Decidable (_ < _))

theorem hasRoom_zero : HasRoom 0 := by
  simp [HasRoom]

theorem hasRoom_two_pow_iff (k : Nat) : HasRoom (2 ^ k) ↔ k < 1024 := by
  simp [HasRoom]

theorem HasRoom.mono (h : HasRoom v) (hle : u ≤ v) : HasRoom u := by
  unfold HasRoom at *
  rw [Nat.log2_eq_log_two] at *
  exact Nat.lt_of_le_of_lt (Nat.log_mono_right hle) h

theorem hasRoom_of_lt (h : v < 2 ^ 53) : HasRoom v :=
  ((hasRoom_two_pow_iff 53).2 (by decide)).mono (Nat.le_of_lt h)

/-- The number stands for the whole number, which is infinite if it has no
room in the format. -/
def Denotes (x : Binary64) (v : Nat) : Prop :=
  if HasRoom v then ∃ m e, x = finite false m e ∧ minExponent ≤ e ∧ Stands m e v
  else x = infinite false

theorem denotes_of_room (h : HasRoom v) :
    Denotes x v ↔ ∃ m e, x = finite false m e ∧ minExponent ≤ e ∧ Stands m e v := by
  rw [Denotes, if_pos h]

theorem denotes_of_not_room (h : ¬HasRoom v) : Denotes x v ↔ x = infinite false := by
  rw [Denotes, if_neg h]

/-! ## Rounding -/

/-- The exponent of a whole number that is given over a power of two. -/
theorem exponentOf_eq (hpos : v ≠ 0) (s : Nat) :
    exponentOf (v * 2 ^ s) (2 ^ s) = (v.log2 : Int) - 52 := by
  have hnum : (v * 2 ^ s).log2 = v.log2 + s := log2_mul_two_pow hpos s
  have hden : (2 ^ s).log2 = s := Nat.log2_two_pow
  have hmin : minExponent = -1074 := rfl
  unfold exponentOf
  dsimp only
  rw [hnum, hden, show ((v.log2 + s : Nat) : Int) - (s : Int) - 52 = (v.log2 : Int) - 52 by omega,
    inUnits_eq]
  dsimp only
  -- The quotient is past the least mantissa of 53 bits already.
  have hbig : 2 ^ s * 2 ^ ((v.log2 : Int) - 52).toNat * Nat.pow 2 52 ≤
      v * 2 ^ s * 2 ^ (-((v.log2 : Int) - 52)).toNat :=
    calc 2 ^ s * 2 ^ ((v.log2 : Int) - 52).toNat * Nat.pow 2 52
        = 2 ^ s * 2 ^ (((v.log2 : Int) - 52).toNat + 52) := by
          rw [Nat.mul_assoc, Nat.pow_eq, ← Nat.pow_add]
      _ = 2 ^ s * 2 ^ (v.log2 + (-((v.log2 : Int) - 52)).toNat) := by
          rw [show ((v.log2 : Int) - 52).toNat + 52 =
            v.log2 + (-((v.log2 : Int) - 52)).toNat by omega]
      _ = 2 ^ v.log2 * 2 ^ s * 2 ^ (-((v.log2 : Int) - 52)).toNat := by
          rw [Nat.pow_add]
          ring
      _ ≤ v * 2 ^ s * 2 ^ (-((v.log2 : Int) - 52)).toNat :=
          Nat.mul_le_mul_right _ (Nat.mul_le_mul_right _ (Nat.log2_self_le hpos))
  rw [if_neg (Nat.not_lt.2 hbig)]
  omega

/-- The mantissa of a short number: what is left without its last zeros. -/
theorem Short.exists_mantissa (h : Short v) (hpos : v ≠ 0) :
    ∃ m < 2 ^ 53, Stands m ((v.log2 : Int) - 52) v := by
  unfold Stands
  have hlog : v < 2 ^ (v.log2 + 1) := Nat.lt_log2_self
  rcases Nat.le_total v.log2 52 with hsmall | hlarge
  · refine ⟨v * 2 ^ (52 - v.log2), ?_, ?_⟩
    · calc v * 2 ^ (52 - v.log2) < 2 ^ (v.log2 + 1) * 2 ^ (52 - v.log2) :=
            Nat.mul_lt_mul_of_pos_right hlog (Nat.two_pow_pos _)
        _ = 2 ^ 53 := by rw [← Nat.pow_add, show v.log2 + 1 + (52 - v.log2) = 53 by omega]
    · have hnone : ((v.log2 : Int) - 52).toNat = 0 := by omega
      have hzeros : (-((v.log2 : Int) - 52)).toNat = 52 - v.log2 := by omega
      rw [hnone, hzeros, Nat.pow_zero, Nat.mul_one]
  · obtain ⟨m, hm⟩ := h.dvd hpos
    have hnone : (-((v.log2 : Int) - 52)).toNat = 0 := by omega
    have hzeros : ((v.log2 : Int) - 52).toNat = v.log2 - 52 := by omega
    refine ⟨m, ?_, ?_⟩
    · refine Nat.lt_of_mul_lt_mul_left (a := 2 ^ (v.log2 - 52)) ?_
      rw [← hm, ← Nat.pow_add, show v.log2 - 52 + 53 = v.log2 + 1 by omega]
      exact hlog
    · rw [hnone, hzeros, Nat.pow_zero, Nat.mul_one, Nat.mul_comm, ← hm]

/-- A short number is rounded to itself. -/
theorem denotes_round (h : Short v) (s : Nat) : Denotes (round false (v * 2 ^ s) (2 ^ s)) v := by
  by_cases hzero : v = 0
  · subst hzero
    rw [denotes_of_room hasRoom_zero]
    refine ⟨0, minExponent, ?_, Int.le_refl _, by simp [Stands]⟩
    simp [round]
  obtain ⟨m, hm, hstands⟩ := h.exists_mantissa hzero
  have hnum : v * 2 ^ s ≠ 0 := Nat.mul_ne_zero hzero (Nat.two_pow_pos s).ne'
  have hunits : inUnits (v * 2 ^ s) (2 ^ s) ((v.log2 : Int) - 52) =
      (m * (2 ^ s * 2 ^ ((v.log2 : Int) - 52).toNat),
        2 ^ s * 2 ^ ((v.log2 : Int) - 52).toNat) := by
    unfold Stands at hstands
    rw [inUnits_eq, Nat.mul_right_comm, ← hstands]
    congr 1
    ring
  have hden : 0 < 2 ^ s * 2 ^ ((v.log2 : Int) - 52).toNat :=
    Nat.mul_pos (Nat.two_pow_pos _) (Nat.two_pow_pos _)
  have hnearest : nearest (m * (2 ^ s * 2 ^ ((v.log2 : Int) - 52).toNat))
      (2 ^ s * 2 ^ ((v.log2 : Int) - 52).toNat) = m := by
    rw [nearest_of_dvd hden (Nat.dvd_mul_left _ _), Nat.mul_div_cancel _ hden]
  have hround : round false (v * 2 ^ s) (2 ^ s) =
      if (v.log2 : Int) - 52 > maxExponent then infinite false
      else finite false m ((v.log2 : Int) - 52) := by
    unfold round
    rw [if_neg hnum, exponentOf_eq hzero]
    dsimp only
    rw [hunits]
    dsimp only
    rw [hnearest, if_neg (show m ≠ Nat.pow 2 53 from Nat.ne_of_lt hm)]
  have hmax : maxExponent = 971 := rfl
  have hmin : minExponent = -1074 := rfl
  rw [hround]
  by_cases hroom : HasRoom v
  · rw [denotes_of_room hroom]
    unfold HasRoom at hroom
    rw [if_neg (by omega)]
    exact ⟨m, _, rfl, by omega, hstands⟩
  · rw [denotes_of_not_room hroom]
    unfold HasRoom at hroom
    rw [if_pos (by omega)]

/-- A short number in the format stands for itself. -/
theorem denotes_ofNat (h : Short v) : Denotes (ofNat v) v := by
  simpa [ofNat] using denotes_round h 0

/-! ## Operations -/

/-- A product stands for the product of whole numbers, unless one of them is
zero and the other one has no room in the format. -/
theorem Denotes.mul (hx : Denotes x u) (hy : Denotes y v) (hshort : Short (u * v))
    (hleft : u = 0 → HasRoom v) (hright : v = 0 → HasRoom u) : Denotes (x.mul y) (u * v) := by
  by_cases hu : HasRoom u
  · obtain ⟨m, e, rfl, -, hm⟩ := (denotes_of_room hu).1 hx
    by_cases hv : HasRoom v
    · obtain ⟨n, f, rfl, -, hn⟩ := (denotes_of_room hv).1 hy
      have hproduct : (finite false m e).mul (finite false n f) =
          round false (u * v * 2 ^ (-(e + f)).toNat) (2 ^ (-(e + f)).toNat) := by
        simp [Binary64.mul, inUnits_eq, hm.mul hn]
      rw [hproduct]
      exact denotes_round hshort _
    · obtain rfl := (denotes_of_not_room hv).1 hy
      have hpos : u ≠ 0 := fun hzero => hv (hleft hzero)
      have hne : m ≠ 0 := mt hm.eq_zero_iff.1 hpos
      have hgrown : ¬HasRoom (u * v) := fun hroom =>
        hv (hroom.mono (Nat.le_mul_of_pos_left v (Nat.pos_of_ne_zero hpos)))
      rw [denotes_of_not_room hgrown]
      simp [Binary64.mul, hne]
  · obtain rfl := (denotes_of_not_room hu).1 hx
    have hpos : v ≠ 0 := fun hzero => hu (hright hzero)
    have hgrown : ¬HasRoom (u * v) := fun hroom =>
      hu (hroom.mono (Nat.le_mul_of_pos_right u (Nat.pos_of_ne_zero hpos)))
    rw [denotes_of_not_room hgrown]
    by_cases hv : HasRoom v
    · obtain ⟨n, f, rfl, -, hn⟩ := (denotes_of_room hv).1 hy
      have hne : n ≠ 0 := mt hn.eq_zero_iff.1 hpos
      simp [Binary64.mul, hne]
    · obtain rfl := (denotes_of_not_room hv).1 hy
      rfl

/-- Zero times a number without room in the format is not a number. -/
theorem Denotes.mul_infinite_of_zero (hx : Denotes x 0) : x.mul (infinite false) = undefined := by
  obtain ⟨m, e, rfl, -, hm⟩ := (denotes_of_room hasRoom_zero).1 hx
  have hzero : m = 0 := hm.eq_zero_iff.2 rfl
  simp [Binary64.mul, hzero]

theorem Denotes.mul_two_pow {i j : Nat} (hx : Denotes x (2 ^ i)) (hy : Denotes y (2 ^ j)) :
    Denotes (x.mul y) (2 ^ (i + j)) := by
  have hshort : Short (2 ^ i * 2 ^ j) := by
    rw [← Nat.pow_add]
    exact short_two_pow _
  rw [Nat.pow_add]
  exact hx.mul hy hshort (fun h => absurd h (Nat.two_pow_pos i).ne')
    (fun h => absurd h (Nat.two_pow_pos j).ne')

/-- Repeated squaring of powers of two: the factors so far, and as many more as
are still to be multiplied. -/
theorem Denotes.powerFrom {i j : Nat} (hx : Denotes x (2 ^ i)) (hy : Denotes y (2 ^ j)) (k : Nat) :
    Denotes (powerFrom x y k) (2 ^ (i + j * k)) := by
  induction k using Nat.strongRecOn generalizing x y i j with
  | _ k ih =>
    have hacc : Denotes (if k % 2 = 1 then x.mul y else x) (2 ^ (i + j * (k % 2))) := by
      split
      · rename_i hodd
        rw [hodd, Nat.mul_one]
        exact hx.mul_two_pow hy
      · rename_i heven
        rw [show k % 2 = 0 by omega, Nat.mul_zero, Nat.add_zero]
        exact hx
    rw [Binary64.powerFrom]
    split
    · rename_i hlast
      have hcount : i + j * (k % 2) = i + j * k := by rw [show k % 2 = k by omega]
      rw [hcount] at hacc
      exact hacc
    · have hrest := ih (k / 2) (by omega) hacc (hy.mul_two_pow hy)
      have hcount : i + j * (k % 2) + (j + j) * (k / 2) = i + j * k :=
        calc i + j * (k % 2) + (j + j) * (k / 2) = i + j * (k % 2 + 2 * (k / 2)) := by ring
          _ = i + j * k := by rw [Nat.mod_add_div]
      rw [hcount] at hrest
      exact hrest

theorem denotes_two : Denotes two 2 := by
  have hvalue : two = ofNat 2 := by decide +kernel
  rw [hvalue]
  exact denotes_ofNat (short_of_lt (by decide))

/-- The powers of two are exact, up to the first that has no room. -/
theorem denotes_power_two (k : Nat) : Denotes (two.power k) (2 ^ k) := by
  have hone : Denotes (ofNat 1) (2 ^ 0) := denotes_ofNat (short_two_pow 0)
  have htwo : Denotes two (2 ^ 1) := denotes_two
  simpa [power] using hone.powerFrom htwo k

/-- The lesser of a number and one that has room. -/
theorem Denotes.least (hx : Denotes x u) (hy : Denotes y v) (hv : HasRoom v) :
    Denotes (least x y) (min u v) := by
  obtain ⟨n, f, rfl, hn_least, hn⟩ := (denotes_of_room hv).1 hy
  by_cases hu : HasRoom u
  · obtain ⟨m, e, rfl, hm_least, hm⟩ := (denotes_of_room hu).1 hx
    have hbelow : below (finite false n f) (finite false m e) = decide (v < u) := by
      have hunit : 0 < 2 ^ minExponent.natAbs := Nat.two_pow_pos _
      simp only [below, hn.units_eq hn_least, hm.units_eq hm_least, decide_eq_decide,
        Int.ofNat_lt]
      exact Nat.mul_lt_mul_right hunit
    by_cases hlt : v < u
    · rw [Nat.min_eq_right (Nat.le_of_lt hlt)]
      simpa [Binary64.least, hbelow, hlt] using hy
    · rw [Nat.min_eq_left (Nat.not_lt.1 hlt)]
      simpa [Binary64.least, hbelow, hlt] using hx
  · obtain rfl := (denotes_of_not_room hu).1 hx
    have hle : v ≤ u := Nat.le_of_not_le fun hle => hu (hv.mono hle)
    rw [Nat.min_eq_right hle]
    simpa [Binary64.least, below] using hy

/-- What is no number is passed over. -/
theorem Denotes.least_undefined (hy : Denotes y v) (hv : HasRoom v) :
    Binary64.least undefined y = y := by
  obtain ⟨n, f, rfl, -, -⟩ := (denotes_of_room hv).1 hy
  rfl

/-- A whole number of the format in a word. -/
theorem Denotes.toWord_eq (hx : Denotes x v) (hv : HasRoom v) :
    x.toWord = min v (UInt64.size - 1) := by
  obtain ⟨m, e, rfl, -, hm⟩ := (denotes_of_room hv).1 hx
  unfold Stands at hm
  simp [toWord, inUnits_eq, hm]

end PooledRouting.Binary64
