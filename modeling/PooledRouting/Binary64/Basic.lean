/-!
# Binary64 numbers

A binary64 number is not-a-number, an infinity, or a sign with a
mantissa and a power of two.  `ofBits` and `toBits` translate between
this view and the 64-bit word; a word that is not-a-number keeps its
sign and its payload, so no word is lost.

A number is rounded once, by `round`, from an exact quotient of natural
numbers: to the nearest number of the format, and of two equally near
ones to the one with the even mantissa.
-/

namespace PooledRouting

/-- A number of the format.  `finite neg m e` stands for `m * 2 ^ e`,
negated if `neg`. -/
inductive Binary64 where
  | nan (negative : Bool) (payload : Nat)
  | infinite (negative : Bool)
  | finite (negative : Bool) (mantissa : Nat) (exponent : Int)
  deriving DecidableEq, Repr

namespace Binary64

/-- The least exponent: the distance between the smallest numbers. -/
def minExponent : Int := -1074

/-- The greatest exponent of a finite number. -/
def maxExponent : Int := 971

/-- The number that a 64-bit word encodes. -/
def ofBits (word : UInt64) : Binary64 :=
  let n : Nat := word.toNat
  let negative := n / Nat.pow 2 63 == 1
  let field : Nat := n / Nat.pow 2 52 % Nat.pow 2 11
  let fraction : Nat := n % Nat.pow 2 52
  if field = 2047 then
    if fraction = 0 then infinite negative else nan negative fraction
  else if field = 0 then finite negative fraction minExponent
  else finite negative (Nat.pow 2 52 + fraction) ((field : Int) - 1075)

/-- The word of a sign, an exponent field and a fraction. -/
def pack (negative : Bool) (field fraction : Nat) : UInt64 :=
  UInt64.ofNat ((if negative then Nat.pow 2 63 else 0) + field * Nat.pow 2 52 + fraction)

/-- The 64-bit word that encodes the number. -/
def toBits : Binary64 → UInt64
  | nan negative payload => pack negative 2047 payload
  | infinite negative => pack negative 2047 0
  | finite negative m e =>
    if m < Nat.pow 2 52 then pack negative 0 m
    else pack negative (e + 1075).toNat (m - Nat.pow 2 52)

/-- Positive zero. -/
def zero : Binary64 := finite false 0 minExponent

/-! ## Rounding -/

/-- `num / den` in units of `2 ^ k`, again as a quotient. -/
def inUnits (num den : Nat) (k : Int) : Nat × Nat :=
  if k < 0 then (num * Nat.pow 2 k.natAbs, den) else (num, den * Nat.pow 2 k.natAbs)

/-- The natural number nearest to `num / den`; a half goes to the even
neighbour. -/
def nearest (num den : Nat) : Nat :=
  let q := num / den
  let r := num % den
  if 2 * r < den then q
  else if den < 2 * r then q + 1
  else if q % 2 = 0 then q else q + 1

/-- The exponent at which `num / den` has a mantissa of 53 bits, or the
least exponent if that is greater. -/
def exponentOf (num den : Nat) : Int :=
  let k : Int := (num.log2 : Int) - (den.log2 : Int) - 52
  let (a, b) := inUnits num den k
  max (if a < b * Nat.pow 2 52 then k - 1 else k) minExponent

/-- The number of the format nearest to `num / den`.  A mantissa that
rounds up to the next power of two moves to the next exponent, and a
number past the greatest exponent is infinite. -/
def round (negative : Bool) (num den : Nat) : Binary64 :=
  if num = 0 then finite negative 0 minExponent
  else
    let k := exponentOf num den
    let (a, b) := inUnits num den k
    let m := nearest a b
    if m = Nat.pow 2 53 then
      if k + 1 > maxExponent then infinite negative
      else finite negative (Nat.pow 2 52) (k + 1)
    else if k > maxExponent then infinite negative
    else finite negative m k

/-- The number nearest to a natural number. -/
def ofNat (n : Nat) : Binary64 :=
  round false n 1

/-- The number two. -/
def two : Binary64 := ofBits 0x4000000000000000

theorem nearest_of_dvd {num den : Nat} (hden : 0 < den) (h : den ∣ num) :
    nearest num den = num / den := by
  have hr : num % den = 0 := Nat.mod_eq_zero_of_dvd h
  simp [nearest, hr, hden]

end Binary64

end PooledRouting
