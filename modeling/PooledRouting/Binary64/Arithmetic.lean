import PooledRouting.Binary64.Basic

/-!
# Arithmetic on binary64 numbers

Every operation takes the exact result in natural numbers and rounds it
once.  The order is that of the real numbers with the two infinities at
its ends; not-a-number stands outside it, and `least` passes it over.
-/

namespace PooledRouting.Binary64

/-- A not-a-number that no operand supplies. -/
def undefined : Binary64 := nan false (Nat.pow 2 51)

/-- The product.  Zero times an infinity is not a number. -/
def mul : Binary64 → Binary64 → Binary64
  | nan s p, _ => nan s p
  | _, nan s p => nan s p
  | infinite s, infinite t => infinite (s != t)
  | infinite s, finite t m _ => if m = 0 then undefined else infinite (s != t)
  | finite s m _, infinite t => if m = 0 then undefined else infinite (s != t)
  | finite s m e, finite t n f =>
    let (a, b) := inUnits (m * n) 1 (-(e + f))
    round (s != t) a b

/-- The quotient of two natural numbers. -/
def ratio (num den : Nat) : Binary64 :=
  round false num den

/-- The part of a power that is still to be multiplied: `acc` holds the
factors so far and `base` the current repeated square. -/
def powerFrom (acc base : Binary64) (n : Nat) : Binary64 :=
  let acc := if n % 2 = 1 then acc.mul base else acc
  if n / 2 = 0 then acc else powerFrom acc (base.mul base) (n / 2)
termination_by n
decreasing_by omega

/-- The power by repeated squaring, rounded at every multiplication. -/
def power (base : Binary64) (n : Nat) : Binary64 :=
  powerFrom (ofNat 1) base n

/-- A finite number in units of the least exponent. -/
def units (negative : Bool) (mantissa : Nat) (exponent : Int) : Int :=
  let magnitude : Int := (mantissa * Nat.pow 2 (exponent - minExponent).toNat : Nat)
  if negative then -magnitude else magnitude

/-- Whether the first number is below the second. -/
def below : Binary64 → Binary64 → Bool
  | nan .., _ => false
  | _, nan .. => false
  | infinite s, infinite t => s && !t
  | infinite s, finite .. => s
  | finite .., infinite t => !t
  | finite s m e, finite t n f => units s m e < units t n f

/-- The lesser of two numbers.  Of a number and not-a-number it is the
number. -/
def least : Binary64 → Binary64 → Binary64
  | nan .., y => y
  | x, nan .. => x
  | x, y => if below y x then y else x

/-- The number without its fraction, kept within the 64-bit range.
Negative numbers and not-a-number give zero. -/
def toWord : Binary64 → Nat
  | nan .. => 0
  | infinite negative => if negative then 0 else UInt64.size - 1
  | finite negative m e =>
    if negative then 0
    else
      let (a, b) := inUnits m 1 (-e)
      min (a / b) (UInt64.size - 1)

theorem toWord_lt_size (x : Binary64) : x.toWord < UInt64.size := by
  have hzero : 0 < UInt64.size := by decide
  have hlast : UInt64.size - 1 < UInt64.size := by decide
  unfold toWord
  split
  · exact hzero
  · split <;> assumption
  · split
    · exact hzero
    · exact Nat.lt_of_le_of_lt (Nat.min_le_right _ _) hlast

end PooledRouting.Binary64
