import PooledRouting.Binary64.Basic

/-!
# The shortest decimal of a binary64 number

The real numbers that round to a given finite number form an interval
around it, with its ends included if the mantissa is even.  `shortest`
looks for the decimal with the fewest digits in that interval.  For each
number of digits it tries the two neighbours of the number on the
decimal grid with that many digits; the first grid with a hit wins, of
two hits the nearer one, and of two equally near ones the greater.
-/

namespace PooledRouting.Decimal

/-- The decimal `digits * 10 ^ exponent`. -/
structure Scientific where
  digits : Nat
  exponent : Int
  deriving DecidableEq, Repr

/-- A quotient of natural numbers. -/
structure Quotient where
  num : Nat
  den : Nat

/-- The quotient `m * 2 ^ e`. -/
def Quotient.dyadic (m : Nat) (e : Int) : Quotient :=
  if e < 0 then ⟨m, Nat.pow 2 e.natAbs⟩ else ⟨m * Nat.pow 2 e.natAbs, 1⟩

/-- The quotient `d * 10 ^ k`. -/
def Quotient.decimal (d : Nat) (k : Int) : Quotient :=
  if k < 0 then ⟨d, Nat.pow 10 k.natAbs⟩ else ⟨d * Nat.pow 10 k.natAbs, 1⟩

def Quotient.lt (x y : Quotient) : Bool := x.num * y.den < y.num * x.den

def Quotient.le (x y : Quotient) : Bool := x.num * y.den ≤ y.num * x.den

/-- The distance of two quotients, over the product of their
denominators. -/
def Quotient.distance (x y : Quotient) : Nat :=
  ((x.num * y.den : Int) - y.num * x.den).natAbs

/-- An interval of quotients, with or without its ends. -/
structure Interval where
  low : Quotient
  high : Quotient
  closed : Bool

def Interval.contains (i : Interval) (x : Quotient) : Bool :=
  if i.closed then i.low.le x && x.le i.high else i.low.lt x && x.lt i.high

/-- What rounds to `m * 2 ^ e`.  Below a power of two the neighbours are
half as far apart, except at the least exponent. -/
def Interval.around (m : Nat) (e : Int) : Interval where
  low :=
    if m = Nat.pow 2 52 ∧ e ≠ Binary64.minExponent then .dyadic (4 * m - 1) (e - 2)
    else .dyadic (2 * m - 1) (e - 1)
  high := .dyadic (2 * m + 1) (e - 1)
  closed := m % 2 == 0

/-- The exponent of the leading decimal digit of a positive quotient. -/
def leadingExponent (x : Quotient) : Int :=
  if x.den ≤ x.num then
    (((List.range 400).find? fun k => x.num < x.den * Nat.pow 10 (k + 1)).getD 0 : Nat)
  else
    -(((List.range 400).find? fun k => x.den ≤ x.num * Nat.pow 10 k).getD 0 : Nat)

/-- The hit with `n` digits, if there is one. -/
def hit? (x : Quotient) (i : Interval) (n : Nat) : Option Scientific :=
  let k := leadingExponent x - (n - 1 : Nat)
  let scaled : Quotient :=
    if k < 0 then ⟨x.num * Nat.pow 10 k.natAbs, x.den⟩ else ⟨x.num, x.den * Nat.pow 10 k.natAbs⟩
  let down := scaled.num / scaled.den
  let up := down + 1
  match i.contains (.decimal down k), i.contains (.decimal up k) with
  | true, true =>
    if scaled.distance ⟨down, 1⟩ < scaled.distance ⟨up, 1⟩ then some ⟨down, k⟩
    else some ⟨up, k⟩
  | true, false => some ⟨down, k⟩
  | false, true => some ⟨up, k⟩
  | false, false => none

/-- The shortest decimal of the number `m * 2 ^ e`.  Seventeen digits
always hit. -/
def shortest (m : Nat) (e : Int) : Scientific :=
  if m = 0 then ⟨0, 0⟩
  else
    let x := Quotient.dyadic m e
    let i := Interval.around m e
    ((List.range 17).findSome? fun n => hit? x i (n + 1)).getD ⟨m, e⟩

/-- The decimal without trailing zeros in its digits. -/
def Scientific.reduced (x : Scientific) : Scientific :=
  if h : x.digits ≠ 0 ∧ x.digits % 10 = 0 then
    Scientific.reduced ⟨x.digits / 10, x.exponent + 1⟩
  else x
termination_by x.digits
decreasing_by
  have := h.1
  omega

end PooledRouting.Decimal
