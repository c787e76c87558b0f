import PooledRouting.Decimal.Shortest

/-!
# Writing a binary64 number in decimal

A number is written with its shortest digits.  `Layout` holds the
decisions that the digits leave open: which leading exponents are
written positionally, and whether an integral number keeps a final
`.0`.
-/

namespace PooledRouting.Decimal

/-- The choices of a decimal notation. -/
structure Layout where
  /-- The least leading exponent that is written positionally. -/
  positionalFrom : Int
  /-- The greatest leading exponent that is written positionally. -/
  positionalTo : Int
  /-- Whether a positional integral number ends in `.0`. -/
  keepPoint : Bool

/-- Magnitudes from `1e-4` up to, but without, `1e16` are written
positionally, and an integral one keeps `.0`. -/
def plainLayout : Layout := ⟨-4, 15, true⟩

/-- The digits of a natural number. -/
def digitsOf (n : Nat) : List Char :=
  Nat.toDigits 10 n

/-- A decimal in positional notation. -/
def positional (keepPoint : Bool) (x : Scientific) : List Char :=
  let ds := digitsOf x.digits
  if 0 ≤ x.exponent then
    ds ++ List.replicate x.exponent.toNat '0' ++ (if keepPoint then ['.', '0'] else [])
  else
    let places := x.exponent.natAbs
    let ds := List.replicate (places + 1 - ds.length) '0' ++ ds
    ds.take (ds.length - places) ++ '.' :: ds.drop (ds.length - places)

/-- A decimal with one digit before the point and an exponent. -/
def scientific (x : Scientific) : List Char :=
  let ds := digitsOf x.digits
  let lead := x.exponent + (ds.length - 1 : Nat)
  let fraction := ds.drop 1
  ds.take 1 ++ (if fraction.isEmpty then [] else '.' :: fraction) ++
    'e' :: (toString lead).toList

/-- The digits of a positive magnitude in the given layout. -/
def layOut (l : Layout) (x : Scientific) : List Char :=
  let x := x.reduced
  let lead := x.exponent + ((digitsOf x.digits).length - 1 : Nat)
  if x.digits = 0 ∨ l.positionalFrom ≤ lead ∧ lead ≤ l.positionalTo then
    positional l.keepPoint x
  else scientific x

/-- The text of a number.  A zero keeps its sign and not-a-number has
none. -/
def write (l : Layout) : Binary64 → String
  | .nan .. => "NaN"
  | .infinite negative => if negative then "-inf" else "inf"
  | .finite negative m e =>
    String.ofList ((if negative then ['-'] else []) ++ layOut l (shortest m e))

end PooledRouting.Decimal
