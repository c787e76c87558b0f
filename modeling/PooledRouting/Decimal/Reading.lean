import PooledRouting.Binary64.Basic
import PooledRouting.Text.Figure
import PooledRouting.Text.Fold

/-!
# Reading a binary64 number in decimal

A decimal is read as digits with an optional point, sign and exponent,
and rounded once to the nearest number.  `inf`, `infinity` and `nan` are
read in any letter case.  There has to be a digit before the exponent,
and a digit in it.
-/

namespace PooledRouting.Decimal

/-- A magnitude as it is written: `digits * 10 ^ exponent`. -/
structure Numeral where
  digits : Nat
  exponent : Int
  deriving DecidableEq, Repr

/-- The value of a list of digits. -/
def valueOf (ds : List Char) : Nat :=
  ds.foldl (fun n d => n * 10 + Text.digitValue d) 0

/-- The number with an optional sign before it, and whether the sign is a
minus. -/
def splitSign : List Char → Bool × List Char
  | '-' :: cs => (true, cs)
  | '+' :: cs => (false, cs)
  | cs => (false, cs)

/-- The exponent behind the digits; nothing at all is zero. -/
def readExponent : List Char → Option Int
  | [] => some 0
  | c :: cs =>
    if c = 'e' ∨ c = 'E' then
      let (negative, ds) := splitSign cs
      if ds.isEmpty || !ds.all Char.isDigit then none
      else some (if negative then -(valueOf ds : Int) else valueOf ds)
    else none

/-- A magnitude without a sign. -/
def readNumeral (cs : List Char) : Option Numeral :=
  let whole := cs.takeWhile Char.isDigit
  let rest := cs.dropWhile Char.isDigit
  let (fraction, rest) : List Char × List Char :=
    match rest with
    | '.' :: rest => (rest.takeWhile Char.isDigit, rest.dropWhile Char.isDigit)
    | rest => ([], rest)
  if whole.isEmpty && fraction.isEmpty then none
  else
    (readExponent rest).map fun e =>
      ⟨valueOf (whole ++ fraction), e - (fraction.length : Nat)⟩

/-- Beyond this leading exponent every number is infinite, and below its
negative every number is zero. -/
def exponentBound : Nat := 400

/-- The number nearest to the numeral. -/
def Numeral.toBinary64 (negative : Bool) (x : Numeral) : Binary64 :=
  let lead := x.exponent + ((Nat.toDigits 10 x.digits).length : Nat)
  if x.digits = 0 ∨ lead < -(exponentBound : Int) then
    .finite negative 0 Binary64.minExponent
  else if lead > exponentBound then .infinite negative
  else if x.exponent < 0 then
    Binary64.round negative x.digits (Nat.pow 10 x.exponent.natAbs)
  else Binary64.round negative (x.digits * Nat.pow 10 x.exponent.natAbs) 1

/-- The number that the text spells. -/
def read? (s : String) : Option Binary64 :=
  let (negative, cs) := splitSign s.toList
  let word := String.ofList (Text.fold cs)
  if word = "inf" ∨ word = "infinity" then some (.infinite negative)
  else if word = "nan" then some (.nan negative (Nat.pow 2 51))
  else (readNumeral cs).map (Numeral.toBinary64 negative)

end PooledRouting.Decimal
