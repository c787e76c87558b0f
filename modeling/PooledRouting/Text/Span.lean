/-!
# Writing spans of time

A span is a whole number of milliseconds.  It is written in seconds if
it reaches one second, with up to three decimals and without trailing
zeros, otherwise in milliseconds; the empty span is written `0ns`.
-/

namespace PooledRouting.Text

/-- The decimals of a number of thousandths, without trailing zeros. -/
def thousandths (n : Nat) : List Char :=
  let padded := (Nat.toDigits 10 (1000 + n)).drop 1
  (padded.reverse.dropWhile (· == '0')).reverse

/-- The text of a span of milliseconds. -/
def writeSpan (ms : Nat) : String :=
  if ms = 0 then "0ns"
  else if ms < 1000 then s!"{ms}ms"
  else
    let rest := thousandths (ms % 1000)
    String.ofList
      (Nat.toDigits 10 (ms / 1000) ++ (if rest.isEmpty then [] else '.' :: rest) ++ ['s'])

end PooledRouting.Text
