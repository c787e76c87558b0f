/-!
# Letter case

Names in settings and on the command line are read without regard to the
case of their letters.  Every such name is spelled in ASCII letters, and
outside ASCII only U+212A, the Kelvin sign, has an ASCII letter as its
lower case, namely `k`, which stands in no name.  Folding the ASCII
letters alone therefore decides equality with a name exactly.
-/

namespace PooledRouting.Text

/-- The lower case of an ASCII letter; any other character is kept. -/
def foldChar (c : Char) : Char :=
  if 'A' ≤ c ∧ c ≤ 'Z' then Char.ofNat (c.toNat + 32) else c

/-- The text with its ASCII letters in lower case. -/
def fold (cs : List Char) : List Char :=
  cs.map foldChar

@[simp]
theorem length_fold (cs : List Char) : (fold cs).length = cs.length := by
  simp [fold]

end PooledRouting.Text
