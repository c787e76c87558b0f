/-!
# Reading truth values

A truth value is written `true` or `false`, in exactly these letters.
-/

namespace PooledRouting.Text

/-- The truth value that the text spells. -/
def readTruth (s : String) : Option Bool :=
  if s = "true" then some true else if s = "false" then some false else none

/-- The wording for a text that spells no truth value. -/
def truthFaultMessage : String :=
  "provided string was not `true` or `false`"

/-- The text of a truth value. -/
def writeTruth (b : Bool) : String :=
  if b then "true" else "false"

theorem readTruth_writeTruth (b : Bool) : readTruth (writeTruth b) = some b := by
  cases b <;> rfl

end PooledRouting.Text
