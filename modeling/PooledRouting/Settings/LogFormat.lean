import PooledRouting.Text.Fold

/-!
# Log formats

A log line is written as a JSON object or in a compact form.  In a
setting the format is named without regard to case, and `text` is a
second name of the compact form; on the command line the names are taken
as they stand.
-/

namespace PooledRouting

/-- How log lines are written. -/
inductive LogFormat where
  | json
  | compact
  deriving DecidableEq, Repr, Inhabited

namespace LogFormat

/-- The format when none is named. -/
def standard : LogFormat := json

/-- The canonical name. -/
def name : LogFormat → String
  | json => "json"
  | compact => "compact"

/-- The format with this canonical name. -/
def ofName? (text : String) : Option LogFormat :=
  if text = "json" then some json
  else if text = "compact" then some compact
  else none

/-- The format that this word names on the command line. -/
def ofWord? (text : String) : Option LogFormat :=
  if text = "text" then some compact else ofName? text

/-- The format that a setting names. -/
def parse? (text : String) : Option LogFormat :=
  ofWord? (String.ofList (Text.fold text.toList))

theorem parse?_name (f : LogFormat) : parse? f.name = some f := by
  cases f <;> decide +kernel

end LogFormat

end PooledRouting
