/-!
# Variables

The environment of a program is a list of entries `NAME=value`.  An entry
does not tell where its name ends: the entry `A=B=C` gives `A` the value
`B=C`, and `A=B` the value `C`.  The earliest entry for a name counts.

A variable that is set keeps its value, and no variable can be set to a
value that holds a null character.
-/

namespace PooledRouting.Command

/-- The entries of an environment, the earliest first. -/
abbrev Variables := List String

namespace Variables

/-- The entry that gives a variable its value. -/
def entry (name value : String) : String := name ++ "=" ++ value

/-- The value that an entry gives to the variable of this name, if it
gives one. -/
def valueIn? (name entry : String) : Option String :=
  ((name ++ "=").toList.isPrefixOf? entry.toList).map String.ofList

/-- The value of a variable.  No variable has an empty name. -/
def get? (vs : Variables) (name : String) : Option String :=
  if name = "" then none else vs.findSome? (valueIn? name)

/-- The variable with this name cannot be set to the value it should
have. -/
structure Unsettable where
  name : String
  deriving DecidableEq, Repr

/-- Set a variable, unless it is set already. -/
def set (vs : Variables) (name value : String) : Except Unsettable Variables :=
  if (vs.get? name).isSome then .ok vs
  else if '\x00' ∈ value.toList then .error ⟨name⟩
  else .ok (vs ++ [entry name value])

/-- Behind a prefix stands what was appended to it. -/
theorem isPrefixOf?_append (cs ds : List Char) : cs.isPrefixOf? (cs ++ ds) = some ds := by
  induction cs with
  | nil => rfl
  | cons c cs ih =>
    show (if c == c then cs.isPrefixOf? (cs ++ ds) else none) = some ds
    rw [if_pos (beq_self_eq_true c)]
    exact ih

@[simp]
theorem valueIn?_entry (name value : String) :
    valueIn? name (entry name value) = some value := by
  unfold valueIn? entry
  rw [String.toList_append (t := value), isPrefixOf?_append]
  simp

end Variables

end PooledRouting.Command
