import PooledRouting.Command.Basic

/-!
# The program

The outer layer of the command: it collects the words, the variables and
the file of variables, and writes what `Command.run` answers.
-/

open PooledRouting

/-- The text of the file of variables, if it can be read. -/
def readVariableFile : IO (Option String) := do
  try
    return some (← IO.FS.readFile ".env")
  catch _ =>
    return none

/-- The variables of the environment that have these names.  No name
holds a null character. -/
def readEnvironment (names : List String) : IO Command.Variables := do
  let mut vs := []
  for name in names.filter fun name => '\x00' ∉ name.toList do
    if let some value ← IO.getEnv name then
      vs := vs ++ [Command.Variables.entry name value]
  return vs

/-- Random words that depend on a seed, an endpoint and an attempt. -/
def drawFrom (seed endpoint attempt : Nat) : UInt64 :=
  let generator := mkStdGen (seed + endpoint * 1000003 + attempt)
  let (high, generator) := randNat generator 0 (UInt32.size - 1)
  let (low, _) := randNat generator 0 (UInt32.size - 1)
  UInt64.ofNat (high * UInt32.size + low)

/-- All that is left to chance, from two seeds. -/
def drawsFrom (dials pauses : Nat) : Simulation.Draws where
  dial := drawFrom dials
  pause endpoint attempt := (drawFrom pauses endpoint attempt).toNat

/-- The exit code that shells show for a program that was aborted. -/
def abortedCode : Nat := 134

def main (words : List String) : IO UInt32 := do
  let file ← readVariableFile
  let mentioned := (file.getD "").toList
  let names := Settings.Variable.all.map Settings.Variable.name ++
    Command.VariableFile.mentioned mentioned
  let environment ← readEnvironment names
  let draws := drawsFrom (← IO.rand 0 (Nat.pow 2 62)) (← IO.rand 0 (Nat.pow 2 62))
  -- A program that asks for more memory than there is does not come back.
  let outcome := Command.run words environment file (fun _ => true) draws
  (← IO.getStdout).putStr outcome.output
  (← IO.getStderr).putStr outcome.complaint
  return UInt32.ofNat (outcome.exitCode?.getD abortedCode)
