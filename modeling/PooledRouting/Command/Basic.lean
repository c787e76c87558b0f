import PooledRouting.Command.Arguments
import PooledRouting.Command.VariableFile
import PooledRouting.Settings.Environment
import PooledRouting.Simulation.Report

/-!
# The command

The command reads its arguments, then the settings from the variables of
the environment and of a file beside it, lets the arguments override the
settings, and simulates traffic.  The settings are checked before they
are overridden and once more afterwards.

Most faults are reported in words.  The command breaks off, with an exit
code of its own, where a variable cannot be set, where a list would
need more addresses than there are, and where a choice overflows.  Where
there are addresses but no memory behind them, it is aborted and has no exit
code; how much memory there is is a parameter.
-/

namespace PooledRouting.Command

/-- Why the command refuses to simulate although its arguments can be
read. -/
inductive Fault where
  | settings (fault : Settings.Fault)
  | noEndpoints
  /-- The balancer cannot be built. -/
  | balancer (fault : Balancer.Fault)
  deriving DecidableEq, Repr

/-- The wording of the fault. -/
def Fault.message : Fault → String
  | settings fault => fault.message
  | noEndpoints => "At least one endpoint is required"
  | balancer _ => "Failed to build load balancer"

/-- The wordings of what lies behind the fault, outermost first. -/
def Fault.causes : Fault → List String
  | settings fault => fault.causes
  | noEndpoints => []
  | balancer fault => [fault.message]

/-- The text with every line indented. -/
def indented (text : String) : String :=
  String.ofList ("    ".toList ++
    text.toList.flatMap fun c => if c = '\n' then "\n    ".toList else [c])

/-- The fault as it is shown to the user, without blanks at the end. -/
def Fault.describe (f : Fault) : String :=
  let causes :=
    match f.causes with
    | [] => ""
    | cause :: _ => "\n\nCaused by:\n" ++ indented cause
  String.ofList (Text.trimEnd ("Error: " ++ f.message ++ causes).toList)

/-- The settings with the arguments in their place. -/
def Arguments.override (a : Arguments) (s : Settings) : Settings :=
  { s with
    strategy := a.strategy.getD s.strategy
    poolSize := a.poolSize.getD s.poolSize
    maxActiveConns := a.maxActiveConns.getD s.maxActiveConns
    logLevel := a.logLevel.getD s.logLevel
    logFormat := a.logFormat.getD s.logFormat }

/-- The valid settings of the arguments and the variables. -/
def settingsOf (a : Arguments) (vs : Variables) : Except Settings.Fault Settings := do
  let s := a.override (← Settings.ofLookup vs.get?)
  s.validate
  return s

/-- The simulation that arguments and settings ask for. -/
def simulationOf (a : Arguments) (s : Settings) : Simulation where
  strategy := s.strategy
  virtualNodes := s.virtualNodes.toNat
  options := s.poolOptions
  endpoints := a.endpoints
  requests := a.requests
  concurrency := a.concurrency
  clients := a.clients
  dialLatency := a.dialLatency
  work := a.work
  failureRate := a.dialFailureRate

/-- The simulation that the arguments and the variables ask for. -/
def plan (a : Arguments) (vs : Variables) : Except Fault Simulation :=
  match settingsOf a vs with
  | .error fault => .error (.settings fault)
  | .ok s => if a.endpoints = 0 then .error .noEndpoints else .ok (simulationOf a s)

/-- Why the command breaks off. -/
inductive Breakdown where
  | unsettable (fault : Variables.Unsettable)
  /-- A list would need more addresses than there are. -/
  | noAddresses
  /-- A list would need more memory than there is. -/
  | noMemory
  /-- The choice of an endpoint overflows. -/
  | overflow
  deriving DecidableEq, Repr

/-- The wording of the breakdown. -/
def Breakdown.message : Breakdown → String
  | unsettable fault => "the variable " ++ fault.name ++ " cannot be set"
  | noAddresses => "there are no addresses for the endpoints or their connections"
  | noMemory => "there is no memory for the endpoints or their connections"
  | overflow => "the sum of the current weights overflows"

/-- The most entries of eight bytes that a list has addresses for. -/
def addressableEntries : Nat := Nat.pow 2 60 - 1

/-- Make room for a list of so many entries.  `memory` tells for how many
there is memory. -/
def allot (memory : Nat → Bool) (entries : Nat) : Except Breakdown Unit :=
  if addressableEntries < entries then .error .noAddresses
  else if memory entries then .ok ()
  else .error .noMemory

/-- Make room for the endpoints, and then for the connections of a pool,
all of them at once. -/
def allotFor (memory : Nat → Bool) (s : Simulation) : Except Breakdown Unit := do
  allot memory s.endpoints
  allot memory s.options.poolSize

/-- What the command comes to. -/
inductive Outcome where
  | report (r : Simulation.Report)
  | version
  | help
  | misuse
  | failed (fault : Fault)
  | broken (breakdown : Breakdown)

/-- What a simulation comes to. -/
def conduct (s : Simulation) (memory : Nat → Bool) (draws : Simulation.Draws) : Outcome :=
  match allotFor memory s with
  | .error breakdown => .broken breakdown
  | .ok () =>
    match s.run draws with
    | .error (.balancer fault) => .failed (.balancer fault)
    | .error .overflow => .broken .overflow
    | .ok r => .report r

/-- What the command comes to once the variables are set. -/
def execute (a : Arguments) (vs : Variables) (memory : Nat → Bool) (draws : Simulation.Draws) :
    Outcome :=
  match plan a vs with
  | .error fault => .failed fault
  | .ok s => conduct s memory draws

/-- Run the command on its words, the variables of the environment, and
the file of variables, if there is one. -/
def run (words : List String) (environment : Variables) (file : Option String)
    (memory : Nat → Bool) (draws : Simulation.Draws) : Outcome :=
  match Arguments.read words with
  | .error .help => .help
  | .error .version => .version
  | .error .misuse => .misuse
  | .ok a =>
    match file.elim (.ok environment) (VariableFile.load environment) with
    | .error fault => .broken (.unsettable fault)
    | .ok vs => execute a vs memory draws

/-- The exit code of the command, which has none if it is aborted. -/
def Outcome.exitCode? : Outcome → Option Nat
  | report _ | version | help => some 0
  | failed _ => some 1
  | misuse => some 2
  | broken .noMemory => none
  | broken _ => some 101

/-- The name of the command. -/
def name : String := "conn-balancer"

/-- The line that tells the version. -/
def versionLine : String := name ++ " 0.1.0\n"

/-- One line of the help text for an option. -/
def Switch.helpLine (s : Switch) : String :=
  let short :=
    match s.letter? with
    | some c => String.ofList ['-', c, ',', ' ']
    | none => "    "
  "  " ++ short ++ "--" ++ s.name ++ " <VALUE>\n"

/-- The help text. -/
def helpText : String :=
  "Usage: " ++ name ++ " [OPTIONS]\n\nOptions:\n" ++
    String.join (Switch.all.map Switch.helpLine) ++
    "  -h, --help\n  -V, --version\n"

/-- What the command writes to its standard output. -/
def Outcome.output : Outcome → String
  | report r => Text.JsonLines.render r.lines ++ "\n"
  | version => versionLine
  | help => helpText
  | misuse | failed _ | broken _ => ""

/-- What the command writes to its error output. -/
def Outcome.complaint : Outcome → String
  | failed fault => fault.describe ++ "\n"
  | misuse => "error: the arguments cannot be read; try --help\n"
  | broken breakdown => breakdown.message ++ "\n"
  | _ => ""

end PooledRouting.Command
