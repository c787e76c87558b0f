import PooledRouting.Settings.Basic

/-!
# Settings and variables

`Settings.ofLookup` reads settings from a lookup of variables.  A
variable without a value stands for the text of its standard value; the
variables are read in the order of `Settings.Variable`, the first
unreadable one is reported, and the figures are checked together only
after all of them have been read.  `Settings.entry` is the text of a
variable that reads back to the setting.
-/

namespace PooledRouting.Settings

/-- The text of the variable under these settings. -/
def entry (s : Settings) : Variable → String
  | .logLevel => s.logLevel
  | .logFormat => s.logFormat.name
  | .poolSize => toString s.poolSize.toNat
  | .poolTimeoutMs => toString s.poolTimeoutMs.toNat
  | .poolFifo => Text.writeTruth s.poolFifo
  | .minIdleConns => toString s.minIdleConns.toNat
  | .maxIdleConns => toString s.maxIdleConns.toNat
  | .maxActiveConns => toString s.maxActiveConns.toNat
  | .connMaxLifetimeSecs => toString s.connMaxLifetimeSecs.toNat
  | .connMaxIdleTimeSecs => toString s.connMaxIdleTimeSecs.toNat
  | .balanceType => s.strategy.name
  | .virtualNodes => toString s.virtualNodes.toNat

/-- A lookup of variables by name. -/
abbrev Lookup := String → Option String

/-- The text of a variable, or that of its standard value. -/
def textOf (lookup : Lookup) (v : Variable) : String :=
  (lookup v.name).getD (standard.entry v)

/-- The figure in a variable. -/
def figureOf (lookup : Lookup) (v : Variable) : Except Fault UInt64 :=
  match Text.readFigure (textOf lookup v).toList with
  | .ok n => .ok (UInt64.ofNat n)
  | .error fault => .error (.unreadable v (.figure fault))

/-- The truth value in a variable. -/
def truthOf (lookup : Lookup) (v : Variable) : Except Fault Bool :=
  match Text.readTruth (textOf lookup v) with
  | some b => .ok b
  | none => .error (.unreadable v .truth)

/-- The log format in its variable. -/
def logFormatOf (lookup : Lookup) : Except Fault LogFormat :=
  let text := textOf lookup .logFormat
  match LogFormat.parse? text with
  | some f => .ok f
  | none => .error (.unknownLogFormat text)

/-- The strategy in its variable. -/
def strategyOf (lookup : Lookup) : Except Fault Strategy :=
  match Strategy.parse (textOf lookup .balanceType) with
  | .ok s => .ok s
  | .error fault => .error (.unreadable .balanceType (.strategy fault))

/-- The settings in the variables, before they are checked together. -/
def readAll (lookup : Lookup) : Except Fault Settings := do
  let logFormat ← logFormatOf lookup
  let poolSize ← figureOf lookup .poolSize
  let poolTimeoutMs ← figureOf lookup .poolTimeoutMs
  let poolFifo ← truthOf lookup .poolFifo
  let minIdleConns ← figureOf lookup .minIdleConns
  let maxIdleConns ← figureOf lookup .maxIdleConns
  let maxActiveConns ← figureOf lookup .maxActiveConns
  let connMaxLifetimeSecs ← figureOf lookup .connMaxLifetimeSecs
  let connMaxIdleTimeSecs ← figureOf lookup .connMaxIdleTimeSecs
  let strategy ← strategyOf lookup
  let virtualNodes ← figureOf lookup .virtualNodes
  return {
    logLevel := textOf lookup .logLevel
    logFormat, poolSize, poolTimeoutMs, poolFifo, minIdleConns, maxIdleConns,
    maxActiveConns, connMaxLifetimeSecs, connMaxIdleTimeSecs, strategy, virtualNodes
  }

/-- The valid settings in the variables. -/
def ofLookup (lookup : Lookup) : Except Fault Settings := do
  let s ← readAll lookup
  s.validate
  return s

end PooledRouting.Settings
