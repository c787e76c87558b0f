import PooledRouting.Settings.Basic

/-!
# Settings and records

Settings can also be read from a record of typed values.  Here every
field is required and has to have its own type: no figure is read from a
text, and no spelling but the canonical one names a log format or a
strategy.  Fields that are no settings are passed over.
-/

namespace PooledRouting.Settings

/-- A value of a record. -/
inductive Value where
  | figure (n : Nat)
  | truth (b : Bool)
  | text (s : String)
  /-- A name without content, which stands for the text of the name where
  a name is asked for. -/
  | tag (name : String)
  /-- Any other value. -/
  | other
  deriving DecidableEq, Repr

/-- The name of the field that a variable sets. -/
def Variable.field : Variable → String
  | logLevel => "log_level"
  | logFormat => "log_format"
  | poolSize => "pool_size"
  | poolTimeoutMs => "pool_timeout_ms"
  | poolFifo => "pool_fifo"
  | minIdleConns => "min_idle_conns"
  | maxIdleConns => "max_idle_conns"
  | maxActiveConns => "max_active_conns"
  | connMaxLifetimeSecs => "conn_max_lifetime_secs"
  | connMaxIdleTimeSecs => "conn_max_idle_time_secs"
  | balanceType => "balance_type"
  | virtualNodes => "virtual_nodes"

/-- The settings as a record. -/
def value (s : Settings) : Variable → Value
  | .logLevel => .text s.logLevel
  | .logFormat => .text s.logFormat.name
  | .poolSize => .figure s.poolSize.toNat
  | .poolTimeoutMs => .figure s.poolTimeoutMs.toNat
  | .poolFifo => .truth s.poolFifo
  | .minIdleConns => .figure s.minIdleConns.toNat
  | .maxIdleConns => .figure s.maxIdleConns.toNat
  | .maxActiveConns => .figure s.maxActiveConns.toNat
  | .connMaxLifetimeSecs => .figure s.connMaxLifetimeSecs.toNat
  | .connMaxIdleTimeSecs => .figure s.connMaxIdleTimeSecs.toNat
  | .balanceType => .text s.strategy.name
  | .virtualNodes => .figure s.virtualNodes.toNat

namespace Value

/-- The figure, if the value is one of 64 bits. -/
def figure? : Value → Option UInt64
  | figure n => if n < Text.figureLimit then some (UInt64.ofNat n) else none
  | _ => none

/-- The truth value, if the value is one. -/
def truth? : Value → Option Bool
  | truth b => some b
  | _ => none

/-- The text, if the value is one. -/
def text? : Value → Option String
  | text s => some s
  | _ => none

/-- The name, if the value gives one. -/
def name? : Value → Option String
  | text s | tag s => some s
  | _ => none

/-- The strategy that the value names. -/
def strategy? (v : Value) : Option Strategy :=
  v.name?.bind Strategy.ofName?

/-- The log format that the value names. -/
def logFormat? (v : Value) : Option LogFormat :=
  v.name?.bind LogFormat.ofName?

end Value

/-- The settings in the record, unless a field is missing or has another
type.  They are not checked together. -/
def ofRecord? (record : String → Option Value) : Option Settings := do
  let get (v : Variable) : Option Value := record v.field
  return {
    logLevel := ← (← get .logLevel).text?
    logFormat := ← (← get .logFormat).logFormat?
    poolSize := ← (← get .poolSize).figure?
    poolTimeoutMs := ← (← get .poolTimeoutMs).figure?
    poolFifo := ← (← get .poolFifo).truth?
    minIdleConns := ← (← get .minIdleConns).figure?
    maxIdleConns := ← (← get .maxIdleConns).figure?
    maxActiveConns := ← (← get .maxActiveConns).figure?
    connMaxLifetimeSecs := ← (← get .connMaxLifetimeSecs).figure?
    connMaxIdleTimeSecs := ← (← get .connMaxIdleTimeSecs).figure?
    strategy := ← (← get .balanceType).strategy?
    virtualNodes := ← (← get .virtualNodes).figure?
  }

end PooledRouting.Settings
