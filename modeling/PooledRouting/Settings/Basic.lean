import PooledRouting.Settings.LogFormat
import PooledRouting.Text.Figure
import PooledRouting.Text.Truth
import PooledRouting.Balancer.Strategy

/-!
# Settings

The settings hold the figures of a pool and of a balancer.  `validate`
checks what the figures have to satisfy together; of several faults it
reports the first in the order below.
-/

namespace PooledRouting

/-- The virtual nodes of an endpoint on a hash ring when none are set. -/
def standardVirtualNodes : Nat := 10

/-- The settings of a pool and a balancer. -/
structure Settings where
  logLevel : String := "info"
  logFormat : LogFormat := .json
  poolSize : UInt64 := 20
  poolTimeoutMs : UInt64 := 6000
  poolFifo : Bool := false
  minIdleConns : UInt64 := 3
  maxIdleConns : UInt64 := 6
  maxActiveConns : UInt64 := 10
  connMaxLifetimeSecs : UInt64 := 0
  connMaxIdleTimeSecs : UInt64 := 0
  strategy : Strategy := .roundRobin
  virtualNodes : UInt64 := 10
  deriving DecidableEq, Repr

namespace Settings

/-- The settings when nothing is set. -/
def standard : Settings := {}

/-- The variables that settings are read from, in the order of reading. -/
inductive Variable where
  | logLevel
  | logFormat
  | poolSize
  | poolTimeoutMs
  | poolFifo
  | minIdleConns
  | maxIdleConns
  | maxActiveConns
  | connMaxLifetimeSecs
  | connMaxIdleTimeSecs
  | balanceType
  | virtualNodes
  deriving DecidableEq, Repr

/-- The name of the variable. -/
def Variable.name : Variable → String
  | logLevel => "LOG_LEVEL"
  | logFormat => "LOG_FORMAT"
  | poolSize => "POOL_SIZE"
  | poolTimeoutMs => "POOL_TIMEOUT_MS"
  | poolFifo => "POOL_FIFO"
  | minIdleConns => "MIN_IDLE_CONNS"
  | maxIdleConns => "MAX_IDLE_CONNS"
  | maxActiveConns => "MAX_ACTIVE_CONNS"
  | connMaxLifetimeSecs => "CONN_MAX_LIFETIME_SECS"
  | connMaxIdleTimeSecs => "CONN_MAX_IDLE_TIME_SECS"
  | balanceType => "BALANCE_TYPE"
  | virtualNodes => "VIRTUAL_NODES"

/-- The variables in the order of reading. -/
def Variable.all : List Variable :=
  [logLevel, logFormat, poolSize, poolTimeoutMs, poolFifo, minIdleConns, maxIdleConns,
    maxActiveConns, connMaxLifetimeSecs, connMaxIdleTimeSecs, balanceType, virtualNodes]

theorem Variable.mem_all (v : Variable) : v ∈ all := by
  cases v <;> decide

/-- Why the text of a variable cannot be read. -/
inductive Unreadable where
  | figure (fault : Text.FigureFault)
  | truth
  | strategy (fault : Balancer.Fault)
  deriving DecidableEq, Repr

/-- The wording of what is wrong with the text. -/
def Unreadable.message : Unreadable → String
  | figure fault => fault.message
  | truth => Text.truthFaultMessage
  | strategy fault => fault.message

/-- Why there are no settings. -/
inductive Fault where
  /-- The text names no log format. -/
  | unknownLogFormat (text : String)
  /-- The text of the variable cannot be read. -/
  | unreadable (field : Variable) (cause : Unreadable)
  | zeroPoolSize
  | zeroPoolTimeout
  /-- The idle cap lies below the idle minimum. -/
  | idleCapBelowMinimum (cap minimum : Nat)
  | zeroVirtualNodes
  deriving DecidableEq, Repr

/-- The wording of the fault. -/
def Fault.message : Fault → String
  | unknownLogFormat text =>
    "Invalid log format: " ++ text ++ ". Expected: json or compact"
  | unreadable v _ => "Invalid " ++ v.name ++ " value"
  | zeroPoolSize => "Pool size must be > 0"
  | zeroPoolTimeout => "Pool timeout must be > 0"
  | idleCapBelowMinimum cap minimum =>
    s!"MAX_IDLE_CONNS ({cap}) must be >= MIN_IDLE_CONNS ({minimum})"
  | zeroVirtualNodes => "Virtual nodes must be > 0"

/-- The wordings of what lies behind the fault, outermost first. -/
def Fault.causes : Fault → List String
  | unreadable _ cause => [cause.message]
  | _ => []

/-- Check the figures against each other. -/
def validate (s : Settings) : Except Fault Unit :=
  if s.poolSize = 0 then .error .zeroPoolSize
  else if s.poolTimeoutMs = 0 then .error .zeroPoolTimeout
  else if s.maxIdleConns > 0 ∧ s.maxIdleConns < s.minIdleConns then
    .error (.idleCapBelowMinimum s.maxIdleConns.toNat s.minIdleConns.toNat)
  else if s.virtualNodes = 0 then .error .zeroVirtualNodes
  else .ok ()

/-- Exactly the settings with a positive size, timeout and number of
virtual nodes, and with an idle cap of zero or not below the idle
minimum, are valid. -/
theorem validate_eq_ok_iff (s : Settings) :
    s.validate = .ok () ↔
      s.poolSize ≠ 0 ∧ s.poolTimeoutMs ≠ 0 ∧
        ¬ (s.maxIdleConns > 0 ∧ s.maxIdleConns < s.minIdleConns) ∧
        s.virtualNodes ≠ 0 := by
  unfold validate
  split
  · simp_all
  · split
    · simp_all
    · split
      · simp_all
      · split <;> simp_all

end Settings

end PooledRouting
