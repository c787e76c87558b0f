import PooledRouting.Backoff.Basic
import PooledRouting.Connection
import PooledRouting.Decimal.Layout
import PooledRouting.Settings.Basic
import PooledRouting.Text.Span

/-!
# Options of a pool

The figures that a pool is created with, and its checkout hooks.  A hook
is called with every connection that is about to be handed out; what it
does may differ from call to call, so a hook is given by the steps that
it takes on each of its calls.
-/

namespace PooledRouting.Pool

/-- One thing that a hook does with its connection. -/
inductive HookStep where
  /-- Note a use of the connection. -/
  | touch
  /-- Mark the connection as held. -/
  | mark
  /-- Close the connection.  If `strict`, a failure to close it rejects
  the checkout. -/
  | close (strict : Bool)
  /-- Reject the checkout. -/
  | fail (reason : String)
  deriving DecidableEq, Repr

/-- The steps of a hook on each of its calls, which are numbered from
one.  A step that rejects the checkout is the last one taken. -/
abbrev Hook := Nat → List HookStep

/-- The hook that notes a use on every call. -/
def Hook.touching : Hook := fun _ => [.touch]

/-- The hook that takes the steps on the listed calls only. -/
def Hook.onCalls (calls : List Nat) (steps : List HookStep) : Hook :=
  fun n => if calls.contains n then steps else []

/-- The options of a pool; times are in milliseconds. -/
structure Options where
  hooks : List Hook := []
  /-- Whether the connection that has been idle longest goes first. -/
  fifo : Bool := false
  /-- The admission slots. -/
  poolSize : Nat := 20
  /-- How long to wait for a slot. -/
  poolTimeout : Nat := 6000
  /-- The idle connections that the pool keeps ready. -/
  minIdle : Nat := 3
  /-- The idle connections that are kept on release; zero for no cap. -/
  maxIdle : Nat := 6
  /-- The cap on tracked connections; zero for no cap. -/
  maxActive : Nat := 10
  /-- The greatest age of a connection; zero for no limit. -/
  maxLifetime : Nat := 0
  /-- The longest time without use; zero for no limit. -/
  maxIdleTime : Nat := 0
  /-- The pauses of the dial probe. -/
  dialRetry : Backoff := Backoff.dialProbe

namespace Options

/-- The tracked connections up to which idle ones are topped up. -/
def topUpLimit (o : Options) : Nat :=
  if o.maxActive > 0 then min o.poolSize o.maxActive else o.poolSize

/-- The dial failures that open the circuit. -/
def dialThreshold (o : Options) : Nat :=
  max o.poolSize 1

/-- The backoff in words. -/
def describeBackoff (b : Backoff) : String :=
  "RetryConfig \x7b max_retries: " ++ toString b.maxRetries.toNat ++
    ", initial_delay: " ++ Text.writeSpan b.initialDelay ++
    ", max_delay: " ++ Text.writeSpan b.maxDelay ++
    ", multiplier: " ++ Decimal.write Decimal.plainLayout b.multiplier ++
    ", use_jitter: " ++ Text.writeTruth b.jitter ++ " \x7d"

/-- The options in words. -/
def describe (o : Options) : String :=
  "PoolOptions \x7b hooks: " ++ toString o.hooks.length ++
    ", pool_fifo: " ++ Text.writeTruth o.fifo ++
    ", pool_size: " ++ toString o.poolSize ++
    ", pool_timeout: " ++ Text.writeSpan o.poolTimeout ++
    ", min_idle_conns: " ++ toString o.minIdle ++
    ", max_idle_conns: " ++ toString o.maxIdle ++
    ", max_active_conns: " ++ toString o.maxActive ++
    ", conn_max_lifetime: " ++ Text.writeSpan o.maxLifetime ++
    ", conn_max_idle_time: " ++ Text.writeSpan o.maxIdleTime ++
    ", dial_retry: " ++ describeBackoff o.dialRetry ++ " \x7d"

theorem topUpLimit_le_poolSize (o : Options) : o.topUpLimit ≤ o.poolSize := by
  unfold topUpLimit
  split <;> omega

end Options

end PooledRouting.Pool

namespace PooledRouting.Settings

/-- The options of a pool under these settings. -/
def poolOptions (s : Settings) : Pool.Options where
  fifo := s.poolFifo
  poolSize := s.poolSize.toNat
  poolTimeout := s.poolTimeoutMs.toNat
  minIdle := s.minIdleConns.toNat
  maxIdle := s.maxIdleConns.toNat
  maxActive := s.maxActiveConns.toNat
  maxLifetime := s.connMaxLifetimeSecs.toNat * 1000
  maxIdleTime := s.connMaxIdleTimeSecs.toNat * 1000

end PooledRouting.Settings
