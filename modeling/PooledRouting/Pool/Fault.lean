/-!
# What can go wrong in a pool

A `Fault` says why an operation of a pool failed.  The last three kinds
pass on the text of something outside the pool: the dialer, a checkout
hook, or the transport under a connection.
-/

namespace PooledRouting.Pool

/-- Why an operation of a pool failed. -/
inductive Fault where
  /-- The pool has been shut down for good. -/
  | closed
  /-- The cap on tracked connections is reached. -/
  | exhausted
  /-- No admission slot came free in time. -/
  | timedOut
  /-- The caller gave up while waiting for a slot. -/
  | cancelled
  /-- The connection failed validation and was discarded. -/
  | badConnection
  /-- A connection that is checked out must not be closed. -/
  | inUse
  /-- A new connection could not be dialed. -/
  | dial (reason : String)
  /-- A checkout hook rejected the connection. -/
  | hook (reason : String)
  /-- The transport under a connection failed to close. -/
  | transport (reason : String)
  deriving DecidableEq, Repr

namespace Fault

/-- The wording of the fault. -/
def message : Fault → String
  | closed => "connection pool is closed"
  | exhausted => "connection pool exhausted"
  | timedOut => "connection pool timeout"
  | cancelled => "operation cancelled"
  | badConnection => "bad connection"
  | inUse => "connection is in use, refusing to close it"
  | dial reason => "dial failed: " ++ reason
  | hook reason => "connection hook failed: " ++ reason
  | transport reason => "transport error: " ++ reason

/-- Whether asking again later may succeed. -/
def isRetryable : Fault → Bool
  | exhausted | timedOut => true
  | _ => false

theorem isRetryable_iff (f : Fault) :
    f.isRetryable = true ↔ f = exhausted ∨ f = timedOut := by
  cases f <;> simp [isRetryable]

end Fault

end PooledRouting.Pool
