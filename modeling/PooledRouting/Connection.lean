import PooledRouting.Text.Truth

/-!
# Connections

A `Connection` is a transport together with what a pool has to know of
it: when it was opened, when it was last taken out, whether somebody
holds it, and whether it has been closed.  Times are milliseconds of one
clock, and a limit of zero means no limit.

Closing runs once: the first call closes the transport and alone can
report its failure, and every later call does nothing.  A closed
connection can be given back but never taken out again, and its time of
last use stands still.
-/

namespace PooledRouting

/-- What tells a connection of a pool from all others. -/
inductive ConnectionId where
  /-- The connection that this dial attempt of the pool made. -/
  | dialed (attempt : Nat)
  /-- One that no dial of the pool made, by number. -/
  | foreign (number : Nat)
  deriving DecidableEq, Repr

/-- A transport under the eyes of a pool. -/
structure Connection where
  id : ConnectionId
  createdAt : Nat
  /-- The greatest age; zero for no limit. -/
  maxLifetime : Nat
  /-- The longest time without use; zero for no limit. -/
  maxIdleTime : Nat
  usedAt : Nat
  inUse : Bool := false
  closed : Bool := false
  deriving DecidableEq, Repr

namespace Connection

/-- A connection that is opened now. -/
def openedAt (now : Nat) (id : ConnectionId) (maxLifetime maxIdleTime : Nat) :
    Connection where
  id := id
  createdAt := now
  maxLifetime := maxLifetime
  maxIdleTime := maxIdleTime
  usedAt := now

/-- Whether the connection may still be handed out. -/
def isValid (c : Connection) (now : Nat) : Bool :=
  !c.closed &&
    (c.maxLifetime == 0 || now - c.createdAt ≤ c.maxLifetime) &&
    (c.maxIdleTime == 0 || now - c.usedAt ≤ c.maxIdleTime)

/-- Set or clear the mark of being held.  Setting it is a use, and is
passed over on a closed connection. -/
def mark (c : Connection) (now : Nat) (inUse : Bool) : Connection :=
  if inUse then
    if c.closed then c else { c with inUse := true, usedAt := now }
  else { c with inUse := false }

/-- The connection taken out, unless it is closed. -/
def takeOut? (c : Connection) (now : Nat) : Option Connection :=
  if c.closed then none else some { c with inUse := true, usedAt := now }

/-- Note a use without taking the connection out. -/
def touch (c : Connection) (now : Nat) : Connection :=
  if c.closed then c else { c with usedAt := now }

/-- What a call of `close` comes to. -/
structure Closing where
  connection : Connection
  /-- Whether this call closed the transport. -/
  ran : Bool
  result : Except String Unit

/-- Close the connection.  `fault` is the failure that the transport
reports when it is closed, if any. -/
def close (c : Connection) (fault : Option String) : Closing :=
  if c.closed then ⟨c, false, .ok ()⟩
  else
    ⟨{ c with closed := true }, true,
      match fault with
      | none => .ok ()
      | some reason => .error reason⟩

/-- The connection in words; times are not told. -/
def describe (c : Connection) : String :=
  "Connection \x7b created_at: Instant, used_at: Instant, in_use: " ++
    Text.writeTruth c.inUse ++ ", closed: " ++ Text.writeTruth c.closed ++ " \x7d"

@[simp]
theorem close_closed (c : Connection) (fault : Option String) :
    (c.close fault).connection.closed = true := by
  unfold close
  split <;> simp_all

theorem close_ran (c : Connection) (fault : Option String) :
    (c.close fault).ran = !c.closed := by
  unfold close
  split <;> simp_all

@[simp]
theorem mark_id (c : Connection) (now : Nat) (b : Bool) : (c.mark now b).id = c.id := by
  unfold mark
  split
  · split <;> rfl
  · rfl

@[simp]
theorem mark_closed (c : Connection) (now : Nat) (b : Bool) :
    (c.mark now b).closed = c.closed := by
  unfold mark
  split
  · split <;> rfl
  · rfl

@[simp]
theorem mark_maxLifetime (c : Connection) (now : Nat) (b : Bool) :
    (c.mark now b).maxLifetime = c.maxLifetime := by
  unfold mark
  split
  · split <;> rfl
  · rfl

@[simp]
theorem touch_id (c : Connection) (now : Nat) : (c.touch now).id = c.id := by
  unfold touch
  split <;> rfl

@[simp]
theorem touch_inUse (c : Connection) (now : Nat) : (c.touch now).inUse = c.inUse := by
  unfold touch
  split <;> rfl

@[simp]
theorem touch_closed (c : Connection) (now : Nat) : (c.touch now).closed = c.closed := by
  unfold touch
  split <;> rfl

@[simp]
theorem touch_maxLifetime (c : Connection) (now : Nat) :
    (c.touch now).maxLifetime = c.maxLifetime := by
  unfold touch
  split <;> rfl

@[simp]
theorem close_maxLifetime (c : Connection) (fault : Option String) :
    (c.close fault).connection.maxLifetime = c.maxLifetime := by
  unfold close
  split <;> rfl

@[simp]
theorem close_inUse (c : Connection) (fault : Option String) :
    (c.close fault).connection.inUse = c.inUse := by
  unfold close
  split <;> rfl

@[simp]
theorem close_id (c : Connection) (fault : Option String) :
    (c.close fault).connection.id = c.id := by
  unfold close
  split <;> rfl

end Connection

end PooledRouting
