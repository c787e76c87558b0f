import PooledRouting.Binary64.Arithmetic

/-!
# Statistics of a pool

`Counters` are kept by the pool as it works.  The counts of events are
32-bit words and wrap; the gauge of connections that are checked out
does not fall below zero.  `Stats` adds the numbers of connections at
one moment.
-/

namespace PooledRouting.Pool

/-- What a pool counts. -/
structure Counters where
  hits : UInt32 := 0
  misses : UInt32 := 0
  timeouts : UInt32 := 0
  stale : UInt32 := 0
  invalid : UInt32 := 0
  /-- The connections that are checked out. -/
  inUse : Nat := 0
  deriving DecidableEq, Repr

namespace Counters

/-- An idle connection was used again. -/
def hit (c : Counters) : Counters := { c with hits := c.hits + 1 }

/-- There was no idle connection to use. -/
def miss (c : Counters) : Counters := { c with misses := c.misses + 1 }

/-- A wait for a slot took too long. -/
def timeOut (c : Counters) : Counters := { c with timeouts := c.timeouts + 1 }

/-- A connection was closed because enough were idle. -/
def retireStale (c : Counters) : Counters := { c with stale := c.stale + 1 }

/-- A connection was closed because it was no longer valid. -/
def retireInvalid (c : Counters) : Counters := { c with invalid := c.invalid + 1 }

/-- A connection was checked out. -/
def checkOut (c : Counters) : Counters := { c with inUse := c.inUse + 1 }

/-- A connection was given back. -/
def checkIn (c : Counters) : Counters := { c with inUse := c.inUse - 1 }

end Counters

/-- The state of a pool in figures, at one moment. -/
structure Stats where
  hits : UInt32 := 0
  misses : UInt32 := 0
  timeouts : UInt32 := 0
  /-- The tracked connections, idle or checked out. -/
  totalConns : Nat := 0
  idleConns : Nat := 0
  staleConns : UInt32 := 0
  invalidConns : UInt32 := 0
  inUseConns : Nat := 0
  deriving DecidableEq, Repr

namespace Stats

/-- The connections in use right now. -/
def activeConns (s : Stats) : Nat := s.inUseConns

/-- The calls that the hits and the misses count together. -/
def counted (s : Stats) : Nat :=
  s.hits.toNat + s.misses.toNat

/-- The part of the requests that an idle connection served.  The two counts
are added as words, and there is no answer where their sum does not fit one:
the addition breaks off. -/
def hitRatio? (s : Stats) : Option Binary64 :=
  if UInt32.size ≤ s.counted then none
  else if s.counted = 0 then some Binary64.zero
  else some (Binary64.ratio s.hits.toNat s.counted)

/-- The figures of a pool that has done nothing. -/
def empty : Stats := {}

end Stats

/-- The figures at a moment with these numbers of connections. -/
def Counters.snapshot (c : Counters) (total idle : Nat) : Stats where
  hits := c.hits
  misses := c.misses
  timeouts := c.timeouts
  totalConns := total
  idleConns := idle
  staleConns := c.stale
  invalidConns := c.invalid
  inUseConns := c.inUse

end PooledRouting.Pool
