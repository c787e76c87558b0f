import PooledRouting.Balancer.Endpoint
import PooledRouting.Pool.Operations
import PooledRouting.Text.Quoted

/-!
# Pooled endpoints

A pooled endpoint hands out connections of its own pool.  Its active
count is the greater one of the selections that were not released yet
and the connections that are checked out, so that a selection which has
since taken a connection counts once.
-/

namespace PooledRouting

/-- An endpoint with a pool of connections behind it. -/
structure PooledEndpoint where
  addr : String
  weight : UInt32
  pool : Pool
  /-- The selections that were not released yet. -/
  selections : UInt64 := 0

namespace PooledEndpoint

/-- The work that is under way. -/
def active (e : PooledEndpoint) : Nat :=
  max e.selections.toNat e.pool.counters.inUse

/-- The connections that wait to be used. -/
def idle (e : PooledEndpoint) : Nat :=
  e.pool.idle.length

/-- Count a selection. -/
def addActive (e : PooledEndpoint) : PooledEndpoint :=
  { e with selections := e.selections + 1 }

/-- Release a selection. -/
def releaseActive (e : PooledEndpoint) : PooledEndpoint :=
  { e with selections := Balancer.countDown e.selections }

/-- Close the pool.  That it is closed already is no failure. -/
def close (e : PooledEndpoint) : Except Pool.Fault Unit × PooledEndpoint :=
  let (result, pool) := e.pool.close
  (match result with
    | .error .closed => .ok ()
    | result => result, { e with pool })

/-- Change the pool. -/
def mapPool (e : PooledEndpoint) (f : Pool → Pool) : PooledEndpoint :=
  { e with pool := f e.pool }

/-- The endpoint in words. -/
def describe (e : PooledEndpoint) : String :=
  "PoolEndpoint \x7b addr: " ++ Text.quote e.addr ++
    ", weight: " ++ toString e.weight.toNat ++
    ", active: " ++ toString e.active ++ " \x7d"

instance : Balancer.Endpoint PooledEndpoint where
  addr := addr
  weight := weight
  active := active
  idle := idle
  addActive := addActive
  close := close

end PooledEndpoint

end PooledRouting
