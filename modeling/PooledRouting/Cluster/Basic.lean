import PooledRouting.Balancer.Basic
import PooledRouting.Cluster.PooledEndpoint

/-!
# Clusters

A cluster is a balancer over pooled endpoints under one clock.  Its calls
of `get` are numbered across the endpoints; each stands for a call on the
pool of one endpoint.  The connection that a call ended with is held
until its caller drops or discards it, which happens once.

The pools share nothing but the clock, so each of them settles by
itself.
-/

namespace PooledRouting

namespace Cluster

/-- A call of `get`: the endpoint it went to and its number there. -/
structure Call where
  endpoint : Nat
  number : Nat
  deriving DecidableEq, Repr

/-- What an endpoint is made from. -/
structure EndpointPlan where
  addr : String
  weight : UInt32 := 1
  options : Pool.Options
  dialer : Nat → Pool.Course
  pauses : Pool.Pauses := {}

/-- The endpoint of the plan, with a pool that starts now. -/
def EndpointPlan.endpoint (plan : EndpointPlan) (now : Nat) : PooledEndpoint where
  addr := plan.addr
  weight := plan.weight
  pool := (Pool.create plan.options plan.dialer now true).setPauses plan.pauses

end Cluster

/-- A balancer over pooled endpoints. -/
structure Cluster where
  balancer : Balancer
  fleet : Balancer.Fleet PooledEndpoint
  now : Nat
  /-- The calls of `get`, by number from one. -/
  calls : Array Cluster.Call
  /-- The calls whose connection was given back. -/
  finished : List Nat

namespace Cluster

/-- A cluster of the planned endpoints. -/
def build (strategy : Strategy) (virtualNodes : Nat) (plans : List EndpointPlan) :
    Except Balancer.Fault Cluster :=
  let fleet := (plans.map fun plan => plan.endpoint 0).toArray
  match Balancer.build strategy virtualNodes fleet with
  | .error fault => .error fault
  | .ok balancer => .ok { balancer, fleet, now := 0, calls := #[], finished := [] }

/-- Change one endpoint. -/
def modify (c : Cluster) (endpoint : Nat) (f : PooledEndpoint → PooledEndpoint) :
    Cluster :=
  { c with fleet := c.fleet.modify endpoint f }

/-- Change the pool of one endpoint. -/
def onPool (c : Cluster) (endpoint : Nat) (f : Pool → Pool) : Cluster :=
  c.modify endpoint fun e => e.mapPool f

/-! ## Membership -/

/-- Register an endpoint of the fleet. -/
def register (c : Cluster) (endpoint : Nat) : Except Balancer.Fault Unit × Cluster :=
  match c.fleet[endpoint]? with
  | none => (.error .noEndpoint, c)
  | some e =>
    match c.balancer.add c.fleet ⟨endpoint, e.addr⟩ with
    | .error fault => (.error fault, c)
    | .ok balancer => (.ok (), { c with balancer })

/-- Make a new endpoint and register it.  One that is refused belongs to
the fleet all the same. -/
def add (c : Cluster) (plan : EndpointPlan) : Except Balancer.Fault Unit × Cluster :=
  { c with fleet := c.fleet.push (plan.endpoint c.now) }.register c.fleet.size

/-- Remove the endpoint with this address from the balancer. -/
def remove (c : Cluster) (addr : String) : Option Nat × Cluster :=
  match c.balancer.remove? addr with
  | none => (none, c)
  | some (m, balancer) => (some m.id, { c with balancer })

/-- Close the balancer and with it every registered endpoint. -/
def close (c : Cluster) : Except Balancer.Fault Unit × Cluster :=
  let (result, balancer, fleet) := c.balancer.close c.fleet
  (result, { c with balancer, fleet })

/-- Close one endpoint. -/
def closeEndpoint (c : Cluster) (endpoint : Nat) : Except Pool.Fault Unit × Cluster :=
  let (result, fleet) := Balancer.Fleet.close c.fleet endpoint
  (result, { c with fleet })

/-- Close the pool of one endpoint. -/
def closePool (c : Cluster) (endpoint : Nat) : Except Pool.Fault Unit × Cluster :=
  match c.fleet[endpoint]? with
  | none => (.ok (), c)
  | some e =>
    let (result, pool) := e.pool.close
    (result, c.modify endpoint fun e => { e with pool })

/-! ## Traffic -/

/-- Choose an endpoint. -/
def select (c : Cluster) (key : Option String) :
    Except Balancer.Fault Balancer.Member × Cluster :=
  match c.balancer.select c.fleet key with
  | .error fault => (.error fault, c)
  | .ok s => (.ok s.member, { c with balancer := s.balancer, fleet := s.fleet })

/-- Choose an endpoint, in words. -/
def selectInWords? (c : Cluster) (key : Option String) :
    Option (Except Balancer.Fault Balancer.Member × Cluster) := do
  match ← c.balancer.selectInWords? c.fleet key with
  | .error fault => return (.error fault, c)
  | .ok s => return (.ok s.member, { c with balancer := s.balancer, fleet := s.fleet })

/-- Start a `get` on the endpoint. -/
def get (c : Cluster) (endpoint : Nat) (cancelled : Bool) : Cluster :=
  match c.fleet[endpoint]? with
  | none => c
  | some e =>
    { c with
      calls := c.calls.push ⟨endpoint, e.pool.getCount + 1⟩ }.onPool endpoint
        fun p => p.get cancelled

/-- The call with this number. -/
def call? (c : Cluster) (number : Nat) : Option Call :=
  if number = 0 then none else c.calls[number - 1]?

/-- The number of the call that is this one of an endpoint. -/
def numberOf? (c : Cluster) (call : Call) : Option Nat :=
  (c.calls.findIdx? fun d => d == call).map (· + 1)

/-- Fire the token of a `get`. -/
def cancel (c : Cluster) (number : Nat) : Cluster :=
  match c.call? number with
  | none => c
  | some call => c.onPool call.endpoint fun p => p.cancel call.number

/-- How the call ended, if it has. -/
def ending? (c : Cluster) (number : Nat) : Option (Except Pool.Fault ConnectionId) := do
  let call ← c.call? number
  let e ← c.fleet[call.endpoint]?
  e.pool.ending? call.number

/-- A connection that is held: where it comes from and its id there. -/
structure Lease where
  endpoint : Nat
  connection : ConnectionId
  deriving DecidableEq, Repr

/-- The connection that the call holds. -/
def lease? (c : Cluster) (number : Nat) : Option Lease :=
  if number ∈ c.finished then none
  else do
    let call ← c.call? number
    let e ← c.fleet[call.endpoint]?
    let id ← e.pool.lease? call.number
    return ⟨call.endpoint, id⟩

/-- Give the connection of the call back to its pool, and tell whether it
held one. -/
def drop (c : Cluster) (number : Nat) : Bool × Cluster :=
  match c.lease? number with
  | none => (false, c)
  | some lease =>
    (true,
      { c with finished := number :: c.finished }.onPool lease.endpoint fun p =>
        p.release lease.connection)

/-- Close the connection of the call, whatever the transport says, and
give it back. -/
def discard (c : Cluster) (number : Nat) : Bool × Cluster :=
  match c.lease? number with
  | none => (false, c)
  | some lease =>
    (c.onPool lease.endpoint fun p => (p.closeConnection lease.connection).2).drop number

/-- The connection that the call holds, as it is now. -/
def connection? (c : Cluster) (number : Nat) : Option Connection := do
  let lease ← c.lease? number
  let e ← c.fleet[lease.endpoint]?
  e.pool.connection? lease.connection

/-- Let a dial of the endpoint come back, and tell whether it was under
way. -/
def resolve (c : Cluster) (endpoint attempt : Nat) (fault : Option String) :
    Bool × Cluster :=
  match c.fleet[endpoint]? with
  | none => (false, c)
  | some e =>
    let (resolved, pool) := e.pool.resolve attempt fault
    (resolved, c.onPool endpoint fun _ => pool)

/-- Count a selection of the endpoint. -/
def addActive (c : Cluster) (endpoint : Nat) : Cluster :=
  c.modify endpoint PooledEndpoint.addActive

/-- Release a selection of the endpoint. -/
def releaseActive (c : Cluster) (endpoint : Nat) : Cluster :=
  c.modify endpoint PooledEndpoint.releaseActive

/-! ## Time -/

/-- Let the tasks of every pool run until nothing can move. -/
def settle (c : Cluster) : Cluster :=
  { c with fleet := c.fleet.map fun e => e.mapPool Pool.settle }

/-- Move the clock. -/
def advance (c : Cluster) (ms : Nat) : Cluster :=
  { c with
    now := c.now + ms
    fleet := c.fleet.map fun e => e.mapPool fun p => p.advance ms }

/-- The next time after now at which something is due. -/
def nextDeadline? (c : Cluster) : Option Nat :=
  ((c.fleet.toList.flatMap fun e => e.pool.deadlines).filter fun d => c.now < d).min?

/-- The held connection in words. -/
def describeLease (c : Connection) : String :=
  "PooledConn \x7b conn: " ++ c.describe ++ " \x7d"

end Cluster

end PooledRouting
