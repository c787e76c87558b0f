import PooledRouting.Balancer.Endpoint

/-!
# Plain endpoints

A plain endpoint has no connections behind it: its figures are set from
outside, and it only counts what is done to it.
-/

namespace PooledRouting.Balancer

/-- An endpoint that is nothing but its figures. -/
structure PlainEndpoint where
  addr : String
  weight : UInt32 := 1
  active : UInt64 := 0
  idle : UInt64 := 0
  /-- The failure that closing reports, if any. -/
  closeFault : Option Pool.Fault := none
  /-- The calls of `close`. -/
  closes : Nat := 0
  /-- The resources that were handed out. -/
  acquired : Nat := 0
  deriving DecidableEq, Repr

namespace PlainEndpoint

/-- Count one more unit of work. -/
def addActive (e : PlainEndpoint) : PlainEndpoint :=
  { e with active := e.active + 1 }

/-- A unit of work is complete. -/
def release (e : PlainEndpoint) : PlainEndpoint :=
  { e with active := countDown e.active }

/-- Count a call, and fail as the endpoint is set to. -/
def close (e : PlainEndpoint) : Except Pool.Fault Unit × PlainEndpoint :=
  (match e.closeFault with
    | none => .ok ()
    | some fault => .error fault,
    { e with closes := e.closes + 1 })

/-- Hand out the resource, which is the address, unless the caller has
given up already. -/
def acquire (e : PlainEndpoint) (cancelled : Bool) :
    Except Pool.Fault String × PlainEndpoint :=
  if cancelled then (.error .cancelled, e)
  else (.ok e.addr, { e with acquired := e.acquired + 1 })

/-- Overwrite the figures that are given. -/
def set (e : PlainEndpoint) (active idle : Option UInt64) (weight : Option UInt32) :
    PlainEndpoint :=
  { e with
    active := active.getD e.active
    idle := idle.getD e.idle
    weight := weight.getD e.weight }

instance : Endpoint PlainEndpoint where
  addr := addr
  weight := weight
  active e := e.active.toNat
  idle e := e.idle.toNat
  addActive := addActive
  close := close

end PlainEndpoint

end PooledRouting.Balancer
