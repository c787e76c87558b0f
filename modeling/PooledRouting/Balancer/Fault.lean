import PooledRouting.Pool.Fault

/-!
# What can go wrong in a balancer

A `Fault` says why a selection or a change of the registry was refused.
A failure of an endpoint itself is passed on unchanged, with its own
wording.
-/

namespace PooledRouting.Balancer

/-- Why an operation of a balancer failed. -/
inductive Fault where
  /-- The registry holds no endpoint. -/
  | noEndpoint
  /-- The strategy needs a key and was given none. -/
  | noKey
  /-- The balancer has been closed. -/
  | closed
  /-- A weighted strategy was given an endpoint of weight zero. -/
  | zeroWeight (addr : String)
  /-- The address is already registered. -/
  | duplicate (addr : String)
  /-- The name belongs to no strategy. -/
  | unknownStrategy (name : String)
  /-- An endpoint failed. -/
  | endpoint (fault : Pool.Fault)
  deriving DecidableEq, Repr

/-- The wording of the fault. -/
def Fault.message : Fault → String
  | noEndpoint => "no endpoint available"
  | noKey => "no source key supplied for hash selection"
  | closed => "load balancer is closed"
  | zeroWeight addr => "endpoint " ++ addr ++ " has an invalid weight of zero"
  | duplicate addr => "endpoint " ++ addr ++ " is already registered"
  | unknownStrategy name => "unknown load balance type: " ++ name
  | endpoint fault => fault.message

end PooledRouting.Balancer
