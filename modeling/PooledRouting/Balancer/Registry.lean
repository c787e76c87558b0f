import PooledRouting.Balancer.Endpoint

/-!
# The registry of a balancer

A registry lists the endpoints that a balancer chooses between, in the
order in which they were registered, together with whatever state a
strategy keeps beside the list.  No two members have the same address.

A registry is closed once and stays closed.  Then it takes no member and
serves no selection any more, but members can still be removed.
-/

namespace PooledRouting.Balancer

/-- A registered endpoint: its number in the fleet and its address. -/
structure Member where
  id : Nat
  addr : String
  deriving DecidableEq, Repr

/-- The members of a balancer, with the state of its strategy. -/
structure Registry (σ : Type) where
  members : List Member := []
  state : σ
  closed : Bool := false

namespace Registry

variable {σ : Type}

/-- A registry without members. -/
def empty (state : σ) : Registry σ where
  state := state

/-- The place of the address in the order of registration. -/
def position? (r : Registry σ) (addr : String) : Option Nat :=
  r.members.findIdx? fun m => m.addr == addr

/-- The members by number. -/
def ids (r : Registry σ) : List Nat :=
  r.members.map Member.id

/-- Register a member, unless its address is taken. -/
def push (r : Registry σ) (m : Member) : Except Fault (Registry σ) :=
  if (r.position? m.addr).isSome then .error (.duplicate m.addr)
  else .ok { r with members := r.members ++ [m] }

/-- Refuse if the registry is closed. -/
def checkOpen (r : Registry σ) : Except Fault Unit :=
  if r.closed then .error .closed else .ok ()

/-- Refuse if there is nothing to select, or the registry is closed. -/
def checkSelectable (r : Registry σ) : Except Fault Unit :=
  if r.closed then .error .closed
  else if r.members.isEmpty then .error .noEndpoint
  else .ok ()

/-- Register a member with a registry that has to be open. -/
def pushOpen (r : Registry σ) (m : Member) : Except Fault (Registry σ) :=
  match r.checkOpen with
  | .error fault => .error fault
  | .ok () => r.push m

/-- Change the state of the strategy. -/
def mapState (r : Registry σ) (f : σ → σ) : Registry σ :=
  { r with state := f r.state }

/-- A member that was removed. -/
structure Removal (σ : Type) where
  /-- Its former place in the order of registration. -/
  index : Nat
  member : Member
  registry : Registry σ

/-- Remove the member with this address. -/
def remove? (r : Registry σ) (addr : String) : Option (Removal σ) :=
  match r.position? addr with
  | none => none
  | some i =>
    (r.members[i]?).map fun m => ⟨i, m, { r with members := r.members.eraseIdx i }⟩

/-- Close the registry and every registered endpoint, in the order of
registration.  The first failure is reported, and every endpoint is
closed all the same.  Later calls do nothing. -/
def close {ε : Type} [Endpoint ε] (r : Registry σ) (fleet : Fleet ε) :
    Except Fault Unit × Registry σ × Fleet ε :=
  if r.closed then (.ok (), r, fleet)
  else
    let (result, fleet) := Fleet.closeAll fleet r.ids
    (result.mapError .endpoint, { r with closed := true }, fleet)

end Registry

end PooledRouting.Balancer
