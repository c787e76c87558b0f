import PooledRouting.Balancer.Load
import PooledRouting.Balancer.Ring
import PooledRouting.Balancer.Rotation
import PooledRouting.Balancer.SmoothWeights
import PooledRouting.Balancer.Strategy
import PooledRouting.Checksum

/-!
# Balancers

A balancer is a registry whose state is a `Policy`: the state of the
strategy by which it chooses.  `add`, `remove?`, `select` and `close` are
the same for all strategies but for what the policy does with its state.

The strategies that choose by load count the work that they route; the
others leave the figures of the endpoints alone.

`select` computes in whole numbers.  The program computes in words and
breaks off where they overflow, which they do in a smooth rotation only:
`selectInWords?` is the selection with that in place, and has no answer
there.
-/

namespace PooledRouting

namespace Balancer

/-- The state of a strategy. -/
inductive Policy where
  | rotation (r : Rotation)
  | smooth (w : SmoothWeights)
  | ring (r : Ring)
  | load (rule : LoadRule)

namespace Policy

/-- The policy of a strategy before any member is registered.  The ring
hashes with CRC-32. -/
def initial (virtualNodes : Nat) : Strategy → Policy
  | .roundRobin => rotation {}
  | .weightedRoundRobin => smooth {}
  | .consistentHash => ring (Ring.empty Checksum.ofText virtualNodes)
  | .leastConnection => load .connections
  | .weightedLeastConnection => load .weightedConnections
  | .shortestExpectedDelay => load .expectedDelay
  | .neverQueue => load .neverQueue

/-- The strategy of the policy. -/
def strategy : Policy → Strategy
  | rotation _ => .roundRobin
  | smooth _ => .weightedRoundRobin
  | ring _ => .consistentHash
  | load .connections => .leastConnection
  | load .weightedConnections => .weightedLeastConnection
  | load .expectedDelay => .shortestExpectedDelay
  | load .neverQueue => .neverQueue

/-- Take in a new member. -/
def join (p : Policy) (m : Member) (weight : UInt32) : Policy :=
  match p with
  | smooth w => smooth (w.push weight)
  | ring r => ring (r.add m)
  | p => p

/-- Let go of the member at this place; `others` are those that stay. -/
def leave (p : Policy) (index : Nat) (m : Member) (others : List Member) : Policy :=
  match p with
  | smooth w => smooth (w.erase index)
  | ring r => ring (r.remove m.addr others)
  | p => p

theorem strategy_initial (virtualNodes : Nat) (s : Strategy) :
    (initial virtualNodes s).strategy = s := by
  cases s <;> rfl

@[simp]
theorem strategy_join (p : Policy) (m : Member) (weight : UInt32) :
    (p.join m weight).strategy = p.strategy := by
  cases p <;> rfl

@[simp]
theorem strategy_leave (p : Policy) (index : Nat) (m : Member) (others : List Member) :
    (p.leave index m others).strategy = p.strategy := by
  cases p <;> rfl

end Policy

end Balancer

/-- A registry that chooses by a policy. -/
abbrev Balancer := Balancer.Registry Balancer.Policy

namespace Balancer

variable {ε : Type} [Endpoint ε]

/-- A balancer without members. -/
def create (strategy : Strategy) (virtualNodes : Nat) : Balancer :=
  Registry.empty (Policy.initial virtualNodes strategy)

/-- The strategy of the balancer. -/
def strategy (b : Balancer) : Strategy :=
  b.state.strategy

/-- Register an endpoint.  A weighted strategy refuses the weight zero,
before anything else is looked at. -/
def add (b : Balancer) (fleet : Fleet ε) (m : Member) : Except Fault Balancer :=
  let weight := fleet.weight m.id
  if b.strategy.isWeighted ∧ weight = 0 then .error (.zeroWeight m.addr)
  else
    match b.pushOpen m with
    | .error fault => .error fault
    | .ok b => .ok (b.mapState fun p => p.join m weight)

/-- Register endpoints in turn, up to the first that is refused. -/
def addAll (fleet : Fleet ε) (b : Balancer) : List Member → Except Fault Balancer
  | [] => .ok b
  | m :: ms =>
    match b.add fleet m with
    | .error fault => .error fault
    | .ok b => addAll fleet b ms

/-- The endpoints of the fleet, in order, as members. -/
def membersOf (fleet : Fleet ε) : List Member :=
  fleet.toList.mapIdx fun id e => ⟨id, Endpoint.addr e⟩

/-- A balancer over all endpoints of the fleet. -/
def build (strategy : Strategy) (virtualNodes : Nat) (fleet : Fleet ε) :
    Except Fault Balancer :=
  addAll fleet (create strategy virtualNodes) (membersOf fleet)

/-- Remove the endpoint with this address, which is not closed. -/
def remove? (b : Balancer) (addr : String) : Option (Member × Balancer) :=
  (Registry.remove? b addr).map fun x =>
    (x.member,
      x.registry.mapState fun p => p.leave x.index x.member x.registry.members)

/-- What a selection comes to. -/
structure Selection (ε : Type) where
  member : Member
  balancer : Balancer
  fleet : Fleet ε

/-- The member that the policy chooses, with the state afterwards.  It is
`none` without members. -/
def choose? (b : Balancer) (fleet : Fleet ε) (key : String) : Option (Selection ε) :=
  match b.state with
  | .rotation r =>
    (b.members[r.place b.members.length]?).map fun m =>
      ⟨m, b.mapState fun _ => .rotation r.turn, fleet⟩
  | .smooth w => do
    let place ← w.place?
    let m ← b.members[place]?
    let weights := b.ids.map fleet.weight
    return ⟨m, b.mapState fun _ => .smooth (w.turn place weights), fleet⟩
  | .ring r => (r.holder? key).map fun m => ⟨m, b, fleet⟩
  | .load rule => do
    let place ← rule.place? fleet b.ids
    let m ← b.members[place]?
    return ⟨m, b, fleet.addActive m.id⟩

/-- Choose an endpoint.  Only a hash ring looks at the key, and it cannot
do without one. -/
def select (b : Balancer) (fleet : Fleet ε) (key : Option String) :
    Except Fault (Selection ε) :=
  match b.checkSelectable with
  | .error fault => .error fault
  | .ok () =>
    if b.strategy.needsKey ∧ key = none then .error .noKey
    else
      match b.choose? fleet (key.getD "") with
      | none => .error .noEndpoint
      | some selection => .ok selection

/-- The state of the strategy after a choice that computes in words; `chosen`
is what it is in whole numbers. -/
def chosenInWords? (b : Balancer) (fleet : Fleet ε) (chosen : Policy) : Option Policy :=
  match b.state with
  | .smooth w => do
    let place ← w.place?
    let w ← w.turnInWords? place (b.ids.map fleet.weight)
    return .smooth w
  | _ => some chosen

/-- Choose an endpoint, in words. -/
def selectInWords? (b : Balancer) (fleet : Fleet ε) (key : Option String) :
    Option (Except Fault (Selection ε)) :=
  match b.select fleet key with
  | .error fault => some (.error fault)
  | .ok x => do
    let state ← b.chosenInWords? fleet x.balancer.state
    return .ok { x with balancer := { x.balancer with state := state } }

/-- The current weight of the endpoint with this address, in a smooth
rotation. -/
def currentWeight? (b : Balancer) (addr : String) : Option Int :=
  match b.state with
  | .smooth w => (b.position? addr).bind fun i => w.currents[i]?
  | _ => none

end Balancer

end PooledRouting
