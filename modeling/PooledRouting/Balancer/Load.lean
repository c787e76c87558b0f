import PooledRouting.Balancer.Choice
import PooledRouting.Balancer.Endpoint

/-!
# Choosing by load

A load is an exact fraction, lower is better.  Four rules say what the
load of an endpoint is; under the last one an endpoint without any
active work goes first, whatever its weight.  A weight of zero counts as
one.
-/

namespace PooledRouting.Balancer

/-- A fraction of natural numbers. -/
structure Load where
  num : Nat
  den : Nat
  deriving DecidableEq, Repr

namespace Load

/-- Active connections count this much more than idle ones. -/
def activeFactor : Nat := 256

/-- Whether the first load is lower. -/
def less (x y : Load) : Bool :=
  x.num * y.den < y.num * x.den

/-- A load per unit of weight. -/
def perWeight (num : Nat) (weight : UInt32) : Load :=
  ⟨num, max weight.toNat 1⟩

/-- The load of these connections by themselves. -/
def ofConnections (active idle : Nat) : Load :=
  ⟨active * activeFactor + idle, 1⟩

/-- The load of these connections per unit of weight. -/
def ofWeightedConnections (active idle : Nat) (weight : UInt32) : Load :=
  perWeight (active * activeFactor + idle) weight

/-- The delay that one more unit of work would see. -/
def expectedDelay (active : Nat) (weight : UInt32) : Load :=
  perWeight ((active + 1) * activeFactor) weight

end Load

/-- The rules of the strategies that choose by load. -/
inductive LoadRule where
  | connections
  | weightedConnections
  | expectedDelay
  | neverQueue
  deriving DecidableEq, Repr

namespace LoadRule

variable {ε : Type} [Endpoint ε]

/-- The load of an endpoint under the rule. -/
def load (rule : LoadRule) (fleet : Fleet ε) (id : Nat) : Load :=
  match rule with
  | connections => Load.ofConnections (fleet.active id) (fleet.idle id)
  | weightedConnections =>
    Load.ofWeightedConnections (fleet.active id) (fleet.idle id) (fleet.weight id)
  | expectedDelay | neverQueue => Load.expectedDelay (fleet.active id) (fleet.weight id)

/-- The place of the first endpoint of lowest load. -/
def leastLoaded? (rule : LoadRule) (fleet : Fleet ε) (ids : List Nat) : Option Nat :=
  (firstBest? Load.less (ids.map (rule.load fleet))).map Prod.fst

/-- The place of the endpoint that the rule chooses. -/
def place? (rule : LoadRule) (fleet : Fleet ε) (ids : List Nat) : Option Nat :=
  match rule with
  | neverQueue =>
    match ids.findIdx? fun id => fleet.active id == 0 with
    | some i => some i
    | none => rule.leastLoaded? fleet ids
  | _ => rule.leastLoaded? fleet ids

theorem leastLoaded?_lt {rule : LoadRule} {fleet : Fleet ε} {ids : List Nat} {i : Nat}
    (h : rule.leastLoaded? fleet ids = some i) : i < ids.length := by
  obtain ⟨⟨j, x⟩, hx, rfl⟩ := Option.map_eq_some_iff.1 h
  have hget := getElem?_of_firstBest? hx
  obtain ⟨hlt, -⟩ := List.getElem?_eq_some_iff.1 hget
  simpa using hlt

theorem place?_lt {rule : LoadRule} {fleet : Fleet ε} {ids : List Nat} {i : Nat}
    (h : rule.place? fleet ids = some i) : i < ids.length := by
  unfold place? at h
  split at h
  · split at h
    · rename_i j hj
      cases h
      obtain ⟨hlt, -⟩ := List.findIdx?_eq_some_iff_getElem.1 hj
      exact hlt
    · exact leastLoaded?_lt h
  · exact leastLoaded?_lt h

end LoadRule

end PooledRouting.Balancer
