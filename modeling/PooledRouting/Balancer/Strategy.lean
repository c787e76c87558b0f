import PooledRouting.Balancer.Fault
import PooledRouting.Text.Blank
import PooledRouting.Text.Fold

/-!
# The seven strategies and their names

Every strategy has one canonical name, in snake case, and further
spellings that `Strategy.parse` accepts.  Parsing takes off the blanks
at both ends, folds the case of letters and reads a hyphen as an
underscore.  A canonical name parses to its own strategy
(`parse_name`).
-/

namespace PooledRouting

/-- How a balancer picks an endpoint. -/
inductive Strategy where
  /-- In turn, in the order of registration. -/
  | roundRobin
  /-- In turn, in proportion to the weights. -/
  | weightedRoundRobin
  /-- By the key of the request, on a ring of hashes. -/
  | consistentHash
  /-- The fewest active, then idle, connections. -/
  | leastConnection
  /-- The least load that one more request would meet. -/
  | shortestExpectedDelay
  /-- The fewest connections in relation to the weight. -/
  | weightedLeastConnection
  /-- An endpoint without active connections, if there is one. -/
  | neverQueue
  deriving DecidableEq, Repr, Inhabited

namespace Strategy

/-- The strategies in their listed order. -/
def all : List Strategy :=
  [roundRobin, weightedRoundRobin, consistentHash, leastConnection,
    shortestExpectedDelay, weightedLeastConnection, neverQueue]

/-- The strategy of a balancer for which none is named. -/
def standard : Strategy := roundRobin

/-- The canonical name. -/
def name : Strategy → String
  | roundRobin => "round_robin"
  | weightedRoundRobin => "weighted_round_robin"
  | consistentHash => "consistent_hash"
  | leastConnection => "least_connection"
  | shortestExpectedDelay => "shortest_expected_delay"
  | weightedLeastConnection => "weighted_least_connection"
  | neverQueue => "never_queue"

/-- The name under which a balancer of the strategy reports itself. -/
def title : Strategy → String
  | roundRobin => "RoundRobin"
  | weightedRoundRobin => "WeightedRoundRobin"
  | consistentHash => "ConsistentHash"
  | leastConnection => "LeastConnections"
  | shortestExpectedDelay => "ShortestExpectedDelay"
  | weightedLeastConnection => "WeightedLeastConnections"
  | neverQueue => "NeverQueue"

/-- Every accepted spelling, the canonical one first. -/
def spellings : Strategy → List String
  | roundRobin => ["round_robin", "roundrobin", "rr"]
  | weightedRoundRobin => ["weighted_round_robin", "weightedroundrobin", "wrr"]
  | consistentHash => ["consistent_hash", "consistenthash", "hash", "ch"]
  | leastConnection =>
    ["least_connection", "least_connections", "leastconnection", "lc"]
  | shortestExpectedDelay =>
    ["shortest_expected_delay", "shortestexpecteddelay", "sed"]
  | weightedLeastConnection =>
    ["weighted_least_connection", "weighted_least_connections",
      "weightedleastconnection", "wlc"]
  | neverQueue => ["never_queue", "neverqueue", "nq"]

/-- Whether the strategy reads the weights of its endpoints. -/
def isWeighted : Strategy → Bool
  | weightedRoundRobin | shortestExpectedDelay | weightedLeastConnection
  | neverQueue => true
  | _ => false

/-- Whether a selection needs the key of the request. -/
def needsKey : Strategy → Bool
  | consistentHash => true
  | _ => false

/-- The position among the listed strategies. -/
def index (s : Strategy) : Nat :=
  all.idxOf s

/-- The strategy with this canonical name. -/
def ofName? (text : String) : Option Strategy :=
  all.find? fun s => s.name == text

/-- A spelling without blanks at its ends, in lower case, and with
underscores for hyphens. -/
def normalize (text : String) : String :=
  String.ofList <| (Text.fold (Text.trim text.toList)).map fun c =>
    if c = '-' then '_' else c

/-- The strategy that the text names.  The fault holds the text as it
was given. -/
def parse (text : String) : Except Balancer.Fault Strategy :=
  match all.find? fun s => s.spellings.contains (normalize text) with
  | some s => .ok s
  | none => .error (.unknownStrategy text)

theorem mem_all (s : Strategy) : s ∈ all := by
  cases s <;> decide

theorem ofName?_name (s : Strategy) : ofName? s.name = some s := by
  cases s <;> decide +kernel

theorem find?_spellings_name (s : Strategy) :
    (all.find? fun t => t.spellings.contains (normalize s.name)) = some s := by
  cases s <;> decide +kernel

theorem parse_name (s : Strategy) : parse s.name = .ok s := by
  rw [parse, find?_spellings_name]

end Strategy

end PooledRouting
