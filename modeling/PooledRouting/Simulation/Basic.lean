import PooledRouting.Cluster.Basic

/-!
# Simulated traffic

A simulation sends requests through a cluster of endpoints whose dials
take a fixed time and fail at random.  A request chooses an endpoint,
takes a connection from it, works for a fixed time, gives the connection
back and releases the selection.

So many requests may be in flight at once.  A simulation goes on tick by
tick (`tick?`): the next request starts if there is room for it,
otherwise one that can go on does, and otherwise the clock moves to the
next time at which something is due.  If several requests can go on, it is
the turn of the one that started first; the program does not say.

Chance enters as a parameter (`Draws`).
-/

namespace PooledRouting

/-- What is simulated; times are in milliseconds. -/
structure Simulation where
  strategy : Strategy
  virtualNodes : Nat
  /-- The options of every pool. -/
  options : Pool.Options
  endpoints : Nat
  requests : Nat
  /-- The requests that may be in flight at once.  There is room for one in
  any case. -/
  concurrency : Nat
  /-- The number of different keys. -/
  clients : Nat
  dialLatency : Nat
  work : Nat
  /-- The probability that a dial fails; not a number stands for zero. -/
  failureRate : Binary64

namespace Simulation

/-- What is left to chance, by endpoint and attempt. -/
structure Draws where
  /-- The random word that decides whether the dial fails. -/
  dial : Nat → Nat → UInt64
  /-- The random number that chooses the pause after a failed dial of the
  probe. -/
  pause : Nat → Nat → Nat

/-! ## Endpoints -/

/-- Whether an event of this probability happens on the draw.  Below one
the probability is compared in units of `2 ^ -64`. -/
def happens (rate : Binary64) (draw : UInt64) : Bool :=
  let one := Binary64.ofNat 1
  if Binary64.below rate one then
    draw.toNat < (rate.mul (Binary64.ofNat UInt64.size)).toWord
  else
    match rate with
    | .nan .. => false
    | _ => true

/-- The address of an endpoint, counted from zero. -/
def addr (i : Nat) : String :=
  "10.0.0." ++ toString (i + 1) ++ ":8080"

/-- How the dials of an endpoint go. -/
def dialer (s : Simulation) (draws : Draws) (i attempt : Nat) : Pool.Course :=
  .answer s.dialLatency
    (if happens s.failureRate (draws.dial i attempt) then
      some ("connection refused by " ++ addr i)
    else none)

/-- The plan of an endpoint.  Later ones have more weight. -/
def endpointPlan (s : Simulation) (draws : Draws) (i : Nat) : Cluster.EndpointPlan where
  addr := addr i
  weight := UInt32.ofNat (i + 1)
  options := s.options
  dialer := s.dialer draws i
  pauses := { drawn := draws.pause i }

/-- The cluster before the first request. -/
def cluster (s : Simulation) (draws : Draws) : Except Balancer.Fault Cluster :=
  (Cluster.build s.strategy s.virtualNodes
    ((List.range s.endpoints).map (s.endpointPlan draws))).map Cluster.settle

/-! ## Requests -/

/-- The key of a request, counted from zero. -/
def key (s : Simulation) (request : Nat) : String :=
  "client-" ++ toString (request % max s.clients 1)

/-- How a request ended: with the address that served it, or with the
wording of what went wrong. -/
abbrev Outcome := Except String String

/-- A request in flight. -/
structure Flight where
  /-- The endpoint that was chosen. -/
  member : Balancer.Member
  /-- The number of its call there. -/
  call : Nat
  /-- When its work is done, once it has a connection. -/
  due : Option Nat := none

/-- A simulation under way. -/
structure Progress where
  cluster : Cluster
  /-- The requests that were started. -/
  started : Nat := 0
  /-- The requests in flight, in the order in which they started. -/
  flights : List Flight := []
  /-- How the requests so far ended, the latest first. -/
  outcomes : List Outcome := []

namespace Progress

/-- Let the cluster change. -/
def onCluster (p : Progress) (f : Cluster → Cluster) : Progress :=
  { p with cluster := f p.cluster }

/-- A request comes to its end: it releases the endpoint. -/
def finish (p : Progress) (f : Flight) (outcome : Outcome) : Progress :=
  { p with
    cluster := p.cluster.releaseActive f.member.id
    flights := p.flights.filter fun g => g.call != f.call
    outcomes := outcome :: p.outcomes }

/-- A request with a connection works until the given time. -/
def work (p : Progress) (f : Flight) (due : Nat) : Progress :=
  { p with
    flights := p.flights.map fun g => if g.call = f.call then { g with due := some due } else g }

/-- The next time at which something is due, a request or a task of a
pool. -/
def nextTime? (p : Progress) : Option Nat :=
  (p.flights.filterMap Flight.due ++ p.cluster.nextDeadline?.toList).min?

/-- Move the clock to the next time at which something is due.  Nothing
happens if nothing is. -/
def wait (p : Progress) : Progress :=
  match p.nextTime? with
  | none => p
  | some time => p.onCluster fun c => c.advance (time - c.now)

end Progress

/-- The next request starts: it chooses an endpoint and calls for a
connection there.  There is no result if the choice overflows. -/
def launch? (s : Simulation) (p : Progress) : Option Progress := do
  let p' := { p with started := p.started + 1 }
  match ← p.cluster.selectInWords? (some (s.key p.started)) with
  | (.error fault, c) =>
    return { p' with cluster := c, outcomes := .error fault.message :: p.outcomes }
  | (.ok m, c) =>
    let c := (c.get m.id false).settle
    return { p' with cluster := c, flights := p.flights ++ [⟨m, c.calls.size, none⟩] }

/-- The simulation after a request has gone on, if it can: its call has
ended, or its work is done. -/
def goOn? (s : Simulation) (p : Progress) (f : Flight) : Option Progress :=
  match f.due with
  | none =>
    match p.cluster.ending? f.call with
    | none => none
    | some (.ok _) => some (p.work f (p.cluster.now + s.work))
    | some (.error fault) => some (p.finish f (.error fault.message))
  | some due =>
    if due ≤ p.cluster.now then
      some ((p.onCluster fun c => (c.drop f.call).2.settle).finish f (.ok f.member.addr))
    else none

/-- What happens next.  There is no result if a choice overflows. -/
def tick? (s : Simulation) (p : Progress) : Option Progress :=
  if p.started < s.requests ∧ p.flights.length < max s.concurrency 1 then s.launch? p
  else some ((p.flights.findSome? (s.goOn? p)).getD p.wait)

/-- Every request has come to its end. -/
def isOver (s : Simulation) (p : Progress) : Bool :=
  p.flights.isEmpty && s.requests ≤ p.started

/-- Go on until every request has come to its end, for so many ticks at
most. -/
def fly? (s : Simulation) : (ticks : Nat) → Progress → Option Progress
  | 0, p => some p
  | ticks + 1, p =>
    if s.isOver p then some p
    else do s.fly? ticks (← s.tick? p)

/-- The ticks after which every request has come to its end.  A request is
admitted within the timeout of its pool, or not at all, waits for at most
one dial, and works; when the clock moves it moves by a millisecond at
least; and there is one tick for the start, for the answer and for the end. -/
def ticks (s : Simulation) : Nat :=
  s.requests * (s.options.poolTimeout + s.dialLatency + s.work + 3)

end Simulation

end PooledRouting
