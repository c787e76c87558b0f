import PooledRouting.Simulation.Basic
import PooledRouting.Text.Json

/-!
# Reports of simulations

A report counts how the requests of a simulation ended and shows the
figures of every endpoint afterwards.
-/

namespace PooledRouting

namespace Simulation

/-- The figures of one endpoint after a simulation. -/
structure EndpointReport where
  addr : String
  weight : UInt32
  /-- The requests that the endpoint served. -/
  selected : Nat
  active : Nat
  pool : Pool.Stats
  deriving DecidableEq, Repr

/-- The result of a simulation. -/
structure Report where
  strategy : Strategy
  requests : Nat
  succeeded : Nat
  failed : Nat
  /-- The wordings of the failures, each with its number. -/
  errors : List (String × Nat)
  elapsed : Nat
  endpoints : List EndpointReport
  deriving DecidableEq, Repr

/-- The address of a request that was served. -/
def Outcome.served? : Outcome → Option String
  | .ok addr => some addr
  | .error _ => none

/-- The wording of a request that failed. -/
def Outcome.failure? : Outcome → Option String
  | .ok _ => none
  | .error text => some text

/-- Each text of the list, in the order of first occurrence, with the
number of its occurrences. -/
def tally (texts : List String) : List (String × Nat) :=
  texts.eraseDups.map fun t => (t, texts.count t)

/-- The report on a simulation that has come to its end. -/
def reportOn (s : Simulation) (p : Progress) : Report :=
  let served := p.outcomes.reverse.filterMap Outcome.served?
  let failures := p.outcomes.reverse.filterMap Outcome.failure?
  { strategy := s.strategy
    requests := s.requests
    succeeded := served.length
    failed := failures.length
    errors := tally failures
    elapsed := p.cluster.now
    endpoints := p.cluster.fleet.toList.map fun e =>
      { addr := e.addr
        weight := e.weight
        selected := served.count e.addr
        active := e.active
        pool := e.pool.stats } }

/-- Why a simulation comes to no report. -/
inductive Stop where
  /-- The balancer cannot be built. -/
  | balancer (fault : Balancer.Fault)
  /-- The choice of an endpoint overflows. -/
  | overflow
  deriving DecidableEq, Repr

/-- Send all requests and report. -/
def run (s : Simulation) (draws : Draws) : Except Stop Report :=
  match s.cluster draws with
  | .error fault => .error (.balancer fault)
  | .ok c =>
    match s.fly? s.ticks { cluster := c } with
    | none => .error .overflow
    | some p => .ok (s.reportOn p)

/-! ## JSON -/

open Text in
/-- The statistics of a pool. -/
def statsLines (s : Pool.Stats) : JsonLines :=
  .record [
    ("hits", .figure s.hits.toNat),
    ("misses", .figure s.misses.toNat),
    ("timeouts", .figure s.timeouts.toNat),
    ("total_conns", .figure s.totalConns),
    ("idle_conns", .figure s.idleConns),
    ("stale_conns", .figure s.staleConns.toNat),
    ("invalid_conns", .figure s.invalidConns.toNat),
    ("in_use_conns", .figure s.inUseConns)]

open Text in
/-- The figures of an endpoint. -/
def EndpointReport.lines (e : EndpointReport) : JsonLines :=
  .record [
    ("addr", .text e.addr),
    ("weight", .figure e.weight.toNat),
    ("selected", .figure e.selected),
    ("active", .figure e.active),
    ("pool", statsLines e.pool)]

open Text in
/-- The report as JSON. -/
def Report.lines (r : Report) : JsonLines :=
  .record [
    ("strategy", .text r.strategy.name),
    ("requests", .figure r.requests),
    ("succeeded", .figure r.succeeded),
    ("failed", .figure r.failed),
    ("errors", .record (r.errors.map fun e => (e.1, .figure e.2))),
    ("elapsed_ms", .figure r.elapsed),
    ("endpoints", .list (r.endpoints.map EndpointReport.lines))]

end Simulation

end PooledRouting
