import PooledRouting.Pool.Fault
import PooledRouting.Pool.Options
import PooledRouting.Pool.Stats

/-!
# The state of a pool

A pool is worked by tasks that take turns on one thread: the calls of
`get`, the background dials that top up the idle connections, and the
probe that redials a backend which keeps failing.  A task runs until it
has to wait, and where it waits is where it is kept:

* `ready`: it can go on, and has its turn when it is at the front;
* `line`: a `get` waits for an admission slot;
* `dials`: it waits for a dial to come back;
* `naps`: the probe pauses before its next try.

Two things that the probe's pauses depend on are given from outside
(`Pauses`): what is drawn for the jitter, and how long it takes to sleep.

`size` and `idleCount` run ahead of the lists `tracked` and `idle`: they
also count the connections that are still being dialed.

`history` holds everything that has happened, the latest first.

There are three groups: the parts of the state, the state with its
views, and the small changes that all operations are made of.
-/

namespace PooledRouting

namespace Pool

/-! ## The parts of the state -/

/-- On whose behalf a backend is dialed. -/
inductive Caller where
  | get (number : Nat)
  | topUp
  | probe (tries : UInt32)
  deriving DecidableEq, Repr

/-- What a task does when its turn comes. -/
inductive Work where
  /-- A call of `get` starts. -/
  | arrive (get : Nat)
  /-- A waiting `get` was handed a slot. -/
  | admitted (get : Nat)
  /-- The line closed under a waiting `get`. -/
  | refused (get : Nat)
  /-- A waiting `get` was cancelled or reached its deadline. -/
  | recheck (get : Nat)
  /-- A background dial starts. -/
  | topUp
  /-- The probe starts its next try. -/
  | probe (tries : UInt32)
  /-- A dial has come back, with a failure or without. -/
  | dialed (caller : Caller) (attempt : Nat) (fault : Option String)
  deriving DecidableEq, Repr

/-- A `get` in the line for a slot. -/
structure Waiting where
  get : Nat
  deadline : Nat
  deriving DecidableEq, Repr

/-- A dial that is under way. -/
structure Dial where
  attempt : Nat
  caller : Caller
  /-- When it comes back and with what; `none` if that is left open. -/
  due : Option (Nat × Option String)
  deriving DecidableEq, Repr

/-- A pause of the probe. -/
structure Nap where
  tries : UInt32
  wake : Nat
  deriving DecidableEq, Repr

/-- What the pauses of the probe depend on besides their schedule. -/
structure Pauses where
  /-- The random number that is drawn after each failed dial attempt, by number
  from one. -/
  drawn : Nat → Nat := fun _ => 0
  /-- How long a sleep lasts, by the time asked for. -/
  sleep : Nat → Nat := id

/-- How a dial attempt goes. -/
inductive Course where
  /-- It comes back after so many milliseconds, with a failure or
  without. -/
  | answer (after : Nat) (fault : Option String)
  /-- It stays under way until it is resolved. -/
  | held
  deriving DecidableEq, Repr

/-- What has happened. -/
inductive Event where
  /-- The `get` received a slot. -/
  | admitted (get : Nat)
  /-- The `get` ended with a connection. -/
  | served (get : Nat) (connection : ConnectionId)
  /-- The `get` ended without one. -/
  | failed (get : Nat) (fault : Fault)
  /-- The connection was tracked. -/
  | tracked (connection : ConnectionId)
  /-- The transport of the connection was closed. -/
  | transportClosed (connection : ConnectionId)
  /-- The dial attempt came back with a transport. -/
  | connected (caller : Caller) (attempt : Nat)
  /-- `size` or `idleCount` of an open pool was to fall below zero. -/
  | clamped
  deriving DecidableEq, Repr

/-- A checkout hook and the number of its calls so far. -/
structure HookState where
  hook : Hook
  calls : Nat := 0

end Pool

/-! ## The state -/

/-- A pool at one moment. -/
structure Pool where
  options : Pool.Options
  now : Nat
  /-- How each dial attempt goes, by number from one. -/
  dialer : Nat → Pool.Course
  pauses : Pool.Pauses
  /-- The failure that each transport reports when it is closed, if any. -/
  closeFault : ConnectionId → Option String
  /-- Every connection there has been. -/
  connections : List Connection
  /-- The connections that the pool answers for, by id. -/
  tracked : List ConnectionId
  /-- Those that wait to be used again, by id. -/
  idle : List ConnectionId
  size : Nat
  idleCount : Nat
  /-- The free admission slots. -/
  slots : Nat
  line : List Pool.Waiting
  ready : List Pool.Work
  dials : List Pool.Dial
  naps : List Pool.Nap
  hooks : List Pool.HookState
  counters : Pool.Counters
  /-- The dial failures since the last success. -/
  dialFailures : Nat
  lastDialFault : Option Pool.Fault
  /-- Whether a probe is out. -/
  probing : Bool
  closed : Bool
  getCount : Nat
  attemptCount : Nat
  foreignCount : Nat
  /-- The calls of `get` whose token has fired. -/
  fired : List Nat
  history : List Pool.Event

namespace Pool

/-- The connection with this id. -/
def connection? (p : Pool) (id : ConnectionId) : Option Connection :=
  p.connections.find? fun c => c.id == id

/-- Whether the connection may be handed out now. -/
def isValid (p : Pool) (id : ConnectionId) : Bool :=
  (p.connection? id).any fun c => c.isValid p.now

/-- Whether somebody holds the connection. -/
def isInUse (p : Pool) (id : ConnectionId) : Bool :=
  (p.connection? id).any fun c => c.inUse

/-- Whether nothing can move without the clock or a caller. -/
def Settled (p : Pool) : Prop := p.ready = []

instance (p : Pool) : Decidable p.Settled := by
  unfold Settled
  infer_instance

/-- The figures of the pool. -/
def stats (p : Pool) : Stats :=
  p.counters.snapshot p.tracked.length p.idle.length

/-- The attempts whose dial is under way. -/
def dialing (p : Pool) : List Nat :=
  p.dials.map Dial.attempt

/-- Whether enough dials failed for the pool to stop dialing. -/
def circuitOpen (p : Pool) : Bool :=
  p.options.dialThreshold ≤ p.dialFailures

/-- The failure that stands for a dial while the circuit is open. -/
def circuitFault (p : Pool) : Fault :=
  p.lastDialFault.getD (.dial "dial circuit open")

/-- How the `get` with this number ended, if it has. -/
def ending? (p : Pool) (get : Nat) : Option (Except Fault ConnectionId) :=
  p.history.findSome? fun
    | .served n id => if n = get then some (.ok id) else none
    | .failed n fault => if n = get then some (.error fault) else none
    | _ => none

/-- The connection that the `get` with this number ended with. -/
def lease? (p : Pool) (get : Nat) : Option ConnectionId :=
  (p.ending? get).bind Except.toOption

/-! ## Small changes -/

/-- Note an event. -/
def record (p : Pool) (e : Event) : Pool :=
  { p with history := e :: p.history }

/-- Let a task go on when its turn comes. -/
def enqueue (p : Pool) (w : Work) : Pool :=
  { p with ready := p.ready ++ [w] }

/-- Change the counters. -/
def count (p : Pool) (f : Counters → Counters) : Pool :=
  { p with counters := f p.counters }

/-- Change one connection. -/
def modify (p : Pool) (id : ConnectionId) (f : Connection → Connection) : Pool :=
  { p with connections := p.connections.map fun c => if c.id = id then f c else c }

/-- Give back a slot.  It belongs at once to the `get` that has waited
longest, if there is one. -/
def freeSlot (p : Pool) : Pool :=
  match p.line with
  | [] => { p with slots := p.slots + 1 }
  | w :: rest => { p with line := rest }.enqueue (.admitted w.get)

/-- End a `get` without a connection. -/
def fail (p : Pool) (get : Nat) (fault : Fault) : Pool :=
  p.record (.failed get fault)

/-- Count one connection less.  A count of zero stays; in an open pool
that is noted. -/
def lowerSize (p : Pool) : Pool :=
  { p with
    size := p.size - 1
    history :=
      if p.size = 0 ∧ p.closed = false then .clamped :: p.history else p.history }

/-- Count one idle connection less, with the same care. -/
def lowerIdleCount (p : Pool) : Pool :=
  { p with
    idleCount := p.idleCount - 1
    history :=
      if p.idleCount = 0 ∧ p.closed = false then .clamped :: p.history else p.history }

/-- The background dials that there is room for: each needs a free slot,
and they stop at the limit on connections and at the idle minimum. -/
def topUpRoom (p : Pool) : Nat :=
  if p.options.minIdle = 0 ∨ p.closed then 0
  else
    min p.slots
      (min (p.options.topUpLimit - p.size) (p.options.minIdle - p.idleCount))

/-- Start the background dials that there is room for. -/
def topUp (p : Pool) : Pool :=
  let n := p.topUpRoom
  { p with
    slots := p.slots - n
    size := p.size + n
    idleCount := p.idleCount + n
    ready := p.ready ++ List.replicate n .topUp }

@[simp]
theorem topUp_idle (p : Pool) : p.topUp.idle = p.idle := rfl

@[simp]
theorem topUp_tracked (p : Pool) : p.topUp.tracked = p.tracked := rfl

/-- Close the transport of a connection that nobody has closed yet. -/
def closeConnection (p : Pool) (id : ConnectionId) : Except String Unit × Pool :=
  match p.connection? id with
  | none => (.ok (), p)
  | some c =>
    let closing := c.close (p.closeFault id)
    let p := p.modify id fun _ => closing.connection
    (closing.result, if closing.ran then p.record (.transportClosed id) else p)

@[simp]
theorem closeConnection_idle (p : Pool) (id : ConnectionId) :
    (p.closeConnection id).2.idle = p.idle := by
  unfold closeConnection
  split
  · rfl
  · simp only
    split <;> rfl

end Pool

end PooledRouting
