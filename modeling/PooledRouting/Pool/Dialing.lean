import PooledRouting.Pool.State

/-!
# Dialing a backend

Every failed dial of a `get` or a top-up adds to `dialFailures`.  When
they reach the threshold the circuit opens: no `get` and no top-up dials
any more, and each is answered with the last failure.  With the failure
that opens the circuit a probe is sent out, unless one is out already; a
success of any dial closes the circuit.
-/

namespace PooledRouting.Pool

/-- What starting a dial comes to. -/
inductive DialStart where
  /-- The attempt came back at once, with a failure or without. -/
  | answered (attempt : Nat) (fault : Option String)
  /-- The attempt is under way. -/
  | underWay
  deriving DecidableEq, Repr

/-- Start the next dial attempt. -/
def startDial (p : Pool) (caller : Caller) : DialStart × Pool :=
  let attempt := p.attemptCount + 1
  let p := { p with attemptCount := attempt }
  match p.dialer attempt with
  | .answer 0 fault => (.answered attempt fault, p)
  | .answer (ms + 1) fault =>
    (.underWay,
      { p with dials := p.dials ++ [⟨attempt, caller, some (p.now + (ms + 1), fault)⟩] })
  | .held => (.underWay, { p with dials := p.dials ++ [⟨attempt, caller, none⟩] })

/-- The dial of a `get` or a top-up failed. -/
def noteDialFailure (p : Pool) (reason : String) : Pool :=
  let p := { p with
    lastDialFault := some (.dial reason)
    dialFailures := p.dialFailures + 1 }
  if p.circuitOpen ∧ p.probing = false then
    { p with probing := true }.enqueue (.probe 0)
  else p

/-- A dial succeeded: the circuit closes. -/
def resetCircuit (p : Pool) : Pool :=
  { p with dialFailures := 0 }

/-- Take in a connection that was dialed just now. -/
def openConnection (p : Pool) (id : ConnectionId) : Pool :=
  { p with
    connections := p.connections ++
      [Connection.openedAt p.now id p.options.maxLifetime p.options.maxIdleTime] }

/-- The dial attempt came back with a transport, which is taken in. -/
def connect (p : Pool) (caller : Caller) (attempt : Nat) : Pool :=
  (p.resetCircuit.record (.connected caller attempt)).openConnection (.dialed attempt)

/-- Answer for the connection from now on. -/
def track (p : Pool) (id : ConnectionId) : Pool :=
  { p with tracked := p.tracked ++ [id] }.record (.tracked id)

/-! ## Background dials -/

/-- A top-up has its answer: a connection to keep as idle, or a failure,
which gives its place back.  A pool that was closed meanwhile closes the
connection. -/
def endTopUp (p : Pool) (attempt : Nat) (fault : Option String) : Pool :=
  match fault with
  | none =>
    let id := ConnectionId.dialed attempt
    let p := p.connect .topUp attempt
    if p.closed then (p.closeConnection id).2.freeSlot
    else { p.track id with idle := p.idle ++ [id] }.freeSlot
  | some reason =>
    (p.noteDialFailure reason).lowerSize.lowerIdleCount.freeSlot

/-- A top-up has its first turn.  The slot that it holds is given back
when it ends, and with an open circuit its place as well. -/
def startTopUp (p : Pool) : Pool :=
  if p.closed then p.freeSlot
  else if p.circuitOpen then p.lowerSize.lowerIdleCount.freeSlot
  else
    match p.startDial .topUp with
    | (.answered attempt fault, p) => p.endTopUp attempt fault
    | (.underWay, p) => p

/-! ## The probe -/

/-- The probe is no longer out. -/
def endProbe (p : Pool) : Pool :=
  { p with probing := false }

/-- How long the probe pauses after a try, or `none` if its tries are used
up. -/
def pauseAfter? (p : Pool) (tries : UInt32) (attempt : Nat) : Option Nat :=
  (p.options.dialRetry.pauseAfter? tries (p.pauses.drawn attempt)).map p.pauses.sleep

/-- A try of the probe has its answer.  A success closes the circuit and
the probe's own transport; after a failure the probe pauses, unless its
tries are used up. -/
def endProbeTry (p : Pool) (tries : UInt32) (attempt : Nat) (fault : Option String) :
    Pool :=
  match fault with
  | none =>
    let p := p.resetCircuit.record (.connected (.probe tries) attempt)
    (p.record (.transportClosed (.dialed attempt))).endProbe
  | some reason =>
    let p := { p with lastDialFault := some (.dial reason) }
    match p.pauseAfter? tries attempt with
    | none => p.endProbe
    | some 0 => p.enqueue (.probe tries)
    | some ms => { p with naps := p.naps ++ [⟨tries, p.now + ms⟩] }

/-- The probe starts its next try.  It ends with the pool. -/
def startProbeTry (p : Pool) (tries : UInt32) : Pool :=
  if p.closed then p.endProbe
  else
    let tries := Backoff.countTry tries
    match p.startDial (.probe tries) with
    | (.answered attempt fault, p) => p.endProbeTry tries attempt fault
    | (.underWay, p) => p

end PooledRouting.Pool
