import PooledRouting.Pool.Turns

/-!
# What a caller can do with a pool

The operations below take effect at once; the tasks that they start or
wake have their turns afterwards, in `Pool.step`.  `release`, `remove`
and `close` stand with the other ways in which connections retire.
-/

namespace PooledRouting.Pool

/-- A new pool.  If `background`, it starts to top up its idle
connections at once. -/
def create (options : Options) (dialer : Nat → Course) (now : Nat) (background : Bool) :
    Pool :=
  let p : Pool := {
    options, now, dialer
    pauses := {}
    closeFault := fun _ => none
    connections := [], tracked := [], idle := [], size := 0, idleCount := 0
    slots := options.poolSize
    line := [], ready := [], dials := [], naps := []
    hooks := options.hooks.map fun h => { hook := h }
    counters := {}
    dialFailures := 0, lastDialFault := none, probing := false, closed := false
    getCount := 0, attemptCount := 0, foreignCount := 0
    fired := [], history := []
  }
  if background then p.topUp else p

/-- Start a `get`, whose token may have fired before.  Calls are numbered
from one. -/
def get (p : Pool) (cancelled : Bool) : Pool :=
  let number := p.getCount + 1
  { p with
    getCount := number
    fired := if cancelled then number :: p.fired else p.fired }.enqueue (.arrive number)

/-- Fire the token of a `get`.  It only matters while the `get` waits in
the line or has not had its first turn. -/
def cancel (p : Pool) (number : Nat) : Pool :=
  if number ∈ p.fired ∨ p.getCount < number then p
  else
    let q := { p with fired := number :: p.fired }
    if p.line.any fun w => w.get == number then q.enqueue (.recheck number) else q

/-- Let a dial that is under way come back, and tell whether there was
one. -/
def resolve (p : Pool) (attempt : Nat) (fault : Option String) : Bool × Pool :=
  match p.dials.find? fun d => d.attempt == attempt with
  | none => (false, p)
  | some d =>
    (true,
      { p with dials := p.dials.filter fun d => d.attempt != attempt }.enqueue
        (.dialed d.caller attempt fault))

/-- Set how dial attempts go from now on. -/
def setDialer (p : Pool) (dialer : Nat → Course) : Pool :=
  { p with dialer := dialer }

/-- Set what the pauses of the probe depend on from now on. -/
def setPauses (p : Pool) (pauses : Pauses) : Pool :=
  { p with pauses := pauses }

/-- Set what closing each transport reports from now on. -/
def setCloseFaults (p : Pool) (faults : ConnectionId → Option String) : Pool :=
  { p with closeFault := faults }

/-- Set what closing any transport reports from now on. -/
def setCloseFault (p : Pool) (fault : Option String) : Pool :=
  p.setCloseFaults fun _ => fault

/-- Note a use of the connection. -/
def touch (p : Pool) (id : ConnectionId) : Pool :=
  p.modify id fun c => c.touch p.now

/-- Set or clear the mark of the connection being held. -/
def mark (p : Pool) (id : ConnectionId) (inUse : Bool) : Pool :=
  p.modify id fun c => c.mark p.now inUse

/-- A connection that the pool does not know.  They are numbered from
one. -/
def addForeign (p : Pool) (maxLifetime : Nat) : Pool :=
  let number := p.foreignCount + 1
  { p with
    foreignCount := number
    connections := p.connections ++
      [Connection.openedAt p.now (.foreign number) maxLifetime 0] }

end PooledRouting.Pool
