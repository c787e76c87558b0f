import PooledRouting.Pool.State

/-!
# Giving back, removing and closing connections

A connection leaves the pool when it is removed, when it turns out to be
invalid, or when it is given back to a pool that has enough idle ones.
A connection that somebody holds is never removed or closed.

`release` ends a checkout.  Only the mark of being held tells whether
there is one to end, so a second release in a row does nothing.
-/

namespace PooledRouting.Pool

/-- Take a tracked connection off the lists. -/
def strike (p : Pool) (id : ConnectionId) : Pool :=
  let p := { p with tracked := p.tracked.erase id }.lowerSize
  if id ∈ p.idle then { p with idle := p.idle.erase id }.lowerIdleCount else p

/-- Stop tracking the connection.  The place that it leaves may be
topped up. -/
def untrack (p : Pool) (id : ConnectionId) : Pool :=
  if id ∈ p.tracked then (p.strike id).topUp else p

/-- Close the connection unless somebody holds it. -/
def closeTransport (p : Pool) (id : ConnectionId) : Except Fault Unit × Pool :=
  if p.isInUse id then (.error .inUse, p)
  else
    let (result, p) := p.closeConnection id
    (result.mapError .transport, p)

/-- Stop tracking the connection and close it, unless somebody holds
it. -/
def remove (p : Pool) (id : ConnectionId) : Except Fault Unit × Pool :=
  if p.isInUse id then (.error .inUse, p)
  else (p.untrack id).closeTransport id

/-- Take back a connection that is no longer held.  An invalid one is
removed; a valid one is kept as idle unless there are enough, in which
case it is closed. -/
def recycle (p : Pool) (id : ConnectionId) : Pool :=
  if p.closed || !p.isValid id then
    let p := if p.closed then p else p.count Counters.retireInvalid
    (p.remove id).2
  else if id ∉ p.tracked then (p.closeTransport id).2
  else if p.options.maxIdle = 0 ∨ p.idleCount < p.options.maxIdle then
    { p with idle := p.idle ++ [id], idleCount := p.idleCount + 1 }
  else (((p.untrack id).count Counters.retireStale).closeTransport id).2

/-- End the checkout of the connection.  Nothing happens if it is not
checked out. -/
def release (p : Pool) (id : ConnectionId) : Pool :=
  if p.isInUse id then
    let p := p.modify id fun c => c.mark p.now false
    ((p.recycle id).count Counters.checkIn).freeSlot
  else p

/-- Close the connections in turn and keep the first failure. -/
def closeAll (p : Pool) : List ConnectionId → Except Fault Unit × Pool
  | [] => (.ok (), p)
  | id :: ids =>
    let (result, p) := p.closeTransport id
    let (rest, p) := p.closeAll ids
    (match result with
      | .error fault => .error fault
      | .ok () => rest, p)

/-- Whether a dial under way is the probe's. -/
def Dial.isProbe (d : Dial) : Bool :=
  match d.caller with
  | .probe _ => true
  | _ => false

/-- The probe's turns that a shutdown brings on, whether the probe is
asleep or dials. -/
def probeTurns (p : Pool) : List Work :=
  p.naps.map (fun n => Work.probe n.tries) ++
    p.dials.filterMap fun d =>
      match d.caller with
      | .probe tries => some (Work.probe tries)
      | _ => none

/-- Give up all connections: the probe and every waiting `get` go on only
to end. -/
def shutDown (p : Pool) : Pool :=
  { p with
    closed := true
    naps := []
    dials := p.dials.filter fun d => !d.isProbe
    line := []
    ready := p.ready ++ p.probeTurns ++ (p.line.map fun (w : Waiting) => Work.refused w.get)
    tracked := []
    idle := []
    size := 0
    idleCount := 0 }

/-- Shut the pool down and close every tracked connection that nobody
holds, in the order of tracking.  The first failure is reported.  A pool
is closed once. -/
def close (p : Pool) : Except Fault Unit × Pool :=
  if p.closed then (.error .closed, p) else p.shutDown.closeAll p.tracked

theorem strike_idle_sublist (p : Pool) (id : ConnectionId) :
    (p.strike id).idle.Sublist p.idle := by
  unfold strike
  dsimp only
  split
  · exact List.erase_sublist
  · exact List.Sublist.refl _

theorem untrack_idle_sublist (p : Pool) (id : ConnectionId) :
    (p.untrack id).idle.Sublist p.idle := by
  unfold untrack
  split
  · rw [topUp_idle]
    exact strike_idle_sublist p id
  · exact List.Sublist.refl _

theorem closeTransport_idle (p : Pool) (id : ConnectionId) :
    (p.closeTransport id).2.idle = p.idle := by
  unfold closeTransport
  split
  · rfl
  · simp

theorem remove_idle_sublist (p : Pool) (id : ConnectionId) :
    (p.remove id).2.idle.Sublist p.idle := by
  unfold remove
  split
  · exact List.Sublist.refl _
  · rw [closeTransport_idle]
    exact untrack_idle_sublist p id

end PooledRouting.Pool
