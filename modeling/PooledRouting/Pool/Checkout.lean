import PooledRouting.Pool.Dialing
import PooledRouting.Pool.Retirement

/-!
# Serving a `get`

A `get` first needs an admission slot, for which it may have to wait in
the line.  With the slot it takes the next idle connection that is still
valid, and discards those that are not; if none is left it dials a new
one.  The hooks then look at the connection, and it is handed out unless
one of them rejects it or it has become invalid.

The slot stays with a `get` that succeeded until the connection is
released.  Every `get` that ends otherwise after it was admitted gives
the slot back.
-/

namespace PooledRouting.Pool

/-! ## Hooks -/

/-- Take the steps of a hook on the connection, up to the first that
rejects the checkout. -/
def takeSteps (p : Pool) (id : ConnectionId) : List HookStep → Option String × Pool
  | [] => (none, p)
  | .touch :: steps => (p.modify id fun c => c.touch p.now).takeSteps id steps
  | .mark :: steps => (p.modify id fun c => c.mark p.now true).takeSteps id steps
  | .fail reason :: _ => (some reason, p)
  | .close strict :: steps =>
    match p.closeConnection id with
    | (.error reason, p) =>
      if strict then (some reason, p) else p.takeSteps id steps
    | (.ok (), p) => p.takeSteps id steps

/-- Call the hooks in turn, up to the first that rejects the checkout. -/
def callHooks (p : Pool) (id : ConnectionId) :
    List HookState → Option String × List HookState × Pool
  | [] => (none, [], p)
  | h :: hooks =>
    let called := { h with calls := h.calls + 1 }
    match p.takeSteps id (h.hook called.calls) with
    | (some reason, p) => (some reason, called :: hooks, p)
    | (none, p) =>
      let (rejection, hooks, p) := p.callHooks id hooks
      (rejection, called :: hooks, p)

/-- Call every hook of the pool with the connection. -/
def runHooks (p : Pool) (id : ConnectionId) : Option String × Pool :=
  let (rejection, hooks, p) := p.callHooks id p.hooks
  (rejection, { p with hooks := hooks })

/-! ## Handing out -/

/-- Take the connection out, unless it is closed. -/
def takeOut (p : Pool) (id : ConnectionId) : Bool × Pool :=
  match (p.connection? id).bind fun c => c.takeOut? p.now with
  | some c => (true, p.modify id fun _ => c)
  | none => (false, p)

/-- Hand the connection to the `get`.  A connection that a hook rejects
goes back to the pool, and one that is closed or has become invalid
since is discarded. -/
def checkOut (p : Pool) (get : Nat) (id : ConnectionId) : Pool :=
  match p.runHooks id with
  | (some reason, p) => ((p.recycle id).freeSlot).fail get (.hook reason)
  | (none, p) =>
    let (taken, p) := p.takeOut id
    if taken && p.isValid id then
      (p.count Counters.checkOut).record (.served get id)
    else
      let p := if taken then p.modify id fun c => c.mark p.now false else p
      let p := p.count Counters.retireInvalid
      ((p.remove id).2.freeSlot).fail get .badConnection

/-! ## Dialing for a `get` -/

/-- The dial of a `get` has its answer. -/
def endGetDial (p : Pool) (get attempt : Nat) (fault : Option String) : Pool :=
  match fault with
  | none =>
    let id := ConnectionId.dialed attempt
    let p := p.connect (.get get) attempt
    if p.closed then ((p.closeConnection id).2.freeSlot).fail get .closed
    else (p.track id).checkOut get id
  | some reason =>
    let p := p.noteDialFailure reason
    let p := if p.closed then p else p.lowerSize
    (p.freeSlot).fail get (.dial reason)

/-- Dial a connection for the `get`.  Its place is taken before the dial,
so that dials together cannot pass the cap. -/
def dialFor (p : Pool) (get : Nat) : Pool :=
  if p.closed then (p.freeSlot).fail get .closed
  else if p.options.maxActive > 0 ∧ p.options.maxActive ≤ p.size then
    (p.freeSlot).fail get .exhausted
  else if p.circuitOpen then (p.freeSlot).fail get p.circuitFault
  else
    let p := { p with size := p.size + 1 }
    match p.startDial (.get get) with
    | (.answered attempt fault, p) => p.endGetDial get attempt fault
    | (.underWay, p) => p

/-! ## The idle connections -/

/-- The next idle connection and the others: the one that has been idle
longest if `fifo`, otherwise the one that was used last. -/
def nextIdle? (p : Pool) : Option (ConnectionId × List ConnectionId) :=
  if p.options.fifo then
    match p.idle with
    | [] => none
    | id :: rest => some (id, rest)
  else
    p.idle.getLast?.map fun id => (id, p.idle.dropLast)

theorem nextIdle?_length {p : Pool} {id : ConnectionId} {rest : List ConnectionId}
    (h : p.nextIdle? = some (id, rest)) : rest.length < p.idle.length := by
  unfold nextIdle? at h
  split at h
  · split at h
    · cases h
    · rename_i hidle
      cases h
      simp [hidle]
  · cases hlast : p.idle.getLast? with
    | none => simp [hlast] at h
    | some last =>
      simp only [hlast, Option.map_some, Option.some.injEq, Prod.mk.injEq] at h
      obtain ⟨-, rfl⟩ := h
      have hne : p.idle ≠ [] := by
        intro he
        simp [he] at hlast
      have := List.length_pos_iff.2 hne
      rw [List.length_dropLast]
      omega

/-- Take the connection off the idle list, which leaves `rest`. -/
def takeIdle (p : Pool) (rest : List ConnectionId) : Pool :=
  { p with idle := rest }.lowerIdleCount.topUp

@[simp]
theorem takeIdle_idle (p : Pool) (rest : List ConnectionId) :
    (p.takeIdle rest).idle = rest := rfl

/-- Discard an idle connection that is no longer valid. -/
def discardInvalid (p : Pool) (id : ConnectionId) : Pool :=
  ((p.count Counters.retireInvalid).remove id).2

theorem discardInvalid_idle_length (p : Pool) (id : ConnectionId) :
    (p.discardInvalid id).idle.length ≤ p.idle.length :=
  (remove_idle_sublist (p.count Counters.retireInvalid) id).length_le

/-- Serve the `get`, which holds a slot, from the idle connections, or
with a new one if none of them is valid. -/
def serve (p : Pool) (get : Nat) : Pool :=
  if p.closed then (p.freeSlot).fail get .closed
  else
    match _h : p.nextIdle? with
    | none => (p.count Counters.miss).dialFor get
    | some (id, rest) =>
      let q := p.takeIdle rest
      if q.isValid id then (q.count Counters.hit).checkOut get id
      else (q.discardInvalid id).serve get
termination_by p.idle.length
decreasing_by
  have h1 := nextIdle?_length _h
  have h2 := discardInvalid_idle_length (p.takeIdle rest) id
  rw [takeIdle_idle] at h2
  exact Nat.lt_of_le_of_lt h2 h1

/-! ## The line -/

/-- Serve a `get` that has just received a slot. -/
def enter (p : Pool) (get : Nat) : Pool :=
  (p.record (.admitted get)).serve get

/-- The first turn of a `get`: it takes a free slot, or joins the line
until its deadline. -/
def arrive (p : Pool) (get : Nat) : Pool :=
  if p.closed then p.fail get .closed
  else if get ∈ p.fired then p.fail get .cancelled
  else if p.slots > 0 then { p with slots := p.slots - 1 }.enter get
  else if p.options.poolTimeout = 0 then
    (p.count Counters.timeOut).fail get .timedOut
  else { p with line := p.line ++ [⟨get, p.now + p.options.poolTimeout⟩] }

/-- A waiting `get` goes on with the slot that it was handed.  If it was
cancelled, or the pool closed, the slot goes on to the next. -/
def resume (p : Pool) (get : Nat) : Pool :=
  if get ∈ p.fired then (p.freeSlot).fail get .cancelled
  else if p.closed then (p.freeSlot).fail get .closed
  else p.enter get

/-- A waiting `get` goes on after the line was closed. -/
def refuse (p : Pool) (get : Nat) : Pool :=
  p.fail get (if get ∈ p.fired then .cancelled else .closed)

/-- A `get` that may still be in the line leaves it if its token has
fired or its deadline has come. -/
def recheck (p : Pool) (get : Nat) : Pool :=
  match p.line.find? fun w => w.get == get with
  | none => p
  | some w =>
    let q := { p with line := p.line.filter fun w => w.get != get }
    if get ∈ p.fired then q.fail get .cancelled
    else if w.deadline ≤ p.now then (q.count Counters.timeOut).fail get .timedOut
    else p

end PooledRouting.Pool
