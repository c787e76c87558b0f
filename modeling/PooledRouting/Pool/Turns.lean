import PooledRouting.Pool.Checkout

/-!
# Turns and the clock

`step` gives the task at the front of `ready` its turn.  `settle` lets
all tasks run until nothing can move without the clock, and `advance`
moves the clock from deadline to deadline and lets the tasks settle at
each of them.
-/

namespace PooledRouting.Pool

/-- The turn of a task whose dial has come back.  A probe whose pool was
closed meanwhile ends without looking at the answer. -/
def comeBack (p : Pool) (caller : Caller) (attempt : Nat) (fault : Option String) :
    Pool :=
  match caller with
  | .get number => p.endGetDial number attempt fault
  | .topUp => p.endTopUp attempt fault
  | .probe tries =>
    if p.closed then p.endProbe else p.endProbeTry tries attempt fault

/-- One turn of a task. -/
def perform (p : Pool) : Work → Pool
  | .arrive get => p.arrive get
  | .admitted get => p.resume get
  | .refused get => p.refuse get
  | .recheck get => p.recheck get
  | .topUp => p.startTopUp
  | .probe tries => p.startProbeTry tries
  | .dialed caller attempt fault => p.comeBack caller attempt fault

/-- The turn of the task at the front.  A settled pool stays as it is. -/
def step (p : Pool) : Pool :=
  match p.ready with
  | [] => p
  | w :: rest => { p with ready := rest }.perform w

/-- Another turn that a probe may have when its dial came back and the pool
was closed meanwhile: it looks at the answer first, and ends all the
same. -/
def stepAnswered (p : Pool) : Pool :=
  match p.ready, p.closed with
  | .dialed (.probe tries) attempt none :: rest, true =>
    { p with ready := rest }.endProbeTry tries attempt none
  | .dialed (.probe _) _ (some reason) :: rest, true =>
    { p with ready := rest, lastDialFault := some (.dial reason) }.endProbe
  | _, _ => p

/-- At most `turns` turns. -/
def run : (turns : Nat) → Pool → Pool
  | 0, p => p
  | turns + 1, p => if p.ready.isEmpty then p else run turns p.step

/-- The turns that `settle` allows.  Only a probe that redials without
end and without a pause needs more than a few for each task. -/
def turnLimit : Nat := 10000000

/-- Let the tasks run until nothing can move. -/
def settle (p : Pool) : Pool :=
  run turnLimit p

/-! ## The clock -/

/-- The times at which something is due. -/
def deadlines (p : Pool) : List Nat :=
  p.line.map Waiting.deadline ++ p.naps.map Nap.wake ++
    p.dials.filterMap fun d => d.due.map Prod.fst

/-- The next time after now, up to `limit`, at which something is due. -/
def nextDeadline? (p : Pool) (limit : Nat) : Option Nat :=
  (p.deadlines.filter fun d => p.now < d && d ≤ limit).min?

/-- The work of a dial that is due at the given time. -/
def Dial.dueWork? (d : Dial) (time : Nat) : Option Work :=
  match d.due with
  | some (due, fault) =>
    if due ≤ time then some (.dialed d.caller d.attempt fault) else none
  | none => none

/-- Set the clock, and wake whatever is due by then. -/
def fire (p : Pool) (time : Nat) : Pool :=
  { p with
    now := time
    naps := p.naps.filter fun n => time < n.wake
    dials := p.dials.filter fun d => (d.dueWork? time).isNone
    ready := p.ready ++
      (p.line.filter fun w => w.deadline ≤ time).map (fun w => Work.recheck w.get) ++
      (p.naps.filter fun n => n.wake ≤ time).map (fun n => Work.probe n.tries) ++
      p.dials.filterMap fun d => d.dueWork? time }

/-- Move the clock to `target` by way of at most `deadlines` deadlines. -/
def advanceTo (target : Nat) : (deadlines : Nat) → Pool → Pool
  | 0, p => { p with now := target }
  | n + 1, p =>
    match p.nextDeadline? target with
    | none => { p with now := target }
    | some time => advanceTo target n (p.fire time).settle

/-- Move the clock by `ms` milliseconds.  Every deadline on the way is a
later millisecond than the one before, so there are at most `ms`. -/
def advance (p : Pool) (ms : Nat) : Pool :=
  advanceTo (p.now + ms) ms p

end PooledRouting.Pool
