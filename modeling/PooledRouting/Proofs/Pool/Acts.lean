import PooledRouting.Proofs.Pool.Changes
import PooledRouting.Proofs.Pool.Runs

/-!
# What a pool can do

A turn of a task is a chain of small acts.  Between two of them the task
has something in hand: an admission slot, a connection that it took off
the idle list, a connection that is on its way out.  `Hand` says what, and
`Act` lists the acts with the conditions under which the pool takes them.
Calls of callers are chains of acts too.

`Act` is the one place that says what a pool can do.  A property of all
runs is proved by a look at each act, with what is in hand counted in, and
never by taking the operations apart again.

`Occurs` holds of the states between two acts.  Every reachable pool is
one of them with nothing in hand, which `Proofs.Pool.Chains` proves.
`Arises` is wider: there callers may mark connections as well.
-/

namespace PooledRouting.Pool

/-! ## Hands -/

/-- What the task whose turn it is has in hand. -/
inductive Hand where
  /-- Nothing has begun. -/
  | start
  /-- All is done. -/
  | done
  /-- The work of the task that was at the front. -/
  | work (w : Work)
  /-- A `get` has its slot, and looks for an idle connection. -/
  | admitted (get : Nat)
  /-- It took this one off the idle list, and has not looked at it. -/
  | picked (get : Nat) (id : ConnectionId)
  /-- There was none that is valid. -/
  | missed (get : Nat)
  /-- A dial is about to start. -/
  | calling (caller : Caller)
  /-- A slot and a connection that is not marked: of the `get` that is to
  have it, or of a checkout that ends. -/
  | holding (get? : Option Nat) (id : ConnectionId)
  /-- A slot that is to be given back, after which the `get`, if it is
  one's, ends with the fault. -/
  | leaving (get? : Option Nat) (fault : Fault)
  /-- The slot of a top-up that is over. -/
  | finishing
  /-- A connection that is off the lists and is to be closed. -/
  | retiring (id : ConnectionId) (next : Hand)
  /-- A connection has left a list: before all else the pool looks whether
  there is room for top-ups. -/
  | looking (next : Hand)
  /-- The connections that a shutdown has still to look at. -/
  | closing (ids : List ConnectionId)

/-- With this fault a `get` ends whose checkout is rejected. -/
def Fault.isRejection : Fault → Bool
  | .hook _ | .badConnection => true
  | _ => false

/-- A `get` that loses the connection in its hand ends with a rejection.
Nobody hears of the fault when a checkout ends. -/
def Fault.Ends (fault : Fault) (get? : Option Nat) : Prop :=
  get?.isSome = true → fault.isRejection = true

/-- Why a connection leaves the pool: which hand gives it up, how that is
counted, and what is left in hand. -/
inductive Retires (p : Pool) (id : ConnectionId) : Hand → (Counters → Counters) → Hand → Prop where
  /-- A caller has it removed. -/
  | removed (h : p.isInUse id = false) : Retires p id .start (fun c => c) .done
  /-- It was idle, and is not valid any more. -/
  | expired {get : Nat} (h : p.isValid id = false) :
      Retires p id (.picked get id) Counters.retireInvalid (.admitted get)
  /-- It was used, and is not valid any more. -/
  | invalid {get? : Option Nat} {fault : Fault} (h : p.isValid id = false)
      (hfault : fault.Ends get?) (hopen : get? = none → p.closed = false) :
      Retires p id (.holding get? id) Counters.retireInvalid (.leaving get? fault)
  /-- There are enough idle connections. -/
  | stale {get? : Option Nat} {fault : Fault} (hopen : p.closed = false)
      (htracked : id ∈ p.tracked) (hmax : p.options.maxIdle ≠ 0)
      (hfull : p.options.maxIdle ≤ p.idleCount) (hfault : fault.Ends get?) :
      Retires p id (.holding get? id) Counters.retireStale (.leaving get? fault)
  /-- The pool does not answer for it any more. -/
  | late {get? : Option Nat} {fault : Fault} (h : p.closed = true ∨ id ∉ p.tracked)
      (hfault : fault.Ends get?) :
      Retires p id (.holding get? id) (fun c => c) (.leaving get? fault)

/-! ## Acts -/

/-- One act of a pool, from a state and a hand to the next. -/
inductive Act : Pool → Hand → Pool → Hand → Prop where
  /- Calls that take effect at once, and the clock. -/
  | stay {p : Pool} : Act p .start p .done
  | get {p : Pool} (cancelled : Bool) : Act p .start (p.get cancelled) .done
  | cancel {p : Pool} (get : Nat) : Act p .start (p.cancel get) .done
  | resolve {p : Pool} (attempt : Nat) (fault : Option String) :
      Act p .start (p.resolve attempt fault).2 .done
  | setDialer {p : Pool} (dialer : Nat → Course) : Act p .start (p.setDialer dialer) .done
  | setPauses {p : Pool} (pauses : Pauses) : Act p .start (p.setPauses pauses) .done
  | setCloseFaults {p : Pool} (faults : ConnectionId → Option String) :
      Act p .start (p.setCloseFaults faults) .done
  | addForeign {p : Pool} (maxLifetime : Nat) : Act p .start (p.addForeign maxLifetime) .done
  | fire {p : Pool} (ms : Nat) : Act p .start (p.fire (p.now + ms)) .done
  | wait {p : Pool} (ms : Nat) (h : p.nextDeadline? (p.now + ms) = none) :
      Act p .start { p with now := p.now + ms } .done
  /- What may happen with anything in hand. -/
  | touch {p : Pool} {h : Hand} (hh : h ≠ .done) (id : ConnectionId) : Act p h (p.touch id) h
  | closeConnection {p : Pool} {h : Hand} (hh : h ≠ .done) (id : ConnectionId) :
      Act p h (p.closeConnection id).2 h
  /- Shutting down. -/
  | shutDown {p : Pool} (h : p.closed = false) : Act p .start p.shutDown (.closing p.tracked)
  | shutNext {p : Pool} {id : ConnectionId} {ids : List ConnectionId}
      (h : p.isInUse id = false) :
      Act p (.closing (id :: ids)) (p.closeConnection id).2 (.closing ids)
  | shutSkip {p : Pool} {id : ConnectionId} {ids : List ConnectionId}
      (h : p.isInUse id = true) : Act p (.closing (id :: ids)) p (.closing ids)
  | shutLast {p : Pool} : Act p (.closing []) p .done
  /- The line. -/
  | take {p : Pool} {w : Work} {rest : List Work} (h : p.ready = w :: rest) :
      Act p .start { p with ready := rest } (.work w)
  | turnAway {p : Pool} {get : Nat} {fault : Fault}
      (h : p.closed = true ∧ fault = .closed ∨ get ∈ p.fired ∧ fault = .cancelled) :
      Act p (.work (.arrive get)) (p.fail get fault) .done
  | tooLate {p : Pool} {get : Nat} (hopen : p.closed = false) (hlive : get ∉ p.fired)
      (hfree : p.slots = 0) (h : p.options.poolTimeout = 0) :
      Act p (.work (.arrive get)) ((p.count Counters.timeOut).fail get .timedOut) .done
  | join {p : Pool} {get : Nat} (hopen : p.closed = false) (hlive : get ∉ p.fired)
      (hfree : p.slots = 0) (h : p.options.poolTimeout ≠ 0) :
      Act p (.work (.arrive get))
        { p with line := p.line ++ [⟨get, p.now + p.options.poolTimeout⟩] } .done
  | claim {p : Pool} {get : Nat} (hopen : p.closed = false) (hlive : get ∉ p.fired)
      (hfree : 0 < p.slots) :
      Act p (.work (.arrive get)) ({ p with slots := p.slots - 1 }.record (.admitted get))
        (.admitted get)
  | decline {p : Pool} {get : Nat} {fault : Fault}
      (h : p.closed = true ∧ fault = .closed ∨ get ∈ p.fired ∧ fault = .cancelled) :
      Act p (.work (.admitted get)) p (.leaving (some get) fault)
  | accept {p : Pool} {get : Nat} (hopen : p.closed = false) (hlive : get ∉ p.fired) :
      Act p (.work (.admitted get)) (p.record (.admitted get)) (.admitted get)
  | refuse {p : Pool} {get : Nat} :
      Act p (.work (.refused get))
        (p.fail get (if get ∈ p.fired then .cancelled else .closed)) .done
  | giveUp {p : Pool} {get : Nat} (hin : ∃ w ∈ p.line, w.get = get) (h : get ∈ p.fired) :
      Act p (.work (.recheck get))
        ({ p with line := p.line.filter fun w => w.get != get }.fail get .cancelled) .done
  | timeOut {p : Pool} {get : Nat} (hin : ∃ w ∈ p.line, w.get = get ∧ w.deadline ≤ p.now) :
      Act p (.work (.recheck get))
        (({ p with line := p.line.filter fun w => w.get != get }.count
          Counters.timeOut).fail get .timedOut) .done
  | lookAway {p : Pool} {get : Nat}
      (h : ∀ w, (p.line.find? fun w => w.get == get) = some w →
        get ∉ p.fired ∧ p.now < w.deadline) :
      Act p (.work (.recheck get)) p .done
  /- Idle connections. -/
  | shut {p : Pool} {get : Nat} (h : p.closed = true) :
      Act p (.admitted get) p (.leaving (some get) .closed)
  | pick {p : Pool} {get : Nat} {id : ConnectionId} {rest : List ConnectionId}
      (hopen : p.closed = false) (h : p.nextIdle? = some (id, rest)) :
      Act p (.admitted get) { p with idle := rest }.lowerIdleCount (.looking (.picked get id))
  | hit {p : Pool} {get : Nat} {id : ConnectionId} (h : p.isValid id = true) :
      Act p (.picked get id) (p.count Counters.hit) (.holding (some get) id)
  | miss {p : Pool} {get : Nat} (hopen : p.closed = false) (h : p.nextIdle? = none) :
      Act p (.admitted get) (p.count Counters.miss) (.missed get)
  /- Dials. -/
  | noDial {p : Pool} {get : Nat} {fault : Fault}
      (h : p.closed = true ∧ fault = .closed ∨
        (p.options.maxActive > 0 ∧ p.options.maxActive ≤ p.size) ∧ fault = .exhausted ∨
        p.circuitOpen = true ∧ fault = p.circuitFault) :
      Act p (.missed get) p (.leaving (some get) fault)
  | reserve {p : Pool} {get : Nat} (hopen : p.closed = false)
      (hroom : ¬(p.options.maxActive > 0 ∧ p.options.maxActive ≤ p.size))
      (h : p.circuitOpen = false) :
      Act p (.missed get) { p with size := p.size + 1 } (.calling (.get get))
  | callTopUp {p : Pool} (hopen : p.closed = false) (h : p.circuitOpen = false) :
      Act p (.work .topUp) p (.calling .topUp)
  | callProbe {p : Pool} {tries : UInt32} (hopen : p.closed = false) :
      Act p (.work (.probe tries)) p (.calling (.probe (Backoff.countTry tries)))
  | answered {p : Pool} {caller : Caller} {fault : Option String}
      (h : p.dialer (p.attemptCount + 1) = .answer 0 fault) :
      Act p (.calling caller) { p with attemptCount := p.attemptCount + 1 }
        (.work (.dialed caller (p.attemptCount + 1) fault))
  | underWay {p : Pool} {caller : Caller} {due : Option (Nat × Option String)}
      (h : ∀ d ∈ due, p.now < d.1)
      (hcourse : ∀ fault, p.dialer (p.attemptCount + 1) ≠ .answer 0 fault) :
      Act p (.calling caller)
        { p with
          attemptCount := p.attemptCount + 1
          dials := p.dials ++ [⟨p.attemptCount + 1, caller, due⟩] } .done
  | adopt {p : Pool} {get attempt : Nat} (hopen : p.closed = false) :
      Act p (.work (.dialed (.get get) attempt none))
        ((p.connect (.get get) attempt).track (.dialed attempt))
        (.holding (some get) (.dialed attempt))
  | adoptIdle {p : Pool} {attempt : Nat} (hopen : p.closed = false) :
      Act p (.work (.dialed .topUp attempt none))
        { (p.connect .topUp attempt).track (.dialed attempt) with
          idle := p.idle ++ [.dialed attempt] } .finishing
  | adoptLate {p : Pool} {get attempt : Nat} (h : p.closed = true) :
      Act p (.work (.dialed (.get get) attempt none))
        ((p.connect (.get get) attempt).closeConnection (.dialed attempt)).2
        (.leaving (some get) .closed)
  | adoptIdleLate {p : Pool} {attempt : Nat} (h : p.closed = true) :
      Act p (.work (.dialed .topUp attempt none))
        ((p.connect .topUp attempt).closeConnection (.dialed attempt)).2 .finishing
  | dialFailed {p : Pool} {get attempt : Nat} {reason : String} (hopen : p.closed = false) :
      Act p (.work (.dialed (.get get) attempt (some reason)))
        (p.noteDialFailure reason).lowerSize (.leaving (some get) (.dial reason))
  | dialFailedLate {p : Pool} {get attempt : Nat} {reason : String} (h : p.closed = true) :
      Act p (.work (.dialed (.get get) attempt (some reason))) (p.noteDialFailure reason)
        (.leaving (some get) (.dial reason))
  | topUpFailed {p : Pool} {attempt : Nat} {reason : String} :
      Act p (.work (.dialed .topUp attempt (some reason)))
        (p.noteDialFailure reason).lowerSize.lowerIdleCount .finishing
  | topUpDenied {p : Pool} (hopen : p.closed = false) (h : p.circuitOpen = true) :
      Act p (.work .topUp) p.lowerSize.lowerIdleCount .finishing
  | topUpOff {p : Pool} (h : p.closed = true) : Act p (.work .topUp) p .finishing
  | finish {p : Pool} : Act p .finishing p.freeSlot .done
  /- The probe. -/
  | probeOff {p : Pool} {tries : UInt32} (h : p.closed = true) :
      Act p (.work (.probe tries)) p.endProbe .done
  | probeDropped {p : Pool} {tries : UInt32} {attempt : Nat} {fault : Option String}
      (h : p.closed = true) :
      Act p (.work (.dialed (.probe tries) attempt fault)) p.endProbe .done
  | probeReached {p : Pool} {tries : UInt32} {attempt : Nat} :
      Act p (.work (.dialed (.probe tries) attempt none))
        (((p.resetCircuit.record (.connected (.probe tries) attempt)).record
          (.transportClosed (.dialed attempt))).endProbe) .done
  | probeGaveUp {p : Pool} {tries : UInt32} {attempt : Nat} {reason : String}
      (h : p.closed = true ∨ p.pauseAfter? tries attempt = none) :
      Act p (.work (.dialed (.probe tries) attempt (some reason)))
        { p with lastDialFault := some (.dial reason) }.endProbe .done
  | probeAgain {p : Pool} {tries : UInt32} {attempt : Nat} {reason : String}
      (hopen : p.closed = false) (h : p.pauseAfter? tries attempt = some 0) :
      Act p (.work (.dialed (.probe tries) attempt (some reason)))
        ({ p with lastDialFault := some (.dial reason) }.enqueue (.probe tries)) .done
  | probeNap {p : Pool} {tries : UInt32} {attempt ms : Nat} {reason : String}
      (hopen : p.closed = false)
      (h : p.pauseAfter? tries attempt = some ms) (hms : ms ≠ 0) :
      Act p (.work (.dialed (.probe tries) attempt (some reason)))
        { p with
          lastDialFault := some (.dial reason)
          naps := p.naps ++ [⟨tries, p.now + ms⟩] } .done
  /- Handing out and taking back. -/
  | mark {p : Pool} {get? : Option Nat} {id : ConnectionId} (h : ¬p.options.Unmarking) :
      Act p (.holding get? id) (p.mark id true) (.holding get? id)
  | countHooks {p : Pool} {get? : Option Nat} {id : ConnectionId} {hooks : List HookState}
      (h : hooks.map HookState.hook = p.hooks.map HookState.hook) :
      Act p (.holding get? id) { p with hooks := hooks } (.holding get? id)
  | putBack {p : Pool} {get? : Option Nat} {id : ConnectionId} {c : Connection}
      (hc : p.connection? id = some c) (hclosed : c.closed = false) :
      Act p (.holding get? id) (p.modify id fun _ => { c with inUse := false, usedAt := p.now })
        (.holding get? id)
  | serve {p : Pool} {get : Nat} {id : ConnectionId} {c : Connection}
      (hc : p.connection? id = some c) (hclosed : c.closed = false)
      (hvalid : { c with inUse := true, usedAt := p.now }.isValid p.now = true) :
      Act p (.holding (some get) id)
        (((p.modify id fun _ => { c with inUse := true, usedAt := p.now }).count
          Counters.checkOut).record (.served get id)) .done
  | keep {p : Pool} {get? : Option Nat} {id : ConnectionId} {fault : Fault}
      (hopen : p.closed = false) (hvalid : p.isValid id = true) (htracked : id ∈ p.tracked)
      (hroom : p.options.maxIdle = 0 ∨ p.idleCount < p.options.maxIdle)
      (hfault : fault.Ends get?) :
      Act p (.holding get? id)
        { p with idle := p.idle ++ [id], idleCount := p.idleCount + 1 } (.leaving get? fault)
  | fail {p : Pool} {get : Nat} {fault : Fault} :
      Act p (.leaving (some get) fault) (p.freeSlot.fail get fault) .done
  | checkIn {p : Pool} {fault : Fault} :
      Act p (.leaving none fault) (p.count Counters.checkIn).freeSlot .done
  /- Top-ups. -/
  | look {p : Pool} {h : Hand} : Act p (.looking h) p.topUp h
  /- Retiring connections. -/
  | strike {p : Pool} {id : ConnectionId} {h k : Hand} {f : Counters → Counters}
      (hr : Retires p id h f k) (hid : id ∈ p.tracked) :
      Act p h ((p.count f).strike id) (.looking (.retiring id k))
  | pass {p : Pool} {id : ConnectionId} {h k : Hand} {f : Counters → Counters}
      (hr : Retires p id h f k) (hid : id ∉ p.tracked) : Act p h (p.count f) (.retiring id k)
  | refuseRemoval {p : Pool} {id : ConnectionId} {h k : Hand} {f : Counters → Counters}
      (hr : Retires p id h f k) (hu : p.isInUse id = true) : Act p h (p.count f) k
  | retire {p : Pool} {id : ConnectionId} {k : Hand} (hu : p.isInUse id = false) :
      Act p (.retiring id k) (p.closeConnection id).2 k
  | spare {p : Pool} {id : ConnectionId} {k : Hand} (hu : p.isInUse id = true) :
      Act p (.retiring id k) p k

/-! ## Chains and the states in them -/

/-- Acts in a row. -/
inductive Acts : Pool → Hand → Pool → Hand → Prop where
  | refl {p : Pool} {h : Hand} : Acts p h p h
  | cons {p q r : Pool} {h k l : Hand} : Act p h q k → Acts q k r l → Acts p h r l

namespace Acts

variable {p q r : Pool} {h k l : Hand}

theorem single (ha : Act p h q k) : Acts p h q k :=
  cons ha refl

theorem trans (h₁ : Acts p h q k) (h₂ : Acts q k r l) : Acts p h r l := by
  induction h₁ with
  | refl => exact h₂
  | cons ha _ ih => exact cons ha (ih h₂)

/-- What holds at the start and is kept by each act holds at the end. -/
theorem invariant {I : Pool → Hand → Prop} (hs : Acts p h q k) (hp : I p h)
    (hact : ∀ {p h q k}, I p h → Act p h q k → I q k) : I q k := by
  induction hs with
  | refl => exact hp
  | cons ha _ ih => exact ih (hact hp ha)

end Acts

/-- The states that a pool passes through, within turns and between them. -/
inductive Occurs (o : Options) : Pool → Hand → Prop where
  | create (dialer : Nat → Course) (now : Nat) (background : Bool) :
      Occurs o (Pool.create o dialer now background) .start
  | act {p q : Pool} {h k : Hand} : Occurs o p h → Act p h q k → Occurs o q k
  /-- One chain ends and the next may begin. -/
  | next {p : Pool} : Occurs o p .done → Occurs o p .start
  /-- A checkout ends: the mark is taken off first. -/
  | giveBack {p : Pool} {id : ConnectionId} :
      Occurs o p .start → p.isInUse id = true →
        Occurs o (p.mark id false) (.holding none id)

theorem Occurs.acts {o : Options} {p q : Pool} {h k : Hand} (hp : Occurs o p h)
    (hs : Acts p h q k) : Occurs o q k :=
  hs.invariant hp fun hp ha => hp.act ha

/-- The same with callers that mark connections as held, or not held, as
they like.  A checkout may end then with any connection. -/
inductive Arises (o : Options) : Pool → Hand → Prop where
  | create (dialer : Nat → Course) (now : Nat) (background : Bool) :
      Arises o (Pool.create o dialer now background) .start
  | act {p q : Pool} {h k : Hand} : Arises o p h → Act p h q k → Arises o q k
  | next {p : Pool} : Arises o p .done → Arises o p .start
  | mark {p : Pool} (id : ConnectionId) (inUse : Bool) :
      Arises o p .start → Arises o (p.mark id inUse) .start
  | release {p : Pool} (id : ConnectionId) : Arises o p .start → Arises o p (.holding none id)

theorem Arises.acts {o : Options} {p q : Pool} {h k : Hand} (hp : Arises o p h)
    (hs : Acts p h q k) : Arises o q k :=
  hs.invariant hp fun hp ha => hp.act ha

theorem Occurs.arises {o : Options} {p : Pool} {h : Hand} (hp : Occurs o p h) : Arises o p h := by
  induction hp with
  | create dialer now background => exact .create dialer now background
  | act _ ha ih => exact ih.act ha
  | next _ ih => exact ih.next
  | giveBack _ _ ih => exact (ih.mark _ false).release _

end PooledRouting.Pool
