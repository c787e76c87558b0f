import PooledRouting.Connection

/-!
# The history of a connection

From the moment it is opened a connection lives through calls and through
time.  What it is at any later moment can be read off that history alone,
without a look at the connection.

There are four groups.

* Calls, the moments they lead to (`Moment.after`), and what a history says:
  whether it has a call of `close`, how much time passed in it, and when the
  connection was last used (`lastUse`).
* One call (`closed_next`, `usedAt_next` and the lemmas beside them), and what
  no call changes.
* Runs.  A closed connection stands still (`Rests`), which is carried from call
  to call; up to the first call of `close` the time of last use is that of the
  history (`usedAt_after`).
* The calls of `close` (`closings_eq`): the first one runs, and it alone can
  fail.

`history_decides` is the result.
-/

namespace PooledRouting.Connection

/-! ## Calls and moments -/

/-- One thing that happens to a connection. -/
inductive Call where
  /-- Time passes. -/
  | advance (ms : Nat)
  /-- A use is noted. -/
  | touch
  /-- The mark of being held is set or cleared. -/
  | mark (inUse : Bool)
  /-- The same, by a caller who wants to know what the mark was before. -/
  | swap (inUse : Bool)
  /-- The connection is to be taken out. -/
  | takeOut
  /-- The connection is closed, and its transport fails so if it is asked. -/
  | close (fault : Option String)
  deriving DecidableEq

namespace Call

/-- How the transport would fail, if the call is one of `close`. -/
def fault? : Call → Option (Option String)
  | close fault => some fault
  | _ => none

/-- Whether the call is one of `close`. -/
def isClose (call : Call) : Bool :=
  call.fault?.isSome

/-- Whether the call uses the connection. -/
def isUse : Call → Bool
  | touch | mark true | swap true | takeOut => true
  | _ => false

/-- The time that passes. -/
def elapsed : Call → Nat
  | advance ms => ms
  | _ => 0

end Call

/-- A connection and the time. -/
structure Moment where
  connection : Connection
  now : Nat

namespace Moment

/-- The moment at which a connection is opened. -/
def opening (now : Nat) (id : ConnectionId) (maxLifetime maxIdleTime : Nat) : Moment :=
  ⟨openedAt now id maxLifetime maxIdleTime, now⟩

/-- The moment after a call. -/
def next (m : Moment) : Call → Moment
  | .advance ms => { m with now := m.now + ms }
  | .touch => { m with connection := m.connection.touch m.now }
  | .mark inUse | .swap inUse => { m with connection := m.connection.mark m.now inUse }
  | .takeOut => { m with connection := (m.connection.takeOut? m.now).getD m.connection }
  | .close fault => { m with connection := (m.connection.close fault).connection }

/-- The moment after calls in turn. -/
def after (m : Moment) (calls : List Call) : Moment :=
  calls.foldl next m

/-- What the calls of `close` among these come to. -/
def closings (m : Moment) : List Call → List Closing
  | [] => []
  | call :: calls =>
    match call.fault? with
    | some fault => m.connection.close fault :: (m.next call).closings calls
    | none => (m.next call).closings calls

end Moment

/-- Whether there is a call of `close`. -/
def hasClose (calls : List Call) : Bool :=
  calls.any Call.isClose

/-- The time that passes in the calls. -/
def elapsedIn : List Call → Nat
  | [] => 0
  | call :: calls => call.elapsed + elapsedIn calls

/-- The times of the uses among the calls, the first of which is made at
`now`. -/
def useTimes (now : Nat) : List Call → List Nat
  | [] => []
  | call :: calls =>
    if call.isUse then now :: useTimes now calls else useTimes (now + call.elapsed) calls

/-- The time of the last use before the first call of `close`, or of the
opening. -/
def lastUse (opened : Nat) (calls : List Call) : Nat :=
  (useTimes opened (calls.takeWhile fun call => !call.isClose)).getLastD opened

/-- The result of a call of `close` that reaches the transport. -/
def outcome : Option String → Except String Unit
  | none => .ok ()
  | some reason => .error reason

/-- What calls of `close` come to if only the first one does anything: whether
it ran, and its result. -/
def firstRuns : List (Option String) → List (Bool × Except String Unit)
  | [] => []
  | fault :: faults => (true, outcome fault) :: faults.map fun _ => (false, .ok ())

variable {m : Moment} {call : Call} {calls : List Call}

namespace Moment

/-! ## One call -/

theorem now_next (m : Moment) (call : Call) : (m.next call).now = m.now + call.elapsed := by
  cases call <;> rfl

theorem closed_next (m : Moment) (call : Call) :
    (m.next call).connection.closed = (m.connection.closed || call.isClose) := by
  cases call with
  | takeOut =>
    cases hclosed : m.connection.closed <;>
      simp [next, takeOut?, hclosed, Call.isClose, Call.fault?]
  | _ => simp [next, Call.isClose, Call.fault?]

/-- A use sets the time of last use, unless the connection is closed. -/
theorem usedAt_next (m : Moment) (call : Call) :
    (m.next call).connection.usedAt =
      if m.connection.closed = false ∧ call.isUse then m.now else m.connection.usedAt := by
  cases hclosed : m.connection.closed <;> cases call with
  | advance ms => simp [next, Call.isUse]
  | touch => simp [next, Connection.touch, hclosed, Call.isUse]
  | mark inUse => cases inUse <;> simp [next, Connection.mark, hclosed, Call.isUse]
  | swap inUse => cases inUse <;> simp [next, Connection.mark, hclosed, Call.isUse]
  | takeOut => simp [next, takeOut?, hclosed, Call.isUse]
  | close fault => simp [next, Connection.close, hclosed, Call.isUse]

/-- No call changes when the connection was opened and what its limits are. -/
theorem terms_next (m : Moment) (call : Call) :
    (m.next call).connection.createdAt = m.connection.createdAt ∧
      (m.next call).connection.maxLifetime = m.connection.maxLifetime ∧
      (m.next call).connection.maxIdleTime = m.connection.maxIdleTime := by
  cases hclosed : m.connection.closed <;> cases call with
  | advance ms => simp [next]
  | touch => simp [next, Connection.touch, hclosed]
  | mark inUse => cases inUse <;> simp [next, Connection.mark, hclosed]
  | swap inUse => cases inUse <;> simp [next, Connection.mark, hclosed]
  | takeOut => simp [next, takeOut?, hclosed]
  | close fault => simp [next, Connection.close, hclosed]

/-- A closed connection can be given back but not taken out. -/
theorem inUse_next (hclosed : m.connection.closed = true)
    (hinUse : (m.next call).connection.inUse = true) : m.connection.inUse = true := by
  cases call with
  | advance ms => exact hinUse
  | touch => simpa [next] using hinUse
  | mark inUse => cases inUse <;> simp_all [next, Connection.mark]
  | swap inUse => cases inUse <;> simp_all [next, Connection.mark]
  | takeOut => simpa [next, takeOut?, hclosed] using hinUse
  | close fault => simpa [next] using hinUse

/-! ## Runs -/

theorem after_cons (m : Moment) (call : Call) (calls : List Call) :
    m.after (call :: calls) = (m.next call).after calls := rfl

theorem now_after (m : Moment) (calls : List Call) :
    (m.after calls).now = m.now + elapsedIn calls := by
  induction calls generalizing m with
  | nil => rfl
  | cons call calls ih =>
    rw [after_cons, ih, now_next]
    simp only [elapsedIn]
    omega

theorem closed_after (m : Moment) (calls : List Call) :
    (m.after calls).connection.closed = (m.connection.closed || hasClose calls) := by
  induction calls generalizing m with
  | nil => simp [after, hasClose]
  | cons call calls ih =>
    rw [after_cons, ih, closed_next, Bool.or_assoc]
    rfl

theorem terms_after (m : Moment) (calls : List Call) :
    (m.after calls).connection.createdAt = m.connection.createdAt ∧
      (m.after calls).connection.maxLifetime = m.connection.maxLifetime ∧
      (m.after calls).connection.maxIdleTime = m.connection.maxIdleTime := by
  induction calls generalizing m with
  | nil => exact ⟨rfl, rfl, rfl⟩
  | cons call calls ih =>
    obtain ⟨hcreated, hlifetime, hidle⟩ := ih (m.next call)
    obtain ⟨hcreated', hlifetime', hidle'⟩ := m.terms_next call
    exact ⟨hcreated.trans hcreated', hlifetime.trans hlifetime', hidle.trans hidle'⟩

/-- From one moment to a later one the connection is closed, its time of last
use stands still, and at most its mark is cleared. -/
structure Rests (m m' : Moment) : Prop where
  closed : m'.connection.closed = true
  usedAt : m'.connection.usedAt = m.connection.usedAt
  inUse : m'.connection.inUse = true → m.connection.inUse = true

theorem rests_next (hclosed : m.connection.closed = true) (call : Call) :
    m.Rests (m.next call) where
  closed := by simp [closed_next, hclosed]
  usedAt := by simp [usedAt_next, hclosed]
  inUse := inUse_next hclosed

theorem rests_after (hclosed : m.connection.closed = true) (calls : List Call) :
    m.Rests (m.after calls) := by
  induction calls generalizing m with
  | nil => exact ⟨hclosed, rfl, fun hinUse => hinUse⟩
  | cons call calls ih =>
    have hnext := rests_next hclosed call
    have hrest := ih hnext.closed
    exact ⟨hrest.closed, hrest.usedAt.trans hnext.usedAt, hnext.inUse ∘ hrest.inUse⟩

/-- The time of last use of a connection that is open at first.  The induction
takes the calls off the front; with the first call of `close` the rest of them
is a rest. -/
theorem usedAt_after (hopen : m.connection.closed = false) (calls : List Call) :
    (m.after calls).connection.usedAt =
      (useTimes m.now (calls.takeWhile fun call => !call.isClose)).getLastD
        m.connection.usedAt := by
  induction calls generalizing m with
  | nil => rfl
  | cons call calls ih =>
    have hused := m.usedAt_next call
    rw [after_cons]
    cases hclose : call.isClose with
    | true =>
      have hnoUse : call.isUse = false := by
        cases call <;> simp_all [Call.isClose, Call.fault?, Call.isUse]
      have hclosed : (m.next call).connection.closed = true := by simp [closed_next, hclose]
      rw [(rests_after hclosed calls).usedAt, hused]
      simp [hclose, hnoUse, useTimes]
    | false =>
      have hstill : (m.next call).connection.closed = false := by
        simp [closed_next, hopen, hclose]
      have hwhile : (call :: calls).takeWhile (fun call => !call.isClose) =
          call :: calls.takeWhile fun call => !call.isClose := by
        simp [hclose]
      rw [ih hstill, now_next, hwhile, hused, useTimes]
      cases huse : call.isUse with
      | true =>
        have hinstant : call.elapsed = 0 := by
          cases call <;> simp_all [Call.isUse, Call.elapsed]
        rw [if_pos ⟨hopen, rfl⟩, if_pos rfl, hinstant, Nat.add_zero, List.getLastD_cons]
      | false => simp

/-! ## Calls of `close` -/

/-- A closed connection is not closed again. -/
theorem closings_of_closed (hclosed : m.connection.closed = true) (calls : List Call) :
    (m.closings calls).map (fun c => (c.ran, c.result)) =
      (calls.filterMap Call.fault?).map fun _ => (false, .ok ()) := by
  induction calls generalizing m with
  | nil => rfl
  | cons call calls ih =>
    have hrest := ih (rests_next hclosed call).closed
    rw [closings]
    cases hfault : call.fault? with
    | none => simpa [List.filterMap_cons_none hfault] using hrest
    | some fault =>
      simpa [List.filterMap_cons_some hfault, Connection.close, hclosed] using hrest

/-- Of the calls of `close` on an open connection the first one runs, and it
alone can fail. -/
theorem closings_eq (hopen : m.connection.closed = false) (calls : List Call) :
    (m.closings calls).map (fun c => (c.ran, c.result)) =
      firstRuns (calls.filterMap Call.fault?) := by
  induction calls generalizing m with
  | nil => rfl
  | cons call calls ih =>
    have hnext : (m.next call).connection.closed = call.isClose := by simp [closed_next, hopen]
    rw [closings]
    unfold Call.isClose at hnext
    cases hfault : call.fault? with
    | none =>
      rw [hfault] at hnext
      simpa [List.filterMap_cons_none hfault] using ih hnext
    | some fault =>
      rw [hfault] at hnext
      have hran : (m.connection.close fault).ran = true := by simp [close_ran, hopen]
      have hresult : (m.connection.close fault).result = outcome fault := by
        cases fault <;> simp [Connection.close, hopen, outcome]
      simp [List.filterMap_cons_some hfault, firstRuns, closings_of_closed hnext, hran, hresult]

end Moment

theorem isValid_eq_true_iff (c : Connection) (now : Nat) :
    c.isValid now = true ↔ c.closed = false ∧
      (c.maxLifetime = 0 ∨ now - c.createdAt ≤ c.maxLifetime) ∧
      (c.maxIdleTime = 0 ∨ now - c.usedAt ≤ c.maxIdleTime) := by
  simp [isValid, and_assoc]

/-- Once a connection is past its lifetime, time makes it no younger. -/
theorem Moment.isValid_after_lifetime (m : Moment) (hlimit : m.connection.maxLifetime ≠ 0)
    (hold : m.connection.maxLifetime < m.now - m.connection.createdAt) (calls : List Call) :
    (m.after calls).connection.isValid (m.after calls).now = false := by
  obtain ⟨hcreated, hlifetime, -⟩ := m.terms_after calls
  have hnow := m.now_after calls
  refine Bool.eq_false_iff.2 fun hvalid => ?_
  obtain ⟨-, hyoung, -⟩ := (isValid_eq_true_iff _ _).1 hvalid
  rw [hcreated, hlifetime] at hyoung
  omega

/-- What a connection is after any calls is decided by their history.

It is valid exactly if there was no call of `close`, the time since the opening
is within the lifetime, and the time since the last use before a call of
`close` (or since the opening) is within the idle time.  The first call of
`close` alone reaches the transport and can fail.

From a call of `close` on, whatever follows, the connection stays closed, its
time of last use stands still and its mark is at most cleared.  Once it is past
its lifetime it is never valid again. -/
theorem history_decides (opened : Nat) (id : ConnectionId) (maxLifetime maxIdleTime : Nat)
    (calls : List Call) :
    let start := Moment.opening opened id maxLifetime maxIdleTime
    let m := start.after calls
    m.now = opened + elapsedIn calls ∧
      (m.connection.isValid m.now = true ↔
        (∀ call ∈ calls, call.isClose = false) ∧
          (maxLifetime = 0 ∨ m.now - opened ≤ maxLifetime) ∧
          (maxIdleTime = 0 ∨ m.now - lastUse opened calls ≤ maxIdleTime)) ∧
      (start.closings calls).map (fun c => (c.ran, c.result)) =
        firstRuns (calls.filterMap Call.fault?) ∧
      ∀ later : List Call,
        ((∃ call ∈ calls, call.isClose = true) → m.Rests (m.after later)) ∧
          (maxLifetime ≠ 0 → maxLifetime < m.now - opened →
            (m.after later).connection.isValid (m.after later).now = false) := by
  intro start m
  have hopen : start.connection.closed = false := rfl
  obtain ⟨hcreated, hlifetime, hidle⟩ := start.terms_after calls
  have hclosed : m.connection.closed = hasClose calls := start.closed_after calls
  have hused : m.connection.usedAt = lastUse opened calls := Moment.usedAt_after hopen calls
  refine ⟨start.now_after calls, ?_, Moment.closings_eq hopen calls, fun later => ⟨?_, ?_⟩⟩
  · rw [isValid_eq_true_iff, hclosed, hused]
    have hnone : hasClose calls = false ↔ ∀ call ∈ calls, call.isClose = false := by
      simp [hasClose]
    rw [hnone, hcreated, hlifetime, hidle]
    rfl
  · intro hclose
    have hsome : m.connection.closed = true := by
      rw [hclosed]
      simpa [hasClose] using hclose
    exact Moment.rests_after hsome later
  · intro hlimit hold
    refine m.isValid_after_lifetime ?_ ?_ later
    · rw [hlifetime]
      exact hlimit
    · rw [hcreated, hlifetime]
      exact hold

/-- A connection that is given back and touched is valid.  Closed with a failure
and closed again it rests; past its lifetime no use makes it valid. -/
theorem history_decides_given_back :
    let start := Moment.opening 5 (.dialed 1) 100 10
    let calls : List Call := [.takeOut, .advance 8, .mark false, .touch, .advance 9]
    let closed : List Call := calls ++ [.close (some "reset"), .swap true, .close none]
    let aged : List Call := calls ++ [.advance 84]
    (start.after calls).connection.isValid (start.after calls).now = true ∧
      (start.closings closed).map (fun c => (c.ran, c.result)) =
        [(true, .error "reset"), (false, .ok ())] ∧
      (start.after closed).Rests ((start.after closed).after [.touch, .takeOut]) ∧
      ((start.after aged).after [.takeOut]).connection.isValid 106 = false := by
  intro start calls closed aged
  obtain ⟨-, hvalid, -⟩ := history_decides 5 (.dialed 1) 100 10 calls
  obtain ⟨-, -, hclosings, hclosed⟩ := history_decides 5 (.dialed 1) 100 10 closed
  obtain ⟨-, -, -, haged⟩ := history_decides 5 (.dialed 1) 100 10 aged
  have hclose : ∃ call ∈ closed, call.isClose = true := ⟨.close none, by decide, rfl⟩
  exact ⟨hvalid.2 ⟨by decide, .inr (by decide), .inr (by decide)⟩, hclosings,
    (hclosed _).1 hclose, (haged [.takeOut]).2 (by decide) (by decide)⟩

end PooledRouting.Connection
