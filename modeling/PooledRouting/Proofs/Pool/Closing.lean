import PooledRouting.Proofs.Pool.Rejections
import PooledRouting.Proofs.Pool.Transports

/-!
# Closing connections in turn

Closing a pool goes through the tracked connections in turn, passes over
those that are held, and keeps the first failure.  Each connection is dealt
with as if it were the only one (`closeTransport_others`), so the outcome
of all is read off the state at the start: what is reported
(`closeAll_result`), which transports are closed (`closeAll_history`), and
what becomes of each connection (`closeAll_connection?`).
-/

namespace PooledRouting.Pool

variable {p : Pool} {id : ConnectionId}

/-- What an attempt to close the connection of a pool reports. -/
def closeFailure? (p : Pool) (id : ConnectionId) : Option Fault :=
  if p.isInUse id then some .inUse
  else if p.isUnclosed id then (p.closeFault id).map .transport
  else none

/-- Whether the transport is closed by such an attempt. -/
def closes (p : Pool) (id : ConnectionId) : Bool :=
  !p.isInUse id && p.isUnclosed id

/-- A call that reports a failure, or none. -/
def outcome : Option Fault → Except Fault Unit
  | none => .ok ()
  | some fault => .error fault

theorem closeTransport_result (p : Pool) (id : ConnectionId) :
    (p.closeTransport id).1 = outcome (p.closeFailure? id) := by
  unfold closeTransport closeFailure?
  cases hu : p.isInUse id with
  | true => rfl
  | false =>
    unfold closeConnection isUnclosed shows
    cases hc : p.connection? id with
    | none => rfl
    | some c =>
      cases hclosed : c.closed with
      | true => simp [Connection.close, hclosed, outcome, Except.mapError]
      | false =>
        cases p.closeFault id <;> simp [Connection.close, hclosed, outcome, Except.mapError]

theorem closeTransport_history (hu : p.Unique) (id : ConnectionId) :
    (p.closeTransport id).2.history =
      (if p.closes id then [.transportClosed id] else []) ++ p.history := by
  unfold closeTransport closes
  cases hheld : p.isInUse id with
  | true => rfl
  | false =>
    unfold isUnclosed shows
    rcases closeConnection_cases hu id with ⟨hsame, hclosed⟩ | ⟨c, hc, hopen, hclose⟩
    · simp only [hsame, Bool.false_eq_true, if_false]
      cases hc : p.connection? id with
      | none => rfl
      | some c => simp [hclosed c hc]
    · simp [hclose, hc, hopen, record, modify]

theorem connection?_closeTransport (hu : p.Unique) (id other : ConnectionId) :
    (p.closeTransport id).2.connection? other = (p.connection? other).map fun c =>
      if other = id ∧ c.inUse = false then { c with closed := true } else c := by
  have hf : ∀ c : Connection, c.id = id → ({ c with closed := true } : Connection).id = id :=
    fun _ h => h
  unfold closeTransport
  cases hheld : p.isInUse id with
  | true =>
    -- A connection that is held is passed over.
    rw [if_pos rfl]
    cases hc : p.connection? other with
    | none => rfl
    | some c =>
      have hno : ¬(other = id ∧ c.inUse = false) := by
        rintro ⟨rfl, hfree⟩
        cases ((isInUse_of_connection? hc).symm.trans hheld).symm.trans hfree
      simp [hno]
  | false =>
    rw [if_neg Bool.false_ne_true]
    have hfree : ∀ c, p.connection? id = some c → c.inUse = false := fun c hc =>
      (isInUse_of_connection? hc).symm.trans hheld
    rcases closeConnection_cases hu id with ⟨hsame, hclosed⟩ | ⟨c, hc, hopen, hclose⟩
    · simp only [hsame]
      cases hc : p.connection? other with
      | none => rfl
      | some c =>
        by_cases hid : other = id
        · subst hid
          have hself : { c with closed := true } = c := by
            rw [← hclosed c hc]
          simp [hself]
        · simp [hid]
    · simp only [hclose]
      show (p.modify id fun c => { c with closed := true }).connection? other = _
      by_cases hid : other = id
      · subst hid
        rw [connection?_modify_self (f := fun c => { c with closed := true }) hf, hc]
        simp [hfree c hc]
      · rw [connection?_modify_of_ne (f := fun c => { c with closed := true }) hf hid]
        simp [hid]

theorem closeTransport_frame (p : Pool) (id : ConnectionId) :
    (p.closeTransport id).2 =
      { p with
        connections := (p.closeTransport id).2.connections
        history := (p.closeTransport id).2.history } := by
  unfold closeTransport
  split
  · rfl
  · exact closeConnection_frame p id

theorem unique_closeTransport (hu : p.Unique) (id : ConnectionId) :
    (p.closeTransport id).2.Unique := by
  unfold closeTransport
  split
  · exact hu
  · exact (hooked_closeConnection p id).unique hu

/-- Nothing else of the pool changes. -/
theorem closeAll_frame (p : Pool) (ids : List ConnectionId) :
    ∃ connections history,
      (p.closeAll ids).2 = { p with connections := connections, history := history } := by
  induction ids generalizing p with
  | nil => exact ⟨_, _, rfl⟩
  | cons id ids ih =>
    obtain ⟨connections, history, hrest⟩ := ih (p.closeTransport id).2
    refine ⟨connections, history, hrest.trans ?_⟩
    rw [closeTransport_frame]

/-- Another connection is dealt with as if the first had not been. -/
theorem closeTransport_others (hu : p.Unique) {other : ConnectionId} (hne : other ≠ id) :
    (p.closeTransport id).2.closeFailure? other = p.closeFailure? other ∧
      (p.closeTransport id).2.closes other = p.closes other := by
  have hconnection : (p.closeTransport id).2.connection? other = p.connection? other := by
    rw [connection?_closeTransport hu]
    simp [hne]
  have hfault : (p.closeTransport id).2.closeFault = p.closeFault := by
    rw [closeTransport_frame]
  unfold closes closeFailure? isInUse isUnclosed shows
  rw [hconnection, hfault]
  exact ⟨rfl, rfl⟩

/-- The first failure is reported. -/
theorem closeAll_result (hu : p.Unique) {ids : List ConnectionId} (hnodup : ids.Nodup) :
    (p.closeAll ids).1 = outcome (ids.filterMap p.closeFailure?).head? := by
  induction ids generalizing p with
  | nil => rfl
  | cons id ids ih =>
    obtain ⟨hnew, hnodup⟩ := List.nodup_cons.1 hnodup
    have hrest : ids.filterMap (p.closeTransport id).2.closeFailure? =
        ids.filterMap p.closeFailure? := List.filterMap_congr fun other hin =>
      (closeTransport_others hu (ne_of_mem_of_not_mem hin hnew)).1
    have hfirst := closeTransport_result p id
    unfold closeAll
    dsimp only
    rw [hfirst, ih (unique_closeTransport hu id) hnodup, hrest, List.filterMap_cons]
    cases p.closeFailure? id <;> rfl

/-- Every transport that is to be closed is closed, in turn. -/
theorem closeAll_history (hu : p.Unique) {ids : List ConnectionId} (hnodup : ids.Nodup) :
    (p.closeAll ids).2.history =
      ((ids.filter p.closes).map Event.transportClosed).reverse ++ p.history := by
  induction ids generalizing p with
  | nil => rfl
  | cons id ids ih =>
    obtain ⟨hnew, hnodup⟩ := List.nodup_cons.1 hnodup
    have hrest : ids.filter (p.closeTransport id).2.closes = ids.filter p.closes :=
      List.filter_congr fun other hin =>
        (closeTransport_others hu (ne_of_mem_of_not_mem hin hnew)).2
    show ((p.closeTransport id).2.closeAll ids).2.history = _
    rw [ih (unique_closeTransport hu id) hnodup, hrest, closeTransport_history hu, List.filter_cons]
    cases p.closes id <;> simp

/-- The connections that are not held are closed. -/
theorem closeAll_connection? (hu : p.Unique) {ids : List ConnectionId} (hnodup : ids.Nodup)
    (other : ConnectionId) :
    (p.closeAll ids).2.connection? other = (p.connection? other).map fun c =>
      if other ∈ ids ∧ c.inUse = false then { c with closed := true } else c := by
  induction ids generalizing p with
  | nil =>
    show p.connection? other = _
    cases p.connection? other <;> simp
  | cons id ids ih =>
    obtain ⟨hnew, hnodup⟩ := List.nodup_cons.1 hnodup
    show ((p.closeTransport id).2.closeAll ids).2.connection? other = _
    rw [ih (unique_closeTransport hu id) hnodup, connection?_closeTransport hu, Option.map_map]
    cases hc : p.connection? other with
    | none => rfl
    | some c =>
      by_cases hid : other = id
      · subst hid
        simp [hnew]
      · simp [hid]

end PooledRouting.Pool
