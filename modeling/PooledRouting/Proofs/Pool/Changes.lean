import Mathlib.Data.List.Nodup
import PooledRouting.Proofs.Pool.Tasks

/-!
# The small changes of a pool

What the small changes do to the connections of a pool, said through
`connection?`, and to the other fields, said as one record update each.

There are four groups.

* Looking connections up.  `modify` changes the connection that it names
  and no other.  `shows` asks whether the connection under an id has a
  property; what a change does to one property is said of it alone.  With
  `Unique` ids every connection is found under its own.
* Closing a connection.  `closeConnection_cases` says that either nothing
  happens or the one connection is closed and noted.
* Slots and dials.  `freeSlot`, `noteDialFailure` and `strike` as record
  updates.
* Taking back and retiring.  `Persists` names what a relation needs in
  order to hold between the pools before and after any of `remove`,
  `recycle` and `closeAll`.
-/

namespace PooledRouting.Pool

/-! ## Looking connections up -/

/-- No two connections have the same id. -/
def Unique (p : Pool) : Prop :=
  (p.connections.map Connection.id).Nodup

theorem connection?_id {p : Pool} {id : ConnectionId} {c : Connection}
    (h : p.connection? id = some c) : c.id = id := by
  simpa using List.find?_some h

theorem connection?_mem {p : Pool} {id : ConnectionId} {c : Connection}
    (h : p.connection? id = some c) : c ∈ p.connections :=
  List.mem_of_find?_eq_some h

theorem connection?_eq_none_iff {p : Pool} {id : ConnectionId} :
    p.connection? id = none ↔ ∀ c ∈ p.connections, c.id ≠ id := by
  simp [connection?]

/-- With unique ids a connection is found under its own id. -/
theorem connection?_of_mem {p : Pool} (hu : p.Unique) {c : Connection}
    (h : c ∈ p.connections) : p.connection? c.id = some c := by
  cases hc : p.connection? c.id with
  | none => exact absurd rfl (connection?_eq_none_iff.1 hc c h)
  | some d =>
    have hd := connection?_id hc
    rw [List.inj_on_of_nodup_map hu (connection?_mem hc) h hd]

theorem isInUse_eq_true_iff {p : Pool} {id : ConnectionId} :
    p.isInUse id = true ↔ ∃ c, p.connection? id = some c ∧ c.inUse = true := by
  simp [isInUse, Option.any_eq_true]

theorem isInUse_of_connection? {p : Pool} {id : ConnectionId} {c : Connection}
    (h : p.connection? id = some c) : p.isInUse id = c.inUse := by
  simp [isInUse, h]

/-- Whether there is a connection with this id, and it has the property. -/
def shows (p : Pool) (Q : Connection → Bool) (id : ConnectionId) : Bool :=
  (p.connection? id).any Q

variable {p : Pool} {id : ConnectionId} {f : Connection → Connection}

private theorem id_ite (hf : ∀ c, c.id = id → (f c).id = id) (c : Connection) :
    (if c.id = id then f c else c).id = c.id := by
  split
  · rename_i hc
    rw [hf c hc, hc]
  · rfl

theorem map_id_modify (hf : ∀ c, c.id = id → (f c).id = id) :
    (p.modify id f).connections.map Connection.id = p.connections.map Connection.id := by
  simp only [modify, List.map_map]
  exact List.map_congr_left fun c _ => id_ite hf c

theorem connection?_modify (hf : ∀ c, c.id = id → (f c).id = id) (other : ConnectionId) :
    (p.modify id f).connection? other =
      (p.connection? other).map fun c => if c.id = id then f c else c := by
  unfold connection? modify
  rw [List.find?_map]
  congr 2
  funext c
  simp only [Function.comp_apply, id_ite hf c]

theorem connection?_modify_self (hf : ∀ c, c.id = id → (f c).id = id) :
    (p.modify id f).connection? id = (p.connection? id).map f := by
  rw [connection?_modify hf]
  cases hc : p.connection? id with
  | none => rfl
  | some c => simp [connection?_id hc]

theorem connection?_modify_of_ne (hf : ∀ c, c.id = id → (f c).id = id) {other : ConnectionId}
    (hne : other ≠ id) : (p.modify id f).connection? other = p.connection? other := by
  rw [connection?_modify hf]
  cases hc : p.connection? other with
  | none => rfl
  | some c => simp [connection?_id hc, hne]

/-- Another connection may be put in the place of one. -/
theorem connection?_put {c d : Connection} (hc : p.connection? id = some c) (hd : d.id = id) :
    (p.modify id fun _ => d).connection? id = some d := by
  rw [connection?_modify_self (f := fun _ => d) fun _ _ => hd, hc]
  rfl

theorem isValid_put {c d : Connection} (hc : p.connection? id = some c) (hd : d.id = id) :
    (p.modify id fun _ => d).isValid id = d.isValid p.now := by
  unfold isValid
  rw [connection?_put hc hd]
  rfl

/-- Two changes of the same connection are one. -/
theorem modify_modify (hf : ∀ c, c.id = id → (f c).id = id) {g : Connection → Connection} :
    (p.modify id f).modify id g = p.modify id fun c => g (f c) := by
  have hmap : ∀ c : Connection, (if (if c.id = id then f c else c).id = id
      then g (if c.id = id then f c else c) else if c.id = id then f c else c) =
        if c.id = id then g (f c) else c := fun c => by
    by_cases hc : c.id = id
    · simp [hc, hf c hc]
    · simp [hc]
  unfold modify
  simp only [List.map_map, Function.comp_def, hmap]

variable {Q : Connection → Bool}

theorem shows_eq_true_iff :
    p.shows Q id = true ↔ ∃ c, p.connection? id = some c ∧ Q c = true := by
  simp [shows, Option.any_eq_true]

theorem shows_modify_of_ne (hf : ∀ c, c.id = id → (f c).id = id) {other : ConnectionId}
    (hne : other ≠ id) : (p.modify id f).shows Q other = p.shows Q other := by
  unfold shows
  rw [connection?_modify_of_ne hf hne]

/-- A change that keeps the property of a connection keeps it of all. -/
theorem shows_modify (hf : ∀ c, c.id = id → (f c).id = id)
    (hQ : ∀ c, p.connection? id = some c → Q (f c) = Q c) (other : ConnectionId) :
    (p.modify id f).shows Q other = p.shows Q other := by
  by_cases hne : other = id
  · subst hne
    unfold shows
    rw [connection?_modify_self hf]
    cases hc : p.connection? other with
    | none => rfl
    | some c => exact hQ c hc
  · exact shows_modify_of_ne hf hne

theorem shows_openConnection (p : Pool) {c : Connection} (hc : Q c = false)
    (other : ConnectionId) :
    { p with connections := p.connections ++ [c] }.shows Q other = p.shows Q other := by
  unfold shows connection?
  rw [List.find?_append]
  cases p.connections.find? fun d => d.id == other with
  | some d => rfl
  | none =>
    rw [Option.none_or, List.find?_singleton]
    split
    · exact hc
    · rfl

theorem shows_openConnection_of_ne (p : Pool) {c : Connection} {other : ConnectionId}
    (hne : other ≠ c.id) :
    { p with connections := p.connections ++ [c] }.shows Q other = p.shows Q other := by
  have hid : (c.id == other) = false := by simpa using fun h => hne h.symm
  unfold shows connection?
  rw [List.find?_append, List.find?_singleton, hid, if_neg Bool.false_ne_true, Option.or_none]

theorem shows_touch (hQ : ∀ c now, Q (Connection.touch c now) = Q c) (p : Pool)
    (id other : ConnectionId) : (p.touch id).shows Q other = p.shows Q other :=
  shows_modify (fun c hc => (Connection.touch_id c p.now).trans hc) (fun c _ => hQ c p.now) other

theorem id_close {c : Connection} (hc : p.connection? id = some c) (fault : Option String) :
    (c.close fault).connection.id = id :=
  (c.close_id fault).trans (connection?_id hc)

theorem closeConnection_of_none (hc : p.connection? id = none) : (p.closeConnection id).2 = p := by
  unfold closeConnection
  rw [hc]

/-- A connection is closed in its place. -/
theorem closeConnection_of_some {c : Connection} (hc : p.connection? id = some c) :
    (p.closeConnection id).2 =
      { p.modify id fun _ => (c.close (p.closeFault id)).connection with
        history := (p.closeConnection id).2.history } := by
  unfold closeConnection
  rw [hc]
  dsimp only
  split <;> rfl

theorem shows_closeConnection (hQ : ∀ c fault, Q (Connection.close c fault).connection = Q c)
    (p : Pool) (id other : ConnectionId) :
    (p.closeConnection id).2.shows Q other = p.shows Q other := by
  cases hc : p.connection? id with
  | none => rw [closeConnection_of_none hc]
  | some c =>
    rw [closeConnection_of_some hc]
    refine shows_modify (p := p) (fun _ _ => id_close hc _) (fun d hd => ?_) other
    cases hc.symm.trans hd
    exact hQ c _

/-- Only what a change does to the named connection matters. -/
theorem modify_congr (hu : p.Unique) {c : Connection} (hc : p.connection? id = some c)
    {g : Connection → Connection} (h : f c = g c) : p.modify id f = p.modify id g := by
  have hmap : p.connections.map (fun d => if d.id = id then f d else d) =
      p.connections.map fun d => if d.id = id then g d else d := by
    refine List.map_congr_left fun d hd => ?_
    by_cases hid : d.id = id
    · have hdc := connection?_of_mem hu hd
      rw [hid, hc] at hdc
      cases hdc
      simp [h]
    · simp [hid]
  unfold modify
  rw [hmap]

/-! ## Closing a connection -/

/-- Either there is nothing to close, or the connection is open, and it is
closed and noted. -/
theorem closeConnection_cases (hu : p.Unique) (id : ConnectionId) :
    (p.closeConnection id).2 = p ∧ (∀ c, p.connection? id = some c → c.closed = true) ∨
      ∃ c, p.connection? id = some c ∧ c.closed = false ∧
        (p.closeConnection id).2 =
          (p.modify id fun c => { c with closed := true }).record (.transportClosed id) := by
  unfold closeConnection
  cases hc : p.connection? id with
  | none =>
    left
    simp
  | some c =>
    cases hclosed : c.closed with
    | true =>
      have hself : p.modify id (fun _ => c) = p := by
        rw [modify_congr hu hc (g := fun d => d) rfl]
        simp [modify]
      left
      simp [Connection.close, hclosed, hself]
    | false =>
      right
      have hmod : p.modify id (fun _ => { c with closed := true }) =
          p.modify id fun d => { d with closed := true } :=
        modify_congr hu hc rfl
      simp [Connection.close, hclosed, hmod]

/-! ## Slots, dials and lists -/

/-- A freed slot is free, or belongs to the head of the line. -/
theorem freeSlot_cases (p : Pool) :
    p.line = [] ∧ p.freeSlot = { p with slots := p.slots + 1 } ∨
      ∃ w rest, p.line = w :: rest ∧
        p.freeSlot = { p with line := rest }.enqueue (.admitted w.get) := by
  unfold freeSlot
  cases hline : p.line with
  | nil => simp
  | cons w rest => simp

/-- A failed dial is noted, and may send out the probe. -/
theorem noteDialFailure_cases (p : Pool) (reason : String) :
    p.noteDialFailure reason =
        { p with lastDialFault := some (.dial reason), dialFailures := p.dialFailures + 1 } ∨
      p.options.dialThreshold ≤ p.dialFailures + 1 ∧ p.probing = false ∧
        p.noteDialFailure reason =
          { p with
            lastDialFault := some (.dial reason)
            dialFailures := p.dialFailures + 1
            probing := true
            ready := p.ready ++ [.probe 0] } := by
  unfold noteDialFailure
  dsimp only
  split
  · rename_i h
    refine Or.inr ⟨?_, h.2, rfl⟩
    simpa [circuitOpen] using h.1
  · exact Or.inl rfl

theorem strike_of_mem {p : Pool} {id : ConnectionId} (h : id ∈ p.idle) :
    p.strike id =
      { { p with tracked := p.tracked.erase id }.lowerSize with
        idle := p.idle.erase id }.lowerIdleCount := by
  unfold strike
  exact if_pos h

theorem strike_of_not_mem {p : Pool} {id : ConnectionId} (h : id ∉ p.idle) :
    p.strike id = { p with tracked := p.tracked.erase id }.lowerSize := by
  unfold strike
  exact if_neg h

theorem strike_eq (p : Pool) (id : ConnectionId) :
    p.strike id =
      { p with
        tracked := p.tracked.erase id
        idle := p.idle.erase id
        size := p.size - 1
        idleCount := if id ∈ p.idle then p.idleCount - 1 else p.idleCount
        history := (p.strike id).history } := by
  unfold strike
  dsimp only
  by_cases h : id ∈ p.idle
  · simp [h, lowerSize, lowerIdleCount]
  · simp [h, lowerSize, List.erase_of_not_mem h]

/-! ## What a change leaves alone

Each equation names the fields that a change can touch; every other field
of the changed pool is that of the old one by definition. -/

theorem freeSlot_frame (p : Pool) :
    p.freeSlot =
      { p with
        slots := p.freeSlot.slots, line := p.freeSlot.line, ready := p.freeSlot.ready } := by
  rcases freeSlot_cases p with ⟨-, h⟩ | ⟨w, rest, -, h⟩
  · rw [h]
  · rw [h]
    rfl

theorem closeConnection_frame (p : Pool) (id : ConnectionId) :
    (p.closeConnection id).2 =
      { p with
        connections := (p.closeConnection id).2.connections
        history := (p.closeConnection id).2.history } := by
  unfold closeConnection
  cases p.connection? id with
  | none => rfl
  | some c =>
    dsimp only
    split <;> rfl

theorem noteDialFailure_frame (p : Pool) (reason : String) :
    p.noteDialFailure reason =
      { p with
        lastDialFault := some (.dial reason)
        dialFailures := p.dialFailures + 1
        probing := (p.noteDialFailure reason).probing
        ready := (p.noteDialFailure reason).ready } := by
  rcases noteDialFailure_cases p reason with h | ⟨-, -, h⟩ <;> rw [h]

theorem adopt_frame (p : Pool) (caller : Caller) (attempt : Nat) :
    (p.connect caller attempt).track (.dialed attempt) =
      { p with
        dialFailures := 0
        connections := (p.connect caller attempt).connections
        tracked := p.tracked ++ [.dialed attempt]
        history := .tracked (.dialed attempt) :: .connected caller attempt :: p.history } :=
  rfl

theorem reach_frame (p : Pool) (tries : UInt32) (attempt : Nat) :
    ((p.resetCircuit.record (.connected (.probe tries) attempt)).record
        (.transportClosed (.dialed attempt))).endProbe =
      { p with
        dialFailures := 0
        probing := false
        history :=
          .transportClosed (.dialed attempt) :: .connected (.probe tries) attempt :: p.history } :=
  rfl

theorem cancel_frame (p : Pool) (get : Nat) :
    p.cancel get =
      { p with fired := (p.cancel get).fired, ready := (p.cancel get).ready } := by
  unfold cancel
  split
  · rfl
  · dsimp only
    split <;> rfl

theorem resolve_frame (p : Pool) (attempt : Nat) (fault : Option String) :
    (p.resolve attempt fault).2 =
      { p with
        dials := (p.resolve attempt fault).2.dials
        ready := (p.resolve attempt fault).2.ready } := by
  unfold resolve
  split <;> rfl

/-! ## Taking back and retiring

A connection is taken back, or taken out, in a few changes after each other.
What none of them breaks holds from the state before to the state after. -/

/-- The relation holds across each change on the way. -/
structure Persists (R : Pool → Pool → Prop) : Prop where
  refl : ∀ p, R p p
  trans : ∀ {p q r}, R p q → R q r → R p r
  invalid : ∀ p, R p (p.count Counters.retireInvalid)
  stale : ∀ p, R p (p.count Counters.retireStale)
  strike : ∀ p id, R p (p.strike id)
  topUp : ∀ p, R p p.topUp
  closeConnection : ∀ p id, R p (p.closeConnection id).2
  keep : ∀ p id, R p { p with idle := p.idle ++ [id], idleCount := p.idleCount + 1 }

namespace Persists

variable {R : Pool → Pool → Prop}

theorem untrack (hR : Persists R) (p : Pool) (id : ConnectionId) : R p (p.untrack id) := by
  unfold Pool.untrack
  split
  · exact hR.trans (hR.strike p id) (hR.topUp _)
  · exact hR.refl p

theorem closeTransport (hR : Persists R) (p : Pool) (id : ConnectionId) :
    R p (p.closeTransport id).2 := by
  unfold Pool.closeTransport
  split
  · exact hR.refl p
  · exact hR.closeConnection p id

theorem remove (hR : Persists R) (p : Pool) (id : ConnectionId) : R p (p.remove id).2 := by
  unfold Pool.remove
  split
  · exact hR.refl p
  · exact hR.trans (hR.untrack p id) (hR.closeTransport _ id)

theorem recycle (hR : Persists R) (p : Pool) (id : ConnectionId) : R p (p.recycle id) := by
  unfold Pool.recycle
  split
  · dsimp only
    split
    · exact hR.remove p id
    · exact hR.trans (hR.invalid p) (hR.remove _ id)
  split
  · exact hR.closeTransport p id
  split
  · exact hR.keep p id
  · exact hR.trans (hR.trans (hR.untrack p id) (hR.stale _)) (hR.closeTransport _ id)

theorem closeAll (hR : Persists R) (p : Pool) (ids : List ConnectionId) :
    R p (p.closeAll ids).2 := by
  induction ids generalizing p with
  | nil => exact hR.refl p
  | cons id ids ih => exact hR.trans (hR.closeTransport p id) (ih _)

end Persists

/-- What does not depend on the connections, the lists, the counts, the slots
and the turns is the same afterwards. -/
theorem persists_of_frame {α : Type} {F : Pool → α}
    (hF : ∀ (p : Pool) connections tracked idle size idleCount slots ready counters history,
      F { p with connections, tracked, idle, size, idleCount, slots, ready, counters, history } =
        F p) : Persists fun p q => F q = F p where
  refl _ := rfl
  trans h₁ h₂ := h₂.trans h₁
  invalid p := hF p _ _ _ _ _ _ _ _ _
  stale p := hF p _ _ _ _ _ _ _ _ _
  strike p id := by
    rw [strike_eq]
    exact hF p _ _ _ _ _ _ _ _ _
  topUp p := hF p _ _ _ _ _ _ _ _ _
  closeConnection p id := by
    rw [closeConnection_frame]
    exact hF p _ _ _ _ _ _ _ _ _
  keep p _ := hF p _ _ _ _ _ _ _ _ _

/-! ## Noted events -/

variable {Q : Event → Bool}

/-- A count of events that passes over clamped counts does not see how the
counts of a pool are lowered. -/
theorem countP_history_lowerSize (hQ : Q .clamped = false) (p : Pool) :
    p.lowerSize.history.countP Q = p.history.countP Q := by
  unfold lowerSize
  dsimp only
  split
  · rw [List.countP_cons_of_neg]
    simp [hQ]
  · rfl

theorem countP_history_lowerIdleCount (hQ : Q .clamped = false) (p : Pool) :
    p.lowerIdleCount.history.countP Q = p.history.countP Q := by
  unfold lowerIdleCount
  dsimp only
  split
  · rw [List.countP_cons_of_neg]
    simp [hQ]
  · rfl

theorem countP_history_strike (hQ : Q .clamped = false) (p : Pool) (id : ConnectionId) :
    (p.strike id).history.countP Q = p.history.countP Q := by
  unfold strike
  dsimp only
  split
  · rw [countP_history_lowerIdleCount hQ]
    exact countP_history_lowerSize hQ _
  · exact countP_history_lowerSize hQ _

/-- Nor does one that passes over closed transports see how a connection is
closed. -/
theorem countP_history_closeConnection (hQ : ∀ id, Q (.transportClosed id) = false) (p : Pool)
    (id : ConnectionId) : (p.closeConnection id).2.history.countP Q = p.history.countP Q := by
  unfold closeConnection
  cases p.connection? id with
  | none => rfl
  | some c =>
    dsimp only
    split
    · exact List.countP_cons_of_neg (Bool.eq_false_iff.1 (hQ id))
    · rfl

end PooledRouting.Pool
