import PooledRouting.Proofs.Pool.Releases
import PooledRouting.Proofs.Pool.Step

/-!
# The ledger of connections

Every connection that a pool has ever tracked is tracked still, or it was
retired once: as stale, as invalid, or because a caller had it removed.
The two counters of the pool and the calls of callers together account for
all that are gone.

* `LedgerStep` says what an act does: it puts a new connection on the
  tracked list, or takes one off and counts it, or takes one off for a
  caller, which is how a removal begins and nothing else.
* `Account` says where the connections are that were ever tracked.  Turns
  and releases keep it (`Acts.balances`), and a removal adds what it takes
  out (`balances_remove`); `balances_after` puts them together for a run.
* `Traced` says that what is tracked is always new, so that a connection
  that is gone stays gone (`gone_lasting`).
-/

namespace PooledRouting.Pool

variable {o : Options} {p q r : Pool} {h k : Hand} {id : ConnectionId}

/-! ## What stays the same -/

/-- The connection that the event puts on the tracked list. -/
def Event.tracked? : Event → Option ConnectionId
  | .tracked id => some id
  | _ => none

/-- The connections that were ever put on the tracked list, the latest
first. -/
def trackings (p : Pool) : List ConnectionId :=
  p.history.filterMap Event.tracked?

/-- Nothing in the ledger differs. -/
structure SameLedger (p q : Pool) : Prop where
  tracked : q.tracked = p.tracked
  trackings : q.trackings = p.trackings
  stale : q.counters.stale = p.counters.stale
  invalid : q.counters.invalid = p.counters.invalid

theorem SameLedger.refl (p : Pool) : SameLedger p p :=
  ⟨rfl, rfl, rfl, rfl⟩

theorem SameLedger.trans (h₁ : SameLedger p q) (h₂ : SameLedger q r) : SameLedger p r where
  tracked := h₂.tracked.trans h₁.tracked
  trackings := h₂.trackings.trans h₁.trackings
  stale := h₂.stale.trans h₁.stale
  invalid := h₂.invalid.trans h₁.invalid

theorem trackings_lowerSize (p : Pool) : p.lowerSize.trackings = p.trackings := by
  unfold trackings lowerSize
  dsimp only
  split <;> rfl

theorem trackings_lowerIdleCount (p : Pool) : p.lowerIdleCount.trackings = p.trackings := by
  unfold trackings lowerIdleCount
  dsimp only
  split <;> rfl

theorem trackings_strike (p : Pool) (id : ConnectionId) :
    (p.strike id).trackings = p.trackings := by
  unfold strike
  dsimp only
  split
  · rw [trackings_lowerIdleCount]
    exact trackings_lowerSize _
  · exact trackings_lowerSize _

theorem sameLedger_lowerSize (p : Pool) : SameLedger p p.lowerSize :=
  ⟨rfl, trackings_lowerSize p, rfl, rfl⟩

theorem sameLedger_lowerIdleCount (p : Pool) : SameLedger p p.lowerIdleCount :=
  ⟨rfl, trackings_lowerIdleCount p, rfl, rfl⟩

theorem sameLedger_freeSlot (p : Pool) : SameLedger p p.freeSlot := by
  rw [freeSlot_frame]
  exact ⟨rfl, rfl, rfl, rfl⟩

theorem sameLedger_noteDialFailure (p : Pool) (reason : String) :
    SameLedger p (p.noteDialFailure reason) := by
  rw [noteDialFailure_frame]
  exact ⟨rfl, rfl, rfl, rfl⟩

theorem sameLedger_cancel (p : Pool) (get : Nat) : SameLedger p (p.cancel get) := by
  rw [cancel_frame]
  exact ⟨rfl, rfl, rfl, rfl⟩

theorem sameLedger_resolve (p : Pool) (attempt : Nat) (fault : Option String) :
    SameLedger p (p.resolve attempt fault).2 := by
  rw [resolve_frame]
  exact ⟨rfl, rfl, rfl, rfl⟩

theorem sameLedger_closeConnection (p : Pool) (id : ConnectionId) :
    SameLedger p (p.closeConnection id).2 := by
  unfold closeConnection
  cases p.connection? id with
  | none => exact .refl p
  | some c =>
    dsimp only
    split <;> exact ⟨rfl, rfl, rfl, rfl⟩

theorem sameLedger_closeTransport (p : Pool) (id : ConnectionId) :
    SameLedger p (p.closeTransport id).2 := by
  unfold closeTransport
  split
  · exact .refl p
  · exact sameLedger_closeConnection p id

/-! ## What an act does -/

/-- What an act does in the ledger. -/
inductive LedgerStep (p : Pool) (h : Hand) (q : Pool) : Prop where
  | keep (same : SameLedger p q)
  /-- A new connection is tracked. -/
  | track {id : ConnectionId} (new : p.idCount id = 0) (here : 0 < q.idCount id)
      (tracked : q.tracked = p.tracked ++ [id]) (trackings : q.trackings = id :: p.trackings)
      (stale : q.counters.stale = p.counters.stale)
      (invalid : q.counters.invalid = p.counters.invalid)
  /-- A connection is closed because enough are idle. -/
  | retireStale {id : ConnectionId} (listed : id ∈ p.tracked)
      (tracked : q.tracked = p.tracked.erase id) (trackings : q.trackings = p.trackings)
      (stale : q.counters.stale = p.counters.stale + 1)
      (invalid : q.counters.invalid = p.counters.invalid)
  /-- A connection is closed because it is not valid any more. -/
  | retireInvalid {id : ConnectionId} (listed : id ∈ p.tracked)
      (tracked : q.tracked = p.tracked.erase id) (trackings : q.trackings = p.trackings)
      (stale : q.counters.stale = p.counters.stale)
      (invalid : q.counters.invalid = p.counters.invalid + 1)
  /-- A caller has a connection removed. -/
  | remove {id : ConnectionId} (start : h.isStart = true)
      (tracked : q.tracked = p.tracked.erase id) (trackings : q.trackings = p.trackings)
  | shutDown (start : h.isStart = true) (tracked : q.tracked = [])
      (trackings : q.trackings = p.trackings)

/-- A connection that is counted as retired is still tracked, and it is
free. -/
theorem Retires.counted_cases {f : Counters → Counters} (hr : Retires p id h f k)
    (hroster : p.Roster) (hf : h.Fits p) :
    f = (fun c => c) ∧ (h.isStart = true ∨ id ∉ p.tracked) ∨
      (f = Counters.retireStale ∨ f = Counters.retireInvalid) ∧
        id ∈ p.tracked ∧ p.isInUse id = false := by
  cases hr with
  | removed _ => exact .inl ⟨rfl, .inl rfl⟩
  | expired _ => exact .inr ⟨.inr rfl, hf.2.1, hf.2.2.2⟩
  | invalid _ _ hopen =>
    rename_i get? fault _ _
    have hopen : p.closed = false := by
      cases get? with
      | none => exact hopen rfl
      | some get => exact hf.1 rfl
    exact .inr ⟨.inr rfl, hf.2.1 hopen, hf.2.2.2⟩
  | stale _ htracked _ _ _ => exact .inr ⟨.inl rfl, htracked, hf.2.2.2⟩
  | late hlate _ =>
    refine .inl ⟨rfl, .inr ?_⟩
    rcases hlate with hclosed | hnone
    · rw [hroster.closed_empty hclosed]
      exact List.not_mem_nil
    · exact hnone

theorem ledgerStep_strike {f : Counters → Counters} (hr : Retires p id h f k) (hroster : p.Roster)
    (hf : h.Fits p) (hid : id ∈ p.tracked) : LedgerStep p h ((p.count f).strike id) := by
  have htracked : ((p.count f).strike id).tracked = p.tracked.erase id := by
    rw [strike_eq]
    rfl
  have htrackings : ((p.count f).strike id).trackings = p.trackings := trackings_strike _ id
  have hcounters : ((p.count f).strike id).counters = f p.counters := by
    rw [strike_eq]
    rfl
  rcases hr.counted_cases hroster hf with ⟨-, hstart | hnone⟩ | ⟨rfl | rfl, -⟩
  · exact .remove hstart htracked htrackings
  · exact absurd hid hnone
  · refine .retireStale hid htracked htrackings ?_ ?_ <;> rw [hcounters] <;> rfl
  · refine .retireInvalid hid htracked htrackings ?_ ?_ <;> rw [hcounters] <;> rfl

/-- A connection that was dialed is there. -/
theorem idCount_connect_pos (p : Pool) (caller : Caller) (attempt : Nat) :
    0 < (p.connect caller attempt).idCount (.dialed attempt) := by
  have hopen : (p.connect caller attempt).idCount (.dialed attempt) =
      p.idCount (.dialed attempt) + if ConnectionId.dialed attempt = .dialed attempt then 1 else 0 :=
    idCount_open p (.openedAt _ _ _ _) _
  rw [hopen, if_pos rfl]
  exact Nat.succ_pos _

theorem Act.ledgerStep (ha : Act p h q k) (hn : Attempts p h) (hroster : p.Roster)
    (hf : h.Fits p) : LedgerStep p h q := by
  cases ha with
  | cancel get => exact .keep (sameLedger_cancel p get)
  | resolve attempt fault => exact .keep (sameLedger_resolve p attempt fault)
  | shutDown _ => exact .shutDown rfl rfl rfl
  | closeConnection _ id | shutNext _ | retire _ => exact .keep (sameLedger_closeConnection p _)
  | pick _ _ =>
    rename_i get id rest _ _
    have htaken : SameLedger p { p with idle := rest } := ⟨rfl, rfl, rfl, rfl⟩
    exact .keep (htaken.trans (sameLedger_lowerIdleCount _))
  | adopt _ | adoptIdle _ => exact .track hn.new (idCount_connect_pos p _ _) rfl rfl rfl rfl
  | adoptLate _ =>
    rename_i get attempt _
    have hconnected : SameLedger p (p.connect (.get get) attempt) := ⟨rfl, rfl, rfl, rfl⟩
    exact .keep (hconnected.trans (sameLedger_closeConnection _ _))
  | adoptIdleLate _ =>
    rename_i attempt _
    have hconnected : SameLedger p (p.connect .topUp attempt) := ⟨rfl, rfl, rfl, rfl⟩
    exact .keep (hconnected.trans (sameLedger_closeConnection _ _))
  | dialFailed _ =>
    exact .keep ((sameLedger_noteDialFailure p _).trans (sameLedger_lowerSize _))
  | dialFailedLate _ => exact .keep (sameLedger_noteDialFailure p _)
  | topUpFailed =>
    exact .keep (((sameLedger_noteDialFailure p _).trans (sameLedger_lowerSize _)).trans
      (sameLedger_lowerIdleCount _))
  | topUpDenied _ _ =>
    exact .keep ((sameLedger_lowerSize p).trans (sameLedger_lowerIdleCount _))
  | finish => exact .keep (sameLedger_freeSlot p)
  | fail => exact .keep ((sameLedger_freeSlot p).trans ⟨rfl, rfl, rfl, rfl⟩)
  | checkIn =>
    have hcounted : SameLedger p (p.count Counters.checkIn) := ⟨rfl, rfl, rfl, rfl⟩
    exact .keep (hcounted.trans (sameLedger_freeSlot _))
  | strike hr hid => exact ledgerStep_strike hr hroster hf hid
  | pass hr hid =>
    rcases hr.counted_cases hroster hf with ⟨rfl, -⟩ | ⟨-, hin, -⟩
    · exact .keep ⟨rfl, rfl, rfl, rfl⟩
    · exact absurd hin hid
  | refuseRemoval hr hu =>
    rcases hr.counted_cases hroster hf with ⟨rfl, -⟩ | ⟨-, -, hfree⟩
    · exact .keep ⟨rfl, rfl, rfl, rfl⟩
    · cases hu.symm.trans hfree
  | _ => exact .keep ⟨rfl, rfl, rfl, rfl⟩

/-! ## The account -/

/-- Where the connections are that were ever tracked: on the list, or gone
for one of three reasons.  The counters wrap. -/
structure Account (p : Pool) (stale invalid removed : List ConnectionId) : Prop where
  split : p.trackings.Perm (p.tracked ++ (stale ++ invalid ++ removed))
  staleCount : p.counters.stale = UInt32.ofNat stale.length
  invalidCount : p.counters.invalid = UInt32.ofNat invalid.length

/-- Callers had these connections removed, and the counters say how many
others are gone. -/
def Balances (p : Pool) (removed : List ConnectionId) : Prop :=
  ∃ stale invalid, p.Account stale invalid removed

theorem SameLedger.balances {removed : List ConnectionId} (hs : SameLedger p q)
    (ha : p.Balances removed) : q.Balances removed := by
  obtain ⟨stale, invalid, hsplit, hstale, hinvalid⟩ := ha
  refine ⟨stale, invalid, ?_, hs.stale.trans hstale, hs.invalid.trans hinvalid⟩
  rw [hs.trackings, hs.tracked]
  exact hsplit

/-- A connection leaves the list, and is gone for a reason. -/
theorem perm_leave {l gone gone' : List ConnectionId} (hid : id ∈ l)
    (hgone : (id :: gone).Perm gone') : (l ++ gone).Perm (l.erase id ++ gone') :=
  calc (l ++ gone).Perm ((id :: l.erase id) ++ gone) :=
        (List.perm_cons_erase hid).append_right gone
    List.Perm _ (l.erase id ++ id :: gone) := List.perm_middle.symm
    List.Perm _ (l.erase id ++ gone') := hgone.append_left _

/-- Once a turn or a release has begun, nothing is removed for a caller. -/
theorem LedgerStep.balances {removed : List ConnectionId} (hs : LedgerStep p h q)
    (hh : h.isStart = false) (ha : p.Balances removed) : q.Balances removed := by
  cases hs with
  | keep same => exact same.balances ha
  | track _ _ htracked htrackings hstale hinvalid =>
    obtain ⟨stale, invalid, hsplit, hs, hi⟩ := ha
    refine ⟨stale, invalid, ?_, hstale.trans hs, hinvalid.trans hi⟩
    rw [htracked, htrackings, List.append_assoc]
    exact (hsplit.cons _).trans List.perm_middle.symm
  | retireStale hid htracked htrackings hstale hinvalid =>
    rename_i id
    obtain ⟨stale, invalid, hsplit, hs, hi⟩ := ha
    refine ⟨id :: stale, invalid, ?_, ?_, hinvalid.trans hi⟩
    · rw [htracked, htrackings]
      exact hsplit.trans (perm_leave hid (.refl _))
    · rw [hstale, hs, List.length_cons, UInt32.ofNat_add]
      rfl
  | retireInvalid hid htracked htrackings hstale hinvalid =>
    rename_i id
    obtain ⟨stale, invalid, hsplit, hs, hi⟩ := ha
    refine ⟨stale, id :: invalid, ?_, hstale.trans hs, ?_⟩
    · rw [htracked, htrackings]
      exact hsplit.trans (perm_leave hid (List.perm_middle.symm.append_right removed))
    · rw [hinvalid, hi, List.length_cons, UInt32.ofNat_add]
      rfl
  | remove hstart _ _ | shutDown hstart _ _ => cases hh.symm.trans hstart

theorem Acts.balances {removed : List ConnectionId} (hs : Acts p h q k) (ho : o.Unmarking)
    (hp : Occurs o p h) (hh : h.isStart = false) (ha : p.Balances removed) :
    q.Balances removed := by
  induction hs with
  | refl => exact ha
  | cons hact _ ih =>
    have hstep := hact.ledgerStep hp.attempts (hp.roster ho) (hp.fits ho)
    exact ih (hp.act hact) (hact.goesOn hh).1 (hstep.balances hh ha)

/-! ## Removals -/

/-- The removal went through, though the transport may have failed to
close. -/
def goesThrough : Except Fault Unit → Bool
  | .ok _ | .error (.transport _) => true
  | .error _ => false

/-- The connection that a caller takes out with the move. -/
def removedBy (p : Pool) : Move → List ConnectionId
  | .remove id => if id ∈ p.tracked ∧ goesThrough (p.remove id).1 = true then [id] else []
  | _ => []

/-- The connections that callers take out with moves in turn. -/
def removedIn (p : Pool) : List Move → List ConnectionId
  | [] => []
  | m :: moves => p.removedBy m ++ (p.apply m).removedIn moves

/-- A removal goes through unless somebody holds the connection. -/
theorem goesThrough_remove (p : Pool) (id : ConnectionId) :
    goesThrough (p.remove id).1 = !p.isInUse id := by
  unfold remove
  cases hu : p.isInUse id with
  | true => rfl
  | false =>
    rw [if_neg Bool.false_ne_true]
    unfold closeTransport
    rw [(isInUse_persists id).untrack p id, hu, if_neg Bool.false_ne_true]
    show goesThrough (((p.untrack id).closeConnection id).1.mapError Fault.transport) = true
    cases ((p.untrack id).closeConnection id).1 <;> rfl

theorem removedBy_remove (p : Pool) (id : ConnectionId) :
    p.removedBy (.remove id) = if id ∈ p.tracked ∧ p.isInUse id = false then [id] else [] := by
  unfold removedBy
  simp only [goesThrough_remove, Bool.not_eq_true']

theorem balances_remove {removed : List ConnectionId} (ha : p.Balances removed)
    (id : ConnectionId) : (p.remove id).2.Balances (removed ++ p.removedBy (.remove id)) := by
  rw [removedBy_remove]
  unfold remove
  cases hu : p.isInUse id with
  | true =>
    have hheld : ¬(id ∈ p.tracked ∧ true = false) := fun hboth => nomatch hboth.2
    rw [if_pos rfl, if_neg hheld, List.append_nil]
    exact ha
  | false =>
    rw [if_neg Bool.false_ne_true]
    refine (sameLedger_closeTransport _ id).balances ?_
    unfold untrack
    by_cases hid : id ∈ p.tracked
    · obtain ⟨stale, invalid, hsplit, hs, hi⟩ := ha
      rw [if_pos hid, if_pos ⟨hid, rfl⟩]
      have htopUp : SameLedger (p.strike id) (p.strike id).topUp := ⟨rfl, rfl, rfl, rfl⟩
      refine htopUp.balances ⟨stale, invalid, ?_, ?_, ?_⟩
      · have hgone : (id :: (stale ++ invalid ++ removed)).Perm
            (stale ++ invalid ++ (removed ++ [id])) := by
          rw [← List.append_assoc]
          exact (List.perm_append_singleton id _).symm
        rw [trackings_strike, strike_eq]
        exact hsplit.trans (perm_leave hid hgone)
      · rw [strike_eq]
        exact hs
      · rw [strike_eq]
        exact hi
    · rw [if_neg hid, if_neg fun hboth => hid hboth.1, List.append_nil]
      exact ha

/-! ## Moves -/

theorem balances_turn {removed : List ConnectionId} (ho : o.Unmarking) (hp : Reachable o p)
    (ha : p.Balances removed) : p.step.Balances removed := by
  cases hready : p.ready with
  | nil =>
    rw [step_of_settled hready]
    exact ha
  | cons t rest =>
    have htaken : SameLedger p { p with ready := rest } := ⟨rfl, rfl, rfl, rfl⟩
    exact (turn_acts hp.occurs.hooksKept hready).balances ho (hp.occurs.act (.take hready)) rfl
      (htaken.balances ha)

theorem balances_release {removed : List ConnectionId} (ho : o.Unmarking) (hp : Reachable o p)
    (ha : p.Balances removed) (id : ConnectionId) : (p.release id).Balances removed := by
  cases hu : p.isInUse id with
  | false =>
    rw [release_eq_self_iff.2 hu]
    exact ha
  | true =>
    have hmarked : SameLedger p (p.mark id false) := ⟨rfl, rfl, rfl, rfl⟩
    exact (release_acts hu).balances ho (hp.occurs.giveBack hu) rfl (hmarked.balances ha)

theorem sameLedger_stepAnswered (p : Pool) : SameLedger p p.stepAnswered := by
  unfold stepAnswered
  split <;> exact ⟨rfl, rfl, rfl, rfl⟩

theorem closed_close (p : Pool) : p.close.2.closed = true := by
  unfold close
  split
  · assumption
  · exact (closeAll_acts p.shutDown p.tracked).later.closed rfl

/-- A pool that is open after a move was open before, and the account goes
on. -/
theorem balances_apply {removed : List ConnectionId} (ho : o.Unmarking) (hp : Reachable o p)
    (m : Move) (hopen : (p.apply m).closed = false) (ha : p.Balances removed) :
    (p.apply m).Balances (removed ++ p.removedBy m) := by
  by_cases hremove : ∃ id, m = .remove id
  · obtain ⟨id, rfl⟩ := hremove
    exact balances_remove ha id
  have hnone : p.removedBy m = [] := by
    cases m with
    | remove id => exact absurd ⟨id, rfl⟩ hremove
    | _ => rfl
  rw [hnone, List.append_nil]
  have hsame : SameLedger p (p.apply m) → (p.apply m).Balances removed := fun hs => hs.balances ha
  cases m with
  | turn => exact balances_turn ho hp ha
  | release id => exact balances_release ho hp ha id
  | remove id => exact absurd ⟨id, rfl⟩ hremove
  | close => cases hopen.symm.trans p.closed_close
  | turnAnswered => exact hsame (sameLedger_stepAnswered p)
  | cancel get => exact hsame (sameLedger_cancel p get)
  | resolve attempt fault => exact hsame (sameLedger_resolve p attempt fault)
  | closeConnection id => exact hsame (sameLedger_closeConnection p id)
  | wait ms =>
    refine hsame ?_
    show SameLedger p (if _ then _ else _)
    split
    · exact ⟨rfl, rfl, rfl, rfl⟩
    · exact .refl p
  | _ => exact hsame ⟨rfl, rfl, rfl, rfl⟩

/-- A pool is closed for good. -/
theorem closed_lasting : Lasting o fun p _ => p.closed = true where
  act _ hclosed ha := ha.later.closed hclosed
  next hclosed := hclosed
  giveBack _ _ hclosed := hclosed

/-- While the pool is open, the account goes on over all moves. -/
theorem balances_after {removed : List ConnectionId} (ho : o.Unmarking) (hp : Reachable o p)
    (moves : List Move) (hopen : (p.after moves).closed = false) (ha : p.Balances removed) :
    (p.after moves).Balances (removed ++ p.removedIn moves) := by
  induction moves generalizing p removed with
  | nil =>
    rw [removedIn, List.append_nil]
    exact ha
  | cons m moves ih =>
    have hnext : (p.apply m).closed = false := Bool.eq_false_iff.2 fun hclosed => by
      have hlater := closed_lasting.after (hp.move m).occurs hclosed moves
      cases hopen.symm.trans hlater
    rw [removedIn, ← List.append_assoc]
    exact ih (hp.move m) hopen (balances_apply ho hp m hnext ha)

/-! ## Tracked once -/

/-- What was tracked is there, and was tracked once. -/
structure Traced (p : Pool) : Prop where
  once : p.trackings.Nodup
  known : ∀ id ∈ p.trackings, 0 < p.idCount id

theorem Traced.congr (ht : p.Traced) (htrackings : q.trackings = p.trackings)
    (hids : ∀ id, p.idCount id ≤ q.idCount id) : q.Traced where
  once := htrackings ▸ ht.once
  known id hid := Nat.lt_of_lt_of_le (ht.known id (htrackings ▸ hid)) (hids id)

theorem LedgerStep.traced (hs : LedgerStep p h q) (hids : ∀ id, p.idCount id ≤ q.idCount id)
    (ht : p.Traced) : q.Traced := by
  cases hs with
  | keep same => exact ht.congr same.trackings hids
  | track hnew hhere _ htrackings _ _ =>
    have hfresh : _ ∉ p.trackings := fun hin => Nat.ne_of_gt (ht.known _ hin) hnew
    refine ⟨?_, ?_⟩
    · rw [htrackings]
      exact List.nodup_cons.2 ⟨hfresh, ht.once⟩
    · rw [htrackings, List.forall_mem_cons]
      exact ⟨hhere, fun id hid => Nat.lt_of_lt_of_le (ht.known id hid) (hids id)⟩
  | retireStale _ _ htrackings _ _ | retireInvalid _ _ htrackings _ _ | remove _ _ htrackings
  | shutDown _ _ htrackings => exact ht.congr htrackings hids

theorem Occurs.traced (ho : o.Unmarking) (hp : Occurs o p h) : p.Traced := by
  induction hp with
  | create dialer now background =>
    cases background <;> exact ⟨List.nodup_nil, nofun⟩
  | act hp ha ih =>
    exact (ha.ledgerStep hp.attempts (hp.roster ho) (hp.fits ho)).traced ha.idCount_mono ih
  | next _ ih => exact ih
  | giveBack hp hu ih =>
    refine ih.congr rfl fun other => Nat.le_of_eq (idCount_modify ?_ _ other).symm
    exact fun c hc => (Connection.mark_id c _ false).trans hc

/-- Such a connection was tracked, and is not any more. -/
def Gone (p : Pool) (id : ConnectionId) : Prop :=
  id ∈ p.trackings ∧ id ∉ p.tracked

/-- What is gone is not tracked again, since only new connections are. -/
theorem LedgerStep.gone (hs : LedgerStep p h q) (ht : p.Traced) (hg : p.Gone id) : q.Gone id := by
  have hless : ∀ {other}, q.tracked = p.tracked.erase other → q.trackings = p.trackings →
      q.Gone id := fun htracked htrackings => by
    refine ⟨htrackings ▸ hg.1, ?_⟩
    rw [htracked]
    exact fun hin => hg.2 (List.mem_of_mem_erase hin)
  cases hs with
  | keep same => exact ⟨same.trackings ▸ hg.1, same.tracked ▸ hg.2⟩
  | track hnew _ htracked htrackings _ _ =>
    refine ⟨htrackings ▸ List.mem_cons_of_mem _ hg.1, ?_⟩
    rw [htracked, List.mem_append, List.mem_singleton]
    rintro (hin | rfl)
    · exact hg.2 hin
    · exact Nat.ne_of_gt (ht.known _ hg.1) hnew
  | retireStale _ htracked htrackings _ _ | retireInvalid _ htracked htrackings _ _ =>
    exact hless htracked htrackings
  | remove _ htracked htrackings => exact hless htracked htrackings
  | shutDown _ htracked htrackings =>
    refine ⟨htrackings ▸ hg.1, ?_⟩
    rw [htracked]
    exact List.not_mem_nil

theorem gone_lasting (ho : o.Unmarking) (id : ConnectionId) : Lasting o fun p _ => p.Gone id where
  act hp hg ha :=
    (ha.ledgerStep hp.attempts (hp.roster ho) (hp.fits ho)).gone (hp.traced ho) hg
  next hg := hg
  giveBack _ _ hg := hg

/-! ## The ledger of a run -/

theorem balances_create (o : Options) (dialer : Nat → Course) (now : Nat) (background : Bool) :
    (create o dialer now background).Balances [] := by
  cases background <;> exact ⟨[], [], .refl _, rfl, rfl⟩

/-- As long as the pool is open, the connections that were ever tracked are
as many as those that are tracked, those that the two counters say were
retired, and those that callers took out with removals that went through,
all as 32-bit words.  They are each in one place: on the tracked list,
retired as stale, retired as invalid or taken out by a caller.  No connection
is tracked twice, and one that is gone stays gone. -/
theorem connection_ledger (ho : o.Unmarking) (dialer : Nat → Course) (now : Nat)
    (background : Bool) (moves : List Move) :
    let start := create o dialer now background
    let p := start.after moves
    p.closed = false →
      UInt32.ofNat p.trackings.length = UInt32.ofNat p.stats.totalConns + p.stats.staleConns +
          p.stats.invalidConns + UInt32.ofNat (start.removedIn moves).length ∧
        (∃ stale invalid,
          p.trackings.Perm (p.tracked ++ (stale ++ invalid ++ start.removedIn moves)) ∧
            p.stats.staleConns = UInt32.ofNat stale.length ∧
            p.stats.invalidConns = UInt32.ofNat invalid.length) ∧
        p.trackings.Nodup ∧
        ∀ id ∈ p.trackings, id ∉ p.tracked → ∀ later, id ∉ (p.after later).tracked := by
  intro start p hopen
  have hstart : Reachable o start := .create dialer now background
  have hp : Reachable o p := hstart.after moves
  obtain ⟨stale, invalid, hsplit, hstale, hinvalid⟩ :=
    balances_after ho hstart moves hopen (balances_create o dialer now background)
  refine ⟨?_, ⟨stale, invalid, hsplit, hstale, hinvalid⟩, (hp.occurs.traced ho).once,
    fun id hin hnot later => ?_⟩
  · have hstaleConns : p.stats.staleConns = UInt32.ofNat stale.length := hstale
    have hinvalidConns : p.stats.invalidConns = UInt32.ofNat invalid.length := hinvalid
    rw [hsplit.length_eq, hstaleConns, hinvalidConns]
    simp only [List.length_append, UInt32.ofNat_add, List.nil_append, ← UInt32.add_assoc]
    rfl
  · exact ((gone_lasting ho id).after hp.occurs ⟨hin, hnot⟩ later).2

/-- Four connections were tracked.  Given back, the first is kept as idle,
the second is one too many, and the third was closed meanwhile.  The first
is then removed by a caller, and the fourth is out. -/
theorem connection_ledger_four_connections :
    let start := create { poolSize := 3, minIdle := 0, maxIdle := 1 } (fun _ => .answer 0 none) 0 true
    let moves : List Move := [.get false, .turn, .get false, .turn, .get false, .turn,
      .release (.dialed 1), .release (.dialed 2), .closeConnection (.dialed 3),
      .release (.dialed 3), .remove (.dialed 1), .get false, .turn]
    let p := start.after moves
    p.closed = false ∧ p.trackings.length = 4 ∧ p.tracked = [.dialed 4] ∧
      p.stats.staleConns = 1 ∧ p.stats.invalidConns = 1 ∧ start.removedIn moves = [.dialed 1] ∧
      UInt32.ofNat p.trackings.length = UInt32.ofNat p.stats.totalConns + p.stats.staleConns +
          p.stats.invalidConns + UInt32.ofNat (start.removedIn moves).length ∧
        (∃ stale invalid,
          p.trackings.Perm (p.tracked ++ (stale ++ invalid ++ start.removedIn moves)) ∧
            p.stats.staleConns = UInt32.ofNat stale.length ∧
            p.stats.invalidConns = UInt32.ofNat invalid.length) ∧
        p.trackings.Nodup ∧
        ∀ id ∈ p.trackings, id ∉ p.tracked → ∀ later, id ∉ (p.after later).tracked :=
  ⟨by decide +kernel, by decide +kernel, by decide +kernel, by decide +kernel, by decide +kernel,
    by decide +kernel,
    connection_ledger (Options.unmarking_of_nil rfl) _ _ _ _ (by decide +kernel)⟩

end PooledRouting.Pool
