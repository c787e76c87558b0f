import PooledRouting.Proofs.Pool.Step

/-!
# Dials, turn by turn

A turn starts at most one dial, and deals with the answer of at most one.
`DialStage` says how far it has come: a dial may still start, it is let
through, it has come back, or no dial is to come any more.  `DialStep` is
what one act does about dials, and `DialTurn` what a turn has done so far.

The count of failures follows (`dialFailures_apply`): a success, of any
dial, starts it again from zero, and between two successes it grows with
each failed dial of a `get` or a top-up, and with nothing else.  While the
circuit is open only the probe starts a dial (`attemptCount_apply`).
-/

namespace PooledRouting.Pool

variable {p q r : Pool} {h k : Hand} {t : Work} {id : ConnectionId}

/-! ## Failures, counted -/

/-- How far a turn has come with its dial.  `ordinary` tells the dials of
`get`s and top-ups from those of the probe. -/
inductive DialStage where
  /-- No turn has begun. -/
  | none
  /-- A dial may start. -/
  | ahead (ordinary : Bool)
  /-- A dial is about to start. -/
  | calling (ordinary : Bool)
  /-- A dial has come back. -/
  | back (ordinary failed : Bool)
  /-- No dial starts any more, and no answer is dealt with. -/
  | past
  deriving DecidableEq

/-- The dial is one of a `get` or a top-up. -/
def Caller.isOrdinary : Caller → Bool
  | .get _ | .topUp => true
  | .probe _ => false

/-- Where a turn begins. -/
def Work.dialStage : Work → DialStage
  | .arrive _ | .admitted _ | .topUp => .ahead true
  | .probe _ => .ahead false
  | .dialed caller _ fault => .back caller.isOrdinary fault.isSome
  | .refused _ | .recheck _ => .past

/-- The dial attempt with this number fails at once. -/
def failsAtOnce (p : Pool) (attempt : Nat) : Bool :=
  match p.dialer attempt with
  | .answer 0 (some _) => true
  | _ => false

/-- The failures of ordinary dials in a turn that begins with `p`, when it
has come to `attempts` attempts: of a dial that had come back, or of one
that the turn has started. -/
def turnFailures (p : Pool) (t : Work) (attempts : Nat) : Nat :=
  match t.dialStage with
  | .back true true => 1
  | .ahead true =>
    if p.attemptCount < attempts ∧ p.failsAtOnce (p.attemptCount + 1) = true then 1 else 0
  | _ => 0

/-- The failures of ordinary dials that a move deals with.  Only turns deal
with any. -/
def failuresOf (p : Pool) : Move → Nat
  | .turn =>
    match p.ready with
    | [] => 0
    | t :: _ => p.turnFailures t p.step.attemptCount
  | _ => 0

/-- The failures of ordinary dials that moves deal with in turn. -/
def failuresIn (p : Pool) : List Move → Nat
  | [] => 0
  | m :: moves => p.failuresOf m + (p.apply m).failuresIn moves

/-- The event is a success of a dial. -/
def Event.isConnected : Event → Bool
  | .connected _ _ => true
  | _ => false

/-- How often the count of failures was started again: with every dial that
succeeded. -/
def resets (p : Pool) : Nat :=
  p.history.countP Event.isConnected

/-! ## What an act does -/

/-- Nothing about dials differs. -/
structure SameDials (p q : Pool) : Prop where
  options : q.options = p.options
  dialer : q.dialer = p.dialer
  attempts : q.attemptCount = p.attemptCount
  failures : q.dialFailures = p.dialFailures
  resets : q.resets = p.resets

theorem SameDials.refl (p : Pool) : SameDials p p :=
  ⟨rfl, rfl, rfl, rfl, rfl⟩

theorem SameDials.trans (h₁ : SameDials p q) (h₂ : SameDials q r) : SameDials p r where
  options := h₂.options.trans h₁.options
  dialer := h₂.dialer.trans h₁.dialer
  attempts := h₂.attempts.trans h₁.attempts
  failures := h₂.failures.trans h₁.failures
  resets := h₂.resets.trans h₁.resets

/-- How far the hand has come with its dial. -/
def Hand.dialStage : Hand → DialStage
  | .start => .none
  | .work w => w.dialStage
  | .admitted _ | .picked _ _ | .missed _ => .ahead true
  | .calling caller => .calling caller.isOrdinary
  | .retiring _ next | .looking next => next.dialStage
  | .done | .holding _ _ | .leaving _ _ | .finishing | .closing _ => .past

/-- What an act of a turn does about dials. -/
inductive DialStep (p : Pool) (h : Hand) (q : Pool) (k : Hand) : Prop where
  /-- Nothing, and there may be nothing to do any more. -/
  | keep (same : SameDials p q) (stage : k.dialStage = h.dialStage ∨
      k.dialStage = .past ∧ ∀ failed, h.dialStage ≠ .back true failed)
  /-- A dial is let through: an ordinary one by a closed circuit. -/
  | letThrough {ordinary : Bool} (same : SameDials p q) (before : h.dialStage = .ahead ordinary)
      (after : k.dialStage = .calling ordinary)
      (circuit : ordinary = true → p.circuitOpen = false)
  /-- The dial starts, and comes back at once or not. -/
  | start {ordinary : Bool} (before : h.dialStage = .calling ordinary)
      (after : k.dialStage = .back ordinary (p.failsAtOnce (p.attemptCount + 1)) ∨
        k.dialStage = .past ∧ p.failsAtOnce (p.attemptCount + 1) = false)
      (attempts : q.attemptCount = p.attemptCount + 1) (failures : q.dialFailures = p.dialFailures)
      (resets : q.resets = p.resets)
  /-- An ordinary dial has failed. -/
  | fail (before : h.dialStage = .back true true) (after : k.dialStage = .past)
      (attempts : q.attemptCount = p.attemptCount)
      (failures : q.dialFailures = p.dialFailures + 1) (resets : q.resets = p.resets)
  /-- A dial has succeeded. -/
  | reach {ordinary : Bool} (before : h.dialStage = .back ordinary false)
      (after : k.dialStage = .past) (attempts : q.attemptCount = p.attemptCount)
      (failures : q.dialFailures = 0) (resets : q.resets = p.resets + 1)

theorem Retires.dialStage_eq {f : Counters → Counters} (hr : Retires p id h f k)
    (hh : h.dialStage ≠ .none) : k.dialStage = h.dialStage := by
  cases hr with
  | removed _ => exact absurd rfl hh
  | _ => rfl

theorem sameDials_closeConnection (p : Pool) (id : ConnectionId) :
    SameDials p (p.closeConnection id).2 := by
  have hresets := countP_history_closeConnection (Q := Event.isConnected) (fun _ => rfl) p id
  rw [closeConnection_frame] at hresets ⊢
  exact ⟨rfl, rfl, rfl, rfl, hresets⟩

theorem sameDials_freeSlot (p : Pool) : SameDials p p.freeSlot := by
  rw [freeSlot_frame]
  exact ⟨rfl, rfl, rfl, rfl, rfl⟩

theorem sameDials_lowerSize (p : Pool) : SameDials p p.lowerSize :=
  ⟨rfl, rfl, rfl, rfl, countP_history_lowerSize rfl p⟩

theorem sameDials_lowerIdleCount (p : Pool) : SameDials p p.lowerIdleCount :=
  ⟨rfl, rfl, rfl, rfl, countP_history_lowerIdleCount rfl p⟩

theorem sameDials_strike (p : Pool) (id : ConnectionId) : SameDials p (p.strike id) := by
  have hresets := countP_history_strike (Q := Event.isConnected) rfl p id
  rw [strike_eq] at hresets ⊢
  exact ⟨rfl, rfl, rfl, rfl, hresets⟩

theorem resets_record_connected (p : Pool) (caller : Caller) (attempt : Nat) :
    (p.record (.connected caller attempt)).resets = p.resets + 1 :=
  List.countP_cons_of_pos rfl

theorem failsAtOnce_of_answer {attempt : Nat} {fault : Option String}
    (hcourse : p.dialer attempt = .answer 0 fault) : p.failsAtOnce attempt = fault.isSome := by
  unfold failsAtOnce
  rw [hcourse]
  cases fault <;> rfl

theorem failsAtOnce_of_underWay {attempt : Nat}
    (hcourse : ∀ fault, p.dialer attempt ≠ .answer 0 fault) : p.failsAtOnce attempt = false := by
  unfold failsAtOnce
  split
  · rename_i reason hnow
    exact absurd hnow (hcourse _)
  · rfl

/-- Every act of a turn that has begun is one of these. -/
theorem Act.dialStep (ha : Act p h q k) (hh : h.dialStage ≠ .none) : DialStep p h q k := by
  have hrest : k.dialStage = h.dialStage → SameDials p q → DialStep p h q k :=
    fun hstage hsame => .keep hsame (.inl hstage)
  have hpast : k.dialStage = .past → (∀ failed, h.dialStage ≠ .back true failed) →
      SameDials p q → DialStep p h q k :=
    fun hstage hback hsame => .keep hsame (.inr ⟨hstage, hback⟩)
  have hcounted : ∀ f, SameDials p (p.count f) := fun _ => ⟨rfl, rfl, rfl, rfl, rfl⟩
  have hnoted : ∀ reason, (p.noteDialFailure reason).attemptCount = p.attemptCount ∧
      (p.noteDialFailure reason).dialFailures = p.dialFailures + 1 ∧
      (p.noteDialFailure reason).resets = p.resets := fun reason => by
    rw [noteDialFailure_frame]
    exact ⟨rfl, rfl, rfl⟩
  cases ha with
  | stay | get _ | cancel _ | resolve _ _ | setDialer _ | setPauses _ | setCloseFaults _ | addForeign _
  | fire _ | wait _ _ | shutDown _ | take _ => exact absurd rfl hh
  | closeConnection _ _ | shutNext _ | retire _ => exact hrest rfl (sameDials_closeConnection p _)
  | pick _ _ =>
    rename_i get id rest _ _
    have htaken : SameDials p { p with idle := rest } := ⟨rfl, rfl, rfl, rfl, rfl⟩
    exact hrest rfl (htaken.trans (sameDials_lowerIdleCount _))
  | strike hr _ => exact hrest (hr.dialStage_eq hh) ((hcounted _).trans (sameDials_strike _ _))
  | pass hr _ | refuseRemoval hr _ => exact hrest (hr.dialStage_eq hh) ⟨rfl, rfl, rfl, rfl, rfl⟩
  | reserve _ _ hshut => exact .letThrough ⟨rfl, rfl, rfl, rfl, rfl⟩ rfl rfl fun _ => hshut
  | callTopUp _ hshut => exact .letThrough ⟨rfl, rfl, rfl, rfl, rfl⟩ rfl rfl fun _ => hshut
  | callProbe _ => exact .letThrough (.refl p) rfl rfl nofun
  | answered hnow =>
    refine .start rfl (.inl ?_) rfl rfl rfl
    rw [failsAtOnce_of_answer hnow]
    rfl
  | underWay _ hlater => exact .start rfl (.inr ⟨rfl, failsAtOnce_of_underWay hlater⟩) rfl rfl rfl
  | adopt _ =>
    rename_i get attempt _
    exact .reach rfl rfl rfl rfl (resets_record_connected p.resetCircuit (.get get) attempt)
  | adoptIdle _ =>
    rename_i attempt _
    exact .reach rfl rfl rfl rfl (resets_record_connected p.resetCircuit .topUp attempt)
  | adoptLate _ =>
    rename_i get attempt _
    have hsame := sameDials_closeConnection (p.connect (.get get) attempt) (.dialed attempt)
    exact .reach rfl rfl hsame.attempts hsame.failures
      (hsame.resets.trans (resets_record_connected p.resetCircuit (.get get) attempt))
  | adoptIdleLate _ =>
    rename_i attempt _
    have hsame := sameDials_closeConnection (p.connect .topUp attempt) (.dialed attempt)
    exact .reach rfl rfl hsame.attempts hsame.failures
      (hsame.resets.trans (resets_record_connected p.resetCircuit .topUp attempt))
  | probeReached =>
    rename_i tries attempt
    exact .reach rfl rfl rfl rfl (resets_record_connected p.resetCircuit (.probe tries) attempt)
  | dialFailed _ =>
    rename_i get attempt reason _
    have hsame := sameDials_lowerSize (p.noteDialFailure reason)
    obtain ⟨hattempts, hfailures, hresets⟩ := hnoted reason
    exact .fail rfl rfl (hsame.attempts.trans hattempts) (hsame.failures.trans hfailures)
      (hsame.resets.trans hresets)
  | dialFailedLate _ =>
    obtain ⟨hattempts, hfailures, hresets⟩ := hnoted _
    exact .fail rfl rfl hattempts hfailures hresets
  | topUpFailed =>
    rename_i attempt reason
    have hsame := (sameDials_lowerSize (p.noteDialFailure reason)).trans
      (sameDials_lowerIdleCount _)
    obtain ⟨hattempts, hfailures, hresets⟩ := hnoted reason
    exact .fail rfl rfl (hsame.attempts.trans hattempts) (hsame.failures.trans hfailures)
      (hsame.resets.trans hresets)
  | topUpDenied _ _ =>
    exact hpast rfl nofun ((sameDials_lowerSize p).trans (sameDials_lowerIdleCount _))
  | finish => exact hrest rfl (sameDials_freeSlot p)
  | fail => exact hrest rfl ((sameDials_freeSlot p).trans ⟨rfl, rfl, rfl, rfl, rfl⟩)
  | checkIn => exact hrest rfl ((hcounted _).trans (sameDials_freeSlot _))
  | turnAway _ | tooLate _ _ _ _ | hit _ | join _ _ _ _ | noDial _ | decline _ | shut _ | topUpOff _
  | probeOff _ | probeDropped _ | probeGaveUp _ | probeAgain _ _ | probeNap _ _ _ =>
    exact hpast rfl nofun ⟨rfl, rfl, rfl, rfl, rfl⟩
  | _ => exact hrest rfl ⟨rfl, rfl, rfl, rfl, rfl⟩

/-! ## A turn -/

/-- The turn of `t` that began in `r` has started no dial, or one that its
stage and the circuit allowed. -/
def StartedBy (t : Work) (r p : Pool) : Prop :=
  p.attemptCount = r.attemptCount ∨
    p.attemptCount = r.attemptCount + 1 ∧
      ∃ ordinary, t.dialStage = .ahead ordinary ∧ (ordinary = true → r.circuitOpen = false)

/-- What the turn of `t` that began in `r` has done about dials when it has
come so far. -/
def DialTurn (t : Work) (r p : Pool) : DialStage → Prop
  | .none => False
  | .ahead ordinary => t.dialStage = .ahead ordinary ∧ SameDials r p
  | .calling ordinary => t.dialStage = .ahead ordinary ∧ SameDials r p ∧
      (ordinary = true → r.circuitOpen = false)
  | .back ordinary failed => StartedBy t r p ∧ p.dialFailures = r.dialFailures ∧
      p.resets = r.resets ∧ r.turnFailures t p.attemptCount = (ordinary && failed).toNat
  | .past => StartedBy t r p ∧
      (p.resets = r.resets ∧ p.dialFailures = r.dialFailures + r.turnFailures t p.attemptCount ∨
        r.resets < p.resets ∧ p.dialFailures = 0)

theorem turnFailures_of_ahead {ordinary : Bool} (ht : t.dialStage = .ahead ordinary) (n : Nat) :
    r.turnFailures t n =
      if ordinary = true ∧ r.attemptCount < n ∧ r.failsAtOnce (r.attemptCount + 1) = true then 1
      else 0 := by
  unfold turnFailures
  rw [ht]
  cases ordinary <;> simp

theorem dialTurn_begin (t : Work) (r : Pool) : DialTurn t r r t.dialStage := by
  cases hstage : t.dialStage with
  | none => cases t <;> cases hstage
  | ahead ordinary => exact ⟨hstage, .refl r⟩
  | calling ordinary => cases t <;> cases hstage
  | back ordinary failed =>
    refine ⟨.inl rfl, rfl, rfl, ?_⟩
    unfold turnFailures
    rw [hstage]
    cases ordinary <;> cases failed <;> rfl
  | past =>
    refine ⟨.inl rfl, .inl ⟨rfl, ?_⟩⟩
    unfold turnFailures
    rw [hstage]
    rfl

theorem DialTurn.congr {stage : DialStage} (hd : DialTurn t r p stage) (hsame : SameDials p q) :
    DialTurn t r q stage := by
  cases stage with
  | none => exact hd
  | ahead ordinary => exact ⟨hd.1, hd.2.trans hsame⟩
  | calling ordinary => exact ⟨hd.1, hd.2.1.trans hsame, hd.2.2⟩
  | back ordinary failed =>
    unfold DialTurn StartedBy at hd ⊢
    rwa [hsame.attempts, hsame.failures, hsame.resets]
  | past =>
    unfold DialTurn StartedBy at hd ⊢
    rwa [hsame.attempts, hsame.failures, hsame.resets]

/-- A turn may end without a dial, and the probe without a look at the
answer of its own. -/
theorem DialTurn.giveUp {stage : DialStage} (hd : DialTurn t r p stage)
    (hback : ∀ failed, stage ≠ .back true failed) : DialTurn t r p .past := by
  have hunstarted : ∀ {ordinary}, t.dialStage = .ahead ordinary → SameDials r p →
      DialTurn t r p .past := fun ht hsame => by
    refine ⟨.inl hsame.attempts, .inl ⟨hsame.resets, ?_⟩⟩
    rw [turnFailures_of_ahead ht, hsame.attempts, if_neg fun hdue => Nat.lt_irrefl _ hdue.2.1]
    exact hsame.failures
  cases stage with
  | none => exact hd.elim
  | ahead ordinary => exact hunstarted hd.1 hd.2
  | calling ordinary => exact hunstarted hd.1 hd.2.1
  | back ordinary failed =>
    cases ordinary with
    | true => exact absurd rfl (hback failed)
    | false =>
      obtain ⟨hstarted, hfailures, hresets, hdue⟩ := hd
      refine ⟨hstarted, .inl ⟨hresets, ?_⟩⟩
      rw [hdue]
      exact hfailures
  | past => exact hd

/-- Every act takes the turn further. -/
theorem DialTurn.act (hd : DialTurn t r p h.dialStage) (ha : Act p h q k) :
    DialTurn t r q k.dialStage := by
  have hbegun : h.dialStage ≠ .none := fun hnone => by
    rw [hnone] at hd
    exact hd
  cases ha.dialStep hbegun with
  | keep same stage =>
    rcases stage with hrest | ⟨hpast, hback⟩
    · rw [hrest]
      exact hd.congr same
    · rw [hpast]
      exact (hd.giveUp hback).congr same
  | letThrough same before after circuit =>
    rw [before] at hd
    obtain ⟨hbegun, hsame⟩ := hd
    rw [after]
    refine ⟨hbegun, hsame.trans same, fun hordinary => ?_⟩
    have hshut := circuit hordinary
    unfold circuitOpen at hshut ⊢
    rwa [hsame.options, hsame.failures] at hshut
  | @start ordinary before after attempts failures resets =>
    rw [before] at hd
    obtain ⟨hbegun, hsame, hcircuit⟩ := hd
    have hattempts : q.attemptCount = r.attemptCount + 1 := attempts.trans (by rw [hsame.attempts])
    have hfails : p.failsAtOnce (p.attemptCount + 1) = r.failsAtOnce (r.attemptCount + 1) := by
      unfold failsAtOnce
      rw [hsame.dialer, hsame.attempts]
    have hback : DialTurn t r q (.back ordinary (p.failsAtOnce (p.attemptCount + 1))) := by
      refine ⟨.inr ⟨hattempts, ordinary, hbegun, hcircuit⟩, failures.trans hsame.failures,
        resets.trans hsame.resets, ?_⟩
      rw [turnFailures_of_ahead hbegun, hfails, hattempts]
      cases ordinary <;> cases r.failsAtOnce (r.attemptCount + 1) <;> simp
    rcases after with hstage | ⟨hpast, hnone⟩
    · rw [hstage]
      exact hback
    · rw [hpast]
      obtain ⟨hstarted, hfailures, hresets, hdue⟩ := hback
      rw [hnone, Bool.and_false] at hdue
      refine ⟨hstarted, .inl ⟨hresets, ?_⟩⟩
      rw [hdue]
      exact hfailures
  | fail before after attempts failures resets =>
    rw [before] at hd
    obtain ⟨hstarted, hfailures, hresets, hdue⟩ := hd
    rw [after]
    unfold DialTurn StartedBy at *
    rw [attempts, failures, resets, hfailures, hdue]
    exact ⟨hstarted, .inl ⟨hresets, rfl⟩⟩
  | reach before after attempts failures resets =>
    rw [before] at hd
    obtain ⟨hstarted, hfailures, hresets, -⟩ := hd
    rw [after]
    unfold DialTurn StartedBy at *
    rw [attempts, failures, resets, hresets]
    exact ⟨hstarted, .inr ⟨Nat.lt_succ_self _, rfl⟩⟩

theorem dialTurn_step (hk : p.HooksKept) {rest : List Work} (hready : p.ready = t :: rest) :
    DialTurn t p p.step .past :=
  (turn_acts hk hready).invariant (I := fun q h => DialTurn t p q h.dialStage)
    ((dialTurn_begin t p).congr ⟨rfl, rfl, rfl, rfl, rfl⟩) fun hd ha => hd.act ha

/-! ## A move -/

/-- With no dial to come, acts leave all about dials alone. -/
theorem Acts.sameDials (hs : Acts p h q k) (hh : h.dialStage = .past) : SameDials p q := by
  have hend := hs.invariant (I := fun r l => l.dialStage = .past ∧ SameDials p r) ⟨hh, .refl p⟩
    fun ⟨hpast, hsame⟩ ha => by
      cases ha.dialStep fun hnone => nomatch hpast.symm.trans hnone with
      | keep same stage =>
        rcases stage with hrest | ⟨hstill, -⟩
        · exact ⟨hrest.trans hpast, hsame.trans same⟩
        · exact ⟨hstill, hsame.trans same⟩
      | letThrough _ before _ _ => cases hpast.symm.trans before
      | start before _ _ _ _ => cases hpast.symm.trans before
      | fail before _ _ _ _ => cases hpast.symm.trans before
      | reach before _ _ _ _ => cases hpast.symm.trans before
  exact hend.2

theorem sameDials_persists : Persists SameDials where
  refl := .refl
  trans := .trans
  invalid _ := ⟨rfl, rfl, rfl, rfl, rfl⟩
  stale _ := ⟨rfl, rfl, rfl, rfl, rfl⟩
  strike := sameDials_strike
  topUp _ := ⟨rfl, rfl, rfl, rfl, rfl⟩
  closeConnection := sameDials_closeConnection
  keep _ _ := ⟨rfl, rfl, rfl, rfl, rfl⟩

theorem sameDials_release (p : Pool) (id : ConnectionId) : SameDials p (p.release id) := by
  cases hheld : p.isInUse id with
  | true =>
    have hmarked : SameDials p (p.mark id false) := ⟨rfl, rfl, rfl, rfl, rfl⟩
    exact hmarked.trans ((release_acts hheld).sameDials rfl)
  | false =>
    unfold release
    rw [if_neg (Bool.eq_false_iff.1 hheld)]
    exact .refl p

theorem sameDials_close (p : Pool) : SameDials p p.close.2 := by
  unfold close
  split
  · exact .refl p
  · have hshut : SameDials p p.shutDown := ⟨rfl, rfl, rfl, rfl, rfl⟩
    exact hshut.trans (sameDials_persists.closeAll p.shutDown p.tracked)

/-- A call of a caller starts no dial and deals with none, and the clock
neither. -/
theorem dials_apply {m : Move} (hm : m ≠ .turn) (hanswered : m ≠ .turnAnswered) :
    (p.apply m).attemptCount = p.attemptCount ∧ (p.apply m).dialFailures = p.dialFailures ∧
      (p.apply m).resets = p.resets := by
  have hsame : SameDials p (p.apply m) → (p.apply m).attemptCount = p.attemptCount ∧
      (p.apply m).dialFailures = p.dialFailures ∧ (p.apply m).resets = p.resets :=
    fun hsame => ⟨hsame.attempts, hsame.failures, hsame.resets⟩
  cases m with
  | turn => exact absurd rfl hm
  | turnAnswered => exact absurd rfl hanswered
  | cancel get =>
    refine hsame ?_
    show SameDials p (p.cancel get)
    rw [cancel_frame]
    exact ⟨rfl, rfl, rfl, rfl, rfl⟩
  | resolve attempt fault =>
    refine hsame ?_
    show SameDials p (p.resolve attempt fault).2
    rw [resolve_frame]
    exact ⟨rfl, rfl, rfl, rfl, rfl⟩
  | release id => exact hsame (sameDials_release p id)
  | remove id => exact hsame (sameDials_persists.remove p id)
  | closeConnection id => exact hsame (sameDials_closeConnection p id)
  | close => exact hsame (sameDials_close p)
  | wait ms =>
    refine hsame ?_
    show SameDials p (if _ then _ else _)
    split
    · exact ⟨rfl, rfl, rfl, rfl, rfl⟩
    · exact .refl p
  | _ => exact ⟨rfl, rfl, rfl⟩

theorem dials_stepAnswered (p : Pool) :
    p.stepAnswered.attemptCount = p.attemptCount ∧
      (p.stepAnswered.resets = p.resets ∧ p.stepAnswered.dialFailures = p.dialFailures ∨
        p.resets < p.stepAnswered.resets ∧ p.stepAnswered.dialFailures = 0) := by
  unfold stepAnswered
  split
  · rename_i tries attempt rest _ _
    have hreset := resets_record_connected { p with ready := rest }.resetCircuit (.probe tries)
      attempt
    exact ⟨rfl, .inr ⟨Nat.lt_of_lt_of_eq (Nat.lt_succ_self _) hreset.symm, rfl⟩⟩
  · exact ⟨rfl, .inl ⟨rfl, rfl⟩⟩
  · exact ⟨rfl, .inl ⟨rfl, rfl⟩⟩

/-- A success starts the count of failures again.  Otherwise the count
grows by the ordinary dials that have failed. -/
theorem dialFailures_apply (hk : p.HooksKept) (m : Move) :
    (p.apply m).resets = p.resets ∧
        (p.apply m).dialFailures = p.dialFailures + p.failuresOf m ∨
      p.resets < (p.apply m).resets ∧ (p.apply m).dialFailures = 0 := by
  by_cases hturn : m = .turn
  · subst hturn
    unfold failuresOf
    cases hready : p.ready with
    | nil =>
      have hstay : p.apply .turn = p := step_of_settled hready
      rw [hstay]
      exact .inl ⟨rfl, rfl⟩
    | cons t rest => exact (dialTurn_step hk hready).2
  by_cases hanswered : m = .turnAnswered
  · subst hanswered
    exact (dials_stepAnswered p).2
  · obtain ⟨-, hfailures, hresets⟩ := p.dials_apply hturn hanswered
    have hnone : p.failuresOf m = 0 := by
      cases m with
      | turn => exact absurd rfl hturn
      | _ => rfl
    rw [hnone]
    exact .inl ⟨hresets, hfailures⟩

/-- An open circuit leaves dialing to the probe. -/
theorem attemptCount_apply (hk : p.HooksKept) (hcircuit : p.circuitOpen = true) (m : Move) :
    (p.apply m).attemptCount = p.attemptCount ∨
      m = .turn ∧ ∃ tries rest, p.ready = .probe tries :: rest := by
  by_cases hturn : m = .turn
  · subst hturn
    cases hready : p.ready with
    | nil => exact .inl (congrArg attemptCount (step_of_settled hready))
    | cons t rest =>
      rcases (dialTurn_step hk hready).1 with hnone | ⟨-, ordinary, hstage, hshut⟩
      · exact .inl hnone
      · cases ordinary with
        | true => cases (hshut rfl).symm.trans hcircuit
        | false =>
          cases t with
          | probe tries => exact .inr ⟨rfl, tries, rest, rfl⟩
          | _ => cases hstage
  by_cases hanswered : m = .turnAnswered
  · subst hanswered
    exact .inl (dials_stepAnswered p).1
  · exact .inl (p.dials_apply hturn hanswered).1

end PooledRouting.Pool
