import PooledRouting.Proofs.Pool.Waits

/-!
# Calls that were let in

A call of `get` is `Inside` from the act that lets it in until it ends: with
its slot it looks for a connection, dials one and is handed it.  Before that
it is `Outside`.  Here the two are told apart by what has happened, for
every call and at any time (`Sorted`):

* a call that is inside, or was served, has been admitted, and one that is
  outside has not;
* a call that ended without a connection did so with a fault of its side:
  with a rejection, a failed dial, an exhausted pool or a pool that was closed
  during its dial, if it was admitted, and with another one if not.

So the history says whether a call was admitted.  `Tallied` says the same of
the counters: each admission is counted once, as a hit or as a miss, in the
turn in which it happens.  The call in hand that was admitted and has not
been counted is the only one between the two.

`Act.inside` and `Act.tally` look at each act.  Callers may mark connections
as they like, and hooks too: `Arises` is the closure.
-/

namespace PooledRouting.Pool

variable {o : Options} {p q r : Pool} {h k : Hand} {id : ConnectionId} {n : Nat} {fault : Fault}

/-! ## Inside -/

/-- The call whose dial the turn deals with. -/
def Work.dialing? : Work → Option Nat
  | .dialed (.get get) _ _ => some get
  | _ => none

/-- The tasks in which the call dials. -/
def dialsOf (p : Pool) (get : Nat) : Nat :=
  p.tasks.countP fun w => w.dialing? == some get

/-- The dial attempts of the call that came back with a transport. -/
def reachesOf (p : Pool) (get : Nat) : Nat :=
  p.history.countP fun
    | .connected (.get n) _ => n == get
    | _ => false

/-- The call in hand that has its slot. -/
def Hand.inside? : Hand → Option Nat
  | .work w => w.dialing?
  | .admitted get | .picked get _ | .missed get | .calling (.get get) => some get
  | .holding get? _ => get?
  | .retiring _ next | .looking next => next.inside?
  | _ => none

/-- The call has its slot, or had it when its dial came back or when it was
served. -/
inductive Inside (p : Pool) (h : Hand) (n : Nat) : Prop where
  | hand (hh : h.inside? = some n)
  | dialing (hdial : 0 < p.dialsOf n)
  | reached (hreach : 0 < p.reachesOf n)
  | served {id : ConnectionId} (hserved : .served n id ∈ p.history)

theorem steady_dialing (n : Nat) : Steady fun w => w.dialing? == some n :=
  ⟨fun c _ _ => by cases c <;> rfl, fun _ => rfl, fun _ => rfl⟩

theorem dialsOf_freeSlot (p : Pool) (n : Nat) : p.freeSlot.dialsOf n = p.dialsOf n := by
  unfold dialsOf
  rw [countP_tasks_freeSlot]
  cases p.line <;> rfl

/-- A call goes on to dial with the dial in hand, and in no other way. -/
theorem Act.dialsOf_cases (hn : Attempts p h) (ha : Act p h q k) (n : Nat) :
    q.dialsOf n ≤ p.dialsOf n ∨ h = .calling (.get n) := by
  have hsteady := steady_dialing n
  cases ha with
  | get cancelled => exact .inl (Nat.le_of_eq (countP_tasks_enqueue p _))
  | cancel get => exact .inl (Nat.le_of_eq (countP_tasks_cancel hsteady p get))
  | resolve attempt fault =>
    exact .inl (Nat.le_of_eq (countP_tasks_resolve hsteady p attempt fault (hn.dials_le attempt)))
  | fire ms => exact .inl (Nat.le_of_eq (countP_tasks_fire hsteady p _))
  | shutDown _ =>
    have hline : p.line.countP (fun w => (Work.refused w.get).dialing? == some n) = 0 :=
      List.countP_eq_zero.2 fun _ _ => Bool.false_ne_true
    have hshut := countP_tasks_shutDown hsteady p
    exact .inl (by unfold dialsOf; omega)
  | take hready =>
    have htake := countP_tasks_take (P := fun w => w.dialing? == some n) hready
    exact .inl (by unfold dialsOf; omega)
  | look => exact .inl (Nat.le_of_eq (countP_tasks_topUp p))
  | underWay _ _ =>
    rename_i caller due _ _
    have hdial := countP_tasks_dial (P := fun w => w.dialing? == some n) p
      ⟨p.attemptCount + 1, caller, due⟩
    cases caller with
    | get get =>
      by_cases hget : get = n
      · exact .inr (by rw [hget])
      · have hother : (Dial.work ⟨p.attemptCount + 1, .get get, due⟩).dialing? ≠ some n :=
          fun heq => hget (Option.some.inj heq)
        rw [if_neg (by simpa using hother)] at hdial
        exact .inl (Nat.le_of_eq hdial)
    | topUp | probe _ => exact .inl (Nat.le_of_eq hdial)
  | closeConnection _ id | shutNext _ | retire _ | adoptLate _ | adoptIdleLate _ =>
    rw [closeConnection_frame]
    exact .inl (Nat.le_refl _)
  | dialFailed _ | dialFailedLate _ | topUpFailed =>
    exact .inl (Nat.le_of_eq (countP_tasks_noteDialFailure hsteady p _))
  | finish | fail => exact .inl (Nat.le_of_eq (dialsOf_freeSlot p n))
  | checkIn => exact .inl (Nat.le_of_eq (dialsOf_freeSlot (p.count Counters.checkIn) n))
  | probeAgain _ _ => exact .inl (Nat.le_of_eq (countP_tasks_enqueue _ (.probe _)))
  | strike _ _ =>
    rw [strike_eq]
    exact .inl (Nat.le_refl _)
  | _ => exact .inl (Nat.le_refl _)

theorem reachesOf_closeConnection (p : Pool) (id : ConnectionId) (n : Nat) :
    (p.closeConnection id).2.reachesOf n = p.reachesOf n :=
  countP_history_closeConnection (fun _ => rfl) p id

/-- The dial of a call comes back with a transport in the turn that deals
with it. -/
theorem Act.reachesOf_cases (ha : Act p h q k) (n : Nat) :
    q.reachesOf n = p.reachesOf n ∨ ∃ attempt, h = .work (.dialed (.get n) attempt none) := by
  have hconnect : ∀ get attempt, (p.connect (.get get) attempt).reachesOf n = p.reachesOf n ∨ get = n := by
    intro get attempt
    by_cases hget : get = n
    · exact .inr hget
    · exact .inl (List.countP_cons_of_neg (by simpa using hget))
  cases ha with
  | cancel get =>
    rw [cancel_frame]
    exact .inl rfl
  | resolve attempt fault =>
    rw [resolve_frame]
    exact .inl rfl
  | closeConnection _ id | shutNext _ | retire _ => exact .inl (reachesOf_closeConnection p _ n)
  | claim _ _ _ | accept _ _ | serve _ _ _ | turnAway _ | tooLate _ _ _ _ | refuse | giveUp _ _
  | timeOut _ =>
    exact .inl (List.countP_cons_of_neg Bool.false_ne_true)
  | pick _ _ => exact .inl (countP_history_lowerIdleCount rfl _)
  | adopt _ =>
    rename_i get attempt _
    rcases hconnect get attempt with hsame | rfl
    · exact .inl ((List.countP_cons_of_neg Bool.false_ne_true).trans hsame)
    · exact .inr ⟨attempt, rfl⟩
  | adoptLate _ =>
    rename_i get attempt _
    rcases hconnect get attempt with hsame | rfl
    · exact .inl ((reachesOf_closeConnection _ _ n).trans hsame)
    · exact .inr ⟨attempt, rfl⟩
  | adoptIdle _ =>
    exact .inl ((List.countP_cons_of_neg Bool.false_ne_true).trans
      (List.countP_cons_of_neg Bool.false_ne_true))
  | adoptIdleLate _ =>
    exact .inl ((reachesOf_closeConnection _ _ n).trans
      (List.countP_cons_of_neg Bool.false_ne_true))
  | dialFailed _ =>
    refine .inl ((countP_history_lowerSize rfl _).trans ?_)
    rw [noteDialFailure_frame]
    rfl
  | dialFailedLate _ =>
    rw [noteDialFailure_frame]
    exact .inl rfl
  | topUpFailed =>
    refine .inl ((countP_history_lowerIdleCount rfl _).trans
      ((countP_history_lowerSize rfl _).trans ?_))
    rw [noteDialFailure_frame]
    rfl
  | topUpDenied _ _ =>
    exact .inl ((countP_history_lowerIdleCount rfl _).trans (countP_history_lowerSize rfl p))
  | probeReached =>
    exact .inl ((List.countP_cons_of_neg Bool.false_ne_true).trans
      (List.countP_cons_of_neg Bool.false_ne_true))
  | finish | checkIn =>
    rw [freeSlot_frame]
    exact .inl rfl
  | fail =>
    rw [freeSlot_frame]
    exact .inl (List.countP_cons_of_neg Bool.false_ne_true)
  | strike _ _ => exact .inl (countP_history_strike rfl _ _)
  | _ => exact .inl rfl

/-- A call that is inside was inside, or has just been admitted. -/
theorem Act.inside (hn : Attempts p h) (ha : Act p h q k) (hin : Inside q k n) :
    Inside p h n ∨ .admitted n ∈ q.history := by
  cases hin with
  | hand hk =>
    cases ha with
    | take hready =>
      rename_i w rest
      refine .inl (.dialing (List.countP_pos_iff.2 ⟨w, List.mem_append_left _ ?_, ?_⟩))
      · rw [hready]
        exact List.mem_cons_self
      · exact beq_iff_eq.2 hk
    | claim _ _ _ | accept _ _ =>
      cases hk
      exact .inr List.mem_cons_self
    | answered _ =>
      rename_i caller fault _
      cases caller with
      | get get => exact .inl (.hand hk)
      | topUp | probe _ => cases hk
    | strike hr _ | pass hr _ | refuseRemoval hr _ =>
      cases hr with
      | expired _ => exact .inl (.hand hk)
      | _ => cases hk
    | touch _ _ | closeConnection _ _ | look | retire _ | spare _ | pick _ _ | hit _ | miss _ _
    | reserve _ _ _ | adopt _ | mark _ | countHooks _ | putBack _ _ => exact .inl (.hand hk)
    | _ => cases hk
  | dialing hdial =>
    rcases ha.dialsOf_cases hn n with hle | rfl
    · exact .inl (.dialing (Nat.lt_of_lt_of_le hdial hle))
    · exact .inl (.hand rfl)
  | reached hreach =>
    rcases ha.reachesOf_cases n with hsame | ⟨attempt, rfl⟩
    · exact .inl (.reached (hsame ▸ hreach))
    · exact .inl (.hand rfl)
  | served hserved =>
    cases ha.happens with
    | nothing hplain => exact .inl (.served (hplain.mem_history hserved rfl))
    | served hq hh =>
      rw [hq] at hserved
      rcases List.mem_cons.1 hserved with heq | hold
      · cases heq
        exact .inl (.hand (congrArg Hand.inside? hh))
      · exact .inl (.served hold)
    | admitted hq _ _ | left hq _ | refused hq _ _ =>
      rw [hq] at hserved
      rcases List.mem_cons.1 hserved with heq | hold
      · cases heq
      · exact .inl (.served hold)

/-! ## Ends -/

/-- With this fault a call ends that has its slot.  It ends so with `closed`
only if its dial came back with a transport. -/
def EndsInside (p : Pool) (get : Nat) (fault : Fault) : Prop :=
  fault.isRejection = true ∨ (∃ reason, fault = .dial reason) ∨ fault = .exhausted ∨
    fault = .closed ∧ 0 < p.reachesOf get

/-- The fault is one with which the call may end, admitted or not. -/
def EndsWell (p : Pool) (get : Nat) (fault : Fault) : Prop :=
  .admitted get ∈ p.history ∧ p.EndsInside get fault ∨
    .admitted get ∉ p.history ∧ fault.isWithout = true

/-- The task looks for a connection. -/
def Hand.isSearch : Hand → Bool
  | .admitted _ | .picked _ _ | .missed _ => true
  | .retiring _ next | .looking next => next.isSearch
  | _ => false

/-- The calls are told apart by what has happened. -/
structure Sorted (p : Pool) (h : Hand) : Prop where
  inside : ∀ get, Inside p h get → .admitted get ∈ p.history
  ended : ∀ get fault, .failed get fault ∈ p.history → p.EndsWell get fault
  ending : ∀ get fault, h.call? = some get → h.fault? = some fault → p.EndsWell get fault
  /-- Nobody looks for a connection of a pool that is closed. -/
  search : h.isSearch = true → p.closed = false

/-- The history only grows. -/
theorem Act.reachesOf_le (ha : Act p h q k) (n : Nat) : p.reachesOf n ≤ q.reachesOf n := by
  have hgrows : ∃ new, q.history = new ++ p.history := by
    cases ha.happens with
    | nothing hplain =>
      obtain ⟨new, hq, -⟩ := hplain
      exact ⟨new, hq⟩
    | admitted hq _ _ | served hq _ | left hq _ | refused hq _ _ => exact ⟨[_], hq⟩
  obtain ⟨new, hq⟩ := hgrows
  unfold reachesOf
  rw [hq, List.countP_append]
  exact Nat.le_add_left _ _

theorem EndsInside.act (he : p.EndsInside n fault) (ha : Act p h q k) : q.EndsInside n fault :=
  he.imp_right (Or.imp_right (Or.imp_right (And.imp_right fun hreach =>
    Nat.lt_of_lt_of_le hreach (ha.reachesOf_le n))))

/-- A call that has ended, or is about to, is not let in any more. -/
theorem EndsWell.act (he : p.EndsWell n fault) (hc : Called p h)
    (hend : .failed n fault ∈ p.history ∨ h.fault? = some fault) (ha : Act p h q k) :
    q.EndsWell n fault := by
  rcases he with ⟨hin, hfault⟩ | ⟨hnot, hfault⟩
  · exact .inl ⟨ha.mem_history hin, hfault.act ha⟩
  · refine .inr ⟨fun hin => ?_, hfault⟩
    rcases ha.admitted_cases hin with hold | ⟨-, hh⟩
    · exact hnot hold
    rcases hend with hfailed | hhand
    · have hcall : h.call? = some n := by
        rcases hh with ⟨rfl, -⟩ | rfl <;> rfl
      have hone := calls_eq_one hcall
      have hpos := endings_pos hfailed (beq_self_eq_true n)
      have hplaces := hc.places_le n
      omega
    · rcases hh with ⟨rfl, -⟩ | rfl <;> cases hhand

/-- A call that loses the connection in its hand has its slot. -/
theorem Retires.ending {f : Counters → Counters} (hr : Retires p id h f k)
    (hcall : k.call? = some n) (hhand : k.fault? = some fault) :
    h.inside? = some n ∧ fault.isRejection = true := by
  cases hr with
  | removed _ | expired _ => cases hhand
  | invalid _ hends _ | stale _ _ _ _ hends | late _ hends =>
    cases hcall
    cases hhand
    exact ⟨rfl, hends rfl⟩

/-- With what a call in hand is about to end. -/
theorem Sorted.ending_act (hp : Arises o p h) (hs : Sorted p h) (ha : Act p h q k)
    (hcall : k.call? = some n) (hhand : k.fault? = some fault) : q.EndsWell n fault := by
  have hinside : h.inside? = some n → q.EndsInside n fault → q.EndsWell n fault :=
    fun hin hfault => .inl ⟨ha.mem_history (hs.inside n (.hand hin)), hfault⟩
  have hstill : h.call? = some n → h.fault? = some fault → q.EndsWell n fault :=
    fun hcall hhand => (hs.ending n fault hcall hhand).act hp.called (.inr hhand) ha
  cases ha with
  | touch _ _ | closeConnection _ _ | look | retire _ | spare _ => exact hstill hcall hhand
  | decline hwhy =>
    cases hcall
    cases hhand
    refine .inr ⟨hp.not_admitted (.inr (.inr ⟨_, rfl, .inr rfl⟩)), ?_⟩
    rcases hwhy with ⟨-, rfl⟩ | ⟨-, rfl⟩ <;> rfl
  | shut hclosed => cases (hs.search rfl).symm.trans hclosed
  | noDial hwhy =>
    cases hcall
    cases hhand
    refine hinside rfl ?_
    rcases hwhy with ⟨hclosed, -⟩ | ⟨-, rfl⟩ | ⟨-, rfl⟩
    · cases (hs.search rfl).symm.trans hclosed
    · exact .inr (.inr (.inl rfl))
    · exact .inr (.inl hp.circuitFault_eq)
  | adoptLate _ =>
    cases hcall
    cases hhand
    refine hinside rfl (.inr (.inr (.inr ⟨rfl, ?_⟩)))
    rw [reachesOf_closeConnection]
    exact List.countP_pos_iff.2 ⟨_, List.mem_cons_self, beq_self_eq_true n⟩
  | dialFailed _ | dialFailedLate _ =>
    cases hcall
    cases hhand
    exact hinside rfl (.inr (.inl ⟨_, rfl⟩))
  | keep _ _ _ _ hends =>
    cases hcall
    cases hhand
    exact hinside rfl (.inl (hends rfl))
  | strike hr _ | pass hr _ | refuseRemoval hr _ =>
    obtain ⟨hin, hfault⟩ := hr.ending hcall hhand
    exact hinside hin (.inl hfault)
  | _ => cases hhand

theorem Sorted.search_act (hs : Sorted p h) (ha : Act p h q k) (hk : k.isSearch = true) :
    q.closed = false := by
  cases ha with
  | claim hopen _ _ | accept hopen _ | pick hopen _ | miss hopen _ => exact hopen
  | touch _ _ | look | spare _ => exact hs.search hk
  | closeConnection _ _ | retire _ =>
    rw [closeConnection_frame]
    exact hs.search hk
  | strike hr _ =>
    rw [strike_eq]
    cases hr with
    | expired _ => exact hs.search rfl
    | _ => cases hk
  | pass hr _ | refuseRemoval hr _ =>
    cases hr with
    | expired _ => exact hs.search rfl
    | _ => cases hk
  | _ => cases hk

theorem Sorted.act (hp : Arises o p h) (hs : Sorted p h) (ha : Act p h q k) : Sorted q k := by
  constructor
  case inside =>
    intro n hin
    rcases ha.inside hp.attempts hin with hold | hnew
    · exact ha.mem_history (hs.inside n hold)
    · exact hnew
  case ended =>
    intro n fault hin
    have hold : .failed n fault ∈ p.history → q.EndsWell n fault :=
      fun hin => (hs.ended n fault hin).act hp.called (.inl hin) ha
    cases hh : ha.happens with
    | nothing hplain => exact hold (hplain.mem_history hin rfl)
    | left hq hleaving =>
      rw [hq] at hin
      rcases List.mem_cons.1 hin with heq | hin
      · cases heq
        subst hleaving
        exact (hs.ending n fault rfl rfl).act hp.called (.inr rfl) ha
      · exact hold hin
    | refused hq hfault hwho =>
      rw [hq] at hin
      rcases List.mem_cons.1 hin with heq | hin
      · cases heq
        have hout : Outside p h n := by
          rcases hwho with rfl | rfl | ⟨-, hline⟩
          · exact .inr (.inr ⟨_, rfl, .inr rfl⟩)
          · exact .inr (.inr ⟨_, rfl, .inr rfl⟩)
          · exact .inr (.inl hline)
        refine .inr ⟨fun hin => ?_, hfault⟩
        rw [hq] at hin
        exact hp.not_admitted hout ((List.mem_cons.1 hin).resolve_left nofun)
      · exact hold hin
    | admitted hq _ _ | served hq _ =>
      rw [hq] at hin
      exact hold ((List.mem_cons.1 hin).resolve_left nofun)
  case ending => exact fun _ _ hcall hhand => hs.ending_act hp ha hcall hhand
  case search => exact hs.search_act ha

theorem Arises.sorted (hp : Arises o p h) : Sorted p h := by
  induction hp with
  | create dialer now background =>
    have hhistory : (Pool.create o dialer now background).history = [] := by
      cases background <;> rfl
    have hdials : ∀ n, (Pool.create o dialer now background).dialsOf n = 0 := by
      intro n
      cases background with
      | false => rfl
      | true => exact countP_tasks_topUp (Pool.create o dialer now false)
    refine ⟨fun n hin => ?_, fun n fault hin => ?_, nofun, nofun⟩
    · cases hin with
      | hand hh => cases hh
      | dialing hdial =>
        rw [hdials] at hdial
        cases hdial
      | reached hreach =>
        unfold reachesOf at hreach
        rw [hhistory] at hreach
        cases hreach
      | served hserved =>
        rw [hhistory] at hserved
        cases hserved
    · rw [hhistory] at hin
      cases hin
  | act hp ha ih => exact ih.act hp ha
  | mark _ _ _ ih =>
    refine ⟨fun n hin => ih.inside n ?_, ih.ended, nofun, nofun⟩
    cases hin with
    | hand hh => cases hh
    | dialing hdial => exact .dialing hdial
    | reached hreach => exact .reached hreach
    | served hserved => exact .served hserved
  | next _ ih | release _ _ ih =>
    refine ⟨fun n hin => ih.inside n ?_, ih.ended, nofun, nofun⟩
    cases hin with
    | hand hh => cases hh
    | dialing hdial => exact .dialing hdial
    | reached hreach => exact .reached hreach
    | served hserved => exact .served hserved

/-! ## Hits and misses -/

/-- The call that is let in. -/
def Event.admission? : Event → Option Nat
  | .admitted get => some get
  | _ => none

/-- The calls that were admitted, the latest first. -/
def admissions (p : Pool) : List Nat :=
  p.history.filterMap Event.admission?

/-- The call in hand that is admitted, and counted neither as a hit nor as a
miss. -/
def Hand.uncounted : Hand → List Nat
  | .admitted get | .picked get _ => [get]
  | .retiring _ next | .looking next => next.uncounted
  | _ => []

theorem mem_admissions_iff {get : Nat} : get ∈ p.admissions ↔ .admitted get ∈ p.history := by
  unfold admissions
  rw [List.mem_filterMap]
  constructor
  · rintro ⟨e, he, hadmission⟩
    cases e with
    | admitted get =>
      cases hadmission
      exact he
    | _ => cases hadmission
  · exact fun hin => ⟨_, hin, rfl⟩

theorem Plain.admissions_eq (hpq : Plain p q) : q.admissions = p.admissions := by
  obtain ⟨new, hq, hnew⟩ := hpq
  have hnone : new.filterMap Event.admission? = [] := by
    refine List.filterMap_eq_nil_iff.2 fun e he => ?_
    cases e with
    | admitted get => cases hnew _ he
    | _ => rfl
  unfold admissions
  rw [hq, List.filterMap_append, hnone, List.nil_append]

/-- A call is admitted in its first turn, or when it goes on with a slot. -/
theorem Act.admissions_cases (ha : Act p h q k) :
    q.admissions = p.admissions ∨ ∃ get, q.admissions = get :: p.admissions ∧ k = .admitted get ∧
      (h = .work (.arrive get) ∨ h = .work (.admitted get)) := by
  cases ha.happens with
  | nothing hplain => exact .inl hplain.admissions_eq
  | @admitted get hq hk hh =>
    refine .inr ⟨get, ?_, hk, hh.imp_left And.left⟩
    unfold admissions
    rw [hq]
    rfl
  | served hq _ | left hq _ | refused hq _ _ =>
    unfold admissions
    rw [hq]
    exact .inl rfl

/-- How an act counts the call in hand. -/
inductive Tally (p : Pool) (h : Hand) (q : Pool) (k : Hand) : Prop where
  | still (hhits : q.counters.hits = p.counters.hits)
      (hmisses : q.counters.misses = p.counters.misses)
      (hadmissions : q.admissions = p.admissions) (hhand : k.uncounted = h.uncounted)
  | admitted {get : Nat} (hhits : q.counters.hits = p.counters.hits)
      (hmisses : q.counters.misses = p.counters.misses)
      (hadmissions : q.admissions = get :: p.admissions) (hout : Outside p h get)
      (hh : h.uncounted = []) (hk : k.uncounted = [get])
  | hit {get : Nat} (hhits : q.counters.hits = p.counters.hits + 1)
      (hmisses : q.counters.misses = p.counters.misses)
      (hadmissions : q.admissions = p.admissions) (hh : h.uncounted = [get])
      (hk : k.uncounted = [])
  | missed {get : Nat} (hhits : q.counters.hits = p.counters.hits)
      (hmisses : q.counters.misses = p.counters.misses + 1)
      (hadmissions : q.admissions = p.admissions) (hh : h.uncounted = [get])
      (hk : k.uncounted = [])

/-- A retirement takes the call along, uncounted or not. -/
theorem Retires.tally {f : Counters → Counters} (hr : Retires p id h f k) :
    k.uncounted = h.uncounted ∧ (∀ c, (f c).hits = c.hits) ∧ ∀ c, (f c).misses = c.misses := by
  cases hr with
  | _ => exact ⟨rfl, fun _ => rfl, fun _ => rfl⟩

theorem Act.tally (hs : Sorted p h) (ha : Act p h q k) : Tally p h q k := by
  rcases ha.admissions_cases with hsame | ⟨get, hnew, rfl, hh⟩
  · cases ha with
    | hit _ => exact .hit rfl rfl hsame rfl rfl
    | miss _ _ => exact .missed rfl rfl hsame rfl rfl
    | claim _ _ _ | accept _ _ => exact absurd hsame (List.cons_ne_self _ _)
    | shut hclosed => cases (hs.search rfl).symm.trans hclosed
    | cancel get => exact .still (by rw [cancel_frame]) (by rw [cancel_frame]) hsame rfl
    | resolve attempt fault =>
      exact .still (by rw [resolve_frame]) (by rw [resolve_frame]) hsame rfl
    | closeConnection _ id | shutNext _ | retire _ =>
      exact .still (by rw [closeConnection_frame]) (by rw [closeConnection_frame]) hsame rfl
    | adoptLate _ | adoptIdleLate _ =>
      exact .still (by rw [closeConnection_frame]; rfl) (by rw [closeConnection_frame]; rfl) hsame
        rfl
    | dialFailed _ | dialFailedLate _ | topUpFailed =>
      have hnoted := fun reason => congrArg Pool.counters (noteDialFailure_frame p reason)
      exact .still (congrArg Counters.hits (hnoted _)) (congrArg Counters.misses (hnoted _)) hsame
        rfl
    | finish => exact .still (by rw [freeSlot_frame]) (by rw [freeSlot_frame]) hsame rfl
    | fail =>
      have hfree := congrArg Pool.counters (freeSlot_frame p)
      exact .still (congrArg Counters.hits hfree) (congrArg Counters.misses hfree) hsame rfl
    | checkIn =>
      exact .still (by rw [freeSlot_frame]; rfl) (by rw [freeSlot_frame]; rfl) hsame rfl
    | strike hr _ =>
      obtain ⟨hhand, hhits, hmisses⟩ := hr.tally
      exact .still (by rw [strike_eq]; exact hhits _) (by rw [strike_eq]; exact hmisses _) hsame
        hhand
    | pass hr _ | refuseRemoval hr _ =>
      obtain ⟨hhand, hhits, hmisses⟩ := hr.tally
      exact .still (hhits _) (hmisses _) hsame hhand
    | _ => exact .still rfl rfl hsame rfl
  · have hout : Outside p h get := by
      rcases hh with rfl | rfl
      · exact .inr (.inr ⟨_, rfl, .inr rfl⟩)
      · exact .inr (.inr ⟨_, rfl, .inr rfl⟩)
    rcases hh with rfl | rfl
    · cases ha with
      | claim _ _ _ => exact .admitted rfl rfl hnew hout rfl rfl
      | refuseRemoval hr _ => cases hr
    · cases ha with
      | accept _ _ => exact .admitted rfl rfl hnew hout rfl rfl
      | refuseRemoval hr _ => cases hr

/-- Each call that was admitted is counted once, but for the one in hand. -/
structure Tallied (p : Pool) (h : Hand) : Prop where
  once : p.admissions.Nodup
  split : ∃ hits misses : List Nat, p.counters.hits = UInt32.ofNat hits.length ∧
    p.counters.misses = UInt32.ofNat misses.length ∧
    p.admissions.Perm (hits ++ misses ++ h.uncounted)

theorem Tallied.act (hp : Arises o p h) (ht : Tallied p h) (ha : Act p h q k) : Tallied q k := by
  have hnext : ∀ xs : List Nat, UInt32.ofNat xs.length + 1 = UInt32.ofNat (xs.length + 1) :=
    fun xs => (UInt32.ofNat_add _ _).symm
  obtain ⟨hits, misses, hhits, hmisses, hperm⟩ := ht.split
  cases ha.tally hp.sorted with
  | still hhits' hmisses' hadmissions hhand =>
    refine ⟨hadmissions ▸ ht.once, hits, misses, hhits'.trans hhits, hmisses'.trans hmisses, ?_⟩
    rw [hadmissions, hhand]
    exact hperm
  | @admitted get hhits' hmisses' hadmissions hout hh hk =>
    have hnew : get ∉ p.admissions := fun hin => hp.not_admitted hout (mem_admissions_iff.1 hin)
    rw [hh, List.append_nil] at hperm
    refine ⟨?_, hits, misses, hhits'.trans hhits, hmisses'.trans hmisses, ?_⟩
    · rw [hadmissions]
      exact List.nodup_cons.2 ⟨hnew, ht.once⟩
    · rw [hadmissions, hk]
      exact (hperm.cons get).trans (List.perm_append_singleton get _).symm
  | @hit get hhits' hmisses' hadmissions hh hk =>
    rw [hh] at hperm
    refine ⟨hadmissions ▸ ht.once, get :: hits, misses, ?_, hmisses'.trans hmisses, ?_⟩
    · rw [hhits', hhits, hnext]
      rfl
    · rw [hadmissions, hk, List.append_nil]
      exact hperm.trans (List.perm_append_singleton get _)
  | @missed get hhits' hmisses' hadmissions hh hk =>
    rw [hh] at hperm
    refine ⟨hadmissions ▸ ht.once, hits, get :: misses, hhits'.trans hhits, ?_, ?_⟩
    · rw [hmisses', hmisses, hnext]
      rfl
    · rw [hadmissions, hk, List.append_nil]
      exact hperm.trans ((List.perm_append_singleton get _).trans List.perm_middle.symm)

theorem Arises.tallied (hp : Arises o p h) : Tallied p h := by
  induction hp with
  | create dialer now background =>
    have hnone : (Pool.create o dialer now background).admissions = [] := by
      cases background <;> rfl
    refine ⟨?_, [], [], ?_, ?_, ?_⟩
    · rw [hnone]
      exact List.nodup_nil
    · cases background <;> rfl
    · cases background <;> rfl
    · rw [hnone]
      exact List.Perm.refl _
  | act hp ha ih => exact ih.act hp ha
  | next _ ih | mark _ _ _ ih | release _ _ ih => exact ⟨ih.once, ih.split⟩

end PooledRouting.Pool
