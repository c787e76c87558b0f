import PooledRouting.Proofs.Pool.Admissions

/-!
# The ledger of the calls

Every call of `get` is counted as a hit, as a miss, as a timeout, or not at
all, and what it is counted as follows from how it goes:

* as a hit or a miss if it is admitted to a slot, which shows in how it ends
  (`admitted_iff_of_settled`);
* as a timeout if it ends with `timedOut`;
* not at all if it ends otherwise without a slot.  Such a call changes
  nothing that is counted or listed, in any of its turns
  (`Arises.untouched`).

Callers may do whatever they like, `Deed` says what, and so may hooks:
nothing here depends on who marks a connection as held.
-/

namespace PooledRouting.Pool

variable {o : Options} {p q : Pool} {h k : Hand} {n : Nat} {fault : Fault}

/-! ## Runs of any callers -/

theorem Acts.mem_history {e : Event} (hs : Acts p h q k) (he : e ∈ p.history) : e ∈ q.history :=
  hs.invariant (I := fun r _ => e ∈ r.history) he fun he ha => ha.mem_history he

/-- What has happened stays. -/
theorem Arises.mem_history {e : Event} (hp : Arises o p .start) (he : e ∈ p.history)
    (deeds : List Deed) : e ∈ (p.undergoAll deeds).history := by
  induction deeds generalizing p with
  | nil => exact he
  | cons d deeds ih =>
    refine ih (hp.undergo d) ?_
    cases d with
    | mark id inUse => exact he
    | move m =>
      rcases apply_chain hp.hooksKept m with hs | ⟨id, -, hs⟩
      · exact hs.mem_history he
      · exact hs.mem_history (p := p.mark id false) he

/-! ## Who was admitted -/

/-- A call that was admitted was made. -/
theorem Arises.made (hp : Arises o p h) (hin : .admitted n ∈ p.history) :
    0 < n ∧ n ≤ p.getCount := by
  induction hp with
  | create dialer now background => cases background <;> cases hin
  | act hp ha ih =>
    rcases ha.admitted_cases hin with hold | ⟨rfl, -⟩
    · obtain ⟨hpos, hle⟩ := ih hold
      exact ⟨hpos, Nat.le_trans hle ha.later.gets⟩
    · have hone := (hp.act ha).called n
      have hcall : (Hand.admitted n).calls n = 1 := calls_eq_one rfl
      split at hone
      · assumption
      · omega
  | next _ ih | mark _ _ _ ih | release _ _ ih => exact ih hin

theorem Fault.isWithout_of_isRejection (hfault : fault.isRejection = true) :
    fault.isWithout = false := by
  cases fault <;> first | rfl | cases hfault

/-- When nothing can move, the calls that were admitted are those that dial,
those that were served, and those that ended as a call with a slot does. -/
theorem Arises.admitted_iff_of_settled (hp : Arises o p .start) (hsettled : p.Settled) :
    .admitted n ∈ p.history ↔ (∃ d ∈ p.dials, d.caller = .get n) ∨
      (∃ id, .served n id ∈ p.history) ∨
        ∃ fault, .failed n fault ∈ p.history ∧ p.EndsInside n fault := by
  have hsorted := hp.sorted
  constructor
  · intro hin
    have hmade := hp.made hin
    have hone := hp.called n
    have hhand : Hand.calls n .start = 0 := rfl
    rw [if_pos hmade, hhand] at hone
    have hline : p.waits n = 0 := by
      refine List.countP_eq_zero.2 fun w hw hget => ?_
      exact hp.not_admitted (.inr (.inl ⟨w, hw, beq_iff_eq.1 hget⟩)) hin
    have hplace : 0 < p.turns n ∨ 0 < p.endings n := by
      unfold traces at hone
      omega
    rcases hplace with hturn | hend
    · rcases turns_pos_iff.1 hturn with ⟨w, hw, -⟩ | ⟨d, hd, hcall⟩
      · rw [show p.ready = [] from hsettled] at hw
        cases hw
      · exact .inl ⟨d, hd, Caller.call?_eq_some_iff.1 hcall⟩
    · obtain ⟨e, he, hending⟩ := List.countP_pos_iff.1 hend
      cases e with
      | served get id =>
        obtain rfl : get = n := beq_iff_eq.1 hending
        exact .inr (.inl ⟨id, he⟩)
      | failed get fault =>
        obtain rfl : get = n := beq_iff_eq.1 hending
        refine .inr (.inr ⟨fault, he, ?_⟩)
        rcases hsorted.ended get fault he with ⟨-, hfault⟩ | ⟨hnot, -⟩
        · exact hfault
        · exact absurd hin hnot
      | _ => cases hending
  · rintro (⟨d, hd, hcaller⟩ | ⟨id, hserved⟩ | ⟨fault, hfailed, hfault⟩)
    · refine hsorted.inside n (.dialing (List.countP_pos_iff.2 ⟨d.work, ?_, ?_⟩))
      · exact List.mem_append_right _ (List.mem_map_of_mem hd)
      · unfold Dial.work
        rw [hcaller]
        exact beq_self_eq_true _
    · exact hsorted.inside n (.served hserved)
    · rcases hsorted.ended n fault hfailed with ⟨hin, -⟩ | ⟨-, hwithout⟩
      · exact hin
      · rcases hfault with hrejection | ⟨reason, rfl⟩ | rfl | ⟨-, hreach⟩
        · cases hwithout.symm.trans (Fault.isWithout_of_isRejection hrejection)
        · cases hwithout
        · cases hwithout
        · exact hsorted.inside n (.reached hreach)

/-! ## Timeouts -/

/-- The call that ends because it has waited too long. -/
def Event.timeOut? : Event → Option Nat
  | .failed get .timedOut => some get
  | _ => none

/-- The calls that ended with `timedOut`, the latest first. -/
def timedOut (p : Pool) : List Nat :=
  p.history.filterMap Event.timeOut?

theorem mem_timedOut_iff : n ∈ p.timedOut ↔ .failed n .timedOut ∈ p.history := by
  unfold timedOut
  rw [List.mem_filterMap]
  constructor
  · rintro ⟨e, he, htimeOut⟩
    unfold Event.timeOut? at htimeOut
    split at htimeOut
    · cases htimeOut
      exact he
    · cases htimeOut
  · exact fun hin => ⟨_, hin, rfl⟩

theorem length_timedOut (p : Pool) : p.timedOut.length = p.history.countP Event.isTimeOut := by
  unfold timedOut
  rw [List.length_filterMap_eq_countP]
  refine List.countP_congr fun e _ => ?_
  unfold Event.timeOut? Event.isTimeOut
  split <;> simp

/-- A call ends once. -/
theorem Called.nodup_timedOut (hc : Called p h) : p.timedOut.Nodup := by
  rw [List.nodup_iff_count_le_one]
  intro n
  have hcount : p.timedOut.count n ≤ p.endings n := by
    unfold timedOut endings
    rw [List.count_filterMap]
    refine List.countP_mono_left fun e _ htimeOut => ?_
    unfold Event.timeOut? at htimeOut
    split at htimeOut
    · exact htimeOut
    · cases htimeOut
  have hplaces := hc.places_le n
  omega

/-! ## Calls that are not let in -/

/-- The next turn is one of the call. -/
def OwnTurn (p : Pool) (get : Nat) : Prop :=
  ∃ t rest, p.ready = t :: rest ∧ (t.call? = some get ∨ t = .recheck get)

/-- Nothing is counted, listed or dialed from one pool to the other, and no
slot is taken or lost. -/
structure Untouched (p q : Pool) : Prop where
  counters : q.counters = p.counters
  connections : q.connections = p.connections
  tracked : q.tracked = p.tracked
  idle : q.idle = p.idle
  size : q.size = p.size
  idleCount : q.idleCount = p.idleCount
  dials : q.dials = p.dials
  slots : q.offered = p.offered

theorem offered_take {t : Work} {rest : List Work} (hready : p.ready = t :: rest) :
    p.offered = { p with ready := rest }.offered + if t.isHanded then 1 else 0 := by
  unfold offered
  rw [hready, List.countP_cons, Nat.add_assoc]

/-- A turn with no slot in hand that only adds to history or line. -/
theorem untouched_of_ready {t : Work} {rest : List Work} (hready : p.ready = t :: rest)
    (hslot : t.isHanded = false) (line : List Waiting) (history : List Event) :
    Untouched p { p with ready := rest, line := line, history := history } := by
  refine ⟨rfl, rfl, rfl, rfl, rfl, rfl, rfl, ?_⟩
  rw [offered_take hready, hslot]
  rfl

/-- A turn in which a slot that was handed on goes on. -/
theorem untouched_of_handed {t : Work} {rest : List Work} (hready : p.ready = t :: rest)
    (hslot : t.isHanded = true) (get : Nat) (fault : Fault) :
    Untouched p ({ p with ready := rest }.freeSlot.fail get fault) := by
  have hoffered := offered_freeSlot { p with ready := rest }
  have hslots : ({ p with ready := rest }.freeSlot.fail get fault).offered = p.offered := by
    rw [offered_take hready, hslot]
    exact hoffered
  have hframe := freeSlot_frame { p with ready := rest }
  constructor
  case slots => exact hslots
  all_goals
    unfold fail record
    rw [hframe]

theorem admitted_enter (hk : p.HooksKept) (get : Nat) : .admitted get ∈ (p.enter get).history :=
  (enter_acts hk get).mem_history (p := p.record (.admitted get)) List.mem_cons_self

section
variable {rest : List Work}

theorem untouched_arrive (hready : p.ready = .arrive n :: rest) (hk : p.HooksKept)
    (hnot : .admitted n ∉ (arrive { p with ready := rest } n).history)
    (hintime : .failed n .timedOut ∉ (arrive { p with ready := rest } n).history) :
    Untouched p (arrive { p with ready := rest } n) := by
  unfold arrive at hnot hintime ⊢
  split
  · exact untouched_of_ready hready rfl _ _
  rename_i hopen
  rw [if_neg hopen] at hnot hintime
  split
  · exact untouched_of_ready hready rfl _ _
  rename_i hlive
  rw [if_neg hlive] at hnot hintime
  split
  · rename_i hfree
    rw [if_pos hfree] at hnot
    exact absurd (admitted_enter (by exact hk) n) hnot
  rename_i hfull
  rw [if_neg hfull] at hintime
  split
  · rename_i hnow
    rw [if_pos hnow] at hintime
    exact absurd List.mem_cons_self hintime
  · exact untouched_of_ready hready rfl _ _

theorem untouched_resume (hready : p.ready = .admitted n :: rest) (hk : p.HooksKept)
    (hnot : .admitted n ∉ (resume { p with ready := rest } n).history) :
    Untouched p (resume { p with ready := rest } n) := by
  unfold resume at hnot ⊢
  split
  · exact untouched_of_handed hready rfl n _
  rename_i hlive
  rw [if_neg hlive] at hnot
  split
  · exact untouched_of_handed hready rfl n _
  rename_i hopen
  rw [if_neg hopen] at hnot
  exact absurd (admitted_enter (by exact hk) n) hnot

theorem untouched_recheck (hready : p.ready = .recheck n :: rest)
    (hintime : .failed n .timedOut ∉ (recheck { p with ready := rest } n).history) :
    Untouched p (recheck { p with ready := rest } n) := by
  unfold recheck at hintime ⊢
  split
  · exact untouched_of_ready hready rfl _ _
  rename_i w hw
  rw [hw] at hintime
  dsimp only at hintime ⊢
  split
  · exact untouched_of_ready hready rfl _ _
  rename_i hlive
  rw [if_neg hlive] at hintime
  split
  · rename_i hdue
    rw [if_pos hdue] at hintime
    exact absurd List.mem_cons_self hintime
  · exact untouched_of_ready hready rfl _ _

end

/-- A call that is not admitted in its turn, and does not end with `timedOut`
there, leaves everything as it is. -/
theorem Arises.untouched (hp : Arises o p .start) (hown : p.OwnTurn n)
    (hnot : .admitted n ∉ p.step.history) (hintime : .failed n .timedOut ∉ p.step.history) :
    Untouched p p.step := by
  obtain ⟨t, rest, hready, hwho⟩ := hown
  have hstay := turn_acts hp.hooksKept hready
  rw [step_of_ready hready] at hnot hintime ⊢
  cases t with
  | arrive get =>
    obtain rfl : get = n := by simpa [Work.call?] using hwho
    exact untouched_arrive hready hp.hooksKept hnot hintime
  | admitted get =>
    obtain rfl : get = n := by simpa [Work.call?] using hwho
    exact untouched_resume hready hp.hooksKept hnot
  | refused get => exact untouched_of_ready hready rfl _ _
  | recheck get =>
    obtain rfl : get = n := by simpa [Work.call?] using hwho
    exact untouched_recheck hready hintime
  | dialed caller attempt answer =>
    -- Who dials was admitted before.
    have hcall : (Work.dialed caller attempt answer).dialing? = some n := by
      cases caller with
      | get get => simpa [Work.call?, Work.dialing?] using hwho
      | topUp | probe _ => simp [Work.call?] at hwho
    have hin := hready ▸ List.mem_cons_self (a := Work.dialed caller attempt answer) (l := rest)
    have hinside : Inside p .start n :=
      .dialing (List.countP_pos_iff.2 ⟨_, List.mem_append_left _ hin, beq_iff_eq.2 hcall⟩)
    exact absurd (hstay.mem_history (p := { p with ready := rest }) (hp.sorted.inside n hinside))
      (by rwa [step_of_ready hready])
  | topUp | probe _ => simp [Work.call?] at hwho

/-! ## Every run -/

/-- The calls that the pool has counted as hits and as misses are those that
were admitted, each once, and none of them has timed out. -/
structure CountedOnce (p : Pool) (hits misses : List Nat) : Prop where
  hits_eq : p.counters.hits = UInt32.ofNat hits.length
  misses_eq : p.counters.misses = UInt32.ofNat misses.length
  timeouts_eq : p.counters.timeouts = UInt32.ofNat p.timedOut.length
  split : p.admissions.Perm (hits ++ misses)
  once : (hits ++ misses ++ p.timedOut).Nodup

theorem CountedOnce.sum {hits misses : List Nat} (hc : p.CountedOnce hits misses) :
    p.counters.hits + p.counters.misses = UInt32.ofNat p.admissions.length := by
  rw [hc.hits_eq, hc.misses_eq, hc.split.length_eq, List.length_append, UInt32.ofNat_add]

theorem Arises.countedOnce (hp : Arises o p .start) :
    ∃ hits misses, p.CountedOnce hits misses := by
  obtain ⟨hits, misses, hhits, hmisses, hperm⟩ := hp.tallied.split
  rw [show Hand.uncounted .start = [] from rfl, List.append_nil] at hperm
  refine ⟨hits, misses, hhits, hmisses, ?_, hperm, ?_⟩
  · rw [hp.timed.counter, length_timedOut]
  refine List.nodup_append.2
    ⟨hperm.nodup_iff.1 hp.tallied.once, hp.called.nodup_timedOut, fun a ha b hb hab => ?_⟩
  subst hab
  have hin := mem_admissions_iff.1 (hperm.mem_iff.2 ha)
  rcases hp.sorted.ended a _ (mem_timedOut_iff.1 hb) with ⟨-, hfault⟩ | ⟨hnot, -⟩
  · rcases hfault with h | ⟨reason, h⟩ | h | ⟨h, -⟩ <;> cases h
  · exact hnot hin

/-- Whatever callers and hooks do, each call is counted as a hit, as a miss,
as a timeout, or not at all.

* Those that are hits or misses are those that were admitted to a slot.  When
  nothing can move, these are the calls that dial and those that ended as a
  call with a slot ends: with a connection, rejected, with a failed dial, with
  an exhausted pool, or with one that was closed after the dial.
* The timeouts are those that ended with `timedOut`.
* A call that ended otherwise without a slot was cancelled or found the pool
  closed.  It has left everything untouched in each turn that it has had. -/
theorem each_get_counted_once (o : Options) (dialer : Nat → Course) (now : Nat)
    (background : Bool) (deeds : List Deed) :
    let start := create o dialer now background
    let p := start.undergoAll deeds
    (∃ hits misses, p.CountedOnce hits misses) ∧
    p.counters.hits + p.counters.misses = UInt32.ofNat p.admissions.length ∧
    (p.Settled → ∀ n, n ∈ p.admissions ↔ (∃ d ∈ p.dials, d.caller = .get n) ∨
      (∃ id, .served n id ∈ p.history) ∨
        ∃ fault, .failed n fault ∈ p.history ∧ p.EndsInside n fault) ∧
    ∀ n fault, .failed n fault ∈ p.history → n ∉ p.admissions → n ∉ p.timedOut →
      (fault = .cancelled ∨ fault = .closed) ∧
        ∀ earlier later, deeds = earlier ++ .move .turn :: later →
          (start.undergoAll earlier).OwnTurn n →
            Untouched (start.undergoAll earlier) (start.undergoAll earlier).step := by
  intro start p
  have hstart : Arises o start .start := .create dialer now background
  have hp : Arises o p .start := hstart.undergoAll deeds
  obtain ⟨hits, misses, hcounted⟩ := hp.countedOnce
  refine ⟨⟨hits, misses, hcounted⟩, hcounted.sum, fun hsettled n => ?_,
    fun n fault hfailed hnot hintime => ⟨?_, fun earlier later hdeeds hown => ?_⟩⟩
  · rw [mem_admissions_iff]
    exact hp.admitted_iff_of_settled hsettled
  · rw [mem_admissions_iff] at hnot
    rw [mem_timedOut_iff] at hintime
    rcases hp.sorted.ended n fault hfailed with ⟨hin, -⟩ | ⟨-, hfault⟩
    · exact absurd hin hnot
    · cases fault with
      | cancelled => exact .inl rfl
      | closed => exact .inr rfl
      | timedOut => exact absurd hfailed hintime
      | _ => cases hfault
  · -- What happens in the turn is still in the history at the end.
    have hbefore := hstart.undergoAll earlier
    have hlast : ∀ e ∈ (start.undergoAll earlier).step.history, e ∈ p.history := by
      intro e he
      have hp_eq : p = (start.undergoAll earlier).step.undergoAll later := by
        show start.undergoAll deeds = _
        rw [hdeeds, undergoAll_append]
        rfl
      rw [hp_eq]
      exact (hbefore.apply .turn).mem_history he later
    exact hbefore.untouched hown (fun hin => hnot (mem_admissions_iff.2 (hlast _ hin)))
      fun hin => hintime (mem_timedOut_iff.2 (hlast _ hin))

/-- The first call dials, the second is cancelled, the third waits too long,
the fourth has the idle connection, and the pool is closed while the fifth
waits for a slot. -/
theorem each_get_counted_once_five_calls :
    let o : Options := { poolSize := 1, minIdle := 0, poolTimeout := 100 }
    let start := create o (fun _ => .answer 0 none) 0 true
    let deeds : List Deed :=
      [.move (.get false), .move .turn, .move (.get true), .move .turn, .move (.get false),
        .move .turn, .move (.fire 100), .move .turn, .move (.release (.dialed 1)),
        .move (.get false), .move .turn, .mark (.dialed 1) false, .move (.get false), .move .turn,
        .move .close, .move .turn]
    let p := start.undergoAll deeds
    (p.Settled ∧ p.admissions = [4, 1] ∧ p.timedOut = [3] ∧ p.counters.hits = 1 ∧
      p.counters.misses = 1 ∧ p.counters.timeouts = 1 ∧ .failed 5 .closed ∈ p.history) ∧
    (∃ hits misses, p.CountedOnce hits misses) ∧
    (∃ id, .served 4 id ∈ p.history) ∧
    (start.undergoAll (deeds.take 15)).OwnTurn 5 ∧
    Untouched (start.undergoAll (deeds.take 15)) (start.undergoAll (deeds.take 15)).step := by
  intro o start deeds p
  have hsettled : p.Settled := by decide +kernel
  have hadmissions : p.admissions = [4, 1] := by decide +kernel
  have htimedOut : p.timedOut = [3] := by decide +kernel
  have hclosed : .failed 5 .closed ∈ p.history := by decide +kernel
  have hown : (start.undergoAll (deeds.take 15)).OwnTurn 5 :=
    ⟨.refused 5, [], by decide +kernel, .inl rfl⟩
  obtain ⟨hcounted, -, hadmitted, hrest⟩ :=
    each_get_counted_once o (fun _ => .answer 0 none) 0 true deeds
  refine ⟨⟨hsettled, hadmissions, htimedOut, by decide +kernel, by decide +kernel,
    by decide +kernel, hclosed⟩, hcounted, ?_, hown, ?_⟩
  · have hin : 4 ∈ p.admissions := by
      rw [hadmissions]
      exact List.mem_cons_self
    rcases (hadmitted hsettled 4).1 hin with ⟨d, hd, -⟩ | hserved | ⟨fault, hfailed, -⟩
    · have hnone : p.dials = [] := by decide +kernel
      rw [hnone] at hd
      cases hd
    · exact hserved
    · have hnone : ∀ e ∈ p.history, e.call? = some 4 → e.isEnding 4 = true →
          e = .served 4 (.dialed 1) := by decide +kernel
      cases hnone _ hfailed rfl rfl
  · exact (hrest 5 .closed hclosed (by rw [hadmissions]; decide)
      (by rw [htimedOut]; decide)).2 (deeds.take 15) [] rfl hown

end PooledRouting.Pool
