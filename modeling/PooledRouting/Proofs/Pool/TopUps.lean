import PooledRouting.Proofs.Pool.Caps
import PooledRouting.Proofs.Pool.Circuit

/-!
# Pools that stay warm

A pool is warm if it has its minimum of idle connections, those included
that are still being dialed, or has as many connections as its options
allow.  It looks for missing ones when a connection leaves a list, and
starts as many top-ups as it has free slots.  If it has none it starts
none, and when slots come free later it does not look again: a `release`
looks while the checkout still has its slot, so a pool with one slot
forgets the top-up for a connection that came back closed
(`forgotten_top_up`).

A pool stays warm if no look finds too few slots.  That is so when fewer
connections are allowed than there are slots: each connection has at most
one slot, the task that looks has at most one more, and nobody ever waits
(`Unqueued`).  With dials that do not fail, nothing but the step before a
look makes such a pool colder (`Act.size_mono`), which gives `stays_warm`.
-/

namespace PooledRouting.Pool

/-- There are as many idle connections as the options ask for, or as many
connections as they allow. -/
def Warm (p : Pool) : Prop :=
  p.options.topUpLimit ≤ p.size ∨ p.options.minIdle ≤ p.idleCount

instance (p : Pool) : Decidable p.Warm := by
  unfold Warm
  infer_instance

/-- A connection was closed by its holder and is given back.  The look for
top-ups finds no free slot; a moment later there is one, nothing is left
to move, and the minimum of one idle connection is not kept. -/
theorem forgotten_top_up :
    let o : Options := { poolSize := 1, minIdle := 1, maxActive := 0 }
    let p := (create o (fun _ => .answer 0 none) 0 true).after
      [.turn, .get false, .turn, .closeConnection (.dialed 1), .release (.dialed 1)]
    0 < o.minIdle ∧ p.Settled ∧ p.tasks = [] ∧ p.closed = false ∧ p.lastDialFault = none ∧
      0 < p.slots ∧ ¬p.Warm := by
  decide +kernel

variable {p q : Pool} {h k : Hand} {id : ConnectionId}

/-- The pool is about to look for top-ups. -/
def Hand.Looks : Hand → Prop
  | .looking _ => True
  | _ => False

/-! ## While no dial has failed -/

/-- What is noted of dials changes with a failure, which is noted for good,
or with a success, which starts the count of failures again. -/
theorem Act.dialNotes_cases (ha : Act p h q k) :
    q.lastDialFault ≠ none ∨ q.lastDialFault = p.lastDialFault ∧
      (q.dialFailures = p.dialFailures ∨ q.dialFailures = 0) := by
  have hsame : p.lastDialFault = p.lastDialFault ∧
      (p.dialFailures = p.dialFailures ∨ p.dialFailures = 0) := ⟨rfl, .inl rfl⟩
  cases ha with
  | cancel get =>
    rw [cancel_frame]
    exact .inr hsame
  | resolve attempt fault =>
    rw [resolve_frame]
    exact .inr hsame
  | closeConnection _ _ | shutNext _ | retire _ =>
    rw [closeConnection_frame]
    exact .inr hsame
  | adopt _ | adoptIdle _ | probeReached => exact .inr ⟨rfl, .inr rfl⟩
  | adoptLate _ | adoptIdleLate _ =>
    rw [closeConnection_frame]
    exact .inr ⟨rfl, .inr rfl⟩
  | dialFailed _ | topUpFailed =>
    unfold lowerSize
    rw [noteDialFailure_frame]
    exact .inl nofun
  | dialFailedLate _ =>
    rw [noteDialFailure_frame]
    exact .inl nofun
  | probeGaveUp _ | probeAgain _ _ | probeNap _ _ _ => exact .inl nofun
  | finish | fail | checkIn =>
    rw [freeSlot_frame]
    exact .inr hsame
  | strike _ _ =>
    rw [strike_eq]
    exact .inr hsame
  | _ => exact .inr hsame

theorem Act.lastDialFault_eq_none (ha : Act p h q k) (hq : q.lastDialFault = none) :
    p.lastDialFault = none := by
  rcases ha.dialNotes_cases with hfault | ⟨hfault, -⟩
  · exact absurd hq hfault
  · exact hfault.symm.trans hq

variable {o : Options}

theorem Occurs.dialFailures_eq_zero (hp : Occurs o p h) (hunfailed : p.lastDialFault = none) :
    p.dialFailures = 0 := by
  induction hp with
  | create dialer now background => cases background <;> rfl
  | act _ ha ih =>
    have hbefore := ih (ha.lastDialFault_eq_none hunfailed)
    rcases ha.dialNotes_cases with hfault | ⟨-, hcount | hcount⟩
    · exact absurd hunfailed hfault
    · exact hcount.trans hbefore
    · exact hcount
  | next _ ih => exact ih hunfailed
  | giveBack _ _ ih => exact ih hunfailed

/-- An open pool whose dials do not fail becomes colder by what is followed
by a look, and by nothing else. -/
theorem Act.size_mono (ha : Act p h q k) (hopen : q.closed = false)
    (hunfailed : q.lastDialFault = none) (hcircuit : p.circuitOpen = false) :
    k.Looks ∨ p.size ≤ q.size ∧ p.idleCount ≤ q.idleCount := by
  have hsame : p.size ≤ p.size ∧ p.idleCount ≤ p.idleCount := ⟨Nat.le_refl _, Nat.le_refl _⟩
  cases ha with
  | cancel get =>
    rw [cancel_frame]
    exact .inr hsame
  | resolve attempt fault =>
    rw [resolve_frame]
    exact .inr hsame
  | closeConnection _ _ | shutNext _ | retire _ | adoptLate _ | adoptIdleLate _ =>
    rw [closeConnection_frame]
    exact .inr hsame
  | shutDown _ => cases hopen
  | pick _ _ | strike _ _ => exact .inl trivial
  | look => exact .inr ⟨Nat.le_add_right _ _, Nat.le_add_right _ _⟩
  | reserve _ _ _ => exact .inr ⟨Nat.le_succ _, Nat.le_refl _⟩
  | keep _ _ _ _ => exact .inr ⟨Nat.le_refl _, Nat.le_succ _⟩
  | dialFailed _ | topUpFailed =>
    unfold lowerSize at hunfailed
    rw [noteDialFailure_frame] at hunfailed
    cases hunfailed
  | dialFailedLate _ =>
    rw [noteDialFailure_frame] at hunfailed
    cases hunfailed
  | topUpDenied _ hdenied => cases hdenied.symm.trans hcircuit
  | finish | fail | checkIn =>
    rw [freeSlot_frame]
    exact .inr hsame
  | _ => exact .inr hsame

/-! ## While nobody waits -/

/-- No `get` waits for a slot, and none was handed one. -/
structure Unqueued (p : Pool) : Prop where
  line : p.line = []
  ready : ∀ get, .admitted get ∉ p.ready

/-- Tasks that come in without a slot change nothing. -/
theorem Unqueued.of_append (hu : Unqueued p) {ws : List Work} (hline : q.line = p.line)
    (hready : q.ready = p.ready ++ ws) (hws : ∀ get, .admitted get ∉ ws) : Unqueued q := by
  refine ⟨hline.trans hu.line, fun get hin => ?_⟩
  rw [hready] at hin
  rcases List.mem_append.1 hin with hold | hnew
  · exact hu.ready get hold
  · exact hws get hnew

theorem Unqueued.freeSlot (hu : Unqueued p) : Unqueued p.freeSlot := by
  rcases freeSlot_cases p with ⟨-, hfree⟩ | ⟨w, rest, hline, -⟩
  · rw [hfree]
    exact ⟨hu.line, hu.ready⟩
  · cases hline.symm.trans hu.line

theorem Unqueued.noteDialFailure (hu : Unqueued p) (reason : String) :
    Unqueued (p.noteDialFailure reason) := by
  rcases noteDialFailure_cases p reason with hnote | ⟨-, -, hnote⟩
  · rw [hnote]
    exact ⟨hu.line, hu.ready⟩
  · rw [hnote]
    exact hu.of_append rfl rfl (by simp)

theorem Unqueued.cancel (hu : Unqueued p) (get : Nat) : Unqueued (p.cancel get) := by
  unfold Pool.cancel
  split
  · exact hu
  · dsimp only
    split
    · exact hu.of_append rfl rfl (by simp)
    · exact ⟨hu.line, hu.ready⟩

theorem Unqueued.resolve (hu : Unqueued p) (attempt : Nat) (fault : Option String) :
    Unqueued (p.resolve attempt fault).2 := by
  unfold Pool.resolve
  split
  · exact hu
  · exact hu.of_append rfl rfl (by simp)

/-- The clock hands nobody a slot. -/
theorem Unqueued.fire (hu : Unqueued p) (time : Nat) : Unqueued (p.fire time) := by
  obtain ⟨due, hready, hdue⟩ := ready_fire p time
  refine hu.of_append rfl hready fun get hin => ?_
  rcases hdue _ hin with ⟨v, -, hw⟩ | ⟨tries, hw⟩ | ⟨caller, attempt, fault, hw⟩
  · cases hw
  · cases hw
  · cases hw

/-- Neither does a shutdown. -/
theorem Unqueued.shutDown (hu : Unqueued p) : Unqueued p.shutDown := by
  refine ⟨rfl, fun get hin => ?_⟩
  simp only [Pool.shutDown, List.mem_append, List.mem_map, reduceCtorEq, and_false, exists_false,
    or_false] at hin
  rcases hin with hold | hturn
  · exact hu.ready get hold
  · obtain ⟨tries, hw⟩ := eq_probe_of_mem_probeTurns hturn
    cases hw

/-- Nobody waits as long as every `get` that arrives finds a free slot. -/
theorem Unqueued.act (hu : Unqueued p)
    (hroom : ∀ get, h = .work (.arrive get) → p.closed = false → 0 < p.slots) (ha : Act p h q k) :
    Unqueued q := by
  cases ha with
  | get cancelled => exact hu.of_append rfl rfl (by simp)
  | cancel get => exact hu.cancel get
  | resolve attempt fault => exact hu.resolve attempt fault
  | fire ms => exact hu.fire _
  | shutDown _ => exact hu.shutDown
  | closeConnection _ _ | shutNext _ | retire _ | adoptLate _ | adoptIdleLate _ =>
    rw [closeConnection_frame]
    exact ⟨hu.line, hu.ready⟩
  | take hready =>
    refine ⟨hu.line, fun get hin => hu.ready get ?_⟩
    rw [hready]
    exact List.mem_cons_of_mem _ hin
  | join hopen _ hnone _ =>
    have hpos := hroom _ rfl hopen
    omega
  | giveUp _ _ | timeOut _ =>
    refine ⟨?_, hu.ready⟩
    show p.line.filter _ = []
    rw [hu.line]
    rfl
  | dialFailed _ =>
    rename_i reason _
    exact ⟨(hu.noteDialFailure reason).line, (hu.noteDialFailure reason).ready⟩
  | topUpFailed =>
    rename_i reason
    exact ⟨(hu.noteDialFailure reason).line, (hu.noteDialFailure reason).ready⟩
  | dialFailedLate _ => exact hu.noteDialFailure _
  | probeAgain _ _ => exact hu.of_append rfl rfl (by simp)
  | finish => exact hu.freeSlot
  | fail => exact ⟨hu.freeSlot.line, hu.freeSlot.ready⟩
  | checkIn => exact Unqueued.freeSlot (p := p.count Counters.checkIn) ⟨hu.line, hu.ready⟩
  | look => exact hu.of_append rfl rfl fun get hin => nomatch List.eq_of_mem_replicate hin
  | strike _ _ =>
    rw [strike_eq]
    exact ⟨hu.line, hu.ready⟩
  | _ => exact ⟨hu.line, hu.ready⟩

theorem Unqueued.admittedGets_eq (hu : Unqueued p) : p.admittedGets = p.getDials := by
  refine List.countP_congr fun w hw => ?_
  cases w with
  | admitted get =>
    rcases List.mem_append.1 hw with hin | hin
    · exact absurd hin (hu.ready get)
    · obtain ⟨d, -, hd⟩ := List.mem_map.1 hin
      cases hd
  | dialed caller attempt fault => cases caller <;> simp [Work.isAdmitted, Work.isGetDial]
  | _ => simp [Work.isAdmitted, Work.isGetDial]

/-- The slots that are neither free nor in hand have connections of their
own, tracked ones or ones to come. -/
theorem Unqueued.poolSize_le (hu : Unqueued p) (hs : Slotted p h)
    (hb : Booked p h.places h.idlePlaces) (hr : p.Roster) (hn : p.Unique)
    (hopen : p.closed = false) : p.options.poolSize ≤ p.slots + p.size + h.slots := by
  have hslots := hs.conserved
  have hsize := hb.size hopen
  have hheld := hr.inUseCount_le hn hopen
  have hadmitted := hu.admittedGets_eq
  unfold busySlots at hslots
  unfold reserved at hsize
  omega

theorem Occurs.poolSize_le (hp : Occurs o p h) (ho : o.Unmarking) (hu : Unqueued p)
    (hopen : p.closed = false) : o.poolSize ≤ p.slots + p.size + h.slots := by
  have hle := hu.poolSize_le (hp.slotted ho) hp.booked (hp.roster ho) hp.unique hopen
  rw [hp.options_eq] at hle
  exact hle

/-- Nobody waits for a slot if fewer connections are allowed than there are
slots. -/
theorem Occurs.unqueued (hp : Occurs o p h) (ho : o.Unmarking) (hpos : 0 < o.maxActive)
    (hlt : o.maxActive < o.poolSize) : Unqueued p := by
  induction hp with
  | create dialer now background =>
    have hnew : Unqueued (Pool.create o dialer now false) := ⟨rfl, nofun⟩
    cases background with
    | false => exact hnew
    | true => exact hnew.of_append rfl rfl fun get hin => nomatch List.eq_of_mem_replicate hin
  | act hp ha ih =>
    refine ih.act (fun get hwork hopen => ?_) ha
    subst hwork
    have hslots := hp.poolSize_le ho ih hopen
    have hactive := (hp.capped ho).active
    rw [hp.options_eq] at hactive
    have hsize := hactive hpos
    have hhand : (Hand.work (.arrive get)).slots = 0 := rfl
    omega
  | next _ ih => exact ih
  | giveBack _ _ ih => exact ⟨ih.line, ih.ready⟩

/-! ## Looks -/

/-- A look with enough slots leaves the pool warm. -/
theorem warm_topUp (hopen : p.closed = false) (hroom : p.options.topUpLimit ≤ p.slots + p.size) :
    p.topUp.Warm := by
  have hstarts : p.options.minIdle = 0 ∨
      p.topUpRoom = min p.slots (min (p.options.topUpLimit - p.size)
        (p.options.minIdle - p.idleCount)) := by
    unfold topUpRoom
    by_cases hnone : p.options.minIdle = 0
    · exact .inl hnone
    · rw [if_neg (by simp [hnone, hopen])]
      exact .inr rfl
  show p.options.topUpLimit ≤ p.size + p.topUpRoom ∨
    p.options.minIdle ≤ p.idleCount + p.topUpRoom
  omega

/-- An open pool none of whose dials has failed is warm, unless it is about
to look. -/
def Tended (p : Pool) (h : Hand) : Prop :=
  p.closed = false → p.lastDialFault = none → h.Looks ∨ p.Warm

theorem Tended.act (ht : Tended p h) (hcircuit : p.lastDialFault = none → p.dialFailures = 0)
    (hroom : h.Looks → p.closed = false → p.options.topUpLimit ≤ p.slots + p.size)
    (ha : Act p h q k) : Tended q k := by
  intro hopen hunfailed
  have hbefore := ha.lastDialFault_eq_none hunfailed
  have hopenBefore : p.closed = false := by
    rw [Bool.eq_false_iff] at hopen ⊢
    exact fun hclosed => hopen (ha.later.closed hclosed)
  by_cases hlooks : h.Looks
  · -- Whatever else happens first, the look comes.
    cases ha with
    | touch _ _ | closeConnection _ _ => exact .inl hlooks
    | look => exact .inr (warm_topUp hopenBefore (hroom hlooks hopenBefore))
    | strike hr _ | pass hr _ | refuseRemoval hr _ => cases hr <;> cases hlooks
    | _ => cases hlooks
  · have hwarm := (ht hopenBefore hbefore).resolve_left hlooks
    have hclosed := circuitOpen_of_dialFailures (hcircuit hbefore)
    rcases ha.size_mono hopen hunfailed hclosed with hnext | ⟨hsize, hidle⟩
    · exact .inl hnext
    · right
      unfold Warm at hwarm ⊢
      rw [ha.later.options]
      omega

theorem tended_lasting (ho : o.Unmarking) (hpos : 0 < o.maxActive)
    (hlt : o.maxActive < o.poolSize) : Lasting o Tended where
  act hp ht ha := by
    rename_i p q h k
    refine ht.act hp.dialFailures_eq_zero (fun _ hopen => ?_) ha
    have hslots := hp.poolSize_le ho (hp.unqueued ho hpos hlt) hopen
    have hlimit := topUpLimit_le_maxActive hpos
    have hhand := h.slots_le_one
    rw [hp.options_eq]
    omega
  next ht := ht
  giveBack _ _ ht := ht

/-- If fewer connections are allowed than there are slots, a pool that tops
up from the start and none of whose dials has failed is warm whenever it is
open: it has its minimum of idle connections, ready or on their way, or has
as many connections as are allowed. -/
theorem stays_warm (ho : o.Unmarking) (hpos : 0 < o.maxActive) (hlt : o.maxActive < o.poolSize)
    (dialer : Nat → Course) (now : Nat) (moves : List Move) :
    let p := (create o dialer now true).after moves
    p.closed = false → p.lastDialFault = none →
      min o.poolSize o.maxActive ≤ p.size ∨ o.minIdle ≤ p.idleCount := by
  intro p hopen hunfailed
  have hnew := Reachable.create (o := o) dialer now true
  have hstart : Tended (create o dialer now true) .start := fun _ _ => .inr
    (warm_topUp rfl (Nat.le_trans o.topUpLimit_le_poolSize (Nat.le_add_right _ _)))
  have hwarm := ((tended_lasting ho hpos hlt).after hnew.occurs hstart moves hopen
    hunfailed).resolve_left fun hlooks => hlooks
  unfold Warm at hwarm
  rw [(hnew.after moves).occurs.options_eq] at hwarm
  unfold Options.topUpLimit at hwarm
  rw [if_pos hpos] at hwarm
  exact hwarm

/-- The run of `forgotten_top_up` in a pool with a slot more. -/
theorem stays_warm_after_release :
    let o : Options := { poolSize := 2, minIdle := 1, maxActive := 1 }
    let p := (create o (fun _ => .answer 0 none) 0 true).after
      [.turn, .get false, .turn, .closeConnection (.dialed 1), .release (.dialed 1)]
    0 < o.maxActive ∧ o.maxActive < o.poolSize ∧ p.closed = false ∧ p.lastDialFault = none ∧
      (min o.poolSize o.maxActive ≤ p.size ∨ o.minIdle ≤ p.idleCount) :=
  ⟨by decide, by decide, by decide +kernel, by decide +kernel,
    stays_warm (Options.unmarking_of_nil rfl) (by decide) (by decide) _ _ _ (by decide +kernel)
      (by decide +kernel)⟩

end PooledRouting.Pool
