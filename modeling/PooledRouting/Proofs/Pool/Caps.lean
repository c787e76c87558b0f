import Mathlib.Data.List.Perm.Subperm
import PooledRouting.Proofs.Pool.Bookkeeping
import PooledRouting.Proofs.Pool.Slots

/-!
# The cap on connections

An open pool never has more connections than it has slots, those included
that are still being dialed, and never more than `maxActive` if that is
not zero.

The second bound is checked before each dial.  The first is checked by
nobody on behalf of a `get`: it holds because a `get` dials only when it
found no idle connection.  At that moment every tracked connection is held
(`Placed`), so all connections have slots of their own, and the `get` has
one more.  `Act.size_cases` says that nothing else but a top-up makes a
pool larger.

`connections_capped` is the law for the states between two turns.
-/

namespace PooledRouting.Pool

variable {p q : Pool} {h k : Hand} {id : ConnectionId}

/-! ## Where a tracked connection is -/

/-- Where a tracked connection is that nobody holds: on the idle list or
in hand.  A `get` that missed has found the list empty. -/
def Hand.Rests (p : Pool) (id : ConnectionId) : Hand → Prop
  | .missed _ => False
  | .picked _ other | .holding _ other => id ∈ p.idle ∨ other = id
  | .retiring _ next | .looking next => next.Rests p id
  | _ => id ∈ p.idle

/-- A tracked connection of an open pool is held or at rest. -/
def Placed (p : Pool) (h : Hand) : Prop :=
  p.closed = false → ∀ id ∈ p.tracked, p.isInUse id = true ∨ h.Rests p id

theorem Hand.Rests.congr (hr : h.Rests p id) (hidle : q.idle = p.idle) : h.Rests q id := by
  induction h with
  | picked get other =>
    unfold Hand.Rests
    rw [hidle]
    exact hr
  | holding get? other =>
    unfold Hand.Rests
    rw [hidle]
    exact hr
  | retiring other next ih => exact ih hr
  | looking next ih => exact ih hr
  | missed get => exact hr
  | _ =>
    unfold Hand.Rests
    rw [hidle]
    exact hr

theorem nextIdle?_eq_none_iff : p.nextIdle? = none ↔ p.idle = [] := by
  unfold nextIdle?
  cases p.options.fifo with
  | true => cases p.idle <;> simp
  | false => simp

/-- A retirement leaves no connection in hand but the one that goes. -/
theorem Retires.rests {f : Counters → Counters} (hr : Retires p id h f k)
    {other : ConnectionId} (hrest : h.Rests p other) (hne : other ≠ id) :
    other ∈ p.idle ∧ ∀ r : Pool, other ∈ r.idle → k.Rests r other := by
  cases hr with
  | removed _ => exact ⟨hrest, fun _ hin => hin⟩
  | expired _ | invalid _ | stale _ _ _ _ | late _ =>
    exact ⟨hrest.resolve_right fun he => hne he.symm, fun _ hin => hin⟩

theorem Placed.act (hp : Placed p h) (hr : p.Roster) (hf : h.Fits p)
    (ho : p.options.Unmarking) (ha : Act p h q k) : Placed q k := by
  have hmarks : ∀ id, p.isInUse id = true → q.isInUse id = true :=
    fun _ => ha.isInUse_mono hf ho
  -- Most acts leave the lists alone.
  have hstill : q.closed = p.closed → q.tracked = p.tracked →
      (∀ id, h.Rests p id → k.Rests q id) → Placed q k := by
    intro hclosed htracked hrests hopen other hin
    rw [hclosed] at hopen
    rw [htracked] at hin
    exact (hp hopen other hin).imp (hmarks other) (hrests other)
  cases ha with
  | cancel get =>
    rw [cancel_frame]
    exact hp
  | resolve attempt fault =>
    rw [resolve_frame]
    exact hp
  | addForeign maxLifetime => exact hstill rfl rfl fun _ hrest => hrest
  | touch _ _ | look => exact hstill rfl rfl fun _ hrest => hrest.congr rfl
  | closeConnection _ id =>
    have hframe := closeConnection_frame p id
    exact hstill (by rw [hframe]) (by rw [hframe]) fun _ hrest => hrest.congr (by rw [hframe])
  | shutDown _ => exact nofun
  | shutNext _ =>
    rename_i id ids _
    have hframe := closeConnection_frame p id
    exact hstill (by rw [hframe]) (by rw [hframe]) fun other hrest =>
      Hand.Rests.congr (h := .closing ids) hrest (by rw [hframe])
  | pick _ hnext =>
    rename_i get id rest
    have hperm := nextIdle?_perm hnext
    refine hstill rfl rfl fun other hrest => ?_
    rcases List.mem_cons.1 (hperm.mem_iff.1 hrest) with heq | hin
    · exact .inr heq.symm
    · exact .inl hin
  | miss _ hnext =>
    -- Nothing is idle, so every tracked connection is held.
    rw [nextIdle?_eq_none_iff] at hnext
    refine hstill rfl rfl fun other hrest => ?_
    have hnone : other ∈ p.idle := hrest
    rw [hnext] at hnone
    exact nomatch hnone
  | noDial _ | reserve _ _ _ => exact hstill rfl rfl fun _ hrest => hrest.elim
  | adopt _ =>
    rename_i get attempt hopen
    intro _ other hin
    rcases List.mem_append.1 hin with hold | hnew
    · exact (hp hopen other hold).imp (hmarks other) .inl
    · exact .inr (.inr (List.mem_singleton.1 hnew).symm)
  | adoptIdle _ =>
    rename_i attempt hopen
    intro _ other hin
    rcases List.mem_append.1 hin with hold | hnew
    · exact (hp hopen other hold).imp (hmarks other) (List.mem_append_left _)
    · exact .inr (List.mem_append_right _ hnew)
  | adoptLate hclosed | adoptIdleLate hclosed =>
    intro hopen
    rw [closeConnection_frame] at hopen
    cases hclosed.symm.trans hopen
  | dialFailed _ | topUpFailed =>
    unfold lowerSize
    rw [noteDialFailure_frame]
    exact hp
  | dialFailedLate _ =>
    rw [noteDialFailure_frame]
    exact hp
  | finish | fail | checkIn =>
    rw [freeSlot_frame]
    exact hp
  | mark hmark => exact absurd ho hmark
  | putBack _ _ => exact hstill rfl rfl fun _ hrest => hrest
  | serve hc hclosed hvalid =>
    rename_i get id c
    have hserves : Serves p get id (.holding (some get) id) _ .done := .serve hc hclosed hvalid
    intro hopen other hin
    rcases hp hopen other hin with hheld | hidle | heq
    · exact .inl (hmarks other hheld)
    · exact .inr hidle
    · exact .inl (heq ▸ hserves.isInUse)
  | keep _ _ _ _ =>
    refine hstill rfl rfl fun other hrest => ?_
    rcases hrest with hin | heq
    · exact List.mem_append_left _ hin
    · exact List.mem_append_right _ (List.mem_singleton.2 heq.symm)
  | strike hret _ =>
    rename_i id k f _
    rw [strike_eq] at hmarks ⊢
    intro hopen other hin
    obtain ⟨hne, hin⟩ := hr.tracked_nodup.mem_erase_iff.1 hin
    refine (hp hopen other hin).imp (hmarks other) fun hrest => ?_
    obtain ⟨hidle, hnext⟩ := hret.rests hrest hne
    exact hnext _ ((List.mem_erase_of_ne hne).2 hidle)
  | pass hret hgone =>
    rename_i id k f
    intro hopen other hin
    refine (hp hopen other hin).imp (hmarks other) fun hrest => ?_
    have hne : other ≠ id := by
      rintro rfl
      exact hgone hin
    obtain ⟨hidle, hnext⟩ := hret.rests hrest hne
    exact hnext _ hidle
  | refuseRemoval hret hheld => cases hheld.symm.trans (hret.fits hf).1
  | retire _ =>
    rename_i id _
    have hframe := closeConnection_frame p id
    exact hstill (by rw [hframe]) (by rw [hframe]) fun other hrest =>
      Hand.Rests.congr (h := k) hrest (by rw [hframe])
  | _ => exact hp

theorem Placed.giveBack (hp : Placed p .start) (id : ConnectionId) :
    Placed (p.mark id false) (.holding none id) := by
  intro hopen other hin
  rw [isInUse_mark_false]
  by_cases hne : other = id
  · exact .inr (.inr hne.symm)
  · rcases hp hopen other hin with hheld | hidle
    · left
      simp [hheld, hne]
    · exact .inr (.inl hidle)

variable {o : Options}

theorem Occurs.placed (hp : Occurs o p h) (ho : o.Unmarking) : Placed p h := by
  induction hp with
  | create dialer now background => cases background <;> exact nofun
  | act hp ha ih => exact ih.act (hp.roster ho) (hp.fits ho) (hp.options_eq ▸ ho) ha
  | next _ ih => exact ih
  | giveBack _ _ ih => exact ih.giveBack _

/-- A `get` that found no idle connection finds all of them held. -/
theorem Placed.length_le {get : Nat} (hp : Placed p (.missed get)) (hr : p.Roster)
    (hu : p.Unique) (hopen : p.closed = false) : p.tracked.length ≤ p.inUseCount := by
  have hheld : p.tracked ⊆ p.held := by
    intro id hin
    rw [mem_held_iff hu]
    exact (hp hopen id hin).resolve_right fun hrest => hrest
  rw [inUseCount_eq]
  exact (List.subperm_of_subset hr.tracked_nodup hheld).length_le

/-- Every held connection of an open pool is tracked. -/
theorem Roster.inUseCount_le (hr : p.Roster) (hu : p.Unique) (hopen : p.closed = false) :
    p.inUseCount ≤ p.tracked.length := by
  have htracked : p.held ⊆ p.tracked := fun id hin =>
    hr.inUse_tracked hopen id ((mem_held_iff hu).1 hin)
  rw [inUseCount_eq]
  exact (List.subperm_of_subset (held_nodup hu) htracked).length_le

/-! ## What makes a pool larger -/

theorem ordinaryDials_le_reserved (p : Pool) : p.ordinaryDials ≤ p.reserved := by
  unfold ordinaryDials reserved getDials topUps
  induction p.tasks with
  | nil => simp
  | cons w ws ih =>
    have hw : (if w.isOrdinaryDial then 1 else 0) ≤
        (if w.isGetDial then 1 else 0) + if w.isTopUp then 1 else 0 := by
      cases w with
      | dialed caller attempt fault =>
        cases caller <;> simp [Work.isOrdinaryDial, Work.isGetDial, Work.isTopUp]
      | _ => simp [Work.isOrdinaryDial]
    simp only [List.countP_cons]
    omega

theorem getDials_le_admittedGets (p : Pool) : p.getDials ≤ p.admittedGets := by
  refine List.countP_mono_left fun w _ hw => ?_
  cases w with
  | dialed caller attempt fault => cases caller <;> simp_all [Work.isGetDial, Work.isAdmitted]
  | _ => simp [Work.isGetDial] at hw

/-- A look never fills a pool beyond the limit of its options. -/
theorem size_topUp_le (p : Pool) : p.topUp.size ≤ max p.size p.options.topUpLimit := by
  have hroom : p.topUpRoom ≤ p.options.topUpLimit - p.size := by
    unfold topUpRoom
    split
    · exact Nat.zero_le _
    · omega
  show p.size + p.topUpRoom ≤ _
  omega

/-- A pool becomes larger by the place for the dial of a `get` that found
nothing, or by top-ups, and in no other way. -/
theorem Act.size_cases (ha : Act p h q k) :
    q.size ≤ p.size ∨ q.size ≤ max p.size p.options.topUpLimit ∨
      (∃ get, h = .missed get) ∧ p.closed = false ∧
        ¬(p.options.maxActive > 0 ∧ p.options.maxActive ≤ p.size) ∧ q.size = p.size + 1 := by
  cases ha with
  | reserve hopen hroom _ => exact .inr (.inr ⟨⟨_, rfl⟩, hopen, hroom, rfl⟩)
  | look => exact .inr (.inl (size_topUp_le p))
  | cancel get =>
    rw [cancel_frame]
    exact .inl (Nat.le_refl _)
  | resolve attempt fault =>
    rw [resolve_frame]
    exact .inl (Nat.le_refl _)
  | closeConnection _ id | shutNext _ | retire _ | adoptLate _ | adoptIdleLate _ =>
    rw [closeConnection_frame]
    exact .inl (Nat.le_refl _)
  | shutDown _ => exact .inl (Nat.zero_le _)
  | dialFailed _ | topUpFailed =>
    unfold lowerSize
    rw [noteDialFailure_frame]
    exact .inl (Nat.sub_le _ _)
  | dialFailedLate _ =>
    rw [noteDialFailure_frame]
    exact .inl (Nat.le_refl _)
  | topUpDenied _ _ => exact .inl (Nat.sub_le _ _)
  | finish | fail | checkIn =>
    rw [freeSlot_frame]
    exact .inl (Nat.le_refl _)
  | strike _ _ =>
    rw [strike_eq]
    exact .inl (Nat.sub_le _ _)
  | _ => exact .inl (Nat.le_refl _)

/-! ## The caps -/

/-- With its slot in hand a `get` that found no idle connection leaves room
for its own. -/
theorem Slotted.size_lt {get : Nat} (hs : Slotted p (.missed get)) (hb : Booked p 0 0)
    (hopen : p.closed = false) (hheld : p.tracked.length ≤ p.inUseCount) :
    p.size < p.options.poolSize := by
  have hslots : p.slots + p.inUseCount + p.busySlots + 1 = p.options.poolSize := hs.conserved
  have hsize : p.size = p.tracked.length + p.reserved + 0 := hb.size hopen
  have hdials := getDials_le_admittedGets p
  unfold busySlots at hslots
  unfold reserved at hsize
  omega

/-- The size of a pool, with all that is still being dialed, is within its
caps. -/
structure Capped (p : Pool) : Prop where
  slots : p.size ≤ p.options.poolSize
  active : 0 < p.options.maxActive → p.size ≤ p.options.maxActive

theorem topUpLimit_le_maxActive {o : Options} (h : 0 < o.maxActive) :
    o.topUpLimit ≤ o.maxActive := by
  unfold Options.topUpLimit
  rw [if_pos h]
  exact Nat.min_le_right _ _

theorem Capped.topUp (hc : Capped p) : Capped p.topUp := by
  have hle := size_topUp_le p
  refine ⟨?_, fun hpos => ?_⟩
  · have hlimit := p.options.topUpLimit_le_poolSize
    have hslots := hc.slots
    show p.topUp.size ≤ p.options.poolSize
    omega
  · have hlimit := topUpLimit_le_maxActive (o := p.options) hpos
    have hactive := hc.active hpos
    show p.topUp.size ≤ p.options.maxActive
    omega

theorem Capped.act (hc : Capped p) (hlt : ∀ get, h = .missed get → p.closed = false →
    p.size < p.options.poolSize) (ha : Act p h q k) : Capped q := by
  have hslots := hc.slots
  have hlimit := p.options.topUpLimit_le_poolSize
  have hcases := ha.size_cases
  refine ⟨?_, fun hpos => ?_⟩
  · rw [ha.later.options]
    rcases hcases with hle | hle | ⟨⟨get, hmissed⟩, hopen, -, heq⟩
    · omega
    · omega
    · have hroom := hlt get hmissed hopen
      omega
  · rw [ha.later.options] at hpos ⊢
    have hactive := hc.active hpos
    have hlimit := topUpLimit_le_maxActive hpos
    rcases hcases with hle | hle | ⟨-, -, hroom, heq⟩
    · omega
    · omega
    · omega

theorem Occurs.capped (hp : Occurs o p h) (ho : o.Unmarking) : Capped p := by
  induction hp with
  | create dialer now background =>
    have hnew : Capped (Pool.create o dialer now false) := ⟨Nat.zero_le _, fun _ => Nat.zero_le _⟩
    cases background with
    | false => exact hnew
    | true => exact hnew.topUp
  | act hp ha ih =>
    refine ih.act (fun get hmissed hopen => ?_) ha
    subst hmissed
    have hheld := (hp.placed ho).length_le (hp.roster ho) hp.unique hopen
    exact (hp.slotted ho).size_lt hp.booked hopen hheld
  | next _ ih => exact ih
  | giveBack _ _ ih => exact ⟨ih.slots, ih.active⟩

/-- In every reachable state of an open pool the tracked connections and
the dials of `get`s and top-ups are together at most as many as the slots,
and at most `maxActive` unless that is zero. -/
theorem connections_capped (ho : o.Unmarking) (hp : Reachable o p) (hopen : p.closed = false) :
    p.tracked.length + p.ordinaryDials ≤ o.poolSize ∧
      (0 < o.maxActive → p.tracked.length + p.ordinaryDials ≤ o.maxActive) := by
  have hcapped := hp.occurs.capped ho
  have hslots := hcapped.slots
  have hactive := hcapped.active
  have hsize : p.size = p.tracked.length + p.reserved + 0 := hp.occurs.booked.size hopen
  have hdials := ordinaryDials_le_reserved p
  rw [hp.occurs.options_eq] at hslots hactive
  refine ⟨by omega, fun hpos => ?_⟩
  have hle := hactive hpos
  omega

theorem connections_capped_dialing :
    let p := (create { poolSize := 3, minIdle := 1, maxActive := 2 } (fun _ => .held) 0 true).after
      [.turn, .resolve 1 none, .turn, .get false, .turn, .turn]
    p.closed = false ∧ p.tracked.length = 1 ∧ p.ordinaryDials = 1 ∧
      p.tracked.length + p.ordinaryDials ≤ 3 ∧
      (0 < 2 → p.tracked.length + p.ordinaryDials ≤ 2) :=
  ⟨by decide +kernel, by decide +kernel, by decide +kernel,
    connections_capped (Options.unmarking_of_nil rfl) ((Reachable.create _ _ _).after _)
      (by decide +kernel)⟩

end PooledRouting.Pool
