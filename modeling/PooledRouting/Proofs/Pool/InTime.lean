import PooledRouting.Proofs.Pool.OneCall

/-!
# One call ends in time

Dials that each come back after the same time bound how long a lone call takes: it
has its first turn when the pool settles, and after that waits for one dial at most
(`Timely`).  So when that time has passed it has ended (`Lone.ended`), and until then
there is a deadline to wait for (`Lone.deadline`).

A pool may have a probe that goes on for ever.  But tasks have their turns in the order in
which they came, and those of a lone call and of the probe are two, so the call has
its turn however long the probe goes on (`Lone.settle`).
-/

namespace PooledRouting.Pool

variable {o : Options} {p q : Pool} {finished : List Nat} {n delay limit : Nat}

/-- No call has a turn coming. -/
def CallsRest (p : Pool) : Prop :=
  ∀ w ∈ p.ready, w.call? = none

/-- Every dial comes back after the same delay, and that of the one call by the limit, unless
it has not begun and there is still time for it. -/
structure Timely (delay limit n : Nat) (p : Pool) : Prop where
  course : ∀ attempt, ∃ fault, p.dialer attempt = .answer delay fault
  due : ∀ d ∈ p.dials, ∃ time fault, d.due = some (time, fault) ∧ p.now < time ∧
    (d.caller.call? = some n → time ≤ limit)
  ahead : p.now + delay ≤ limit ∨ ∀ w ∈ p.ready, w.outside? = none
  rechecks : ∀ m, .recheck m ∉ p.ready

/-! ## Turns -/

theorem Work.isBackground_cases {w : Work} (hw : w.isBackground = true) :
    w.call? = none ∧ w.outside? = none ∧ ∀ m, w ≠ .recheck m := by
  cases w with
  | topUp | probe _ => exact ⟨rfl, rfl, nofun⟩
  | _ => cases hw

theorem Timely.step (ht : Timely delay limit n p) (hl : Lone o finished n p .start)
    (ho : o.Bare) : Timely delay limit n p.step := by
  cases hready : p.ready with
  | nil =>
    rw [step_of_settled hready]
    exact ht
  | cons w rest =>
    have hk := hl.occurs.hooksKept
    have hnow := hl.occurs.still_step.1
    obtain ⟨new, hnew, hback⟩ := hl.ready_step ho hready
    have hmem : ∀ u ∈ p.step.ready, u ∈ p.ready ∨ u.isBackground = true := fun u hu => by
      rw [hnew] at hu
      rw [hready]
      exact (List.mem_append.1 hu).imp (List.mem_cons_of_mem _) (hback u)
    refine ⟨fun attempt => ?_, fun d hd => ?_, ?_, fun m hin => ?_⟩
    · rw [(setting_step hk).2]
      exact ht.course attempt
    · rw [hnow]
      rcases newDials_step hk hready d hd with hold | ⟨hcall, hdue, hlater⟩
      · exact ht.due d hold
      · obtain ⟨fault, hcourse⟩ := ht.course d.attempt
        rw [hcourse] at hdue hlater
        have hpos : delay ≠ 0 := by
          rintro rfl
          exact hlater fault rfl
        refine ⟨_, _, hdue, by omega, fun hoe => ?_⟩
        refine ht.ahead.resolve_right fun hnone => ?_
        cases (hcall.symm.trans hoe).symm.trans (hnone w (hready ▸ List.mem_cons_self))
    · rw [hnow]
      refine ht.ahead.imp_right fun hnone u hu => ?_
      exact (hmem u hu).elim (hnone u) fun hbackground => (Work.isBackground_cases hbackground).2.1
    · rcases hmem _ hin with hold | hbackground
      · exact ht.rechecks m hold
      · cases hbackground

/-- A turn brings the others one place forward, and adds only tasks in the background. -/
theorem Lone.drop_step (hl : Lone o finished n p .start) (ho : o.Bare) {place : Nat}
    (hback : ∀ w ∈ p.ready.drop place, w.isBackground = true) :
    ∀ w ∈ p.step.ready.drop (place - 1), w.isBackground = true := by
  intro w hw
  cases hready : p.ready with
  | nil =>
    rw [step_of_settled hready, hready, List.drop_nil] at hw
    cases hw
  | cons t rest =>
    obtain ⟨new, hnew, hnewback⟩ := hl.ready_step ho hready
    rw [hnew, List.drop_append] at hw
    rw [hready] at hback
    rcases List.mem_append.1 hw with hold | hin
    · refine hback w ?_
      cases place with
      | zero => exact List.mem_cons_of_mem _ hold
      | succ place => exact hold
    · exact hnewback w (List.mem_of_mem_drop hin)

theorem Lone.run (hl : Lone o finished n p .start) (ht : Timely delay limit n p) (ho : o.Bare)
    (turns place : Nat) (hback : ∀ w ∈ p.ready.drop place, w.isBackground = true) :
    Lone o finished n (Pool.run turns p) .start ∧ Timely delay limit n (Pool.run turns p) ∧
      ∀ w ∈ (Pool.run turns p).ready.drop (place - turns), w.isBackground = true := by
  induction turns generalizing p place with
  | zero => exact ⟨hl, ht, hback⟩
  | succ turns ih =>
    unfold Pool.run
    split
    · rename_i hempty
      refine ⟨hl, ht, fun w hw => ?_⟩
      rw [List.isEmpty_iff.1 hempty, List.drop_nil] at hw
      cases hw
    · have hplace : place - (turns + 1) = place - 1 - turns := by omega
      rw [hplace]
      exact ih (hl.step ho) (ht.step hl ho) (place - 1) (hl.drop_step ho hback)

/-- Who has a turn coming is the one call or the probe. -/
theorem Lone.task_cases (hl : Lone o finished n p .start) (ho : o.Bare)
    (hrechecks : ∀ m, .recheck m ∉ p.ready) {w : Work} (hw : w ∈ p.ready) :
    w.call? = some n ∨ w.isProbe = true := by
  have hcall : ∀ m, w.call? = some m → m = n := fun m hm => by
    have hturn := turns_pos hw hm
    exact hl.call_eq (by omega)
  have hnoTopUp : w.isTopUp ≠ true :=
    List.countP_eq_zero.1 (hl.occurs.topUps_eq_zero ho) w (List.mem_append_left _ hw)
  cases w with
  | arrive m | admitted m | refused m => exact .inl (congrArg some (hcall m rfl))
  | recheck m => exact absurd hw (hrechecks m)
  | topUp => exact absurd rfl hnoTopUp
  | probe _ => exact .inr rfl
  | dialed caller attempt fault =>
    cases caller with
    | get m => exact .inl (congrArg some (hcall m rfl))
    | topUp => exact absurd rfl hnoTopUp
    | probe _ => exact .inr rfl

/-- Each of the two has one turn coming at most. -/
theorem Lone.length_ready_le (hl : Lone o finished n p .start) (ho : o.Bare)
    (hrechecks : ∀ m, .recheck m ∉ p.ready) : p.ready.length ≤ 2 := by
  have hcalls : p.ready.countP (fun w => w.call? == some n) ≤ 1 := by
    have hplaces := hl.occurs.called.places_le n
    have hturns : p.turns n = _ := countP_tasks p
    omega
  have hprobes : p.ready.countP Work.isProbe ≤ 1 := by
    have hwatched : p.probes + 0 = p.probing.toNat := hl.occurs.arises.watched
    have hle := Bool.toNat_le p.probing
    have htasks : p.tasks.countP Work.isProbe = _ := countP_tasks p
    unfold probes at hwatched
    omega
  have hothers : p.ready.countP (fun w => ¬(w.call? == some n) = true) ≤
      p.ready.countP Work.isProbe :=
    List.countP_mono_left fun w hw hnot =>
      (hl.task_cases ho hrechecks hw).resolve_left (by simpa using hnot)
  have hall := List.length_eq_countP_add_countP (fun w : Work => w.call? == some n) (l := p.ready)
  omega

/-- When all tasks have had their turn no call has one coming. -/
theorem Lone.settle (hl : Lone o finished n p .start) (ht : Timely delay limit n p) (ho : o.Bare) :
    Lone o finished n p.settle .start ∧ Timely delay limit n p.settle ∧ p.settle.CallsRest := by
  have hfew := hl.length_ready_le ho ht.rechecks
  obtain ⟨hl', ht', hback⟩ := hl.run ht ho turnLimit p.ready.length (by simp)
  have hall : p.ready.length - turnLimit = 0 := by
    unfold turnLimit
    omega
  rw [hall, List.drop_zero] at hback
  exact ⟨hl', ht', fun w hw => (Work.isBackground_cases (hback w hw)).1⟩

/-! ## Calls and returns -/

/-- A dial that is under way is that of a call that was made. -/
theorem Lone.made_of_dial (hl : Lone o finished n p .start) {d : Dial} (hd : d ∈ p.dials) {m : Nat}
    (hcall : d.caller.call? = some m) : 0 < m ∧ m ≤ p.getCount := by
  have hturn := turns_pos_iff.2 (.inr ⟨d, hd, hcall⟩)
  exact hl.occurs.called.made (by omega)

/-- A call that is made has all the time for its dial. -/
theorem Timely.get (ht : Timely delay limit n p) (hl : Lone o finished n p .start) {later : Nat}
    (htime : p.now + delay ≤ later) : Timely delay later (p.getCount + 1) (p.get false) := by
  refine ⟨ht.course, fun d hd => ?_, .inl htime, fun m hin => ?_⟩
  · obtain ⟨time, fault, hdue, hlater, -⟩ := ht.due d hd
    refine ⟨time, fault, hdue, hlater, fun hcall => ?_⟩
    have hmade := (hl.made_of_dial hd hcall).2
    omega
  · rcases List.mem_append.1 hin with hold | hnew
    · exact ht.rechecks m hold
    · cases List.mem_singleton.1 hnew

theorem Timely.release (ht : Timely delay limit n p) (hl : Lone o finished n p .start) (ho : o.Bare)
    {m : Nat} {id : ConnectionId} (hholds : Session.Holds ⟨p, finished⟩ m id) :
    Timely delay limit n (p.release id) := by
  obtain ⟨hnow, hdials, new, hnew, hback⟩ := hl.release_frame ho hholds
  refine ⟨fun attempt => ?_, fun d hd => ?_, ?_, fun l hin => ?_⟩
  · rw [(sameDials_release p id).dialer]
    exact ht.course attempt
  · rw [hnow]
    exact ht.due d (hdials ▸ hd)
  · rw [hnow]
    refine ht.ahead.imp_right fun hnone u hu => ?_
    rw [hnew] at hu
    exact (List.mem_append.1 hu).elim (hnone u) fun hin =>
      (Work.isBackground_cases (hback u hin)).2.1
  · rw [hnew] at hin
    rcases List.mem_append.1 hin with hold | hadded
    · exact ht.rechecks l hold
    · cases hback _ hadded

/-! ## The clock -/

theorem CallsRest.outside?_eq_none (hrest : p.CallsRest) {w : Work} (hw : w ∈ p.ready) :
    w.outside? = none := by
  refine Option.eq_none_iff_forall_ne_some.2 fun m hm => ?_
  cases (hrest w hw).symm.trans (Work.call?_of_outside? hm)

/-- With an empty line the clock wakes the probe, and whoever waits for a dial. -/
theorem mem_ready_fire (hline : p.line = []) {time : Nat} {w : Work}
    (hw : w ∈ (p.fire time).ready) :
    w ∈ p.ready ∨ w.outside? = none ∧ ∀ m, w ≠ .recheck m := by
  obtain ⟨due, hready, hdue⟩ := ready_fire p time
  rw [hready] at hw
  rcases List.mem_append.1 hw with hold | hnew
  · exact .inl hold
  rcases hdue w hnew with ⟨v, hv, -⟩ | ⟨tries, rfl⟩ | ⟨caller, attempt, fault, rfl⟩
  · rw [hline] at hv
    cases hv
  · exact .inr ⟨rfl, nofun⟩
  · exact .inr ⟨rfl, nofun⟩

theorem Lone.fire (hl : Lone o finished n p .start) (ho : o.Bare) (ht : Timely delay limit n p)
    (hrest : p.CallsRest) {time : Nat} (hlater : p.now < time) :
    Lone o finished n (p.fire time) .start ∧ Timely delay limit n (p.fire time) := by
  have ha : Act p .start (p.fire time) .done := by
    obtain ⟨ms, rfl⟩ := Nat.exists_eq_add_of_le (Nat.le_of_lt hlater)
    exact .fire ms
  refine ⟨hl.still ho ha rfl rfl rfl rfl, ht.course, fun d hd => ?_, .inr fun w hw => ?_,
    fun m hin => ?_⟩
  · obtain ⟨hold, hnotdue⟩ := List.mem_filter.1 hd
    obtain ⟨due, fault, hdue, -, hoe⟩ := ht.due d hold
    refine ⟨due, fault, hdue, ?_, hoe⟩
    show time < due
    unfold Dial.dueWork? at hnotdue
    simp only [hdue] at hnotdue
    split at hnotdue
    · cases hnotdue
    · omega
  · exact (mem_ready_fire hl.line hw).elim hrest.outside?_eq_none fun hnew => hnew.1
  · exact (mem_ready_fire hl.line hin).elim (ht.rechecks m) fun hnew => hnew.2 m rfl

theorem Lone.wait (hl : Lone o finished n p .start) (ho : o.Bare) (ht : Timely delay limit n p)
    (hrest : p.CallsRest) {time : Nat} (hle : p.now ≤ time) (hnext : p.nextDeadline? time = none) :
    Lone o finished n { p with now := time } .start ∧
      Timely delay limit n { p with now := time } := by
  have ha : Act p .start { p with now := time } .done := by
    obtain ⟨ms, rfl⟩ := Nat.exists_eq_add_of_le hle
    exact .wait ms hnext
  refine ⟨hl.still ho ha rfl rfl rfl rfl, ht.course, fun d hd => ?_,
    .inr fun w hw => hrest.outside?_eq_none hw, ht.rechecks⟩
  obtain ⟨due, fault, hdue, hlater, hoe⟩ := ht.due d hd
  refine ⟨due, fault, hdue, ?_, hoe⟩
  show time < due
  -- A dial that is due by then would be a deadline on the way.
  by_contra hearly
  have hin : due ∈ p.deadlines.filter fun d => p.now < d && d ≤ time := by
    refine List.mem_filter.2 ⟨List.mem_append_right _ (List.mem_filterMap.2 ⟨d, hd, ?_⟩), ?_⟩
    · rw [hdue]
      rfl
    · simp only [Bool.and_eq_true, decide_eq_true_eq]
      omega
  rw [List.min?_eq_none_iff.1 hnext] at hin
  cases hin

/-- As the clock moves on the call goes on as well. -/
theorem Lone.advance (hl : Lone o finished n p .start) (ht : Timely delay limit n p)
    (hrest : p.CallsRest) (ho : o.Bare) (ms : Nat) :
    Lone o finished n (p.advance ms) .start ∧ Timely delay limit n (p.advance ms) ∧
      (p.advance ms).CallsRest := by
  refine hl.occurs.advance_invariant
    (I := fun q => Lone o finished n q .start ∧ Timely delay limit n q ∧ q.CallsRest)
    ⟨hl, ht, hrest⟩ (fun _ ⟨hl, ht, hrest⟩ hlater => ?_) (fun _ ⟨hl, ht, hrest⟩ hle hnext => ?_) ms
  · obtain ⟨hl, ht⟩ := hl.fire ho ht hrest hlater
    exact hl.settle ht ho
  · obtain ⟨hl, ht⟩ := hl.wait ho ht hrest hle hnext
    exact ⟨hl, ht, hrest⟩

/-- A call that is not on its way has ended, or waits for a dial. -/
theorem Lone.ended_or_dialing (hl : Lone o finished n p .start) (hrest : p.CallsRest) {m : Nat}
    (hpos : 0 < m) (hmade : m ≤ p.getCount) :
    0 < p.endings m ∨ ∃ d ∈ p.dials, d.caller.call? = some m := by
  have hone := hl.occurs.called m
  have hwaits : p.waits m = 0 := by
    unfold waits
    rw [hl.line]
    rfl
  have hhand : Hand.calls m .start = 0 := rfl
  rw [if_pos ⟨hpos, hmade⟩] at hone
  unfold traces at hone
  rcases Nat.eq_zero_or_pos (p.turns m) with hnone | hturn
  · exact .inl (by omega)
  · refine .inr ((turns_pos_iff.1 hturn).resolve_left ?_)
    rintro ⟨w, hw, hcall⟩
    cases (hrest w hw).symm.trans hcall

/-- At the limit the call has ended. -/
theorem Lone.ended (hl : Lone o finished n p .start) (ht : Timely delay limit n p)
    (hrest : p.CallsRest) (hpos : 0 < n) (hmade : n ≤ p.getCount) (hlimit : limit ≤ p.now) :
    0 < p.endings n := by
  refine (hl.ended_or_dialing hrest hpos hmade).resolve_right ?_
  rintro ⟨d, hd, hcall⟩
  obtain ⟨due, fault, -, hlater, hoe⟩ := ht.due d hd
  have hdue := hoe hcall
  omega

/-- Until it has ended there is a deadline to come. -/
theorem Lone.deadline (hl : Lone o finished n p .start) (ht : Timely delay limit n p)
    (hrest : p.CallsRest) (hpos : 0 < n) (hmade : n ≤ p.getCount) (hnot : p.endings n = 0) :
    ∃ time ∈ p.deadlines, p.now < time := by
  obtain ⟨d, hd, -⟩ := (hl.ended_or_dialing hrest hpos hmade).resolve_left (by omega)
  obtain ⟨due, fault, hdue, hlater, -⟩ := ht.due d hd
  refine ⟨due, List.mem_append_right _ (List.mem_filterMap.2 ⟨d, hd, ?_⟩), hlater⟩
  rw [hdue]
  rfl

end PooledRouting.Pool
