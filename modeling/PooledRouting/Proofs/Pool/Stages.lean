import PooledRouting.Proofs.Pool.Queue

/-!
# What becomes of a `get` that waits

A `get` that finds no free slot joins the line.  It is followed through its
`Stage`s from there: it waits, it was handed a slot or refused one, it is
about to give its slot back, or its wait has ended.

* A wait ends in one way, with a slot or with a fault that was `Due`
  (`Stage.awaits_or`, `LeftBy.eq`).
* Nobody oversleeps (`Awake`): a `get` in the line whose token has fired or
  whose deadline has come has a turn in which it looks again.
-/

namespace PooledRouting.Pool

variable {o : Options} {p q : Pool} {h k : Hand} {w : Waiting} {n : Nat} {fault : Fault}

/-! ## How a wait ends -/

/-- What must have happened for a waiting `get` to end with the fault: its
token has fired, its deadline has come, or the pool is closed. -/
def Due (w : Waiting) (p : Pool) : Fault → Prop
  | .cancelled => w.get ∈ p.fired
  | .timedOut => w.deadline ≤ p.now
  | .closed => p.closed = true
  | _ => False

/-- How a wait ends. -/
inductive Exit where
  | slot
  | without (fault : Fault)

/-- The wait has ended in this way. -/
def LeftBy (w : Waiting) (p : Pool) : Exit → Prop
  | .slot => .admitted w.get ∈ p.history
  | .without fault => .admitted w.get ∉ p.history ∧ .failed w.get fault ∈ p.history ∧ Due w p fault

/-- The `get` is in the line, or has not had its turn since it was handed a
slot or refused one. -/
def Awaits (p : Pool) (w : Waiting) : Prop :=
  w ∈ p.line ∨ .admitted w.get ∈ p.ready ∨ .refused w.get ∈ p.ready

theorem Due.act (hd : Due w p fault) (ha : Act p h q k) : Due w q fault := by
  cases fault with
  | cancelled => exact ha.fired_subset hd
  | timedOut => exact Nat.le_trans hd ha.later.now
  | closed => exact ha.later.closed hd
  | exhausted | badConnection | inUse | dial _ | hook _ | transport _ => cases hd

theorem Act.not_admitted (ha : Act p h q k) (hnot : .admitted n ∉ p.history)
    (hhand : ∀ w : Work, w.outside? = some n → h ≠ .work w) : .admitted n ∉ q.history := by
  intro hin
  rcases ha.admitted_cases hin with hold | ⟨-, ⟨hh, -⟩ | hh⟩
  · exact hnot hold
  · exact hhand _ rfl hh
  · exact hhand _ rfl hh

theorem LeftBy.act {exit : Exit} (hp : Arises o p h) (hl : LeftBy w p exit) (ha : Act p h q k) :
    LeftBy w q exit := by
  cases exit with
  | slot => exact ha.mem_history hl
  | without fault =>
    obtain ⟨hnot, hfailed, hdue⟩ := hl
    refine ⟨ha.not_admitted hnot ?_, ha.mem_history hfailed, hdue.act ha⟩
    rintro t ht rfl
    -- A call that has ended has no turn in hand.
    have hcall : (Hand.work t).calls w.get = 1 := calls_eq_one (Work.call?_of_outside? ht)
    have hended : 0 < p.endings w.get := endings_pos hfailed (beq_self_eq_true _)
    have hplaces := hp.called.places_le w.get
    omega

/-- What has become of a `get` that had to wait. -/
inductive Stage (w : Waiting) (p : Pool) (h : Hand) : Prop where
  | waiting (hin : w ∈ p.line)
  | handed (hin : .admitted w.get ∈ p.ready ∨ h = .work (.admitted w.get))
  | refused (hin : .refused w.get ∈ p.ready ∨ h = .work (.refused w.get)) (hclosed : p.closed = true)
  /-- It does not take the slot that it was handed. -/
  | leaving {fault : Fault} (hh : h = .leaving (some w.get) fault)
      (hnot : .admitted w.get ∉ p.history) (hdue : Due w p fault)
  | gone (exit : Exit) (hexit : LeftBy w p exit)

/-- A `get` in the line is handed a slot, ends as it looks again, or is
refused one. -/
theorem Stage.waiting_act (hp : Arises o p h) (hin : w ∈ p.line) (ha : Act p h q k) :
    Stage w q k := by
  cases ha.lines with
  | still hline => exact .waiting (hline ▸ hin)
  | joined _ _ _ _ _ hq =>
    rw [hq]
    exact .waiting (List.mem_append_left _ hin)
  | handed v hline hready =>
    rw [hline] at hin
    rcases List.mem_cons.1 hin with rfl | hrest
    · refine .handed (.inl ?_)
      rw [hready]
      exact List.mem_append_right _ List.mem_cons_self
    · exact .waiting hrest
  | @left get fault hh hline hhistory hwhy =>
    by_cases heq : w.get = get
    · subst heq
      have hnot : .admitted w.get ∉ q.history := by
        refine ha.not_admitted (hp.not_admitted (.inr (.inl ⟨w, hin, rfl⟩))) ?_
        rintro t ht rfl
        cases hh
        cases ht
      have hdue : Due w p fault := by
        rcases hwhy with ⟨rfl, hfired⟩ | ⟨rfl, v, hv, hget, hcome⟩
        · exact hfired
        · rw [hp.called.waiting_eq hv hin hget] at hcome
          exact hcome
      exact .gone (.without fault) ⟨hnot, hhistory ▸ List.mem_cons_self, hdue.act ha⟩
    · refine .waiting ?_
      rw [hline]
      exact List.mem_filter.2 ⟨hin, by simpa using heq⟩
  | shut hq =>
    rw [hq]
    exact .refused (.inl (List.mem_append_right _ (List.mem_map_of_mem hin))) rfl

/-- With the slot it goes on, unless it is cancelled or the pool closed. -/
theorem Stage.handed_act (hp : Arises o p (.work (.admitted w.get)))
    (ha : Act p (.work (.admitted w.get)) q k) : Stage w q k := by
  have hnot := hp.not_admitted (.inr (.inr ⟨_, rfl, .inr rfl⟩))
  cases ha with
  | decline hwhy =>
    refine .leaving rfl hnot ?_
    rcases hwhy with ⟨hclosed, rfl⟩ | ⟨hfired, rfl⟩
    · exact hclosed
    · exact hfired
  | accept _ _ => exact .gone .slot List.mem_cons_self
  | touch _ _ | closeConnection _ _ => exact .handed (.inr rfl)
  | strike hr _ | pass hr _ | refuseRemoval hr _ => nomatch hr

theorem Stage.refused_act (hp : Arises o p (.work (.refused w.get))) (hclosed : p.closed = true)
    (ha : Act p (.work (.refused w.get)) q k) : Stage w q k := by
  have hnot := hp.not_admitted (.inr (.inr ⟨_, rfl, .inr rfl⟩))
  have hnew : ∀ fault, .admitted w.get ∉ Event.failed w.get fault :: p.history := fun fault hin =>
    hnot ((List.mem_cons.1 hin).resolve_left nofun)
  cases ha with
  | refuse =>
    by_cases hfired : w.get ∈ p.fired
    · rw [if_pos hfired]
      exact .gone (.without .cancelled) ⟨hnew _, List.mem_cons_self, hfired⟩
    · rw [if_neg hfired]
      exact .gone (.without .closed) ⟨hnew _, List.mem_cons_self, hclosed⟩
  | touch _ _ => exact .refused (.inr rfl) hclosed
  | closeConnection _ _ =>
    refine .refused (.inr rfl) ?_
    rw [closeConnection_frame]
    exact hclosed
  | strike hr _ | pass hr _ | refuseRemoval hr _ => nomatch hr

theorem Stage.leaving_act (hnot : .admitted w.get ∉ p.history) (hdue : Due w p fault)
    (ha : Act p (.leaving (some w.get) fault) q k) : Stage w q k := by
  have hstill := ha.not_admitted hnot nofun
  have hdue := hdue.act ha
  cases ha with
  | fail => exact .gone (.without fault) ⟨hstill, List.mem_cons_self, hdue⟩
  | touch _ _ | closeConnection _ _ => exact .leaving rfl hstill hdue
  | strike hr _ | pass hr _ | refuseRemoval hr _ => nomatch hr

theorem Stage.act (hp : Arises o p h) (hs : Stage w p h) (ha : Act p h q k) : Stage w q k := by
  cases hs with
  | waiting hin => exact .waiting_act hp hin ha
  | handed hin =>
    rcases hin with hready | rfl
    · exact .handed (ha.mem_ready hready)
    · exact .handed_act hp ha
  | refused hin hclosed =>
    rcases hin with hready | rfl
    · exact .refused (ha.mem_ready hready) (ha.later.closed hclosed)
    · exact .refused_act hp hclosed ha
  | leaving hh hnot hdue =>
    subst hh
    exact .leaving_act hnot hdue ha
  | gone exit hexit => exact .gone exit (hexit.act hp ha)

/-- Between two chains it does not matter what is in hand, nor how the
connections are marked. -/
theorem Stage.rest (hs : Stage w p h) (hh : h = .start ∨ h = .done) (connections : List Connection) :
    Stage w { p with connections := connections } k := by
  have hwork : ∀ t, h ≠ .work t := by
    rcases hh with rfl | rfl <;> nofun
  cases hs with
  | waiting hin => exact .waiting hin
  | handed hin => exact .handed (.inl (hin.resolve_right (hwork _)))
  | refused hin hclosed => exact .refused (.inl (hin.resolve_right (hwork _))) hclosed
  | leaving hleaving _ _ => rcases hh with hh | hh <;> cases hh.symm.trans hleaving
  | gone exit hexit =>
    refine .gone exit ?_
    cases exit with
    | slot => exact hexit
    | without fault => exact ⟨hexit.1, hexit.2.1, by cases fault <;> exact hexit.2.2⟩

theorem stage_enduring (w : Waiting) : Enduring o (Stage w) where
  act hp hs ha := hs.act hp ha
  next hs := hs.rest (.inr rfl) _
  mark _ _ hs := hs.rest (.inl rfl) _
  release _ hs := hs.rest (.inl rfl) _

/-- Between two turns a `get` that had to wait still waits, or its wait has
ended. -/
theorem Stage.awaits_or (hs : Stage w p .start) : p.Awaits w ∨ ∃ exit, LeftBy w p exit := by
  cases hs with
  | waiting hin => exact .inl (.inl hin)
  | handed hin => exact .inl (.inr (.inl (hin.resolve_right nofun)))
  | refused hin _ => exact .inl (.inr (.inr (hin.resolve_right nofun)))
  | leaving hh _ _ => cases hh
  | gone exit hexit => exact .inr ⟨exit, hexit⟩

/-- When nothing can move, who waits is in the line. -/
theorem Awaits.mem_line (hw : p.Awaits w) (hsettled : p.Settled) : w ∈ p.line := by
  have hempty : p.ready = [] := hsettled
  rcases hw with hin | hready | hready
  · exact hin
  · rw [hempty] at hready
    cases hready
  · rw [hempty] at hready
    cases hready

theorem Awaits.outside (hw : p.Awaits w) : Outside p h w.get := by
  rcases hw with hin | hready | hready
  · exact .inr (.inl ⟨w, hin, rfl⟩)
  · exact .inr (.inr ⟨_, rfl, .inl hready⟩)
  · exact .inr (.inr ⟨_, rfl, .inl hready⟩)

/-- A `get` that waits has not ended. -/
theorem Called.not_failed (hi : Called p h) (hw : p.Awaits w) : .failed w.get fault ∉ p.history := by
  intro hfailed
  have hended : 0 < p.endings w.get := endings_pos hfailed (beq_self_eq_true _)
  have hpos : 0 < p.turns w.get + p.waits w.get := by
    rcases hw with hin | hready | hready
    · exact Nat.add_pos_right _ (waits_pos hin)
    · exact Nat.add_pos_left (turns_pos hready rfl) _
    · exact Nat.add_pos_left (turns_pos hready rfl) _
  have hplaces := hi.places_le w.get
  omega

theorem Arises.not_leftBy (hp : Arises o p h) (hw : p.Awaits w) (exit : Exit) :
    ¬LeftBy w p exit := by
  cases exit with
  | slot => exact hp.not_admitted hw.outside
  | without fault => exact fun hl => hp.called.not_failed hw hl.2.1

/-- A wait ends in one way. -/
theorem LeftBy.eq {exit other : Exit} (hi : Called p h) (hl : LeftBy w p exit)
    (hl' : LeftBy w p other) : exit = other := by
  cases exit with
  | slot =>
    cases other with
    | slot => rfl
    | without _ => exact absurd hl hl'.1
  | without fault =>
    cases other with
    | slot => exact absurd hl' hl.1
    | without _ =>
      cases hi.ending_eq w.get hl.2.1 hl'.2.1 (beq_self_eq_true _) (beq_self_eq_true _)
      rfl

/-! ## Nobody oversleeps -/

/-- Who is in the line, and was cancelled or has waited too long, has a turn
in which it looks again. -/
def Awake (p : Pool) (h : Hand) : Prop :=
  ∀ v ∈ p.line, v.deadline ≤ p.now ∨ v.get ∈ p.fired →
    .recheck v.get ∈ p.ready ∨ h = .work (.recheck v.get)

/-- The clock and the tokens wake who is in the line. -/
theorem Act.wakes (hi : Called p h) (ha : Act p h q k) {v : Waiting} (hv : v ∈ p.line)
    (hdue : v.deadline ≤ q.now ∨ v.get ∈ q.fired) :
    (v.deadline ≤ p.now ∨ v.get ∈ p.fired) ∨ .recheck v.get ∈ q.ready := by
  cases ha with
  | get cancelled =>
    left
    refine hdue.imp_right fun hfired => ?_
    have hbegun := hi.begun hv
    have hmem : v.get ∈ if cancelled then (p.getCount + 1) :: p.fired else p.fired := hfired
    split at hmem
    · rcases List.mem_cons.1 hmem with hnew | hold
      · have hcount := hbegun.1
        omega
      · exact hold
    · exact hmem
  | cancel get =>
    unfold Pool.cancel at hdue ⊢
    split at hdue
    · exact .inl hdue
    rename_i hcancel
    rw [if_neg hcancel]
    dsimp only at hdue ⊢
    by_cases heq : v.get = get
    · have hline : (p.line.any fun v => v.get == get) = true :=
        List.any_eq_true.2 ⟨v, hv, by simpa using heq⟩
      rw [if_pos hline, ← heq]
      exact .inr (List.mem_append_right _ List.mem_cons_self)
    · left
      refine hdue.imp (fun h => ?_) fun h => ?_
      · split at h <;> exact h
      · split at h <;> exact (List.mem_cons.1 h).resolve_left heq
  | fire ms =>
    rcases hdue with hcome | hfired
    · refine .inr (List.mem_append_left _ (List.mem_append_left _ (List.mem_append_right _ ?_)))
      exact List.mem_map_of_mem (List.mem_filter.2 ⟨hv, decide_eq_true hcome⟩)
    · exact .inl (.inr hfired)
  | wait ms hnone =>
    left
    refine hdue.imp_left fun hcome => Nat.le_of_not_lt fun hlater => ?_
    unfold nextDeadline? at hnone
    have hmem : v.deadline ∈ p.deadlines.filter fun d => p.now < d && d ≤ p.now + ms := by
      refine List.mem_filter.2 ⟨?_, by simp [hlater, show v.deadline ≤ p.now + ms from hcome]⟩
      exact List.mem_append_left _ (List.mem_append_left _ (List.mem_map_of_mem hv))
    rw [List.min?_eq_none_iff.1 hnone] at hmem
    cases hmem
  | resolve attempt fault =>
    rw [resolve_frame] at hdue
    exact .inl hdue
  | closeConnection _ id | shutNext _ | retire _ | adoptLate _ | adoptIdleLate _ =>
    rw [closeConnection_frame] at hdue
    exact .inl hdue
  | dialFailed _ | topUpFailed =>
    unfold lowerSize at hdue
    rw [noteDialFailure_frame] at hdue
    exact .inl hdue
  | dialFailedLate _ =>
    rw [noteDialFailure_frame] at hdue
    exact .inl hdue
  | finish | fail | checkIn =>
    rw [freeSlot_frame] at hdue
    exact .inl hdue
  | strike _ _ =>
    rw [strike_eq] at hdue
    exact .inl hdue
  | _ => exact .inl hdue

theorem Awake.act (hi : Awake p h) (hcalled : Called p h) (ha : Act p h q k) : Awake q k := by
  intro v hv hdue
  -- Who was in the line before, and should have looked again, does so.
  have hlate : v ∈ p.line → v.deadline ≤ p.now ∨ v.get ∈ p.fired →
      .recheck v.get ∈ q.ready ∨ k = .work (.recheck v.get) := by
    intro hin hold
    rcases hi v hin hold with hready | rfl
    · exact ha.mem_ready hready
    · cases ha with
      | giveUp _ _ | timeOut _ =>
        have hgone : v ∈ p.line.filter fun w => w.get != v.get := hv
        simp at hgone
      | lookAway hearly =>
        have hsome : (p.line.find? fun w => w.get == v.get).isSome = true :=
          List.find?_isSome.2 ⟨v, hin, beq_self_eq_true _⟩
        obtain ⟨w, hw⟩ := Option.isSome_iff_exists.1 hsome
        have hget : w.get = v.get := by simpa using List.find?_some hw
        have hsame : w = v := hcalled.waiting_eq (List.mem_of_find?_eq_some hw) hin hget
        obtain ⟨hlive, hbefore⟩ := hearly w hw
        rw [hsame] at hbefore
        rcases hold with hcome | hfired
        · omega
        · exact absurd hfired hlive
      | touch _ _ | closeConnection _ _ => exact .inr rfl
      | strike hr _ | pass hr _ | refuseRemoval hr _ => nomatch hr
  have hold : v ∈ p.line → .recheck v.get ∈ q.ready ∨ k = .work (.recheck v.get) := fun hin =>
    (ha.wakes hcalled hin hdue).elim (hlate hin) .inl
  cases ha.lines with
  | still hline => exact hold (hline ▸ hv)
  | joined _ _ hlive _ htimeout hq =>
    rw [hq] at hv hdue
    rcases List.mem_append.1 hv with hin | hnew
    · exact hold hin
    · -- Who joins has time left and was not cancelled.
      rw [List.mem_singleton.1 hnew] at hdue
      rcases hdue with hcome | hfired
      · exact absurd (show p.now + p.options.poolTimeout ≤ p.now from hcome) (by omega)
      · exact absurd hfired hlive
  | handed u hline _ => exact hold (hline ▸ List.mem_cons_of_mem u hv)
  | left _ hline _ _ => exact hold (List.mem_of_mem_filter (hline ▸ hv))
  | shut hq =>
    rw [hq] at hv
    cases hv

theorem Arises.awake (hp : Arises o p h) : Awake p h := by
  induction hp with
  | create dialer now background =>
    have hempty : (Pool.create o dialer now background).line = [] := by
      cases background <;> rfl
    intro v hv
    rw [hempty] at hv
    cases hv
  | act hp ha ih => exact ih.act hp.called ha
  | next _ ih | release _ _ ih => exact fun v hv hdue => (ih v hv hdue).imp_right nofun
  | mark _ _ _ ih => exact ih

/-- When nothing can move, who waits has time left and was not cancelled. -/
theorem Arises.asleep (hp : Arises o p .start) (hsettled : p.Settled) {v : Waiting}
    (hv : v ∈ p.line) : p.now < v.deadline ∧ v.get ∉ p.fired := by
  have hstill : ¬(v.deadline ≤ p.now ∨ v.get ∈ p.fired) := fun hdue => by
    rcases hp.awake v hv hdue with hready | hwork
    · rw [show p.ready = [] from hsettled] at hready
      cases hready
    · cases hwork
  exact ⟨Nat.lt_of_not_le fun hcome => hstill (.inl hcome), fun hfired => hstill (.inr hfired)⟩

end PooledRouting.Pool
